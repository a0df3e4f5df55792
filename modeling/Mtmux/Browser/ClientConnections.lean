import Mtmux.Browser.ClientSteps

/-! Has the client one connection at a time, and one timer? It is called from many places, and it calls
handlers in the middle of what it does. -/
namespace Mtmux.Browser
open Protocol OrderedMap List Option

namespace RelayClient

/-- No transport is open or opening. -/
def Dead (s : RelayClient) : Prop := ∀ t line, s.lines.get t = some line → line.alive = false

def waits (s : RelayClient) : Nat := s.timers.length + s.todo.count .schedule + s.todo.count .setTimer

structure Lone (outs : List ClientOutput) (s : RelayClient) : Prop extends s.Joined where
  timer : s.timers = s.reconnectTimer.toList
  waits : s.waits ≤ 1
  idle : 0 < s.waits → s.Dead ∧ s.connecting = false ∧ s.todo.count .dial = 0
  confirmed : s.status = .connected →
    ∃ t line, s.transport = some t ∧ s.lines.get t = some line ∧ line.alive = true ∧ .authed t ∈ outs
  connected : ∀ t line, s.lines.get t = some line → line.alive = true → .authed t ∈ outs →
    s.status = .connected
  known : ∀ t line, s.lines.get t = some line → t < s.next
  heard : ∀ t, .authed t ∈ outs → t < s.next
  apart : 0 < s.todo.count .authenticated →
    s.waits = 0 ∧ s.todo.count .dial = 0 ∧ ∀ t, s.todo.count (.dialled t) = 0
  pinging : s.pinging = true → s.waits = 0

/-- There is something left to do after the handlers. -/
def unfinished : ClientPoint → Bool
  | .handlers | .dialled _ => false
  | _ => true

def settled (s : RelayClient) : Bool := s.todo.all fun point => !unfinished point

section Lone
variable {outs : List ClientOutput} {s t : RelayClient}

theorem lone_init (route : Nat) (token : String) : (init route token).Lone [] where
  toJoined := (@wired_init [] route token).toJoined
  timer := rfl
  waits := Nat.zero_le _
  idle := by
    intro hwaits
    cases hwaits
  confirmed := by
    intro hstatus
    cases hstatus
  connected := by
    intro t line hget
    cases hget
  known := by
    intro t line hget
    cases hget
  heard := by
    intro t hauthed
    cases hauthed
  apart := by
    intro hcount
    cases hcount
  pinging := by
    intro hpinging
    cases hpinging

theorem waits_same (htimers : t.timers = s.timers)
    (htodo : ∀ point, point ≠ .handlers → t.todo.count point = s.todo.count point) : t.waits = s.waits := by
  unfold RelayClient.waits
  rw [htimers, htodo .schedule (by simp), htodo .setTimer (by simp)]

theorem Lone.of_same (h : s.Lone outs) (htransport : t.transport = s.transport) (hlines : t.lines = s.lines)
    (hstatus : t.status = s.status) (htimer : t.reconnectTimer = s.reconnectTimer)
    (htimers : t.timers = s.timers) (hpinging : t.pinging = true → s.pinging = true)
    (hconnecting : t.connecting = true → s.connecting = true) (hnext : s.next ≤ t.next)
    (htodo : ∀ point, point ≠ .handlers → t.todo.count point = s.todo.count point) : t.Lone outs := by
  have hwaits : t.waits = s.waits := waits_same htimers htodo
  refine { h.toJoined.of_same htransport hlines (htodo .dial (by simp)) with
    timer := by rw [htimers, htimer, h.timer]
    waits := hwaits ▸ h.waits
    idle := ?_, confirmed := ?_, connected := ?_, known := ?_, heard := ?_, apart := ?_, pinging := ?_ }
  · rw [hwaits, htodo .dial (by simp), Dead, hlines]
    intro hpos
    obtain ⟨hdead, hidle, hdial⟩ := h.idle hpos
    refine ⟨hdead, ?_, hdial⟩
    cases hnow : t.connecting with
    | false => rfl
    | true => rw [hconnecting hnow] at hidle; cases hidle
  · rw [hstatus, htransport, hlines]
    exact h.confirmed
  · rw [hlines, hstatus]
    exact h.connected
  · rw [hlines]
    intro id line hget
    exact Nat.lt_of_lt_of_le (h.known id line hget) hnext
  · intro id hauthed
    exact Nat.lt_of_lt_of_le (h.heard id hauthed) hnext
  · rw [htodo .authenticated (by simp), hwaits, htodo .dial (by simp)]
    intro hpos
    obtain ⟨hzero, hdial, hdialled⟩ := h.apart hpos
    refine ⟨hzero, hdial, ?_⟩
    intro id
    rw [htodo (.dialled id) (by simp)]
    exact hdialled id
  · rw [hwaits]
    intro hnow
    exact h.pinging (hpinging hnow)

theorem Lone.queues (h : s.Lone outs) (hqueues : s.Queues t) : t.Lone outs :=
  h.of_same hqueues.transport hqueues.lines hqueues.status hqueues.reconnectTimer hqueues.timers
    (fun hp => hqueues.pinging ▸ hp) (fun hc => hqueues.connecting ▸ hc) (Nat.le_of_eq hqueues.next.symm)
    hqueues.todo

theorem Lone.more (h : s.Lone outs) {out : List ClientOutput} (hout : ∀ t, .authed t ∉ out) : s.Lone (outs ++ out) := by
  have hauthed : ∀ t, .authed t ∈ outs ++ out → .authed t ∈ outs := by
    intro t hmem
    exact (mem_append.1 hmem).elim id fun hnew => absurd hnew (hout t)
  refine { h with confirmed := ?_, connected := ?_, heard := ?_ }
  · intro hstatus
    obtain ⟨t, line, htransport, hget, halive, hmem⟩ := h.confirmed hstatus
    exact ⟨t, line, htransport, hget, halive, mem_append_left _ hmem⟩
  · intro t line hget halive hmem
    exact h.connected t line hget halive (hauthed t hmem)
  · intro t hmem
    exact h.heard t (hauthed t hmem)

/-- Nothing is connected or connecting. -/
theorem Joined.lone (h : s.Joined) (hdead : s.Dead) (hstatus : s.status ≠ .connected)
    (htimer : s.timers = s.reconnectTimer.toList) (hwaits : s.waits ≤ 1)
    (hidle : 0 < s.waits → s.connecting = false ∧ s.todo.count .dial = 0)
    (hknown : ∀ t line, s.lines.get t = some line → t < s.next) (hheard : ∀ t, .authed t ∈ outs → t < s.next)
    (hapart : 0 < s.todo.count .authenticated →
      s.waits = 0 ∧ s.todo.count .dial = 0 ∧ ∀ t, s.todo.count (.dialled t) = 0)
    (hpinging : s.pinging = true → s.waits = 0) : s.Lone outs :=
  { h with
    timer := htimer
    waits := hwaits
    idle := fun hpos => ⟨hdead, hidle hpos⟩
    confirmed := fun hconnected => absurd hconnected hstatus
    connected := by
      intro t line hget halive
      rw [hdead t line hget] at halive
      cases halive
    known := hknown
    heard := hheard
    apart := hapart
    pinging := hpinging }

variable {line : Line}

theorem alive_current (h : s.Joined) {id : Nat} (hget : s.lines.get id = some line)
    (halive : line.alive = true) : s.transport = some id := by
  simp only [Line.alive, Bool.and_eq_true, Bool.not_eq_true'] at halive
  exact h.current id line hget halive.1

theorem dead_closeTransport (h : s.Joined) (closer : Closer) : (s.closeTransport closer).1.Dead := by
  intro id line hget
  rw [get_closeTransport] at hget
  by_cases hcurrent : s.transport = some id
  · rw [if_pos hcurrent] at hget
    obtain ⟨old, -, hline⟩ := map_eq_some_iff.1 hget
    rw [← hline]
    rfl
  · rw [if_neg hcurrent] at hget
    cases halive : line.alive with
    | false => rfl
    | true => exact absurd (alive_current h hget halive) hcurrent

theorem known_closeTransport (h : ∀ t line, s.lines.get t = some line → t < s.next) (closer : Closer)
    (id : Nat) (line : Line) (hget : (s.closeTransport closer).1.lines.get id = some line) : id < s.next := by
  rw [get_closeTransport] at hget
  by_cases hcurrent : s.transport = some id
  · rw [if_pos hcurrent] at hget
    obtain ⟨old, hold, -⟩ := map_eq_some_iff.1 hget
    exact h id old hold
  · rw [if_neg hcurrent] at hget
    exact h id line hget

theorem closeTransport_frame (s : RelayClient) (closer : Closer) : (s.closeTransport closer).1.timers = s.timers ∧
    (s.closeTransport closer).1.reconnectTimer = s.reconnectTimer ∧
    (s.closeTransport closer).1.next = s.next ∧ (s.closeTransport closer).1.pinging = s.pinging ∧
    (s.closeTransport closer).1.connecting = s.connecting ∧ (s.closeTransport closer).1.status = s.status ∧
    (s.closeTransport closer).1.intentionalClose = s.intentionalClose := by
  unfold closeTransport
  split <;> exact ⟨rfl, rfl, rfl, rfl, rfl, rfl, rfl⟩

variable {point : ClientPoint}

theorem count_settled (h : s.settled = true) (hpoint : unfinished point = true) :
    s.todo.count point = 0 := by
  rw [count_eq_zero]
  intro hmem
  have hnot := all_eq_true.1 h point hmem
  rw [hpoint] at hnot
  cases hnot

theorem Lone.wired (h : s.Lone outs) : s.Wired outs :=
  { h.toJoined with
    status := by
      intro hstatus
      obtain ⟨t, line, htransport, -, -, hauthed⟩ := h.confirmed hstatus
      exact ⟨t, htransport, hauthed⟩ }

theorem clearTimer_timers (h : s.timers = s.reconnectTimer.toList) :
    s.clearTimer.timers = [] ∧ s.clearTimer.reconnectTimer = none := by
  unfold clearTimer
  split
  · rename_i hnone
    rw [h, hnone]
    exact ⟨rfl, rfl⟩
  · rename_i timer hsome
    rw [hsome] at h
    simp [h]

theorem clearTimer_frame (s : RelayClient) : s.clearTimer.next = s.next ∧
    s.clearTimer.pinging = s.pinging ∧ s.clearTimer.reconnectCount = s.reconnectCount := by
  unfold clearTimer
  split <;> exact ⟨rfl, rfl, rfl⟩

/-- A connection is made where nothing else is left to do. -/
theorem connect_lone (h : s.Lone outs) (closer : Closer) (hsettled : s.connecting = false → s.settled = true) :
    (s.connect closer).1.Lone outs := by
  have hwired := connect_wired h.wired closer fun hidle => count_settled (hsettled hidle) rfl
  obtain ⟨htransport, hlines, htodo, hstatus, hconnecting, -⟩ := clearTimer_same s
  obtain ⟨htimers, hnone⟩ := clearTimer_timers h.timer
  obtain ⟨hnext, hpinging, hcount⟩ := clearTimer_frame s
  unfold connect at hwired ⊢
  dsimp only at hwired ⊢
  rw [hconnecting] at hwired ⊢
  split at hwired
  · rename_i hbusy
    rw [if_pos hbusy]
    -- No reconnect waits while the client is connecting, so that there is no timer to clear.
    have hzero : s.waits = 0 := by
      by_contra hpos
      obtain ⟨-, hidle, -⟩ := h.idle (Nat.pos_of_ne_zero hpos)
      rw [hidle] at hbusy
      cases hbusy
    have hempty : s.timers = [] := by
      have hlength : s.timers.length = 0 := by
        unfold RelayClient.waits at hzero
        omega
      exact length_eq_zero_iff.1 hlength
    have hcleared : s.clearTimer = s := by
      unfold clearTimer
      split
      · rfl
      · rename_i timer hsome
        have htimer := h.timer
        rw [hempty, hsome] at htimer
        cases htimer
    rw [hcleared]
    exact h
  · rename_i hidle
    rw [if_neg hidle]
    have hsettled := hsettled (by simpa using hidle)
    obtain ⟨hclosedTimers, hclosedNone, hclosedNext, -, -, -, -⟩ := closeTransport_frame s.clearTimer closer
    have hjoined : s.clearTimer.Joined := h.toJoined.of_same htransport hlines (by rw [htodo])
    have hdead := dead_closeTransport hjoined closer
    have htodo' : (s.clearTimer.closeTransport closer).1.todo = s.todo := by
      rw [closeTransport_todo, htodo]
    generalize hclosed : s.clearTimer.closeTransport closer = closed at *
    generalize hnow : (if 0 < s.clearTimer.reconnectCount then ClientStatus.reconnecting
      else .connecting) = status at *
    have hpoints : ∀ point, point ≠ .handlers → point ≠ .dial →
        (ClientPoint.handlers :: [.dial] ++ closed.1.todo).count point = s.todo.count point := by
      intro point hhandlers hdial
      rw [cons_append, count_handlers hhandlers, cons_append, count_cons_of_ne hdial.symm,
        nil_append, htodo']
    have hwaits : (({ closed.1 with intentionalClose := false, connecting := true } :
        RelayClient).setStatus status [.dial]).1.waits = 0 := by
      change closed.1.timers.length + (ClientPoint.handlers :: [.dial] ++ closed.1.todo).count .schedule +
        (ClientPoint.handlers :: [.dial] ++ closed.1.todo).count .setTimer = 0
      rw [hpoints .schedule (by simp) (by simp), hpoints .setTimer (by simp) (by simp), hclosedTimers, htimers,
        count_settled hsettled rfl, count_settled hsettled rfl]
      rfl
    refine hwired.toJoined.lone hdead ?_ ?_ ?_ ?_ ?_ ?_ ?_ ?_
    · change status ≠ .connected
      rw [← hnow]
      split <;> simp
    · change closed.1.timers = closed.1.reconnectTimer.toList
      rw [hclosedTimers, hclosedNone, htimers, hnone]
      rfl
    · exact Nat.le_trans (Nat.le_of_eq hwaits) (Nat.zero_le 1)
    · intro hpos
      rw [hwaits] at hpos
      cases hpos
    · intro id line hget
      change id < closed.1.next
      rw [hclosedNext, ← hclosed] at *
      refine known_closeTransport ?_ closer id line hget
      rw [hlines, hnext]
      exact h.known
    · intro id hauthed
      change id < closed.1.next
      rw [hclosedNext, hnext]
      exact h.heard id hauthed
    · intro hpos
      change 0 < (ClientPoint.handlers :: [.dial] ++ closed.1.todo).count .authenticated at hpos
      rw [hpoints .authenticated (by simp) (by simp), count_settled hsettled rfl] at hpos
      cases hpos
    · intro _
      exact hwaits

variable {rest : List ClientPoint}

theorem setStatus_lone (h : s.Joined) (hdead : s.Dead) {status : ClientStatus} (hstatus : status ≠ .connected)
    (hrest : ∀ point, point ≠ .handlers → point ≠ .schedule → rest.count point = 0)
    (htimer : s.timers = s.reconnectTimer.toList) (hwaits : s.waits + rest.count .schedule ≤ 1)
    (hidle : 0 < s.waits + rest.count .schedule → s.connecting = false ∧ s.todo.count .dial = 0)
    (hknown : ∀ t line, s.lines.get t = some line → t < s.next) (hheard : ∀ t, .authed t ∈ outs → t < s.next)
    (hapart : 0 < s.todo.count .authenticated →
      s.waits + rest.count .schedule = 0 ∧ s.todo.count .dial = 0 ∧ ∀ t, s.todo.count (.dialled t) = 0)
    (hpinging : s.pinging = true → s.waits + rest.count .schedule = 0) : (s.setStatus status rest).1.Lone outs := by
  have hpoints : ∀ point, point ≠ .handlers → point ≠ .schedule →
      (ClientPoint.handlers :: rest ++ s.todo).count point = s.todo.count point := by
    intro point hhandlers hschedule
    rw [cons_append, count_handlers hhandlers, count_append, hrest point hhandlers hschedule,
      Nat.zero_add]
  have htotal : (s.setStatus status rest).1.waits = s.waits + rest.count .schedule := by
    change s.timers.length + (ClientPoint.handlers :: rest ++ s.todo).count .schedule +
      (ClientPoint.handlers :: rest ++ s.todo).count .setTimer = _
    rw [hpoints .setTimer (by simp) (by simp), cons_append, count_handlers (by simp), count_append]
    unfold RelayClient.waits
    omega
  have hjoined : (s.setStatus status rest).1.Joined :=
    h.of_same rfl rfl (hpoints .dial (by simp) (by simp))
  refine hjoined.lone hdead hstatus htimer ?_ ?_ hknown hheard ?_ ?_
  · rw [htotal]
    exact hwaits
  · rw [htotal]
    intro hpos
    obtain ⟨hconnecting, hdial⟩ := hidle hpos
    exact ⟨hconnecting, (hpoints .dial (by simp) (by simp)).trans hdial⟩
  · rw [htotal]
    intro hpos
    change 0 < (ClientPoint.handlers :: rest ++ s.todo).count .authenticated at hpos
    rw [hpoints .authenticated (by simp) (by simp)] at hpos
    obtain ⟨hzero, hdial, hdialled⟩ := hapart hpos
    refine ⟨hzero, (hpoints .dial (by simp) (by simp)).trans hdial, ?_⟩
    intro id
    exact (hpoints (.dialled id) (by simp) (by simp)).trans (hdialled id)
  · rw [htotal]
    exact hpinging

section
variable (h : s.Lone outs)
include h

theorem disconnect_lone : s.disconnect.1.Lone outs := by
  have hflags : ({ s with intentionalClose := true, connecting := false, pinging := false } :
      RelayClient).Lone outs :=
    h.of_same rfl rfl rfl rfl rfl (fun hp => by cases hp) (fun hc => by cases hc) (Nat.le_refl _)
      fun _ _ => rfl
  unfold disconnect
  dsimp only
  generalize hu : ({ s with intentionalClose := true, connecting := false, pinging := false } : RelayClient) =
    u at hflags
  obtain ⟨htransport, hlines, htodo, hstatus, hconnecting, -⟩ := clearTimer_same u
  obtain ⟨htimers, hnone⟩ := clearTimer_timers hflags.timer
  obtain ⟨hnext, hpinging, -⟩ := clearTimer_frame u
  obtain ⟨hclosedTimers, hclosedNone, hclosedNext, hclosedPinging, hclosedConnecting, -, -⟩ :=
    closeTransport_frame u.clearTimer .disconnect
  have hclosedTodo : (u.clearTimer.closeTransport .disconnect).1.todo = u.todo := by
    rw [closeTransport_todo, htodo]
  have hjoined : u.clearTimer.Joined := hflags.toJoined.of_same htransport hlines (by rw [htodo])
  have hless : (u.clearTimer.closeTransport .disconnect).1.waits ≤ u.waits := by
    unfold RelayClient.waits
    rw [hclosedTimers, htimers, hclosedTodo, length_nil]
    omega
  have hwaits := hflags.waits
  refine setStatus_lone (hjoined.closeTransport .disconnect) (dead_closeTransport hjoined .disconnect) (by simp)
    (fun _ _ _ => rfl) ?_ ?_ ?_ ?_ ?_ ?_ ?_
  · rw [hclosedTimers, hclosedNone, htimers, hnone]
    rfl
  · rw [count_nil]
    omega
  · rw [count_nil]
    intro hpos
    obtain ⟨-, hidle, hdial⟩ := hflags.idle (by omega)
    exact ⟨by rw [hclosedConnecting, hconnecting, hidle], by rw [hclosedTodo, hdial]⟩
  · intro id line hget
    rw [hclosedNext]
    refine known_closeTransport ?_ .disconnect id line hget
    rw [hlines, hnext]
    exact hflags.known
  · rw [hclosedNext, hnext]
    exact hflags.heard
  · rw [hclosedTodo, count_nil]
    intro hpos
    obtain ⟨hzero, hdial, hdialled⟩ := hflags.apart hpos
    exact ⟨by omega, hdial, hdialled⟩
  · rw [hclosedPinging, hpinging, count_nil]
    intro hp
    have hzero := hflags.pinging hp
    omega

theorem calls_lone {method : ClientMethod}
    (hsettled : s.opens method = true → s.settled = true) : (s.calls method).1.Lone outs := by
  cases method with
  | connect => exact connect_lone h .connect fun hidle => hsettled (by simp [opens, hidle])
  | disconnect => exact disconnect_lone h
  | reconnectNow =>
    simp only [calls, reconnectNow]
    split
    · exact h
    · rename_i hopen
      have hflags : ({ s with reconnectDelay := minReconnectDelay } : RelayClient).Lone outs :=
        h.of_same rfl rfl rfl rfl rfl id id (Nat.le_refl _) fun _ _ => rfl
      refine connect_lone hflags .connect fun hidle => ?_
      change s.connecting = false at hidle
      exact hsettled (by simp [opens, hidle, hopen])
  | setTransport route =>
    simp only [calls, setTransport]
    split
    · exact h.of_same rfl rfl rfl rfl rfl id id (Nat.le_refl _) fun _ _ => rfl
    · rename_i hopen
      have hflags : ({ s with
          makeTransport := route
          routeStaleAsked := false
          reconnectDelay := minReconnectDelay
          connecting := false } : RelayClient).Lone outs :=
        h.of_same rfl rfl rfl rfl rfl id (fun hc => by cases hc) (Nat.le_refl _) fun _ _ => rfl
      refine connect_lone hflags .setTransport fun _ => ?_
      change ¬ s.intentionalClose = true at hopen
      exact hsettled (by simp [opens, hopen])
  | send msg => exact h.queues (send_queues s msg)

theorem waits_alive {id : Nat} (hget : s.lines.get id = some line)
    (halive : line.alive = true) : s.waits = 0 := by
  by_contra hpos
  obtain ⟨hdead, -, -⟩ := h.idle (Nat.pos_of_ne_zero hpos)
  rw [hdead id line hget] at halive
  cases halive

theorem closes_lone {id : Nat} (hget : s.lines.get id = some line)
    (halive : line.alive = true) (hplace : s.todo = [] ∨ s.todo.head? = some (.dialled id)) :
    (s.closes id).1.Lone outs := by
  have hzero := waits_alive h hget halive
  have hcurrent := alive_current h.toJoined hget halive
  have hdial : s.todo.count .dial = 0 := by
    by_contra hpos
    have hnone := h.dial (Nat.pos_of_ne_zero hpos)
    rw [hcurrent] at hnone
    cases hnone
  have hauth : s.todo.count .authenticated = 0 := by
    by_contra hpos
    obtain ⟨-, -, hdialled⟩ := h.apart (Nat.pos_of_ne_zero hpos)
    cases hplace with
    | inl hempty =>
      rw [hempty] at hpos
      exact hpos rfl
    | inr hhead =>
      obtain ⟨rest, htodo⟩ := List.head?_eq_some_iff.1 hhead
      have hnot := hdialled id
      rw [htodo, count_cons_self] at hnot
      cases hnot
  have hjoined : ({ s with
      lines := s.lines.modify id fun line => { line with ended := true, isOpen := false }
      connecting := false
      pinging := false } : RelayClient).Joined :=
    (h.toJoined.modify id (f := fun line => { line with ended := true, isOpen := false }) fun _ => rfl).of_same
      rfl rfl rfl
  have hdead : ({ s with
      lines := s.lines.modify id fun line => { line with ended := true, isOpen := false }
      connecting := false
      pinging := false } : RelayClient).Dead := by
    intro other found hfound
    change (s.lines.modify id _).get other = some found at hfound
    rw [get_modify] at hfound
    by_cases heq : other = id
    · rw [if_pos heq] at hfound
      obtain ⟨old, -, hline⟩ := map_eq_some_iff.1 hfound
      rw [← hline]
      simp [Line.alive]
    · rw [if_neg heq] at hfound
      cases hother : found.alive with
      | false => rfl
      | true =>
        have hsame := (alive_current h.toJoined hfound hother).symm.trans hcurrent
        exact absurd (Option.some.inj hsame) heq
  have hknown : ∀ other found, (s.lines.modify id fun line =>
      { line with ended := true, isOpen := false }).get other = some found → other < s.next := by
    intro other found hfound
    rw [get_modify] at hfound
    by_cases heq : other = id
    · rw [heq]
      exact h.known id line hget
    · rw [if_neg heq] at hfound
      exact h.known other found hfound
  have hpoint : ∀ point, point ≠ .handlers → point ≠ .schedule →
      [ClientPoint.schedule].count point = 0 := by
    intro point _ hschedule
    rw [count_cons_of_ne hschedule.symm, count_nil]
  unfold closes
  dsimp only
  split
  · refine setStatus_lone hjoined hdead (by simp) (fun _ _ _ => rfl) h.timer ?_ ?_ hknown h.heard ?_ ?_
    · exact Nat.le_trans (Nat.le_of_eq hzero) (Nat.zero_le 1)
    · intro hpos
      exact ⟨rfl, hdial⟩
    · intro hpos
      exact absurd hauth (Nat.ne_of_gt hpos)
    · intro hp
      cases hp
  · refine setStatus_lone hjoined hdead (by simp) hpoint h.timer ?_ ?_ hknown h.heard ?_ ?_
    · change s.waits + 1 ≤ 1
      omega
    · intro _
      exact ⟨rfl, hdial⟩
    · intro hpos
      exact absurd hauth (Nat.ne_of_gt hpos)
    · intro hp
      cases hp

theorem authSuccess_lone {id : Nat} (hget : s.lines.get id = some line)
    (halive : line.alive = true) (htodo : s.todo = []) :
    (s.handleMessage id .authSuccess).1.Lone (outs ++ (s.handleMessage id .authSuccess).2) := by
  have hzero := waits_alive h hget halive
  have htimers : s.timers.length = 0 := by
    unfold RelayClient.waits at hzero
    omega
  have hnow : (s.handleMessage id .authSuccess).1.waits = 0 := by
    change s.timers.length + (ClientPoint.handlers :: [.authenticated, .handlers] ++ s.todo).count .schedule +
      (ClientPoint.handlers :: [.authenticated, .handlers] ++ s.todo).count .setTimer = 0
    rw [htimers, htodo]
    rfl
  have hcount : (ClientPoint.handlers :: [.authenticated, .handlers] ++ s.todo).count .dial =
      s.todo.count .dial := by simp
  refine { (h.toJoined.of_same rfl rfl hcount : (s.handleMessage id .authSuccess).1.Joined) with
    timer := h.timer
    waits := Nat.le_trans (Nat.le_of_eq hnow) (Nat.zero_le 1)
    idle := ?_, confirmed := ?_, connected := fun _ _ _ _ _ => rfl, known := h.known, heard := ?_, apart := ?_
    pinging := fun _ => hnow }
  · intro hpos
    exact absurd hnow (Nat.ne_of_gt hpos)
  · intro _
    exact ⟨id, line, alive_current h.toJoined hget halive, hget, halive,
      mem_append_right _ mem_cons_self⟩
  · intro other hauthed
    cases mem_append.1 hauthed with
    | inl hold => exact h.heard other hold
    | inr hnew =>
      cases mem_cons.1 hnew with
      | inl hsame =>
        cases hsame
        exact h.known id line hget
      | inr hstatus => cases mem_singleton.1 hstatus
  · intro _
    refine ⟨hnow, ?_, ?_⟩
    · rw [show (s.handleMessage id .authSuccess).1.todo = .handlers :: [.authenticated, .handlers] ++ s.todo
        from rfl, htodo]
      rfl
    · intro other
      rw [show (s.handleMessage id .authSuccess).1.todo = .handlers :: [.authenticated, .handlers] ++ s.todo
        from rfl, htodo]
      simp

/-- The current transport is closed from here while nothing else is left to do. -/
theorem closed_lone (hjoined : t.Joined) (hdead : t.Dead) (htodo : t.todo = [])
    (htimers : t.timers = s.timers) (htimer : t.reconnectTimer = s.reconnectTimer) (hnext : t.next = s.next)
    (hconnecting : t.connecting = false) (hknown : ∀ id line, t.lines.get id = some line → id < s.next)
    {status : ClientStatus} (hstatus : status ≠ .connected)
    (hrest : ∀ point, point ≠ .handlers → point ≠ .schedule → rest.count point = 0)
    (hwaits : s.timers.length + rest.count .schedule ≤ 1)
    (hpinging : t.pinging = true → s.timers.length + rest.count .schedule = 0) :
    (t.setStatus status rest).1.Lone outs := by
  have htotal : t.waits = s.timers.length := by
    unfold RelayClient.waits
    rw [htimers, htodo]
    rfl
  refine setStatus_lone hjoined hdead hstatus hrest ?_ ?_ ?_ ?_ ?_ ?_ ?_
  · rw [htimers, htimer, h.timer]
  · rw [htotal]
    exact hwaits
  · intro _
    rw [htodo]
    exact ⟨hconnecting, rfl⟩
  · rw [hnext]
    exact hknown
  · rw [hnext]
    exact h.heard
  · intro hpos
    rw [htodo] at hpos
    cases hpos
  · rw [htotal]
    exact hpinging

theorem handleMessage_lone {heard : Nat} (htodo : s.todo = []) {msg : RelayAnswer} (hmsg : msg ≠ .authSuccess) :
    (s.handleMessage heard msg).1.Lone outs := by
  cases msg with
  | authSuccess => exact absurd rfl hmsg
  | authFailure =>
    have hflags : ({ s with intentionalClose := true, connecting := false } : RelayClient).Lone outs :=
      h.of_same rfl rfl rfl rfl rfl id (fun hc => by cases hc) (Nat.le_refl _) fun _ _ => rfl
    obtain ⟨htimers, htimer, hnext, hpinging, hconnecting, -, -⟩ :=
      closeTransport_frame { s with intentionalClose := true, connecting := false } .authFailure
    have hpoint : ∀ point, point ≠ .handlers → point ≠ .schedule →
        [ClientPoint.handlers].count point = 0 := by
      intro point hhandlers _
      rw [count_cons_of_ne hhandlers.symm, count_nil]
    have hless : s.timers.length ≤ s.waits := by
      unfold RelayClient.waits
      omega
    have hwaits := h.waits
    refine closed_lone hflags (hflags.toJoined.closeTransport .authFailure)
      (dead_closeTransport hflags.toJoined .authFailure) (by rw [closeTransport_todo, htodo]) htimers htimer hnext
      hconnecting (known_closeTransport hflags.known .authFailure) (by simp : ClientStatus.disconnected ≠ .connected) hpoint
      ?_ ?_
    · change s.timers.length + 0 ≤ 1
      omega
    · intro hp
      rw [hpinging] at hp
      have hzero := h.pinging hp
      change s.timers.length + 0 = 0
      omega
  | pong _ | other => exact h.of_same rfl rfl rfl rfl rfl id id (Nat.le_refl _) fun _ hp => count_handlers hp s.todo

theorem pings_lone (htodo : s.todo = []) (hpinging : s.pinging = true)
    (bufferedAmount : Nat) : (s.pings bufferedAmount).1.Lone outs := by
  have hzero := h.pinging hpinging
  have hnone : s.timers.length = 0 := by
    unfold RelayClient.waits at hzero
    omega
  have hpoint : ∀ point, point ≠ .handlers → point ≠ .schedule →
      [ClientPoint.schedule].count point = 0 := by
    intro point _ hschedule
    rw [count_cons_of_ne hschedule.symm, count_nil]
  have hdrop : s.dropConnection.1.Lone outs := by
    obtain ⟨htimers, htimer, hnext, -, -, -, -⟩ := closeTransport_frame s .zombie
    have hjoined : ({ (s.closeTransport .zombie).1 with connecting := false, pinging := false } :
        RelayClient).Joined := (h.toJoined.closeTransport .zombie).of_same rfl rfl rfl
    have htodo' : (s.closeTransport .zombie).1.todo = [] := by rw [closeTransport_todo, htodo]
    exact closed_lone h hjoined (dead_closeTransport h.toJoined .zombie) htodo' htimers htimer hnext rfl
      (known_closeTransport h.known .zombie) (by simp) hpoint (by rw [hnone]; exact Nat.le_refl 1)
      (fun hp => by cases hp)
  unfold pings
  split
  · exact hdrop
  · split
    · exact hdrop
    · exact h.queues (send_queues s _)

/-- A point other than the handlers is done. -/
theorem popped_lone
    (htodo : s.todo = point :: rest) : ({ s with todo := rest } : RelayClient).Lone outs := by
  have hless : ∀ p, rest.count p ≤ s.todo.count p := by
    intro p
    rw [htodo]
    exact count_le_count_cons
  have hwaits : ({ s with todo := rest } : RelayClient).waits ≤ s.waits := by
    unfold RelayClient.waits
    have hschedule := hless .schedule
    have htimer := hless .setTimer
    change s.timers.length + rest.count .schedule + rest.count .setTimer ≤ _
    omega
  have hdial := hless .dial
  refine { h with dial := ?_, once := ?_, waits := Nat.le_trans hwaits h.waits, idle := ?_, apart := ?_, pinging := ?_ }
  · intro hpos
    exact h.dial (Nat.lt_of_lt_of_le hpos hdial)
  · exact Nat.le_trans hdial h.once
  · intro hpos
    obtain ⟨hdead, hidle, hnone⟩ := h.idle (Nat.lt_of_lt_of_le hpos hwaits)
    exact ⟨hdead, hidle, Nat.le_zero.1 (hnone ▸ hdial)⟩
  · intro hpos
    obtain ⟨hzero, hnone, hdialled⟩ := h.apart (Nat.lt_of_lt_of_le hpos (hless .authenticated))
    refine ⟨Nat.le_zero.1 (hzero ▸ hwaits), Nat.le_zero.1 (hnone ▸ hdial), ?_⟩
    intro id
    exact Nat.le_zero.1 (hdialled id ▸ hless (.dialled id))
  · intro hp
    exact Nat.le_zero.1 (h.pinging hp ▸ hwaits)

theorem waiting_lone (hpos : 0 < s.waits) (htransport : t.transport = s.transport)
    (hlines : t.lines = s.lines) (hstatus : t.status = s.status) (htimer : t.timers = t.reconnectTimer.toList)
    (hwaits : t.waits = s.waits) (hpinging : t.pinging = s.pinging) (hconnecting : t.connecting = s.connecting)
    (hnext : s.next ≤ t.next) (hdial : t.todo.count .dial = s.todo.count .dial)
    (hauth : t.todo.count .authenticated = s.todo.count .authenticated) : t.Lone outs := by
  obtain ⟨hdead, hidle, hnone⟩ := h.idle hpos
  have hdead' : t.Dead := by
    rw [Dead, hlines]
    exact hdead
  refine (h.toJoined.of_same htransport hlines hdial).lone hdead' ?_ htimer ?_ ?_ ?_ ?_ ?_ ?_
  · rw [hstatus]
    intro hconnected
    obtain ⟨id, line, -, hget, halive, -⟩ := h.confirmed hconnected
    rw [hdead id line hget] at halive
    cases halive
  · rw [hwaits]
    exact h.waits
  · intro _
    exact ⟨hconnecting.trans hidle, hdial.trans hnone⟩
  · rw [hlines]
    intro id line hget
    exact Nat.lt_of_lt_of_le (h.known id line hget) hnext
  · intro id hauthed
    exact Nat.lt_of_lt_of_le (h.heard id hauthed) hnext
  · rw [hauth]
    intro hcount
    obtain ⟨hzero, -, -⟩ := h.apart hcount
    omega
  · rw [hpinging]
    intro hp
    have hzero := h.pinging hp
    omega

theorem goesOn_lone (htodo : s.todo = point :: rest) :
    (({ s with todo := rest } : RelayClient).goesOn point).1.Lone outs := by
  have hpopped := popped_lone h htodo
  have hbound := h.waits
  cases point with
  | handlers | dialled id => exact hpopped
  | dial =>
    have hdial : 0 < s.todo.count .dial := by simp [htodo]
    have hnone := h.dial hdial
    have hzero : s.waits = 0 := by
      by_contra hpos
      obtain ⟨-, -, hcount⟩ := h.idle (Nat.pos_of_ne_zero hpos)
      omega
    have hauth : s.todo.count .authenticated = 0 := by
      by_contra hpos
      obtain ⟨-, hcount, -⟩ := h.apart (Nat.pos_of_ne_zero hpos)
      omega
    have hjoined := (goesOn_wired h.wired htodo).toJoined
    have hnow : (({ s with todo := rest } : RelayClient).goesOn .dial).1.waits = 0 := by
      unfold RelayClient.waits at hzero ⊢
      rw [htodo, count_cons_of_ne (by simp), count_cons_of_ne (by simp)] at hzero
      change s.timers.length + (ClientPoint.dialled s.next :: rest).count .schedule +
        (ClientPoint.dialled s.next :: rest).count .setTimer = 0
      rw [count_cons_of_ne (by simp), count_cons_of_ne (by simp)]
      exact hzero
    refine { hjoined with
      timer := h.timer
      waits := Nat.le_trans (Nat.le_of_eq hnow) (Nat.zero_le 1)
      idle := ?_, confirmed := ?_, connected := ?_, known := ?_, heard := ?_, apart := ?_
      pinging := fun _ => hnow }
    · intro hpos
      exact absurd hnow (Nat.ne_of_gt hpos)
    · intro hstatus
      obtain ⟨id, line, hcurrent, -⟩ := h.confirmed hstatus
      rw [hnone] at hcurrent
      cases hcurrent
    · intro id line hget halive hauthed
      change (s.lines.set s.next _).get id = some line at hget
      rw [get_set] at hget
      by_cases heq : id = s.next
      · have hlt := h.heard id hauthed
        omega
      · rw [if_neg heq] at hget
        exact h.connected id line hget halive hauthed
    · intro id line hget
      change (s.lines.set s.next _).get id = some line at hget
      rw [get_set] at hget
      change id < s.next + 1
      by_cases heq : id = s.next
      · omega
      · rw [if_neg heq] at hget
        have hlt := h.known id line hget
        omega
    · intro id hauthed
      have hlt := h.heard id hauthed
      change id < s.next + 1
      omega
    · intro hpos
      change 0 < (ClientPoint.dialled s.next :: rest).count .authenticated at hpos
      rw [count_cons_of_ne (by simp)] at hpos
      rw [htodo, count_cons_of_ne (by simp)] at hauth
      omega
  | authenticated =>
    obtain ⟨hzero, -, -⟩ := h.apart (by simp [htodo])
    have hnow : ({ s with todo := rest } : RelayClient).waits = 0 := by
      unfold RelayClient.waits at hzero ⊢
      rw [htodo, count_cons_of_ne (by simp), count_cons_of_ne (by simp)] at hzero
      exact hzero
    have hflags : Lone outs { s with
        todo := rest
        reconnectDelay := minReconnectDelay
        reconnectCount := 0
        routeStaleAsked := false
        pinging := true
        lastPongAt := s.now } := { hpopped with pinging := fun _ => hnow }
    exact hflags.queues (flushPendingMessages_queues _)
  | schedule =>
    have hpos : 0 < s.waits := by
      unfold RelayClient.waits
      rw [htodo, count_cons_self]
      omega
    have htotal : s.timers.length + rest.count .schedule + (rest.count .setTimer + 1) = s.waits := by
      unfold RelayClient.waits
      rw [htodo, count_cons_self, count_cons_of_ne (by simp)]
      omega
    simp only [goesOn]
    split
    · exact hpopped
    · split
      · refine waiting_lone h hpos rfl rfl rfl h.timer ?_ rfl rfl (Nat.le_refl _) ?_ ?_
        · rw [← htotal]
          simp [RelayClient.waits]
        · simp [htodo]
        · simp [htodo]
      · refine waiting_lone h hpos rfl rfl rfl h.timer ?_ rfl rfl (Nat.le_refl _) ?_ ?_
        · rw [← htotal]
          simp [RelayClient.waits]
        · simp [htodo]
        · simp [htodo]
  | setTimer =>
    have htotal : s.timers.length + rest.count .schedule + (rest.count .setTimer + 1) = s.waits := by
      unfold RelayClient.waits
      rw [htodo, count_cons_self, count_cons_of_ne (by simp)]
    have hempty : s.timers = [] := length_eq_zero_iff.1 (by omega)
    refine waiting_lone h (by omega) rfl rfl rfl ?_ ?_ rfl rfl (Nat.le_succ _) ?_ ?_
    · change s.next :: s.timers = [s.next]
      rw [hempty]
    · rw [← htotal]
      change (s.next :: s.timers).length + rest.count .schedule + rest.count .setTimer = _
      rw [length_cons]
      omega
    · simp [goesOn, htodo]
    · simp [goesOn, htodo]

end

/-- A transport calls `onClose` at most once, and not after `close`. -/
def honest (s : RelayClient) : ClientEvent → Bool
  | .onClose t => (s.lines.get t).all Line.alive
  | _ => true

/-- A connection is not made while the client is connected, nor by a handler in the middle of what the client
does; nothing is put directly while messages wait; and no token is confirmed over a transport that has called
`onClose`. -/
def orderly (s : RelayClient) : ClientEvent → Bool
  | .calls .connect => !s.yields || !s.opens .connect || (s.settled && decide (s.status ≠ .connected))
  | .calls .reconnectNow =>
    !s.yields || !s.opens .reconnectNow || (s.settled && decide (s.status ≠ .connected))
  | .calls (.setTransport route) => !s.yields || !s.opens (.setTransport route) || s.settled
  | .calls (.send _) | .pingFires _ => s.ready.isNone || s.pendingMessages.isEmpty
  | .onMessage t .authSuccess => (s.lines.get t).all (!·.ended)
  | _ => true

theorem settled_of_orderly {method : ClientMethod} (horderly : s.orderly (.calls method) = true)
    (hyields : s.yields = true) (hopens : s.opens method = true) : s.settled = true := by
  cases method with
  | connect | reconnectNow =>
    simp only [orderly, hyields, hopens, Bool.not_true, Bool.false_or, Bool.and_eq_true] at horderly
    exact horderly.1
  | setTransport route =>
    simpa [orderly, hyields, hopens] using horderly
  | disconnect | send msg => cases hopens

/-- A transport is open now, or is not. -/
theorem Lone.modify (h : s.Lone outs) (changed : Nat) {f : Line → Line}
    (hf : ∀ line, (f line).detached = line.detached ∧ (f line).ended = line.ended) :
    ({ s with lines := s.lines.modify changed f } : RelayClient).Lone outs := by
  have halive : ∀ line, (f line).alive = line.alive := by
    intro line
    rw [Line.alive, Line.alive, (hf line).1, (hf line).2]
  have hback : ∀ t line, (s.lines.modify changed f).get t = some line →
      ∃ old, s.lines.get t = some old ∧ line.alive = old.alive := by
    intro t line hget
    rw [get_modify] at hget
    by_cases heq : t = changed
    · rw [if_pos heq] at hget
      obtain ⟨old, hold, hline⟩ := map_eq_some_iff.1 hget
      exact ⟨old, hold, by rw [← hline, halive]⟩
    · rw [if_neg heq] at hget
      exact ⟨line, hget, rfl⟩
  refine { h with
    toJoined := h.toJoined.modify changed fun line => (hf line).1
    idle := ?_, confirmed := ?_, connected := ?_, known := ?_ }
  · intro hpos
    obtain ⟨hdead, hrest⟩ := h.idle hpos
    refine ⟨?_, hrest⟩
    intro t line hget
    obtain ⟨old, hold, hsame⟩ := hback t line hget
    rw [hsame]
    exact hdead t old hold
  · intro hstatus
    obtain ⟨t, line, htransport, hget, hlive, hauthed⟩ := h.confirmed hstatus
    by_cases heq : t = changed
    · refine ⟨t, f line, htransport, ?_, (halive line).trans hlive, hauthed⟩
      change (s.lines.modify changed f).get t = _
      rw [get_modify, if_pos heq, hget]
      rfl
    · refine ⟨t, line, htransport, ?_, hlive, hauthed⟩
      change (s.lines.modify changed f).get t = _
      rw [get_modify, if_neg heq, hget]
  · intro t line hget hlive hauthed
    obtain ⟨old, hold, hsame⟩ := hback t line hget
    exact h.connected t old hold (hsame ▸ hlive) hauthed
  · intro t line hget
    obtain ⟨old, hold, -⟩ := hback t line hget
    exact h.known t old hold

theorem fired_lone (h : s.Lone outs) {timer : Nat} (hmem : timer ∈ s.timers) :
    ({ s with timers := s.timers.filter (· ≠ timer), reconnectTimer := none } : RelayClient).Lone outs := by
  have hone : s.timers = [timer] := by
    rw [h.timer] at hmem ⊢
    rw [mem_toList] at hmem
    rw [hmem]
    rfl
  have hbound := h.waits
  have hnow : ({ s with timers := s.timers.filter (· ≠ timer), reconnectTimer := none } :
      RelayClient).waits = 0 := by
    unfold RelayClient.waits at hbound ⊢
    rw [hone] at hbound ⊢
    simp only [length_cons, length_nil] at hbound
    simp only [ne_eq, not_true_eq_false, decide_false, Bool.false_eq_true, not_false_eq_true,
      filter_cons_of_neg, filter_nil, length_nil]
    omega
  have hempty : s.timers.filter (· ≠ timer) = [] := by simp [hone]
  refine { h with
    timer := hempty, waits := Nat.le_trans (Nat.le_of_eq hnow) (Nat.zero_le 1)
    idle := fun hpos => absurd hnow (Nat.ne_of_gt hpos)
    apart := fun hcount => ⟨hnow, (h.apart hcount).2⟩, pinging := fun _ => hnow }

theorem Lone.step_plain (h : s.Lone outs) {e : ClientEvent} (hhonest : s.honest e = true)
    (horderly : s.orderly e = true) (hplain : ∀ id, e ≠ .onMessage id .authSuccess) : (s.step e).1.Lone outs := by
  cases e with
  | calls method =>
    simp only [RelayClient.step]
    split
    · rename_i hyields
      exact calls_lone h (settled_of_orderly horderly hyields)
    · exact h
  | goesOn =>
    simp only [RelayClient.step]
    split
    · exact h
    · rename_i point rest htodo
      exact goesOn_lone h htodo
  | onOpen current =>
    simp only [RelayClient.step]
    split
    · exact h
    · exact h
  | onMessage heard msg =>
    simp only [RelayClient.step]
    split
    · rename_i hlive
      exact handleMessage_lone h hlive.1 fun hmsg => hplain heard (by rw [hmsg])
    · exact h
  | onClose closed =>
    simp only [RelayClient.step]
    split
    · rename_i hplace
      obtain ⟨line, hget⟩ := isSome_iff_exists.1 hplace.1
      have halive : line.alive = true := by simpa [honest, hget] using hhonest
      exact closes_lone h hget halive hplace.2
    · exact h
  | readyState changed isOpen =>
    exact h.modify changed (f := fun line => { line with isOpen := isOpen && line.alive }) fun _ => ⟨rfl, rfl⟩
  | timerFires timer =>
    simp only [RelayClient.step]
    split
    · rename_i hfires
      have hempty : ({ s with timers := s.timers.filter (· ≠ timer), reconnectTimer := none } :
          RelayClient).settled = true := by
        rw [settled, hfires.1]
        rfl
      exact connect_lone (fired_lone h hfires.2) .connect fun _ => hempty
    · exact h
  | pingFires bufferedAmount =>
    simp only [RelayClient.step]
    split
    · rename_i hpings
      exact pings_lone h hpings.1 hpings.2 bufferedAmount
    · exact h
  | passes ms => exact h.of_same rfl rfl rfl rfl rfl (fun hp => hp) (fun hc => hc) (Nat.le_refl _) fun _ _ => rfl

theorem Lone.step (h : s.Lone outs) {e : ClientEvent} (hhonest : s.honest e = true)
    (horderly : s.orderly e = true) : (s.step e).1.Lone (outs ++ (s.step e).2) := by
  by_cases hauth : ∃ id, e = .onMessage id .authSuccess
  · obtain ⟨heard, rfl⟩ := hauth
    simp only [RelayClient.step]
    split
    · rename_i hlive
      obtain ⟨line, hget, hdetached⟩ := (any_eq_true _ _).1 hlive.2
      refine authSuccess_lone h hget ?_ hlive.1
      simp only [orderly, hget, all_some] at horderly
      simp only [Line.alive, Bool.and_eq_true]
      exact ⟨hdetached, horderly⟩
    · exact h.more (by simp)
  · refine (h.step_plain hhonest horderly fun id he => hauth ⟨id, he⟩).more fun id hmem => ?_
    obtain hnot | ⟨heard, he, -⟩ | ⟨closer, hnot, -⟩ := step_says hmem
    · cases hnot
    · exact hauth ⟨heard, he⟩
    · cases hnot

end Lone
end RelayClient
end Mtmux.Browser
