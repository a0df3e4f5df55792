import Mtmux.Browser.RelayClient

/-! The steps of the client, and which transport it has: as long as nobody makes a connection while one is
being made, a transport that was not closed from here is the current one. -/
namespace Mtmux.Browser
open Protocol OrderedMap List

abbrev ClientEntry : Type := Machine.Entry RelayClient ClientEvent ClientOutput

namespace RelayClient

/-- The call makes a connection. -/
def opens (s : RelayClient) : ClientMethod → Bool
  | .connect => !s.connecting
  | .reconnectNow => !s.intentionalClose && !s.connecting
  | .setTransport _ => !s.intentionalClose
  | .disconnect | .send _ => false

/-- Only the queue, the handlers to call and the number of sends differ. -/
structure Queues (s t : RelayClient) : Prop where
  transport : t.transport = s.transport
  lines : t.lines = s.lines
  status : t.status = s.status
  reconnectTimer : t.reconnectTimer = s.reconnectTimer
  timers : t.timers = s.timers
  pinging : t.pinging = s.pinging
  connecting : t.connecting = s.connecting
  intentionalClose : t.intentionalClose = s.intentionalClose
  next : t.next = s.next
  todo : ∀ point, point ≠ .handlers → t.todo.count point = s.todo.count point

section Sends
variable {s t u : RelayClient}

theorem Queues.refl (s : RelayClient) : s.Queues s :=
  ⟨rfl, rfl, rfl, rfl, rfl, rfl, rfl, rfl, rfl, fun _ _ => rfl⟩

theorem Queues.trans (h : s.Queues t) (h' : t.Queues u) : s.Queues u where
  transport := h'.transport.trans h.transport
  lines := h'.lines.trans h.lines
  status := h'.status.trans h.status
  reconnectTimer := h'.reconnectTimer.trans h.reconnectTimer
  timers := h'.timers.trans h.timers
  pinging := h'.pinging.trans h.pinging
  connecting := h'.connecting.trans h.connecting
  intentionalClose := h'.intentionalClose.trans h.intentionalClose
  next := h'.next.trans h.next
  todo point hpoint := (h'.todo point hpoint).trans (h.todo point hpoint)

variable {point : ClientPoint}

theorem count_handlers (h : point ≠ .handlers) (todo : List ClientPoint) :
    (ClientPoint.handlers :: todo).count point = todo.count point := by
  rw [count_cons_of_ne]
  exact h.symm

theorem enqueue_queues (s : RelayClient) (msg : Nat × ClientMessage) : s.Queues (s.enqueue msg).1 := by
  unfold enqueue
  split
  · exact .refl s
  · dsimp only
    split
    · exact ⟨rfl, rfl, rfl, rfl, rfl, rfl, rfl, rfl, rfl, fun _ _ => rfl⟩
    · exact ⟨rfl, rfl, rfl, rfl, rfl, rfl, rfl, rfl, rfl, fun _ hpoint => count_handlers hpoint s.todo⟩

theorem deliver_queues (s : RelayClient) (msg : Nat × ClientMessage) : s.Queues (s.deliver msg).1 := by
  unfold deliver
  split
  · exact .refl s
  · exact enqueue_queues s msg

theorem send_queues (s : RelayClient) (msg : ClientMessage) : s.Queues (s.send msg).1 := by
  have hsends : s.Queues { s with sends := s.sends + 1 } :=
    ⟨rfl, rfl, rfl, rfl, rfl, rfl, rfl, rfl, rfl, fun _ _ => rfl⟩
  exact hsends.trans (deliver_queues _ _)

/-- One message of the queue after the other is sent again. -/
def flush (r : ClientStep) (messages : List (Nat × ClientMessage)) : ClientStep :=
  messages.foldl (fun r msg => ((r.1.deliver msg).1, r.2 ++ (r.1.deliver msg).2)) r

theorem flush_queues (r : ClientStep) (messages : List (Nat × ClientMessage)) : r.1.Queues (flush r messages).1 := by
  induction messages generalizing r with
  | nil => exact .refl r.1
  | cons msg messages ih => exact (deliver_queues r.1 msg).trans (ih ((r.1.deliver msg).1, r.2 ++ (r.1.deliver msg).2))

theorem flushPendingMessages_queues (s : RelayClient) : s.Queues s.flushPendingMessages.1 := by
  have hempty : s.Queues { s with pendingMessages := [] } :=
    ⟨rfl, rfl, rfl, rfl, rfl, rfl, rfl, rfl, rfl, fun _ _ => rfl⟩
  exact hempty.trans (flush_queues ({ s with pendingMessages := [] }, []) s.pendingMessages)

end Sends

/-- A transport that was not closed from here is the current one, and there is none while one is being
made. -/
structure Joined (s : RelayClient) : Prop where
  current : ∀ t line, s.lines.get t = some line → line.detached = false → s.transport = some t
  dial : 0 < s.todo.count .dial → s.transport = none
  once : s.todo.count .dial ≤ 1

/-- The relay has confirmed the token on the current transport of a client that is connected. -/
structure Wired (outs : List ClientOutput) (s : RelayClient) : Prop extends s.Joined where
  status : s.status = .connected → ∃ t, s.transport = some t ∧ .authed t ∈ outs

section Wiring
variable {outs : List ClientOutput} {s t : RelayClient}

theorem wired_init (route : Nat) (token : String) : (init route token).Wired outs where
  current := by
    intro t line hget
    cases hget
  dial := by
    intro hcount
    cases hcount
  once := Nat.zero_le _
  status := by
    intro hstatus
    cases hstatus

theorem Joined.of_same (h : s.Joined) (htransport : t.transport = s.transport) (hlines : t.lines = s.lines)
    (htodo : t.todo.count .dial = s.todo.count .dial) : t.Joined := by
  refine ⟨?_, ?_, ?_⟩
  · rw [hlines, htransport]
    exact h.current
  · rw [htodo, htransport]
    exact h.dial
  · rw [htodo]
    exact h.once

theorem Joined.wired (h : s.Joined) (hstatus : s.status ≠ .connected) : s.Wired outs :=
  { h with status := fun hconnected => absurd hconnected hstatus }

theorem Wired.of_same (h : s.Wired outs) (htransport : t.transport = s.transport) (hlines : t.lines = s.lines)
    (htodo : t.todo.count .dial = s.todo.count .dial) (hstatus : t.status = s.status) : t.Wired outs :=
  { h.toJoined.of_same htransport hlines htodo with
    status := by
      rw [hstatus, htransport]
      exact h.status }

theorem Wired.more (h : s.Wired outs) (out : List ClientOutput) : s.Wired (outs ++ out) :=
  { h with
    status := by
      intro hstatus
      obtain ⟨t, hcurrent, hauthed⟩ := h.status hstatus
      exact ⟨t, hcurrent, mem_append_left _ hauthed⟩ }

theorem Wired.queues (h : s.Wired outs) (hqueues : s.Queues t) : t.Wired outs :=
  h.of_same hqueues.transport hqueues.lines (hqueues.todo .dial (by simp)) hqueues.status

theorem Joined.modify (h : s.Joined) (id : Nat) {f : Line → Line} (hf : ∀ line, (f line).detached = line.detached) :
    ({ s with lines := s.lines.modify id f } : RelayClient).Joined where
  current := by
    intro t line hget hlive
    rw [get_modify] at hget
    by_cases heq : t = id
    · rw [if_pos heq] at hget
      obtain ⟨old, hold, hline⟩ := Option.map_eq_some_iff.1 hget
      rw [← hline, hf] at hlive
      exact h.current t old hold hlive
    · rw [if_neg heq] at hget
      exact h.current t line hget hlive
  __ := h

theorem get_closeTransport (s : RelayClient) (closer : Closer) (t : Nat) :
    (s.closeTransport closer).1.lines.get t =
      if s.transport = some t then (s.lines.get t).map fun line => { line with detached := true, isOpen := false }
      else s.lines.get t := by
  unfold closeTransport
  split
  · rename_i hnone
    rw [if_neg (by rw [hnone]; simp)]
  · rename_i current hcurrent
    rw [hcurrent]
    simp only [get_modify, Option.some.injEq]
    by_cases heq : t = current
    · rw [if_pos heq, if_pos heq.symm]
    · rw [if_neg heq, if_neg fun h => heq h.symm]

theorem closeTransport_none (s : RelayClient) (closer : Closer) : (s.closeTransport closer).1.transport = none := by
  unfold closeTransport
  split
  · assumption
  · rfl

theorem closeTransport_todo (s : RelayClient) (closer : Closer) : (s.closeTransport closer).1.todo = s.todo := by
  unfold closeTransport
  split <;> rfl

theorem Joined.closeTransport (h : s.Joined) (closer : Closer) : (s.closeTransport closer).1.Joined where
  current := by
    intro t line hget hlive
    rw [get_closeTransport] at hget
    by_cases hcurrent : s.transport = some t
    · rw [if_pos hcurrent] at hget
      obtain ⟨old, -, hline⟩ := Option.map_eq_some_iff.1 hget
      rw [← hline] at hlive
      cases hlive
    · rw [if_neg hcurrent] at hget
      exact absurd (h.current t line hget hlive) hcurrent
  dial := by
    intro _
    exact closeTransport_none s closer
  once := by
    rw [closeTransport_todo]
    exact h.once

theorem clearTimer_same (s : RelayClient) : s.clearTimer.transport = s.transport ∧
    s.clearTimer.lines = s.lines ∧ s.clearTimer.todo = s.todo ∧ s.clearTimer.status = s.status ∧
    s.clearTimer.connecting = s.connecting ∧ s.clearTimer.intentionalClose = s.intentionalClose := by
  unfold clearTimer
  split <;> exact ⟨rfl, rfl, rfl, rfl, rfl, rfl⟩

variable {rest : List ClientPoint}

theorem setStatus_wired (h : s.Joined) {status : ClientStatus} (hstatus : status ≠ .connected)
    (hrest : rest.count .dial = 0) : (s.setStatus status rest).1.Wired outs := by
  have hcount : (ClientPoint.handlers :: rest ++ s.todo).count .dial = s.todo.count .dial := by
    rw [cons_append, count_handlers (by simp), count_append, hrest, Nat.zero_add]
  exact (h.of_same rfl rfl hcount : (s.setStatus status rest).1.Joined).wired hstatus

section
variable (h : s.Wired outs)
include h

theorem connect_wired (closer : Closer)
    (hdial : s.connecting = false → s.todo.count .dial = 0) : (s.connect closer).1.Wired outs := by
  obtain ⟨htransport, hlines, htodo, hstatus, hconnecting, -⟩ := clearTimer_same s
  have hclear : s.clearTimer.Wired outs := h.of_same htransport hlines (by rw [htodo]) hstatus
  unfold connect
  dsimp only
  rw [hconnecting]
  split
  · exact hclear
  · rename_i hidle
    have hclosed := hclear.toJoined.closeTransport closer
    have hnone := closeTransport_none s.clearTimer closer
    have hzero : (s.clearTimer.closeTransport closer).1.todo.count .dial = 0 := by
      rw [closeTransport_todo, htodo]
      exact hdial (by simpa using hidle)
    have hcount : (ClientPoint.handlers :: [.dial] ++ (s.clearTimer.closeTransport closer).1.todo).count
        .dial = 1 := by
      rw [cons_append, count_handlers (by simp), count_append, hzero]
      rfl
    refine Joined.wired ⟨hclosed.current, fun _ => hnone, Nat.le_of_eq hcount⟩ ?_
    change (if 0 < s.clearTimer.reconnectCount then ClientStatus.reconnecting else .connecting) ≠ .connected
    split <;> simp

theorem disconnect_wired : s.disconnect.1.Wired outs := by
  have hflags : ({ s with intentionalClose := true, connecting := false, pinging := false } :
      RelayClient).Wired outs := h.of_same rfl rfl rfl rfl
  obtain ⟨htransport, hlines, htodo, hstatus, -, -⟩ := clearTimer_same
    { s with intentionalClose := true, connecting := false, pinging := false }
  have hclear := hflags.toJoined.of_same htransport hlines (by rw [htodo])
  exact setStatus_wired (hclear.closeTransport .disconnect) (by simp) rfl

theorem calls_wired {method : ClientMethod}
    (hdial : s.opens method = true → s.todo.count .dial = 0) : (s.calls method).1.Wired outs := by
  cases method with
  | connect => exact connect_wired h .connect fun hidle => hdial (by simp [opens, hidle])
  | disconnect => exact disconnect_wired h
  | reconnectNow =>
    simp only [calls, reconnectNow]
    split
    · exact h
    · rename_i hopen
      have hflags : ({ s with reconnectDelay := minReconnectDelay } : RelayClient).Wired outs :=
        h.of_same rfl rfl rfl rfl
      refine connect_wired hflags .connect fun hidle => hdial ?_
      change s.connecting = false at hidle
      simp [opens, hidle, hopen]
  | setTransport route =>
    simp only [calls, setTransport]
    split
    · exact h.of_same rfl rfl rfl rfl
    · rename_i hopen
      have hflags : ({ s with
          makeTransport := route
          routeStaleAsked := false
          reconnectDelay := minReconnectDelay
          connecting := false } : RelayClient).Wired outs := h.of_same rfl rfl rfl rfl
      refine connect_wired hflags .setTransport fun _ => hdial ?_
      change ¬ s.intentionalClose = true at hopen
      simp [opens, hopen]
  | send msg => exact h.queues (send_queues s msg)

theorem closes_wired (id : Nat) : (s.closes id).1.Wired outs := by
  have hjoined : ({ s with
      lines := s.lines.modify id fun line => { line with ended := true, isOpen := false }
      connecting := false
      pinging := false } : RelayClient).Joined :=
    (h.toJoined.modify id (f := fun line => { line with ended := true, isOpen := false }) fun _ => rfl).of_same
      rfl rfl rfl
  unfold closes
  dsimp only
  split
  · exact setStatus_wired hjoined (by simp) rfl
  · exact setStatus_wired hjoined (by simp) rfl

theorem handleMessage_wired {id : Nat} {line : Line} (hget : s.lines.get id = some line)
    (hlive : line.detached = false) (msg : RelayAnswer) :
    (s.handleMessage id msg).1.Wired (outs ++ (s.handleMessage id msg).2) := by
  cases msg with
  | authSuccess =>
    have hcount : (ClientPoint.handlers :: [.authenticated, .handlers] ++ s.todo).count .dial =
        s.todo.count .dial := by simp
    refine { (h.toJoined.of_same rfl rfl hcount : (s.handleMessage id .authSuccess).1.Joined) with
      status := ?_ }
    intro _
    exact ⟨id, h.current id line hget hlive, mem_append_right _ mem_cons_self⟩
  | authFailure =>
    have hflags : ({ s with intentionalClose := true, connecting := false } : RelayClient).Wired outs :=
      h.of_same rfl rfl rfl rfl
    exact setStatus_wired (hflags.toJoined.closeTransport .authFailure) (by simp) rfl
  | pong _ | other => exact (h.more []).of_same rfl rfl (count_handlers (by simp) s.todo) rfl

theorem dropConnection_wired : s.dropConnection.1.Wired outs := by
  have hclosed : ({ (s.closeTransport .zombie).1 with connecting := false, pinging := false } :
      RelayClient).Joined := (h.toJoined.closeTransport .zombie).of_same rfl rfl rfl
  exact setStatus_wired hclosed (by simp) rfl

theorem pings_wired (bufferedAmount : Nat) : (s.pings bufferedAmount).1.Wired outs := by
  unfold pings
  split
  · exact dropConnection_wired h
  · split
    · exact dropConnection_wired h
    · exact h.queues (send_queues s _)

theorem goesOn_wired (htodo : s.todo = point :: rest) :
    ({ s with todo := rest } : RelayClient).goesOn point |>.1.Wired outs := by
  have hrest : point ≠ .dial → ({ s with todo := rest } : RelayClient).Wired outs := by
    intro hne
    refine h.of_same rfl rfl ?_ rfl
    rw [htodo, count_cons_of_ne hne]
  cases point with
  | handlers | dialled id => exact hrest (by simp)
  | dial =>
    have honce := h.once
    have hnone := h.dial (by rw [htodo]; simp)
    rw [htodo, count_cons_self] at honce
    have hzero : rest.count .dial = 0 := by omega
    have hcount : (ClientPoint.dialled s.next :: rest).count .dial = 0 := by simp [hzero]
    have hjoined : Joined { s with
        transport := some s.next
        lines := s.lines.set s.next ⟨s.makeTransport, false, false, false⟩
        next := s.next + 1
        todo := .dialled s.next :: rest } := by
      refine ⟨?_, ?_, ?_⟩
      · intro id line hget hlive
        change (s.lines.set s.next _).get id = some line at hget
        rw [get_set] at hget
        by_cases heq : id = s.next
        · rw [heq]
        · rw [if_neg heq] at hget
          have hcurrent := h.current id line hget hlive
          rw [hnone] at hcurrent
          cases hcurrent
      · intro hpos
        change 0 < (ClientPoint.dialled s.next :: rest).count .dial at hpos
        omega
      · exact Nat.le_trans (Nat.le_of_eq hcount) (Nat.zero_le 1)
    refine hjoined.wired ?_
    intro hconnected
    obtain ⟨id, hcurrent, -⟩ := h.status hconnected
    rw [hnone] at hcurrent
    cases hcurrent
  | authenticated =>
    have hflags : Wired outs { s with
        todo := rest
        reconnectDelay := minReconnectDelay
        reconnectCount := 0
        routeStaleAsked := false
        pinging := true
        lastPongAt := s.now } := (hrest (by simp)).of_same rfl rfl rfl rfl
    exact hflags.queues (flushPendingMessages_queues _)
  | schedule =>
    have hrest := hrest (by simp)
    simp only [goesOn]
    split
    · exact hrest
    · split
      · exact hrest.of_same rfl rfl (by simp) rfl
      · exact hrest.of_same rfl rfl (by simp) rfl
  | setTimer => exact (hrest (by simp)).of_same rfl rfl rfl rfl

end

/-- No handler makes a connection while `connect` has still to make its own. -/
def dialsApart (s : RelayClient) : ClientEvent → Bool
  | .calls method => !s.opens method || !s.yields || decide (s.todo.count .dial = 0)
  | _ => true

theorem Wired.step (h : s.Wired outs) {e : ClientEvent} (hapart : s.dialsApart e = true) :
    (s.step e).1.Wired (outs ++ (s.step e).2) := by
  have hsame : s.Wired (outs ++ []) := h.more []
  cases e with
  | calls method =>
    simp only [RelayClient.step]
    split
    · rename_i hyields
      refine (calls_wired h ?_).more _
      intro hopens
      simpa [dialsApart, hopens, hyields] using hapart
    · exact hsame
  | goesOn =>
    simp only [RelayClient.step]
    split
    · exact hsame
    · rename_i point rest htodo
      exact (goesOn_wired h htodo).more _
  | onOpen id =>
    simp only [RelayClient.step]
    split
    · exact h.more _
    · exact hsame
  | onMessage id msg =>
    simp only [RelayClient.step]
    split
    · rename_i hlive
      obtain ⟨line, hget, hdetached⟩ := (Option.any_eq_true _ _).1 hlive.2
      exact handleMessage_wired h hget (by simpa using hdetached) msg
    · exact hsame
  | onClose id =>
    simp only [RelayClient.step]
    split
    · exact (closes_wired h id).more _
    · exact hsame
  | readyState id isOpen =>
    have hjoined := h.toJoined.modify id
      (f := fun line => { line with isOpen := isOpen && line.alive }) fun _ => rfl
    exact { hjoined with status := hsame.status }
  | timerFires timer =>
    simp only [RelayClient.step]
    split
    · rename_i hfires
      have hfired : ({ s with timers := s.timers.filter (· ≠ timer), reconnectTimer := none } :
          RelayClient).Wired outs := h.of_same rfl rfl rfl rfl
      refine (connect_wired hfired .connect ?_).more _
      intro _
      change s.todo.count .dial = 0
      rw [hfires.1]
      rfl
    · exact hsame
  | pingFires bufferedAmount =>
    simp only [RelayClient.step]
    split
    · exact (pings_wired h bufferedAmount).more _
    · exact hsame
  | passes ms => exact hsame.of_same rfl rfl rfl rfl

end Wiring
/-- What is said of messages. -/
def traffic : ClientOutput → Bool
  | .sent _ _ | .put _ _ _ | .dropped _ => true
  | _ => false

/-- Nothing is said of a message or a token, and what is closed is closed for this. -/
def closedBy (closer : Closer) : ClientOutput → Bool
  | .authed _ | .sent _ _ | .put _ _ _ | .dropped _ => false
  | .closed _ c => decide (c = closer)
  | _ => true

structure Quiet (s : RelayClient) (closer : Closer) (r : ClientStep) : Prop where
  pending : r.1.pendingMessages = s.pendingMessages
  sends : r.1.sends = s.sends
  out : ∀ o ∈ r.2, closedBy closer o = true

section Traffic
variable {s t : RelayClient} {closer : Closer}

theorem Quiet.of_same {r : ClientStep} (h : s.Quiet closer r) (hpending : s.pendingMessages = t.pendingMessages)
    (hsends : s.sends = t.sends) : t.Quiet closer r :=
  ⟨h.pending.trans hpending, h.sends.trans hsends, h.out⟩

theorem quiet_same (hpending : t.pendingMessages = s.pendingMessages) (hsends : t.sends = s.sends) :
    s.Quiet closer (t, []) := by
  refine ⟨hpending, hsends, ?_⟩
  intro o ho
  cases ho

theorem quiet_says {o : ClientOutput} (ho : closedBy closer o = true)
    (hpending : t.pendingMessages = s.pendingMessages) (hsends : t.sends = s.sends) : s.Quiet closer (t, [o]) := by
  refine ⟨hpending, hsends, ?_⟩
  intro o' ho'
  rw [mem_singleton.1 ho']
  exact ho

theorem quiet_closeTransport (s : RelayClient) (closer : Closer) : s.Quiet closer (s.closeTransport closer) := by
  unfold closeTransport
  split
  · exact quiet_same rfl rfl
  · exact quiet_says (decide_eq_true rfl) rfl rfl

theorem quiet_setStatus (s : RelayClient) (status : ClientStatus) (rest : List ClientPoint) :
    s.Quiet closer (s.setStatus status rest) := quiet_says rfl rfl rfl

theorem clearTimer_pending (s : RelayClient) : s.clearTimer.pendingMessages = s.pendingMessages ∧
    s.clearTimer.sends = s.sends := by
  unfold clearTimer
  split <;> exact ⟨rfl, rfl⟩

theorem Quiet.append {r u : ClientStep} (h : s.Quiet closer r) (h' : r.1.Quiet closer u) :
    s.Quiet closer (u.1, r.2 ++ u.2) where
  pending := h'.pending.trans h.pending
  sends := h'.sends.trans h.sends
  out o ho := (mem_append.1 ho).elim (h.out o) (h'.out o)

theorem quiet_busy (hbusy : s.connecting = true) (closer c : Closer) : s.Quiet closer (s.connect c) := by
  obtain ⟨hpending, hsends⟩ := clearTimer_pending s
  obtain ⟨-, -, -, -, hconnecting, -⟩ := clearTimer_same s
  unfold connect
  dsimp only
  rw [hconnecting, if_pos hbusy]
  exact quiet_same hpending hsends

theorem quiet_connect (s : RelayClient) (closer : Closer) : s.Quiet closer (s.connect closer) := by
  obtain ⟨hpending, hsends⟩ := clearTimer_pending s
  unfold connect
  dsimp only
  split
  · exact quiet_same hpending hsends
  · have hclosed := (quiet_closeTransport s.clearTimer closer).of_same hpending hsends
    exact hclosed.append ((quiet_setStatus _ _ _).of_same rfl rfl)

theorem quiet_disconnect (s : RelayClient) : s.Quiet .disconnect s.disconnect := by
  obtain ⟨hpending, hsends⟩ := clearTimer_pending
    { s with intentionalClose := true, connecting := false, pinging := false }
  have hclosed := (quiet_closeTransport _ .disconnect).of_same hpending hsends
  have hquiet := hclosed.append (quiet_setStatus _ .disconnected [])
  exact hquiet.of_same rfl rfl

/-- A transport is closed for another one by these only. -/
def Reconnects (s : RelayClient) (e : ClientEvent) : Prop :=
  (∃ method, e = .calls method ∧ (method = .connect ∨ method = .reconnectNow) ∧ s.yields = true ∧
    s.opens method = true) ∨ ∃ timer, e = .timerFires timer ∧ timer ∈ s.timers

theorem quiet_calls (s : RelayClient) {method : ClientMethod} (h : ∀ msg, method ≠ .send msg) :
    ∃ closer, s.Quiet closer (s.calls method) ∧
      (closer = .connect → (method = .connect ∨ method = .reconnectNow) ∧ s.opens method = true) := by
  cases method with
  | connect =>
    by_cases hbusy : s.connecting = true
    · exact ⟨.zombie, quiet_busy hbusy .zombie .connect, nofun⟩
    · exact ⟨.connect, quiet_connect s .connect, fun _ => ⟨.inl rfl, by simp [opens, hbusy]⟩⟩
  | disconnect => exact ⟨.disconnect, quiet_disconnect s, nofun⟩
  | reconnectNow =>
    simp only [calls, reconnectNow]
    split
    · exact ⟨.zombie, quiet_same rfl rfl, nofun⟩
    · rename_i hopen
      by_cases hbusy : s.connecting = true
      · have hquiet := quiet_busy (s := { s with reconnectDelay := minReconnectDelay }) hbusy .zombie .connect
        exact ⟨.zombie, hquiet.of_same rfl rfl, nofun⟩
      · refine ⟨.connect, (quiet_connect _ .connect).of_same rfl rfl, fun _ => ⟨by simp, ?_⟩⟩
        simp [opens, hbusy, hopen]
  | setTransport route =>
    refine ⟨.setTransport, ?_, nofun⟩
    simp only [calls, setTransport]
    split
    · exact quiet_same rfl rfl
    · exact (quiet_connect _ .setTransport).of_same rfl rfl
  | send msg => exact absurd rfl (h msg)

theorem quiet_closes (s : RelayClient) (id : Nat) : s.Quiet .zombie (s.closes id) := by
  unfold closes
  dsimp only
  split
  · exact (quiet_setStatus _ _ _).of_same rfl rfl
  · exact (quiet_setStatus _ _ _).of_same rfl rfl

theorem quiet_handleMessage (s : RelayClient) (id : Nat) {msg : RelayAnswer} (hmsg : msg ≠ .authSuccess) :
    s.Quiet .authFailure (s.handleMessage id msg) := by
  cases msg with
  | authSuccess => exact absurd rfl hmsg
  | authFailure =>
    have hclosed := quiet_closeTransport { s with intentionalClose := true, connecting := false } .authFailure
    have hquiet := hclosed.append (quiet_setStatus _ .disconnected [.handlers])
    exact hquiet.of_same rfl rfl
  | pong _ | other => exact quiet_same rfl rfl

theorem quiet_dropConnection (s : RelayClient) : s.Quiet .zombie s.dropConnection := by
  have hclosed := quiet_closeTransport s .zombie
  exact hclosed.append ((quiet_setStatus _ .reconnecting [.schedule]).of_same rfl rfl)

inductive Traffic (s : RelayClient) (e : ClientEvent) : ClientStep → Prop
  | quiet {c : Closer} {r : ClientStep} (hquiet : s.Quiet c r) (hcloser : c = .connect → s.Reconnects e) :
      Traffic s e r
  | authed {t : Nat} (he : e = .onMessage t .authSuccess) : Traffic s e (s.handleMessage t .authSuccess)
  | calls {msg : ClientMessage} (he : e = .calls (.send msg)) (hyields : s.yields = true) :
      Traffic s e (s.send msg)
  | pings {bufferedAmount : Nat} (he : e = .pingFires bufferedAmount) : Traffic s e (s.send (.ping s.now))
  | flushes {t : RelayClient} (he : e = .goesOn) (hpending : t.pendingMessages = s.pendingMessages)
      (hsends : t.sends = s.sends) (hready : t.ready = s.ready) : Traffic s e t.flushPendingMessages

theorem quiet_goesOn (hpoint : point ≠ .authenticated) : s.Quiet .zombie (s.goesOn point) := by
  cases point with
  | handlers | dialled id => exact quiet_same rfl rfl
  | dial | setTimer => exact quiet_says rfl rfl rfl
  | authenticated => exact absurd rfl hpoint
  | schedule =>
    simp only [goesOn]
    split
    · exact quiet_same rfl rfl
    · split
      · exact quiet_says rfl rfl rfl
      · exact quiet_same rfl rfl

theorem step_traffic (s : RelayClient) (e : ClientEvent) : Traffic s e (s.step e) := by
  have hidle : Traffic s e (s, []) := .quiet (c := .zombie) (quiet_same rfl rfl) nofun
  cases e with
  | calls method =>
    simp only [step]
    split
    · rename_i hyields
      by_cases hsend : ∃ msg, method = .send msg
      · obtain ⟨msg, rfl⟩ := hsend
        exact .calls rfl hyields
      · obtain ⟨closer, hquiet, hcloser⟩ := quiet_calls s fun msg hmsg => hsend ⟨msg, hmsg⟩
        exact .quiet hquiet fun hc => .inl ⟨_, rfl, (hcloser hc).1, hyields, (hcloser hc).2⟩
    · exact hidle
  | goesOn =>
    simp only [step]
    split
    · exact hidle
    · rename_i point rest htodo
      cases point with
      | authenticated => exact .flushes rfl rfl rfl rfl
      | _ =>
        refine .quiet (Quiet.of_same (quiet_goesOn (s := { s with todo := rest }) ?_) rfl rfl) nofun
        simp
  | onOpen id =>
    simp only [step]
    split
    · refine .quiet (c := .zombie) ⟨rfl, rfl, ?_⟩ nofun
      intro o ho
      obtain ⟨current, -, heq⟩ := Option.map_eq_some_iff.1 (Option.mem_toList.1 ho)
      rw [← heq]
      rfl
    · exact hidle
  | onMessage id msg =>
    simp only [step]
    split
    · by_cases hmsg : msg = .authSuccess
      · subst hmsg
        exact .authed rfl
      · exact .quiet (quiet_handleMessage s id hmsg) nofun
    · exact hidle
  | onClose id =>
    simp only [step]
    split
    · exact .quiet (quiet_closes s id) nofun
    · exact hidle
  | readyState id isOpen => exact .quiet (c := .zombie) (quiet_same rfl rfl) nofun
  | timerFires timer =>
    simp only [step]
    split
    · rename_i hfires
      exact .quiet ((quiet_connect _ .connect).of_same rfl rfl) fun _ => .inr ⟨timer, rfl, hfires.2⟩
    · exact hidle
  | pingFires bufferedAmount =>
    simp only [step]
    split
    · simp only [pings]
      split
      · exact .quiet (quiet_dropConnection s) nofun
      · split
        · exact .quiet (quiet_dropConnection s) nofun
        · exact .pings rfl
    · exact hidle
  | passes ms => exact .quiet (c := .zombie) (quiet_same rfl rfl) nofun

theorem out_deliver (s : RelayClient) (msg : Nat × ClientMessage) : ∀ o ∈ (s.deliver msg).2, traffic o = true := by
  unfold deliver
  split
  · simp [traffic]
  · unfold enqueue
    split
    · simp
    · dsimp only
      split <;> simp [traffic]

theorem out_send (s : RelayClient) (msg : ClientMessage) : ∀ o ∈ (s.send msg).2, traffic o = true := by
  intro o ho
  cases mem_cons.1 ho with
  | inl hsent => rw [hsent]; rfl
  | inr hdelivered => exact out_deliver _ _ o hdelivered

theorem out_flush (r : ClientStep) (messages : List (Nat × ClientMessage)) (h : ∀ o ∈ r.2, traffic o = true) :
    ∀ o ∈ (flush r messages).2, traffic o = true := by
  induction messages generalizing r with
  | nil => exact h
  | cons msg messages ih =>
    refine ih ((r.1.deliver msg).1, r.2 ++ (r.1.deliver msg).2) ?_
    intro o ho
    exact (mem_append.1 ho).elim (h o) (out_deliver _ _ o)

/-- What a step says is of messages, or of a token that is confirmed, or of a transport that is closed. -/
theorem step_says {e : ClientEvent} {o : ClientOutput} (ho : o ∈ (s.step e).2) : traffic o = true ∨
    (∃ t, e = .onMessage t .authSuccess ∧ (o = .authed t ∨ o = .status .connected)) ∨
    ∃ closer, closedBy closer o = true ∧ (closer = .connect → s.Reconnects e) := by
  have htraffic := step_traffic s e
  generalize s.step e = r at htraffic ho
  cases htraffic with
  | quiet hquiet hcloser => exact .inr (.inr ⟨_, hquiet.out o ho, hcloser⟩)
  | authed he => exact .inr (.inl ⟨_, he, by simpa [handleMessage, setStatus] using ho⟩)
  | calls _ _ | pings _ => exact .inl (out_send s _ o ho)
  | flushes he => exact .inl (out_flush _ _ (by simp) o ho)

end Traffic
end RelayClient
end Mtmux.Browser
