import Mtmux.Agent.Admission
import Mtmux.Agent.BrokerSockets

/-! One broker socket at a time: when a new one is opened over another, and when another one is listened to. -/
namespace Mtmux.Agent
open StreamTable List

/-! ### When nothing happens to the streams -/

namespace StreamTable
variable {cfg : StreamConfig} {t : StreamTable}

def holds (t : StreamTable) (streamId : String) : Bool :=
  ((t.streams.get streamId).bind fun k => t.objects[k]?).any fun stream => !stream.closed

theorem holds_eq_false {streamId : String} : t.holds streamId = false ↔
    ∀ k stream, t.streams.get streamId = some k → t.objects[k]? = some stream → stream.closed = true := by
  unfold holds
  cases hk : t.streams.get streamId with
  | none => simp
  | some k =>
    constructor
    · intro hno k' stream hk' hstream
      cases hk'
      simpa [hstream] using hno
    · intro hclosed
      cases hstream : t.objects[k]? with
      | none => simp [hstream]
      | some stream => simpa [hstream] using hclosed k stream rfl hstream

theorem set_ne {k : Nat} {stream stream' : Stream} (hk : t.objects[k]? = some stream) (hne : stream' ≠ stream) :
    t.objects.set k stream' ≠ t.objects := by
  intro heq
  have hget := congrArg (fun l => l[k]?) heq
  obtain ⟨hlt, -⟩ := List.getElem?_eq_some_iff.1 hk
  simp only [List.getElem?_set_self hlt, hk, Option.some.injEq] at hget
  exact hne hget

theorem streamOpen_ne (cfg : StreamConfig) (t : StreamTable) (streamId : String) : (t.step cfg (.streamOpen streamId)).1 ≠ t := by
  intro heq
  have hlength := congrArg (fun t => t.objects.length) heq
  simp [step, openStream] at hlength

theorem streamFrame_same (cfg : StreamConfig) (t : StreamTable) (streamId data : String) :
    (t.step cfg (.streamFrame streamId data)).1 = t ↔ t.holds streamId = false := by
  rw [holds_eq_false]
  simp only [step, streamFrame]
  constructor
  · intro heq k stream hk hstream
    rw [hk] at heq
    simp only [hstream] at heq
    by_contra hopen
    rw [if_neg hopen] at heq
    refine set_ne hstream ?_ (congrArg StreamTable.objects heq)
    intro hsame
    have hlength := congrArg (fun stream => stream.chain.length) hsame
    simp [Stream.enqueue] at hlength
  · intro hclosed
    split
    · rfl
    · rename_i k hk
      split
      · rfl
      · rename_i stream hstream
        rw [if_pos (hclosed k stream hk hstream)]

theorem streamClose_same (cfg : StreamConfig) (t : StreamTable) (streamId : String) :
    (t.step cfg (.streamClose streamId)).1 = t ↔ t.holds streamId = false := by
  rw [holds_eq_false]
  simp only [step, dropStream]
  constructor
  · intro heq k stream hk hstream
    rw [hk] at heq
    simp only [hstream] at heq
    by_contra hopen
    rw [if_neg hopen] at heq
    refine set_ne hstream ?_ (congrArg StreamTable.objects heq)
    intro hsame
    exact hopen (congrArg Stream.closed hsame).symm
  · intro hclosed
    split
    · rfl
    · rename_i k hk
      split
      · rfl
      · rename_i stream hstream
        rw [if_pos (hclosed k stream hk hstream)]

theorem teardown_same (cfg : StreamConfig) (t : StreamTable) : (t.step cfg .teardownStreams).1 = t ↔ t.streams = OrderedMap.empty := by
  constructor
  · intro heq
    exact (congrArg StreamTable.streams heq).symm
  · intro hempty
    have hkeys : t.streams.keys = [] := by rw [hempty]; rfl
    simp only [step, teardownStreams, hkeys, dropStreams]
    rw [← hempty]

end StreamTable

namespace AgentState
variable {cfg : StreamConfig} {s t : AgentState}

/-- Neither what the agent is doing nor its current socket is changed. -/
structure Untouched (s t : AgentState) : Prop where
  status : t.status = s.status
  tunnelId : t.tunnelId = s.tunnelId
  streams : t.table = s.table
  keepalive : t.keepalive = s.keepalive
  lastInboundAt : t.lastInboundAt = s.lastInboundAt
  broker : t.broker = s.broker
  current : ∀ socket, s.broker = some socket →
    (socket ∈ t.asked → socket ∈ s.asked) ∧ (socket ∈ t.closed → socket ∈ s.closed)

def Spare (s : AgentState) : Prop := ∀ socket, s.broker = some socket → socket ∈ s.asked

/-- The message leaves everything as it is. -/
def Idle (s : AgentState) : AgentMessage → Prop
  | .challenge => True
  | .ready tunnelId => s.status = .registered ∧ s.tunnelId = some tunnelId
  | .streamOpen _ => False
  | .streamFrame streamId _ => s.table.holds streamId = false
  | .streamClose streamId => s.table.holds streamId = false
  | .request => True
  | .tunnelClosed => s.status = .disconnected ∧ s.table.streams = OrderedMap.empty ∧ s.Spare

/-- Nothing comes of the event when it is that of another socket. -/
def Unheeded (s : AgentState) : SocketEvent → Prop
  | .message message => s.lastInboundAt = s.now ∧ ∀ m, message = some m → s.Idle m
  | .pong => s.lastInboundAt = s.now
  | .unsupported status => status = 426 → s.keepalive = none ∧ s.status = .outdated
  | .close => True
  | .tick => True

theorem untouched_refl (s : AgentState) : Untouched s s :=
  ⟨rfl, rfl, rfl, rfl, rfl, rfl, fun _ _ => ⟨id, id⟩⟩

/-! ### Sockets -/

structure Sane (s : AgentState) : Prop where
  known : ∀ socket, s.broker = some socket → socket < s.opened
  asked : ∀ socket ∈ s.asked, socket < s.opened
  closed : ∀ socket ∈ s.closed, socket < s.opened
  runs : ∀ socket, s.broker = some socket → socket ∉ s.closed
  watched : ∀ socket, s.keepalive = some socket → s.broker = some socket

theorem Sane.same (h : Sane s) (hbroker : t.broker = s.broker) (hasked : t.asked = s.asked) (hclosed : t.closed = s.closed)
    (hopened : t.opened = s.opened) (hkeepalive : t.keepalive = s.keepalive ∨ t.keepalive = none) : Sane t := by
  refine ⟨?_, ?_, ?_, ?_, ?_⟩
  · rw [hbroker, hopened]
    exact h.known
  · rw [hasked, hopened]
    exact h.asked
  · rw [hclosed, hopened]
    exact h.closed
  · rw [hbroker, hclosed]
    exact h.runs
  · intro socket hsocket
    cases hkeepalive with
    | inl hsame => exact hbroker.trans (h.watched socket (hsame ▸ hsocket))
    | inr hnone =>
      rw [hnone] at hsocket
      cases hsocket

theorem Sane.askToClose (h : Sane s) {socket : Option Nat} (hsocket : ∀ k, socket = some k → k < s.opened) :
    Sane (s.askToClose socket) where
  __ := h
  asked k hk := by
    cases mem_append.1 hk with
    | inl hnew => exact hsocket k (Option.mem_toList.1 hnew)
    | inr hold => exact h.asked k hold

theorem Sane.release (h : Sane s) (hbroker : t.broker = none) (hasked : t.asked = s.asked) (hclosed : t.closed = s.closed)
    (hopened : t.opened = s.opened) (hkeepalive : t.keepalive = none) : Sane t := by
  refine ⟨fun _ hnone => ?_, ?_, ?_, fun _ hnone => ?_, fun _ hnone => ?_⟩
  · rw [hbroker] at hnone
    cases hnone
  · rw [hasked, hopened]
    exact h.asked
  · rw [hclosed, hopened]
    exact h.closed
  · rw [hbroker] at hnone
    cases hnone
  · rw [hkeepalive] at hnone
    cases hnone

theorem Sane.connect (h : Sane s) : Sane s.connect := by
  unfold AgentState.connect
  split
  · exact h
  · refine ⟨fun k hk => ?_, fun k hk => Nat.lt_succ_of_lt (h.asked k hk), fun k hk => Nat.lt_succ_of_lt (h.closed k hk),
      fun k hk hmem => ?_, fun k hk => hk⟩
    · cases hk
      exact Nat.lt_succ_self _
    · cases hk
      exact Nat.lt_irrefl _ (h.closed _ hmem)

variable {socket : Nat}

theorem Sane.onClose (h : Sane s) (hopened : socket < s.opened) : Sane (s.onClose cfg socket).1 := by
  have hclosing : ∀ k ∈ socket :: s.closed, k < s.opened := by
    intro k hk
    cases mem_cons.1 hk with
    | inl hthis => exact hthis ▸ hopened
    | inr hold => exact h.closed k hold
  unfold AgentState.onClose
  dsimp only
  split
  · rename_i hother
    refine { h with closed := hclosing, runs := fun k hk hmem => ?_ }
    cases mem_cons.1 hmem with
    | inl hthis => exact hother (hthis ▸ hk)
    | inr hold => exact h.runs k hk hold
  · have hgone : Sane { s with closed := socket :: s.closed, keepalive := none, broker := none, tunnelId := none } :=
      ⟨fun _ hnone => (by cases hnone), h.asked, hclosing, fun _ hnone => (by cases hnone), fun _ hnone => (by cases hnone)⟩
    split
    · split
      · exact hgone.same rfl rfl rfl rfl (.inl rfl)
      · exact hgone.same rfl rfl rfl rfl (.inl rfl)
    · exact hgone.same rfl rfl rfl rfl (.inl rfl)

theorem Sane.handle (h : Sane s) (message : AgentMessage) : Sane (s.handle cfg message).1 := by
  cases message with
  | challenge | request => exact h
  | tunnelClosed =>
    have htorn : Sane ({ s with status := .disconnected }.teardownStreams cfg).1 := h.same rfl rfl rfl rfl (.inl rfl)
    exact htorn.askToClose h.known
  | _ => exact h.same rfl rfl rfl rfl (.inl rfl)

theorem Sane.onSocket (h : Sane s) (hopened : socket < s.opened) (event : SocketEvent) :
    Sane (s.onSocket cfg socket event).1 := by
  have hasked : Sane (s.askToClose (some socket)) := h.askToClose fun k hk => by
    cases hk
    exact hopened
  cases event with
  | message message =>
    have hheard : Sane { s with lastInboundAt := s.now } := h.same rfl rfl rfl rfl (.inl rfl)
    cases message with
    | none => exact hheard
    | some message => exact hheard.handle message
  | pong => exact h.same rfl rfl rfl rfl (.inl rfl)
  | unsupported status =>
    simp only [AgentState.onSocket]
    split
    · exact hasked
    · exact hasked.same rfl rfl rfl rfl (.inr rfl)
  | close => exact h.onClose hopened
  | tick =>
    simp only [AgentState.onSocket, AgentState.onTick]
    split
    · exact h
    · split
      · exact h.same rfl rfl rfl rfl (.inr rfl)
      · split
        · have hquiet : Sane { s with keepalive := none } := h.same rfl rfl rfl rfl (.inr rfl)
          refine hquiet.askToClose fun k hk => ?_
          cases hk
          exact hopened
        · exact h

theorem Sane.step (h : Sane s) (e : AgentEvent) : Sane (s.step cfg e).1 := by
  cases e with
  | start =>
    have hstarted : Sane { s with stopped := false, attempt := 0 } := h.same rfl rfl rfl rfl (.inl rfl)
    exact hstarted.connect
  | stop =>
    have htorn : Sane ({ s with stopped := true, keepalive := none }.teardownStreams cfg).1 :=
      h.same rfl rfl rfl rfl (.inr rfl)
    exact (htorn.askToClose h.known).release rfl rfl rfl rfl rfl
  | retry =>
    simp only [AgentState.step]
    split
    · exact h
    · have hfired : Sane { s with retries := s.retries - 1 } := h.same rfl rfl rfl rfl (.inl rfl)
      exact hfired.connect
  | socket socket event =>
    simp only [AgentState.step]
    split
    · rename_i hopened
      exact h.onSocket hopened event
    · exact h
  | table _ | wait _ => exact h.same rfl rfl rfl rfl (.inl rfl)

theorem sane_run (cfg : StreamConfig) (es : List AgentEvent) : Sane ((tunnelAgent cfg).run es) := by
  refine (tunnelAgent cfg).run_invariant ⟨fun _ h => ?_, fun _ h => ?_, fun _ h => ?_, fun _ h => ?_, fun _ h => ?_⟩
    (fun s e h => h.step e) es
  · cases h
  · cases h
  · cases h
  · cases h
  · cases h

/-! ### Listening -/

theorem untouched_handle (cfg : StreamConfig) (s : AgentState) (message : AgentMessage) :
    Untouched s ({ s with lastInboundAt := s.now }.handle cfg message).1 ↔ s.lastInboundAt = s.now ∧ s.Idle message := by
  have hsame : ∀ {a : AgentState}, a.status = s.status → a.tunnelId = s.tunnelId → a.table = s.table →
      a.keepalive = s.keepalive → a.lastInboundAt = s.now → a.broker = s.broker → a.asked = s.asked →
      a.closed = s.closed → s.lastInboundAt = s.now → Untouched s a := by
    intro a hstatus htunnel htable hkeepalive hinbound hbroker hasked hclosed hnow
    exact ⟨hstatus, htunnel, htable, hkeepalive, hinbound.trans hnow.symm, hbroker,
      fun _ _ => ⟨fun hmem => hasked ▸ hmem, fun hmem => hclosed ▸ hmem⟩⟩
  cases message with
  | challenge =>
    exact ⟨fun hu => ⟨hu.lastInboundAt.symm, trivial⟩, fun hi => hsame rfl rfl rfl rfl rfl rfl rfl rfl hi.1⟩
  | ready tunnelId =>
    refine ⟨fun hu => ⟨hu.lastInboundAt.symm, hu.status.symm, hu.tunnelId.symm⟩, fun hi => ?_⟩
    exact hsame hi.2.1.symm hi.2.2.symm rfl rfl rfl rfl rfl rfl hi.1
  | streamOpen streamId =>
    exact ⟨fun hu => absurd hu.streams (streamOpen_ne cfg s.table streamId), fun hi => absurd hi.2 id⟩
  | streamFrame streamId data =>
    refine ⟨fun hu => ⟨hu.lastInboundAt.symm, (streamFrame_same cfg s.table streamId data).1 hu.streams⟩, fun hi => ?_⟩
    exact hsame rfl rfl ((streamFrame_same cfg s.table streamId data).2 hi.2) rfl rfl rfl rfl rfl hi.1
  | streamClose streamId =>
    refine ⟨fun hu => ⟨hu.lastInboundAt.symm, (streamClose_same cfg s.table streamId).1 hu.streams⟩, fun hi => ?_⟩
    exact hsame rfl rfl ((streamClose_same cfg s.table streamId).2 hi.2) rfl rfl rfl rfl rfl hi.1
  | request =>
    exact ⟨fun hu => ⟨hu.lastInboundAt.symm, trivial⟩, fun hi => hsame rfl rfl rfl rfl rfl rfl rfl rfl hi.1⟩
  | tunnelClosed =>
    constructor
    · intro hu
      refine ⟨hu.lastInboundAt.symm, hu.status.symm, (teardown_same cfg s.table).1 hu.streams, fun k hk => ?_⟩
      exact (hu.current k hk).1 (mem_append_left _ (Option.mem_toList.2 hk))
    · rintro ⟨hnow, hstatus, hempty, hspare⟩
      refine ⟨hstatus.symm, rfl, (teardown_same cfg s.table).2 hempty, rfl, hnow.symm, rfl, fun k hk => ⟨fun hmem => ?_, id⟩⟩
      cases mem_append.1 hmem with
      | inl hnew => exact hspare k (Option.mem_toList.1 hnew)
      | inr hold => exact hold

theorem untouched_iff (h : Sane s) (hother : s.broker ≠ some socket) (event : SocketEvent) :
    Untouched s (s.onSocket cfg socket event).1 ↔ s.Unheeded event := by
  have hnotThis : ∀ {k : Nat} {l : List Nat}, s.broker = some k → k ∈ socket :: l → k ∈ l := by
    intro k l hk hmem
    cases mem_cons.1 hmem with
    | inl hthis => exact absurd (hthis ▸ hk) hother
    | inr hold => exact hold
  cases event with
  | message message =>
    cases message with
    | none =>
      refine ⟨fun hu => ⟨hu.lastInboundAt.symm, fun _ hnone => (by cases hnone)⟩, fun hi => ?_⟩
      exact ⟨rfl, rfl, rfl, rfl, hi.1.symm, rfl, fun _ _ => ⟨id, id⟩⟩
    | some message =>
      refine (untouched_handle cfg s message).trans ⟨fun hi => ⟨hi.1, fun m hm => ?_⟩, fun hi => ⟨hi.1, hi.2 _ rfl⟩⟩
      cases hm
      exact hi.2
  | pong =>
    exact ⟨fun hu => hu.lastInboundAt.symm, fun hi => ⟨rfl, rfl, rfl, rfl, hi.symm, rfl, fun _ _ => ⟨id, id⟩⟩⟩
  | unsupported status =>
    simp only [AgentState.onSocket]
    split
    · rename_i hno
      exact ⟨fun _ heq => absurd heq hno, fun _ => ⟨rfl, rfl, rfl, rfl, rfl, rfl, fun _ hk => ⟨hnotThis hk, id⟩⟩⟩
    · rename_i heq
      refine ⟨fun hu _ => ⟨hu.keepalive.symm, hu.status.symm⟩, fun hi => ?_⟩
      obtain ⟨hkeepalive, hstatus⟩ := hi (not_not.1 heq)
      exact ⟨hstatus.symm, rfl, rfl, hkeepalive.symm, rfl, rfl, fun _ hk => ⟨hnotThis hk, id⟩⟩
  | close =>
    simp only [AgentState.onSocket, AgentState.onClose]
    rw [if_pos hother]
    exact ⟨fun _ => trivial, fun _ => ⟨rfl, rfl, rfl, rfl, rfl, rfl, fun _ hk => ⟨id, hnotThis hk⟩⟩⟩
  | tick =>
    have hidle : s.keepalive ≠ some socket := fun hsome => hother (h.watched socket hsome)
    simp only [AgentState.onSocket, AgentState.onTick]
    rw [if_pos hidle]
    exact ⟨fun _ => trivial, fun _ => untouched_refl s⟩

/-! ### Opening -/

theorem mem_live : socket ∈ s.live ↔ socket < s.opened ∧ socket ∉ s.closed ∧ socket ∉ s.asked := by
  simp [live]

theorem nodup_live (s : AgentState) : s.live.Nodup := nodup_range.filter _

/-- The only socket that is open and not asked to close is the current one. -/
def OnlyCurrent (s : AgentState) : Prop := ∀ socket ∈ s.live, s.broker = some socket

theorem OnlyCurrent.single (h : OnlyCurrent s) : s.live.length ≤ 1 := by
  have hnodup := s.nodup_live
  cases hlive : s.live with
  | nil => exact Nat.zero_le 1
  | cons a rest =>
    cases rest with
    | nil => exact Nat.le_refl 1
    | cons b rest =>
      rw [hlive] at hnodup
      have ha := h a (by rw [hlive]; exact mem_cons_self)
      have hb := h b (by rw [hlive]; exact mem_cons_of_mem _ mem_cons_self)
      rw [ha] at hb
      cases hb
      exact absurd mem_cons_self (nodup_cons.1 hnodup).1

theorem two_live {a b : Nat} (ha : a ∈ s.live) (hb : b ∈ s.live) (hne : a ≠ b) : 1 < s.live.length := by
  cases hlive : s.live with
  | nil =>
    rw [hlive] at ha
    cases ha
  | cons c rest =>
    cases rest with
    | nil =>
      rw [hlive] at ha hb
      exact absurd ((mem_singleton.1 ha).trans (mem_singleton.1 hb).symm) hne
    | cons d rest =>
      simp only [length_cons]
      omega

/-- Sockets only go. -/
structure Shrinks (s t : AgentState) : Prop where
  opened : t.opened = s.opened
  closed : s.closed ⊆ t.closed
  asked : s.asked ⊆ t.asked
  broker : t.broker = s.broker ∨ ∀ socket, s.broker = some socket → socket ∈ t.closed ∨ socket ∈ t.asked

theorem OnlyCurrent.shrinks (h : OnlyCurrent s) (hshrinks : Shrinks s t) : OnlyCurrent t := by
  intro socket hsocket
  obtain ⟨hopened, hclosed, hasked⟩ := mem_live.1 hsocket
  rw [hshrinks.opened] at hopened
  have hcurrent := h socket (mem_live.2 ⟨hopened, fun hmem => hclosed (hshrinks.closed hmem),
    fun hmem => hasked (hshrinks.asked hmem)⟩)
  cases hshrinks.broker with
  | inl hsame => exact hsame.trans hcurrent
  | inr hgone => exact ((hgone socket hcurrent).elim hclosed hasked).elim

theorem shrinks_same (hopened : t.opened = s.opened) (hclosed : t.closed = s.closed) (hasked : t.asked = s.asked)
    (hbroker : t.broker = s.broker) : Shrinks s t :=
  ⟨hopened, by rw [hclosed]; exact fun _ h => h, by rw [hasked]; exact fun _ h => h, .inl hbroker⟩

theorem shrinks_asking (hopened : t.opened = s.opened) (hclosed : t.closed = s.closed) {socket : Option Nat}
    (hasked : t.asked = socket.toList ++ s.asked) (hbroker : t.broker = s.broker) : Shrinks s t :=
  ⟨hopened, by rw [hclosed]; exact fun _ h => h, by rw [hasked]; exact fun _ h => mem_append_right _ h, .inl hbroker⟩

theorem shrinks_handle (cfg : StreamConfig) (s : AgentState) (message : AgentMessage) : Shrinks s (s.handle cfg message).1 := by
  cases message with
  | tunnelClosed => exact shrinks_asking rfl rfl rfl rfl
  | _ => exact shrinks_same rfl rfl rfl rfl

theorem shrinks_onSocket (s : AgentState) (socket : Nat) (event : SocketEvent) :
    Shrinks s (s.onSocket cfg socket event).1 := by
  cases event with
  | message message =>
    cases message with
    | none => exact shrinks_same rfl rfl rfl rfl
    | some message =>
      have hhandled := shrinks_handle cfg { s with lastInboundAt := s.now } message
      exact { hhandled with }
  | pong => exact shrinks_same rfl rfl rfl rfl
  | unsupported status =>
    simp only [AgentState.onSocket]
    split
    · exact shrinks_asking rfl rfl rfl rfl
    · exact shrinks_asking rfl rfl rfl rfl
  | close =>
    simp only [AgentState.onSocket, AgentState.onClose]
    split
    · exact ⟨rfl, fun _ h => mem_cons_of_mem _ h, fun _ h => h, .inl rfl⟩
    · rename_i hthis
      have hcloses : ∀ k, s.broker = some k → k ∈ socket :: s.closed ∨ k ∈ s.asked := by
        intro k hk
        have heq : some k = some socket := hk.symm.trans (not_not.1 hthis)
        cases heq
        exact .inl mem_cons_self
      split
      · split
        · exact ⟨rfl, fun _ h => mem_cons_of_mem _ h, fun _ h => h, .inr hcloses⟩
        · exact ⟨rfl, fun _ h => mem_cons_of_mem _ h, fun _ h => h, .inr hcloses⟩
      · exact ⟨rfl, fun _ h => mem_cons_of_mem _ h, fun _ h => h, .inr hcloses⟩
  | tick =>
    simp only [AgentState.onSocket, AgentState.onTick]
    split
    · exact shrinks_same rfl rfl rfl rfl
    · split
      · exact shrinks_same rfl rfl rfl rfl
      · split
        · exact shrinks_asking rfl rfl rfl rfl
        · exact shrinks_same rfl rfl rfl rfl

/-- A new socket is opened by this step. -/
def Opens (s : AgentState) (e : AgentEvent) : Prop := e = .start ∨ e = .retry ∧ 0 < s.retries ∧ s.stopped = false

theorem connect_eq (hruns : s.stopped = false) : s.connect =
    { s with
      status := .connecting
      broker := some s.opened
      opened := s.opened + 1
      keepalive := some s.opened
      lastInboundAt := s.now } := by
  unfold AgentState.connect
  rw [if_neg (by simp [hruns])]

theorem opens_or_shrinks (cfg : StreamConfig) (s : AgentState) (e : AgentEvent) :
    (Opens s e ∧ (s.step cfg e).1.opened = s.opened + 1 ∧ (s.step cfg e).1.broker = some s.opened ∧
      (s.step cfg e).1.closed = s.closed ∧ (s.step cfg e).1.asked = s.asked) ∨
    ¬Opens s e ∧ Shrinks s (s.step cfg e).1 := by
  cases e with
  | start =>
    refine .inl ⟨.inl rfl, ?_⟩
    have hstart : (s.step cfg .start).1 = { s with stopped := false, attempt := 0 }.connect := rfl
    rw [hstart, connect_eq rfl]
    exact ⟨rfl, rfl, rfl, rfl⟩
  | retry =>
    simp only [AgentState.step]
    split
    · rename_i hnone
      refine .inr ⟨?_, shrinks_same rfl rfl rfl rfl⟩
      rintro (hstart | ⟨-, hsome, -⟩)
      · cases hstart
      · omega
    · rename_i hsome
      by_cases hruns : s.stopped = true
      · refine .inr ⟨?_, ?_⟩
        · rintro (hstart | ⟨-, -, hno⟩)
          · cases hstart
          · rw [hruns] at hno
            cases hno
        · have hstays : AgentState.connect { s with retries := s.retries - 1 } = { s with retries := s.retries - 1 } := by
            unfold AgentState.connect
            rw [if_pos hruns]
          rw [hstays]
          exact shrinks_same rfl rfl rfl rfl
      · have hruns : s.stopped = false := by simpa using hruns
        have hconnects : AgentState.connect { s with retries := s.retries - 1 } = _ := connect_eq hruns
        refine .inl ⟨.inr ⟨rfl, by omega, hruns⟩, ?_⟩
        rw [hconnects]
        exact ⟨rfl, rfl, rfl, rfl⟩
  | stop =>
    refine .inr ⟨?_, rfl, fun _ h => h, fun _ h => mem_append_right _ h, .inr fun k hk => .inr ?_⟩
    · rintro (hstart | ⟨hretry, -⟩)
      · cases hstart
      · cases hretry
    · exact mem_append_left _ (Option.mem_toList.2 hk)
  | socket socket event =>
    refine .inr ⟨?_, ?_⟩
    · rintro (hstart | ⟨hretry, -⟩)
      · cases hstart
      · cases hretry
    · simp only [AgentState.step]
      split
      · exact shrinks_onSocket s socket event
      · exact shrinks_same rfl rfl rfl rfl
  | table _ | wait _ =>
    refine .inr ⟨?_, shrinks_same rfl rfl rfl rfl⟩
    rintro (hstart | ⟨hretry, -⟩)
    · cases hstart
    · cases hretry

/-! ### Runs -/

/-- No step leaves two sockets open, and a socket that is not the current one changes nothing. -/
structure OneSocket (cfg : StreamConfig) (es : List AgentEvent) : Prop where
  single : ∀ x ∈ (tunnelAgent cfg).trace es, x.post.live.length ≤ 1
  untouched : ∀ x ∈ (tunnelAgent cfg).trace es, ∀ socket event, x.event = .socket socket event →
    x.pre.broker ≠ some socket → Untouched x.pre x.post

/-- No socket is opened over one that stands, and nothing is heard of any but the current one. -/
structure Heeds (x : Machine.Entry AgentState AgentEvent TableOut) : Prop where
  spare : Opens x.pre x.event → x.pre.Spare
  others : ∀ socket event, x.event = .socket socket event → socket < x.pre.opened → x.pre.broker ≠ some socket →
    x.pre.Unheeded event

theorem OnlyCurrent.step (h : OnlyCurrent s) {e : AgentEvent} (hspare : Opens s e → s.Spare) :
    OnlyCurrent (s.step cfg e).1 := by
  cases opens_or_shrinks cfg s e with
  | inr hrest => exact h.shrinks hrest.2
  | inl hopens =>
    obtain ⟨hopens, hopened, hbroker, hclosed, hasked⟩ := hopens
    intro socket hsocket
    obtain ⟨hlt, hnotClosed, hnotAsked⟩ := mem_live.1 hsocket
    rw [hopened] at hlt
    rw [hclosed] at hnotClosed
    rw [hasked] at hnotAsked
    by_cases hnew : socket = s.opened
    · rw [hbroker, hnew]
    · have hold := h socket (mem_live.2 ⟨by omega, hnotClosed, hnotAsked⟩)
      exact absurd (hspare hopens socket hold) hnotAsked

theorem onlyCurrent_run (cfg : StreamConfig) (es : List AgentEvent)
    (h : ∀ x ∈ (tunnelAgent cfg).trace es, Opens x.pre x.event → x.pre.Spare) :
    OnlyCurrent ((tunnelAgent cfg).run es) := by
  refine (tunnelAgent cfg).trace_invariant (fun s _ => OnlyCurrent s) ?_ (fun _ _ hbefore hlast => hbefore.step hlast) h
  intro socket hsocket
  exact absurd (mem_live.1 hsocket).1 (Nat.not_lt_zero _)

/-- There is one broker socket at a time, and it alone is listened to, if and only if every step heeds that. -/
theorem one_socket_iff (cfg : StreamConfig) (es : List AgentEvent) :
    OneSocket cfg es ↔ ∀ x ∈ (tunnelAgent cfg).trace es, Heeds x := by
  constructor
  · intro hone x hx
    obtain ⟨before, e, after, -, rfl⟩ := ((tunnelAgent cfg).mem_trace es x).1 hx
    have hsane := sane_run cfg before
    refine ⟨fun hopens socket hbroker => ?_, fun socket event hevent hopened hother => ?_⟩
    · -- A current socket that has not been asked to close would be the second one.
      by_contra hstands
      have hlive : socket ∈ ((tunnelAgent cfg).run before).live :=
        mem_live.2 ⟨hsane.known socket hbroker, hsane.runs socket hbroker, hstands⟩
      cases opens_or_shrinks cfg ((tunnelAgent cfg).run before) e with
      | inr hrest => exact hrest.1 hopens
      | inl hnew =>
        obtain ⟨-, hcount, -, hclosed, hasked⟩ := hnew
        obtain ⟨hlt, hnotClosed, hnotAsked⟩ := mem_live.1 hlive
        have hfirst : socket ∈ ((((tunnelAgent cfg).run before).step cfg e).1).live :=
          mem_live.2 ⟨by omega, by rw [hclosed]; exact hnotClosed, by rw [hasked]; exact hnotAsked⟩
        have hsecond : ((tunnelAgent cfg).run before).opened ∈ ((((tunnelAgent cfg).run before).step cfg e).1).live := by
          refine mem_live.2 ⟨by omega, ?_, ?_⟩
          · rw [hclosed]
            exact fun hmem => Nat.lt_irrefl _ (hsane.closed _ hmem)
          · rw [hasked]
            exact fun hmem => Nat.lt_irrefl _ (hsane.asked _ hmem)
        have htwo := two_live hfirst hsecond (Nat.ne_of_lt hlt)
        have hsingle : ((((tunnelAgent cfg).run before).step cfg e).1).live.length ≤ 1 := hone.single _ hx
        omega
    · have hevent : e = .socket socket event := hevent
      subst hevent
      have hopened : socket < ((tunnelAgent cfg).run before).opened := hopened
      have huntouched : Untouched ((tunnelAgent cfg).run before)
          (((tunnelAgent cfg).run before).step cfg (.socket socket event)).1 := hone.untouched _ hx socket event rfl hother
      simp only [AgentState.step, if_pos hopened] at huntouched
      exact (untouched_iff hsane hother event).1 huntouched
  · intro hheeds
    refine ⟨fun x hx => ?_, fun x hx socket event hevent hother => ?_⟩
    · obtain ⟨before, e, after, hes, rfl⟩ := ((tunnelAgent cfg).mem_trace es x).1 hx
      have hbefore : OnlyCurrent ((tunnelAgent cfg).run before) := by
        exact onlyCurrent_run cfg before fun y hy => (Machine.forall_trace_before hheeds hes y hy).spare
      exact (hbefore.step (hheeds _ hx).spare).single
    · obtain ⟨before, e, after, -, rfl⟩ := ((tunnelAgent cfg).mem_trace es x).1 hx
      have hheard := (hheeds _ hx).others socket event hevent
      have hevent : e = .socket socket event := hevent
      subst hevent
      change Untouched ((tunnelAgent cfg).run before) (((tunnelAgent cfg).run before).step cfg (.socket socket event)).1
      simp only [AgentState.step]
      split
      · rename_i hopened
        exact (untouched_iff (sane_run cfg before) hother event).2 (hheard hopened hother)
      · exact untouched_refl _

/-! ### Two sockets -/

def retriesLate : List AgentEvent := [.start, .socket 0 .close, .stop, .start, .retry]

def saysReplaced : List AgentEvent :=
  [.start, .stop, .start, .socket 1 (.message (some (.ready "t"))), .socket 0 (.message (some .tunnelClosed))]

/-- Two sockets stand at once; and the message to the old one closes the new one. -/
theorem two_sockets_stand : ((tunnelAgent StreamTable.sample).run retriesLate).live = [1, 2] ∧
    ((tunnelAgent StreamTable.sample).run saysReplaced).asked = [1, 0] ∧
    ((tunnelAgent StreamTable.sample).run saysReplaced).status = .disconnected ∧
    ¬OneSocket StreamTable.sample retriesLate := by
  have hlive : ((tunnelAgent StreamTable.sample).run retriesLate).live = [1, 2] := by decide +kernel
  refine ⟨hlive, by decide +kernel, by decide +kernel, fun hone => ?_⟩
  have hlast := hone.single ((tunnelAgent StreamTable.sample).entry
    ((tunnelAgent StreamTable.sample).run [.start, .socket 0 .close, .stop, .start]) .retry)
    (((tunnelAgent StreamTable.sample).mem_trace _ _).2 ⟨[.start, .socket 0 .close, .stop, .start], .retry, [], rfl, rfl⟩)
  have hpost : ((tunnelAgent StreamTable.sample).run retriesLate).live.length ≤ 1 := hlast
  rw [hlive] at hpost
  exact absurd hpost (by decide)

end AgentState

end Mtmux.Agent
