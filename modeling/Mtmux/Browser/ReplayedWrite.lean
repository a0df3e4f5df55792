import Mtmux.Browser.ClientSteps
import Mtmux.Relay.Policy

/-! Does a write reach the relay only at once? What is asked for while there is no connection waits for the
next one, unless its type is on a list. -/
namespace Mtmux.Browser
open Protocol Machine List

def writes (msg : ClientMessage) : Bool :=
  (Relay.policy msg).write || decide ((Relay.policy msg).files = some .write)

/-- A write is put on a connection in the call that sends it, and the connection was authenticated before
that call. -/
def NoReplay (outs : List ClientOutput) : Prop :=
  ∀ before t id msg after, outs = before ++ .put t id msg :: after → writes msg = true →
    ∃ first, before = first ++ [.sent id msg] ∧ .authed t ∈ first

namespace RelayClient

def promptly (s : RelayClient) : ClientEvent → Bool
  | .calls (.send msg) => !writes msg || !s.yields || s.ready.isSome || dropWhenDisconnected msg
  | _ => true

end RelayClient

def Prompt (x : ClientEntry) : Prop :=
  x.pre.promptly x.event = true ∧ x.pre.dialsApart x.event = true

instance (x : ClientEntry) : Decidable (Prompt x) :=
  inferInstanceAs (Decidable (_ ∧ _))

def RelayClient.Unwritten (s : RelayClient) : Prop :=
  ∀ m ∈ s.pendingMessages, writes m.2 = false

namespace RelayClient
variable {s t : RelayClient}

theorem unwritten_queue (hunwritten : s.Unwritten) {msg : Nat × ClientMessage}
    (hmsg : shouldQueue msg.2 = true → writes msg.2 = false) : (s.enqueue msg).1.Unwritten := by
  unfold enqueue
  split
  · exact hunwritten
  · rename_i hqueues
    have hmore : ∀ m ∈ s.pendingMessages ++ [msg], writes m.2 = false := by
      intro m hm
      cases mem_append.1 hm with
      | inl hold => exact hunwritten m hold
      | inr hnew =>
        rw [mem_singleton.1 hnew]
        exact hmsg (by simpa using hqueues)
    dsimp only
    split
    · exact hmore
    · intro m hm
      exact hmore m (mem_of_mem_drop hm)

theorem unwritten_deliver (hunwritten : s.Unwritten) {msg : Nat × ClientMessage}
    (hmsg : s.ready = none → shouldQueue msg.2 = true → writes msg.2 = false) : (s.deliver msg).1.Unwritten := by
  unfold deliver
  split
  · exact hunwritten
  · rename_i hready
    exact unwritten_queue hunwritten (hmsg hready)

theorem unwritten_send (hunwritten : s.Unwritten) {msg : ClientMessage}
    (hmsg : s.ready = none → shouldQueue msg = true → writes msg = false) : (s.send msg).1.Unwritten := by
  have hsends : ({ s with sends := s.sends + 1 } : RelayClient).Unwritten := hunwritten
  exact @unwritten_deliver { s with sends := s.sends + 1 } hsends (s.sends, msg) hmsg

theorem writes_ping (timestamp : Int) : writes (.ping timestamp) = false := rfl

theorem put_deliver {msg : Nat × ClientMessage} {id n : Nat} {m : ClientMessage}
    (hput : .put id n m ∈ (s.deliver msg).2) :
    s.ready = some id ∧ (n, m) = msg ∧ (s.deliver msg).2 = [.put id n m] := by
  unfold deliver at hput ⊢
  split at hput
  · rename_i current hready
    cases mem_singleton.1 hput
    exact ⟨hready, rfl, rfl⟩
  · unfold enqueue at hput
    split at hput
    · cases hput
    · dsimp only at hput
      split at hput
      · cases hput
      · cases mem_singleton.1 hput

theorem flush_spec {messages : List (Nat × ClientMessage)} (r : ClientStep)
    (hunwritten : r.1.Unwritten) (hmessages : ∀ m ∈ messages, writes m.2 = false) :
    (flush r messages).1.Unwritten ∧ ∀ id n m, .put id n m ∈ (flush r messages).2 →
      .put id n m ∈ r.2 ∨ writes m = false := by
  induction messages generalizing r with
  | nil => exact ⟨hunwritten, fun _ _ _ hput => .inl hput⟩
  | cons msg messages ih =>
    have hmsg := hmessages msg mem_cons_self
    obtain ⟨hkept, hputs⟩ := ih ((r.1.deliver msg).1, r.2 ++ (r.1.deliver msg).2)
      (unwritten_deliver hunwritten fun _ _ => hmsg)
      fun m hm => hmessages m (mem_cons_of_mem _ hm)
    refine ⟨hkept, ?_⟩
    intro id n m hput
    cases hputs id n m hput with
    | inr hread => exact .inr hread
    | inl hput =>
      cases mem_append.1 hput with
      | inl hold => exact .inl hold
      | inr hnew =>
        obtain ⟨-, hsame, -⟩ := put_deliver hnew
        rw [← hsame] at hmsg
        exact .inr hmsg

theorem flush_pending {u : RelayClient} (hunwritten : s.Unwritten) (hpending : u.pendingMessages = s.pendingMessages) :
    (flush ({ u with pendingMessages := [] }, []) u.pendingMessages).1.Unwritten ∧ ∀ id n m,
      .put id n m ∈ (flush ({ u with pendingMessages := [] }, []) u.pendingMessages).2 →
        .put id n m ∈ ([] : List ClientOutput) ∨ writes m = false := by
  refine flush_spec _ (fun m hm => by cases hm) ?_
  rw [hpending]
  exact hunwritten

theorem put_step {e : ClientEvent} (hunwritten : s.Unwritten) {id n : Nat} {msg : ClientMessage}
    (hput : .put id n msg ∈ (s.step e).2) (hwrites : writes msg = true) :
    s.ready = some id ∧ (s.step e).2 = [.sent n msg, .put id n msg] := by
  have hsend : ∀ m, .put id n msg ∈ (s.send m).2 →
      s.ready = some id ∧ (s.send m).2 = [.sent n msg, .put id n msg] := by
    intro m hm
    cases mem_cons.1 hm with
    | inl hsent => cases hsent
    | inr hdelivered =>
      obtain ⟨hready, hmsg, hout⟩ := put_deliver hdelivered
      cases hmsg
      refine ⟨hready, ?_⟩
      change ClientOutput.sent s.sends msg :: (deliver _ _).2 = _
      rw [hout]
  have htraffic := step_traffic s e
  generalize s.step e = r at htraffic hput ⊢
  cases htraffic with
  | quiet hquiet => cases hquiet.out _ hput
  | authed he => simp [handleMessage, setStatus] at hput
  | calls he hyields => exact hsend _ hput
  | pings he =>
    obtain ⟨hready, hout⟩ := hsend _ hput
    have hping : ClientMessage.ping s.now = msg := by
      have hsame := List.cons.inj hout
      cases hsame.1
      rfl
    rw [← hping] at hwrites
    cases hwrites
  | @flushes u he hpending hsends hready =>
    cases (flush_pending hunwritten hpending).2 id n msg hput with
    | inl hnone => cases hnone
    | inr hread =>
      rw [hread] at hwrites
      cases hwrites

theorem unwritten_step {e : ClientEvent} (hunwritten : s.Unwritten) (hprompt : s.promptly e = true) :
    (s.step e).1.Unwritten := by
  have htraffic := step_traffic s e
  generalize s.step e = r at htraffic
  cases htraffic with
  | quiet hquiet =>
    intro m hm
    rw [hquiet.pending] at hm
    exact hunwritten m hm
  | authed he => exact hunwritten
  | @calls msg he hyields =>
    refine unwritten_send hunwritten ?_
    intro hready hqueues
    subst he
    simp only [promptly, hyields, hready, Option.isSome_none, Bool.not_true, Bool.or_false] at hprompt
    cases hwrites : writes msg with
    | false => rfl
    | true =>
      have hdropped : dropWhenDisconnected msg = true := by simpa [hwrites] using hprompt
      unfold shouldQueue at hqueues
      split at hqueues
      · cases hqueues
      · simp [hdropped] at hqueues
  | pings he =>
    refine unwritten_send hunwritten ?_
    intro _ _
    exact writes_ping s.now
  | @flushes u he hpending hsends hready =>
    exact (flush_pending hunwritten hpending).1

theorem authed_of_ready {outs : List ClientOutput} (hwired : s.Wired outs) {id : Nat}
    (hready : s.ready = some id) : .authed id ∈ outs := by
  obtain ⟨hcurrent, hopen⟩ := Option.filter_eq_some_iff.1 hready
  simp only [Bool.and_eq_true, decide_eq_true_eq] at hopen
  obtain ⟨t, htransport, hauthed⟩ := hwired.status hopen.2
  rw [hcurrent] at htransport
  cases htransport
  exact hauthed

end RelayClient

theorem wired_run {route : Nat} {token : String} {es : List ClientEvent}
    (hprompt : ∀ x ∈ (clientMachine (.init route token)).trace es, Prompt x) :
    ((clientMachine (.init route token)).run es).Wired ((clientMachine (.init route token)).outputs es) ∧
      ((clientMachine (.init route token)).run es).Unwritten := by
  refine trace_invariant _ (fun s outs => s.Wired outs ∧ s.Unwritten) ?_ ?_ hprompt
  · refine ⟨RelayClient.wired_init route token, ?_⟩
    intro m hm
    cases hm
  · rintro es e ⟨hwired, hunwritten⟩ ⟨hnow, hapart⟩
    exact ⟨hwired.step hapart, RelayClient.unwritten_step hunwritten hnow⟩

/-- In every run in which writes are sent while the client is connected, or are of a type that is dropped,
no write is put on a connection that was authenticated after it was asked for. -/
theorem no_write_replayed (route : Nat) (token : String) (es : List ClientEvent)
    (hprompt : ∀ x ∈ (clientMachine (.init route token)).trace es, Prompt x) :
    NoReplay ((clientMachine (.init route token)).outputs es) := by
  intro before id n msg after hall hwrites
  obtain ⟨first, e, later, u, v, hes, hout, hbefore⟩ :=
    (clientMachine (.init route token)).outputs_split es hall
  obtain ⟨hwired, hunwritten⟩ := wired_run (forall_trace_before hprompt hes)
  change (RelayClient.step _ e).2 = _ at hout
  obtain ⟨hready, hone⟩ := RelayClient.put_step hunwritten (by
    rw [hout]
    exact mem_append_right _ mem_cons_self) hwrites
  rw [hone] at hout
  refine ⟨(clientMachine (.init route token)).outputs first, ?_, RelayClient.authed_of_ready hwired hready⟩
  cases u with
  | nil => cases (List.cons.inj hout).1
  | cons o u =>
    obtain ⟨ho, hrest⟩ := List.cons.inj hout
    cases u with
    | nil => rw [hbefore, ← ho]
    | cons o' u =>
      have hlength := congrArg List.length hrest
      simp at hlength

/-- The client connects over its first transport, and the relay confirms the token. -/
def firstConnection : List ClientEvent :=
  [.calls .connect, .goesOn, .goesOn, .goesOn, .readyState 0 true, .onOpen 0, .onMessage 0 .authSuccess, .goesOn,
    .goesOn, .goesOn]

def listedBetween : List ClientEvent :=
  firstConnection ++ [.calls (.send (.fileDelete "notes.txt")), .onClose 0, .goesOn, .goesOn, .goesOn,
    .calls (.send .sessionList), .timerFires 1, .goesOn, .goesOn, .goesOn, .readyState 2 true, .onOpen 2,
    .onMessage 2 .authSuccess, .goesOn, .goesOn, .goesOn]

theorem no_write_replayed_listed : NoReplay ((clientMachine (.init 0 "t-laptop")).outputs listedBetween) :=
  no_write_replayed 0 "t-laptop" listedBetween (by decide +kernel)

def killedBetween : List ClientEvent :=
  firstConnection ++ [.onClose 0, .goesOn, .goesOn, .goesOn, .calls (.send (.sessionKill "work")), .timerFires 1, .goesOn,
    .goesOn, .goesOn, .readyState 2 true, .onOpen 2, .onMessage 2 .authSuccess, .goesOn, .goesOn, .goesOn]

def killedOutputs : List ClientOutput :=
  [.status .connecting, .dialled 0 0, .auth 0 "t-laptop", .authed 0, .status .connected, .status .reconnecting,
    .timer 1 1000, .sent 0 (.sessionKill "work"), .closed 0 .connect, .status .reconnecting, .dialled 2 0,
    .auth 2 "t-laptop", .authed 2, .status .connected]

/-- It is killed on the next connection. -/
theorem not_no_write_replayed : writes (.sessionKill "work") = true ∧
    (clientMachine (.init 0 "t-laptop")).outputs killedBetween = killedOutputs ++ [.put 2 0 (.sessionKill "work")] ∧
    ¬ NoReplay ((clientMachine (.init 0 "t-laptop")).outputs killedBetween) := by
  have hout : (clientMachine (.init 0 "t-laptop")).outputs killedBetween =
      killedOutputs ++ [.put 2 0 (.sessionKill "work")] := by decide +kernel
  refine ⟨rfl, hout, ?_⟩
  intro h
  obtain ⟨first, hbefore, -⟩ := h killedOutputs 2 0 (.sessionKill "work") [] hout rfl
  have hlast := congrArg List.getLast? hbefore
  rw [List.getLast?_append] at hlast
  cases hlast

end Mtmux.Browser
