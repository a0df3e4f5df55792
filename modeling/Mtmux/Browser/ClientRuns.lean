import Mtmux.Browser.ClientConnections

/-! What holds of the client over whole runs: its connections, its timers and the order of its messages. -/
namespace Mtmux.Browser
open Protocol Machine List

def Honest (x : ClientEntry) : Prop := x.pre.honest x.event = true

instance (x : ClientEntry) : Decidable (Honest x) := inferInstanceAs (Decidable (_ = true))

def Orderly (x : ClientEntry) : Prop := x.pre.orderly x.event = true

instance (x : ClientEntry) : Decidable (Orderly x) := inferInstanceAs (Decidable (_ = true))

/-- The numbers of the messages put on a wire. -/
def putIds (outs : List ClientOutput) : List Nat :=
  outs.filterMap fun o =>
    match o with
    | .put _ id _ => some id
    | _ => none

structure ConnectionsKept (start : RelayClient) (es : List ClientEvent) : Prop where
  alone : ∀ t t' line line', ((clientMachine start).run es).lines.get t = some line → line.alive = true →
    ((clientMachine start).run es).lines.get t' = some line' → line'.alive = true → t = t'
  timer : ((clientMachine start).run es).timers.length ≤ 1
  connected : ((clientMachine start).run es).status = .connected →
    ∃ t line, ((clientMachine start).run es).transport = some t ∧
      ((clientMachine start).run es).lines.get t = some line ∧ line.alive = true ∧
      .authed t ∈ (clientMachine start).outputs es
  spared : ∀ before e after t line, es = before ++ e :: after →
    .closed t .connect ∈ (((clientMachine start).run before).step e).2 →
    ((clientMachine start).run before).lines.get t = some line → line.alive = true →
    .authed t ∉ (clientMachine start).outputs before
  ordered : (putIds ((clientMachine start).outputs es)).Pairwise (· < ·)
  asked : ∀ t id msg, .put t id msg ∈ (clientMachine start).outputs es →
    .sent id msg ∈ (clientMachine start).outputs es
  oldest : ∀ x ∈ (clientMachine start).trace es, ∀ messages, .dropped messages ∈ x.out →
    ∃ m rest, messages = [m] ∧ x.pre.pendingMessages = m :: rest ∧
      x.pre.pendingMessages.length = maxPendingMessages
  kept : ∀ x ∈ (clientMachine start).trace es, ∀ m ∈ x.pre.pendingMessages,
    m ∈ x.post.pendingMessages ∨ (∃ t, .put t m.1 m.2 ∈ x.out) ∨ .dropped [m] ∈ x.out

namespace RelayClient
variable {outs : List ClientOutput} {s t : RelayClient}

variable {closed : Nat}

variable {out : List ClientOutput} {e : ClientEvent}

/-- A transport over which the relay has confirmed the token is not torn down for another one. -/
theorem spared_step (h : s.Lone outs) (horderly : s.orderly e = true)
    {line : Line} (hout : .closed closed .connect ∈ (s.step e).2) (hget : s.lines.get closed = some line)
    (halive : line.alive = true) : .authed closed ∉ outs := by
  obtain hnot | ⟨heard, -, hnot | hnot⟩ | ⟨closer, hclosed, hreconnects⟩ := step_says hout
  · cases hnot
  · cases hnot
  · cases hnot
  · obtain ⟨method, rfl, hmethod, hyields, hopens⟩ | ⟨timer, rfl, htimer⟩ :=
      hreconnects (of_decide_eq_true hclosed).symm
    · intro hauthed
      have hconnected := h.connected closed line hget halive hauthed
      cases hmethod with
      | inl heq | inr heq =>
        subst heq
        simp only [orderly, hyields, hopens, Bool.not_true, Bool.false_or, Bool.and_eq_true,
          decide_eq_true_eq] at horderly
        exact horderly.2 hconnected
    · have hpos : 0 < s.waits := by
        have hlength := length_pos_of_mem htimer
        unfold RelayClient.waits
        omega
      obtain ⟨hdead, -, -⟩ := h.idle hpos
      rw [hdead closed line hget] at halive
      cases halive

structure InOrder (outs : List ClientOutput) (s : RelayClient) : Prop where
  sorted : (putIds outs ++ s.pendingMessages.map Prod.fst).Pairwise (· < ·)
  below : ∀ id ∈ putIds outs ++ s.pendingMessages.map Prod.fst, id < s.sends
  put : ∀ t id msg, .put t id msg ∈ outs → .sent id msg ∈ outs
  pending : ∀ m ∈ s.pendingMessages, .sent m.1 m.2 ∈ outs ∧ shouldQueue m.2 = true
  few : s.pendingMessages.length ≤ maxPendingMessages

theorem putIds_append (outs out : List ClientOutput) : putIds (outs ++ out) = putIds outs ++ putIds out :=
  filterMap_append

/-- The queue stays as it is, and nothing is put. -/
theorem InOrder.quiet (h : s.InOrder outs) (hpending : t.pendingMessages = s.pendingMessages)
    (hsends : t.sends = s.sends) (hout : ∀ o ∈ out, ∀ t id msg, o ≠ .put t id msg) : t.InOrder (outs ++ out) := by
  have hnone : putIds out = [] := by
    rw [putIds, filterMap_eq_nil_iff]
    intro o ho
    have hnot := hout o ho
    cases o with
    | put t id msg => exact absurd rfl (hnot t id msg)
    | _ => rfl
  refine ⟨?_, ?_, ?_, ?_, hpending ▸ h.few⟩
  · rw [putIds_append, hnone, append_nil, hpending]
    exact h.sorted
  · rw [putIds_append, hnone, append_nil, hpending, hsends]
    exact h.below
  · intro t id msg hput
    cases mem_append.1 hput with
    | inl hold => exact mem_append_left _ (h.put t id msg hold)
    | inr hnew => exact absurd rfl (hout _ hnew t id msg)
  · rw [hpending]
    intro m hm
    exact ⟨mem_append_left _ (h.pending m hm).1, (h.pending m hm).2⟩

/-- What the queue has become: the new message is the last, and what is over the limit has gone. -/
theorem enqueue_cases (s : RelayClient) (msg : Nat × ClientMessage)
    (hfew : s.pendingMessages.length ≤ maxPendingMessages) :
    (shouldQueue msg.2 = false ∧ s.enqueue msg = (s, [])) ∨
    (shouldQueue msg.2 = true ∧ s.pendingMessages.length < maxPendingMessages ∧
      s.enqueue msg = ({ s with pendingMessages := s.pendingMessages ++ [msg] }, [])) ∨
    ∃ oldest rest, shouldQueue msg.2 = true ∧ s.pendingMessages = oldest :: rest ∧
      s.pendingMessages.length = maxPendingMessages ∧
      s.enqueue msg = ({ s with pendingMessages := rest ++ [msg], todo := .handlers :: s.todo },
        [.dropped [oldest]]) := by
  unfold enqueue
  cases hqueues : shouldQueue msg.2 with
  | false => exact .inl ⟨rfl, rfl⟩
  | true =>
    right
    simp only [Bool.not_true, Bool.false_eq_true, if_false, length_append, length_singleton]
    by_cases hroom : s.pendingMessages.length < maxPendingMessages
    · left
      rw [if_pos (by omega)]
      exact ⟨trivial, hroom, rfl⟩
    · right
      have hfull : s.pendingMessages.length = maxPendingMessages := by omega
      cases hpending : s.pendingMessages with
      | nil =>
        rw [hpending] at hfull
        cases hfull
      | cons oldest rest =>
        rw [hpending] at hfull
        have hover : (oldest :: rest).length + 1 - maxPendingMessages = 1 := by omega
        refine ⟨oldest, rest, trivial, rfl, hfull, ?_⟩
        rw [hover]
        rfl

theorem sorted_more {ids pending : List Nat} {n : Nat} (hsorted : (ids ++ pending).Pairwise (· < ·))
    (hbelow : ∀ id ∈ ids ++ pending, id < n) : (ids ++ (pending ++ [n])).Pairwise (· < ·) := by
  rw [← append_assoc, pairwise_append]
  refine ⟨hsorted, pairwise_singleton _ n, ?_⟩
  intro id hid m hm
  rw [mem_singleton.1 hm]
  exact hbelow id hid

/-- The message is the newest: it is put with no other waiting, or it waits behind all others. -/
theorem InOrder.send (h : s.InOrder outs) {msg : ClientMessage}
    (hfree : s.ready.isSome = true → s.pendingMessages = []) : (s.send msg).1.InOrder (outs ++ (s.send msg).2) := by
  have hbelow : ∀ ids : List Nat, (∀ id ∈ ids, id ∈ putIds outs ++ s.pendingMessages.map Prod.fst ∨ id = s.sends) →
      ∀ id ∈ ids, id < s.sends + 1 := by
    intro ids hids id hid
    cases hids id hid with
    | inl hold =>
      have hlt := h.below id hold
      omega
    | inr hnew => omega
  have hsent : ∀ {out : List ClientOutput} {m : Nat × ClientMessage}, .sent m.1 m.2 ∈ outs →
      .sent m.1 m.2 ∈ outs ++ out := fun hm => mem_append_left _ hm
  unfold RelayClient.send deliver
  dsimp only
  cases hready : s.ready with
  | some current =>
    have hempty := hfree (by rw [hready]; rfl)
    have hready' : ({ s with sends := s.sends + 1 } : RelayClient).ready = some current := hready
    have hsorted := sorted_more h.sorted h.below
    rw [hready']
    rw [hempty] at hsorted
    have hids : putIds (outs ++ [.sent s.sends msg, .put current s.sends msg]) = putIds outs ++ [s.sends] := by
      rw [putIds_append]
      rfl
    refine ⟨?_, ?_, ?_, ?_, h.few⟩
    · change (putIds _ ++ s.pendingMessages.map Prod.fst).Pairwise (· < ·)
      rw [hids, hempty]
      simpa using hsorted
    · change ∀ id ∈ putIds _ ++ s.pendingMessages.map Prod.fst, id < s.sends + 1
      rw [hids, hempty]
      refine hbelow _ ?_
      intro id hid
      simp only [map_nil, append_nil, mem_append, mem_singleton] at hid
      cases hid with
      | inl hold => exact .inl (mem_append_left _ hold)
      | inr hnew => exact .inr hnew
    · intro t id m hput
      cases mem_append.1 hput with
      | inl hold => exact mem_append_left _ (h.put t id m hold)
      | inr hnew =>
        refine mem_append_right _ ?_
        cases mem_cons.1 hnew with
        | inl hnot => cases hnot
        | inr hput =>
          cases mem_singleton.1 hput
          exact mem_cons_self
    · intro m hm
      change m ∈ s.pendingMessages at hm
      rw [hempty] at hm
      cases hm
  | none =>
    have hready' : ({ s with sends := s.sends + 1 } : RelayClient).ready = none := hready
    rw [hready']
    have hputs : ∀ {out : List ClientOutput}, (∀ t id m, .put t id m ∉ out) → ∀ t id m,
        .put t id m ∈ outs ++ out → .sent id m ∈ outs ++ out := by
      intro out hnone t id m hput
      cases mem_append.1 hput with
      | inl hold => exact mem_append_left _ (h.put t id m hold)
      | inr hnew => exact absurd hnew (hnone t id m)
    have hlonger := sorted_more h.sorted h.below
    cases enqueue_cases { s with sends := s.sends + 1 } (s.sends, msg) h.few with
    | inl hdropped =>
      obtain ⟨-, heq⟩ := hdropped
      rw [heq]
      have hids : putIds (outs ++ [.sent s.sends msg]) = putIds outs := by
        rw [putIds_append]
        exact append_nil _
      refine ⟨?_, ?_, hputs (by simp), ?_, h.few⟩
      · rw [hids]
        exact h.sorted
      · rw [hids]
        exact hbelow _ fun id hid => .inl hid
      · intro m hm
        exact ⟨hsent (h.pending m hm).1, (h.pending m hm).2⟩
    | inr hwaits =>
      have hmore : ∀ m ∈ s.pendingMessages ++ [(s.sends, msg)], shouldQueue msg = true →
          ∀ out, .sent m.1 m.2 ∈ outs ++ .sent s.sends msg :: out ∧ shouldQueue m.2 = true := by
        intro m hm hqueues out
        cases mem_append.1 hm with
        | inl hold => exact ⟨hsent (h.pending m hold).1, (h.pending m hold).2⟩
        | inr hnew =>
          rw [mem_singleton.1 hnew]
          exact ⟨mem_append_right _ mem_cons_self, hqueues⟩
      cases hwaits with
      | inl hroom =>
        obtain ⟨hqueues, hlt, heq⟩ := hroom
        rw [heq]
        have hids : putIds (outs ++ [.sent s.sends msg]) = putIds outs := by
          rw [putIds_append]
          exact append_nil _
        refine ⟨?_, ?_, hputs (by simp), fun m hm => hmore m hm hqueues [], ?_⟩
        · rw [hids]
          simpa using hlonger
        · rw [hids]
          refine hbelow _ ?_
          intro id hid
          simp only [map_append, map_cons, map_nil, mem_append, mem_singleton] at hid ⊢
          tauto
        · change (s.pendingMessages ++ [(s.sends, msg)]).length ≤ maxPendingMessages
          change s.pendingMessages.length < maxPendingMessages at hlt
          rw [length_append, length_singleton]
          omega
      | inr hfull =>
        obtain ⟨oldest, rest, hqueues, hpending, hlength, heq⟩ := hfull
        change s.pendingMessages = oldest :: rest at hpending
        change s.pendingMessages.length = maxPendingMessages at hlength
        rw [heq]
        have hids : putIds (outs ++ [.sent s.sends msg, .dropped [oldest]]) = putIds outs := by
          rw [putIds_append]
          exact append_nil _
        have hsub : (rest ++ [(s.sends, msg)]).Sublist (s.pendingMessages ++ [(s.sends, msg)]) := by
          rw [hpending]
          exact sublist_cons_self oldest _
        refine ⟨?_, ?_, hputs (by simp), fun m hm => hmore m (hsub.subset hm) hqueues _, ?_⟩
        · rw [hids]
          have hall : (putIds outs ++ (s.pendingMessages ++ [(s.sends, msg)]).map Prod.fst).Pairwise (· < ·) := by
            simpa using hlonger
          exact hall.sublist ((hsub.map Prod.fst).append_left (putIds outs))
        · rw [hids]
          refine hbelow _ ?_
          intro id hid
          have hid' := ((hsub.map Prod.fst).append_left (putIds outs)).subset hid
          simp only [map_append, map_cons, map_nil, mem_append, mem_singleton] at hid' ⊢
          tauto
        · change (rest ++ [(s.sends, msg)]).length ≤ maxPendingMessages
          rw [hpending] at hlength
          rw [length_append, length_singleton]
          rw [length_cons] at hlength
          omega

theorem flush_ready {current : Nat} (messages : List (Nat × ClientMessage)) (r : ClientStep)
    (hready : r.1.ready = some current) :
    flush r messages = (r.1, r.2 ++ messages.map fun m => ClientOutput.put current m.1 m.2) := by
  induction messages generalizing r with
  | nil => simp [flush]
  | cons msg messages ih =>
    have hdeliver : r.1.deliver msg = (r.1, [.put current msg.1 msg.2]) := by
      unfold deliver
      rw [hready]
    change flush ((r.1.deliver msg).1, r.2 ++ (r.1.deliver msg).2) messages = _
    rw [hdeliver, ih (r.1, r.2 ++ [ClientOutput.put current msg.1 msg.2]) hready]
    simp

theorem flush_waits (messages : List (Nat × ClientMessage)) (r : ClientStep) (hready : r.1.ready = none)
    (hqueues : ∀ m ∈ messages, shouldQueue m.2 = true)
    (hfew : r.1.pendingMessages.length + messages.length ≤ maxPendingMessages) :
    flush r messages = ({ r.1 with pendingMessages := r.1.pendingMessages ++ messages }, r.2) := by
  induction messages generalizing r with
  | nil => simp [flush]
  | cons msg messages ih =>
    rw [length_cons] at hfew
    have hdeliver : r.1.deliver msg =
        ({ r.1 with pendingMessages := r.1.pendingMessages ++ [msg] }, []) := by
      unfold deliver
      rw [hready]
      cases enqueue_cases r.1 msg (by omega) with
      | inl hdropped =>
        rw [hqueues msg mem_cons_self] at hdropped
        cases hdropped.1
      | inr hwaits =>
        cases hwaits with
        | inl hroom => exact hroom.2.2
        | inr hfull =>
          obtain ⟨-, -, -, -, hlength, -⟩ := hfull
          omega
    change flush ((r.1.deliver msg).1, r.2 ++ (r.1.deliver msg).2) messages = _
    rw [hdeliver, ih ({ r.1 with pendingMessages := r.1.pendingMessages ++ [msg] }, r.2 ++ []) hready
      (fun m hm => hqueues m (mem_cons_of_mem _ hm)) (by simp; omega)]
    simp

theorem flushed_cases (h : s.InOrder outs) (hpending : t.pendingMessages = s.pendingMessages)
    (hready : t.ready = s.ready) :
    (∃ current, s.ready = some current ∧ t.flushPendingMessages = ({ t with pendingMessages := [] },
      s.pendingMessages.map fun m => ClientOutput.put current m.1 m.2)) ∨
    (s.ready = none ∧ t.flushPendingMessages = (t, [])) := by
  have hflush : t.flushPendingMessages = flush ({ t with pendingMessages := [] }, []) s.pendingMessages := by
    rw [← hpending]
    rfl
  rw [hflush]
  cases hnow : s.ready with
  | some current =>
    left
    refine ⟨current, rfl, ?_⟩
    exact flush_ready s.pendingMessages ({ t with pendingMessages := [] }, []) (hready.trans hnow)
  | none =>
    right
    refine ⟨rfl, ?_⟩
    rw [flush_waits s.pendingMessages ({ t with pendingMessages := [] }, []) (hready.trans hnow)
      (fun m hm => (h.pending m hm).2) (by simpa using h.few)]
    simp only [nil_append, ← hpending]

theorem InOrder.flush (h : s.InOrder outs) (hpending : t.pendingMessages = s.pendingMessages)
    (hsends : t.sends = s.sends) (hready : t.ready = s.ready) :
    t.flushPendingMessages.1.InOrder (outs ++ t.flushPendingMessages.2) := by
  cases flushed_cases h hpending hready with
  | inl hput =>
    obtain ⟨current, -, heq⟩ := hput
    rw [heq]
    have hids : putIds (outs ++ s.pendingMessages.map fun m => ClientOutput.put current m.1 m.2) =
        putIds outs ++ s.pendingMessages.map Prod.fst := by
      rw [putIds_append]
      congr 1
      rw [putIds, filterMap_map]
      exact congrFun (filterMap_eq_map (f := Prod.fst)) s.pendingMessages
    refine ⟨?_, ?_, ?_, ?_, Nat.zero_le _⟩
    · rw [hids]
      simpa using h.sorted
    · rw [hids]
      change ∀ id ∈ (putIds outs ++ s.pendingMessages.map Prod.fst) ++ [], id < t.sends
      rw [append_nil, hsends]
      exact h.below
    · intro id n m hm
      cases mem_append.1 hm with
      | inl hold => exact mem_append_left _ (h.put id n m hold)
      | inr hnew =>
        obtain ⟨waiting, hwaiting, hsame⟩ := mem_map.1 hnew
        cases hsame
        exact mem_append_left _ (h.pending waiting hwaiting).1
    · intro m hm
      cases hm
  | inr hwaits =>
    rw [hwaits.2, append_nil]
    refine ⟨?_, ?_, h.put, ?_, ?_⟩
    · rw [hpending]
      exact h.sorted
    · rw [hpending, hsends]
      exact h.below
    · rw [hpending]
      exact h.pending
    · rw [hpending]
      exact h.few

theorem free_of_orderly {msg : ClientMessage} (horderly : s.orderly e = true)
    (he : e = .calls (.send msg) ∨ ∃ bufferedAmount, e = .pingFires bufferedAmount)
    (hready : s.ready.isSome = true) : s.pendingMessages = [] := by
  have hempty : (s.ready.isNone || s.pendingMessages.isEmpty) = true := by
    cases he with
    | inl heq => rw [heq] at horderly; exact horderly
    | inr heq =>
      obtain ⟨bufferedAmount, heq⟩ := heq
      rw [heq] at horderly
      exact horderly
  obtain ⟨current, hcurrent⟩ := Option.isSome_iff_exists.1 hready
  rw [hcurrent] at hempty
  simpa using hempty

theorem InOrder.step (h : s.InOrder outs) (horderly : s.orderly e = true) :
    (s.step e).1.InOrder (outs ++ (s.step e).2) := by
  have htraffic := step_traffic s e
  generalize s.step e = r at htraffic
  cases htraffic with
  | quiet hquiet =>
    refine h.quiet hquiet.pending hquiet.sends ?_
    rintro _ ho t id msg rfl
    cases hquiet.out _ ho
  | authed he => exact h.quiet rfl rfl (by simp [handleMessage, setStatus])
  | calls he hyields => exact h.send (free_of_orderly horderly (.inl he))
  | @pings bufferedAmount he =>
    exact h.send (@free_of_orderly s e (.ping s.now) horderly (.inr ⟨bufferedAmount, he⟩))
  | flushes he hpending hsends hready => exact h.flush hpending hsends hready

/-- What a message that waits can come to in one step. -/
structure Queued (s : RelayClient) (r : ClientStep) : Prop where
  oldest : ∀ messages, .dropped messages ∈ r.2 → ∃ m rest, messages = [m] ∧ s.pendingMessages = m :: rest ∧
    s.pendingMessages.length = maxPendingMessages
  kept : ∀ m ∈ s.pendingMessages,
    m ∈ r.1.pendingMessages ∨ (∃ t, .put t m.1 m.2 ∈ r.2) ∨ .dropped [m] ∈ r.2

theorem queued_send (h : s.InOrder outs) (msg : ClientMessage) : s.Queued (s.send msg) := by
  unfold RelayClient.send deliver
  dsimp only
  cases hready : ({ s with sends := s.sends + 1 } : RelayClient).ready with
  | some current =>
    refine ⟨?_, fun m hm => .inl hm⟩
    intro messages hdropped
    simp at hdropped
  | none =>
    cases enqueue_cases { s with sends := s.sends + 1 } (s.sends, msg) h.few with
    | inl hdropped =>
      rw [hdropped.2]
      refine ⟨?_, fun m hm => .inl hm⟩
      intro messages hout
      simp at hout
    | inr hwaits =>
      cases hwaits with
      | inl hroom =>
        rw [hroom.2.2]
        refine ⟨?_, fun m hm => .inl (mem_append_left _ hm)⟩
        intro messages hout
        simp at hout
      | inr hfull =>
        obtain ⟨oldest, rest, -, hpending, hlength, heq⟩ := hfull
        rw [heq]
        refine ⟨?_, ?_⟩
        · intro messages hout
          have hone : messages = [oldest] := by simpa using hout
          exact ⟨oldest, rest, hone, hpending, hlength⟩
        · intro m hm
          change s.pendingMessages = oldest :: rest at hpending
          rw [hpending] at hm
          cases mem_cons.1 hm with
          | inl hsame => exact .inr (.inr (by simp [hsame]))
          | inr hrest => exact .inl (mem_append_left _ hrest)

theorem queued_step (h : s.InOrder outs) (e : ClientEvent) : s.Queued (s.step e) := by
  have htraffic := step_traffic s e
  generalize s.step e = r at htraffic
  cases htraffic with
  | quiet hquiet =>
    refine ⟨?_, fun m hm => .inl (hquiet.pending ▸ hm)⟩
    intro messages hout
    cases hquiet.out _ hout
  | authed he => exact ⟨by simp [handleMessage, setStatus], fun m hm => .inl hm⟩
  | calls _ _ | pings _ => exact queued_send h _
  | flushes he hpending hsends hready =>
    cases flushed_cases h hpending hready with
    | inl hput =>
      obtain ⟨current, -, heq⟩ := hput
      rw [heq]
      refine ⟨?_, ?_⟩
      · intro messages hout
        obtain ⟨m, -, hnot⟩ := mem_map.1 hout
        cases hnot
      · intro m hm
        exact .inr (.inl ⟨current, mem_map.2 ⟨m, hm, rfl⟩⟩)
    | inr hwaits =>
      rw [hwaits.2]
      refine ⟨?_, fun m hm => .inl (hpending ▸ hm)⟩
      intro messages hout
      cases hout

end RelayClient

variable {route : Nat} {token : String} {es : List ClientEvent}

theorem lone_run (hhonest : ∀ x ∈ (clientMachine (.init route token)).trace es, Honest x)
    (horderly : ∀ x ∈ (clientMachine (.init route token)).trace es, Orderly x) :
    ((clientMachine (.init route token)).run es).Lone ((clientMachine (.init route token)).outputs es) ∧
      ((clientMachine (.init route token)).run es).InOrder ((clientMachine (.init route token)).outputs es) := by
  induction es using List.reverseRecOn with
  | nil =>
    refine ⟨RelayClient.lone_init route token, ⟨List.Pairwise.nil, ?_, ?_, ?_, Nat.zero_le _⟩⟩
    · intro id hid
      cases hid
    · intro t id msg hput
      cases hput
    · intro m hm
      cases hm
  | append_singleton es e ih =>
    obtain ⟨hpast, hlast⟩ := forall_trace_snoc hhonest
    obtain ⟨hbefore, hnow⟩ := forall_trace_snoc horderly
    obtain ⟨hlone, horder⟩ := ih hpast hbefore
    rw [run_snoc, outputs_snoc]
    exact ⟨hlone.step hlast hnow, horder.step hnow⟩

/-- In every run with honest transports in which no connection is made over one that is made or being made,
the client has one connection and one timer, and its messages go out in the order of their calls. -/
theorem connections_kept (route : Nat) (token : String) (es : List ClientEvent)
    (hhonest : ∀ x ∈ (clientMachine (.init route token)).trace es, Honest x)
    (horderly : ∀ x ∈ (clientMachine (.init route token)).trace es, Orderly x) :
    ConnectionsKept (.init route token) es := by
  have hbefore : ∀ before e after, es = before ++ e :: after →
      (((clientMachine (.init route token)).run before).Lone
        ((clientMachine (.init route token)).outputs before) ∧
      ((clientMachine (.init route token)).run before).InOrder
        ((clientMachine (.init route token)).outputs before)) ∧
      Orderly ((clientMachine (.init route token)).entry ((clientMachine (.init route token)).run before) e) := by
    intro before e after hes
    refine ⟨lone_run (forall_trace_before hhonest hes) (forall_trace_before horderly hes), ?_⟩
    exact horderly _ (((clientMachine (.init route token)).mem_trace es _).2 ⟨before, e, after, hes, rfl⟩)
  obtain ⟨hlone, horder⟩ := lone_run hhonest horderly
  refine ⟨?_, ?_, hlone.confirmed, ?_, ?_, horder.put, ?_, ?_⟩
  · intro t t' line line' hget halive hget' halive'
    have hcurrent := RelayClient.alive_current hlone.toJoined hget halive
    rw [RelayClient.alive_current hlone.toJoined hget' halive'] at hcurrent
    exact (Option.some.inj hcurrent).symm
  · have hwaits := hlone.waits
    unfold RelayClient.waits at hwaits
    omega
  · intro before e after t line hes hout hget halive
    obtain ⟨⟨hthen, -⟩, hnow⟩ := hbefore before e after hes
    exact RelayClient.spared_step hthen hnow hout hget halive
  · exact (pairwise_append.1 horder.sorted).1
  · intro x hx
    obtain ⟨before, e, after, hes, rfl⟩ := ((clientMachine (.init route token)).mem_trace es x).1 hx
    exact (RelayClient.queued_step (hbefore before e after hes).1.2 e).oldest
  · intro x hx
    obtain ⟨before, e, after, hes, rfl⟩ := ((clientMachine (.init route token)).mem_trace es x).1 hx
    exact (RelayClient.queued_step (hbefore before e after hes).1.2 e).kept

/-- The client connects, loses the connection and connects again; a list that was asked for in between is
sent first. -/
def lostConnection : List ClientEvent :=
  [.calls .connect, .goesOn, .goesOn, .goesOn, .readyState 0 true, .onOpen 0, .onMessage 0 .authSuccess, .goesOn,
    .goesOn, .goesOn, .onClose 0, .goesOn, .goesOn, .goesOn, .calls (.send .sessionList), .timerFires 1, .goesOn,
    .goesOn, .goesOn, .readyState 2 true, .onOpen 2, .onMessage 2 .authSuccess, .goesOn, .goesOn, .goesOn,
    .calls (.send .paneList)]

theorem connections_kept_lost : ConnectionsKept (.init 0 "t-laptop") lostConnection :=
  connections_kept 0 "t-laptop" lostConnection (by decide +kernel) (by decide +kernel)

def connectedTwice : List ClientEvent :=
  [.calls .connect, .goesOn, .goesOn, .goesOn, .readyState 0 true, .onOpen 0, .onMessage 0 .authSuccess, .goesOn,
    .goesOn, .goesOn]

/-- The connection that the relay has confirmed is torn down. -/
theorem not_connections_kept : (((clientMachine (.init 0 "t-laptop")).run connectedTwice).step (.calls .connect)).2 =
      [.closed 0 .connect, .status .connecting] ∧
    .authed 0 ∈ (clientMachine (.init 0 "t-laptop")).outputs connectedTwice ∧
    ¬ ConnectionsKept (.init 0 "t-laptop") (connectedTwice ++ [.calls .connect]) := by
  have hout : (((clientMachine (.init 0 "t-laptop")).run connectedTwice).step (.calls .connect)).2 =
      [.closed 0 .connect, .status .connecting] := by decide +kernel
  have hauthed : .authed 0 ∈ (clientMachine (.init 0 "t-laptop")).outputs connectedTwice := by decide +kernel
  refine ⟨hout, hauthed, ?_⟩
  intro h
  have hget : ((clientMachine (.init 0 "t-laptop")).run connectedTwice).lines.get 0 =
      some ⟨0, true, false, false⟩ := by decide +kernel
  exact h.spared connectedTwice (.calls .connect) [] 0 _ rfl (by rw [hout]; exact mem_cons_self) hget rfl
    hauthed

end Mtmux.Browser
