import Mtmux.Cli.ExchangeEffect

/-! Who is let in by a pairing exchange: one peer at most, whose tag verified under the keys
of its own share and whom the gate admitted. -/
namespace Mtmux.Cli
open Crypto OrderedMap Machine List

namespace Exchange
variable {opts : ExchangeOptions}

def SharedBy (opts : ExchangeOptions) (s : ExchangeEntry) (peer : String) (attempt : Attempt) :
    Prop :=
  ∃ shareHex sidHex msg, s.event = .message (.peerShare peer shareHex msg.ad sidHex) ∧
    hexToBytes shareHex = some msg.share ∧ hexToBytes sidHex = some msg.sid ∧ msg.peer = peer ∧
    opts.derive s.pre.derived msg = .attempt attempt

def VerifiedBy (opts : ExchangeOptions) (c : ExchangeEntry) (peer : String) (attempt : Attempt)
    (call : Nat) : Prop :=
  ∃ tagHex tag, c.event = .message (.peerConfirm peer tagHex) ∧ hexToBytes tagHex = some tag ∧
    verifyConfirmation opts.P attempt.keys.confirm .browser tag = true ∧ c.pre.calls = call ∧
    (opts.admits = true → .ask call peer (peerLabel attempt) ∈ c.out)

/-- A share of the peer, then a tag that verifies under its keys, then, where there is a
gate, its yes to the question asked for this tag. -/
def Proven (opts : ExchangeOptions) (steps : List ExchangeEntry) (peer : String)
    (attempt : Attempt) : Prop :=
  ∃ s c call, SharedBy opts s peer attempt ∧ VerifiedBy opts c peer attempt call ∧
    if opts.admits then ∃ a : ExchangeEntry, a.event = .admitted call (some true) ∧
      List.Sublist [s, c, a] steps
    else List.Sublist [s, c] steps

/-- At most `m` derivations and own tags, one `pair:establish` at most, and that, as the
result, for a peer that has proven itself, whose keys are those resolved. -/
structure ExchangeSafe (opts : ExchangeOptions) (es : List ExchangeEvent) : Prop where
  derives : ∀ m, opts.maxPeers = some m → ((runExchange opts).run es).derived ≤ m
  confirms : ∀ m, opts.maxPeers = some m → opts.side = .mailbox →
    ((runExchange opts).outputs es).countP ExchangeOut.isOwnConfirm ≤ m
  establishes : ((runExchange opts).outputs es).countP ExchangeOut.isEstablish ≤ 1
  established : ∀ peer blob,
    .send (.toPeer peer (.establish blob)) ∈ (runExchange opts).outputs es →
    ∃ attempt, Proven opts ((runExchange opts).trace es) peer attempt ∧
      .resolve ⟨attempt.keys, peerLabel attempt⟩ ∈ (runExchange opts).outputs es
  resolved : ∀ result, .resolve result ∈ (runExchange opts).outputs es →
    ∃ peer attempt blob, Proven opts ((runExchange opts).trace es) peer attempt ∧
      result = ⟨attempt.keys, peerLabel attempt⟩ ∧
      .send (.toPeer peer (.establish blob)) ∈ (runExchange opts).outputs es

/-- No conversation is begun and none gets further. -/
structure Wanes (x : Exchange) (next : Exchange × List ExchangeOut) : Prop where
  attempts : ∀ p a, next.1.attempts.get p = some a → x.attempts.get p = some a
  confirms : ∀ k c, next.1.confirms.get k = some c → x.confirms.get k = some c
  settled : x.settled = true → next.1.settled = true
  plain : ∀ o ∈ next.2, o.isPlain = true

theorem get_of_get_delete {κ ν : Type} [DecidableEq κ] {m : OrderedMap κ ν} {gone k : κ} {v : ν}
    (h : (m.delete gone).get k = some v) : m.get k = some v := by
  exact get_of_delete h

variable {x : Exchange} {next : Exchange × List ExchangeOut}

theorem Idle.wanes (h : Idle x next) : Wanes x next := by
  refine ⟨fun p a ha => ?_, fun k c hc => ?_, h.settled, fun o ho => (h.plain o ho).1⟩
  · rwa [h.attempts] at ha
  · rwa [h.confirms] at hc

variable {peer : String}

theorem RuledOut.wanes (h : RuledOut x peer next) : Wanes x next := by
  refine ⟨fun p a ha => ?_, fun k c hc => ?_, h.settled, h.plain⟩
  · rw [h.attempts] at ha
    exact get_of_get_delete ha
  · rwa [h.confirms] at hc

theorem Wanes.of_delete {call : Nat} (h : Wanes { x with confirms := x.confirms.delete call } next) : Wanes x next :=
  { h with confirms := fun k c hc => get_of_get_delete (h.confirms k c hc) }

/-- What a step does for the conversations: one begins, or gets one step further, or none
does. -/
inductive Advance (opts : ExchangeOptions) (x : Exchange) :
    ExchangeEvent → Exchange × List ExchangeOut → Prop where
  | wanes {e : ExchangeEvent} {next : Exchange × List ExchangeOut} (wanes : Wanes x next) :
      Advance opts x e next
  | taken {peer shareHex ad sidHex : String} {share sid : Bytes} {attempt : Attempt}
      (shareOk : hexToBytes shareHex = some share) (sidOk : hexToBytes sidHex = some sid)
      (derives : opts.derive x.derived ⟨peer, share, ad, sid⟩ = .attempt attempt) :
      Advance opts x (.message (.peerShare peer shareHex ad sidHex))
        ({ x.counted with attempts := x.attempts.set peer attempt }, greeting opts attempt)
  | verified {peer tagHex : String} {tag : Bytes} {attempt : Attempt}
      (tagOk : hexToBytes tagHex = some tag) (known : x.attempts.get peer = some attempt)
      (verifies : verifyConfirmation opts.P attempt.keys.confirm .browser tag = true)
      {confirm : Confirm}
      (suspended : confirm = ⟨peer, attempt, if opts.admits then .admitting else .sealing⟩)
      {asks : ExchangeOut} (asked : asks = if opts.admits then .ask x.calls peer (peerLabel attempt)
        else .sealFor x.calls attempt.keys) :
      Advance opts x (.message (.peerConfirm peer tagHex))
        ({ x with confirms := x.confirms.set x.calls confirm, calls := x.calls + 1 },
          ownAnswer opts attempt ++ [asks])
  | allowed {call : Nat} {peer : String} {attempt : Attempt}
      (asked : x.confirms.get call = some ⟨peer, attempt, .admitting⟩) :
      Advance opts x (.admitted call (some true))
        ({ x with confirms := x.confirms.set call ⟨peer, attempt, .sealing⟩ },
          [.sealFor call attempt.keys])
  | established {call : Nat} {peer : String} {attempt : Attempt} {blob : Bytes}
      (unsettled : x.settled = false)
      (sealing : x.confirms.get call = some ⟨peer, attempt, .sealing⟩) :
      Advance opts x (.sealed call (.ok blob))
        ({ x with confirms := x.confirms.delete call, settled := true },
          [.send (.toPeer peer (.establish (bytesToBase64Url blob))), .close,
            .resolve ⟨attempt.keys, peerLabel attempt⟩])

theorem derivedFor_some {msg : PeerShare} {derived : Derived} (h : x.derivedFor opts msg = some derived) :
    x.attempts.get msg.peer = none ∧ (∀ m ∈ opts.maxPeers, x.seen + 1 ≤ m) ∧ opts.derive x.derived msg = derived := by
  unfold derivedFor at h
  split at h
  · cases h
  · rename_i hfresh
    split at h
    · cases h
    · rename_i hroom
      refine ⟨?_, fun m hm => ?_, Option.some.inj h⟩
      · simpa [OrderedMap.has] using hfresh
      · have hnot : ¬ m < x.seen + 1 := fun hlt => hroom ⟨m, hm, hlt⟩
        omega

theorem step_advance (x : Exchange) (e : ExchangeEvent) : Advance opts x e (x.step opts e) := by
  have heffect : Effect opts x e (x.step opts e) := step_effect x e
  generalize x.step opts e = next at heffect ⊢
  cases heffect with
  | idle spares takesNone hidle => exact .wanes hidle.wanes
  | failed unsent hruled => exact .wanes hruled.wanes
  | rejected shareOk sidOk derives hruled =>
    have hwanes := hruled.wanes
    exact .wanes { hwanes with }
  | taken shareOk sidOk derives => exact .taken shareOk sidOk (derivedFor_some derives).2.2
  | mistaken tagOk fails hruled => exact .wanes hruled.wanes
  | verified tagOk known verifies => exact .verified tagOk known verifies rfl rfl
  | refused unsettled asked no hruled => exact .wanes hruled.wanes.of_delete
  | allowed unsettled asked => exact .allowed asked
  | dropped spares takesNone settles hidle => exact .wanes hidle.wanes.of_delete
  | established unsettled sealing => exact .established unsettled sealing

structure Counts (opts : ExchangeOptions) (x next : Exchange) : Prop where
  seen : x.seen ≤ next.seen
  derived : next.derived = x.derived ∨ next.derived = x.derived + 1 ∧
    next.seen = x.seen + 1 ∧ ∀ m ∈ opts.maxPeers, next.seen ≤ m

theorem step_counts (x : Exchange) (e : ExchangeEvent) : Counts opts x (x.step opts e).1 := by
  have heffect : Effect opts x e (x.step opts e) := step_effect x e
  generalize x.step opts e = next at heffect ⊢
  cases heffect with
  | idle spares takesNone hidle => exact ⟨hidle.seen, Or.inl hidle.derived⟩
  | failed unsent hruled => exact ⟨hruled.seen.ge, Or.inl hruled.derived⟩
  | rejected shareOk sidOk derives hruled =>
    refine ⟨?_, Or.inr ⟨hruled.derived, hruled.seen, fun m hm => ?_⟩⟩
    · rw [hruled.seen]
      exact Nat.le_succ _
    · rw [hruled.seen]
      exact (derivedFor_some derives).2.1 m hm
  | taken shareOk sidOk derives =>
    exact ⟨Nat.le_succ _, Or.inr ⟨rfl, rfl, (derivedFor_some derives).2.1⟩⟩
  | mistaken tagOk fails hruled => exact ⟨hruled.seen.ge, Or.inl hruled.derived⟩
  | refused unsettled asked no hruled => exact ⟨hruled.seen.ge, Or.inl hruled.derived⟩
  | dropped spares takesNone settles hidle => exact ⟨hidle.seen, Or.inl hidle.derived⟩
  | _ => exact ⟨Nat.le_refl _, Or.inl rfl⟩

theorem run_counted (opts : ExchangeOptions) (es : List ExchangeEvent) :
    ((runExchange opts).run es).derived ≤ ((runExchange opts).run es).seen ∧
      ∀ m ∈ opts.maxPeers, ((runExchange opts).run es).derived ≤ m := by
  apply (runExchange opts).run_invariant
    (I := fun x => x.derived ≤ x.seen ∧ ∀ m ∈ opts.maxPeers, x.derived ≤ m)
  · exact ⟨Nat.le_refl _, fun m _ => Nat.zero_le m⟩
  · intro x e hx
    have hstep : Counts opts x ((runExchange opts).step x e).1 := step_counts x e
    have hseen := hstep.seen
    cases hstep.derived with
    | inl hsame =>
      rw [hsame]
      exact ⟨by omega, hx.2⟩
    | inr hmore =>
      obtain ⟨hderived, hcount, hroom⟩ := hmore
      refine ⟨by omega, fun m hm => ?_⟩
      have hle := hroom m hm
      omega

variable {o : ExchangeOut}

theorem plain_iff : o.isPlain = true ↔ o.isOwnConfirm = false ∧
    o.isEstablish = false ∧ o.asksFor = none ∧ o.isResolve = false := by
  simp [ExchangeOut.isPlain, and_assoc]

theorem Wanes.count (h : Wanes x next) :
    next.2.countP ExchangeOut.isOwnConfirm = 0 ∧ next.2.countP ExchangeOut.isEstablish = 0 := by
  refine ⟨countP_eq_zero.2 fun o ho => ?_, countP_eq_zero.2 fun o ho => ?_⟩
  · simp [(plain_iff.1 (h.plain o ho)).1]
  · simp [(plain_iff.1 (h.plain o ho)).2.1]

variable {attempt : Attempt}

theorem ownAnswer_out (ho : o ∈ ownAnswer opts attempt) : o = ownConfirm opts attempt ∧ opts.side = .claim := by
  unfold ownAnswer at ho
  split at ho
  · rename_i hside
    exact ⟨mem_singleton.1 ho, hside⟩
  · cases ho

theorem greeting_out (ho : o ∈ greeting opts attempt) :
    o = .send (.toPeer attempt.peer (.share (bytesToHex attempt.ownShare) adCli)) ∨ o = ownConfirm opts attempt := by
  unfold greeting at ho
  split at ho
  · simpa using ho
  · cases ho

/-- A mailbox holder sends its tag with the derivation and at no other time. -/
theorem step_ownConfirm (hside : opts.side = .mailbox) (x : Exchange) (e : ExchangeEvent) :
    x.derived + (x.step opts e).2.countP ExchangeOut.isOwnConfirm ≤ (x.step opts e).1.derived := by
  have hcounts : Counts opts x (x.step opts e).1 := step_counts x e
  have hderived : x.derived ≤ (x.step opts e).1.derived := by
    cases hcounts.derived with
    | inl _ | inr _ => omega
  have hadvance : Advance opts x e (x.step opts e) := step_advance x e
  generalize x.step opts e = next at hadvance hderived ⊢
  cases hadvance with
  | wanes hwanes => rw [hwanes.count.1]; exact hderived
  | taken hshare hsid hderive =>
    simp only [greeting, hside]
    exact Nat.le_refl _
  | verified htag hknown hverify hsuspended hasked =>
    rw [hasked]
    simp only [ownAnswer, hside, nil_append]
    cases opts.admits with
    | true | false => exact Nat.le_refl _
  | allowed _ | established _ _ => exact Nat.le_refl _

theorem run_ownConfirm (hside : opts.side = .mailbox) (es : List ExchangeEvent) :
    ((runExchange opts).outputs es).countP ExchangeOut.isOwnConfirm ≤ ((runExchange opts).run es).derived := by
  induction es using List.reverseRecOn with
  | nil => exact Nat.le_refl _
  | append_singleton es e ih =>
    rw [outputs_snoc, run_snoc, countP_append]
    have hstep := step_ownConfirm hside ((runExchange opts).run es) e
    exact le_trans (Nat.add_le_add_right ih _) hstep

/-- What leaves as a descriptor, or is resolved, leaves together, as the run settles. -/
theorem step_lets_in (x : Exchange) (e : ExchangeEvent) :
    (∀ o ∈ (x.step opts e).2, o.isEstablish = false ∧ o.isResolve = false) ∨
      ∃ call peer attempt blob, x.settled = false ∧ (x.step opts e).1.settled = true ∧
        x.confirms.get call = some ⟨peer, attempt, .sealing⟩ ∧
        (x.step opts e).2 = [.send (.toPeer peer (.establish (bytesToBase64Url blob))), .close,
          .resolve ⟨attempt.keys, peerLabel attempt⟩] := by
  have hadvance : Advance opts x e (x.step opts e) := step_advance x e
  generalize x.step opts e = next at hadvance ⊢
  cases hadvance with
  | wanes hwanes =>
    refine Or.inl fun o ho => ?_
    obtain ⟨-, hestablish, -, hresolve⟩ := plain_iff.1 (hwanes.plain o ho)
    exact ⟨hestablish, hresolve⟩
  | taken hshare hsid hderive =>
    refine Or.inl fun o ho => ?_
    cases greeting_out ho with
    | inl ho => rw [ho]; exact ⟨rfl, rfl⟩
    | inr ho => rw [ho]; exact ⟨rfl, rfl⟩
  | verified htag hknown hverify hsuspended hasked =>
    refine Or.inl fun o ho => ?_
    cases mem_append.1 ho with
    | inl ho =>
      rw [(ownAnswer_out ho).1]
      exact ⟨rfl, rfl⟩
    | inr ho =>
      rw [mem_singleton.1 ho, hasked]
      split
      · exact ⟨rfl, rfl⟩
      · exact ⟨rfl, rfl⟩
  | allowed hasked =>
    refine Or.inl fun o ho => ?_
    rw [mem_singleton.1 ho]
    exact ⟨rfl, rfl⟩
  | @established call peer attempt blob hunsettled hsealing =>
    exact Or.inr ⟨call, peer, attempt, blob, hunsettled, rfl, hsealing, rfl⟩

theorem step_settled (x : Exchange) (e : ExchangeEvent) (h : x.settled = true) : (x.step opts e).1.settled = true := by
  have hadvance : Advance opts x e (x.step opts e) := step_advance x e
  generalize x.step opts e = next at hadvance ⊢
  cases hadvance with
  | wanes hwanes => exact hwanes.settled h
  | established hunsettled hsealing => rfl
  | _ => exact h

theorem run_establish (opts : ExchangeOptions) (es : List ExchangeEvent) :
    ((runExchange opts).outputs es).countP ExchangeOut.isEstablish ≤
      if ((runExchange opts).run es).settled then 1 else 0 := by
  induction es using List.reverseRecOn with
  | nil => exact Nat.le_refl _
  | append_singleton es e ih =>
    rw [outputs_snoc, run_snoc, countP_append]
    have hstep : (runExchange opts).step ((runExchange opts).run es) e =
      ((runExchange opts).run es).step opts e := rfl
    rw [hstep]
    cases @step_lets_in opts ((runExchange opts).run es) e with
    | inl hnone =>
      have hzero : (((runExchange opts).run es).step opts e).2.countP
          ExchangeOut.isEstablish = 0 :=
        countP_eq_zero.2 fun o ho => by simp [(hnone o ho).1]
      rw [hzero]
      apply le_trans ih
      split
      · rename_i hsettled
        rw [if_pos (step_settled _ e hsettled)]
      · exact Nat.zero_le _
    | inr hone =>
      obtain ⟨call, peer, attempt, blob, hunsettled, hsettled, hsealing, hout⟩ := hone
      rw [hunsettled, if_neg Bool.false_ne_true] at ih
      rw [hsettled, hout, if_pos rfl]
      exact Nat.add_le_add_right ih 1

/-- A suspended confirmation has its share and its tag behind it, and the gate's yes once it
is sealing. -/
def Evident (opts : ExchangeOptions) (steps : List ExchangeEntry) (call : Nat) : Confirm → Prop
  | ⟨peer, attempt, .admitting⟩ => ∃ s c, SharedBy opts s peer attempt ∧
      VerifiedBy opts c peer attempt call ∧ List.Sublist [s, c] steps
  | ⟨peer, attempt, .sealing⟩ => Proven opts steps peer attempt

variable {steps : List ExchangeEntry}

theorem Proven.snoc (h : Proven opts steps peer attempt) (x : ExchangeEntry) :
    Proven opts (steps ++ [x]) peer attempt := by
  obtain ⟨s, c, call, hshared, hverified, hsteps⟩ := h
  refine ⟨s, c, call, hshared, hverified, ?_⟩
  split
  · rename_i hadmits
    rw [if_pos hadmits] at hsteps
    obtain ⟨a, hallowed, hsub⟩ := hsteps
    exact ⟨a, hallowed, hsub.trans (sublist_append_left _ _)⟩
  · rename_i hadmits
    rw [if_neg hadmits] at hsteps
    exact hsteps.trans (sublist_append_left _ _)

theorem Evident.snoc {call : Nat} {confirm : Confirm} (h : Evident opts steps call confirm) (x : ExchangeEntry) :
    Evident opts (steps ++ [x]) call confirm := by
  obtain ⟨peer, attempt, stage⟩ := confirm
  cases stage with
  | admitting =>
    obtain ⟨s, c, hshared, hverified, hsub⟩ := h
    exact ⟨s, c, hshared, hverified, hsub.trans (sublist_append_left _ _)⟩
  | sealing => exact Proven.snoc h x

structure Behind (opts : ExchangeOptions) (es : List ExchangeEvent) : Prop where
  attempts : ∀ peer attempt, ((runExchange opts).run es).attempts.get peer = some attempt →
    ∃ s ∈ (runExchange opts).trace es, SharedBy opts s peer attempt
  confirms : ∀ call confirm, ((runExchange opts).run es).confirms.get call = some confirm →
    Evident opts ((runExchange opts).trace es) call confirm

variable {es : List ExchangeEvent}

theorem behind_verified (h : Behind opts es) {tagHex : String}
    {tag : Bytes} (htag : hexToBytes tagHex = some tag)
    (hknown : ((runExchange opts).run es).attempts.get peer = some attempt)
    (hverify : verifyConfirmation opts.P attempt.keys.confirm .browser tag = true)
    {c : ExchangeEntry} (hevent : c.event = .message (.peerConfirm peer tagHex))
    (hask : opts.admits = true → .ask c.pre.calls peer (peerLabel attempt) ∈ c.out) :
    Evident opts ((runExchange opts).trace es ++ [c]) c.pre.calls
      ⟨peer, attempt, if opts.admits then .admitting else .sealing⟩ := by
  obtain ⟨s, hs, hshared⟩ := h.attempts peer attempt hknown
  have hverified : VerifiedBy opts c peer attempt c.pre.calls :=
    ⟨tagHex, tag, hevent, htag, hverify, rfl, hask⟩
  have hsub : List.Sublist [s, c] ((runExchange opts).trace es ++ [c]) :=
    (singleton_sublist.2 hs).append (List.Sublist.refl _)
  cases hadmits : opts.admits with
  | true => exact ⟨s, c, hshared, hverified, hsub⟩
  | false => exact ⟨s, c, _, hshared, hverified, by rw [hadmits]; exact hsub⟩

theorem proven_allowed {call : Nat} (h : Evident opts steps call ⟨peer, attempt, .admitting⟩)
    {a : ExchangeEntry} (ha : a.event = .admitted call (some true)) : Proven opts (steps ++ [a]) peer attempt := by
  obtain ⟨s, c, hshared, hverified, hsub⟩ := h
  refine ⟨s, c, call, hshared, hverified, ?_⟩
  split
  · exact ⟨a, ha, hsub.append (List.Sublist.refl [a])⟩
  · exact hsub.trans (sublist_append_left _ _)

theorem run_behind (opts : ExchangeOptions) (es : List ExchangeEvent) : Behind opts es := by
  induction es using List.reverseRecOn with
  | nil => exact ⟨fun p a h => (by cases h), fun k c h => by cases h⟩
  | append_singleton es e ih =>
    have hrun : (runExchange opts).run (es ++ [e]) =
        (((runExchange opts).run es).step opts e).1 := run_snoc _ _ _
    have hattempts (p : String) (a : Attempt)
        (ha : ((runExchange opts).run es).attempts.get p = some a) :
        ∃ s ∈ (runExchange opts).trace (es ++ [e]), SharedBy opts s p a := by
      obtain ⟨s, hs, hshared⟩ := ih.attempts p a ha
      exact ⟨s, ((runExchange opts).trace_begins es [e]).subset hs, hshared⟩
    have hconfirms (k : Nat) (c : Confirm)
        (hc : ((runExchange opts).run es).confirms.get k = some c) :
        Evident opts ((runExchange opts).trace (es ++ [e])) k c := by
      rw [trace_snoc]
      exact (ih.confirms k c hc).snoc _
    have hadvance : Advance opts ((runExchange opts).run es) e
      (((runExchange opts).run es).step opts e) := step_advance _ e
    refine ⟨fun p a ha => ?_, fun k c hc => ?_⟩
    · rw [hrun] at ha
      generalize ((runExchange opts).run es).step opts e = next at hadvance ha
      cases hadvance with
      | wanes hwanes => exact hattempts p a (hwanes.attempts p a ha)
      | @taken peer shareHex ad sidHex share sid attempt hshare hsid hderive =>
        simp only [get_set] at ha
        split at ha
        · rename_i hp
          cases ha
          rw [trace_snoc, hp]
          exact ⟨_, mem_append_right _ (mem_singleton.2 rfl), shareHex, sidHex,
            ⟨peer, share, ad, sid⟩, rfl, hshare, hsid, rfl, hderive⟩
        · exact hattempts p a ha
      | verified _ _ _ _ _ | allowed _ | established _ _ => exact hattempts p a ha
    · rw [hrun] at hc
      generalize hnext : ((runExchange opts).run es).step opts e = next at hadvance hc
      cases hadvance with
      | wanes hwanes => exact hconfirms k c (hwanes.confirms k c hc)
      | taken hshare hsid hderive => exact hconfirms k c hc
      | @verified peer tagHex tag attempt htag hknown hverify confirm hsuspended asks hasked =>
        simp only [get_set] at hc
        split at hc
        · rename_i hk
          cases hc
          rw [hk, hsuspended, trace_snoc]
          refine behind_verified ih htag hknown hverify rfl fun hadmits => ?_
          have hout : asks ∈ (((runExchange opts).run es).step opts
              (.message (.peerConfirm peer tagHex))).2 := by
            rw [hnext]
            exact mem_append_right _ (mem_singleton.2 rfl)
          rw [hasked, if_pos hadmits] at hout
          exact hout
        · exact hconfirms k c hc
      | allowed hasked =>
        simp only [get_set] at hc
        split at hc
        · cases hc
          rw [trace_snoc]
          exact proven_allowed (ih.confirms _ _ hasked) rfl
        · exact hconfirms k c hc
      | established hunsettled hsealing => exact hconfirms k c (get_of_get_delete hc)

/-- The run up to a result or a descriptor, and what it is for. -/
theorem run_lets_in (ho : o ∈ (runExchange opts).outputs es) (h : o.isEstablish = true ∨ o.isResolve = true) :
    ∃ peer attempt blob, Proven opts ((runExchange opts).trace es) peer attempt ∧
      (o = .send (.toPeer peer (.establish blob)) ∨ o = .resolve ⟨attempt.keys, peerLabel attempt⟩) ∧
      .send (.toPeer peer (.establish blob)) ∈ (runExchange opts).outputs es ∧
      .resolve ⟨attempt.keys, peerLabel attempt⟩ ∈ (runExchange opts).outputs es := by
  induction es using List.reverseRecOn with
  | nil => cases ho
  | append_singleton es e ih =>
    rw [outputs_snoc, mem_append] at ho
    cases ho with
    | inl ho =>
      obtain ⟨peer, attempt, blob, hproven, hout, hsent, hresolved⟩ := ih ho
      refine ⟨peer, attempt, blob, ?_, hout, ?_, ?_⟩
      · rw [trace_snoc]
        exact hproven.snoc _
      · rw [outputs_snoc]
        exact mem_append_left _ hsent
      · rw [outputs_snoc]
        exact mem_append_left _ hresolved
    | inr ho =>
      have hstep : (runExchange opts).step ((runExchange opts).run es) e =
        ((runExchange opts).run es).step opts e := rfl
      rw [hstep] at ho
      cases @step_lets_in opts ((runExchange opts).run es) e with
      | inl hnone =>
        rw [(hnone o ho).1, (hnone o ho).2] at h
        simp at h
      | inr hone =>
        obtain ⟨call, peer, attempt, blob, -, -, hsealing, hout⟩ := hone
        have hproven : Proven opts ((runExchange opts).trace es) peer attempt :=
          (run_behind opts es).confirms call _ hsealing
        rw [hout] at ho
        refine ⟨peer, attempt, bytesToBase64Url blob, ?_, ?_, ?_, ?_⟩
        · rw [trace_snoc]
          exact hproven.snoc _
        · simp only [mem_cons, not_mem_nil, or_false] at ho
          cases ho with
          | inl ho => exact Or.inl ho
          | inr ho =>
            cases ho with
            | inl ho => simp [ho, ExchangeOut.isEstablish, ExchangeOut.isResolve] at h
            | inr ho => exact Or.inr ho
        · rw [outputs_snoc, hstep, hout]
          exact mem_append_right _ (by simp)
        · rw [outputs_snoc, hstep, hout]
          exact mem_append_right _ (by simp)

theorem exchange_safe (opts : ExchangeOptions) (es : List ExchangeEvent) : ExchangeSafe opts es := by
  have hcounted := run_counted opts es
  refine ⟨fun m hm => hcounted.2 m hm, fun m hm hside => ?_, ?_, fun peer blob ho => ?_,
    fun result ho => ?_⟩
  · exact le_trans (run_ownConfirm hside es) (hcounted.2 m hm)
  · apply le_trans (run_establish opts es)
    split
    · exact Nat.le_refl 1
    · exact Nat.zero_le 1
  · obtain ⟨peer', attempt, blob', hproven, hout, hsent, hresolved⟩ := run_lets_in ho (Or.inl rfl)
    cases hout with
    | inl hout =>
      cases hout
      exact ⟨attempt, hproven, hresolved⟩
    | inr hout => cases hout
  · obtain ⟨peer, attempt, blob, hproven, hout, hsent, hresolved⟩ := run_lets_in ho (Or.inr rfl)
    cases hout with
    | inl hout => cases hout
    | inr hout =>
      cases hout
      exact ⟨peer, attempt, blob, hproven, rfl, hsent⟩

end Exchange
end Mtmux.Cli
