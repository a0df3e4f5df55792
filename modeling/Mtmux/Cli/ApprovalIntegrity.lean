import Mtmux.Cli.AccessConsistent

/-! Nobody is let in without a human's yes to that very request, and every question that is put to a
human is settled once. -/
namespace Mtmux.Cli
open Machine List
namespace AccessState
variable {s : AccessState} {yes : Nat → Prop} {outs : List AccessOutput}

variable {r : AccessStep} {e : AccessEvent} {call : Nat} {c : AccessCall}

theorem Goes.about (h : Goes yes s e r) (hc : s.calls.get call = some c) :
    (∃ c', r.1.calls.get call = some c' ∧ c'.settled = c.settled ∧
      (c'.chain.early = true → c.chain.early = true)) ∨
    (∃ answer, e = .hearApp call ∧ c.app = .answered answer ∧ r.1.calls.get call = some (c.hearApp answer)) ∨
    ∃ result, e = .resume call ∧ c.chain = .returned result ∧
      r.1.calls.get call = some (c.hearLocal result) := by
  have other {i : Nat} {d : AccessCall} (hi : call ≠ i) : (s.set i d).calls.get call = some c := by
    rw [get_set_call, if_neg hi, hc]
  cases h with
  | moves path => exact .inl (path.keeps.calm hc)
  | @starts i _ _ _ _ fresh path _ =>
    have hi : call ≠ i := by
      rintro rfl
      rw [fresh] at hc
      cases hc
    exact .inl (path.keeps.calm (other hi))
  | @chains _ i d chain _ was _ _ early _ _ =>
    by_cases hi : call = i
    · subst hi
      rw [hc] at was
      cases was
      exact .inl ⟨{ c with chain := chain }, by rw [get_set_call, if_pos rfl], rfl, early⟩
    · exact .inl ⟨c, other hi, rfl, id⟩
  | @parks i d _ was _ path =>
    by_cases hi : call = i
    · subst hi
      rw [hc] at was
      cases was
      obtain ⟨c', hc', hsettled, hearly⟩ := path.keeps.calm (by rw [get_set_call, if_pos rfl])
      exact .inl ⟨c', hc', hsettled, fun hq => by cases hearly hq⟩
    · exact .inl (path.keeps.calm (other hi))
  | @hearsApp i d answer was app =>
    by_cases hi : call = i
    · subst hi
      rw [hc] at was
      cases was
      exact .inr (.inl ⟨answer, rfl, app, by rw [get_set_call, if_pos rfl]⟩)
    · exact .inl ⟨c, other hi, rfl, id⟩
  | @hearsLocal i d result was chain =>
    by_cases hi : call = i
    · subst hi
      rw [hc] at was
      cases was
      exact .inr (.inr ⟨result, rfl, chain, by rw [get_set_call, if_pos rfl]⟩)
    · exact .inl ⟨c, other hi, rfl, id⟩
  | @concludes i _ result _ _ path => exact .inl ((path.keeps.trans (keeps_mark _ i result)).calm hc)

theorem Goes.kept (h : Goes yes s e r) (hnone : r.1.calls.get call = none) : s.calls.get call = none := by
  cases hc : s.calls.get call with
  | none => rfl
  | some c =>
    obtain ⟨c', hc', -⟩ | ⟨answer, -, -, hc'⟩ | ⟨result, -, -, hc'⟩ := h.about hc
    all_goals
      rw [hnone] at hc'
      cases hc'

/-- A call asks each of its channels once. -/
structure Once (outs : List AccessOutput) (s : AccessState) : Prop where
  absent : ∀ call, s.calls.get call = none → ∀ kind, outs.countP (isMade kind call) = 0
  early : ∀ call c, s.calls.get call = some c → c.chain.early = true →
    outs.countP (isMade .park call) = 0
  once : ∀ kind call, outs.countP (isMade kind call) ≤ 1

/-- A step asks only what was not asked before, once, and is not about to be asked. -/
theorem Once.asks (ho : Once outs s) (hgoes : Goes yes s e r)
    (habsent : ∀ i, r.1.calls.get i = none → ∀ kind, r.2.countP (isMade kind i) = 0)
    (hearly : ∀ i c', r.1.calls.get i = some c' → c'.chain.early = true → r.2.countP (isMade .park i) = 0)
    (honce : ∀ kind i, r.2.countP (isMade kind i) = 0 ∨
      outs.countP (isMade kind i) = 0 ∧ r.2.countP (isMade kind i) ≤ 1) : Once (outs ++ r.2) r.1 := by
  refine ⟨?_, ?_, ?_⟩
  · intro i hpost kind
    rw [countP_append, ho.absent i (hgoes.kept hpost) kind, habsent i hpost kind]
  · intro i c' hpost hq
    rw [countP_append, hearly i c' hpost hq, Nat.add_zero]
    cases hc : s.calls.get i with
    | none => exact ho.absent i hc .park
    | some c =>
      obtain ⟨d, hd, -, hback⟩ | ⟨answer, -, -, hd⟩ | ⟨result, -, -, hd⟩ := hgoes.about hc
      · rw [hpost] at hd
        cases hd
        exact ho.early i c hc (hback hq)
      · rw [hpost] at hd
        cases hd
        rw [(c.hearApp_same answer).1] at hq
        exact ho.early i c hc hq
      · rw [hpost] at hd
        cases hd
        rw [c.hearLocal_chain] at hq
        cases hq
  · intro kind i
    have hbefore := ho.once kind i
    rw [countP_append]
    obtain hnone | ⟨hnew, hone⟩ := honce kind i <;> omega

theorem Once.step (ho : Once outs s) (hgoes : Goes yes s e r) : Once (outs ++ r.2) r.1 := by
  have quiet (hnone : ∀ kind i, r.2.countP (isMade kind i) = 0) : Once (outs ++ r.2) r.1 :=
    ho.asks hgoes (fun i _ kind => hnone kind i) (fun i _ _ _ => hnone .park i) fun kind i => .inl (hnone kind i)
  cases hgoes with
  | moves path => exact quiet fun kind i => by rw [path.count_made, count_nil]
  | hearsApp _ _ | hearsLocal _ _ => exact quiet fun kind i => rfl
  | chains _ _ _ _ _ silent => exact quiet fun kind i => ((plain_of_silent silent).count kind i).2
  | concludes was settled path =>
    refine quiet fun kind i => ?_
    rw [conclude_eq, AccessState.andThen, countP_append, path.count_made, count_nil, Nat.zero_add]
    unfold AccessState.onCall
    split <;> simp [isMade]
  | @starts call req deps r ms fresh path asked =>
    have hcount (kind : ChannelKind) (i : Nat) : r.2.countP (isMade kind i) ≤
        [(ChannelKind.offer, call), (.ask, call)].count (kind, i) := by
      rw [path.count_made]
      exact asked.count_le (kind, i)
    have hnone {kind : ChannelKind} {i : Nat} (hmem : (kind, i) ∉ [(ChannelKind.offer, call), (.ask, call)]) :
        r.2.countP (isMade kind i) = 0 := by
      have hle := hcount kind i
      rw [count_eq_zero.2 hmem] at hle
      omega
    refine ho.asks (.starts fresh path asked) ?_ (fun i _ _ _ => hnone (by simp)) ?_
    · intro i hpost kind
      refine hnone ?_
      rintro hmem
      have hi : i = call := by simp at hmem; tauto
      obtain ⟨c', hc', -⟩ := path.keeps.calm (by rw [get_set_call, if_pos rfl])
      rw [hi, hc'] at hpost
      cases hpost
    · intro kind i
      by_cases hi : i = call
      · have hnodup : [(ChannelKind.offer, call), (.ask, call)].Nodup := by simp
        exact .inr ⟨hi ▸ ho.absent call fresh kind,
          Nat.le_trans (hcount kind i) (nodup_iff_count_le_one.1 hnodup (kind, i))⟩
      · exact .inl (hnone (by simp [hi]))
  | @parks call c r was chain path =>
    have hcount (kind : ChannelKind) (i : Nat) :
        (AccessOutput.notice call :: .made .park call :: r.2).countP (isMade kind i) =
          if kind = .park ∧ i = call then 1 else 0 := by
      have hrest : r.2.countP (isMade kind i) = 0 := by rw [path.count_made, count_nil]
      have hmade : isMade kind i (.made .park call) = decide (kind = .park ∧ i = call) := by
        cases kind <;> simp [isMade, eq_comm]
      have hnotice : isMade kind i (.notice call) = false := rfl
      simp [countP_cons, hrest, hmade, hnotice]
    refine ho.asks (.parks was chain path) ?_ ?_ ?_
    · intro i hpost kind
      rw [hcount, if_neg]
      rintro ⟨-, rfl⟩
      have hpre := Goes.kept (.parks was chain path) hpost
      rw [was] at hpre
      cases hpre
    · intro i c' hpost hq
      rw [hcount, if_neg]
      rintro ⟨-, rfl⟩
      obtain ⟨d, hd, -, hback⟩ := path.keeps.calm (by rw [get_set_call, if_pos rfl])
      rw [hpost] at hd
      cases hd
      cases hback hq
    · intro kind i
      rw [hcount]
      by_cases hi : kind = .park ∧ i = call
      · obtain ⟨rfl, rfl⟩ := hi
        exact .inr ⟨ho.early i c was (by rw [chain]; rfl), by simp⟩
      · exact .inl (if_neg hi)

/-- What comes into a slot is new: its number was not used before. -/
structure Fresh (s s' : AccessState) : Prop where
  asks : s.asks ≤ s'.asks
  ask : ∀ p, s'.ask = some p → s.ask = some p ∨ s.asks < p.id ∧ p.id ≤ s'.asks
  offers : s.offers ≤ s'.offers
  offer : ∀ p, s'.offer = some p → s.offer = some p ∨ s.offers < p.id ∧ p.id ≤ s'.offers

theorem Fresh.of_same {s' : AccessState} (hask : s'.ask = s.ask) (hasks : s'.asks = s.asks)
    (hoffer : s'.offer = s.offer) (hoffers : s'.offers = s.offers) : Fresh s s' :=
  ⟨hasks ▸ Nat.le_refl _, fun _ hp => .inl (hask ▸ hp), hoffers ▸ Nat.le_refl _,
    fun _ hp => .inl (hoffer ▸ hp)⟩

theorem Fresh.refl (s : AccessState) : Fresh s s := Fresh.of_same rfl rfl rfl rfl

theorem Fresh.trans {s' s'' : AccessState} (h : Fresh s s') (h' : Fresh s' s'') : Fresh s s'' := by
  have hasks := h.asks
  have hasks' := h'.asks
  have hoffers := h.offers
  have hoffers' := h'.offers
  refine ⟨by omega, ?_, by omega, ?_⟩
  · intro p hp
    obtain hold | hnew := h'.ask p hp
    · obtain hold | hnew := h.ask p hold
      · exact .inl hold
      · exact .inr (by omega)
    · exact .inr (by omega)
  · intro p hp
    obtain hold | hnew := h'.offer p hp
    · obtain hold | hnew := h.offer p hold
      · exact .inl hold
      · exact .inr (by omega)
    · exact .inr (by omega)

theorem Path.fresh {begun : Nat → Prop} {o o' : Option (ChannelKind × Nat)} {ms : List (ChannelKind × Nat)}
    (h : Path begun yes o s r o' ms) : Fresh s r.1 := by
  induction h with
  | aside ask asks offer offers _ _ => exact Fresh.of_same ask asks offer offers
  | follows _ _ _ ihfirst ihnext => exact ihfirst.trans ihnext
  | closesAsk _ _ => exact ⟨Nat.le_refl _, fun p hp => (by cases hp), Nat.le_refl _, fun p hp => .inl hp⟩
  | closesOffer _ => exact ⟨Nat.le_refl _, fun p hp => .inl hp, Nat.le_refl _, fun p hp => (by cases hp)⟩
  | opensAsk _ _ _ _ =>
    refine ⟨Nat.le_succ _, ?_, Nat.le_refl _, fun p hp => .inl hp⟩
    intro p hp
    cases hp
    exact .inr ⟨Nat.lt_succ_self _, Nat.le_refl _⟩
  | opensOffer _ _ _ _ _ =>
    refine ⟨Nat.le_refl _, fun p hp => .inl hp, Nat.le_succ _, ?_⟩
    intro p hp
    cases hp
    exact .inr ⟨Nat.lt_succ_self _, Nat.le_refl _⟩
  | _ => exact Fresh.of_same rfl rfl rfl rfl

theorem Goes.fresh (h : Goes yes s e r) : Fresh s r.1 := by
  have hset (i : Nat) (d : AccessCall) : Fresh s (s.set i d) := Fresh.of_same rfl rfl rfl rfl
  cases h with
  | moves path => exact path.fresh
  | starts _ path _ => exact (hset _ _).trans path.fresh
  | parks _ _ path => exact (hset _ _).trans path.fresh
  | chains _ _ _ _ _ _ => exact hset _ _
  | hearsApp _ _ => exact hset _ _
  | hearsLocal _ _ => exact hset _ _
  | concludes _ _ path =>
    rw [conclude_eq]
    refine path.fresh.trans ?_
    simp only [AccessState.andThen, AccessState.onCall]
    split <;> exact Fresh.of_same rfl rfl rfl rfl

/-- The answer is on the channel of the call that asked. -/
def Answered (s : AccessState) (kind : ChannelKind) (call : Nat) (answer : Option Bool) : Prop :=
  ∃ c, s.calls.get call = some c ∧ match kind with
    | .ask => c.app = .answered answer
    | .offer => c.chain = .offered (some answer)
    | .park => c.chain = .parked (some (answer = some true))

/-- Whatever a step settles has its answer when the step is over. -/
def Answers (r : AccessStep) : Prop :=
  ∀ kind call answer, .settled kind call answer ∈ r.2 → Answered r.1 kind call answer

theorem Answered.kept {s' : AccessState} {kind : ChannelKind} {answer : Option Bool} (h : s.Answered kind call answer)
    (hkeeps : Keeps s s') : s'.Answered kind call answer := by
  obtain ⟨c, hc, hanswer⟩ := h
  obtain ⟨d, hd, hkept⟩ := hkeeps call c hc
  refine ⟨d, hd, ?_⟩
  have happ := hkept.app
  have hchain := hkept.chain
  cases kind with
  | ask => simpa [hanswer] using happ
  | offer | park => simpa [hanswer] using hchain

theorem answers_silent (h : ∀ o ∈ r.2, isSilent o = true) : Answers r := by
  intro kind i answer hmem
  cases h _ hmem

theorem Path.answers {begun : Nat → Prop} {o o' : Option (ChannelKind × Nat)} {ms : List (ChannelKind × Nat)}
    (h : Path begun yes o s r o' ms) : Answers r := by
  induction h with
  | aside _ _ _ _ _ silent => exact answers_silent silent
  | follows _ next _ ihfirst ihnext =>
    intro kind i answer hmem
    obtain hmem | hmem := mem_append.1 hmem
    · exact (ihfirst kind i answer hmem).kept next.keeps
    · exact ihnext kind i answer hmem
  | closesAsk _ silent => exact answers_silent silent
  | opensAsk _ _ _ silent => exact answers_silent silent
  | skips _ _ _ _ silent => exact answers_silent silent
  | @settles s kind call answer c was _ _ _ =>
    intro k i given hmem
    cases mem_singleton.1 hmem
    refine ⟨c.settle kind answer, by rw [get_settle, if_pos rfl, was]; rfl, ?_⟩
    cases kind <;> rfl
  | _ => simp [Answers]

theorem Goes.answers (h : Goes yes s e r) : Answers r := by
  cases h with
  | moves path => exact path.answers
  | starts _ path _ => exact path.answers
  | chains _ _ _ _ _ silent => exact answers_silent silent
  | parks _ _ path => exact fun kind i answer hmem => path.answers kind i answer (by simpa using hmem)
  | hearsApp _ _ | hearsLocal _ _ => simp [Answers]
  | concludes _ _ path =>
    intro kind i answer hmem
    obtain hmem | hmem := mem_append.1 hmem
    · exact (path.answers kind i answer hmem).kept (keeps_mark _ _ _)
    · dsimp only [AccessState.onCall] at hmem
      split at hmem <;> simp at hmem

end AccessState

namespace AccessCall
variable {c : AccessCall} {yes : Prop}

variable {r : AccessPromptResult}

/-- Passing on is an answer only of the last channel that could. -/
theorem abstain_decides (hnone : c.settled = none)
    (hheld : ∀ r, c.held = some r → r = .noTty) (hopened : c.opened = c.unheard + 1)
    (hr : c.abstain.settled = some r) : r = .noTty ∧ c.app = .done ∧ c.chain = .done := by
  unfold AccessCall.abstain at hr
  dsimp only at hr
  split at hr
  · rename_i hlast
    rw [answer_settled] at hr
    have hr : c.held.getD .noTty = r := by simpa [hnone] using hr
    have hzero : c.unheard = 0 := by
      have hz := hlast.1
      change c.opened - 1 = 0 at hz
      omega
    refine ⟨?_, ?_, ?_⟩
    · cases hh : c.held with
      | none => simpa [hh] using hr.symm
      | some held =>
        rw [← hr, hh]
        exact hheld held hh
    · by_contra happ
      simp only [unheard, if_neg happ] at hzero
      omega
    · by_contra hchain
      simp only [unheard, if_neg hchain] at hzero
      omega
  · rw [show c.settled = some r from hr] at hnone
    cases hnone

theorem hearApp_decides (h : c.Sanctioned yes) (hnone : c.settled = none) {answer : Option Bool}
    (happ : c.app = .answered answer)
    (hr : (c.hearApp answer).settled = some r) :
    (∃ approved : Bool, answer = some approved ∧ r = if approved then .approved else .refused) ∨
      r = .noTty ∧ (c.hearApp answer).app = .done ∧ (c.hearApp answer).chain = .done := by
  cases answer with
  | some approved =>
    left
    refine ⟨approved, rfl, ?_⟩
    cases approved with
    | true =>
      rw [show c.hearApp (some true) = ({ c with app := .done } : AccessCall).answer .approved from rfl,
        answer_settled] at hr
      simpa [hnone] using hr.symm
    | false =>
      rw [show c.hearApp (some false) = ({ c with app := .done } : AccessCall).answer .refused from rfl,
        answer_settled] at hr
      simpa [hnone] using hr.symm
  | none =>
    right
    have hopened := h.opened hnone
    obtain ⟨htty, -, hchain⟩ := abstain_decides (c := { c with app := .done }) hnone h.held (by
      simp only [unheard, happ, reduceCtorEq, if_false, if_true] at hopened ⊢
      omega) hr
    exact ⟨htty, c.hearApp_app none, (c.hearApp_same none).1.trans hchain⟩

theorem hearLocal_decides (h : c.Sanctioned yes) (hnone : c.settled = none)
    {result : Option AccessPromptResult} (hchain : c.chain = .returned result)
    (hr : (c.hearLocal result).settled = some r) : (result = some r ∧ r ≠ .noTty) ∨
      r = .noTty ∧ (c.hearLocal result).app = .done ∧ (c.hearLocal result).chain = .done := by
  have hunheard : c.opened = ({ c with chain := .done } : AccessCall).unheard + 1 := by
    have hopened := h.opened hnone
    simp only [unheard, hchain, reduceCtorEq, if_false, if_true] at hopened ⊢
    omega
  have answered {first : AccessPromptResult} (hfirst : first ≠ .noTty)
      (hr : (({ c with chain := .done } : AccessCall).answer first).settled = some r) :
      some first = some r ∧ r ≠ .noTty := by
    rw [answer_settled] at hr
    have heq : first = r := by simpa [hnone] using hr
    exact ⟨congrArg some heq, heq ▸ hfirst⟩
  cases result with
  | none =>
    right
    obtain ⟨htty, happ, -⟩ := abstain_decides (c := { c with chain := .done }) hnone h.held hunheard hr
    exact ⟨htty, (c.hearLocal_same none).1.trans happ, c.hearLocal_chain none⟩
  | some first =>
    cases first with
    | noTty =>
      right
      obtain ⟨htty, happ, -⟩ := abstain_decides
        (c := { c with chain := .done, held := some .noTty }) hnone (by simp) hunheard hr
      exact ⟨htty, (c.hearLocal_same _).1.trans happ, c.hearLocal_chain _⟩
    | _ => exact .inl (answered (by simp) hr)

end AccessCall

section Integrity
variable (authToken : String)

/-- The question was in front of the app once, and is not any more. -/
def AskClosed (es : List AccessEvent) (id : Nat) : Prop :=
  ∃ b₁ b₂ p, es = b₁ ++ b₂ ∧ ((accessMachine authToken).run b₁).ask = some p ∧ p.id = id ∧
    ((accessMachine authToken).run es).ask ≠ some p

def OfferClosed (es : List AccessEvent) (id : Nat) : Prop :=
  ∃ b₁ b₂ p, es = b₁ ++ b₂ ∧ ((accessMachine authToken).run b₁).offer = some p ∧ p.id = id ∧
    ((accessMachine authToken).run es).offer ≠ some p

structure DecidedByHumans (before : List AccessEvent) (e : AccessEvent) : Prop where
  /-- A call returns a yes only to a request that a human said yes to. -/
  consent : ∀ call, .resolved call .approved ∈ (((accessMachine authToken).run before).step
    authToken e).2 → HumanYes authToken before call
  /-- A call settles on the answer of a channel that has one; it gives up when it has heard of
  both. -/
  decisive : ∀ call c c' r, ((accessMachine authToken).run before).calls.get call = some c →
    (((accessMachine authToken).run before).step authToken e).1.calls.get call = some c' →
    c.settled = none → c'.settled = some r →
    (∃ approved : Bool, e = .hearApp call ∧ c.app = .answered (some approved) ∧
      r = if approved then .approved else .refused) ∨
    (e = .resume call ∧ c.chain = .returned (some r) ∧ r ≠ .noTty) ∨
    (r = .noTty ∧ c'.app = .done ∧ c'.chain = .done)
  /-- What a question is settled with is the answer that its call has got by then. -/
  answered : ∀ kind call answer, .settled kind call answer ∈ (((accessMachine authToken).run before).step
      authToken e).2 → (((accessMachine authToken).run before).step authToken e).1.Answered kind call answer
  /-- An answer in the app to anything but the question that stands changes nothing. -/
  other_ask : ∀ id approved, e = .resolveDeviceApproval id approved →
    (∀ p, ((accessMachine authToken).run before).ask = some p → p.id ≠ id) ∨
      AskClosed authToken before id →
    ((accessMachine authToken).run before).step authToken e =
      ((accessMachine authToken).run before, [])
  /-- Nor does one at the machine, but for being told so. -/
  other_offer : ∀ poll peer sessionId id approved, e = .decide poll peer sessionId id approved →
    (∀ p, ((accessMachine authToken).run before).offer = some p → p.id ≠ id) ∨
      OfferClosed authToken before id ∨
      (∀ w, ((accessMachine authToken).run before).waiter = some w → w.sessionId ≠ sessionId) →
    ∃ reply, ((accessMachine authToken).run before).step authToken e =
      ((accessMachine authToken).run before, [.reply poll reply])

structure SettledOnce (es : List AccessEvent) : Prop where
  once : ∀ kind call, ((accessMachine authToken).outputs es).countP
    (AccessState.isMade kind call) ≤ 1
  settled : ∀ kind call, ((accessMachine authToken).outputs es).countP
      (AccessState.isSettled kind call) +
    (((accessMachine authToken).run es).holds kind call).toNat =
    ((accessMachine authToken).outputs es).countP (AccessState.isMade kind call)
  ask_timer : ∀ p, ((accessMachine authToken).run es).ask = some p →
    .settled .ask p.call (some false) ∈
      (((accessMachine authToken).run es).step authToken (.askTimer p.id)).2
  offer_timer : ∀ p, ((accessMachine authToken).run es).offer = some p →
    .settled p.kind p.call (some false) ∈
      (((accessMachine authToken).run es).step authToken (.offerTimer p.id)).2

variable {authToken}

theorem once_run (es : List AccessEvent) :
    AccessState.Once ((accessMachine authToken).outputs es) ((accessMachine authToken).run es) := by
  induction es using List.reverseRecOn with
  | nil =>
    refine ⟨fun call _ kind => rfl, ?_, fun kind call => Nat.zero_le _⟩
    intro call c hc
    cases hc
  | append_singleton es e ih =>
    rw [run_snoc, outputs_snoc]
    exact ih.step (goes_run es e)

theorem fresh_run (es fs : List AccessEvent) :
    AccessState.Fresh ((accessMachine authToken).run es) ((accessMachine authToken).run (es ++ fs)) := by
  induction fs using List.reverseRecOn with
  | nil =>
    rw [append_nil]
    exact AccessState.Fresh.refl _
  | append_singleton fs e ih =>
    rw [← append_assoc, run_snoc]
    exact ih.trans (goes_run (es ++ fs) e).fresh

theorem ask_unique {es fs : List AccessEvent} {p q : LiveAsk} (hp : ((accessMachine authToken).run es).ask = some p)
    (hq : ((accessMachine authToken).run (es ++ fs)).ask = some q) (hid : q.id = p.id) : q = p := by
  have hstart : AccessState.Fresh .init ((accessMachine authToken).run es) := fresh_run [] es
  obtain hold | ⟨hnew, -⟩ := (fresh_run es fs).ask q hq
  · rw [hp] at hold
    cases hold
    rfl
  · obtain hnone | ⟨-, hle⟩ := hstart.ask p hp
    · cases hnone
    · omega

theorem offer_unique {es fs : List AccessEvent} {p q : LiveOffer}
    (hp : ((accessMachine authToken).run es).offer = some p)
    (hq : ((accessMachine authToken).run (es ++ fs)).offer = some q) (hid : q.id = p.id) : q = p := by
  have hstart : AccessState.Fresh .init ((accessMachine authToken).run es) := fresh_run [] es
  obtain hold | ⟨hnew, -⟩ := (fresh_run es fs).offer q hq
  · rw [hp] at hold
    cases hold
    rfl
  · obtain hnone | ⟨-, hle⟩ := hstart.offer p hp
    · cases hnone
    · omega

theorem decidedByHumans (before : List AccessEvent) (e : AccessEvent) : DecidedByHumans authToken before e := by
  have h := @consistent_run authToken before
  have hgoes := @goes_run authToken before e
  refine ⟨?_, ?_, hgoes.answers, ?_, ?_⟩
  · intro call hresolved
    generalize ((accessMachine authToken).run before).step authToken e = r at hgoes hresolved
    cases hgoes with
    | moves path => exact absurd hresolved (path.no_resolved call _)
    | starts _ path _ => exact absurd hresolved (path.no_resolved call _)
    | parks _ _ path => exact absurd (by simpa using hresolved) (path.no_resolved call .approved)
    | chains _ _ _ _ _ silent => cases silent _ hresolved
    | hearsApp _ _ | hearsLocal _ _ => cases hresolved
    | @concludes i c result was settled path =>
      obtain hmem | hmem := mem_append.1 hresolved
      · exact absurd hmem (path.no_resolved call _)
      · unfold AccessState.onCall at hmem
        dsimp only at hmem
        split at hmem
        · cases hmem
        · cases mem_singleton.1 hmem
          exact (h.sanctioned call c was).settled settled
  · intro call c c' r hc hc' hnone hr
    have hsanctioned := h.sanctioned call c hc
    obtain ⟨d, hd, hsettled, -⟩ | ⟨answer, rfl, happ, hd⟩ | ⟨result, rfl, hchain, hd⟩ :=
      hgoes.about hc
    · rw [hc'] at hd
      cases hd
      rw [hr, hnone] at hsettled
      cases hsettled
    · rw [hc'] at hd
      cases hd
      obtain ⟨approved, rfl, hresult⟩ | hlast := AccessCall.hearApp_decides hsanctioned hnone happ hr
      · exact .inl ⟨approved, rfl, happ, hresult⟩
      · exact .inr (.inr hlast)
    · rw [hc'] at hd
      cases hd
      obtain ⟨rfl, htty⟩ | hlast := AccessCall.hearLocal_decides hsanctioned hnone hchain hr
      · exact .inr (.inl ⟨rfl, hchain, htty⟩)
      · exact .inr (.inr hlast)
  · rintro id approved rfl hother
    have hno : ¬ (((accessMachine authToken).run before).ask.any fun p => p.id = id) = true := by
      intro hany
      obtain ⟨p, hp, hid⟩ : ∃ p, ((accessMachine authToken).run before).ask = some p ∧ p.id = id := by
        cases hp : ((accessMachine authToken).run before).ask with
        | none => simp [hp] at hany
        | some p => exact ⟨p, rfl, by simpa [hp] using hany⟩
      obtain hother | ⟨b₁, b₂, q, rfl, hq, rfl, hgone⟩ := hother
      · exact hother p hp hid
      · exact hgone (by rw [hp, ask_unique hq hp hid])
    simp only [AccessState.step, if_neg hno]
  · rintro poll peer sessionId id approved rfl hother
    simp only [AccessState.step]
    cases hguard : AccessState.guard authToken peer with
    | some reply => exact ⟨reply, rfl⟩
    | none =>
      dsimp only
      unfold AccessState.handleDecide
      split
      · exact ⟨_, rfl⟩
      · rename_i hsession
        split
        · exact ⟨_, rfl⟩
        · rename_i hid
          exfalso
          simp only [Bool.not_eq_true, Option.all_eq_false, decide_eq_false_iff_not, not_not]
            at hsession hid
          obtain ⟨w, hw, hws⟩ := hsession
          obtain ⟨p, hp, hpid⟩ := hid
          obtain hother | ⟨b₁, b₂, q, rfl, hq, rfl, hgone⟩ | hother := hother
          · exact hother p hp hpid
          · exact hgone (by rw [hp, offer_unique hq hp hpid])
          · exact hother w hw hws

theorem settledOnce (es : List AccessEvent) : SettledOnce authToken es := by
  have h := @consistent_run authToken es
  refine ⟨(once_run es).once, ?_, ?_, ?_⟩
  · intro kind call
    have hbalance := h.balance kind call
    simpa using hbalance
  · intro p hp
    simp [AccessState.step, hp, AccessState.finish, AccessState.andThen, AccessState.settle]
  · intro p hp
    simp [AccessState.step, hp, AccessState.settlePending, AccessState.settle]

/-- Whatever the calls, the channels and the order of their answers: a yes is a human's to that very
request, a channel that cannot say leaves it to the other, each question is settled once, and an
answer to another changes nothing. -/
theorem approval_integrity (authToken : String) (es : List AccessEvent) :
    (∀ before e after, es = before ++ e :: after → DecidedByHumans authToken before e) ∧ SettledOnce authToken es :=
  ⟨fun before e _ _ => decidedByHumans before e, settledOnce es⟩

end Integrity
end Mtmux.Cli
