import Mtmux.Cli.AccessPrompt

/-! What holds of the channels in every state: whoever has a slot waits for it, every yes goes back
to a human's, and each question stands in its slot or is settled. -/
namespace Mtmux.Cli
open Machine List

namespace LocalChain

/-- The chain has a yes. -/
def approving : LocalChain → Bool
  | .offered (some (some approved)) => approved
  | .prompted (some .approved) => true
  | .parked (some approved) => approved
  | .returned (some .approved) => true
  | _ => false

/-- The request was not held yet. -/
def early : LocalChain → Bool
  | .offering | .offered _ | .prompting | .prompted _ => true
  | _ => false

end LocalChain

/-- The channels of a call that it has not heard of. -/
def AccessCall.unheard (c : AccessCall) : Nat :=
  (if c.app = .done then 0 else 1) + (if c.chain = .done then 0 else 1)

/-- The channel of the call waits for its answer. -/
def AccessCall.Waits (c : AccessCall) : ChannelKind → Prop
  | .ask => c.app = .asking
  | .offer => c.chain = .offering
  | .park => c.chain = .parking

/-- A yes that a call has goes back to a human's, and it knows how many channels are left. -/
structure AccessCall.Sanctioned (yes : Prop) (c : AccessCall) : Prop where
  app : c.app = .answered (some true) → yes
  chain : c.chain.approving = true → yes
  settled : c.settled = some .approved → yes
  held : ∀ r, c.held = some r → r = .noTty
  opened : c.settled = none → c.opened = c.unheard

namespace AccessCall
variable {c : AccessCall} {yes : Prop}

theorem abstain_same (c : AccessCall) : c.abstain.app = c.app ∧ c.abstain.chain = c.chain ∧
    c.abstain.concluded = c.concluded := by
  unfold abstain
  dsimp only
  split
  · exact ⟨rfl, rfl, rfl⟩
  · exact ⟨rfl, rfl, rfl⟩

theorem hearApp_same (c : AccessCall) (answer : Option Bool) :
    (c.hearApp answer).chain = c.chain ∧ (c.hearApp answer).concluded = c.concluded := by
  unfold hearApp
  dsimp only
  split
  · exact ⟨rfl, rfl⟩
  · exact ⟨rfl, rfl⟩
  · exact (abstain_same _).2

theorem hearLocal_same (c : AccessCall) (result : Option AccessPromptResult) :
    (c.hearLocal result).app = c.app ∧ (c.hearLocal result).concluded = c.concluded := by
  unfold hearLocal
  dsimp only
  split
  · exact ⟨(abstain_same _).1, (abstain_same _).2.2⟩
  · exact ⟨rfl, rfl⟩
  · exact ⟨(abstain_same _).1, (abstain_same _).2.2⟩

theorem hearLocal_chain (c : AccessCall) (result : Option AccessPromptResult) : (c.hearLocal result).chain = .done := by
  unfold hearLocal
  dsimp only
  split
  · exact (abstain_same _).2.1
  · rfl
  · exact (abstain_same _).2.1

theorem hearApp_app (c : AccessCall) (answer : Option Bool) : (c.hearApp answer).app = .done := by
  unfold hearApp
  dsimp only
  split
  · rfl
  · rfl
  · exact (abstain_same _).1

theorem Sanctioned.mono {yes' : Prop} (h : c.Sanctioned yes) (himp : yes → yes') : c.Sanctioned yes' :=
  ⟨fun ha => himp (h.app ha), fun hc => himp (h.chain hc), fun hs => himp (h.settled hs), h.held,
    h.opened⟩

theorem answer_settled (c : AccessCall) (result : AccessPromptResult) :
    (c.answer result).settled = some (c.settled.getD result) := by
  unfold answer
  cases c.settled with
  | none | some _ => rfl

theorem Sanctioned.answer {result : AccessPromptResult} (happ : c.app = .answered (some true) → yes)
    (hchain : c.chain.approving = true → yes) (hsettled : c.settled = some .approved → yes)
    (hheld : ∀ r, c.held = some r → r = .noTty) (hresult : result = .approved → yes) :
    (c.answer result).Sanctioned yes := by
  refine ⟨happ, hchain, ?_, hheld, ?_⟩
  · rw [answer_settled]
    cases hfirst : c.settled with
    | none => exact fun heq => hresult (Option.some.inj heq)
    | some first =>
      intro heq
      apply hsettled
      rw [hfirst]
      exact heq
  · rw [answer_settled]
    simp

theorem Sanctioned.abstain (happ : c.app = .answered (some true) → yes)
    (hchain : c.chain.approving = true → yes) (hsettled : c.settled = some .approved → yes)
    (hheld : ∀ r, c.held = some r → r = .noTty) (hopened : c.settled = none → c.opened = c.unheard + 1) :
    c.abstain.Sanctioned yes := by
  unfold AccessCall.abstain
  dsimp only
  split
  · refine Sanctioned.answer happ hchain hsettled hheld ?_
    intro hresult
    cases hh : c.held with
    | none => simp [hh] at hresult
    | some held =>
      have htty := hheld held hh
      rw [hh, htty] at hresult
      cases hresult
  · refine ⟨happ, hchain, hsettled, hheld, ?_⟩
    intro hnone
    have hopen := hopened hnone
    change c.opened - 1 = c.unheard
    omega

theorem Sanctioned.hearApp (h : c.Sanctioned yes) {answer : Option Bool}
    (happ : c.app = .answered answer) : (c.hearApp answer).Sanctioned yes := by
  unfold AccessCall.hearApp
  dsimp only
  split
  · refine Sanctioned.answer (by simp) h.chain h.settled h.held ?_
    intro _
    exact h.app happ
  · exact Sanctioned.answer (by simp) h.chain h.settled h.held (by simp)
  · refine Sanctioned.abstain (by simp) h.chain h.settled h.held ?_
    intro hnone
    have hopened := h.opened hnone
    simp only [unheard, happ, reduceCtorEq, if_false, if_true] at hopened ⊢
    omega

theorem Sanctioned.hearLocal (h : c.Sanctioned yes) {result : Option AccessPromptResult}
    (hchain : c.chain = .returned result) : (c.hearLocal result).Sanctioned yes := by
  have hunheard : c.settled = none → c.opened = ({ c with chain := .done } : AccessCall).unheard + 1 := by
    intro hnone
    have hopened := h.opened hnone
    simp only [unheard, hchain, reduceCtorEq, if_false, if_true] at hopened ⊢
    omega
  unfold AccessCall.hearLocal
  dsimp only
  split
  · exact Sanctioned.abstain h.app (by simp [LocalChain.approving]) h.settled (by simp) hunheard
  · rename_i result _
    refine Sanctioned.answer h.app (by simp [LocalChain.approving]) h.settled h.held ?_
    intro hresult
    apply h.chain
    rw [hchain, hresult]
    rfl
  · exact Sanctioned.abstain h.app (by simp [LocalChain.approving]) h.settled h.held hunheard

end AccessCall

namespace AccessState
variable {s : AccessState} {yes : Nat → Prop} {outs : List AccessOutput}

def holds (s : AccessState) : ChannelKind → Nat → Bool
  | .ask, call => s.ask.any fun p => p.call = call
  | .offer, call => s.offer.any fun p => p.call = call && !p.parked
  | .park, call => s.offer.any fun p => p.call = call && p.parked

def isSettled (kind : ChannelKind) (call : Nat) : AccessOutput → Bool
  | .settled k c _ => k = kind && c = call
  | _ => false

def isMade (kind : ChannelKind) (call : Nat) : AccessOutput → Bool
  | .made k c => k = kind && c = call
  | _ => false

/-- Whoever has a slot waits for it, every yes is a human's, and each question is settled, stands in
its slot or is the one that is `owed` an answer at this point. -/
structure Consistent (yes : Nat → Prop) (owed : Option (ChannelKind × Nat))
    (outs : List AccessOutput) (s : AccessState) : Prop where
  ask : ∀ p, s.ask = some p → ∃ c, s.calls.get p.call = some c ∧ c.app = .asking ∧
    c.concluded = false
  offer : ∀ p, s.offer = some p → ∃ c, s.calls.get p.call = some c ∧
    c.chain = (if p.parked then .parking else .offering) ∧ (p.parked = true → c.concluded = false)
  sanctioned : ∀ call c, s.calls.get call = some c → c.Sanctioned (yes call)
  balance : ∀ kind call, outs.countP (isSettled kind call) + (s.holds kind call).toNat +
    (decide (owed = some (kind, call))).toNat = outs.countP (isMade kind call)

/-- What is in a slot or owed may change places. -/
theorem Consistent.balanced {owed owed' : Option (ChannelKind × Nat)} {s' : AccessState} (h : Consistent yes owed outs s)
    (hheld : ∀ kind call, (s'.holds kind call).toNat + (decide (owed' = some (kind, call))).toNat =
      (s.holds kind call).toNat + (decide (owed = some (kind, call))).toNat) (kind : ChannelKind) (call : Nat) :
    outs.countP (isSettled kind call) + (s'.holds kind call).toNat + (decide (owed' = some (kind, call))).toNat =
      outs.countP (isMade kind call) := by
  have hbalance := h.balance kind call
  have hheld := hheld kind call
  omega

variable {owed : Option (ChannelKind × Nat)} {call : Nat} {c : AccessCall}

theorem Consistent.asked (h : Consistent yes owed outs s) (hc : s.calls.get call = some c) (p : LiveAsk)
    (hp : s.ask = some p) (hi : p.call = call) : c.app = .asking ∧ c.concluded = false := by
  obtain ⟨d, hd, hasked⟩ := h.ask p hp
  rw [hi, hc] at hd
  cases hd
  exact hasked

theorem Consistent.offered (h : Consistent yes owed outs s) (hc : s.calls.get call = some c) (p : LiveOffer)
    (hp : s.offer = some p) (hi : p.call = call) :
    c.chain = (if p.parked then .parking else .offering) ∧ (p.parked = true → c.concluded = false) := by
  obtain ⟨d, hd, hoffered⟩ := h.offer p hp
  rw [hi, hc] at hd
  cases hd
  exact hoffered

def FreeOf (s : AccessState) (call : Nat) : ChannelKind → Prop
  | .ask => ∀ p, s.ask = some p → p.call ≠ call
  | .offer | .park => ∀ p, s.offer = some p → p.call ≠ call

/-- Nothing is offered for a chain that does not wait. -/
theorem Consistent.unoffered (h : Consistent yes owed outs s) (hc : s.calls.get call = some c)
    (hwaiting : c.chain ≠ .offering ∧ c.chain ≠ .parking) : s.FreeOf call .offer := by
  intro p hp hi
  have hchain := (h.offered hc p hp hi).1
  split at hchain
  · exact hwaiting.2 hchain
  · exact hwaiting.1 hchain

def Plain (out : List AccessOutput) : Prop :=
  ∀ o ∈ out, ∀ kind call, isSettled kind call o = false ∧ isMade kind call o = false

variable {out : List AccessOutput}

theorem Plain.count (h : Plain out) (kind : ChannelKind) (call : Nat) :
    out.countP (isSettled kind call) = 0 ∧ out.countP (isMade kind call) = 0 := by
  rw [countP_eq_zero, countP_eq_zero]
  exact ⟨fun o ho => by simp [(h o ho kind call).1], fun o ho => by simp [(h o ho kind call).2]⟩

theorem Consistent.plain (h : Consistent yes owed outs s)
    (hplain : Plain out) : Consistent yes owed (outs ++ out) s := by
  refine { h with balance := ?_ }
  intro kind call
  obtain ⟨hsettled, hmade⟩ := hplain.count kind call
  rw [countP_append, countP_append, hsettled, hmade]
  exact h.balance kind call

theorem Consistent.made (h : Consistent yes none outs s) (kind : ChannelKind) (call : Nat) :
    Consistent yes (some (kind, call)) (outs ++ [.made kind call]) s := by
  refine { h with balance := ?_ }
  intro k i
  have hbalance := h.balance k i
  by_cases hi : kind = k ∧ call = i
  · obtain ⟨rfl, rfl⟩ := hi
    simp [isSettled, isMade] at hbalance ⊢
    omega
  · have hne : ¬ (kind, call) = (k, i) := by
      intro heq
      cases heq
      exact hi ⟨rfl, rfl⟩
    have hmade : isMade k i (.made kind call) = false := by
      simp only [isMade, Bool.and_eq_false_iff, decide_eq_false_iff_not]
      rw [← not_and_or]
      exact hi
    simp [isSettled, hmade, hne] at hbalance ⊢
    exact hbalance

theorem get_settle (s : AccessState) (kind : ChannelKind) (call i : Nat) (answer : Option Bool) :
    (s.settle kind call answer).1.calls.get i =
      if i = call then (s.calls.get i).map fun c => c.settle kind answer else s.calls.get i := by
  simp [AccessState.settle]

theorem get_set_call (s : AccessState) (call i : Nat) (c : AccessCall) :
    (s.set call c).calls.get i = if i = call then some c else s.calls.get i := by
  simp [AccessState.set]

variable {answer : Option Bool} {kind : ChannelKind}

theorem Consistent.settle (h : Consistent yes (some (kind, call)) outs s) (hfree : s.FreeOf call kind)
    (hc : s.calls.get call = some c) (hwaits : c.Waits kind) (hyes : answer = some true → yes call) :
    Consistent yes none (outs ++ [.settled kind call answer]) (s.settle kind call answer).1 := by
  refine ⟨?_, ?_, ?_, ?_⟩
  · intro p hp
    obtain ⟨c, hc, happ, hconcluded⟩ := h.ask p hp
    by_cases hi : p.call = call
    · rw [get_settle, if_pos hi, hc]
      cases kind with
      | ask => exact absurd hi (hfree p hp)
      | offer | park => exact ⟨_, rfl, happ, hconcluded⟩
    · exact ⟨c, by rw [get_settle, if_neg hi, hc], happ, hconcluded⟩
  · intro p hp
    obtain ⟨c, hc, hchain, hconcluded⟩ := h.offer p hp
    by_cases hi : p.call = call
    · rw [get_settle, if_pos hi, hc]
      cases kind with
      | ask => exact ⟨_, rfl, hchain, hconcluded⟩
      | offer | park => exact absurd hi (hfree p hp)
    · exact ⟨c, by rw [get_settle, if_neg hi, hc], hchain, hconcluded⟩
  · intro i d hd
    rw [get_settle] at hd
    split at hd
    · rename_i hi
      rw [hi, hc] at hd
      cases hd
      rw [hi]
      have hold := h.sanctioned call c hc
      have hopened (hnone : (c.settle kind answer).settled = none) :
          (c.settle kind answer).opened = (c.settle kind answer).unheard := by
        cases kind <;> have hopened := hold.opened hnone <;> simp only [AccessCall.Waits] at hwaits <;>
          simp only [AccessCall.unheard, hwaits] at hopened <;> simp [AccessCall.settle, AccessCall.unheard, hopened]
      cases kind with
      | ask => exact { hold with
          app := fun heq => hyes (AppChannel.answered.inj heq)
          opened := hopened }
      | offer =>
        refine { hold with chain := fun heq => hyes ?_, opened := hopened }
        cases answer with
        | none => cases heq
        | some approved => exact congrArg some heq
      | park => exact { hold with
          chain := fun heq => hyes (by simpa [AccessCall.settle, LocalChain.approving] using heq)
          opened := hopened }
    · exact h.sanctioned i d hd
  · intro k i
    have hbalance := h.balance k i
    have hholds : (s.settle kind call answer).1.holds k i = s.holds k i := by
      cases k with
      | ask | offer | park => rfl
    rw [hholds]
    by_cases hi : kind = k ∧ call = i
    · obtain ⟨rfl, rfl⟩ := hi
      simp [isSettled, isMade] at hbalance ⊢
      omega
    · have hne : ¬ (kind, call) = (k, i) := by
        intro heq
        cases heq
        exact hi ⟨rfl, rfl⟩
      have hsettled : isSettled k i (.settled kind call answer) = false := by
        simp only [isSettled, Bool.and_eq_false_iff, decide_eq_false_iff_not]
        rw [← not_and_or]
        exact hi
      simp [isMade, hsettled, hne] at hbalance ⊢
      exact hbalance

variable {s' : AccessState}

theorem Consistent.of_same (h : Consistent yes owed outs s) (hask : s'.ask = s.ask) (hoffer : s'.offer = s.offer)
    (hcalls : s'.calls = s.calls) : Consistent yes owed outs s' := by
  refine ⟨?_, ?_, ?_, ?_⟩
  · rw [hask, hcalls]
    exact h.ask
  · rw [hoffer, hcalls]
    exact h.offer
  · rw [hcalls]
    exact h.sanctioned
  · refine h.balanced fun kind call => ?_
    cases kind <;> simp only [holds, hask, hoffer]

/-- A call's own record changes, and whoever has a slot still waits for it. -/
theorem Consistent.set (h : Consistent yes owed outs s) (hsanctioned : c.Sanctioned (yes call))
    (hask : ∀ p, s.ask = some p → p.call = call → c.app = .asking ∧ c.concluded = false)
    (hoffer : ∀ p, s.offer = some p → p.call = call →
      c.chain = (if p.parked then .parking else .offering) ∧ (p.parked = true → c.concluded = false)) :
    Consistent yes owed outs (s.set call c) := by
  refine ⟨?_, ?_, ?_, fun kind i => h.balance kind i⟩
  · intro p hp
    by_cases hi : p.call = call
    · exact ⟨c, by simp [AccessState.set, hi], hask p hp hi⟩
    · obtain ⟨d, hd, hrest⟩ := h.ask p hp
      exact ⟨d, by simp [AccessState.set, hi, hd], hrest⟩
  · intro p hp
    by_cases hi : p.call = call
    · exact ⟨c, by simp [AccessState.set, hi], hoffer p hp hi⟩
    · obtain ⟨d, hd, hrest⟩ := h.offer p hp
      exact ⟨d, by simp [AccessState.set, hi, hd], hrest⟩
  · intro i d hd
    rw [get_set_call] at hd
    split at hd
    · rename_i hi
      cases hd
      rw [hi]
      exact hsanctioned
    · exact h.sanctioned i d hd

/-- A chain for which nothing is offered goes on. -/
theorem Consistent.setChain (h : Consistent yes owed outs s) (chain : LocalChain) (hc : s.calls.get call = some c)
    (hfree : s.FreeOf call .offer) (hgoing : c.chain ≠ .done ∧ chain ≠ .done)
    (hyes : chain.approving = true → yes call) : Consistent yes owed outs (s.set call { c with chain := chain }) := by
  have hold := h.sanctioned call c hc
  have hnew : ({ c with chain := chain } : AccessCall).Sanctioned (yes call) := by
    refine { hold with chain := hyes, opened := ?_ }
    intro hnone
    have hopened := hold.opened hnone
    simp only [AccessCall.unheard, if_neg hgoing.1] at hopened
    simp only [AccessCall.unheard, if_neg hgoing.2]
    exact hopened
  exact h.set hnew (h.asked (c := c) hc) fun p hp hi => absurd hi (hfree p hp)

theorem Consistent.mono {yes' : Nat → Prop} (h : Consistent yes none outs s)
    (himp : ∀ call, yes call → yes' call) : Consistent yes' none outs s :=
  { h with sanctioned := fun call c hc => (h.sanctioned call c hc).mono (himp call) }

def isRequest : AccessOutput → Bool
  | .reply _ (.request ..) => true
  | _ => false

/-- Outputs by which no question is put or settled, no call returns and nobody is handed a request. -/
def isSilent : AccessOutput → Bool
  | .made .. | .settled .. | .resolved .. | .reply _ (.request ..) => false
  | _ => true

/-- The moves that an event is made of, with the question that is owed an answer before and after them and those
that are put on the way. Only a channel that waits is written, nothing but the request of a call that has `begun`
comes unparked in front of a window, and a request that was handed out stays there. -/
inductive Path (begun yes : Nat → Prop) : Option (ChannelKind × Nat) → AccessState → AccessStep →
    Option (ChannelKind × Nat) → List (ChannelKind × Nat) → Prop
  | aside {owed : Option (ChannelKind × Nat)} {s t : AccessState} {out : List AccessOutput} (ask : t.ask = s.ask)
      (asks : t.asks = s.asks) (offer : t.offer = s.offer) (offers : t.offers = s.offers) (calls : t.calls = s.calls)
      (silent : ∀ o ∈ out, isSilent o = true) : Path begun yes owed s (t, out) owed []
  | follows {o o' o'' : Option (ChannelKind × Nat)} {s : AccessState} {r : AccessStep}
      {f : AccessState → AccessStep} {a b : List (ChannelKind × Nat)} (first : Path begun yes o s r o' a)
      (next : Path begun yes o' r.1 (f r.1) o'' b)
      (stays : (∀ o ∈ r.2, isRequest o = false) ∨ (f r.1).1.offer = r.1.offer) :
      Path begun yes o s (AccessState.andThen r f) o'' (a ++ b)
  | made {s : AccessState} {kind : ChannelKind} {call : Nat} :
      Path begun yes none s (s, [.made kind call]) (some (kind, call)) [(kind, call)]
  | tells {owed : Option (ChannelKind × Nat)} {s : AccessState} {p : LiveOffer} {waiter : Option Waiter} {poll : Nat}
      (offer : s.offer = some p) : Path begun yes owed s ({ s with waiter := waiter },
        [.reply poll (.request p.id (p.offer.sas.filter (· ≠ "")) p.offer.deviceLabel p.offer.accountEmail)]) owed []
  | settles {s : AccessState} {kind : ChannelKind} {call : Nat} {answer : Option Bool} {c : AccessCall}
      (was : s.calls.get call = some c) (waits : c.Waits kind) (free : s.FreeOf call kind)
      (human : answer = some true → yes call) :
      Path begun yes (some (kind, call)) s (s.settle kind call answer) none []
  | closesAsk {s : AccessState} {p : LiveAsk} {out : List AccessOutput} (was : s.ask = some p)
      (silent : ∀ o ∈ out, isSilent o = true) :
      Path begun yes none s ({ s with ask := none }, out) (some (.ask, p.call)) []
  | closesOffer {s : AccessState} {p : LiveOffer} (was : s.offer = some p) :
      Path begun yes none s ({ s with offer := none }, []) (some (p.kind, p.call)) []
  | opensAsk {s : AccessState} {call expiresAt : Nat} {c : AccessCall} {out : List AccessOutput}
      (empty : s.ask = none) (was : s.calls.get call = some c) (asking : c.app = .asking ∧ c.concluded = false)
      (silent : ∀ o ∈ out, isSilent o = true) : Path begun yes (some (.ask, call)) s
        ({ s with asks := s.asks + 1, ask := some ⟨s.asks + 1, call, expiresAt⟩ }, out) none []
  | opensOffer {s : AccessState} {kind : ChannelKind} {call : Nat} {park : Bool} {c : AccessCall}
      (empty : s.offer = none) (was : s.calls.get call = some c) (asks : kind = if park then .park else .offer)
      (offering : c.chain = (if park then .parking else .offering) ∧ (park = true → c.concluded = false))
      (unparked : park = false → begun call) : Path begun yes (some (kind, call)) s
        ({ s with offers := s.offers + 1, offer := some ⟨s.offers + 1, call, park, c.req⟩ }, []) none []
  | skips {s : AccessState} {call : Nat} {c : AccessCall} {chain : LocalChain} {out : List AccessOutput}
      (was : s.calls.get call = some c) (offering : c.chain = .offering) (free : s.FreeOf call .offer)
      (silenced : chain.approving = false ∧ chain ≠ .done) (silent : ∀ o ∈ out, isSilent o = true) :
      Path begun yes none s (s.set call { c with chain := chain }, out) none []
  | lacks {s : AccessState} {call : Nat} {c : AccessCall} (was : s.calls.get call = some c)
      (asking : c.app = .asking) (free : s.FreeOf call .ask) :
      Path begun yes none s (s.set call { c with app := .answered none }, []) none []

variable {B : Nat → Prop} {r : AccessStep} {ms : List (ChannelKind × Nat)} {owed' : Option (ChannelKind × Nat)}

theorem Path.stays : Path B yes owed s (s, []) owed [] := .aside rfl rfl rfl rfl rfl (by simp)

/-- A first part that puts no question and hands nobody a request. -/
theorem Path.turn {o o' o'' : Option (ChannelKind × Nat)} {f : AccessState → AccessStep}
    (first : Path B yes o s r o' []) (next : Path B yes o' r.1 (f r.1) o'' ms)
    (hout : ∀ o ∈ r.2, isRequest o = false) : Path B yes o s (AccessState.andThen r f) o'' ms :=
  first.follows next (.inl hout)

theorem not_request_of_silent {o : AccessOutput} (h : isSilent o = true) : isRequest o = false := by
  unfold isSilent at h
  split at h
  · cases h
  · cases h
  · cases h
  · cases h
  · rename_i hother
    unfold isRequest
    split
    · exact absurd rfl (hother _ _ _ _ _)
    · rfl

theorem plain_of_silent (h : ∀ o ∈ out, isSilent o = true) : Plain out := by
  intro o ho kind call
  have hsilent := h o ho
  cases o with
  | made _ _ | settled _ _ _ => cases hsilent
  | _ => exact ⟨rfl, rfl⟩

/-- Every move leaves the state consistent. -/
theorem Path.consistent (path : Path B yes owed s r owed' ms) (h : Consistent yes owed outs s) :
    Consistent yes owed' (outs ++ r.2) r.1 := by
  induction path generalizing outs with
  | aside ask _ offer _ calls silent => exact (h.of_same ask offer calls).plain (plain_of_silent silent)
  | follows _ _ _ ihfirst ihnext =>
    rw [AccessState.andThen, ← append_assoc]
    exact ihnext (ihfirst h)
  | made => exact h.made _ _
  | tells _ =>
    refine Consistent.plain (h.of_same rfl rfl rfl) ?_
    exact forall_mem_singleton.2 fun _ _ => ⟨rfl, rfl⟩
  | settles was waits free human => exact h.settle free was waits human
  | closesAsk was silent =>
    refine Consistent.plain ⟨by simp, h.offer, h.sanctioned, h.balanced fun kind call => ?_⟩ (plain_of_silent silent)
    cases kind <;> simp [holds, was]
  | @closesOffer _ p was =>
    rw [append_nil]
    refine ⟨h.ask, by simp, h.sanctioned, h.balanced fun kind call => ?_⟩
    cases kind <;> cases hparked : p.parked <;> simp [holds, was, LiveOffer.kind, hparked]
  | @opensAsk _ _ _ c _ empty was asking silent =>
    refine Consistent.plain ⟨?_, h.offer, h.sanctioned, h.balanced fun kind i => ?_⟩ (plain_of_silent silent)
    · intro p hp
      cases hp
      exact ⟨c, was, asking⟩
    · cases kind <;> simp [holds, empty]
  | @opensOffer _ _ _ park c empty was asks offering _ =>
    rw [append_nil, asks] at *
    refine ⟨h.ask, ?_, h.sanctioned, h.balanced fun kind i => ?_⟩
    · intro p hp
      cases hp
      exact ⟨c, was, offering⟩
    · cases kind <;> cases park <;> simp [holds, empty]
  | skips was offering free silenced silent =>
    refine (h.setChain _ was free ⟨?_, silenced.2⟩ ?_).plain (plain_of_silent silent)
    · simp [offering]
    · simp [silenced.1]
  | @lacks _ call c was asking free =>
    rw [append_nil]
    have hold := h.sanctioned call c was
    have hnew : ({ c with app := .answered none } : AccessCall).Sanctioned (yes call) := by
      refine { hold with app := by simp, opened := ?_ }
      intro hnone
      have hopened := hold.opened hnone
      simpa [AccessCall.unheard, asking] using hopened
    exact h.set hnew (fun p hp hi => absurd hi (free p hp)) (h.offered (c := c) was)

theorem silent_finish (s : AccessState) (p : LiveAsk) (answer : Option Bool) (reason : ResolvedReason) :
    ∀ o ∈ s.approvers.map fun conn => AccessOutput.approvalResolved conn p.id (answer = some true) reason,
      isSilent o = true := forall_mem_map.2 fun _ _ => rfl

section
variable (h : Consistent yes none outs s)
include h

theorem Consistent.path_finish {reason : ResolvedReason}
    (hyes : ∀ p, s.ask = some p → answer = some true → yes p.call) :
    Path B yes none s (s.finish answer reason) none [] := by
  unfold AccessState.finish
  split
  · exact Path.stays
  · rename_i p hp
    obtain ⟨c, hc, happ, -⟩ := h.ask p hp
    have hsilent := silent_finish s p answer reason
    exact Path.turn (.closesAsk hp hsilent) (.settles hc happ (by simp [FreeOf]) (hyes p hp))
      fun o ho => not_request_of_silent (hsilent o ho)

theorem Consistent.path_settlePending {approved : Bool}
    (hyes : ∀ p, s.offer = some p → approved = true → yes p.call) :
    Path B yes none s (s.settlePending approved) none [] := by
  unfold AccessState.settlePending
  split
  · exact Path.stays
  · rename_i p hp
    obtain ⟨c, hc, hchain, -⟩ := h.offer p hp
    refine Path.turn (f := fun s => s.settle p.kind p.call (some approved)) (.closesOffer hp)
      (.settles hc ?_ ?_ ?_) (by simp)
    · cases hparked : p.parked <;> simp [LiveOffer.kind, hparked, AccessCall.Waits, hchain]
    · cases hparked : p.parked <;> simp [LiveOffer.kind, hparked, FreeOf]
    · exact fun htrue => hyes p hp (Option.some.inj htrue)

theorem Consistent.path_dropWaiter : Path B yes none s s.dropWaiter none [] := by
  unfold AccessState.dropWaiter
  split
  · exact Path.stays
  · rename_i w _
    have hsame : Consistent yes none outs
        { s with waiter := none, timers := s.timers.filter (· ≠ w.window) } := h.of_same rfl rfl rfl
    have hsilent : ∀ o ∈ w.held.toList.map fun poll => AccessOutput.reply poll .closed, isSilent o = true :=
      forall_mem_map.2 fun _ _ => rfl
    exact Path.turn (.aside rfl rfl rfl rfl rfl hsilent) (hsame.path_settlePending (by simp))
      fun o ho => not_request_of_silent (hsilent o ho)

end

theorem path_flush (s : AccessState) : Path B yes owed s s.flush owed [] := by
  unfold AccessState.flush
  split
  · rename_i hp
    split
    · exact .tells hp
    · exact Path.stays
  · exact Path.stays

theorem path_offerTo (park : Bool) (hc : s.calls.get call = some c)
    (hchain : c.chain = if park then .parking else .offering) (hfree : s.FreeOf call .offer)
    (hbegun : park = false → B call) (hkind : kind = if park then .park else .offer) :
    Path B yes (some (kind, call)) s (s.offerTo call c.req park) none [] := by
  have settles {answer : Option Bool} (hno : answer ≠ some true) :
      Path B yes (some (kind, call)) s (s.settle kind call answer) none [] := by
    refine .settles hc ?_ ?_ fun hyes => absurd hyes hno
    · cases park <;> exact hkind ▸ hchain
    · cases park <;> exact hkind ▸ hfree
  unfold AccessState.offerTo
  rw [← hkind]
  split
  · rename_i hclosed
    have hpark : park = false := by simp only [Bool.and_eq_true, Bool.not_eq_true'] at hclosed; exact hclosed.2
    have hoffer : kind = .offer := by rw [hkind, hpark]; rfl
    rw [← hoffer]
    exact settles (by simp)
  · split
    · exact settles (by simp)
    · rename_i hempty
      split
      · rename_i haborted
        rw [Bool.and_eq_true] at haborted
        have hpark : kind = .park := by rw [hkind, haborted.1]; rfl
        rw [← hpark]
        exact settles (by simp)
      · rename_i haborted
        refine Path.turn (f := flush) (.opensOffer (by simpa using hempty) hc hkind ⟨hchain, ?_⟩ hbegun)
          (path_flush _) (by simp)
        intro hpark
        simpa [aborted, hc, hpark] using haborted

theorem path_onCall {o : Option (ChannelKind × Nat)} {f : AccessCall → AccessStep}
    (hf : ∀ c, s.calls.get call = some c → Path B yes o s (f c) o []) : Path B yes o s (s.onCall call f) o [] := by
  unfold AccessState.onCall
  split
  · exact Path.stays
  · rename_i c hc
    exact hf c hc

theorem path_startLocal (yes : Nat → Prop) (hc : s.calls.get call = some c) (hchain : c.chain = .offering) (hfree : s.FreeOf call .offer)
    (hbegun : B call) (dep : AccessDep) :
    ∃ ms, Path B yes none s (s.startLocal call c.req dep) none ms ∧ ms.Sublist [(.offer, call)] := by
  have skips {out : List AccessOutput} (hout : ∀ o ∈ out, isSilent o = true) {chain : LocalChain}
      (hnext : chain.approving = false ∧ chain ≠ .done) :
      Path B yes none s (s.onCall call fun c => (s.set call { c with chain := chain }, out)) none [] := by
    refine path_onCall fun d hd => .skips hd ?_ hfree hnext hout
    rw [hc] at hd
    cases hd
    exact hchain
  unfold AccessState.startLocal
  split
  · exact ⟨[], skips (by simp [isSilent]) (by simp [LocalChain.approving]), by simp⟩
  · exact ⟨[], skips (by simp) (by simp [LocalChain.approving]), by simp⟩
  · exact ⟨_, Path.made.follows (path_offerTo false hc hchain hfree (fun _ => hbegun) rfl) (.inl (by simp [isRequest])),
      by simp⟩

theorem path_startApp (yes : Nat → Prop) (hc : s.calls.get call = some c) (happ : c.app = .asking) (hfree : s.FreeOf call .ask)
    (req : AccessPromptInput) (dep : AccessDep) :
    ∃ ms, Path B yes none s (s.startApp call req dep) none ms ∧ ms.Sublist [(.ask, call)] ∧
      (s.startApp call req dep).1.offer = s.offer := by
  have settles : Path B yes (some (.ask, call)) s (s.settle .ask call none) none [] :=
    .settles hc happ hfree (by simp)
  unfold AccessState.startApp
  split
  · simp only [AccessState.onCall, hc]
    exact ⟨[], .lacks hc happ hfree, by simp, rfl⟩
  · exact ⟨_, Path.made.follows settles (.inl (by simp [isRequest])), by simp, rfl⟩
  · unfold AccessState.askDeviceApproval
    refine ⟨_, Path.made.follows (b := []) ?_ (.inl (by simp [isRequest])), by simp, ?_⟩
    · split
      · exact settles
      · rename_i hclear
        simp only [Bool.or_eq_true, not_or, Bool.not_eq_true, Option.isSome_eq_false_iff,
          Option.isNone_iff_eq_none] at hclear
        refine .opensAsk hclear.1.2 hc ⟨happ, ?_⟩ (forall_mem_map.2 fun _ _ => rfl)
        simpa [aborted, hc] using hclear.1.1
    · simp only [AccessState.andThen]
      split <;> rfl

/-- The app's channel of a call is not touched by the start of its chain. -/
theorem startLocal_frame (s : AccessState)
    (hc : s.calls.get call = some c) (req : AccessPromptInput) (dep : AccessDep) :
    (s.startLocal call req dep).1.ask = s.ask ∧
      ∃ d, (s.startLocal call req dep).1.calls.get call = some d ∧ d.app = c.app := by
  have settled (kind : ChannelKind) (hkind : kind ≠ .ask) (answer : Option Bool) :
      ∃ d, (s.settle kind call answer).1.calls.get call = some d ∧ d.app = c.app := by
    rw [get_settle, if_pos rfl, hc]
    cases kind with
    | ask => exact absurd rfl hkind
    | offer | park => exact ⟨_, rfl, rfl⟩
  unfold AccessState.startLocal
  split
  · simp only [AccessState.onCall, hc]
    exact ⟨rfl, { c with chain := .prompting }, by rw [get_set_call, if_pos rfl], rfl⟩
  · simp only [AccessState.onCall, hc]
    exact ⟨rfl, { c with chain := .offered none }, by rw [get_set_call, if_pos rfl], rfl⟩
  · simp only [AccessState.andThen, AccessState.offerTo]
    split
    · exact ⟨rfl, settled .offer (by simp) none⟩
    · split
      · exact ⟨rfl, settled .offer (by simp) (some false)⟩
      · split
        · exact ⟨rfl, settled .park (by simp) (some false)⟩
        · unfold AccessState.flush
          split
          · split <;> exact ⟨rfl, c, hc, rfl⟩
          · exact ⟨rfl, c, hc, rfl⟩

theorem finish_ask (s : AccessState) (answer : Option Bool) (reason : ResolvedReason) :
    (s.finish answer reason).1.ask = none ∧ (s.finish answer reason).1.offer = s.offer := by
  unfold AccessState.finish
  cases hp : s.ask with
  | none => exact ⟨hp, rfl⟩
  | some p => exact ⟨rfl, rfl⟩

theorem settlePending_offer (s : AccessState) (approved : Bool) :
    (s.settlePending approved).1.offer = none ∧ (s.settlePending approved).1.ask = s.ask := by
  unfold AccessState.settlePending
  cases hp : s.offer with
  | none => exact ⟨hp, rfl⟩
  | some p => exact ⟨rfl, rfl⟩

/-- The abort of a call takes its question out of the app. -/
def withdrawAsk (s : AccessState) (call : Nat) : AccessStep :=
  if s.ask.any fun p => p.call = call then s.finish none .withdrawn else (s, [])

/-- And its parked request out of the approval window. -/
def withdrawPark (s : AccessState) (call : Nat) : AccessStep :=
  if s.offer.any fun p => p.call = call && p.parked then s.settlePending false else (s, [])

theorem withdrawAsk_free (s : AccessState) (call : Nat) :
    (s.withdrawAsk call).1.FreeOf call .ask ∧ (s.withdrawAsk call).1.offer = s.offer := by
  unfold withdrawAsk
  split
  · obtain ⟨hnone, hoffer⟩ := s.finish_ask none .withdrawn
    refine ⟨?_, hoffer⟩
    intro p hp
    rw [hnone] at hp
    cases hp
  · rename_i hother
    refine ⟨?_, rfl⟩
    intro p hp hi
    have hp : s.ask = some p := hp
    simp [hp, hi] at hother

theorem withdrawPark_free (s : AccessState) (call : Nat) :
    (∀ p, (s.withdrawPark call).1.offer = some p → p.call = call → p.parked = false) ∧
      (s.withdrawPark call).1.ask = s.ask := by
  unfold withdrawPark
  split
  · obtain ⟨hnone, hask⟩ := s.settlePending_offer false
    refine ⟨?_, hask⟩
    intro p hp
    rw [hnone] at hp
    cases hp
  · rename_i hother
    refine ⟨?_, rfl⟩
    intro p hp hi
    have hp : s.offer = some p := hp
    simpa [hp, hi] using hother

theorem conclude_eq (s : AccessState) (call : Nat) (result : AccessPromptResult) :
    s.conclude call result = andThen (andThen (s.withdrawAsk call) fun s => s.withdrawPark call)
      fun s => s.onCall call fun c => (s.set call { c with concluded := true }, [.resolved call result]) :=
  rfl

section
variable (h : Consistent yes none outs s)
include h

theorem Consistent.path_withdraw (call : Nat) :
    Path B yes none s (andThen (s.withdrawAsk call) fun s => s.withdrawPark call) none [] := by
  have hask : Path B yes none s (s.withdrawAsk call) none [] ∧ ∀ o ∈ (s.withdrawAsk call).2, isRequest o = false := by
    unfold AccessState.withdrawAsk
    split
    · refine ⟨h.path_finish (by simp), ?_⟩
      unfold AccessState.finish
      split
      · simp
      · rename_i p _
        intro o ho
        obtain htold | hsettled := mem_append.1 ho
        · exact not_request_of_silent (silent_finish s p none .withdrawn o htold)
        · rw [mem_singleton.1 hsettled]
          rfl
    · exact ⟨Path.stays, by simp⟩
  refine hask.1.turn ?_ hask.2
  unfold AccessState.withdrawPark
  split
  · exact (hask.1.consistent h).path_settlePending (by simp)
  · exact Path.stays

theorem Consistent.conclude (call : Nat) (result : AccessPromptResult) :
    Consistent yes none (outs ++ (s.conclude call result).2) (s.conclude call result).1 := by
  have hleft : Path (fun _ => False) yes none s (andThen (s.withdrawAsk call) fun s => s.withdrawPark call) none [] :=
    h.path_withdraw call
  have hleft := hleft.consistent h
  obtain ⟨hparked, hask⟩ := (s.withdrawAsk call).1.withdrawPark_free call
  rw [conclude_eq]
  generalize hr : andThen (s.withdrawAsk call) (fun s => s.withdrawPark call) = r at hleft ⊢
  have hr : r.1 = ((s.withdrawAsk call).1.withdrawPark call).1 := by rw [← hr]; rfl
  rw [← hr] at hparked hask
  rw [AccessState.andThen, ← append_assoc]
  unfold AccessState.onCall
  split
  · rw [append_nil]
    exact hleft
  · rename_i c hc
    refine Consistent.plain ?_ (by simp [Plain, isSettled, isMade])
    have hnew : ({ c with concluded := true } : AccessCall).Sanctioned (yes call) :=
      { hleft.sanctioned call c hc with }
    refine hleft.set hnew ?_ ?_
    · intro p hp hi
      exact absurd hi ((s.withdrawAsk_free call).1 p (hask.symm.trans hp))
    · intro p hp hi
      refine ⟨(hleft.offered hc p hp hi).1, ?_⟩
      intro htrue
      rw [hparked p hp hi] at htrue
      cases htrue

theorem FreeOf.of_fresh (hfresh : s.calls.get call = none) (kind : ChannelKind) : s.FreeOf call kind := by
  have hask : ∀ p, s.ask = some p → p.call ≠ call := by
    intro p hp hi
    obtain ⟨c, hc, -⟩ := h.ask p hp
    rw [hi, hfresh] at hc
    cases hc
  have hoffer : ∀ p, s.offer = some p → p.call ≠ call := by
    intro p hp hi
    obtain ⟨c, hc, -⟩ := h.offer p hp
    rw [hi, hfresh] at hc
    cases hc
  cases kind with
  | ask => exact hask
  | offer | park => exact hoffer

end

/-- A human says yes to the request of a call: in the app by its id, in the open approval window by
its id, or at its own prompt. -/
def SaysYes (authToken : String) (s : AccessState) (e : AccessEvent) (call : Nat) : Prop :=
  (∃ p, s.ask = some p ∧ p.call = call ∧ e = .resolveDeviceApproval p.id true) ∨
  (∃ p w poll peer, s.offer = some p ∧ p.call = call ∧ s.waiter = some w ∧
    guard authToken peer = none ∧ e = .decide poll peer w.sessionId p.id true) ∨
  ∃ c, s.calls.get call = some c ∧ c.chain = .prompting ∧ e = .promptAnswers call (some .approved)

/-- What an event does: a call starts, goes on, is held, hears of an answer or concludes, and all else is moves by
which no question is put. -/
inductive Goes (yes : Nat → Prop) (s : AccessState) : AccessEvent → AccessStep → Prop
  | moves {e : AccessEvent} {r : AccessStep} (path : Path (fun _ => False) yes none s r none []) : Goes yes s e r
  | starts {call : Nat} {req : AccessPromptInput} {deps : AccessDeps} {r : AccessStep}
      {ms : List (ChannelKind × Nat)} (fresh : s.calls.get call = none)
      (path : Path (· = call) yes none (s.set call ⟨req, deps, .asking, .offering, 2, none, none, false⟩) r none ms)
      (asked : ms.Sublist [(.offer, call), (.ask, call)]) : Goes yes s (.start call req deps) r
  | chains {e : AccessEvent} {call : Nat} {c : AccessCall} {chain : LocalChain} {out : List AccessOutput}
      (was : s.calls.get call = some c) (waiting : c.chain ≠ .offering ∧ c.chain ≠ .parking)
      (going : c.chain ≠ .done ∧ chain ≠ .done) (early : chain.early = true → c.chain.early = true)
      (human : chain.approving = true → yes call) (silent : ∀ o ∈ out, isSilent o = true) :
      Goes yes s e (s.set call { c with chain := chain }, out)
  | parks {call : Nat} {c : AccessCall} {r : AccessStep} (was : s.calls.get call = some c)
      (chain : c.chain = .prompted (some .noTty))
      (path : Path (fun _ => False) yes (some (.park, call)) (s.set call { c with chain := .parking }) r none []) :
      Goes yes s (.resume call) (r.1, .notice call :: .made .park call :: r.2)
  | hearsApp {call : Nat} {c : AccessCall} {answer : Option Bool} (was : s.calls.get call = some c)
      (app : c.app = .answered answer) : Goes yes s (.hearApp call) (s.set call (c.hearApp answer), [])
  | hearsLocal {call : Nat} {c : AccessCall} {result : Option AccessPromptResult}
      (was : s.calls.get call = some c) (chain : c.chain = .returned result) :
      Goes yes s (.resume call) (s.set call (c.hearLocal result), [])
  | concludes {call : Nat} {c : AccessCall} {result : AccessPromptResult}
      (was : s.calls.get call = some c) (settled : c.settled = some result)
      (path : Path (fun _ => False) yes none s (AccessState.andThen (s.withdrawAsk call) fun s => s.withdrawPark call)
        none []) : Goes yes s (.conclude call) (s.conclude call result)

variable {e : AccessEvent}

section
variable (h : Consistent yes none outs s)
include h

theorem Consistent.goes_resume (hc : s.calls.get call = some c) : Goes yes s (.resume call) (s.resume call c) := by
  have hold := h.sanctioned call c hc
  have chains {chain : LocalChain} {out : List AccessOutput}
      (hwaiting : (c.chain ≠ .offering ∧ c.chain ≠ .parking) ∧ c.chain ≠ .done) (hnext : chain ≠ .done)
      (hearly : chain.early = true → c.chain.early = true)
      (hyes : chain.approving = true → c.chain.approving = true) (hout : ∀ o ∈ out, isSilent o = true) :
      Goes yes s (.resume call) (s.set call { c with chain := chain }, out) :=
    .chains hc hwaiting.1 ⟨hwaiting.2, hnext⟩ hearly (fun ha => hold.chain (hyes ha)) hout
  have returns {result : Option AccessPromptResult}
      (hwaiting : (c.chain ≠ .offering ∧ c.chain ≠ .parking) ∧ c.chain ≠ .done)
      (hyes : result = some .approved → c.chain.approving = true) :
      Goes yes s (.resume call) (s.set call { c with chain := .returned result }, []) := by
    refine chains hwaiting (by simp) (by simp [LocalChain.early]) (fun ha => hyes ?_) (by simp)
    unfold LocalChain.approving at ha
    split at ha <;> simp_all
  unfold AccessState.resume
  split
  · rename_i hchain
    exact returns (by simp [hchain]) (by simp)
  · rename_i approved hchain
    refine returns (by simp [hchain]) ?_
    cases approved <;> simp [LocalChain.approving, hchain]
  · rename_i hchain
    split
    · exact returns (by simp [hchain]) (by simp)
    · exact chains (by simp [hchain]) (by simp) (by simp [LocalChain.early, hchain]) (by simp [LocalChain.approving])
        (by simp [isSilent])
  · rename_i hchain
    exact returns (by simp [hchain]) (by simp)
  · rename_i hchain
    split
    · exact returns (by simp [hchain]) (by simp)
    · unfold AccessState.startPark
      split
      · exact returns (by simp [hchain]) (by simp)
      · exact chains (by simp [hchain]) (by simp) (by simp [LocalChain.early]) (by simp [LocalChain.approving])
          (by simp [isSilent])
      · have hset : (s.set call { c with chain := .parking }).calls.get call = some { c with chain := .parking } := by
          rw [get_set_call, if_pos rfl]
        exact .parks hc hchain (path_offerTo (c := { c with chain := .parking }) true hset rfl (h.unoffered hc (by simp [hchain])) (by simp) rfl)
  · rename_i result _ hchain
    refine returns (by simp [hchain]) ?_
    cases result <;> simp [LocalChain.approving, hchain]
  · rename_i hchain
    exact returns (by simp [hchain]) (by simp)
  · rename_i approved hchain
    refine returns (by simp [hchain]) ?_
    cases approved <;> simp [LocalChain.approving, hchain]
  · rename_i result hchain
    exact .hearsLocal hc hchain
  · exact .moves Path.stays
  · exact .moves Path.stays
  · exact .moves Path.stays
  · exact .moves Path.stays

theorem Consistent.goes (authToken : String) (hyes : ∀ call, SaysYes authToken s e call → yes call) :
    Goes yes s e (s.step authToken e) := by
  have tells {poll : Nat} {reply : ControlReply} (hreply : isSilent (.reply poll reply) = true) :
      Goes yes s e (s, [.reply poll reply]) := .moves (.aside rfl rfl rfl rfl rfl (by simpa using hreply))
  have stays : Goes yes s e (s, []) := .moves Path.stays
  have refuses {peer : ControlPeer} {poll : Nat} {reply : ControlReply} (hguard : guard authToken peer = some reply) :
      isSilent (.reply poll reply) = true := by
    unfold AccessState.guard at hguard
    split at hguard
    · cases hguard
      rfl
    · split at hguard
      · cases hguard
        rfl
      · cases hguard
  cases e with
  | start call req deps =>
    simp only [AccessState.step]
    split
    · exact stays
    · rename_i hfresh
      have hfresh : s.calls.get call = none := by simpa [OrderedMap.has] using hfresh
      have hget := get_set_call s call call ⟨req, deps, .asking, .offering, 2, none, none, false⟩
      rw [if_pos rfl] at hget
      obtain ⟨a, hlocal, ha⟩ := path_startLocal (B := (· = call)) yes hget rfl (FreeOf.of_fresh h hfresh .offer)
        rfl deps.offer
      obtain ⟨hask, d, hd, happ⟩ := startLocal_frame _ hget req deps.offer
      have hfree : (((s.set call ⟨req, deps, .asking, .offering, 2, none, none, false⟩).startLocal call req
          deps.offer).1).FreeOf call .ask := fun p hp => FreeOf.of_fresh h hfresh .ask p (hask.symm.trans hp)
      obtain ⟨b, happ, hb, hoffer⟩ := path_startApp (B := (· = call)) yes hd happ hfree req deps.ask
      have hpath := hlocal.follows (f := fun s => s.startApp call req deps.ask) happ (.inr hoffer)
      exact .starts hfresh hpath (ha.append hb)
  | hearApp call =>
    simp only [AccessState.step, AccessState.onCall]
    split
    · exact stays
    · rename_i c hc
      split
      · rename_i answer happ
        exact .hearsApp hc happ
      · exact stays
  | resume call =>
    simp only [AccessState.step, AccessState.onCall]
    split
    · exact stays
    · rename_i c hc
      exact h.goes_resume hc
  | promptAnswers call answer =>
    simp only [AccessState.step, AccessState.onCall]
    split
    · exact stays
    · rename_i c hc
      split
      · rename_i hchain
        refine .chains hc (by simp [hchain]) (by simp [hchain]) (by simp [hchain, LocalChain.early]) ?_ (by simp)
        intro happroving
        apply hyes
        refine .inr (.inr ⟨c, hc, hchain, ?_⟩)
        cases answer with
        | none => cases happroving
        | some result =>
          cases result with
          | approved => rfl
          | _ => cases happroving
      · exact stays
  | conclude call =>
    simp only [AccessState.step, AccessState.onCall]
    split
    · exact stays
    · rename_i c hc
      split
      · rename_i result hsettled
        split
        · exact stays
        · exact .concludes hc hsettled (h.path_withdraw call)
      · exact stays
  | resolveDeviceApproval id approved =>
    simp only [AccessState.step]
    split
    · rename_i hid
      refine .moves (h.path_finish ?_)
      intro p hp htrue
      have hp' : p.id = id := by simpa [hp] using hid
      cases htrue
      exact hyes _ (.inl ⟨p, hp, rfl, by rw [hp']⟩)
    · exact stays
  | approvers conns noted =>
    have hsame : Consistent yes none outs { s with approvers := conns } := h.of_same rfl rfl rfl
    simp only [AccessState.step]
    split
    · exact .moves (Path.turn (r := ({ s with approvers := conns }, [])) (f := fun s => s.finish none .withdrawn)
        (.aside rfl rfl rfl rfl rfl (by simp)) (hsame.path_finish (by simp)) (by simp))
    · exact .moves (.aside rfl rfl rfl rfl rfl (by simp))
  | askTimer id =>
    simp only [AccessState.step]
    split
    · exact .moves (h.path_finish (by simp))
    · exact stays
  | offerTimer id =>
    simp only [AccessState.step]
    split
    · exact .moves (h.path_settlePending (by simp))
    · exact stays
  | wait poll peer sessionId windowMs =>
    have flushes {t : AccessState} (hsame : Path (fun _ => False) yes none s (t, []) none []) :
        Goes yes s (.wait poll peer sessionId windowMs) t.flush :=
      .moves (Path.turn (f := AccessState.flush) hsame (path_flush _) (by simp))
    simp only [AccessState.step]
    split
    · rename_i hguard
      exact tells (refuses hguard)
    · unfold AccessState.handleWait
      split
      · exact tells rfl
      · split
        · exact tells rfl
        · split
          · exact flushes (.aside rfl rfl rfl rfl rfl (by simp))
          · exact flushes (.aside rfl rfl rfl rfl rfl (by simp))
  | decide poll peer sessionId id approved =>
    simp only [AccessState.step]
    split
    · rename_i hguard
      exact tells (refuses hguard)
    · rename_i hguard
      unfold AccessState.handleDecide
      split
      · exact tells rfl
      · rename_i hsession
        split
        · exact tells rfl
        · rename_i hid
          refine .moves ((h.path_settlePending ?_).follows (.aside rfl rfl rfl rfl rfl (by simp [isSilent])) (.inr rfl))
          intro p hp htrue
          simp only [Bool.not_eq_true, Option.all_eq_false, decide_eq_false_iff_not, not_not] at hsession hid
          obtain ⟨w, hw, rfl⟩ := hsession
          obtain ⟨q, hq, rfl⟩ := hid
          rw [hp] at hq
          cases hq
          exact hyes _ (.inr (.inl ⟨p, w, poll, peer, hp, rfl, hw, hguard, by rw [htrue]⟩))
  | pollCloses poll =>
    simp only [AccessState.step]
    split
    · exact stays
    · rename_i w _
      split
      · have hsame : Consistent yes none outs { s with waiter := some { w with held := none } } :=
          h.of_same rfl rfl rfl
        exact .moves (Path.turn (r := ({ s with waiter := some { w with held := none } }, []))
          (f := fun s => s.settlePending false) (.aside rfl rfl rfl rfl rfl (by simp))
          (hsame.path_settlePending (by simp)) (by simp))
      · exact stays
  | windowTimer window =>
    simp only [AccessState.step]
    split
    · have hsame : Consistent yes none outs { s with timers := s.timers.filter (· ≠ window) } :=
        h.of_same rfl rfl rfl
      exact .moves (Path.turn (r := ({ s with timers := s.timers.filter (· ≠ window) }, []))
        (f := AccessState.dropWaiter) (.aside rfl rfl rfl rfl rfl (by simp)) hsame.path_dropWaiter (by simp))
    · exact stays
  | shutdown => exact .moves h.path_dropWaiter
  | tick ms => exact .moves (.aside rfl rfl rfl rfl rfl (by simp))

theorem Consistent.step (hgoes : Goes yes s e r) : Consistent yes none (outs ++ r.2) r.1 := by
  cases hgoes with
  | moves path => exact path.consistent h
  | @starts call req deps _ _ fresh path _ =>
    refine path.consistent (h.set ⟨by simp, by simp [LocalChain.approving], by simp, by simp, fun _ => rfl⟩ ?_ ?_)
    · exact fun p hp hi => absurd hi (FreeOf.of_fresh h fresh .ask p hp)
    · exact fun p hp hi => absurd hi (FreeOf.of_fresh h fresh .offer p hp)
  | chains was waiting going _ human silent =>
    exact (h.setChain _ was (h.unoffered was waiting) going human).plain (plain_of_silent silent)
  | @parks call c r was chain path =>
    have hset := h.setChain .parking was (h.unoffered was (by simp [chain])) (by simp [chain])
      (by simp [LocalChain.approving])
    have hnotice := hset.plain (show Plain [.notice call] from plain_of_silent (by simp [isSilent]))
    simpa using path.consistent (hnotice.made .park call)
  | @hearsApp call c answer was app =>
    have hsame := c.hearApp_same answer
    rw [append_nil]
    refine h.set ((h.sanctioned call c was).hearApp app) ?_ ?_
    · intro p hp hi
      cases app.symm.trans (h.asked was p hp hi).1
    · rw [hsame.1, hsame.2]
      exact h.offered was
  | @hearsLocal call c result was chain =>
    have hsame := c.hearLocal_same result
    rw [append_nil]
    refine h.set ((h.sanctioned call c was).hearLocal chain) (fun p hp hi => ?_)
      fun p hp hi => absurd hi (h.unoffered was (by simp [chain]) p hp)
    rw [hsame.1, hsame.2]
    exact h.asked was p hp hi
  | concludes _ _ _ => exact h.conclude _ _

end

theorem Path.no_resolved (h : Path B yes owed s r owed' ms) (call : Nat) (result : AccessPromptResult) :
    .resolved call result ∉ r.2 := by
  induction h with
  | aside _ _ _ _ _ silent => exact fun hmem => by cases silent _ hmem
  | follows _ _ _ ihfirst ihnext => exact fun hmem => (mem_append.1 hmem).elim ihfirst ihnext
  | closesAsk _ silent => exact fun hmem => by cases silent _ hmem
  | opensAsk _ _ _ silent => exact fun hmem => by cases silent _ hmem
  | skips _ _ _ _ silent => exact fun hmem => by cases silent _ hmem
  | _ => simp [AccessState.settle]

theorem Path.count_made (h : Path B yes owed s r owed' ms) (kind : ChannelKind) (call : Nat) :
    r.2.countP (isMade kind call) = ms.count (kind, call) := by
  have none {out : List AccessOutput} (silent : ∀ o ∈ out, isSilent o = true) : out.countP (isMade kind call) = 0 :=
    ((plain_of_silent silent).count kind call).2
  induction h with
  | aside _ _ _ _ _ silent => exact none silent
  | follows _ _ _ ihfirst ihnext =>
    simp only [AccessState.andThen, countP_append, count_append, ihfirst, ihnext]
  | closesAsk _ silent => exact none silent
  | opensAsk _ _ _ silent => exact none silent
  | skips _ _ _ _ silent => exact none silent
  | @made s k i => by_cases hk : k = kind <;> by_cases hi : i = call <;> simp [isMade, hk, hi]
  | _ => simp [isMade, AccessState.settle]

/-- What the moves leave of a call: they write a channel only while it waits. -/
structure Kept (c d : AccessCall) : Prop where
  settled : d.settled = c.settled
  app : c.app = .asking ∨ d.app = c.app
  chain : c.chain = .offering ∨ d.chain = c.chain ∨ c.chain = .parking ∧ d.chain.early = false

def Keeps (s s' : AccessState) : Prop :=
  ∀ call c, s.calls.get call = some c → ∃ d, s'.calls.get call = some d ∧ Kept c d

theorem keeps_same (hcalls : s'.calls = s.calls) : Keeps s s' :=
  fun _ c hc => ⟨c, by rw [hcalls, hc], rfl, .inr rfl, .inr (.inl rfl)⟩

theorem Keeps.trans {s'' : AccessState} (h : Keeps s s') (h' : Keeps s' s'') : Keeps s s'' := by
  intro call c hc
  obtain ⟨d, hd, hkept⟩ := h call c hc
  obtain ⟨e, he, hkept'⟩ := h' call d hd
  refine ⟨e, he, hkept'.settled.trans hkept.settled, ?_, ?_⟩
  · obtain happ | happ := hkept.app
    · exact .inl happ
    · rw [← happ]
      exact hkept'.app
  · obtain hchain | hchain | ⟨hparking, hlate⟩ := hkept.chain
    · exact .inl hchain
    · rw [← hchain]
      exact hkept'.chain
    · refine .inr (.inr ⟨hparking, ?_⟩)
      obtain hchain | hchain | hchain := hkept'.chain
      · rw [hchain] at hlate
        cases hlate
      · rw [hchain]
        exact hlate
      · exact hchain.2

theorem keeps_set {d : AccessCall} (hc : s.calls.get call = some c) (hkept : Kept c d) : Keeps s (s.set call d) := by
  intro i was hwas
  rw [get_set_call]
  split
  · rename_i hi
    rw [hi, hc] at hwas
    cases hwas
    exact ⟨d, rfl, hkept⟩
  · exact ⟨was, hwas, rfl, .inr rfl, .inr (.inl rfl)⟩

theorem Path.keeps (h : Path B yes owed s r owed' ms) : Keeps s r.1 := by
  induction h with
  | aside _ _ _ _ calls _ => exact keeps_same calls
  | follows _ _ _ ihfirst ihnext => exact ihfirst.trans ihnext
  | skips was offering _ _ _ => exact keeps_set was ⟨rfl, .inr rfl, .inl offering⟩
  | lacks was asking _ => exact keeps_set was ⟨rfl, .inl asking, .inr (.inl rfl)⟩
  | @settles s kind call answer c was waits _ _ =>
    intro i d hd
    rw [get_settle, hd]
    split
    · rename_i hi
      rw [hi, was] at hd
      cases hd
      refine ⟨_, rfl, ?_⟩
      cases kind with
      | ask => exact ⟨rfl, .inl waits, .inr (.inl rfl)⟩
      | offer => exact ⟨rfl, .inr rfl, .inl waits⟩
      | park => exact ⟨rfl, .inr rfl, .inr (.inr ⟨waits, rfl⟩)⟩
    · exact ⟨d, rfl, rfl, .inr rfl, .inr (.inl rfl)⟩
  | _ => exact keeps_same rfl

/-- The mark of a call that concludes is not in a channel. -/
theorem keeps_mark (s : AccessState) (call : Nat) (result : AccessPromptResult) :
    Keeps s (s.onCall call fun c => (s.set call { c with concluded := true }, [.resolved call result])).1 := by
  unfold AccessState.onCall
  split
  · exact keeps_same rfl
  · rename_i c hc
    exact keeps_set hc ⟨rfl, .inr rfl, .inr (.inl rfl)⟩

/-- No call gets an answer so or goes back before its parking. -/
theorem Keeps.calm (h : Keeps s s') (hc : s.calls.get call = some c) :
    ∃ d, s'.calls.get call = some d ∧ d.settled = c.settled ∧ (d.chain.early = true → c.chain.early = true) := by
  obtain ⟨d, hd, hkept⟩ := h call c hc
  refine ⟨d, hd, hkept.settled, fun hearly => ?_⟩
  obtain hchain | hchain | ⟨-, hlate⟩ := hkept.chain
  · rw [hchain]
    rfl
  · rw [← hchain]
    exact hearly
  · rw [hlate] at hearly
    cases hearly

end AccessState

section
variable (authToken : String)

def HumanYes (es : List AccessEvent) (call : Nat) : Prop :=
  ∃ before e after, es = before ++ e :: after ∧
    AccessState.SaysYes authToken ((accessMachine authToken).run before) e call

variable {authToken}

/-- The event after a run is made of such moves, its own yes being one of a human's. -/
theorem goes_after {es : List AccessEvent} (h : AccessState.Consistent (HumanYes authToken es) none
      ((accessMachine authToken).outputs es) ((accessMachine authToken).run es)) (e : AccessEvent) :
    AccessState.Consistent (HumanYes authToken (es ++ [e])) none ((accessMachine authToken).outputs es)
      ((accessMachine authToken).run es) ∧
    AccessState.Goes (HumanYes authToken (es ++ [e])) ((accessMachine authToken).run es) e
      (((accessMachine authToken).run es).step authToken e) := by
  have hbefore : AccessState.Consistent (HumanYes authToken (es ++ [e])) none _ _ := h.mono fun call hyes => by
    obtain ⟨before, e', after, rfl, hyes⟩ := hyes
    exact ⟨before, e', after ++ [e], by simp, hyes⟩
  exact ⟨hbefore, hbefore.goes authToken fun call hyes => ⟨es, e, [], rfl, hyes⟩⟩

theorem consistent_run (es : List AccessEvent) :
    AccessState.Consistent (HumanYes authToken es) none ((accessMachine authToken).outputs es)
      ((accessMachine authToken).run es) := by
  induction es using List.reverseRecOn with
  | nil =>
    refine ⟨?_, ?_, ?_, ?_⟩
    · intro p hp
      cases hp
    · intro p hp
      cases hp
    · intro call c hc
      cases hc
    · intro kind call
      cases kind with
      | _ => rfl
  | append_singleton es e ih =>
    rw [run_snoc, outputs_snoc]
    obtain ⟨hbefore, hgoes⟩ := goes_after ih e
    exact hbefore.step hgoes

theorem goes_run (es : List AccessEvent) (e : AccessEvent) :
    AccessState.Goes (HumanYes authToken (es ++ [e])) ((accessMachine authToken).run es) e
      (((accessMachine authToken).run es).step authToken e) := (goes_after (consistent_run es) e).2

end

end Mtmux.Cli
