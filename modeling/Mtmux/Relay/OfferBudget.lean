import Mtmux.Relay.LocalPairing

/-! The one offer of a local code, with calls that overlap: a call that found the code right waits for the owner, and
meanwhile codes are armed, taken down and guessed at. -/
namespace Mtmux.Relay
open Machine List

/-- Offers are numbered as they are armed. `asking` holds the offers of the calls that wait in the gate, and `gate`
says whether there is one. -/
structure OfferSlot where
  now : Nat
  offer : Option (Nat × LocalOffer)
  armed : Nat
  gate : Bool
  asking : List Nat

inductive OfferEvent where
  | arm (nonce code : String) (ttlMs : Nat)
  | disarm
  | redeem (nonce code : String)
  | answer (offer : Nat) (allowed : Bool)
  | setGate (installed : Bool)
  | hasLive
  | tick (ms : Nat)

inductive SpentAs where
  | paired
  | refused
  | burned
  deriving DecidableEq

/-- `compared` is a credential that the offer did not match, `typed` when it has a code that is billed; `issued` is a
session token, `spent` what the listeners hear. -/
inductive OfferOut where
  | armed (offer : Nat)
  | compared (offer : Nat) (typed : Bool)
  | matched (offer : Nat)
  | issued (offer : Nat)
  | invalid
  | refused (offer : Nat)
  | spent (offer : Nat) (outcome : SpentAs)
  | live (answer : Bool)
  deriving DecidableEq

namespace OfferSlot
variable (digest : String → String)

def start : OfferSlot := ⟨0, none, 0, false, []⟩

/-- `armLocalPairing` replaces any previous offer; it throws at a code that is none. -/
def arm (nonce code : String) (ttlMs : Nat) (s : OfferSlot) : OfferSlot × List OfferOut :=
  match normalizeTyped code with
  | none => (s, [])
  | some digits =>
    ({ s with offer := some (s.armed, ⟨digest nonce, digest digits, s.now + ttlMs, 0⟩), armed := s.armed + 1 },
      [.armed s.armed])

/-- The answer is there: a token, or none. -/
def settle (id : Nat) (allowed : Bool) (s : OfferSlot) : OfferSlot × List OfferOut :=
  if allowed then (s, [.issued id, .spent id .paired]) else (s, [.spent id .refused, .refused id])

/-- What a credential that is wrong costs. -/
def bill (id : Nat) (offer : LocalOffer) (code : String) (s : OfferSlot) : OfferSlot × List OfferOut :=
  if (normalizeTyped code).isSome then
    if maxCodeAttempts ≤ offer.wrong + 1 then
      ({ s with offer := none }, [.compared id true, .spent id .burned, .invalid])
    else ({ s with offer := some (id, { offer with wrong := offer.wrong + 1 }) }, [.compared id true, .invalid])
  else (s, [.compared id false, .invalid])

/-- `redeemLocalPairing` up to the gate; with no gate there is nobody to ask. -/
def redeem (nonce code : String) (s : OfferSlot) : OfferSlot × List OfferOut :=
  match s.offer with
  | none => (s, [.invalid])
  | some (id, offer) =>
    if offer.expiresAt ≤ s.now then ({ s with offer := none }, [.invalid])
    else
      match offer.resolveVia digest nonce code with
      | none => s.bill id offer code
      | some _ =>
        if s.gate then ({ s with offer := none, asking := id :: s.asking }, [.matched id])
        else
          let r := { s with offer := none }.settle id true
          (r.1, .matched id :: r.2)

def answer (id : Nat) (allowed : Bool) (s : OfferSlot) : OfferSlot × List OfferOut :=
  if id ∈ s.asking then { s with asking := s.asking.erase id }.settle id allowed else (s, [])

def hasLive (s : OfferSlot) : OfferSlot × List OfferOut :=
  match s.offer with
  | none => (s, [.live false])
  | some (_, offer) => if offer.expiresAt ≤ s.now then ({ s with offer := none }, [.live false]) else (s, [.live true])

def step (s : OfferSlot) : OfferEvent → OfferSlot × List OfferOut
  | .arm nonce code ttlMs => s.arm digest nonce code ttlMs
  | .disarm => ({ s with offer := none }, [])
  | .redeem nonce code => s.redeem digest nonce code
  | .answer id allowed => s.answer id allowed
  | .setGate installed => ({ s with gate := installed }, [])
  | .hasLive => s.hasLive
  | .tick ms => ({ s with now := s.now + ms }, [])

def held (s : OfferSlot) (id : Nat) : Option LocalOffer :=
  match s.offer with
  | none => none
  | some (n, offer) => if n = id then some offer else none

/-- Some credential would be right for this offer now. -/
def Redeemable (s : OfferSlot) (id : Nat) : Prop :=
  ∃ nonce code, .matched id ∈ (s.redeem digest nonce code).2

end OfferSlot

def offers (digest : String → String) : Machine OfferSlot OfferEvent OfferOut := ⟨.start, OfferSlot.step digest⟩

namespace OfferSlot
variable {digest : String → String} {s : OfferSlot} {id : Nat}

inductive Redeemed (s : OfferSlot) : OfferSlot × List OfferOut → Prop where
  | empty (hoffer : s.offer = none) : Redeemed s (s, [.invalid])
  | expired {n : Nat} {offer : LocalOffer} (hoffer : s.offer = some (n, offer)) (hover : offer.expiresAt ≤ s.now) :
      Redeemed s ({ s with offer := none }, [.invalid])
  | unscanned {n : Nat} {offer : LocalOffer} (hoffer : s.offer = some (n, offer)) (hlive : s.now < offer.expiresAt) :
      Redeemed s (s, [.compared n false, .invalid])
  | burned {n : Nat} {offer : LocalOffer} (hoffer : s.offer = some (n, offer)) (hlive : s.now < offer.expiresAt)
      (hlast : maxCodeAttempts ≤ offer.wrong + 1) :
      Redeemed s ({ s with offer := none }, [.compared n true, .spent n .burned, .invalid])
  | wrong {n : Nat} {offer : LocalOffer} (hoffer : s.offer = some (n, offer)) (hlive : s.now < offer.expiresAt)
      (hroom : ¬ maxCodeAttempts ≤ offer.wrong + 1) :
      Redeemed s ({ s with offer := some (n, { offer with wrong := offer.wrong + 1 }) }, [.compared n true, .invalid])
  | asked {n : Nat} {offer : LocalOffer} (hoffer : s.offer = some (n, offer)) (hlive : s.now < offer.expiresAt) :
      Redeemed s ({ s with offer := none, asking := n :: s.asking }, [.matched n])
  | issued {n : Nat} {offer : LocalOffer} (hoffer : s.offer = some (n, offer)) (hlive : s.now < offer.expiresAt) :
      Redeemed s ({ s with offer := none }, [.matched n, .issued n, .spent n .paired])

variable {n : Nat} {offer : LocalOffer}

theorem billed (hoffer : s.offer = some (n, offer)) (hlive : s.now < offer.expiresAt)
    (code : String) : Redeemed s (s.bill n offer code) := by
  unfold bill
  split
  · split
    · exact .burned hoffer hlive ‹_›
    · exact .wrong hoffer hlive ‹_›
  · exact .unscanned hoffer hlive

theorem redeemed (digest : String → String) (s : OfferSlot) (nonce code : String) :
    Redeemed s (s.redeem digest nonce code) := by
  cases hoffer : s.offer with
  | none =>
    simp only [redeem, hoffer]
    exact .empty hoffer
  | some p =>
    obtain ⟨n, offer⟩ := p
    by_cases hexpired : offer.expiresAt ≤ s.now
    · simp only [redeem, hoffer, if_pos hexpired]
      exact .expired hoffer hexpired
    · have hlive : s.now < offer.expiresAt := Nat.lt_of_not_le hexpired
      cases hvia : offer.resolveVia digest nonce code with
      | none =>
        simp only [redeem, hoffer, if_neg hexpired, hvia]
        exact billed hoffer hlive code
      | some via =>
        by_cases hgate : s.gate = true
        · simp only [redeem, hoffer, if_neg hexpired, hvia, if_pos hgate]
          exact .asked hoffer hlive
        · simp only [redeem, hoffer, if_neg hexpired, hvia, if_neg hgate, settle, if_true]
          exact .issued hoffer hlive

theorem Redeemable.live (h : s.Redeemable digest id) : ∃ offer, s.offer = some (id, offer) ∧ s.now < offer.expiresAt := by
  obtain ⟨nonce, code, hmatched⟩ := h
  have hred := redeemed digest s nonce code
  generalize s.redeem digest nonce code = r at hred hmatched
  cases hred with
  | empty _ | expired _ _ | unscanned _ _ | burned _ _ _ | wrong _ _ _ => simp at hmatched
  | @asked n offer hoffer hlive =>
    have hid : id = n := by simpa using hmatched
    exact ⟨offer, hid ▸ hoffer, hlive⟩
  | @issued n offer hoffer hlive =>
    have hid : id = n := by simpa using hmatched
    exact ⟨offer, hid ▸ hoffer, hlive⟩

/-- The books of one offer: what was matched, guessed and issued, against what the slot and the gate hold. -/
structure Kept (s : OfferSlot) (out : List OfferOut) (id : Nat) : Prop where
  fresh : s.armed ≤ id → out.count (.matched id) = 0 ∧ out.count (.compared id true) = 0
  slotArmed : ∀ offer, s.offer = some (id, offer) → id < s.armed
  slot : ∀ offer, s.offer = some (id, offer) →
    out.count (.matched id) = 0 ∧ out.count (.compared id true) = offer.wrong ∧ offer.wrong < maxCodeAttempts
  matched : out.count (.matched id) ≤ 1
  wrongs : out.count (.compared id true) ≤ maxCodeAttempts
  issued : out.count (.issued id) + s.asking.count id ≤ out.count (.matched id)

variable {out : List OfferOut}

theorem Kept.quiet {s s' : OfferSlot} {new : List OfferOut} (h : Kept s out id)
    (hmatched : new.count (.matched id) = 0) (hwrongs : new.count (.compared id true) = 0)
    (hissued : new.count (.issued id) = 0) (hoffer : s'.offer = none ∨ s'.offer = s.offer) (harmed : s'.armed = s.armed)
    (hasking : s'.asking = s.asking) : Kept s' (out ++ new) id := by
  have hslot : ∀ offer, s'.offer = some (id, offer) → s.offer = some (id, offer) := by
    intro offer he
    cases hoffer with
    | inl hnone => cases hnone.symm.trans he
    | inr hsame => exact hsame.symm.trans he
  refine ⟨?_, fun offer he => harmed ▸ h.slotArmed offer (hslot offer he), fun offer he => ?_, ?_, ?_, ?_⟩
  · rw [harmed, count_append, count_append, hmatched, hwrongs]
    exact h.fresh
  · rw [count_append, count_append, hmatched, hwrongs]
    exact h.slot offer (hslot offer he)
  · rw [count_append, hmatched]
    exact h.matched
  · rw [count_append, hwrongs]
    exact h.wrongs
  · rw [count_append, count_append, hmatched, hissued, hasking]
    exact h.issued

theorem arm_kept (h : ∀ id, Kept s out id) (nonce code : String) (ttlMs : Nat) (id : Nat) :
    Kept (s.arm digest nonce code ttlMs).1 (out ++ (s.arm digest nonce code ttlMs).2) id := by
  unfold arm
  cases normalizeTyped code with
  | none => exact (h id).quiet rfl rfl rfl (.inr rfl) rfl rfl
  | some digits =>
    have hid := h id
    refine ⟨fun hle => ?_, fun offer he => ?_, fun offer he => ?_, ?_, ?_, ?_⟩
    · simp only [count_append, count_cons, count_nil]
      exact hid.fresh (by simp only at hle; omega)
    · have hn : s.armed = id := congrArg Prod.fst (Option.some.inj he)
      simp only
      omega
    · have hn : s.armed = id := congrArg Prod.fst (Option.some.inj he)
      have hoffer := congrArg Prod.snd (Option.some.inj he)
      simp only at hoffer
      rw [← hoffer]
      simp only [count_append, count_cons, count_nil]
      have hnone := hid.fresh (Nat.le_of_eq hn)
      exact ⟨hnone.1, hnone.2, by decide⟩
    · simpa [count_append, count_cons] using hid.matched
    · simpa [count_append, count_cons] using hid.wrongs
    · simpa [count_append, count_cons] using hid.issued

theorem compared_kept {more : List OfferOut} {slot : Option (Nat × LocalOffer)} (hoffer : s.offer = some (n, offer))
    (hslot : slot = none ∨ slot = some (n, { offer with wrong := offer.wrong + 1 }) ∧ offer.wrong + 1 < maxCodeAttempts)
    (hmore : ∀ id, more.count (.matched id) = 0 ∧ more.count (.compared id true) = 0 ∧ more.count (.issued id) = 0)
    (h : ∀ id, Kept s out id) (id : Nat) : Kept { s with offer := slot } (out ++ .compared n true :: more) id := by
  have hid := h id
  have harmed := (h n).slotArmed offer hoffer
  obtain ⟨hmatched, hwrongs, hless⟩ := (h n).slot offer hoffer
  have hthis : ∀ o, slot = some (id, o) → n = id ∧ o.wrong = offer.wrong + 1 ∧ offer.wrong + 1 < maxCodeAttempts := by
    rintro o rfl
    cases hslot with
    | inl hnone => cases hnone
    | inr hsome =>
      cases hsome.1
      exact ⟨rfl, rfl, hsome.2⟩
  refine ⟨fun hle => ?_, fun o he => ?_, fun o he => ?_, ?_, ?_, ?_⟩
  · have hne : n ≠ id := by
      simp only at hle
      omega
    simpa [count_append, count_cons, hmore, hne] using hid.fresh hle
  · rw [← (hthis o he).1]
    exact harmed
  · obtain ⟨rfl, hone, hroom⟩ := hthis o he
    simp [count_append, hmore, hmatched, hwrongs, hone, hroom]
  · simpa [count_append, count_cons, hmore] using hid.matched
  · by_cases hn : n = id
    · simp only [← hn, count_append, count_cons, hmore, hwrongs]
      simp
      omega
    · simpa [count_append, count_cons, hmore, hn] using hid.wrongs
  · simpa [count_append, count_cons, hmore] using hid.issued

theorem match_kept {new : List OfferOut} (hoffer : s.offer = some (n, offer))
    (h : ∀ id, Kept s out id) (s' : OfferSlot) (hslot : s'.offer = none) (harmed : s'.armed = s.armed)
    (hmatched : ∀ id, new.count (.matched id) = if n = id then 1 else 0)
    (hwrongs : ∀ id, new.count (.compared id true) = 0)
    (hissued : ∀ id, new.count (.issued id) + s'.asking.count id = s.asking.count id + if n = id then 1 else 0)
    (id : Nat) : Kept s' (out ++ new) id := by
  have hid := h id
  have hbefore := (h n).slot offer hoffer
  have hissuedId := hissued id
  refine ⟨fun hle => ?_, fun o he => ?_, fun o he => ?_, ?_, ?_, ?_⟩
  · rw [harmed] at hle
    have hne : n ≠ id := by
      have hless := (h n).slotArmed offer hoffer
      omega
    rw [count_append, count_append, hmatched, hwrongs, if_neg hne]
    exact hid.fresh hle
  · cases hslot.symm.trans he
  · cases hslot.symm.trans he
  · rw [count_append, hmatched]
    by_cases hn : n = id
    · have hnone : out.count (.matched id) = 0 := hn ▸ hbefore.1
      rw [if_pos hn]
      omega
    · rw [if_neg hn]
      exact hid.matched
  · rw [count_append, hwrongs]
    exact hid.wrongs
  · have hle := hid.issued
    rw [count_append, count_append, hmatched]
    omega

theorem redeem_kept (h : ∀ id, Kept s out id) (nonce code : String) (id : Nat) :
    Kept (s.redeem digest nonce code).1 (out ++ (s.redeem digest nonce code).2) id := by
  have hred := redeemed digest s nonce code
  generalize s.redeem digest nonce code = r at hred
  cases hred with
  | empty hoffer => exact (h id).quiet (by simp) (by simp) (by simp) (.inr rfl) rfl rfl
  | expired hoffer hover => exact (h id).quiet (by simp) (by simp) (by simp) (.inl rfl) rfl rfl
  | unscanned hoffer hlive => exact (h id).quiet (by simp) (by simp) (by simp) (.inr rfl) rfl rfl
  | burned hoffer hlive hlast => exact compared_kept hoffer (.inl rfl) (by simp) h id
  | wrong hoffer hlive hroom => exact compared_kept hoffer (.inr ⟨rfl, Nat.lt_of_not_le hroom⟩) (by simp) h id
  | @asked n offer hoffer hlive =>
    refine match_kept hoffer h { s with offer := none, asking := n :: s.asking } rfl rfl (fun id => ?_)
      (fun id => ?_) (fun id => ?_) id
    · simp [count_cons]
    · simp
    · simp [count_cons]
  | @issued n offer hoffer hlive =>
    refine match_kept hoffer h { s with offer := none } rfl rfl (fun id => ?_) (fun id => ?_) (fun id => ?_) id
    · simp [count_cons]
    · simp
    · simp [count_cons, Nat.add_comm]

theorem answer_kept (h : ∀ id, Kept s out id) (n : Nat) (allowed : Bool) (id : Nat) :
    Kept (s.answer n allowed).1 (out ++ (s.answer n allowed).2) id := by
  have hid := h id
  unfold answer
  split
  · rename_i hasking
    have hcount : ((s.asking.erase n).count id) + (if n = id then 1 else 0) = s.asking.count id := by
      by_cases hn : n = id
      · rw [if_pos hn, ← hn, count_erase_self]
        have hpos := count_pos_iff.2 hasking
        omega
      · rw [if_neg hn, count_erase_of_ne (fun e => hn e.symm), Nat.add_zero]
    have hissued := hid.issued
    unfold settle
    split
    all_goals
      refine ⟨fun hle => ?_, hid.slotArmed, fun o he => ?_, ?_, ?_, ?_⟩
      · simpa [count_append, count_cons] using hid.fresh hle
      · simpa [count_append, count_cons] using hid.slot o he
      · simpa [count_append, count_cons] using hid.matched
      · simpa [count_append, count_cons] using hid.wrongs
      · simp [count_append, count_cons]
        omega
  · exact hid.quiet rfl rfl rfl (.inr rfl) rfl rfl

theorem step_kept (h : ∀ id, Kept s out id) (e : OfferEvent) (id : Nat) :
    Kept (s.step digest e).1 (out ++ (s.step digest e).2) id := by
  cases e with
  | arm nonce code ttlMs => exact arm_kept h nonce code ttlMs id
  | disarm => exact (h id).quiet rfl rfl rfl (.inl rfl) rfl rfl
  | redeem nonce code => exact redeem_kept h nonce code id
  | answer n allowed => exact answer_kept h n allowed id
  | setGate installed => exact (h id).quiet rfl rfl rfl (.inr rfl) rfl rfl
  | hasLive =>
    simp only [step, hasLive]
    split
    · exact (h id).quiet (by simp) (by simp) (by simp) (.inr rfl) rfl rfl
    · split
      · exact (h id).quiet (by simp) (by simp) (by simp) (.inl rfl) rfl rfl
      · exact (h id).quiet (by simp) (by simp) (by simp) (.inr rfl) rfl rfl
  | tick ms => exact (h id).quiet rfl rfl rfl (.inr rfl) rfl rfl

theorem run_kept (digest : String → String) (es : List OfferEvent) :
    ∀ id, Kept ((offers digest).run es) ((offers digest).outputs es) id := by
  induction es using List.reverseRecOn with
  | nil =>
    intro id
    exact ⟨fun _ => ⟨rfl, rfl⟩, fun o he => (by cases he), fun o he => (by cases he), Nat.zero_le _, Nat.zero_le _, Nat.le_refl _⟩
  | append_singleton es e ih =>
    intro id
    rw [run_snoc, outputs_snoc]
    exact step_kept ih e id

def Gone (s : OfferSlot) (id : Nat) : Prop :=
  id < s.armed ∧ ∀ offer, s.offer = some (id, offer) → offer.expiresAt ≤ s.now

theorem Gone.not_redeemable (h : s.Gone id) : ¬ s.Redeemable digest id := by
  intro hredeemable
  obtain ⟨offer, hoffer, hlive⟩ := hredeemable.live
  exact absurd (h.2 offer hoffer) (Nat.not_le.2 hlive)

theorem Gone.emptied {s' : OfferSlot} (h : id < s.armed) (harmed : s'.armed = s.armed) (hoffer : s'.offer = none) :
    s'.Gone id := by
  refine ⟨harmed ▸ h, fun offer he => ?_⟩
  cases hoffer.symm.trans he

theorem Gone.step (h : s.Gone id) (e : OfferEvent) : (s.step digest e).1.Gone id := by
  cases e with
  | arm nonce code ttlMs =>
    simp only [OfferSlot.step, arm]
    cases normalizeTyped code with
    | none => exact h
    | some digits =>
      refine ⟨Nat.lt_succ_of_lt h.1, fun offer he => ?_⟩
      have hn : s.armed = id := congrArg Prod.fst (Option.some.inj he)
      exact absurd h.1 (by omega)
  | disarm => exact Gone.emptied h.1 rfl rfl
  | redeem nonce code =>
    simp only [OfferSlot.step]
    have hred := redeemed digest s nonce code
    generalize s.redeem digest nonce code = r at hred
    cases hred with
    | empty hoffer => exact h
    | expired hoffer hover => exact Gone.emptied h.1 rfl rfl
    | unscanned hoffer hlive => exact h
    | burned hoffer hlive hlast => exact Gone.emptied h.1 rfl rfl
    | @wrong n offer hoffer hlive hroom =>
      refine ⟨h.1, fun o he => ?_⟩
      have hn : n = id := congrArg Prod.fst (Option.some.inj he)
      exact absurd (h.2 offer (hn ▸ hoffer)) (Nat.not_le.2 hlive)
    | asked _ _ | issued _ _ => exact Gone.emptied h.1 rfl rfl
  | answer n allowed =>
    simp only [OfferSlot.step, answer, settle]
    split
    · split <;> exact h
    · exact h
  | setGate installed => exact h
  | hasLive =>
    simp only [OfferSlot.step, hasLive]
    split
    · exact h
    · split
      · exact Gone.emptied h.1 rfl rfl
      · exact h
  | tick ms => exact ⟨h.1, fun offer he => Nat.le_trans (h.2 offer he) (Nat.le_add_right _ _)⟩

/-- A step that matches an offer, burns it, takes it down, replaces it or lets it expire. -/
inductive Ends (x : Machine.Entry OfferSlot OfferEvent OfferOut) (id : Nat) : Prop where
  | matched (h : .matched id ∈ x.out)
  | burned (h : .spent id .burned ∈ x.out)
  | disarmed (offer : LocalOffer) (h : x.pre.offer = some (id, offer)) (hevent : x.event = .disarm)
  | replaced (offer : LocalOffer) (h : x.pre.offer = some (id, offer)) (n : Nat) (harmed : .armed n ∈ x.out)
  | expired (offer : LocalOffer) (h : x.pre.offer = some (id, offer)) (hnow : offer.expiresAt ≤ x.post.now)

theorem redeem_ends (hless : ∀ n offer, s.offer = some (n, offer) → n < s.armed) (nonce code : String)
    (h : .matched id ∈ (s.redeem digest nonce code).2 ∨ .spent id .burned ∈ (s.redeem digest nonce code).2) :
    (s.redeem digest nonce code).1.Gone id := by
  have hred := redeemed digest s nonce code
  generalize s.redeem digest nonce code = r at hred h
  cases hred with
  | empty _ | expired _ _ | unscanned _ _ => simp at h
  | @burned n offer hoffer hlive hlast =>
    have hid : id = n := by simpa using h
    exact Gone.emptied (hid ▸ hless n offer hoffer) rfl rfl
  | wrong hoffer hlive hroom => simp at h
  | @asked n offer hoffer hlive =>
    have hid : id = n := by simpa using h
    exact Gone.emptied (hid ▸ hless n offer hoffer) rfl rfl
  | @issued n offer hoffer hlive =>
    have hid : id = n := by simpa using h
    exact Gone.emptied (hid ▸ hless n offer hoffer) rfl rfl

theorem redeem_of_ends {e : OfferEvent}
    (h : .matched id ∈ (s.step digest e).2 ∨ .spent id .burned ∈ (s.step digest e).2) :
    ∃ nonce code, e = .redeem nonce code := by
  cases e with
  | arm nonce code ttlMs =>
    simp only [step, arm] at h
    cases hcode : normalizeTyped code <;> simp [hcode] at h
  | redeem nonce code => exact ⟨nonce, code, rfl⟩
  | answer n allowed =>
    simp only [step, answer, settle] at h
    split at h
    · split at h <;> simp at h
    · simp at h
  | hasLive =>
    simp only [step, hasLive] at h
    split at h
    · simp at h
    · split at h <;> simp at h
  | _ => simp [step] at h

/-- Only time moves the clock. -/
theorem step_now (s : OfferSlot) (e : OfferEvent) : (s.step digest e).1.now = s.now ∨ ∃ ms, e = .tick ms := by
  cases e with
  | tick ms => exact .inr ⟨ms, rfl⟩
  | arm nonce code ttlMs =>
    refine .inl ?_
    simp only [step, arm]
    cases normalizeTyped code <;> rfl
  | redeem nonce code =>
    refine .inl ?_
    simp only [step]
    have hred := redeemed digest s nonce code
    generalize s.redeem digest nonce code = r at hred
    cases hred <;> rfl
  | answer n allowed =>
    refine .inl ?_
    simp only [step, answer, settle]
    split
    · split <;> rfl
    · rfl
  | hasLive =>
    refine .inl ?_
    simp only [step, hasLive]
    split
    · rfl
    · split <;> rfl
  | disarm | setGate _ => exact .inl rfl

theorem Ends.gone (hless : ∀ n offer, s.offer = some (n, offer) → n < s.armed) {e : OfferEvent}
    (h : Ends ((offers digest).entry s e) id) : (s.step digest e).1.Gone id := by
  have hends : .matched id ∈ (s.step digest e).2 ∨ .spent id .burned ∈ (s.step digest e).2 →
      (s.step digest e).1.Gone id := by
    intro hout
    obtain ⟨nonce, code, rfl⟩ := redeem_of_ends hout
    exact redeem_ends hless nonce code hout
  cases h with
  | matched hmatched => exact hends (.inl hmatched)
  | burned hburned => exact hends (.inr hburned)
  | disarmed offer hoffer hevent =>
    have he : e = .disarm := hevent
    rw [he]
    exact Gone.emptied (hless id offer hoffer) rfl rfl
  | replaced offer hoffer n harmed =>
    have hid := hless id offer hoffer
    have hout : .armed n ∈ (s.step digest e).2 := harmed
    cases e with
    | arm nonce code ttlMs =>
      simp only [step, arm] at hout ⊢
      cases hcode : normalizeTyped code with
      | none => simp [hcode] at hout
      | some digits =>
        refine ⟨Nat.lt_succ_of_lt hid, fun o he => ?_⟩
        have hn : s.armed = id := congrArg Prod.fst (Option.some.inj he)
        omega
    | redeem nonce code =>
      exfalso
      simp only [step] at hout
      have hred := redeemed digest s nonce code
      generalize s.redeem digest nonce code = r at hred hout
      cases hred <;> simp at hout
    | answer m allowed =>
      exfalso
      simp only [step, answer, settle] at hout
      split at hout
      · split at hout <;> simp at hout
      · simp at hout
    | hasLive =>
      exfalso
      simp only [step, hasLive] at hout
      split at hout
      · simp at hout
      · split at hout <;> simp at hout
    | _ => simp [step] at hout
  | expired offer hoffer hnow =>
    have hid := hless id offer hoffer
    have hover : offer.expiresAt ≤ (s.step digest e).1.now := hnow
    cases step_now s e with
    | inl hsame =>
      have hgone : s.Gone id := by
        refine ⟨hid, fun o he => ?_⟩
        have hoffer' : s.offer = some (id, offer) := hoffer
        cases hoffer'.symm.trans he
        exact hsame ▸ hover
      exact hgone.step e
    | inr htick =>
      obtain ⟨ms, rfl⟩ := htick
      refine ⟨hid, fun o he => ?_⟩
      have hoffer' : s.offer = some (id, offer) := hoffer
      cases hoffer'.symm.trans he
      exact hover

theorem run_gone (es es' : List OfferEvent) (h : ((offers digest).run es).Gone id) :
    ((offers digest).run (es ++ es')).Gone id := by
  induction es' using List.reverseRecOn with
  | nil => simpa using h
  | append_singleton es' e ih =>
    rw [← append_assoc, run_snoc]
    exact ih.step e

theorem matched_gone (es : List OfferEvent) (h : .matched id ∈ (offers digest).outputs es) :
    ((offers digest).run es).Gone id := by
  induction es using List.reverseRecOn with
  | nil => cases h
  | append_singleton es e ih =>
    rw [run_snoc]
    rw [outputs_snoc] at h
    cases mem_append.1 h with
    | inl hbefore => exact (ih hbefore).step e
    | inr hnow =>
      have hless := fun n offer hoffer => (run_kept digest es n).slotArmed offer hoffer
      exact Ends.gone hless (.matched hnow)

theorem redeem_held (nonce code : String) {typed : Bool}
    (h : .compared n typed ∈ (s.redeem digest nonce code).2) (hid : id ≠ n) :
    (s.redeem digest nonce code).1.held id = s.held id := by
  have hother : ∀ {m : Nat} {offer : LocalOffer}, s.offer = some (m, offer) → n = m → ¬ m = id ∧ s.held id = none := by
    rintro m offer hoffer rfl
    have hne : ¬ n = id := fun e => hid e.symm
    exact ⟨hne, by simp only [held, hoffer, if_neg hne]⟩
  have hred := redeemed digest s nonce code
  generalize s.redeem digest nonce code = r at hred h
  cases hred with
  | empty _ | unscanned _ _ => rfl
  | burned hoffer hlive hlast =>
    obtain ⟨-, hbefore⟩ := hother hoffer (by simpa using And.left (by simpa using h))
    exact hbefore.symm
  | wrong hoffer hlive hroom =>
    obtain ⟨hne, hbefore⟩ := hother hoffer (by simpa using And.left (by simpa using h))
    rw [hbefore]
    simp only [held, if_neg hne]
  | _ => simp at h

theorem answer_held (s : OfferSlot) (n : Nat) (allowed : Bool) : (s.answer n allowed).1.offer = s.offer := by
  unfold answer settle
  split
  · split <;> rfl
  · rfl

/-- The budget of every offer, over any interleaving of calls and answers. -/
theorem offers_bounded (digest : String → String) (es : List OfferEvent) :
    (∀ id, ((offers digest).outputs es).count (.issued id) ≤ 1) ∧
    (∀ id, ((offers digest).outputs es).count (.compared id true) ≤ maxCodeAttempts) ∧
    (∀ id before e after, es = before ++ e :: after → Ends ((offers digest).entry ((offers digest).run before) e) id →
      ¬ ((offers digest).run es).Redeemable digest id) ∧
    (∀ id ∈ ((offers digest).run es).asking, ¬ ((offers digest).run es).Redeemable digest id) ∧ (∀ nonce code n typed,
      .compared n typed ∈ ((offers digest).step ((offers digest).run es) (.redeem nonce code)).2 → ∀ id, id ≠ n →
        ((offers digest).run (es ++ [.redeem nonce code])).held id = ((offers digest).run es).held id) ∧ ∀ n allowed id,
      ((offers digest).run (es ++ [.answer n allowed])).held id = ((offers digest).run es).held id := by
  have hkept := run_kept digest es
  refine ⟨fun id => ?_, fun id => (hkept id).wrongs, fun id before e after hes hends => ?_, fun id hasking => ?_,
    fun nonce code n typed hcompared id hid => ?_, fun n allowed id => ?_⟩
  · have hissued := (hkept id).issued
    have hmatched := (hkept id).matched
    omega
  · have hless := fun n offer hoffer => (run_kept digest before n).slotArmed offer hoffer
    have hgone : ((offers digest).run (before ++ [e])).Gone id := by
      rw [run_snoc]
      exact hends.gone hless
    have hlater := run_gone (before ++ [e]) after hgone
    rw [hes, append_cons]
    exact hlater.not_redeemable
  · have hissued := (hkept id).issued
    have hcount := count_pos_iff.2 hasking
    have hmatched : .matched id ∈ (offers digest).outputs es := count_pos_iff.1 (by omega)
    exact (matched_gone es hmatched).not_redeemable
  · rw [run_snoc]
    exact redeem_held nonce code hcompared hid
  · rw [run_snoc]
    have hsame := answer_held ((offers digest).run es) n allowed
    unfold held
    rw [← hsame]
    rfl

end OfferSlot
end Mtmux.Relay
