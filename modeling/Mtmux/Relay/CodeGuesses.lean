import Mtmux.Base.SlidingWindow
import Mtmux.Relay.LocalPairing

/-! How many codes an address can try. -/
namespace Mtmux.Relay
open OrderedMap Machine List

/-! ### Failures of one address -/

def lockout (failures : Nat) : Nat :=
  if failures < failuresBeforeLockout then 0
  else min (baseLockoutMs * 2 ^ (failures - failuresBeforeLockout)) maxLockoutMs

theorem lockout_succ {failures : Nat} (h : failuresBeforeLockout ≤ failures + 1) :
    (if lockout failures = 0 then baseLockoutMs else min (lockout failures * 2) maxLockoutMs) =
      lockout (failures + 1) := by
  unfold failuresBeforeLockout at h
  by_cases hfirst : failures = 4
  · subst hfirst
    rfl
  · obtain ⟨k, hk⟩ : ∃ k, failures = 5 + k := ⟨failures - 5, by omega⟩
    subst hk
    have hpow : 0 < 2 ^ k := Nat.two_pow_pos k
    have hnow : lockout (5 + k) = min (30000 * 2 ^ k) 900000 := by
      unfold lockout failuresBeforeLockout baseLockoutMs maxLockoutMs
      rw [if_neg (by omega), Nat.add_sub_cancel_left]
    have hnext : lockout (5 + k + 1) = min (30000 * (2 ^ k * 2)) 900000 := by
      unfold lockout failuresBeforeLockout baseLockoutMs maxLockoutMs
      rw [if_neg (by omega), Nat.add_assoc, Nat.add_sub_cancel_left, Nat.pow_succ]
    rw [hnow, hnext, if_neg (by omega)]
    unfold maxLockoutMs
    omega

theorem lockout_monotone : Monotone lockout := by
  refine monotone_nat_of_le_succ fun n => ?_
  by_cases h : failuresBeforeLockout ≤ n + 1
  · rw [← lockout_succ h]
    have hmax : lockout n ≤ maxLockoutMs := by
      unfold lockout
      split
      · exact Nat.zero_le _
      · exact Nat.min_le_right _ _
    split
    · omega
    · omega
  · have hnone : lockout n = 0 := by
      unfold lockout
      rw [if_pos (by omega)]
    omega

theorem lockouts_sum : maxLockoutMs ≤ ∑ i ∈ Finset.range (8 + 1), lockout (i + 1) := by decide

namespace AuthThrottle

def OnlyOf (address : String) (entries : AuthThrottle) : Prop := ∀ other, other ≠ address → entries.get other = none

def failed (entries : AuthThrottle) (address : String) : ThrottleEntry := (entries.get address).getD ⟨0, 0, 0, 0⟩

section Failures
variable {entries : AuthThrottle} {address : String} {now : Nat}

theorem OnlyOf.small (h : OnlyOf address entries) : entries.size < 256 := by
  have hsub : entries.keys ⊆ [address] := by
    intro other hother
    by_cases hsame : other = address
    · exact mem_singleton.2 hsame
    · exact absurd hother ((entries.get_eq_none other).1 (h other hsame))
  have hlength : entries.keys.length ≤ 1 := (subperm_of_subset entries.nodup hsub).length_le
  have hsize : entries.size = entries.keys.length := (length_map _).symm
  omega

theorem OnlyOf.swept (h : OnlyOf address entries) : entries.sweep now = entries := by
  unfold sweep
  rw [if_pos h.small]

theorem failed_record (haddress : address ≠ "") (h : OnlyOf address entries) :
    (entries.recordAuthFailure address now).failed address =
      ⟨(entries.failed address).failures + 1,
        if failuresBeforeLockout ≤ (entries.failed address).failures + 1 then
          now + (if (entries.failed address).lockoutMs = 0 then baseLockoutMs
            else min ((entries.failed address).lockoutMs * 2) maxLockoutMs)
        else (entries.failed address).lockedUntil,
        if failuresBeforeLockout ≤ (entries.failed address).failures + 1 then
          if (entries.failed address).lockoutMs = 0 then baseLockoutMs
          else min ((entries.failed address).lockoutMs * 2) maxLockoutMs
        else (entries.failed address).lockoutMs, now⟩ := by
  unfold recordAuthFailure
  rw [if_neg haddress, h.swept]
  unfold failed
  rw [get_set, if_pos rfl]
  cases entries.get address with
  | none => rfl
  | some entry =>
    simp only [Option.getD_some]
    split
    · rfl
    · rfl

theorem OnlyOf.record (h : OnlyOf address entries) : OnlyOf address (entries.recordAuthFailure address now) := by
  intro other hother
  unfold recordAuthFailure
  rw [h.swept]
  split
  · exact h other hother
  · rw [get_set, if_neg hother]
    exact h other hother

theorem OnlyOf.success (h : OnlyOf address entries) : OnlyOf address (entries.recordAuthSuccess address) := by
  intro other hother
  unfold recordAuthSuccess
  split
  · exact h other hother
  · rw [get_delete, if_neg hother]
    exact h other hother

theorem failed_success (haddress : address ≠ "") :
    (entries.recordAuthSuccess address).failed address = ⟨0, 0, 0, 0⟩ := by
  unfold recordAuthSuccess failed
  rw [if_neg haddress, get_delete, if_pos rfl]
  rfl

theorem unlocked (haddress : address ≠ "") (h : entries.checkAuthThrottle address now = none) :
    (entries.failed address).lockedUntil ≤ now := by
  unfold checkAuthThrottle at h
  rw [if_neg haddress] at h
  unfold failed
  split at h
  · rename_i hnone
    rw [hnone]
    exact Nat.zero_le _
  · rename_i entry hsome
    rw [hsome]
    split at h
    · assumption
    · cases h

end Failures

end AuthThrottle

/-! ### Guesses -/

def LocalPairing.guesses (digest : String → String) (s : LocalPairing) : PairingEvent → Bool
  | .body request nonce code => decide (s.requests.get request = some .reading) && (normalizeTyped code).isSome &&
      s.current.any fun offer => (offer.resolveVia digest nonce code).isNone
  | _ => false

def pairs (out : List PairingResponse) : Bool := out.any fun response => response.status = 200

/-- The times of the wrong guesses since the last pairing that succeeded, the latest one first. -/
def guessTimes (digest : String → String) (times : List Nat)
    (x : Machine.Entry LocalPairing PairingEvent PairingResponse) : List Nat :=
  if pairs x.out then [] else if x.pre.guesses digest x.event then x.pre.now :: times else times

/-- The guesses keep the distances of the lockouts. -/
structure Guessed (address : String) (s : LocalPairing) (times : List Nat) : Prop where
  only : s.throttle.OnlyOf address
  spaced : Spaced lockout times
  past : ∀ t, times.head? = some t → t ≤ s.now
  counted : times.length ≤ (s.throttle.failed address).failures
  lockoutMs : (s.throttle.failed address).lockoutMs = lockout (s.throttle.failed address).failures
  locked : ∀ t, times.head? = some t → t + lockout times.length ≤ max s.now (s.throttle.failed address).lockedUntil

section Guesses
variable {digest : String → String} {gate : Bool} {address : String} {s t : LocalPairing} {times : List Nat}

theorem Guessed.same (h : Guessed address s times) (hthrottle : t.throttle = s.throttle) (hnow : t.now = s.now) :
    Guessed address t times where
  only := by rw [hthrottle]; exact h.only
  spaced := h.spaced
  past := by rw [hnow]; exact h.past
  counted := by rw [hthrottle]; exact h.counted
  lockoutMs := by rw [hthrottle]; exact h.lockoutMs
  locked := by rw [hthrottle, hnow]; exact h.locked

theorem Guessed.tick (h : Guessed address s times) (ms : Nat) : Guessed address { s with now := s.now + ms } times where
  __ := h
  past t ht := Nat.le_add_right_of_le (h.past t ht)
  locked t ht := by
    have hlocked := h.locked t ht
    change _ ≤ max (s.now + ms) (s.throttle.failed address).lockedUntil
    omega

section
variable (haddress : address ≠ "")
include haddress

theorem failed_lockedUntil (h : Guessed address s times) :
    s.now + lockout ((s.throttle.failed address).failures + 1) ≤
      max s.now ((s.throttle.recordAuthFailure address s.now).failed address).lockedUntil := by
  rw [AuthThrottle.failed_record haddress h.only, h.lockoutMs]
  dsimp only
  split
  · rename_i hlong
    rw [lockout_succ hlong]
    exact Nat.le_max_right _ _
  · rename_i hshort
    have hnone : lockout ((s.throttle.failed address).failures + 1) = 0 := by
      unfold lockout
      rw [if_pos (by omega)]
    rw [hnone]
    exact Nat.le_max_left _ _

theorem failed_lockoutMs (h : Guessed address s times) :
    ((s.throttle.recordAuthFailure address s.now).failed address).lockoutMs =
      lockout ((s.throttle.failed address).failures + 1) := by
  rw [AuthThrottle.failed_record haddress h.only, h.lockoutMs]
  dsimp only
  split
  · rename_i hlong
    exact lockout_succ hlong
  · rename_i hshort
    unfold lockout
    rw [if_pos (by omega), if_pos (by omega)]

theorem failed_failures (h : Guessed address s times) :
    ((s.throttle.recordAuthFailure address s.now).failed address).failures =
      (s.throttle.failed address).failures + 1 := by
  rw [AuthThrottle.failed_record haddress h.only]

theorem Guessed.failed (h : Guessed address s times) :
    Guessed address { s with throttle := s.throttle.recordAuthFailure address s.now } times where
  only := h.only.record
  __ := h
  counted := by
    have hcounted := h.counted
    change _ ≤ ((s.throttle.recordAuthFailure address s.now).failed address).failures
    rw [failed_failures haddress h]
    omega
  lockoutMs := by
    change ((s.throttle.recordAuthFailure address s.now).failed address).lockoutMs =
      lockout ((s.throttle.recordAuthFailure address s.now).failed address).failures
    rw [failed_lockoutMs haddress h, failed_failures haddress h]
  locked t ht := by
    have hpast := h.past t ht
    have hgrows : lockout times.length ≤ lockout ((s.throttle.failed address).failures + 1) :=
      lockout_monotone (h.counted.trans (Nat.le_succ _))
    have hlocked := failed_lockedUntil haddress h
    change _ ≤ max s.now ((s.throttle.recordAuthFailure address s.now).failed address).lockedUntil
    omega

theorem Guessed.guess (h : Guessed address s times)
    (hfree : s.throttle.checkAuthThrottle address s.now = none) :
    Guessed address { s with throttle := s.throttle.recordAuthFailure address s.now } (s.now :: times) where
  only := h.only.record
  spaced := by
    refine ⟨fun t ht => ?_, h.spaced⟩
    have hlocked := h.locked t ht
    have hunlocked := AuthThrottle.unlocked haddress hfree
    omega
  past t ht := by
    cases ht
    exact Nat.le_refl _
  counted := by
    have hcounted := h.counted
    change (s.now :: times).length ≤ ((s.throttle.recordAuthFailure address s.now).failed address).failures
    rw [failed_failures haddress h, length_cons]
    omega
  lockoutMs := (h.failed haddress).lockoutMs
  locked t ht := by
    cases ht
    have hcounted := h.counted
    have hgrows : lockout (s.now :: times).length ≤ lockout ((s.throttle.failed address).failures + 1) :=
      lockout_monotone (by rw [length_cons]; omega)
    have hlocked := failed_lockedUntil haddress h
    change _ ≤ max s.now ((s.throttle.recordAuthFailure address s.now).failed address).lockedUntil
    omega

theorem Guessed.success (h : Guessed address s times) :
    Guessed address { s with throttle := s.throttle.recordAuthSuccess address } [] where
  only := h.only.success
  spaced := trivial
  past := fun _ ht => by cases ht
  counted := Nat.zero_le _
  lockoutMs := by
    change ((s.throttle.recordAuthSuccess address).failed address).lockoutMs =
      lockout ((s.throttle.recordAuthSuccess address).failed address).failures
    rw [AuthThrottle.failed_success haddress]
    rfl
  locked := fun _ ht => by cases ht

end

def InTime (digest : String → String) (address : String)
    (x : Machine.Entry LocalPairing PairingEvent PairingResponse) : Prop :=
  x.pre.guesses digest x.event = true → x.pre.throttle.checkAuthThrottle address x.pre.now = none

instance (x : Machine.Entry LocalPairing PairingEvent PairingResponse) : Decidable (InTime digest address x) :=
  inferInstanceAs (Decidable (_ → _))

theorem Guessed.redeem (haddress : address ≠ "") (h : Guessed address s times) {request : Nat} {nonce code : String}
    (hfree : s.guesses digest (.body request nonce code) = true → s.throttle.checkAuthThrottle address s.now = none) :
    Guessed address (s.redeem digest gate address request nonce code).1
      (if pairs (s.redeem digest gate address request nonce code).2 then []
        else if s.guesses digest (.body request nonce code) then s.now :: times else times) := by
  cases hsome : s.current with
  | none =>
    have hredeem : s.redeem digest gate address request nonce code = { s with armed := none }.invalid address request := by
      unfold LocalPairing.redeem
      rw [hsome]
    have hnot : s.guesses digest (.body request nonce code) = false := by
      simp [LocalPairing.guesses, hsome]
    rw [hredeem, hnot]
    exact (h.failed haddress).same rfl rfl
  | some offer =>
    cases hvia : offer.resolveVia digest nonce code with
    | none =>
      have hredeem : s.redeem digest gate address request nonce code =
          (s.bill code offer).invalid address request := by
        unfold LocalPairing.redeem
        rw [hsome]
        dsimp only
        rw [hvia]
      have hbill : (s.bill code offer).throttle = s.throttle ∧ (s.bill code offer).now = s.now := by
        unfold LocalPairing.bill
        split
        · exact ⟨rfl, rfl⟩
        · exact ⟨rfl, rfl⟩
      have hthrottle : ((s.bill code offer).invalid address request).1.throttle =
          s.throttle.recordAuthFailure address s.now := by
        change (s.bill code offer).throttle.recordAuthFailure address (s.bill code offer).now = _
        rw [hbill.1, hbill.2]
      rw [hredeem]
      change Guessed address _ (if s.guesses digest (.body request nonce code) then s.now :: times else times)
      split
      · rename_i hguess
        exact (h.guess haddress (hfree hguess)).same hthrottle hbill.2
      · exact (h.failed haddress).same hthrottle hbill.2
    | some via =>
      have hredeem : s.redeem digest gate address request nonce code =
          if gate then ({ s with armed := none, requests := s.requests.set request .asking }, [])
          else { s with armed := none }.paired address request := by
        unfold LocalPairing.redeem
        rw [hsome]
        dsimp only
        rw [hvia]
      have hnot : s.guesses digest (.body request nonce code) = false := by
        simp [LocalPairing.guesses, hsome, hvia]
      rw [hredeem, hnot]
      split
      · exact h.same rfl rfl
      · exact (h.success haddress).same rfl rfl

theorem guessed_step (haddress : address ≠ "") (h : Guessed address s times) {e : PairingEvent}
    (hfree : InTime digest address ((localPairing digest gate address).entry s e)) :
    Guessed address (s.step digest gate address e).1
      (guessTimes digest times ((localPairing digest gate address).entry s e)) := by
  cases e with
  | post =>
    change Guessed address (s.post address).1 (if pairs (s.post address).2 then [] else times)
    unfold LocalPairing.post
    split
    · exact h.same rfl rfl
    · exact h.same rfl rfl
  | body request nonce code =>
    change Guessed address (s.step digest gate address (.body request nonce code)).1
      (if pairs (s.step digest gate address (.body request nonce code)).2 then []
        else if s.guesses digest (.body request nonce code) then s.now :: times else times)
    by_cases hreading : s.requests.get request = some .reading
    · by_cases hempty : nonce = "" ∧ code = ""
      · have hnot : s.guesses digest (.body request nonce code) = false := by
          rw [hempty.2]
          simp [LocalPairing.guesses, normalizeTyped]
        simp only [LocalPairing.step, if_pos hreading, if_pos hempty, hnot]
        exact h.same rfl rfl
      · simp only [LocalPairing.step, if_pos hreading, if_neg hempty]
        exact h.redeem haddress hfree
    · have hnot : s.guesses digest (.body request nonce code) = false := by
        simp [LocalPairing.guesses, hreading]
      simp only [LocalPairing.step, if_neg hreading, hnot]
      exact h
  | answer request allowed =>
    change Guessed address (s.step digest gate address (.answer request allowed)).1
      (if pairs (s.step digest gate address (.answer request allowed)).2 then [] else times)
    simp only [LocalPairing.step]
    split
    · split
      · exact (h.success haddress).same rfl rfl
      · exact h.same rfl rfl
    · exact h
  | arm nonce code ttl =>
    change Guessed address (s.arm digest nonce code ttl) times
    unfold LocalPairing.arm
    split
    · exact h
    · exact h.same rfl rfl
  | tick ms => exact h.tick ms

theorem guessed_start : Guessed address .start [] where
  only := fun _ _ => rfl
  spaced := trivial
  past := fun _ ht => by cases ht
  counted := Nat.zero_le _
  lockoutMs := rfl
  locked := fun _ ht => by cases ht

theorem guessed_run (haddress : address ≠ "") {es : List PairingEvent}
    (hfree : ∀ x ∈ (localPairing digest gate address).trace es, InTime digest address x) :
    Guessed address ((localPairing digest gate address).run es)
      (((localPairing digest gate address).trace es).foldl (guessTimes digest) []) := by
  induction es using List.reverseRecOn with
  | nil => exact guessed_start
  | append_singleton es e ih =>
    rw [trace_snoc] at hfree ⊢
    rw [run_snoc, foldl_append]
    exact guessed_step haddress (ih fun x hx => hfree x (mem_append_left _ hx))
      (hfree _ (mem_append_right _ mem_cons_self))

end Guesses

/-- As long as no wrong code is compared while the address is locked out, no window as long as the longest lockout has
more than nine of them between two pairings. -/
theorem guesses_bounded (digest : String → String) (gate : Bool) (address : String) (haddress : address ≠ "")
    (es : List PairingEvent) (hfree : ∀ x ∈ (localPairing digest gate address).trace es, InTime digest address x)
    (t : Nat) : (((localPairing digest gate address).trace es).foldl (guessTimes digest) []).countP
      (fun s => decide (t ≤ s ∧ s < t + maxLockoutMs)) ≤ 9 :=
  (guessed_run haddress hfree).spaced.count_le lockout_monotone lockouts_sum t

/-- Five codes that are all let in burn the offer; the next is tried on a new one once the lockout is over. -/
def guessesTwice : List PairingEvent :=
  .arm "nonce" "483921" 600000 :: List.replicate 5 .post ++
    ((List.range 5).map fun request => .body request "" "111111") ++ [.post, .arm "other" "217443" 600000, .tick 30000,
    .post, .body 6 "" "111111"]

theorem guesses_twice_bounded : (((localPairing id true "10.0.0.2").trace guessesTwice).foldl (guessTimes id) []).countP
    (fun s => decide (0 ≤ s ∧ s < 0 + maxLockoutMs)) ≤ 9 :=
  guesses_bounded id true "10.0.0.2" (by decide) guessesTwice (by decide +kernel) 0

/-- Ten requests are let in before the first of their codes has failed. -/
def tenAtOnce : List PairingEvent :=
  .arm "nonce" "483921" 600000 :: List.replicate 10 .post ++
    ((List.range 5).map fun request => .body request "" "111111") ++ [.arm "other" "217443" 600000] ++
    ((List.range 5).map fun request => .body (request + 5) "" "111111")

theorem ten_guesses_at_once : ¬ (((localPairing id true "10.0.0.2").trace tenAtOnce).foldl (guessTimes id) []).countP
    (fun s => decide (0 ≤ s ∧ s < 0 + maxLockoutMs)) ≤ 9 := by
  decide +kernel

end Mtmux.Relay
