import Mtmux.Relay.CodeGuesses

/-! How often an address can try to sign in, whatever the other addresses do. -/
namespace Mtmux.Relay
open OrderedMap Machine List

/-- `took` is the time from the check of an attempt to what is recorded of it. -/
inductive SignIn where
  | attempt (address : String) (good : Bool) (took : Nat)
  | tick (ms : Nat)

inductive SignInVerdict where
  | refused (address : String) (retryAfterMs : Nat)
  | failed (address : String) (time : Nat)
  | succeeded (address : String)
  deriving DecidableEq

structure ThrottleState where
  entries : AuthThrottle
  now : Nat

abbrev SignInEntry : Type := Machine.Entry ThrottleState SignIn SignInVerdict

namespace ThrottleState

/-- `authenticateMessage`, as far as the throttle goes: `good` tells whether the token is one. -/
def attempt (s : ThrottleState) (address : String) (good : Bool) (took : Nat) :
    ThrottleState × List SignInVerdict :=
  match s.entries.checkAuthThrottle address s.now with
  | some retryAfterMs => (s, [.refused address retryAfterMs])
  | none =>
    if good then (⟨s.entries.recordAuthSuccess address, s.now + took⟩, [.succeeded address])
    else (⟨s.entries.recordAuthFailure address (s.now + took), s.now + took⟩, [.failed address (s.now + took)])

def step (s : ThrottleState) : SignIn → ThrottleState × List SignInVerdict
  | .attempt address good took => s.attempt address good took
  | .tick ms => ({ s with now := s.now + ms }, [])

end ThrottleState

def signIns : Machine ThrottleState SignIn SignInVerdict := ⟨⟨.empty, 0⟩, ThrottleState.step⟩

def failedAt (address : String) : SignInVerdict → Option Nat
  | .failed other time => if other = address then some time else none
  | _ => none

/-- No more addresses are tracked than the table is meant for. -/
def Capped (es : List SignIn) : Prop :=
  ∀ x ∈ signIns.trace es, x.pre.entries.size ≤ throttleMaxEntries ∧ x.post.entries.size ≤ throttleMaxEntries

/-- In a step that records a failure while the table is large: an address that has not failed for an hour. -/
def forgets (address : String) (x : SignInEntry) : Bool :=
  decide (256 ≤ x.pre.entries.size) && x.out.any (fun o => match o with | .failed other _ => other ≠ "" | _ => false) &&
    (x.pre.entries.get address).any fun entry => decide (throttleTtlMs < x.post.now - entry.touchedAt)

def streak (forgotten : String → SignInEntry → Bool) (address : String) (n : Nat) (x : SignInEntry) : Nat :=
  if .succeeded address ∈ x.out then 0
  else (if forgotten address x then 0 else n) + (x.out.filterMap (failedAt address)).length

structure GuessesBounded (forgotten : String → SignInEntry → Bool) (es : List SignIn) (address : String) : Prop where
  window : ∀ stretch, stretch <:+: signIns.outputs es → .succeeded address ∉ stretch →
    ∀ t, (stretch.filterMap (failedAt address)).countP (fun s => decide (t ≤ s ∧ s < t + maxLockoutMs)) ≤ 9
  locks : ∀ before e after time, es = before ++ e :: after →
    .failed address time ∈ (signIns.entry (signIns.run before) e).out →
      ∀ k, k = (signIns.trace (before ++ [e])).foldl (streak forgotten address) 0 → failuresBeforeLockout ≤ k →
        ∃ entry, (signIns.run (before ++ [e])).entries.get address = some entry ∧
          entry.lockedUntil = time + min (baseLockoutMs * 2 ^ (k - failuresBeforeLockout)) maxLockoutMs
  kept : ∀ x ∈ signIns.trace es, ∀ other good took, x.event = .attempt other good took → other ≠ address →
    ∀ entry, x.pre.entries.get address = some entry → x.post.now < entry.lockedUntil →
      x.post.entries.get address = some entry

/-! ### One address -/

namespace AuthThrottle
variable {entries : AuthThrottle} {address : String} {now : Nat}

theorem get_sweep (hcap : entries.size ≤ throttleMaxEntries) :
    (entries.sweep now).get address = (entries.get address).filter fun entry =>
      !(decide (256 ≤ entries.size) && decide (throttleTtlMs < now - entry.touchedAt) && decide (entry.lockedUntil ≤ now)) := by
  unfold sweep
  split
  · rename_i hsmall
    have hlarge : ¬ 256 ≤ entries.size := by omega
    cases entries.get address with
    | none => rfl
    | some entry => simp [Option.filter, hlarge]
  · rename_i hlarge
    have hlarge : 256 ≤ entries.size := by omega
    dsimp only
    have hfresh : (entries.filter fun _ entry =>
        !(decide (throttleTtlMs < now - entry.touchedAt) && decide (entry.lockedUntil ≤ now))).size ≤ entries.size :=
      length_filter_le _ _
    rw [Nat.sub_eq_zero_of_le (hfresh.trans hcap), take_zero]
    refine Option.ext fun entry => ?_
    rw [get_filter, get_filter, Option.filter_eq_some_iff]
    simp [hlarge]

end AuthThrottle

/-- What is known of an address that is tracked: its entry says how often it failed, and when last. -/
def EntryOf (recent : List Nat) (now : Nat) : Option ThrottleEntry → Prop
  | none => recent = []
  | some entry => recent.head? = some entry.touchedAt ∧ entry.touchedAt ≤ now ∧ entry.failures = recent.length ∧
      entry.lockoutMs = lockout recent.length ∧
      entry.lockedUntil = if recent.length < failuresBeforeLockout then 0 else entry.touchedAt + lockout recent.length

/-- The failures of an address since its last success, the latest one first: those before it was forgotten are more
than an hour older than the others. -/
structure Failing (address : String) (s : ThrottleState) (times : List Nat) (n : Nat) : Prop where
  split : ∃ recent old, times = recent ++ old ∧ recent.length = n ∧ Spaced lockout recent ∧
    (∀ t, old.countP (fun s => decide (t ≤ s ∧ s < t + maxLockoutMs)) ≤ 9) ∧
    (∀ x ∈ old, x + throttleTtlMs < s.now ∧ ∀ y ∈ recent, x + throttleTtlMs < y) ∧
    EntryOf recent s.now (s.entries.get address)

section Failing
variable {address : String} {s : ThrottleState} {times : List Nat} {n : Nat}

theorem lockout_le (n : Nat) : lockout n ≤ maxLockoutMs := by
  unfold lockout
  split
  · exact Nat.zero_le _
  · exact Nat.min_le_right _ _

theorem Failing.window (h : Failing address s times n) (t : Nat) :
    times.countP (fun s => decide (t ≤ s ∧ s < t + maxLockoutMs)) ≤ 9 := by
  obtain ⟨recent, old, rfl, -, hspaced, hold, hfar, -⟩ := h.split
  rw [countP_append]
  have hrecent := hspaced.count_le lockout_monotone lockouts_sum t
  by_cases hboth : ∃ x ∈ old, t ≤ x ∧ x < t + maxLockoutMs
  · obtain ⟨x, hx, hle, -⟩ := hboth
    have hnone : recent.countP (fun s => decide (t ≤ s ∧ s < t + maxLockoutMs)) = 0 := by
      refine countP_eq_zero.2 fun y hy hin => ?_
      have hlate := (hfar x hx).2 y hy
      have hin := of_decide_eq_true hin
      unfold throttleTtlMs at hlate
      unfold maxLockoutMs at hin
      omega
    have hcount := hold t
    omega
  · have hnone : old.countP (fun s => decide (t ≤ s ∧ s < t + maxLockoutMs)) = 0 := by
      refine countP_eq_zero.2 fun x hx => ?_
      simpa using fun hle => Nat.not_lt.1 fun hlt => hboth ⟨x, hx, hle, hlt⟩
    omega

variable {recent : List Nat}

theorem EntryOf.later {entry : Option ThrottleEntry} {now later : Nat} (h : EntryOf recent now entry)
    (hle : now ≤ later) : EntryOf recent later entry := by
  cases entry with
  | none => exact h
  | some entry => exact ⟨h.1, h.2.1.trans hle, h.2.2⟩

theorem Failing.later (h : Failing address s times n) {t : ThrottleState} (hle : s.now ≤ t.now)
    (hget : t.entries.get address = s.entries.get address) : Failing address t times n := by
  obtain ⟨recent, old, htimes, hlen, hspaced, hold, hfar, hentry⟩ := h.split
  refine ⟨recent, old, htimes, hlen, hspaced, hold, fun x hx => ⟨?_, (hfar x hx).2⟩, hget ▸ hentry.later hle⟩
  exact Nat.lt_of_lt_of_le (hfar x hx).1 hle

/-- An address that is forgotten has nothing recent left. -/
theorem Failing.forgotten (h : Failing address s times n) {entry : ThrottleEntry}
    (hget : s.entries.get address = some entry) {t : ThrottleState} (hle : s.now ≤ t.now)
    (hstale : throttleTtlMs < t.now - entry.touchedAt) (hnone : t.entries.get address = none) :
    Failing address t times 0 := by
  have hwindow := h.window
  obtain ⟨recent, old, rfl, hlen, hspaced, hold, hfar, hentry⟩ := h.split
  rw [hget] at hentry
  refine ⟨[], recent ++ old, rfl, rfl, trivial, hwindow, ?_, by rw [hnone]; rfl⟩
  intro x hx
  refine ⟨?_, fun y hy => by cases hy⟩
  cases mem_append.1 hx with
  | inl hrecent =>
    have hlast : x ≤ entry.touchedAt := by
      cases recent with
      | nil => cases hrecent
      | cons r earlier =>
        have hr : r = entry.touchedAt := Option.some.inj hentry.1
        subst hr
        cases mem_cons.1 hrecent with
        | inl hthis => exact Nat.le_of_eq hthis
        | inr hearlier => exact hspaced.le hearlier
    omega
  | inr hx => exact Nat.lt_of_lt_of_le (hfar x hx).1 hle

def bumped (found : Option ThrottleEntry) (now : Nat) : ThrottleEntry :=
  let entry := found.getD ⟨0, 0, 0, now⟩
  let lockoutMs := if failuresBeforeLockout ≤ entry.failures + 1 then
      if entry.lockoutMs = 0 then baseLockoutMs else min (entry.lockoutMs * 2) maxLockoutMs
    else entry.lockoutMs
  ⟨entry.failures + 1, if failuresBeforeLockout ≤ entry.failures + 1 then now + lockoutMs else entry.lockedUntil,
    lockoutMs, now⟩

theorem record_bumped (entries : AuthThrottle) (haddress : address ≠ "") (now : Nat) :
    entries.recordAuthFailure address now =
      (entries.sweep now).set address (bumped ((entries.sweep now).get address) now) := by
  unfold AuthThrottle.recordAuthFailure
  rw [if_neg haddress]
  rfl

variable {time : Nat}

theorem EntryOf.bumped {found : Option ThrottleEntry} {now : Nat} (h : EntryOf recent now found)
    (hspaced : Spaced lockout recent) (hfree : ∀ entry, found = some entry → entry.lockedUntil ≤ time) (hle : now ≤ time) :
    Spaced lockout (time :: recent) ∧ EntryOf (time :: recent) time (some (bumped found time)) := by
  cases found with
  | none =>
    have hnil : recent = [] := h
    subst hnil
    exact ⟨⟨(fun s hs => by cases hs), trivial⟩, rfl, Nat.le_refl _, rfl, rfl, rfl⟩
  | some entry =>
    obtain ⟨hlast, hpast, hfailures, hlockout, hlocked⟩ := h
    have hfree := hfree entry rfl
    have hlong : failuresBeforeLockout ≤ entry.failures + 1 ↔ failuresBeforeLockout ≤ recent.length + 1 := by
      rw [hfailures]
    have hnext : (if failuresBeforeLockout ≤ recent.length + 1 then
        if entry.lockoutMs = 0 then baseLockoutMs else min (entry.lockoutMs * 2) maxLockoutMs
      else entry.lockoutMs) = lockout (recent.length + 1) := by
      rw [hlockout]
      split
      · rename_i hlong
        exact lockout_succ hlong
      · unfold lockout
        rw [if_pos (by omega), if_pos (by omega)]
    refine ⟨⟨fun s hs => ?_, hspaced⟩, rfl, Nat.le_refl _, ?_, ?_, ?_⟩
    · rw [hlast] at hs
      cases hs
      rw [hlocked] at hfree
      split at hfree
      · rename_i hshort
        unfold lockout
        rw [if_pos hshort]
        omega
      · exact hfree
    · simp only [Relay.bumped, Option.getD_some, hfailures, length_cons]
    · simp only [Relay.bumped, Option.getD_some, hfailures, length_cons]
      exact hnext
    · simp only [Relay.bumped, Option.getD_some, hfailures, length_cons, hnext]
      by_cases hshort : recent.length + 1 < failuresBeforeLockout
      · have hunlocked : recent.length < failuresBeforeLockout := by omega
        rw [if_neg (by omega), if_pos hshort, hlocked, if_pos hunlocked]
      · rw [if_pos (by omega), if_neg hshort]

theorem EntryOf.unlocked {entry : ThrottleEntry} {now : Nat}
    (h : EntryOf recent now (some entry)) (hstale : throttleTtlMs < time - entry.touchedAt) :
    entry.lockedUntil ≤ time := by
  have hlocked := h.2.2.2.2
  have hle := lockout_le recent.length
  unfold throttleTtlMs at hstale
  unfold maxLockoutMs at hle
  rw [hlocked]
  split
  · exact Nat.zero_le _
  · omega

/-- Has the address not failed for so long that a sweep at this time forgets it? -/
def stale (s : ThrottleState) (address : String) (time : Nat) : Bool :=
  decide (256 ≤ s.entries.size) &&
    (s.entries.get address).any fun entry => decide (throttleTtlMs < time - entry.touchedAt)

theorem Failing.get_swept (h : Failing address s times n) (hcap : s.entries.size ≤ throttleMaxEntries) (time : Nat) :
    (s.entries.sweep time).get address = if stale s address time then none else s.entries.get address := by
  obtain ⟨recent, old, -, -, -, -, -, hentry⟩ := h.split
  rw [AuthThrottle.get_sweep hcap, stale]
  cases hget : s.entries.get address with
  | none => simp
  | some entry =>
    rw [hget] at hentry
    by_cases hold : throttleTtlMs < time - entry.touchedAt
    · have hopen := hentry.unlocked hold
      by_cases hlarge : 256 ≤ s.entries.size
      · simp [Option.filter, hold, hopen, hlarge]
      · simp [Option.filter, hlarge]
    · simp [Option.filter, hold]

theorem Failing.sweeps (h : Failing address s times n) (hcap : s.entries.size ≤ throttleMaxEntries)
    (hle : s.now ≤ time) :
    Failing address ⟨s.entries.sweep time, time⟩ times (if stale s address time then 0 else n) := by
  have hswept := h.get_swept hcap time
  cases hcase : stale s address time with
  | false =>
    rw [hcase] at hswept
    exact h.later hle hswept
  | true =>
    rw [hcase] at hswept
    cases hget : s.entries.get address with
    | none => simp [stale, hget] at hcase
    | some entry =>
      have hstale : 256 ≤ s.entries.size ∧ throttleTtlMs < time - entry.touchedAt := by simpa [stale, hget] using hcase
      exact h.forgotten hget hle hstale.2 hswept

theorem Failing.fails (haddress : address ≠ "") (h : Failing address s times n)
    (hcap : s.entries.size ≤ throttleMaxEntries) (hle : s.now ≤ time)
    (hfree : ∀ entry, s.entries.get address = some entry → entry.lockedUntil ≤ time) :
    Failing address ⟨s.entries.recordAuthFailure address time, time⟩ (time :: times)
      ((if stale s address time then 0 else n) + 1) := by
  have hswept := h.get_swept hcap time
  obtain ⟨recent, old, htimes, hlen, hspaced, hold, hfar, hentry⟩ := (h.sweeps hcap hle).split
  have hfree : ∀ entry, (s.entries.sweep time).get address = some entry → entry.lockedUntil ≤ time := by
    intro entry hget
    rw [hswept] at hget
    split at hget
    · cases hget
    · exact hfree entry hget
  have hnext := hentry.bumped hspaced hfree (Nat.le_refl _)
  refine ⟨time :: recent, old, by rw [htimes]; rfl, by rw [← hlen]; rfl, hnext.1, hold, fun x hx => ⟨(hfar x hx).1, ?_⟩, ?_⟩
  · intro y hy
    cases mem_cons.1 hy with
    | inl hthis => exact hthis ▸ (hfar x hx).1
    | inr hearlier => exact (hfar x hx).2 y hearlier
  · change EntryOf _ _ ((s.entries.recordAuthFailure address time).get address)
    rw [record_bumped s.entries haddress, get_set, if_pos rfl]
    exact hnext.2

/-- A failure of another address. -/
theorem Failing.other (h : Failing address s times n) (hcap : s.entries.size ≤ throttleMaxEntries) {other : String}
    (hother : other ≠ address) {time : Nat} (hle : s.now ≤ time) :
    Failing address ⟨s.entries.recordAuthFailure other time, time⟩ times
      (if other ≠ "" ∧ stale s address time then 0 else n) := by
  by_cases hnamed : other = ""
  · rw [if_neg (fun hboth => hboth.1 hnamed)]
    refine h.later hle ?_
    unfold AuthThrottle.recordAuthFailure
    rw [if_pos hnamed]
  · have hswept := (h.sweeps hcap hle).later (t := ⟨s.entries.recordAuthFailure other time, time⟩) (Nat.le_refl _) ?_
    · simpa [hnamed] using hswept
    · change (s.entries.recordAuthFailure other time).get address = (s.entries.sweep time).get address
      rw [record_bumped s.entries hnamed, get_set, if_neg (Ne.symm hother)]

theorem Failing.succeeds (haddress : address ≠ "") (s : ThrottleState) (time : Nat) :
    Failing address ⟨s.entries.recordAuthSuccess address, time⟩ [] 0 := by
  refine ⟨[], [], rfl, rfl, trivial, fun t => Nat.zero_le _, fun x hx => (by cases hx), ?_⟩
  unfold AuthThrottle.recordAuthSuccess
  rw [if_neg haddress, get_delete, if_pos rfl]
  rfl

theorem Failing.other_succeeds (h : Failing address s times n) {other : String} (hother : other ≠ address)
    (hle : s.now ≤ time) : Failing address ⟨s.entries.recordAuthSuccess other, time⟩ times n := by
  refine h.later hle ?_
  unfold AuthThrottle.recordAuthSuccess
  split
  · rfl
  · rw [get_delete, if_neg (Ne.symm hother)]

end Failing

/-! ### Runs -/

def failTimes (address : String) (times : List Nat) (x : SignInEntry) : List Nat :=
  if .succeeded address ∈ x.out then [] else (x.out.filterMap (failedAt address)).reverse ++ times

/-- What one attempt comes to. -/
inductive Attempted (s : ThrottleState) (address : String) (took : Nat) : ThrottleState × List SignInVerdict → Prop where
  | refused (retryAfterMs : Nat) : Attempted s address took (s, [.refused address retryAfterMs])
  | succeeded : Attempted s address took
      (⟨s.entries.recordAuthSuccess address, s.now + took⟩, [.succeeded address])
  | failed (hfree : s.entries.checkAuthThrottle address s.now = none) : Attempted s address took
      (⟨s.entries.recordAuthFailure address (s.now + took), s.now + took⟩, [.failed address (s.now + took)])

theorem attempted (s : ThrottleState) (address : String) (good : Bool) (took : Nat) :
    Attempted s address took (s.attempt address good took) := by
  unfold ThrottleState.attempt
  cases hfree : s.entries.checkAuthThrottle address s.now with
  | some retryAfterMs => exact .refused retryAfterMs
  | none =>
    cases good with
    | true => exact .succeeded
    | false => exact .failed hfree

variable {address : String}

theorem free_of_check {entries : AuthThrottle} (haddress : address ≠ "") {now : Nat}
    (h : entries.checkAuthThrottle address now = none) (entry : ThrottleEntry) (hget : entries.get address = some entry) :
    entry.lockedUntil ≤ now := by
  have hopen := AuthThrottle.unlocked haddress h
  unfold AuthThrottle.failed at hopen
  rwa [hget] at hopen

variable {s : ThrottleState}

theorem failing_step (haddress : address ≠ "") {times : List Nat} {n : Nat}
    (h : Failing address s times n) (hcap : s.entries.size ≤ throttleMaxEntries) (e : SignIn) :
    Failing address (signIns.step s e).1 (failTimes address times (signIns.entry s e))
      (streak forgets address n (signIns.entry s e)) := by
  cases e with
  | tick ms =>
    have hlater := h.later (t := { s with now := s.now + ms }) (Nat.le_add_right _ _) rfl
    simpa [failTimes, streak, forgets, signIns, Machine.entry, ThrottleState.step] using hlater
  | attempt other good took =>
    have hattempt := attempted s other good took
    change Failing address (s.attempt other good took).1
      (failTimes address times ⟨s, _, (s.attempt other good took).2, (s.attempt other good took).1⟩)
      (streak forgets address n ⟨s, _, (s.attempt other good took).2, (s.attempt other good took).1⟩)
    generalize s.attempt other good took = r at hattempt ⊢
    have hle : s.now ≤ s.now + took := Nat.le_add_right _ _
    cases hattempt with
    | refused retryAfterMs => simpa [failTimes, streak, forgets, failedAt, filterMap_cons] using h
    | succeeded =>
      by_cases hsame : other = address
      · subst hsame
        simpa [failTimes, streak] using Failing.succeeds haddress s (s.now + took)
      · simpa [failTimes, streak, forgets, failedAt, filterMap_cons, Ne.symm hsame] using h.other_succeeds hsame hle
    | failed hfree =>
      by_cases hsame : other = address
      · subst hsame
        have hnext := h.fails haddress hcap hle fun entry hget => (free_of_check haddress hfree entry hget).trans hle
        simpa [failTimes, streak, forgets, failedAt, haddress, stale] using hnext
      · simpa [failTimes, streak, forgets, failedAt, hsame, stale, and_comm, and_assoc] using h.other hcap hsame hle

/-! ### How many addresses are tracked -/

theorem size_record_le (entries : AuthThrottle) (address : String) (now : Nat) :
    (entries.recordAuthFailure address now).size ≤ entries.size + 1 := by
  by_cases hnamed : address = ""
  · unfold AuthThrottle.recordAuthFailure
    rw [if_pos hnamed]
    exact Nat.le_succ _
  · rw [record_bumped entries hnamed]
    have hset := (entries.sweep now).size_set_le address (bumped ((entries.sweep now).get address) now)
    have hsweep : (entries.sweep now).size ≤ entries.size := by
      unfold AuthThrottle.sweep
      split
      · exact Nat.le_refl _
      · exact (length_filter_le _ _).trans (length_filter_le _ _)
    omega

theorem size_step_le (s : ThrottleState) (e : SignIn) : (signIns.step s e).1.entries.size ≤ s.entries.size + 1 := by
  cases e with
  | tick ms => exact Nat.le_succ _
  | attempt address good took =>
    have hattempt := attempted s address good took
    change (s.attempt address good took).1.entries.size ≤ _
    generalize s.attempt address good took = r at hattempt ⊢
    cases hattempt with
    | refused retryAfterMs => exact Nat.le_succ _
    | succeeded =>
      change (s.entries.recordAuthSuccess address).size ≤ _
      unfold AuthThrottle.recordAuthSuccess
      split
      · exact Nat.le_succ _
      · exact (s.entries.size_delete_le address).trans (Nat.le_succ _)
    | failed hfree => exact size_record_le _ _ _

theorem size_run_le (es : List SignIn) : (signIns.run es).entries.size ≤ es.length := by
  induction es using List.reverseRecOn with
  | nil => exact Nat.le_refl _
  | append_singleton es e ih =>
    rw [run_snoc, length_append]
    have hstep := size_step_le (signIns.run es) e
    simp only [length_singleton]
    omega

theorem capped_of_length {es : List SignIn} (h : es.length ≤ throttleMaxEntries) : Capped es := by
  intro x hx
  obtain ⟨before, e, after, hes, rfl⟩ := (signIns.mem_trace es x).1 hx
  have hpost := size_run_le (before ++ [e])
  have hpre := size_run_le before
  rw [run_snoc] at hpost
  simp only [hes, length_append, length_cons, length_nil] at h hpost
  exact ⟨hpre.trans (by omega), Nat.le_trans hpost (by omega)⟩

section Runs
variable {address : String} {es : List SignIn}

theorem Capped.begins {e : SignIn} (h : Capped (es ++ [e])) : Capped es := by
  intro x hx
  refine h x ?_
  rw [trace_snoc]
  exact mem_append_left _ hx

theorem Capped.size (h : Capped es) : (signIns.run es).entries.size ≤ throttleMaxEntries := by
  cases es using List.reverseRecOn with
  | nil => exact Nat.zero_le _
  | append_singleton es e =>
    have hlast := (h (signIns.entry (signIns.run es) e) (by rw [trace_snoc]; simp)).2
    rwa [run_snoc]

theorem failing_run (haddress : address ≠ "") (hcap : Capped es) :
    Failing address (signIns.run es) ((signIns.trace es).foldl (failTimes address) [])
      ((signIns.trace es).foldl (streak forgets address) 0) := by
  induction es using List.reverseRecOn with
  | nil => exact ⟨[], [], rfl, rfl, trivial, fun t => Nat.zero_le _, fun x hx => (by cases hx), rfl⟩
  | append_singleton es e ih =>
    have hbefore := hcap.begins
    rw [run_snoc, trace_snoc, foldl_append, foldl_append]
    exact failing_step haddress (ih hbefore) hbefore.size e

theorem step_out (s : ThrottleState) (e : SignIn) : (signIns.step s e).2 = [] ∨ ∃ o, (signIns.step s e).2 = [o] := by
  cases e with
  | tick ms => exact .inl rfl
  | attempt address good took =>
    refine .inr ?_
    have hattempt := attempted s address good took
    change ∃ o, (s.attempt address good took).2 = [o]
    generalize s.attempt address good took = r at hattempt ⊢
    cases hattempt with
    | refused _ | succeeded | failed _ => exact ⟨_, rfl⟩

variable {stretch : List SignInVerdict}

/-- The failures since the last success, seen from the end of what was answered. -/
theorem failTimes_suffix {p : List SignInVerdict} (h : signIns.outputs es = p ++ stretch)
    (hnone : .succeeded address ∉ stretch) :
    (stretch.filterMap (failedAt address)).reverse <+: (signIns.trace es).foldl (failTimes address) [] := by
  induction es using List.reverseRecOn generalizing stretch with
  | nil =>
    rw [outputs_nil] at h
    obtain ⟨-, rfl⟩ := append_eq_nil_iff.1 h.symm
    exact nil_prefix
  | append_singleton es e ih =>
    rw [outputs_snoc] at h
    rw [trace_snoc, foldl_append]
    change _ <+: failTimes address _ (signIns.entry (signIns.run es) e)
    have hentry : (signIns.entry (signIns.run es) e).out = (signIns.step (signIns.run es) e).2 := rfl
    cases step_out (signIns.run es) e with
    | inl hquiet =>
      rw [hquiet, append_nil] at h
      rw [failTimes, hentry, hquiet]
      exact ih h hnone
    | inr hone =>
      obtain ⟨o, hone⟩ := hone
      cases stretch using List.reverseRecOn with
      | nil => exact nil_prefix
      | append_singleton stretch last _ =>
        rw [hone, ← append_assoc] at h
        obtain ⟨hbefore, hlast⟩ := append_inj' h rfl
        obtain rfl := singleton_inj.1 hlast
        rw [failTimes, hentry, hone, if_neg (fun hmem => hnone (mem_append_right _ hmem)), filterMap_append,
          reverse_append]
        exact prefix_append_right_inj _ |>.2 (ih hbefore fun hmem => hnone (mem_append_left _ hmem))

theorem window_run (haddress : address ≠ "") (hcap : Capped es) {p q : List SignInVerdict}
    (h : signIns.outputs es = p ++ stretch ++ q) (hnone : .succeeded address ∉ stretch) (t : Nat) :
    (stretch.filterMap (failedAt address)).countP (fun s => decide (t ≤ s ∧ s < t + maxLockoutMs)) ≤ 9 := by
  induction es using List.reverseRecOn generalizing q with
  | nil =>
    rw [outputs_nil] at h
    obtain ⟨hnil, -⟩ := append_eq_nil_iff.1 h.symm
    obtain ⟨-, rfl⟩ := append_eq_nil_iff.1 hnil
    exact Nat.zero_le _
  | append_singleton es e ih =>
    cases q using List.reverseRecOn with
    | nil =>
      rw [append_nil] at h
      have hprefix := failTimes_suffix h hnone
      have hwindow := (failing_run haddress hcap).window t
      refine Nat.le_trans ?_ hwindow
      rw [← countP_reverse]
      exact hprefix.sublist.countP_le
    | append_singleton q last _ =>
      rw [outputs_snoc] at h
      cases step_out (signIns.run es) e with
      | inl hquiet =>
        rw [hquiet, append_nil] at h
        exact ih hcap.begins h
      | inr hone =>
        obtain ⟨o, hone⟩ := hone
        rw [hone, ← append_assoc] at h
        exact ih hcap.begins (append_inj' h rfl).1

theorem locks_run (haddress : address ≠ "") {before : List SignIn} {e : SignIn} (hcap : Capped (before ++ [e])) {time : Nat}
    (hfailed : .failed address time ∈ (signIns.entry (signIns.run before) e).out) {k : Nat}
    (hk : k = (signIns.trace (before ++ [e])).foldl (streak forgets address) 0) (hlong : failuresBeforeLockout ≤ k) :
    ∃ entry, (signIns.run (before ++ [e])).entries.get address = some entry ∧
      entry.lockedUntil = time + min (baseLockoutMs * 2 ^ (k - failuresBeforeLockout)) maxLockoutMs := by
  obtain ⟨recent, old, htimes, hlen, -, -, -, hentry⟩ := (failing_run haddress hcap).split
  rw [← hk] at hlen
  have hlast : ((signIns.trace (before ++ [e])).foldl (failTimes address) []).head? = some time := by
    rw [trace_snoc, foldl_append]
    change (failTimes address _ (signIns.entry (signIns.run before) e)).head? = _
    cases step_out (signIns.run before) e with
    | inl hquiet =>
      change _ ∈ (signIns.step (signIns.run before) e).2 at hfailed
      rw [hquiet] at hfailed
      cases hfailed
    | inr hone =>
      obtain ⟨o, hone⟩ := hone
      have hout : (signIns.entry (signIns.run before) e).out = [o] := hone
      rw [hout, mem_singleton] at hfailed
      subst hfailed
      rw [failTimes, hout]
      simp [failedAt]
  cases recent with
  | nil =>
    unfold failuresBeforeLockout at hlong
    simp only [length_nil] at hlen
    omega
  | cons r earlier =>
    rw [htimes] at hlast
    have hr : r = time := Option.some.inj hlast
    cases hget : (signIns.run (before ++ [e])).entries.get address with
    | none =>
      rw [hget] at hentry
      cases hentry
    | some entry =>
      rw [hget] at hentry
      have htouched : r = entry.touchedAt := Option.some.inj hentry.1
      refine ⟨entry, rfl, ?_⟩
      rw [hentry.2.2.2.2, hlen, if_neg (Nat.not_lt.2 hlong), ← htouched, hr]
      unfold lockout
      rw [if_neg (Nat.not_lt.2 hlong)]

theorem kept_run (haddress : address ≠ "") (hcap : Capped es) {x : SignInEntry} (hx : x ∈ signIns.trace es) {other : String}
    {good : Bool} {took : Nat} (he : x.event = .attempt other good took) (hother : other ≠ address) {entry : ThrottleEntry}
    (hget : x.pre.entries.get address = some entry) (hlocked : x.post.now < entry.lockedUntil) :
    x.post.entries.get address = some entry := by
  obtain ⟨before, e, after, hes, rfl⟩ := (signIns.mem_trace es x).1 hx
  obtain rfl : e = .attempt other good took := he
  have hcap : Capped before := forall_trace_before hcap hes
  have hfailing := failing_run haddress hcap
  change (signIns.run before).entries.get address = some entry at hget
  change ((signIns.run before).attempt other good took).1.now < entry.lockedUntil at hlocked
  change ((signIns.run before).attempt other good took).1.entries.get address = some entry
  have hattempt := attempted (signIns.run before) other good took
  generalize (signIns.run before).attempt other good took = r at hattempt hlocked ⊢
  cases hattempt with
  | refused retryAfterMs => exact hget
  | succeeded =>
    change ((signIns.run before).entries.recordAuthSuccess other).get address = some entry
    unfold AuthThrottle.recordAuthSuccess
    split
    · exact hget
    · rw [get_delete, if_neg (Ne.symm hother)]
      exact hget
  | failed hfree =>
    change ((signIns.run before).entries.recordAuthFailure other _).get address = some entry
    by_cases hnamed : other = ""
    · unfold AuthThrottle.recordAuthFailure
      rw [if_pos hnamed]
      exact hget
    · rw [record_bumped _ hnamed, get_set, if_neg (Ne.symm hother), hfailing.get_swept hcap.size, if_neg, hget]
      intro hstale
      obtain ⟨recent, old, -, -, -, -, -, hentry⟩ := hfailing.split
      rw [hget] at hentry
      have hold : throttleTtlMs < (signIns.run before).now + took - entry.touchedAt := by
        simp only [stale, hget, Option.any_some, Bool.and_eq_true, decide_eq_true_eq] at hstale
        exact hstale.2
      exact absurd hlocked (Nat.not_lt.2 (hentry.unlocked hold))

end Runs

/-- Guessing is bounded for every address, in every run that stays within the table, when an address that a large table
has forgotten after an hour without a failure starts anew. -/
theorem guesses_bounded_by_lockouts (es : List SignIn) (hcap : Capped es) (address : String) (haddress : address ≠ "") :
    GuessesBounded forgets es address where
  window stretch hinfix hnone t := by
    obtain ⟨p, q, hout⟩ := hinfix
    exact window_run haddress hcap hout.symm hnone t
  locks before e after time hes hfailed k hk hlong := by
    exact locks_run haddress (forall_trace_before hcap (by rw [hes, append_cons])) hfailed hk hlong
  kept x hx other good took he hother entry hget hlocked := kept_run haddress hcap hx he hother hget hlocked

/-- The fifth failure locks the address for a second, and the attempt in that second is not evaluated. -/
theorem guesses_bounded_of_five :
    GuessesBounded forgets (List.replicate 5 (.attempt "::1" false 20) ++ [.attempt "::1" false 20, .tick 2000,
      .attempt "::1" true 20]) "::1" :=
  guesses_bounded_by_lockouts _ (capped_of_length (by decide)) "::1" (by decide)

/-! ### Forgotten failures -/

def localAddress (n : Nat) : String := "10.0.0." ++ n.repr

/-- Four failures of one address, one of each of 255 others, and an hour later its fifth. -/
def forgottenRun : List SignIn :=
  List.replicate 4 (.attempt "::1" false 0) ++ (List.range 255).map (fun n => .attempt (localAddress n) false 0) ++
    [.tick 3600001, .attempt "::1" false 0]

theorem localAddress_injective : Function.Injective localAddress := by
  intro m n h
  exact repr_inj ((String.append_right_inj _).1 h)

theorem localAddress_ne (n : Nat) : localAddress n ≠ "" ∧ localAddress n ≠ "::1" := by
  constructor
  · intro h
    have htext := congrArg String.toList h
    simp [localAddress, String.toList_append] at htext
  · intro h
    have htext := congrArg String.toList h
    simp [localAddress, String.toList_append] at htext

/-- Nothing is forgotten. -/
def never (_ : String) (_ : SignInEntry) : Bool := false

/-- The four failures, and the first of the others. -/
def crowd (n : Nat) : List SignIn :=
  List.replicate 4 (.attempt "::1" false 0) ++ (List.range n).map fun n => .attempt (localAddress n) false 0

theorem crowd_succ (n : Nat) : crowd (n + 1) = crowd n ++ [.attempt (localAddress n) false 0] := by
  rw [crowd, crowd, range_succ, map_append, append_assoc]
  rfl

theorem forgottenRun_eq : forgottenRun = crowd 255 ++ [.tick 3600001] ++ [.attempt "::1" false 0] := by
  rw [forgottenRun, crowd, append_assoc _ [_] [_]]
  rfl

/-- While the crowd grows nothing is swept. -/
structure Crowded (n : Nat) (s : ThrottleState) : Prop where
  now : s.now = 0
  size : s.entries.size = n + 1
  first : s.entries.get "::1" = some ⟨4, 0, 0, 0⟩
  rest : ∀ m, n ≤ m → s.entries.get (localAddress m) = none

theorem checked_of_none {entries : AuthThrottle} (h : entries.get address = none) (now : Nat) :
    entries.checkAuthThrottle address now = none := by
  unfold AuthThrottle.checkAuthThrottle
  split
  · rfl
  · rw [h]

theorem fresh_attempt {n : Nat} (h : Crowded n s) (hn : n < 255) : s.attempt (localAddress n) false 0 =
      (⟨s.entries.set (localAddress n) (bumped none 0), 0⟩, [.failed (localAddress n) 0]) := by
  have hsmall : s.entries.sweep 0 = s.entries := by
    unfold AuthThrottle.sweep
    rw [if_pos (by rw [h.size]; omega)]
  unfold ThrottleState.attempt
  rw [checked_of_none (h.rest n (Nat.le_refl n)), h.now]
  simp only [Bool.false_eq_true, if_false, Nat.zero_add]
  rw [record_bumped s.entries (localAddress_ne n).1, hsmall, h.rest n (Nat.le_refl n)]

theorem crowded_run {n : Nat} (hn : n ≤ 255) :
    Crowded n (signIns.run (crowd n)) ∧ (signIns.trace (crowd n)).foldl (streak never "::1") 0 = 4 := by
  induction n with
  | zero =>
    refine ⟨⟨rfl, by decide, by decide, fun m _ => ?_⟩, by decide⟩
    rw [get_eq_none]
    have hkeys : (signIns.run (crowd 0)).entries.keys = ["::1"] := by decide
    rw [hkeys, mem_singleton]
    exact (localAddress_ne m).2
  | succ n ih =>
    obtain ⟨hcrowd, hstreak⟩ := ih (by omega)
    have hattempt := fresh_attempt hcrowd (by omega)
    have hstep : signIns.step (signIns.run (crowd n)) (.attempt (localAddress n) false 0) = _ := hattempt
    rw [crowd_succ, run_snoc, trace_snoc, foldl_append, hstreak, Machine.entry, hstep]
    refine ⟨⟨rfl, ?_, ?_, fun m hm => ?_⟩, ?_⟩
    · rw [size_set_new (hcrowd.rest n (Nat.le_refl n)), hcrowd.size]
    · rw [get_set, if_neg (Ne.symm (localAddress_ne n).2)]
      exact hcrowd.first
    · have hother : localAddress m ≠ localAddress n := fun h => by
        have hsame := localAddress_injective h
        omega
      rw [get_set, if_neg hother]
      exact hcrowd.rest m (by omega)
    · simp [streak, never, failedAt, (localAddress_ne n).2]

theorem step_attempt (s : ThrottleState) (address : String) (good : Bool) (took : Nat) :
    signIns.step s (.attempt address good took) = s.attempt address good took :=
  rfl

theorem fifth_attempt (h : Crowded 255 s) : (ThrottleState.attempt ⟨s.entries, 3600001⟩ "::1" false 0) =
      (⟨(s.entries.sweep 3600001).set "::1" (bumped none 3600001), 3600001⟩, [.failed "::1" 3600001]) := by
  have hopen : s.entries.checkAuthThrottle "::1" 3600001 = none := by
    unfold AuthThrottle.checkAuthThrottle
    rw [if_neg (by decide), h.first]
    rfl
  have hforgotten : (s.entries.sweep 3600001).get "::1" = none := by
    have hcap : s.entries.size ≤ throttleMaxEntries := by
      rw [h.size]
      decide
    rw [AuthThrottle.get_sweep hcap, h.first, h.size]
    decide
  unfold ThrottleState.attempt
  simp only [hopen, Bool.false_eq_true, if_false, Nat.add_zero]
  rw [record_bumped s.entries (by decide), hforgotten]

/-- The fifth failure of an address does not lock it when the table has forgotten the first four. -/
theorem lockout_forgotten : Capped forgottenRun ∧ ¬ GuessesBounded never forgottenRun "::1" := by
  have hcap : Capped forgottenRun := capped_of_length (by
    rw [forgottenRun, length_append, length_append, length_map, length_range]
    decide)
  refine ⟨hcap, fun hbounded => ?_⟩
  have hrun := forgottenRun_eq
  obtain ⟨hcrowd, hstreak⟩ := crowded_run (n := 255) (by decide)
  generalize crowd 255 = es at hrun hcrowd hstreak
  have hticked : signIns.run (es ++ [.tick 3600001]) = ⟨(signIns.run es).entries, 3600001⟩ := by
    rw [run_snoc]
    change (⟨_, (signIns.run es).now + 3600001⟩ : ThrottleState) = _
    rw [hcrowd.now, Nat.zero_add]
  have hstep := fifth_attempt hcrowd
  rw [← hticked, ← step_attempt] at hstep
  have hfive : (signIns.trace (es ++ [.tick 3600001] ++ [.attempt "::1" false 0])).foldl (streak never "::1") 0 = 5 := by
    rw [trace_snoc, trace_snoc, foldl_append, foldl_append, hstreak]
    simp only [Machine.entry, hstep]
    simp [streak, never, failedAt, signIns, ThrottleState.step]
  have hfailed : .failed "::1" 3600001 ∈
      (signIns.entry (signIns.run (es ++ [.tick 3600001])) (.attempt "::1" false 0)).out := by
    rw [Machine.entry, hstep]
    exact mem_singleton.2 rfl
  obtain ⟨entry, hget, hlocked⟩ := hbounded.locks _ _ [] 3600001 hrun hfailed 5 hfive.symm (by decide)
  rw [run_snoc, hstep, get_set, if_pos rfl] at hget
  cases hget
  exact absurd hlocked (by decide)

end Mtmux.Relay
