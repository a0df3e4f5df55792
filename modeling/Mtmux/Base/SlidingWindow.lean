import Mathlib.Algebra.Order.BigOperators.Group.Finset

/-! A window that slides over a log of times, and the logs that a limit on it admits. Times that keep a distance which
grows with their number. -/
namespace SlidingWindow
open List
variable {width limit : Nat}

/-- The times that are younger than the window is wide. -/
def within (width now : Nat) (log : List Nat) : List Nat :=
  log.filter fun t => decide (now < t + width)

theorem within_append (now : Nat) (log log' : List Nat) :
    within width now (log ++ log') = within width now log ++ within width now log' :=
  filter_append ..

variable {later now : Nat}

/-- What has left the window does not come back. -/
theorem within_within (h : now ≤ later) (log : List Nat) :
    within width later (within width now log) = within width later log := by
  induction log with
  | nil => rfl
  | cons t log ih =>
    simp only [within, filter_cons] at ih ⊢
    by_cases hnow : now < t + width
    · simp [hnow, filter_cons, ih]
    · have hlater : ¬ later < t + width := by omega
      simp [hnow, hlater, ih]

/-- Every time of the log is not before the earlier ones, and came when fewer than `limit` of them were in the
window. -/
inductive Limited (width limit : Nat) : List Nat → Prop where
  | nil : Limited width limit []
  | snoc {log : List Nat} {t : Nat} (earlier : Limited width limit log) (sorted : ∀ x ∈ log, x ≤ t)
      (room : (within width t log).length < limit) : Limited width limit (log ++ [t])

variable {log : List Nat}

theorem Limited.sorted (h : Limited width limit log) : log.Pairwise (· ≤ ·) := by
  induction h with
  | nil => exact List.Pairwise.nil
  | snoc earlier hsorted room ih =>
    rw [pairwise_append]
    refine ⟨ih, pairwise_singleton _ _, ?_⟩
    intro x hx y hy
    rw [mem_singleton.1 hy]
    exact hsorted x hx

/-- A set of times that spans less than the window holds at most `limit` of the log. -/
theorem Limited.span (h : Limited width limit log) {p : Nat → Bool}
    (hspan : ∀ x y, p x = true → p y = true → y < x + width) : (log.filter p).length ≤ limit := by
  induction h with
  | nil => exact Nat.zero_le _
  | @snoc log t earlier hsorted room ih =>
    rw [filter_append, length_append]
    by_cases ht : p t = true
    · have hwithin : log.filter p = (within width t log).filter p := by
        rw [within, filter_filter]
        refine filter_congr fun x _ => ?_
        cases hx : p x with
        | false => rfl
        | true => simp [hspan x t hx ht]
      have hle := length_filter_le p (within width t log)
      rw [← hwithin] at hle
      simp only [filter_cons, ht, if_true, filter_nil, length_cons, length_nil]
      omega
    · simp only [filter_cons, ht]
      simpa using ih

theorem Limited.within_le (h : Limited width limit log) (hnow : ∀ x ∈ log, x ≤ now) :
    (within width now log).length ≤ limit := by
  have hfilter : within width now log = log.filter fun x => decide (now < x + width ∧ x ≤ now) := by
    refine filter_congr fun x hx => ?_
    simp [hnow x hx]
  rw [hfilter]
  refine h.span fun x y hx hy => ?_
  have hx := of_decide_eq_true hx
  have hy := of_decide_eq_true hy
  omega

/-- While the oldest time in a window is still in it, so are all the others. -/
theorem within_until {oldest : Nat} {rest : List Nat} (hsorted : log.Pairwise (· ≤ ·))
    (h : within width now log = oldest :: rest) (hnow : now ≤ later) (hlater : later < oldest + width) :
    within width later log = oldest :: rest := by
  have hle : (oldest :: rest).Pairwise (· ≤ ·) := h ▸ hsorted.filter _
  rw [← within_within hnow, h, within, filter_eq_self]
  intro x hx
  have holdest : oldest ≤ x := by
    cases hx with
    | head => exact Nat.le_refl _
    | tail _ hrest => exact (pairwise_cons.1 hle).1 x hrest
  simp only [decide_eq_true_eq]
  omega

/-- When it leaves, there is room for one more. -/
theorem within_after {oldest : Nat} {rest : List Nat}
    (h : within width now log = oldest :: rest) (hnow : now ≤ later) (hlater : oldest + width ≤ later) :
    (within width later log).length < (within width now log).length := by
  rw [← within_within hnow, h, within, filter_cons]
  have hleft : ¬ later < oldest + width := by omega
  have hle := length_filter_le (fun t => decide (later < t + width)) rest
  simp only [hleft, decide_false, Bool.false_eq_true, if_false, length_cons]
  omega

end SlidingWindow


/-- The latest one first: each comes at least `gap n` after the one before, when that is the `n`-th. -/
def Spaced (gap : Nat → Nat) : List Nat → Prop
  | [] => True
  | t :: earlier => (∀ s, earlier.head? = some s → s + gap earlier.length ≤ t) ∧ Spaced gap earlier

section Spaced
variable {gap : Nat → Nat} {earlier times : List Nat} {t s : Nat}

theorem Spaced.le (h : Spaced gap (t :: earlier)) (hs : s ∈ earlier) : s ≤ t := by
  induction earlier generalizing t with
  | nil => cases hs
  | cons r earlier ih =>
    have hr := h.1 r rfl
    cases List.mem_cons.1 hs with
    | inl hthis => omega
    | inr hold =>
      have hle := ih h.2 hold
      omega

theorem Spaced.drop (h : Spaced gap times) (n : Nat) : Spaced gap (times.drop n) := by
  induction n generalizing times with
  | zero => exact h
  | succ n ih =>
    cases times with
    | nil => trivial
    | cons t earlier => exact ih h.2

/-- The gaps between a time and the last one add up. -/
theorem Spaced.apart (hgap : Monotone gap) {n : Nat} (h : Spaced gap (t :: earlier)) (hs : earlier[n]? = some s) :
    s + ∑ i ∈ Finset.range (n + 1), gap (i + 1) ≤ t := by
  induction n generalizing t earlier with
  | zero =>
    cases earlier with
    | nil => cases hs
    | cons r earlier =>
      have hsame : r = s := Option.some.inj hs
      subst hsame
      have hr := h.1 r rfl
      have hgrows : gap 1 ≤ gap (r :: earlier).length := hgap (by simp)
      rw [Finset.sum_range_one, Nat.zero_add]
      omega
  | succ n ih =>
    cases earlier with
    | nil => cases hs
    | cons r earlier =>
      have hr := h.1 r rfl
      have hrest := ih h.2 hs
      obtain ⟨hlong, -⟩ := List.getElem?_eq_some_iff.1 hs
      have hgrows : gap (n + 1 + 1) ≤ gap (r :: earlier).length := by
        refine hgap ?_
        rw [List.length_cons] at hlong ⊢
        omega
      rw [Finset.sum_range_succ]
      omega

/-- A window that is no longer than the first gaps together has no more of them. -/
theorem Spaced.count_le (hgap : Monotone gap) {n w : Nat} (hw : w ≤ ∑ i ∈ Finset.range (n + 1), gap (i + 1))
    (h : Spaced gap times) (t : Nat) : times.countP (fun s => decide (t ≤ s ∧ s < t + w)) ≤ n + 1 := by
  induction times with
  | nil => exact Nat.zero_le _
  | cons r earlier ih =>
    rw [List.countP_cons]
    by_cases hr : t ≤ r ∧ r < t + w
    · rw [if_pos (by simpa using hr)]
      refine Nat.add_le_add_right ?_ 1
      rw [← List.take_append_drop n earlier, List.countP_append]
      have hdrop : (earlier.drop n).countP (fun s => decide (t ≤ s ∧ s < t + w)) = 0 := by
        refine List.countP_eq_zero.2 fun s hs => ?_
        have hlate : s < t := by
          cases hfirst : earlier.drop n with
          | nil =>
            rw [hfirst] at hs
            cases hs
          | cons a rest =>
            have hget : earlier[n]? = some a := by
              rw [← List.head?_drop, hfirst]
              rfl
            have hapart := h.apart hgap hget
            have hspaced := h.2.drop n
            rw [hfirst] at hs hspaced
            have hle : s ≤ a := by
              cases List.mem_cons.1 hs with
              | inl hthis => omega
              | inr hold => exact hspaced.le hold
            omega
        simpa using fun hle => absurd hlate (Nat.not_lt.2 hle)
      have htake : (earlier.take n).countP (fun s => decide (t ≤ s ∧ s < t + w)) ≤ n :=
        List.countP_le_length.trans (List.length_take_le n earlier)
      omega
    · rw [if_neg (by simpa using hr)]
      exact ih h.2

end Spaced
