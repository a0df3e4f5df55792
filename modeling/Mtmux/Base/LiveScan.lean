import Mathlib.Data.List.Nodup

/-! A loop that goes over a list by index while others change the list between two of its
looks: they take elements out and append new ones. `s j` is the list at the loop's `j`-th
look, which is at place `j`. -/
namespace LiveScan
open List
variable {α : Type*}

/-- What others do to the list between two looks. -/
def Evolves (l l' : List α) : Prop :=
  ∃ kept fresh, List.Sublist kept l ∧ l' = kept ++ fresh ∧ ∀ x ∈ fresh, x ∉ l

inductive Outcome (α : Type*) where
  | hit (x : α)
  | missed
  deriving DecidableEq

/-- The loop has gone past the places before `n`. -/
def Passes (goal : α → Bool) (s : Nat → List α) (n : Nat) : Prop :=
  ∀ j < n, ∃ x, (s j)[j]? = some x ∧ goal x = false

/-- The loop ends after `n` awaits, one for each place it tried. -/
def Ends (goal : α → Bool) (s : Nat → List α) (n : Nat) : Outcome α → Prop
  | .missed => Passes goal s n ∧ (s n)[n]? = none
  | .hit x => ∃ m, n = m + 1 ∧ Passes goal s m ∧ (s m)[m]? = some x ∧ goal x = true

/-- In the list from the first look to the end. -/
def Stays (s : Nat → List α) (n : Nat) (x : α) : Prop := ∀ j ≤ n, x ∈ s j

variable {l l' : List α} {x y : α}

/-- What comes before an element that stays was there before. -/
theorem Evolves.before (h : Evolves l l') (hy : y ∈ l) (hxy : List.Sublist [x, y] l') : List.Sublist [x, y] l := by
  obtain ⟨kept, fresh, hsub, rfl, hfresh⟩ := h
  obtain ⟨a, b, hab, ha, hb⟩ := sublist_append_iff.1 hxy
  have hnot : y ∉ b := fun hin => hfresh y (hb.subset hin) hy
  have hnil : b = [] := by
    rcases eq_nil_or_concat b with hb' | ⟨c, z, rfl⟩
    · exact hb'
    · have hlast : y = z := by
        have h2 : [x] ++ [y] = (a ++ c) ++ [z] := by simpa using hab
        exact singleton_inj.1 (append_inj' h2 rfl).2
      exact absurd (by simp [hlast]) hnot
  rw [hnil, append_nil] at hab
  exact (hab ▸ ha).trans hsub

/-- What is tried before an element that stays was there from the start. -/
theorem stays_of_before {s : Nat → List α} {n : Nat} (hev : ∀ j, Evolves (s j) (s (j + 1)))
    (he : Stays s n y) {m : Nat} (hm : m ≤ n) (hxy : List.Sublist [x, y] (s m)) : ∀ j ≤ m, x ∈ s j := by
  induction m with
  | zero =>
    intro j hj
    rw [Nat.le_zero.1 hj]
    exact hxy.subset (by simp)
  | succ m ih =>
    intro j hj
    rcases Nat.lt_or_ge m j with hlast | hearlier
    · rw [show j = m + 1 by omega]
      exact hxy.subset (by simp)
    · exact ih (by omega) ((hev m).before (he m (by omega)) hxy) j hearlier

section Order
variable [DecidableEq α]

theorem getElem_idxOf (h : x ∈ l) : l[l.idxOf x]? = some x := by
  have hlt := idxOf_lt_length_of_mem h
  rw [List.getElem?_eq_getElem hlt, List.getElem_idxOf]

theorem idxOf_of_getElem {j : Nat} (hnodup : l.Nodup) (h : l[j]? = some x) : l.idxOf x = j := by
  obtain ⟨hlt, rfl⟩ := List.getElem?_eq_some_iff.1 h
  exact hnodup.idxOf_getElem j hlt

theorem idxOf_sublist_le {kept : List α} (h : List.Sublist kept l) (hx : x ∈ kept)
    (hnodup : l.Nodup) : kept.idxOf x ≤ l.idxOf x := by
  induction h with
  | slnil => simp at hx
  | cons a h ih =>
    have hne : a ≠ x := fun heq => (nodup_cons.1 hnodup).1 (heq ▸ h.subset hx)
    rw [idxOf_cons_ne _ hne]
    exact Nat.le_succ_of_le (ih hx (nodup_cons.1 hnodup).2)
  | cons_cons a h ih =>
    by_cases heq : a = x
    · simp [heq]
    · have hmem : x ∈ _ := (mem_cons.1 hx).resolve_left (fun hxa => heq hxa.symm)
      rw [idxOf_cons_ne _ heq, idxOf_cons_ne _ heq]
      exact Nat.succ_le_succ (ih hmem (nodup_cons.1 hnodup).2)

/-- What stays only moves towards the front. -/
theorem Evolves.idxOf_le (h : Evolves l l') (hnodup : l.Nodup) (hx : x ∈ l) (hx' : x ∈ l') :
    l'.idxOf x ≤ l.idxOf x := by
  obtain ⟨kept, fresh, hsub, rfl, hfresh⟩ := h
  have hkept : x ∈ kept := (mem_append.1 hx').resolve_right (fun hin => hfresh x hin hx)
  rw [idxOf_append_of_mem hkept]
  exact idxOf_sublist_le hsub hkept hnodup

theorem before_of_lt {j : Nat} (hj : l[j]? = some x) (hy : y ∈ l) (hlt : j < l.idxOf y) : List.Sublist [x, y] l := by
  obtain ⟨hjl, rfl⟩ := List.getElem?_eq_some_iff.1 hj
  have hmem : y ∈ l.drop (j + 1) := by
    have hidx := idxOf_lt_length_of_mem hy
    refine mem_of_getElem? (i := l.idxOf y - (j + 1)) ?_
    rw [List.getElem?_drop, show j + 1 + (l.idxOf y - (j + 1)) = l.idxOf y by omega]
    exact getElem_idxOf hy
  have hsub := (singleton_sublist.2 hmem).cons_cons l[j]
  rw [← drop_eq_getElem_cons hjl] at hsub
  exact hsub.trans (drop_sublist j l)

end Order

section Scan
variable [DecidableEq α] {goal : α → Bool} {s : Nat → List α} {n : Nat} {x e : α}

/-- The loop's place jumps over the element: it was ahead of the loop, and by the next look
it is at a place the loop has left behind. -/
def Overtaken (s : Nat → List α) (n : Nat) (e : α) : Prop :=
  ∃ j < n, j < (s j).idxOf e ∧ (s (j + 1)).idxOf e ≤ j

/-- An element that is looked for is taken out while the loop is at its place, with `e` still
ahead. -/
def Loses (goal : α → Bool) (s : Nat → List α) (n : Nat) (e : α) : Prop :=
  ∃ j < n, j < (s j).idxOf e ∧ ∃ x, (s j)[j]? = some x ∧ goal x = true ∧ x ∉ s (j + 1)

/-- The condition on the changes under which the scan finds what stays. -/
def Fair (goal : α → Bool) (s : Nat → List α) (n : Nat) : Prop :=
  ∃ e, Stays s n e ∧ goal e = true ∧ ¬ Overtaken s n e ∧ ¬ Loses goal s n e

/-- The scan ends at an element that stayed and that it looked for. -/
def HitsStaying (goal : α → Bool) (s : Nat → List α) (n : Nat) (o : Outcome α) : Prop :=
  ∃ e, o = .hit e ∧ Stays s n e ∧ goal e = true

/-- An element that is never jumped over is at the loop's place or ahead of it. -/
theorem ahead_of_passes (he : Stays s n e) (hgoal : goal e = true)
    (hpassed : ¬ Overtaken s n e) {m : Nat} (hm : m ≤ n) (hrun : Passes goal s m) : m ≤ (s m).idxOf e := by
  induction m with
  | zero => exact Nat.zero_le _
  | succ m ih =>
    have hle := ih (by omega) (fun j hj => hrun j (by omega))
    have hne : m ≠ (s m).idxOf e := by
      intro heq
      obtain ⟨x, hx, hmiss⟩ := hrun m (by omega)
      have hat := getElem_idxOf (he m (by omega))
      rw [← heq, hx] at hat
      rw [Option.some.inj hat, hgoal] at hmiss
      exact absurd hmiss (by decide)
    by_contra hlt
    exact hpassed ⟨m, by omega, by omega, by omega⟩

variable (hev : ∀ j, Evolves (s j) (s (j + 1)))
include hev

variable {o : Outcome α}

/-- A scan that does not jump over an element that stays, and does not lose one that it looks
for, ends at one that stays. -/
theorem hits_of_fair (hend : Ends goal s n o) (hfair : Fair goal s n) : HitsStaying goal s n o := by
  obtain ⟨e, he, hgoal, hpassed, hloses⟩ := hfair
  cases o with
  | missed =>
    obtain ⟨hrun, hnone⟩ := hend
    have hahead := ahead_of_passes he hgoal hpassed (Nat.le_refl n) hrun
    have hlen := idxOf_lt_length_of_mem (he n (Nat.le_refl n))
    rw [List.getElem?_eq_none_iff] at hnone
    omega
  | hit x =>
    obtain ⟨m, rfl, hrun, hx, hit⟩ := hend
    have hahead := ahead_of_passes he hgoal hpassed (by omega) hrun
    refine ⟨x, rfl, ?_, hit⟩
    rcases Nat.eq_or_lt_of_le hahead with heq | hlt
    · have hat := getElem_idxOf (he m (by omega))
      rw [← heq, hx] at hat
      rw [Option.some.inj hat]
      exact he
    · have hbefore := before_of_lt hx (he m (by omega)) hlt
      intro j hj
      rcases Nat.lt_or_ge m j with hlast | hearlier
      · rw [show j = m + 1 by omega]
        by_contra hout
        exact hloses ⟨m, by omega, hlt, x, hx, hit, hout⟩
      · exact stays_of_before hev he (by omega) hbefore j hearlier

variable (hnodup : ∀ j, (s j).Nodup)
include hnodup

/-- What stays does not move away from the front over several looks. -/
theorem idxOf_antitone (he : Stays s n e) {i j : Nat} (hij : i ≤ j) (hj : j ≤ n) : (s j).idxOf e ≤ (s i).idxOf e := by
  induction hij with
  | refl => exact Nat.le_refl _
  | @step j hij ih =>
    calc
      (s (j + 1)).idxOf e ≤ (s j).idxOf e :=
        (hev j).idxOf_le (hnodup j) (he j (by omega)) (he (j + 1) hj)
      _ ≤ (s i).idxOf e := ih (by omega)

theorem fair_of_hits (hend : Ends goal s n o) (hhit : HitsStaying goal s n o) : Fair goal s n := by
  obtain ⟨e, rfl, he, hgoal⟩ := hhit
  obtain ⟨m, rfl, hrun, hx, -⟩ := hend
  have hplace : (s m).idxOf e = m := idxOf_of_getElem (hnodup m) hx
  refine ⟨e, he, hgoal, ?_, ?_⟩
  · rintro ⟨j, hj, hahead, hpast⟩
    rcases Nat.eq_or_lt_of_le (Nat.le_of_lt_succ hj) with rfl | hlt
    · omega
    · have hmono := idxOf_antitone hev hnodup he (show j + 1 ≤ m by omega) (by omega)
      omega
  · rintro ⟨j, hj, hahead, x, hx, hgoalx, -⟩
    rcases Nat.eq_or_lt_of_le (Nat.le_of_lt_succ hj) with rfl | hlt
    · omega
    · obtain ⟨x', hx', hmiss⟩ := hrun j hlt
      rw [hx] at hx'
      rw [← Option.some.inj hx', hgoalx] at hmiss
      exact absurd hmiss (by decide)

/-- The exact condition under which a scan of a list that changes finds what stays in it. -/
theorem hits_iff_fair (hend : Ends goal s n o) : HitsStaying goal s n o ↔ Fair goal s n :=
  ⟨fair_of_hits hev hnodup hend, hits_of_fair hev hend⟩

end Scan
end LiveScan
