import Mtmux.Base.OrderedMap

/-! A list of ids indexed by a key of each: what removal and addition keep. A group that
becomes empty leaves the index. -/
namespace Mtmux
open OrderedMap List

variable {κ ι : Type} [DecidableEq κ]

def group (keyOf : ι → Option κ) (ids : List ι) (k : κ) : List ι :=
  ids.filter fun i => keyOf i = some k

/-- A group as the index holds it. -/
def entryOf (ids : List ι) : Option (List ι) := if ids = [] then none else some ids

def Groups (index : OrderedMap κ (List ι)) (keyOf : ι → Option κ) (ids : List ι) : Prop :=
  ∀ k, index.get k = entryOf (group keyOf ids k)

variable {index : OrderedMap κ (List ι)} {keyOf keyOf' : ι → Option κ} {ids : List ι} {k : κ} {i : ι}

theorem entryOf_getD (ids : List ι) : (entryOf ids).getD [] = ids := by
  unfold entryOf
  split
  · rename_i h
    exact h.symm
  · rfl

theorem entryOf_append (ids : List ι) (i : ι) : entryOf (ids ++ [i]) = some (ids ++ [i]) := by
  rw [entryOf, if_neg (by simp)]

theorem group_congr (h : ∀ j ∈ ids, keyOf j = keyOf' j) (k : κ) : group keyOf ids k = group keyOf' ids k := by
  apply filter_congr
  intro j hj
  rw [h j hj]

theorem group_filter (p : ι → Bool) (k : κ) : group keyOf (ids.filter p) k = (group keyOf ids k).filter p := by
  rw [group, group, filter_filter, filter_filter]
  apply filter_congr
  intro j _
  rw [Bool.and_comm]

theorem group_append (k : κ) :
    group keyOf (ids ++ [i]) k = group keyOf ids k ++ if keyOf i = some k then [i] else [] := by
  rw [group, filter_append, group]
  by_cases h : keyOf i = some k <;> simp [h]

theorem mem_group {j : ι} : j ∈ group keyOf ids k ↔ j ∈ ids ∧ keyOf j = some k := by
  rw [group, mem_filter, decide_eq_true_eq]

theorem Groups.empty : Groups (OrderedMap.empty : OrderedMap κ (List ι)) keyOf [] := fun _ => rfl

theorem Groups.getD (h : Groups index keyOf ids) (k : κ) : (index.get k).getD [] = group keyOf ids k := by
  rw [h k, entryOf_getD]

theorem Groups.congr (h : Groups index keyOf ids) (hkey : ∀ j ∈ ids, keyOf j = keyOf' j) : Groups index keyOf' ids := by
  intro k
  rw [h k, group_congr hkey]

theorem Groups.add (h : Groups index keyOf ids) (hkey : keyOf i = some k) :
    Groups (index.set k ((index.get k).getD [] ++ [i])) keyOf (ids ++ [i]) := by
  intro a
  rw [group_append, get_set]
  by_cases ha : a = k
  · rw [if_pos ha, ha, if_pos hkey, h.getD, entryOf_append]
  · have hne : keyOf i ≠ some a := by
      rw [hkey]
      intro heq
      exact ha (Option.some.inj heq).symm
    rw [if_neg ha, if_neg hne, append_nil, h a]

variable [DecidableEq ι]

def dropId (index : OrderedMap κ (List ι)) (k : κ) (i : ι) : OrderedMap κ (List ι) :=
  match index.get k with
  | none => index
  | some ids =>
    if ids.filter (· ≠ i) = [] then index.delete k else index.set k (ids.filter (· ≠ i))

theorem Groups.drop (h : Groups index keyOf ids) (hkey : keyOf i = some k) :
    Groups (dropId index k i) keyOf (ids.filter (· ≠ i)) := by
  intro a
  rw [group_filter]
  have hself := h k
  by_cases ha : a = k
  · subst ha
    unfold dropId
    by_cases hempty : group keyOf ids a = []
    · rw [entryOf, if_pos hempty] at hself
      simp only [hself]
      rw [hempty]
      rfl
    · rw [entryOf, if_neg hempty] at hself
      simp only [hself]
      split
      · rename_i hnone
        rw [get_delete, if_pos rfl, hnone]
        rfl
      · rename_i hsome
        rw [get_set, if_pos rfl, entryOf, if_neg hsome]
  · have hother : (group keyOf ids a).filter (· ≠ i) = group keyOf ids a := by
      apply filter_eq_self.2
      intro j hj
      have hja := (mem_group.1 hj).2
      apply decide_eq_true
      intro hji
      rw [hji, hkey] at hja
      exact ha (Option.some.inj hja).symm
    have hget : (dropId index k i).get a = index.get a := by
      unfold dropId
      split
      · rfl
      · split
        · rw [get_delete, if_neg ha]
        · rw [get_set, if_neg ha]
    rw [hget, hother, h a]

end Mtmux
