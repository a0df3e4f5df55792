import Mathlib.Algebra.Ring.Nat
import Mathlib.Data.List.Nodup

/-! Finite maps that remember insertion order: writing a present key keeps its
place, writing a new one appends, and no key occurs twice. -/

/-- Among values of distinct fields, the first one found is the only one there is. -/
theorem find_field {α β : Type} [DecidableEq β] {field : α → β} {l : List α}
    (hl : (l.map field).Nodup) {b : β} {a : α} : (l.find? fun x => field x = b) = some a ↔ a ∈ l ∧ field a = b := by
  constructor
  · intro h
    exact ⟨List.mem_of_find?_eq_some h, by simpa using List.find?_some h⟩
  · intro h
    cases hfind : l.find? fun x => field x = b with
    | none =>
      have hnone := List.find?_eq_none.1 hfind a h.1
      simp [h.2] at hnone
    | some a' =>
      have hfield : field a' = b := by simpa using List.find?_some hfind
      rw [List.inj_on_of_nodup_map hl (List.mem_of_find?_eq_some hfind) h.1 (hfield.trans h.2.symm)]

structure OrderedMap (κ ν : Type*) where
  entries : List (κ × ν)
  nodup : (entries.map Prod.fst).Nodup

namespace OrderedMap
open List
variable {κ ν : Type*}

def empty : OrderedMap κ ν := ⟨[], nodup_nil⟩

def keys (m : OrderedMap κ ν) : List κ := m.entries.map Prod.fst
def values (m : OrderedMap κ ν) : List ν := m.entries.map Prod.snd
def size (m : OrderedMap κ ν) : Nat := m.entries.length

variable [DecidableEq κ]

def get (m : OrderedMap κ ν) (k : κ) : Option ν := m.entries.lookup k
def has (m : OrderedMap κ ν) (k : κ) : Bool := (m.get k).isSome

theorem lookup_cons_ite (k : κ) (p : κ × ν) (l : List (κ × ν)) :
    (p :: l).lookup k = if k = p.1 then some p.2 else l.lookup k := by
  obtain ⟨a, v⟩ := p
  by_cases h : k = a
  · simp [h]
  · have hb : (k == a) = false := by simpa using h
    simp [lookup_cons, hb, h]

theorem lookup_isSome (l : List (κ × ν)) (k : κ) : (l.lookup k).isSome ↔ k ∈ l.map Prod.fst := by
  induction l with
  | nil => simp
  | cons p l ih =>
    rw [lookup_cons_ite, map_cons, mem_cons, ← ih]
    by_cases h : k = p.1 <;> simp [h]

theorem mem_keys (m : OrderedMap κ ν) (k : κ) : k ∈ m.keys ↔ ∃ v, m.get k = some v := by
  rw [keys, ← lookup_isSome, Option.isSome_iff_exists, get]

theorem get_eq_none (m : OrderedMap κ ν) (k : κ) : m.get k = none ↔ k ∉ m.keys := by
  rw [mem_keys]
  cases m.get k <;> simp

/-- Distinct keys make every stored pair the one its key finds. -/
theorem get_eq_some (m : OrderedMap κ ν) (k : κ) (v : ν) : m.get k = some v ↔ (k, v) ∈ m.entries := by
  obtain ⟨l, hn⟩ := m
  simp only [get]
  induction l with
  | nil => simp
  | cons p l ih =>
    simp only [map_cons, nodup_cons] at hn
    rw [lookup_cons_ite, mem_cons]
    by_cases h : k = p.1
    · subst h
      have hp : ∀ w, (p.1, w) ∉ l := fun w hw => hn.1 (mem_map.2 ⟨_, hw, rfl⟩)
      simp [hp, Prod.ext_iff, eq_comm]
    · have hp : (k, v) ≠ p := fun he => h (by rw [← he])
      simp [h, ih hn.2, hp]

/-- Rewrite the value under a present key, in place. -/
def modify (m : OrderedMap κ ν) (k : κ) (f : ν → ν) : OrderedMap κ ν where
  entries := m.entries.map fun p => if p.1 = k then (p.1, f p.2) else p
  nodup := by
    have h : (m.entries.map fun p => if p.1 = k then (p.1, f p.2) else p).map Prod.fst =
        m.entries.map Prod.fst := by
      rw [map_map]
      refine map_congr_left fun p _ => ?_
      by_cases hp : p.1 = k <;> simp [hp]
    rw [h]
    exact m.nodup

theorem get_modify (m : OrderedMap κ ν) (k a : κ) (f : ν → ν) :
    (m.modify k f).get a = if a = k then (m.get a).map f else m.get a := by
  simp only [get, modify]
  induction m.entries with
  | nil => simp
  | cons p l ih =>
    rw [map_cons, lookup_cons_ite, lookup_cons_ite, ih]
    by_cases hk : p.1 = k
    · by_cases ha : a = k <;> simp [hk, ha]
    · by_cases ha : a = p.1
      · simp [hk, ha]
      · simp [hk, ha]

def set (m : OrderedMap κ ν) (k : κ) (v : ν) : OrderedMap κ ν :=
  if h : k ∈ m.keys then m.modify k fun _ => v
  else
    { entries := m.entries ++ [(k, v)]
      nodup := by
        rw [map_append, nodup_append]
        refine ⟨m.nodup, by simp, ?_⟩
        rintro a ha b hb rfl
        simp only [map_cons, map_nil, mem_singleton] at hb
        exact h (hb ▸ ha) }

theorem get_set (m : OrderedMap κ ν) (k a : κ) (v : ν) :
    (m.set k v).get a = if a = k then some v else m.get a := by
  by_cases h : k ∈ m.keys
  · rw [set, dif_pos h, get_modify]
    by_cases ha : a = k
    · subst ha
      obtain ⟨w, hw⟩ := (m.mem_keys a).1 h
      simp [hw]
    · simp [ha]
  · rw [set, dif_neg h]
    by_cases ha : a = k
    · subst ha
      have hn : m.entries.lookup a = none := (m.get_eq_none a).2 h
      simp [get, lookup_append, hn]
    · simp [get, lookup_append, lookup_cons_ite, ha]

def delete (m : OrderedMap κ ν) (k : κ) : OrderedMap κ ν where
  entries := m.entries.filter fun p => p.1 ≠ k
  nodup := m.nodup.sublist (filter_sublist.map Prod.fst)

theorem get_delete (m : OrderedMap κ ν) (k a : κ) :
    (m.delete k).get a = if a = k then none else m.get a := by
  simp only [get, delete]
  induction m.entries with
  | nil => simp
  | cons p l ih =>
    rw [lookup_cons_ite, filter_cons]
    by_cases hk : p.1 = k
    · have hf : decide (p.1 ≠ k) = false := by simp [hk]
      rw [hf, if_neg Bool.false_ne_true, ih, hk]
      split_ifs <;> rfl
    · by_cases ha : a = p.1
      · simp [hk, ha, lookup_cons_ite]
      · simpa [hk, ha, lookup_cons_ite] using ih

theorem get_of_delete {m : OrderedMap κ ν} {k a : κ} {v : ν} (h : (m.delete k).get a = some v) : m.get a = some v := by
  rw [get_delete] at h
  split at h
  · cases h
  · exact h

section
variable {m : OrderedMap κ ν} {P : κ → ν → Prop} {k a : κ} {v : ν}

theorem forall_set (h : ∀ a w, m.get a = some w → P a w) (hv : P k v) :
    ∀ a w, (m.set k v).get a = some w → P a w := by
  intro a w hw
  rw [get_set] at hw
  split at hw
  · rename_i ha
    cases hw
    exact ha ▸ hv
  · exact h a w hw

theorem forall_delete (h : ∀ a w, m.get a = some w → P a w) (k : κ) :
    ∀ a w, (m.delete k).get a = some w → P a w :=
  fun a w hw => h a w (get_of_delete hw)

theorem exists_set {p : ν → Prop} : (∃ w, (m.set k v).get a = some w ∧ p w) ↔
    a = k ∧ p v ∨ a ≠ k ∧ ∃ w, m.get a = some w ∧ p w := by
  rw [get_set]
  by_cases ha : a = k <;> simp [ha]

theorem exists_set_new {p : ν → Prop} (h : m.get k = none) : (∃ w, (m.set k v).get a = some w ∧ p w) ↔
    a = k ∧ p v ∨ ∃ w, m.get a = some w ∧ p w := by
  rw [exists_set]
  by_cases ha : a = k <;> simp [ha, h]

theorem exists_set_same {p : ν → Prop} {v' : ν} (h : m.get k = some v') (hp : p v ↔ p v') :
    (∃ w, (m.set k v).get a = some w ∧ p w) ↔ ∃ w, m.get a = some w ∧ p w := by
  rw [exists_set]
  by_cases ha : a = k <;> simp [ha, h, hp]

theorem exists_delete {p : ν → Prop} : (∃ w, (m.delete k).get a = some w ∧ p w) ↔
    a ≠ k ∧ ∃ w, m.get a = some w ∧ p w := by
  rw [get_delete]
  by_cases ha : a = k <;> simp [ha]

end

/-- Keep the pairs that pass `p`: what a loop that deletes the others leaves. -/
def filter (m : OrderedMap κ ν) (p : κ → ν → Bool) : OrderedMap κ ν where
  entries := m.entries.filter fun e => p e.1 e.2
  nodup := m.nodup.sublist (filter_sublist.map Prod.fst)

theorem get_filter (m : OrderedMap κ ν) (p : κ → ν → Bool) (a : κ) (v : ν) :
    (m.filter p).get a = some v ↔ m.get a = some v ∧ p a v = true := by
  rw [get_eq_some, get_eq_some]
  exact mem_filter

/-- Rewrite every value in place. -/
def mapValues (m : OrderedMap κ ν) (f : ν → ν) : OrderedMap κ ν where
  entries := m.entries.map fun p => (p.1, f p.2)
  nodup := by
    rw [map_map]
    exact m.nodup

theorem get_mapValues (m : OrderedMap κ ν) (f : ν → ν) (a : κ) : (m.mapValues f).get a = (m.get a).map f := by
  simp only [get, mapValues]
  induction m.entries with
  | nil => rfl
  | cons p l ih =>
    rw [map_cons, lookup_cons_ite, lookup_cons_ite, ih]
    split_ifs <;> rfl

/-- Of two lookups that agree under `f`, one finds what the other does, up to `f`. -/
theorem exists_of_map_eq {α β : Type*} {f : α → β} {x y : Option α} (h : x.map f = y.map f)
    {b : α} (hb : y = some b) : ∃ a, x = some a ∧ f a = f b := by
  subst hb
  cases x with
  | none => simp at h
  | some a => exact ⟨a, rfl, by simpa using h⟩

variable {m : OrderedMap κ ν}

theorem size_set_new {k : κ} (h : m.get k = none) (v : ν) : (m.set k v).size = m.size + 1 := by
  have hnot : k ∉ m.keys := (m.get_eq_none k).1 h
  rw [set, dif_neg hnot]
  simp [size]

theorem size_set_le (m : OrderedMap κ ν) (k : κ) (v : ν) : (m.set k v).size ≤ m.size + 1 := by
  rw [set]
  split
  · simp [size, modify]
  · simp [size]

theorem size_delete_le (m : OrderedMap κ ν) (k : κ) : (m.delete k).size ≤ m.size :=
  length_filter_le _ _

theorem delete_of_absent {k : κ} (h : m.get k = none) : m.delete k = m := by
  have hall : ∀ p ∈ m.entries, decide (p.1 ≠ k) = true := by
    intro p hp
    have hnot : k ∉ m.keys := (m.get_eq_none k).1 h
    simp only [decide_eq_true_eq]
    intro he
    exact hnot (mem_map.2 ⟨p, hp, he⟩)
  obtain ⟨entries, hn⟩ := m
  simp only [delete, mk.injEq]
  exact filter_eq_self.2 hall

theorem size_delete {k : κ} {v : ν} (h : m.get k = some v) : (m.delete k).size + 1 = m.size := by
  have hmem : k ∈ m.keys := (m.mem_keys k).2 ⟨v, h⟩
  have hcount : m.entries.countP (fun p => decide (p.1 = k)) = 1 := by
    have hone := count_eq_one_of_mem m.nodup hmem
    rw [List.count, countP_map] at hone
    rw [← hone]
    refine countP_congr fun p _ => ?_
    simp
  have hsplit := length_eq_countP_add_countP (l := m.entries)
    fun p => decide (p.1 ≠ k)
  rw [countP_eq_length_filter] at hsplit
  have hrest : m.entries.countP (fun p => decide (¬ decide (p.1 ≠ k) = true)) = 1 := by
    rw [← hcount]
    refine countP_congr fun p _ => ?_
    simp
  rw [hrest] at hsplit
  exact hsplit.symm

theorem get_empty (a : κ) : (empty : OrderedMap κ ν).get a = none := rfl

attribute [simp] get_modify get_set get_delete get_empty get_mapValues

end OrderedMap
