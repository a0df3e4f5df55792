import Mathlib.Data.List.Perm.Basic

/-! Orders of calls that take effect one after another. A call that has seen a value on the way, and
leaves that value as it is, has its place there however long it took. -/
namespace SerialOrder
open List
variable {α β : Type*} {f : β → α → β} {b : β} {order : List α}

/-- The value is there at some point of the order. -/
def Passes (f : β → α → β) (b : β) (order : List α) (v : β) : Prop :=
  ∃ p q, order = p ++ q ∧ p.foldl f b = v

theorem passes_last (f : β → α → β) (b : β) (order : List α) : Passes f b order (order.foldl f b) :=
  ⟨order, [], (append_nil order).symm, rfl⟩

theorem Passes.append {v : β} (h : Passes f b order v) (later : List α) : Passes f b (order ++ later) v := by
  obtain ⟨p, q, horder, hv⟩ := h
  exact ⟨p, q ++ later, by rw [horder, append_assoc], hv⟩

/-- A call that leaves a value as it is can stand where this value was. -/
theorem Passes.insert {v : β} {a : α} (h : Passes f b order v) (hidle : f v a = v) :
    ∃ wider : List α, wider.Perm (order ++ [a]) ∧ wider.foldl f b = order.foldl f b ∧
      ∀ w, Passes f b order w → Passes f b wider w := by
  obtain ⟨p, q, horder, hv⟩ := h
  subst horder
  have hhere : f (p.foldl f b) a = p.foldl f b := by rw [hv, hidle]
  refine ⟨p ++ a :: q, ?_, ?_, ?_⟩
  · rw [append_assoc]
    exact (perm_append_singleton a q).symm.append_left p
  · rw [foldl_append, foldl_cons, hhere, foldl_append]
  · intro w hw
    obtain ⟨p', q', hsplit, hw⟩ := hw
    cases append_eq_append_iff.1 hsplit with
    | inl hlonger =>
      obtain ⟨r, hp', hq⟩ := hlonger
      refine ⟨p ++ a :: r, q', by rw [hq]; simp, ?_⟩
      rw [foldl_append, foldl_cons, hhere, ← foldl_append, ← hp', hw]
    | inr hshorter =>
      obtain ⟨r, hp, hq'⟩ := hshorter
      exact ⟨p', r ++ a :: q, by rw [hp, append_assoc], hw⟩

end SerialOrder
