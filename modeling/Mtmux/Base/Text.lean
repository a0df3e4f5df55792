import Mathlib.Algebra.Ring.Nat
import Mathlib.Tactic.Common

/-! White space, text without it or cut off, numbers as text, and fields put together with a separator that none of them
contains. -/

theorem repr_inj {m n : Nat} (h : m.repr = n.repr) : m = n := by
  have hdigits : Nat.toDigits 10 m = Nat.toDigits 10 n := by
    rw [← Nat.toList_repr, ← Nat.toList_repr, h]
  calc m = Nat.ofDigitChars 10 (Nat.toDigits 10 m) 0 := Nat.ofDigitChars_ten_toDigits.symm
    _ = Nat.ofDigitChars 10 (Nat.toDigits 10 n) 0 := by rw [hdigits]
    _ = n := Nat.ofDigitChars_ten_toDigits

/-- What `\s` matches and `trim` removes. -/
def isSpace (c : Char) : Bool :=
  c = ' ' || (0x09 ≤ c.val && c.val ≤ 0x0D) || c.val = 0xA0 || c.val = 0x1680 || (0x2000 ≤ c.val && c.val ≤ 0x200A) ||
    c.val = 0x2028 || c.val = 0x2029 || c.val = 0x202F || c.val = 0x205F || c.val = 0x3000 || c.val = 0xFEFF

def trimChars (l : List Char) : List Char := ((l.dropWhile isSpace).reverse.dropWhile isSpace).reverse

def trimmed (text : String) : String := String.ofList (trimChars text.toList)

theorem mem_trimChars {c : Char} {l : List Char} (h : c ∈ trimChars l) : c ∈ l := by
  have hback := List.mem_reverse.1 h
  have hfront := List.mem_reverse.1 ((List.dropWhile_sublist _).subset hback)
  exact (List.dropWhile_sublist _).subset hfront

/-- How long a character is in UTF-16. -/
def unitsOf (c : Char) : Nat := if c.val < 0x10000 then 1 else 2

/-- The characters that fit into the first `n` units. Half a character is none. -/
def sliceUnits : Nat → List Char → List Char
  | _, [] => []
  | n, c :: l => if unitsOf c ≤ n then c :: sliceUnits (n - unitsOf c) l else []

def sliced (n : Nat) (text : String) : String := String.ofList (sliceUnits n text.toList)

theorem sliceUnits_begins (n : Nat) (l : List Char) : sliceUnits n l <+: l := by
  induction l generalizing n with
  | nil => exact List.prefix_refl []
  | cons c l ih =>
    unfold sliceUnits
    split
    · exact List.prefix_cons_inj c |>.2 (ih _)
    · exact List.nil_prefix

namespace Separator
open List
variable {α : Type*} {sep : α}

/-- What stands before the first separator is read back, and what stands after it. -/
theorem split_inj {a b c d : List α} (ha : sep ∉ a) (hc : sep ∉ c)
    (h : a ++ sep :: b = c ++ sep :: d) : a = c ∧ b = d := by
  induction a generalizing c with
  | nil =>
    cases c with
    | nil => exact ⟨rfl, (List.cons.inj h).2⟩
    | cons x c =>
      have hx : sep = x := (List.cons.inj h).1
      rw [hx] at hc
      exact absurd mem_cons_self hc
  | cons x a ih =>
    cases c with
    | nil =>
      have hx : x = sep := (List.cons.inj h).1
      rw [hx] at ha
      exact absurd mem_cons_self ha
    | cons y c =>
      obtain ⟨rfl, hrest⟩ := List.cons.inj h
      obtain ⟨rfl, hb⟩ := ih (fun hmem => ha (mem_cons_of_mem _ hmem))
        (fun hmem => hc (mem_cons_of_mem _ hmem)) hrest
      exact ⟨rfl, hb⟩

/-- The same, behind the last separator. -/
theorem split_last_inj {a b c d : List α} (hb : sep ∉ b) (hd : sep ∉ d)
    (h : a ++ sep :: b = c ++ sep :: d) : a = c ∧ b = d := by
  have hreverse : b.reverse ++ sep :: a.reverse = d.reverse ++ sep :: c.reverse := by
    have hboth := congrArg List.reverse h
    simpa using hboth
  obtain ⟨hbd, hac⟩ := split_inj (by simpa using hb) (by simpa using hd) hreverse
  exact ⟨reverse_inj.1 hac, reverse_inj.1 hbd⟩

end Separator
