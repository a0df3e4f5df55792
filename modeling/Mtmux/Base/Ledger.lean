import Mathlib.Algebra.BigOperators.Group.List.Lemmas
import Mtmux.Base.Machine

/-! Postings to numbered accounts: balances account by account add up to the total. A counter kept beside a table: it
agrees with the size of the table as long as it is only taken down for an entry that goes, and what waits for it to
reach zero waits for the table to be empty. -/
namespace Ledger
open List
variable {α π M : Type*} [AddCommMonoid M]

def postedTo (account : π → Nat) (posts : List π) (i : Nat) : List π :=
  posts.filter fun p => account p = i

theorem postedTo_append (account : π → Nat) (posts posts' : List π) (i : Nat) :
    postedTo account (posts ++ posts') i = postedTo account posts i ++ postedTo account posts' i :=
  filter_append ..

theorem sum_split (account : π → Nat) (f : π → M) (posts : List π) (i : Nat) :
    (posts.map f).sum = ((postedTo account posts i).map f).sum + ((posts.filter fun p => account p ≠ i).map f).sum := by
  have h := sum_map_ite (fun p => account p = i) f f posts
  simp only [ite_self] at h
  exact h

theorem total_eq (account : π → Nat) (f : π → M) (g : α → M) (accounts : List α)
    (posts : List π) (hlt : ∀ p ∈ posts, account p < accounts.length)
    (hbal : ∀ (i : Nat) (a : α), accounts[i]? = some a → ((postedTo account posts i).map f).sum = g a) :
    (posts.map f).sum = (accounts.map g).sum := by
  induction accounts using List.reverseRecOn generalizing posts with
  | nil =>
    cases posts with
    | nil => rfl
    | cons p posts => exact absurd (hlt p mem_cons_self) (Nat.not_lt_zero _)
  | append_singleton accounts a ih =>
    have hrest := ih (posts.filter fun p => account p ≠ accounts.length)
      (fun p hp => by
        obtain ⟨hmem, hne⟩ := mem_filter.1 hp
        have hp' := hlt p hmem
        have hne' : account p ≠ accounts.length := by simpa using hne
        simp only [length_append, length_singleton] at hp'
        omega)
      (fun i b hb => by
        have hi : i < accounts.length := (List.getElem?_eq_some_iff.1 hb).1
        have hsame : postedTo account (posts.filter fun p => account p ≠ accounts.length) i =
            postedTo account posts i := by
          unfold postedTo
          rw [filter_filter]
          refine filter_congr fun p _ => ?_
          simp only [ne_eq, decide_not, Bool.and_eq_left_iff_imp, decide_eq_true_eq,
            Bool.not_eq_eq_eq_not, Bool.not_true, decide_eq_false_iff_not]
          omega
        rw [hsame]
        exact hbal i b (by rw [List.getElem?_append_left hi, hb]))
    have hlast := hbal accounts.length a List.getElem?_concat_length
    rw [sum_split account f posts accounts.length, hlast, hrest, map_append, sum_append,
      map_singleton, sum_singleton, add_comm]

end Ledger


/-- `armed` says that something was started because the counter had come to zero. -/
structure Tally where
  size : Nat
  counter : Int
  armed : Bool

namespace Tally

/-- One step: `stray` takes the counter down with no entry, `declared` says that the table
was taken to be empty. -/
structure Moves (t t' : Tally) (stray : Bool) (declared : Prop) : Prop where
  balance : t'.counter - t'.size = t.counter - t.size - if stray then 1 else 0
  armed : t'.armed = true → t.armed = true ∧ t'.size ≤ t.size ∨ t'.counter ≤ 0
  declared : declared → t.armed = true ∧ t'.size ≤ t.size ∨ t'.counter ≤ 0

structure Balanced (t : Tally) : Prop where
  counter : t.counter = t.size
  armed : t.armed = true → t.size = 0

theorem Balanced.moves {t t' : Tally} (h : Balanced t) {declared : Prop}
    (hm : Moves t t' false declared) : Balanced t' ∧ (declared → t'.size = 0) := by
  have hbalance := hm.balance
  have hcounter := h.counter
  have hempty (hcase : t.armed = true ∧ t'.size ≤ t.size ∨ t'.counter ≤ 0) : t'.size = 0 := by
    cases hcase with
    | inl harmed =>
      have hzero := h.armed harmed.1
      omega
    | inr hle =>
      simp only [Bool.false_eq_true, if_false] at hbalance
      omega
  refine ⟨⟨?_, fun harmed => hempty (hm.armed harmed)⟩, fun hd => hempty (hm.declared hd)⟩
  simp only [Bool.false_eq_true, if_false] at hbalance
  omega

end Tally

namespace Machine
variable {σ ε ω : Type*} (M : Machine σ ε ω)

/-- The counter agrees in every state of a run, and the table is empty whenever it is taken
to be, exactly when no step is stray. -/
theorem tally_iff (tally : σ → Tally) (stray : Entry σ ε ω → Bool)
    (declared : Entry σ ε ω → Prop) (hinit : (tally M.init).Balanced)
    (hmoves : ∀ s e, Tally.Moves (tally s) (tally (M.step s e).1) (stray (M.entry s e))
      (declared (M.entry s e))) (es : List ε) : ((∀ before after, es = before ++ after →
        (tally (M.run before)).counter = (tally (M.run before)).size) ∧
      ∀ x ∈ M.trace es, declared x → (tally x.post).size = 0) ↔ ∀ x ∈ M.trace es, stray x = false := by
  constructor
  · intro h x hx
    obtain ⟨before, e, after, hes, rfl⟩ := (M.mem_trace es x).1 hx
    have hbefore := h.1 before (e :: after) hes
    have hafter := h.1 (before ++ [e]) after (by simp [hes])
    have hbalance := (hmoves (M.run before) e).balance
    rw [run_snoc] at hafter
    cases hstray : stray (M.entry (M.run before) e) with
    | false => rfl
    | true =>
      rw [hstray, if_pos rfl] at hbalance
      omega
  · intro h
    have hrun : ∀ before after, es = before ++ after → (tally (M.run before)).Balanced := by
      intro before
      induction before using List.reverseRecOn with
      | nil => exact fun _ _ => hinit
      | append_singleton before e ih =>
        intro after hes
        have hsplit : es = before ++ e :: after := by simp [hes]
        have hx := h _ ((M.mem_trace es _).2 ⟨before, e, after, hsplit, rfl⟩)
        have hstep := hmoves (M.run before) e
        rw [hx] at hstep
        rw [run_snoc]
        exact ((ih _ hsplit).moves hstep).1
    refine ⟨fun before after hes => (hrun before after hes).counter, fun x hx hdeclared => ?_⟩
    have hspared := h x hx
    obtain ⟨before, e, after, hes, rfl⟩ := (M.mem_trace es x).1 hx
    have hstep := hmoves (M.run before) e
    rw [hspared] at hstep
    exact ((hrun before (e :: after) hes).moves hstep).2 hdeclared

end Machine
