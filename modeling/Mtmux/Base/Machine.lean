import Mathlib.Data.List.Induction

/-! Deterministic machines with outputs, their runs over event lists and the
record of what each step read and emitted. -/
structure Machine (σ ε ω : Type*) where
  init : σ
  step : σ → ε → σ × List ω

namespace Machine
open List
variable {σ ε ω : Type*} (M : Machine σ ε ω)

/-- One step of a run: the state it started in, the event, what it emitted and
the state it left. -/
structure Entry (σ ε ω : Type*) where
  pre : σ
  event : ε
  out : List ω
  post : σ

def entry (s : σ) (e : ε) : Entry σ ε ω := ⟨s, e, (M.step s e).2, (M.step s e).1⟩

def run (es : List ε) : σ := es.foldl (fun s e => (M.step s e).1) M.init

def traceFrom (s : σ) : List ε → List (Entry σ ε ω)
  | [] => []
  | e :: es => M.entry s e :: traceFrom (M.step s e).1 es

def trace (es : List ε) : List (Entry σ ε ω) := M.traceFrom M.init es

def outputs (es : List ε) : List ω := (M.trace es).flatMap Entry.out

theorem run_nil : M.run [] = M.init := rfl

theorem run_snoc (es : List ε) (e : ε) : M.run (es ++ [e]) = (M.step (M.run es) e).1 := by
  simp [run]

theorem traceFrom_snoc (s : σ) (es : List ε) (e : ε) : M.traceFrom s (es ++ [e]) = M.traceFrom s es ++
      [M.entry (es.foldl (fun s e => (M.step s e).1) s) e] := by
  induction es generalizing s with
  | nil => rfl
  | cons a es ih => simp [traceFrom, ih]

theorem trace_nil : M.trace [] = [] := rfl

theorem trace_snoc (es : List ε) (e : ε) : M.trace (es ++ [e]) = M.trace es ++ [M.entry (M.run es) e] :=
  M.traceFrom_snoc M.init es e

theorem forall_trace_snoc {M : Machine σ ε ω} {p : Entry σ ε ω → Prop} {es : List ε} {e : ε}
    (h : ∀ x ∈ M.trace (es ++ [e]), p x) : (∀ x ∈ M.trace es, p x) ∧ p (M.entry (M.run es) e) := by
  rw [trace_snoc, forall_mem_append, forall_mem_singleton] at h
  exact h

/-- A longer run begins with the steps of the shorter one. -/
theorem trace_begins (es fs : List ε) : M.trace es <+: M.trace (es ++ fs) := by
  induction fs using List.reverseRecOn with
  | nil => simp
  | append_singleton fs e ih =>
    rw [← append_assoc, trace_snoc]
    exact ih.trans (prefix_append _ _)

theorem forall_trace_before {M : Machine σ ε ω} {p : Entry σ ε ω → Prop} {es before after : List ε}
    (h : ∀ x ∈ M.trace es, p x) (hes : es = before ++ after) : ∀ x ∈ M.trace before, p x := by
  subst hes
  exact fun x hx => h x ((M.trace_begins before after).subset hx)

theorem outputs_nil : M.outputs [] = [] := rfl

theorem outputs_snoc (es : List ε) (e : ε) : M.outputs (es ++ [e]) = M.outputs es ++ (M.step (M.run es) e).2 := by
  simp [outputs, trace_snoc, entry]

theorem outputs_split (es : List ε) {p q : List ω} {o : ω} (h : M.outputs es = p ++ o :: q) :
    ∃ before e after u v, es = before ++ e :: after ∧ (M.step (M.run before) e).2 = u ++ o :: v ∧
      p = M.outputs before ++ u := by
  induction es using List.reverseRecOn generalizing q with
  | nil =>
    rw [outputs_nil] at h
    simp at h
  | append_singleton es e ih =>
    rw [outputs_snoc] at h
    cases append_eq_append_iff.1 h with
    | inl hlater =>
      obtain ⟨u, hp, hout⟩ := hlater
      exact ⟨es, e, [], u, q, rfl, hout, hp⟩
    | inr hearlier =>
      obtain ⟨c, hes, hout⟩ := hearlier
      cases c with
      | nil =>
        refine ⟨es, e, [], [], q, rfl, hout.symm, ?_⟩
        rw [hes, append_nil, append_nil]
      | cons o' c =>
        obtain ⟨rfl, -⟩ := List.cons.inj hout
        obtain ⟨before, e', after, u, v, hsplit, hstep, hp⟩ := ih hes
        refine ⟨before, e', after ++ [e], u, v, ?_, hstep, hp⟩
        rw [hsplit, append_assoc, cons_append]

/-- A predicate on runs that holds of the empty run and survives one more event
holds of every run. -/
theorem run_induction {P : List ε → Prop} (nil : P []) (snoc : ∀ es e, P es → P (es ++ [e])) (es : List ε) : P es := by
  induction es using List.reverseRecOn with
  | nil => exact nil
  | append_singleton es e ih => exact snoc es e ih

theorem run_invariant {I : σ → Prop} (hinit : I M.init)
    (hstep : ∀ s e, I s → I (M.step s e).1) (es : List ε) : I (M.run es) := by
  refine run_induction (P := fun es => I (M.run es)) hinit (fun es e ih => ?_) es
  rw [run_snoc]
  exact hstep _ e ih

/-- An invariant whose step may use a condition that every step of the run meets. -/
theorem trace_invariant (I : σ → List ω → Prop) {C : Entry σ ε ω → Prop} (hinit : I M.init [])
    (hstep : ∀ es e, I (M.run es) (M.outputs es) → C (M.entry (M.run es) e) →
      I (M.step (M.run es) e).1 (M.outputs es ++ (M.step (M.run es) e).2)) {es : List ε}
    (hC : ∀ x ∈ M.trace es, C x) : I (M.run es) (M.outputs es) := by
  induction es using List.reverseRecOn with
  | nil => exact hinit
  | append_singleton es e ih =>
    obtain ⟨hpast, hlast⟩ := forall_trace_snoc hC
    rw [run_snoc, outputs_snoc]
    exact hstep es e (ih hpast) hlast

/-- What holds of a run and its trace, for as long as each step meets a condition on what came before. -/
theorem traced_invariant {I : List ε → σ → List (Entry σ ε ω) → Prop} {C : List (Entry σ ε ω) → Entry σ ε ω → Prop}
    (hinit : I [] M.init []) (hstep : ∀ es s tr e, I es s tr → C tr (M.entry s e) →
      I (es ++ [e]) (M.step s e).1 (tr ++ [M.entry s e])) {es : List ε}
    (hC : ∀ before x after, M.trace es = before ++ x :: after → C before x) : I es (M.run es) (M.trace es) := by
  induction es using List.reverseRecOn with
  | nil => exact hinit
  | append_singleton es e ih =>
    rw [run_snoc, trace_snoc] at *
    refine hstep _ _ _ _ (ih fun before x after h => hC before x (after ++ [M.entry (M.run es) e]) ?_) (hC _ _ [] rfl)
    rw [h, append_assoc, cons_append]

theorem mem_trace (es : List ε) (x : Entry σ ε ω) : x ∈ M.trace es ↔ ∃ before e after, es = before ++ e :: after ∧
      x = M.entry (M.run before) e := by
  refine run_induction (P := fun es => x ∈ M.trace es ↔ ∃ before e after,
    es = before ++ e :: after ∧ x = M.entry (M.run before) e) (by simp [trace_nil]) ?_ es
  intro es e ih
  rw [trace_snoc, mem_append, ih, mem_singleton]
  constructor
  · rintro (⟨b, a, c, rfl, rfl⟩ | rfl)
    · exact ⟨b, a, c ++ [e], by simp, rfl⟩
    · exact ⟨es, e, [], rfl, rfl⟩
  · rintro ⟨b, a, c, hs, rfl⟩
    rcases eq_nil_or_concat c with rfl | ⟨c', z, rfl⟩
    · obtain ⟨rfl, he⟩ := append_inj' hs rfl
      exact Or.inr (by rw [singleton_inj.1 he])
    · have hs' : es ++ [e] = (b ++ a :: c') ++ [z] := by simpa using hs
      obtain ⟨rfl, -⟩ := append_inj' hs' rfl
      exact Or.inl ⟨b, a, c', rfl, rfl⟩

end Machine
