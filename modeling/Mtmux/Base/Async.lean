import Mathlib.Tactic.Common

/-! Asynchronous functions that run one at a time between their awaits. A task reads and writes
shared state and emits outputs without interruption; at a call it is suspended, and everything
else may happen before the answer is there. -/

/-- `σ` is the shared state, `ω` the outputs, `ε` what is thrown, `R c` the answer to call `c`. -/
inductive Async (σ ω ε : Type) {C : Type} (R : C → Type) (α : Type) where
  | done (a : α)
  | throw (e : ε)
  | read (next : σ → Async σ ω ε R α)
  | write (f : σ → σ) (next : Async σ ω ε R α)
  | emit (o : ω) (next : Async σ ω ε R α)
  | await (c : C) (next : Except ε (R c) → Async σ ω ε R α)

namespace Async
variable {σ ω ε C : Type} {R : C → Type} {α β : Type}

def bind : Async σ ω ε R α → (α → Async σ ω ε R β) → Async σ ω ε R β
  | .done a, f => f a
  | .throw e, _ => .throw e
  | .read next, f => .read fun s => (next s).bind f
  | .write g next, f => .write g (next.bind f)
  | .emit o next, f => .emit o (next.bind f)
  | .await c next, f => .await c fun r => (next r).bind f

instance : Monad (Async σ ω ε R) where
  pure := .done
  bind := bind

def catching : Async σ ω ε R α → (ε → Async σ ω ε R α) → Async σ ω ε R α
  | .done a, _ => .done a
  | .throw e, handler => handler e
  | .read next, handler => .read fun s => (next s).catching handler
  | .write g next, handler => .write g (next.catching handler)
  | .emit o next, handler => .emit o (next.catching handler)
  | .await c next, handler => .await c fun r => (next r).catching handler

/-- Wait for the answer; a call that fails throws. -/
def call (c : C) : Async σ ω ε R (R c) :=
  .await c fun
    | .ok r => .done r
    | .error e => .throw e

def get : Async σ ω ε R σ := .read .done

def modify (f : σ → σ) : Async σ ω ε R Unit := .write f (.done ())

def say (o : ω) : Async σ ω ε R Unit := .emit o (.done ())

/-- Where a task stands when it can run no further by itself. -/
inductive Pause (σ ω ε : Type) {C : Type} (R : C → Type) (α : Type) where
  | returned (result : Except ε α)
  | waiting (c : C) (next : Except ε (R c) → Async σ ω ε R α)

/-- Run up to the next call. -/
def advance : Async σ ω ε R α → σ → σ × List ω × Pause σ ω ε R α
  | .done a, s => (s, [], .returned (.ok a))
  | .throw e, s => (s, [], .returned (.error e))
  | .read next, s => (next s).advance s
  | .write f next, s => next.advance (f s)
  | .emit o next, s => ((next.advance s).1, o :: (next.advance s).2.1, (next.advance s).2.2)
  | .await c next, s => (s, [], .waiting c next)

/-- A call and its answer. -/
abbrev Exchange (ε : Type) {C : Type} (R : C → Type) : Type := (c : C) × Except ε (R c)

/-- After this log of calls and answers, whatever it read meanwhile, the first task can stand
at the second. -/
inductive Reaches : Async σ ω ε R α → List (Exchange ε R) → Async σ ω ε R α → Prop where
  | here (t : Async σ ω ε R α) : Reaches t [] t
  | read {next : σ → Async σ ω ε R α} {log t} (s : σ) : Reaches (next s) log t →
      Reaches (.read next) log t
  | write {f : σ → σ} {next log} {t : Async σ ω ε R α} : Reaches next log t →
      Reaches (.write f next) log t
  | emit {o : ω} {next log} {t : Async σ ω ε R α} : Reaches next log t →
      Reaches (.emit o next) log t
  | await {c : C} {next : Except ε (R c) → Async σ ω ε R α} {log t} (r : Except ε (R c)) :
      Reaches (next r) log t → Reaches (.await c next) (⟨c, r⟩ :: log) t

/-- Every call made is one of `P`, and what is returned is one of `Q`, whatever is read and
answered. -/
def Calls (P : C → Prop) (Q : α → Prop) : Async σ ω ε R α → Prop
  | .done a => Q a
  | .throw _ => True
  | .read next => ∀ s, (next s).Calls P Q
  | .write _ next => next.Calls P Q
  | .emit _ next => next.Calls P Q
  | .await c next => P c ∧ ∀ r, (next r).Calls P Q

section Calls
variable {P : C → Prop} {Q : α → Prop}

variable {t : Async σ ω ε R α}

theorem calls_bind {Q : β → Prop} {f : α → Async σ ω ε R β} :
    (t >>= f).Calls P Q ↔ t.Calls P fun a => (f a).Calls P Q := by
  change (t.bind f).Calls P Q ↔ _
  induction t with
  | done _ | throw _ => rfl
  | read next ih => simp only [bind, Calls, ih]
  | write g next ih => simp only [bind, Calls, ih]
  | emit o next ih => simp only [bind, Calls, ih]
  | await c next ih => simp only [bind, Calls, ih]

theorem calls_call {c : C} {Q : R c → Prop} : (call c : Async σ ω ε R (R c)).Calls P Q ↔ P c ∧ ∀ r, Q r := by
  constructor
  · intro h
    exact ⟨h.1, fun r => h.2 (.ok r)⟩
  · intro h
    refine ⟨h.1, fun r => ?_⟩
    cases r with
    | ok r => exact h.2 r
    | error e => trivial

theorem Calls.catching {handler : ε → Async σ ω ε R α} (h : t.Calls P Q)
    (hhandler : ∀ e, (handler e).Calls P Q) : (t.catching handler).Calls P Q := by
  induction t with
  | done a => exact h
  | throw e => exact hhandler e
  | read next ih => exact fun s => ih s (h s)
  | write g next ih => exact ih h
  | emit o next ih => exact ih h
  | await c next ih => exact ⟨h.1, fun r => ih r (h.2 r)⟩

theorem Calls.mono {P' : C → Prop} {Q' : α → Prop} (h : t.Calls P Q)
    (hP : ∀ c, P c → P' c) (hQ : ∀ a, Q a → Q' a) : t.Calls P' Q' := by
  induction t with
  | done a => exact hQ a h
  | throw e => trivial
  | read next ih => exact fun s => ih s (h s)
  | write g next ih => exact ih h
  | emit o next ih => exact ih h
  | await c next ih => exact ⟨hP c h.1, fun r => ih r (h.2 r)⟩

theorem calls_of_forall (hP : ∀ c, P c) (hQ : ∀ a, Q a) (t : Async σ ω ε R α) : t.Calls P Q := by
  induction t with
  | done a => exact hQ a
  | throw e => trivial
  | read next ih => exact fun s => ih s
  | write g next ih => exact ih
  | emit o next ih => exact ih
  | await c next ih => exact ⟨hP c, ih⟩

/-- The call a task stands at is one of those it may make. -/
theorem Reaches.call_of_calls {log : List (Exchange ε R)} {c : C}
    {next : Except ε (R c) → Async σ ω ε R α} (hreach : t.Reaches log (.await c next)) (h : t.Calls P Q) : P c := by
  generalize htarget : Async.await c next = target at hreach
  induction hreach with
  | here t =>
    subst htarget
    exact h.1
  | read s _ ih => exact ih (h s) htarget
  | write _ ih => exact ih h htarget
  | emit _ ih => exact ih h htarget
  | await r _ ih => exact ih (h.2 r) htarget

end Calls

/-- Once a call of `P` is answered the task has returned, and what goes with the call. -/
def ReturnsAfter (P : C → Prop) (Q : C → α → Prop) : Async σ ω ε R α → Prop
  | .done _ | .throw _ => True
  | .read next => ∀ s, (next s).ReturnsAfter P Q
  | .write _ next => next.ReturnsAfter P Q
  | .emit _ next => next.ReturnsAfter P Q
  | .await c next => ∀ r, (next r).ReturnsAfter P Q ∧ (P c → ∀ a, r = .ok a → ∃ b, next r = .done b ∧ Q c b)

section ReturnsAfter
variable {P : C → Prop} {Q : C → β → Prop} {t : Async σ ω ε R α}

theorem returnsAfter_bind {f : α → Async σ ω ε R β} (h : t.Calls (fun c => ¬ P c) fun a => (f a).ReturnsAfter P Q) :
    (t >>= f).ReturnsAfter P Q := by
  change (t.bind f).ReturnsAfter P Q
  induction t with
  | done a => exact h
  | throw e => trivial
  | read next ih => exact fun s => ih s (h s)
  | write g next ih => exact ih h
  | emit o next ih => exact ih h
  | await c next ih => exact fun r => ⟨ih r (h.2 r), fun hc => absurd hc h.1⟩

theorem Reaches.returned {t u : Async σ ω ε R β} {log : List (Exchange ε R)} {c : C} {a : R c}
    (hreach : t.Reaches log u) (h : t.ReturnsAfter P Q) (hc : P c) (hmem : ⟨c, .ok a⟩ ∈ log) :
    ∃ b, u = .done b ∧ Q c b := by
  induction hreach with
  | here t => cases hmem
  | read s _ ih => exact ih (h s) hmem
  | write _ ih => exact ih h hmem
  | emit _ ih => exact ih h hmem
  | await r hrest ih =>
    cases hmem with
    | head =>
      obtain ⟨b, hdone, hb⟩ := (h _).2 hc a rfl
      rw [hdone] at hrest
      cases hrest
      exact ⟨b, rfl, hb⟩
    | tail _ hmem => exact ih (h r).1 hmem

end ReturnsAfter

section Reaches
variable {log : List (Exchange ε R)}

variable {t : Async σ ω ε R α}

/-- What a sequence returns, its second part returned, after what the first part returned. -/
theorem reaches_bind_done {f : α → Async σ ω ε R β} {b : β}
    (h : (t >>= f).Reaches log (.done b)) : ∃ before after a, log = before ++ after ∧
      t.Reaches before (.done a) ∧ (f a).Reaches after (.done b) := by
  change (t.bind f).Reaches log (.done b) at h
  induction t generalizing log with
  | done a => exact ⟨[], log, a, rfl, .here _, h⟩
  | throw e => cases h
  | read next ih =>
    cases h with
    | read s h =>
      obtain ⟨before, after, a, rfl, hbefore, hafter⟩ := ih s h
      exact ⟨before, after, a, rfl, .read s hbefore, hafter⟩
  | write g next ih =>
    cases h with
    | write h =>
      obtain ⟨before, after, a, rfl, hbefore, hafter⟩ := ih h
      exact ⟨before, after, a, rfl, .write hbefore, hafter⟩
  | emit o next ih =>
    cases h with
    | emit h =>
      obtain ⟨before, after, a, rfl, hbefore, hafter⟩ := ih h
      exact ⟨before, after, a, rfl, .emit hbefore, hafter⟩
  | await c next ih =>
    cases h with
    | await r h =>
      obtain ⟨before, after, a, rfl, hbefore, hafter⟩ := ih r h
      exact ⟨_, after, a, rfl, .await r hbefore, hafter⟩

/-- What a guarded task returns, the task itself returned or its handler did. -/
theorem reaches_catching_done {handler : ε → Async σ ω ε R α} {a : α} (h : (t.catching handler).Reaches log (.done a)) :
    t.Reaches log (.done a) ∨ ∃ e after, (handler e).Reaches after (.done a) := by
  induction t generalizing log with
  | done b => exact .inl h
  | throw e => exact .inr ⟨e, log, h⟩
  | read next ih =>
    cases h with
    | read s h => exact (ih s h).imp_left (.read s)
  | write g next ih =>
    cases h with
    | write h => exact (ih h).imp_left .write
  | emit o next ih =>
    cases h with
    | emit h => exact (ih h).imp_left .emit
  | await c next ih =>
    cases h with
    | await r h => exact (ih r h).imp_left (.await r)

theorem reaches_call_done {c : C} {r : R c}
    (h : (call c : Async σ ω ε R (R c)).Reaches log (.done r)) : log = [⟨c, .ok r⟩] := by
  cases h with
  | await answer h =>
    cases answer with
    | ok r' =>
      cases h
      rfl
    | error e => cases h

theorem reaches_pure_done {a b : α} (h : (pure a : Async σ ω ε R α).Reaches log (.done b)) : a = b ∧ log = [] := by
  cases h
  exact ⟨rfl, rfl⟩

end Reaches

end Async
