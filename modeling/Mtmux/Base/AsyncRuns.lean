import Mtmux.Base.Async
import Mtmux.Base.Machine
import Mtmux.Base.OrderedMap

/-! Any number of asynchronous functions over one shared state. Each stands at an await; a call is carried out
at one moment and its caller goes on at a later one, and anything may happen between. -/
namespace Async
open OrderedMap List
variable {σ ω ε C : Type} {R : C → Type} {α : Type} {J X E : Type}

/-- What stands still: a call not yet carried out, or what is left to do after its answer. -/
inductive Stage (σ ω ε : Type) {C : Type} (R : C → Type) (α : Type) where
  | asking (c : C) (next : Except ε (R c) → Async σ ω ε R α)
  | answered (rest : Async σ ω ε R α)
  | returned (result : Except ε α)
  | lost

def Pause.stage : Pause σ ω ε R α → Stage σ ω ε R α
  | .waiting c next => .asking c next
  | .returned result => .returned result

def Stage.crashed : Stage σ ω ε R α → Stage σ ω ε R α
  | .returned result => .returned result
  | _ => .lost

structure Running (σ ω ε : Type) {C : Type} (R : C → Type) (α J : Type) where
  job : J
  log : List (Exchange ε R)
  stage : Stage σ ω ε R α

/-- `exec` carries out a call, with whatever the surroundings decide; `other` is what happens besides. -/
structure Host (σ ω ε : Type) {C : Type} (R : C → Type) (α J X E : Type) where
  program : J → Async σ ω ε R α
  exec : σ → (c : C) → X → σ × Except ε (R c)
  other : σ → E → σ

inductive Happening (J X E : Type) where
  | start (job : J)
  | exec (id : Nat) (x : X)
  | resume (id : Nat)
  | other (e : E)
  | crash

structure World (σ ω ε : Type) {C : Type} (R : C → Type) (α J : Type) where
  shared : σ
  tasks : OrderedMap Nat (Running σ ω ε R α J)
  next : Nat

namespace World

def begin (shared : σ) : World σ ω ε R α J := ⟨shared, .empty, 0⟩

/-- Run the task up to its next call. -/
def goOn (w : World σ ω ε R α J) (id : Nat) (job : J) (log : List (Exchange ε R))
    (t : Async σ ω ε R α) : World σ ω ε R α J × List (Nat × ω) :=
  ({ w with
      shared := (t.advance w.shared).1
      tasks := w.tasks.set id ⟨job, log, (t.advance w.shared).2.2.stage⟩ },
    (t.advance w.shared).2.1.map (Prod.mk id))

end World

namespace Host

def step (host : Host σ ω ε R α J X E) (w : World σ ω ε R α J) :
    Happening J X E → World σ ω ε R α J × List (Nat × ω)
  | .start job => World.goOn { w with next := w.next + 1 } w.next job [] (host.program job)
  | .exec id x =>
    match w.tasks.get id with
    | some ⟨job, log, .asking c next⟩ =>
      ({ w with
          shared := (host.exec w.shared c x).1
          tasks := w.tasks.set id
            ⟨job, log ++ [⟨c, (host.exec w.shared c x).2⟩], .answered (next (host.exec w.shared c x).2)⟩ }, [])
    | _ => (w, [])
  | .resume id =>
    match w.tasks.get id with
    | some ⟨job, log, .answered rest⟩ => w.goOn id job log rest
    | _ => (w, [])
  | .other e => ({ w with shared := host.other w.shared e }, [])
  | .crash => ({ w with tasks := w.tasks.mapValues fun r => { r with stage := r.stage.crashed } }, [])

def machine (host : Host σ ω ε R α J X E) (shared : σ) :
    Machine (World σ ω ε R α J) (Happening J X E) (Nat × ω) :=
  ⟨.begin shared, host.step⟩

/-- What one step does. -/
inductive Moves (host : Host σ ω ε R α J X E) (w : World σ ω ε R α J) :
    Happening J X E → World σ ω ε R α J → List (Nat × ω) → Prop
  | idle (e : Happening J X E) : Moves host w e w []
  | start (job : J) : Moves host w (.start job)
      ⟨((host.program job).advance w.shared).1,
        w.tasks.set w.next ⟨job, [], ((host.program job).advance w.shared).2.2.stage⟩, w.next + 1⟩
      (((host.program job).advance w.shared).2.1.map (Prod.mk w.next))
  | exec {id : Nat} {x : X} {job : J} {log : List (Exchange ε R)} {c : C}
      {next : Except ε (R c) → Async σ ω ε R α}
      (hget : w.tasks.get id = some ⟨job, log, .asking c next⟩) : Moves host w (.exec id x)
      ⟨(host.exec w.shared c x).1, w.tasks.set id ⟨job, log ++ [⟨c, (host.exec w.shared c x).2⟩],
        .answered (next (host.exec w.shared c x).2)⟩, w.next⟩ []
  | resume {id : Nat} {job : J} {log : List (Exchange ε R)} {rest : Async σ ω ε R α}
      (hget : w.tasks.get id = some ⟨job, log, .answered rest⟩) : Moves host w (.resume id)
      ⟨(rest.advance w.shared).1, w.tasks.set id ⟨job, log, (rest.advance w.shared).2.2.stage⟩, w.next⟩
      ((rest.advance w.shared).2.1.map (Prod.mk id))
  | other (e : E) : Moves host w (.other e) { w with shared := host.other w.shared e } []
  | crash : Moves host w .crash
      { w with tasks := w.tasks.mapValues fun r => { r with stage := r.stage.crashed } } []

theorem step_moves (host : Host σ ω ε R α J X E) (w : World σ ω ε R α J) (e : Happening J X E) :
    Moves host w e (host.step w e).1 (host.step w e).2 := by
  cases e with
  | start job => exact .start job
  | exec id x =>
    simp only [step]
    split
    · rename_i hget
      exact .exec hget
    · exact .idle _
  | resume id =>
    simp only [step]
    split
    · rename_i hget
      exact .resume hget
    · exact .idle _
  | other e => exact .other e
  | crash => exact .crash

/-- What holds of every task holds after a step, if it does of the one that has moved. -/
theorem Moves.forall_tasks {host : Host σ ω ε R α J X E} {w w' : World σ ω ε R α J} {e : Happening J X E}
    {out : List (Nat × ω)} (hmoves : Moves host w e w' out) {P : Nat → Running σ ω ε R α J → Prop}
    (h : ∀ id r, w.tasks.get id = some r → P id r)
    (hstart : ∀ job, e = .start job → P w.next ⟨job, [], ((host.program job).advance w.shared).2.2.stage⟩)
    (hexec : ∀ id x job log c next, e = .exec id x → w.tasks.get id = some ⟨job, log, .asking c next⟩ →
      P id ⟨job, log ++ [⟨c, (host.exec w.shared c x).2⟩], .answered (next (host.exec w.shared c x).2)⟩)
    (hresume : ∀ id job log rest, e = .resume id → w.tasks.get id = some ⟨job, log, .answered rest⟩ →
      P id ⟨job, log, (rest.advance w.shared).2.2.stage⟩)
    (hcrash : ∀ id r, w.tasks.get id = some r → P id { r with stage := r.stage.crashed }) :
    ∀ id r, w'.tasks.get id = some r → P id r := by
  cases hmoves with
  | idle | other _ => exact h
  | start job => exact forall_set h (hstart job rfl)
  | exec hget => exact forall_set h (hexec _ _ _ _ _ _ rfl hget)
  | resume hget => exact forall_set h (hresume _ _ _ _ rfl hget)
  | crash =>
    intro id r hr
    simp only [get_mapValues] at hr
    obtain ⟨was, hget, rfl⟩ := Option.map_eq_some_iff.1 hr
    exact hcrash id was hget

end Host

/- Where a task can stand. -/

variable {t u : Async σ ω ε R α} {log : List (Exchange ε R)}

theorem Reaches.append {v : Async σ ω ε R α} {log' : List (Exchange ε R)}
    (h : t.Reaches log u) (h' : u.Reaches log' v) : t.Reaches (log ++ log') v := by
  induction h with
  | here t => exact h'
  | read s _ ih => exact .read s (ih h')
  | write _ ih => exact .write (ih h')
  | emit _ ih => exact .emit (ih h')
  | await r _ ih => exact .await r (ih h')

/-- What is still to be done. -/
def Stage.rest : Stage σ ω ε R α → Option (Async σ ω ε R α)
  | .asking c next => some (.await c next)
  | .answered rest => some rest
  | .returned (.ok a) => some (.done a)
  | .returned (.error e) => some (.throw e)
  | .lost => none

theorem advance_reaches (t : Async σ ω ε R α) (s : σ) : ∀ u ∈ (t.advance s).2.2.stage.rest, t.Reaches [] u := by
  induction t generalizing s with
  | read next ih => exact fun u hu => .read s (ih s s u hu)
  | write f next ih => exact fun u hu => .write (ih (f s) u hu)
  | emit o next ih => exact fun u hu => .emit (ih s u hu)
  | _ =>
    intro u hu
    cases hu
    exact .here _

/-- The task stands where its answers have brought it. -/
def Running.Stands (host : Host σ ω ε R α J X E) (r : Running σ ω ε R α J) : Prop :=
  ∀ t ∈ r.stage.rest, (host.program r.job).Reaches r.log t

variable {host : Host σ ω ε R α J X E}

theorem stands_advance {job : J} (h : (host.program job).Reaches log t) (s : σ) :
    Running.Stands host ⟨job, log, (t.advance s).2.2.stage⟩ := by
  intro u hu
  have hall := h.append (advance_reaches t s u hu)
  rw [append_nil] at hall
  exact hall

theorem stands_crashed {r : Running σ ω ε R α J} (h : r.Stands host) :
    Running.Stands host { r with stage := r.stage.crashed } := by
  obtain ⟨job, log, stage⟩ := r
  cases stage with
  | returned result => exact h
  | _ =>
    intro t ht
    cases ht

variable {w : World σ ω ε R α J}

theorem stands_step {w' : World σ ω ε R α J} {e : Happening J X E}
    {out : List (Nat × ω)} (hmoves : Host.Moves host w e w' out) (h : ∀ id r, w.tasks.get id = some r → r.Stands host) :
    ∀ id r, w'.tasks.get id = some r → r.Stands host := by
  refine hmoves.forall_tasks h (fun job _ => stands_advance (.here _) _) ?_ ?_ fun id r hget => stands_crashed (h id r hget)
  · intro id x job log c next _ hget t ht
    cases ht
    exact (h id _ hget _ rfl).append (.await _ (.here _))
  · exact fun id job log rest _ hget => stands_advance (h id _ hget _ rfl) _

theorem stands_run (host : Host σ ω ε R α J X E) (shared : σ) (es : List (Happening J X E)) :
    ∀ id r, ((host.machine shared).run es).tasks.get id = some r → r.Stands host := by
  refine (host.machine shared).run_invariant (I := fun w => ∀ id r, w.tasks.get id = some r → r.Stands host)
    ?_ ?_ es
  · intro id r hr
    cases hr
  · intro w e h
    exact stands_step (host.step_moves w e) h

/- The ids given out. -/

theorem fresh_run (host : Host σ ω ε R α J X E) (shared : σ) (es : List (Happening J X E)) :
    ∀ id r, ((host.machine shared).run es).tasks.get id = some r → id < ((host.machine shared).run es).next := by
  refine (host.machine shared).run_invariant (I := fun w => ∀ id r, w.tasks.get id = some r → id < w.next)
    ?_ ?_ es
  · intro id r hr
    cases hr
  · intro w e h
    have hmoves := host.step_moves w e
    change ∀ id r, (host.step w e).1.tasks.get id = some r → id < (host.step w e).1.next
    generalize (host.step w e).1 = w', (host.step w e).2 = out at hmoves
    cases hmoves with
    | idle | other _ => exact h
    | start job => exact forall_set (fun id r hget => Nat.lt_succ_of_lt (h id r hget)) (Nat.lt_succ_self _)
    | exec hget => exact forall_set h (h _ _ hget)
    | resume hget => exact forall_set h (h _ _ hget)
    | crash =>
      intro id r hr
      simp only [get_mapValues] at hr
      obtain ⟨was, hget, -⟩ := Option.map_eq_some_iff.1 hr
      exact h id was hget

/- Tasks that leave the shared state to their calls. -/

def ReadOnly : Async σ ω ε R α → Prop
  | .done _ | .throw _ => True
  | .read next => ∀ s, (next s).ReadOnly
  | .write _ _ => False
  | .emit _ next => next.ReadOnly
  | .await _ next => ∀ r, (next r).ReadOnly

theorem Reaches.readOnly (h : t.Reaches log u) (ht : t.ReadOnly) : u.ReadOnly := by
  induction h with
  | here t => exact ht
  | read s _ ih => exact ih (ht s)
  | write _ _ => exact ht.elim
  | emit _ ih => exact ih ht
  | await r _ ih => exact ih (ht r)

theorem ReadOnly.advance (h : t.ReadOnly) (s : σ) : (t.advance s).1 = s := by
  induction t generalizing s with
  | done _ | throw _ => rfl
  | read next ih => exact ih s (h s) s
  | write f next _ => exact h.elim
  | emit o next ih => exact ih h s
  | await c next _ => rfl

theorem readOnly_bind {β : Type} {f : α → Async σ ω ε R β} (ht : t.ReadOnly)
    (hf : ∀ a, (f a).ReadOnly) : (t >>= f).ReadOnly := by
  change (t.bind f).ReadOnly
  induction t with
  | done a => exact hf a
  | throw e => trivial
  | read next ih => exact fun s => ih s (ht s)
  | write g next _ => exact ht.elim
  | emit o next ih => exact ih ht
  | await c next ih => exact fun r => ih r (ht r)

theorem readOnly_call (c : C) : (call c : Async σ ω ε R (R c)).ReadOnly := by
  intro r
  cases r with
  | ok _ | error _ => trivial

theorem readOnly_catching {handler : ε → Async σ ω ε R α} (ht : t.ReadOnly)
    (hhandler : ∀ e, (handler e).ReadOnly) : (t.catching handler).ReadOnly := by
  induction t with
  | done a => trivial
  | throw e => exact hhandler e
  | read next ih => exact fun s => ih s (ht s)
  | write g next _ => exact ht.elim
  | emit o next ih => exact ih ht
  | await c next ih => exact fun r => ih r (ht r)

/-- All calls carried out at once, one after another, with nothing between. -/
def alone (exec : σ → (c : C) → σ × Except ε (R c)) : Async σ ω ε R α → σ → Except ε α
  | .done a, _ => .ok a
  | .throw e, _ => .error e
  | .read next, s => (next s).alone exec s
  | .write f next, s => next.alone exec (f s)
  | .emit _ next, s => next.alone exec s
  | .await c next, s => (next (exec s c).2).alone exec (exec s c).1

/- What a task has called and what it returns, by what it may call and return. -/

theorem Reaches.log_of_calls {P : C → Prop} {Q : α → Prop}
    (h : t.Reaches log u) (ht : t.Calls P Q) : ∀ x ∈ log, P x.1 := by
  induction h with
  | here t =>
    intro x hx
    cases hx
  | read s _ ih => exact ih (ht s)
  | write _ ih => exact ih ht
  | emit _ ih => exact ih ht
  | await r _ ih =>
    intro x hx
    cases mem_cons.1 hx with
    | inl hhead =>
      subst hhead
      exact ht.1
    | inr htail => exact ih (ht.2 r) x htail

theorem Reaches.result_of_calls {P : C → Prop} {Q : α → Prop} {a : α}
    (h : t.Reaches log (.done a)) (ht : t.Calls P Q) : Q a := by
  generalize htarget : Async.done a = target at h
  induction h with
  | here t =>
    subst htarget
    exact ht
  | read s _ ih => exact ih (ht s) htarget
  | write _ ih => exact ih ht htarget
  | emit _ ih => exact ih ht htarget
  | await r _ ih => exact ih (ht.2 r) htarget

/- Where the parts of a task stand. -/

section Parts
variable {β : Type} {log : List (Exchange ε R)} {c : C}

variable {t : Async σ ω ε R α}

/-- A call comes in `t`, or in `second` when `t` is over. -/
def AsksIn {γ : Type} (t : Async σ ω ε R α) (ends : γ → Async σ ω ε R α) (second : γ → Async σ ω ε R β)
    (next : Except ε (R c) → Async σ ω ε R β) (log : List (Exchange ε R)) : Prop :=
  (∃ next', t.Reaches log (.await c next')) ∨ ∃ before after a, log = before ++ after ∧
    t.Reaches before (ends a) ∧ (second a).Reaches after (.await c next)

theorem AsksIn.after {γ : Type} {u : Async σ ω ε R α} {ends : γ → Async σ ω ε R α} {second : γ → Async σ ω ε R β}
    {next : Except ε (R c) → Async σ ω ε R β} {l : List (Exchange ε R)} (h : AsksIn t ends second next log)
    (hstep : ∀ {log v}, t.Reaches log v → u.Reaches (l ++ log) v) : AsksIn u ends second next (l ++ log) := by
  cases h with
  | inl hfirst => exact .inl ⟨_, hstep hfirst.choose_spec⟩
  | inr hsecond =>
    obtain ⟨before, after, a, rfl, hbefore, hafter⟩ := hsecond
    exact .inr ⟨_, after, a, (append_assoc ..).symm, hstep hbefore, hafter⟩

/-- A sequence asks what its first part asks, and then what its second part asks. -/
theorem asks_bind {f : α → Async σ ω ε R β} {next : Except ε (R c) → Async σ ω ε R β}
    (h : (t >>= f).Reaches log (.await c next)) :
    (∃ next', t.Reaches log (.await c next')) ∨ ∃ before after a, log = before ++ after ∧
      t.Reaches before (.done a) ∧ (f a).Reaches after (.await c next) := by
  change (t.bind f).Reaches log (.await c next) at h
  induction t generalizing log with
  | done a => exact .inr ⟨[], log, a, rfl, .here _, h⟩
  | throw e => cases h
  | read next' ih =>
    cases h with
    | read s h => exact AsksIn.after (l := []) (ih s h) (.read s)
  | write g next' ih =>
    cases h with
    | write h => exact AsksIn.after (l := []) (ih h) .write
  | emit o next' ih =>
    cases h with
    | emit h => exact AsksIn.after (l := []) (ih h) .emit
  | await c' next' ih =>
    cases h with
    | here => exact .inl ⟨next', .here _⟩
    | await r h => exact AsksIn.after (l := [_]) (ih r h) (.await r)

theorem asks_catching {handler : ε → Async σ ω ε R α}
    {next : Except ε (R c) → Async σ ω ε R α} (h : (t.catching handler).Reaches log (.await c next)) :
    (∃ next', t.Reaches log (.await c next')) ∨ ∃ before after e, log = before ++ after ∧
      t.Reaches before (.throw e) ∧ (handler e).Reaches after (.await c next) := by
  induction t generalizing log with
  | done a => cases h
  | throw e => exact .inr ⟨[], log, e, rfl, .here _, h⟩
  | read next' ih =>
    cases h with
    | read s h => exact AsksIn.after (l := []) (ih s h) (.read s)
  | write g next' ih =>
    cases h with
    | write h => exact AsksIn.after (l := []) (ih h) .write
  | emit o next' ih =>
    cases h with
    | emit h => exact AsksIn.after (l := []) (ih h) .emit
  | await c' next' ih =>
    cases h with
    | here => exact .inl ⟨next', .here _⟩
    | await r h => exact AsksIn.after (l := [_]) (ih r h) (.await r)

theorem asks_call {c' : C} {next : Except ε (R c') → Async σ ω ε R (R c)}
    (h : (call c : Async σ ω ε R (R c)).Reaches log (.await c' next)) : log = [] ∧ c' = c := by
  cases h with
  | here => exact ⟨rfl, rfl⟩
  | await answer h =>
    cases answer with
    | ok _ | error _ => cases h

theorem reaches_call_throw {e : ε}
    (h : (call c : Async σ ω ε R (R c)).Reaches log (.throw e)) : log = [⟨c, .error e⟩] := by
  cases h with
  | await answer h =>
    cases answer with
    | ok r => cases h
    | error e' =>
      cases h
      rfl

end Parts

/- What has been answered so far, task by task. -/

def World.history (w : World σ ω ε R α J) (id : Nat) : Option (J × List (Exchange ε R)) :=
  (w.tasks.get id).map fun r => (r.job, r.log)

theorem World.history_some {id : Nat} {job : J}
    (h : w.history id = some (job, log)) : ∃ stage, w.tasks.get id = some ⟨job, log, stage⟩ := by
  unfold World.history at h
  cases hget : w.tasks.get id with
  | none =>
    rw [hget] at h
    cases h
  | some r =>
    rw [hget] at h
    obtain ⟨job', log', stage⟩ := r
    cases h
    exact ⟨stage, rfl⟩

theorem World.history_get {id : Nat} {r : Running σ ω ε R α J} (h : w.tasks.get id = some r) :
    w.history id = some (r.job, r.log) := by
  rw [history, h]
  rfl

theorem World.history_set (tasks : OrderedMap Nat (Running σ ω ε R α J)) (shared shared' : σ)
    (next next' id : Nat) (job : J) (log : List (Exchange ε R)) (stage : Stage σ ω ε R α) :
    World.history ⟨shared', tasks.set id ⟨job, log, stage⟩, next'⟩ =
      Function.update (World.history ⟨shared, tasks, next⟩) id (some (job, log)) := by
  funext id'
  unfold World.history
  simp only [get_set, Function.update_apply]
  split
  · rfl
  · rfl

section History
variable {h : Nat → Option (J × List (Exchange ε R))} {p : J → List (Exchange ε R) → Prop} {i j : Nat} {job job' : J}
  {log log' : List (Exchange ε R)} {x y : Exchange ε R}

/-- What `p` says is so of task `i`. -/
def Holds (h : Nat → Option (J × List (Exchange ε R))) (p : J → List (Exchange ε R) → Prop) (i : Nat) : Prop :=
  ∃ job log, h i = some (job, log) ∧ p job log

/-- Task `i` has had the answer `x`. -/
def Heard (h : Nat → Option (J × List (Exchange ε R))) (x : Exchange ε R) (i : Nat) : Prop :=
  Holds h (fun _ log => x ∈ log) i

theorem holds_here (hi : h i = some (job, log)) : Holds h p i ↔ p job log := by
  constructor
  · rintro ⟨job', log', hsame, hp⟩
    cases hi.symm.trans hsame
    exact hp
  · exact fun hp => ⟨job, log, hi, hp⟩

theorem holds_update : Holds (Function.update h i (some (job, log))) p j ↔ if j = i then p job log else Holds h p j := by
  split
  · rename_i hji
    subst hji
    exact holds_here (Function.update_self ..)
  · rename_i hji
    simp [Holds, Function.update_of_ne hji]

/-- What is so of a task stays as it is. -/
theorem holds_kept (hold : Holds h p i ↔ p job log) : Holds (Function.update h i (some (job, log))) p j ↔ Holds h p j := by
  rw [holds_update]
  split
  · rename_i hji
    rw [hji, hold]
  · rfl

theorem holds_job {q : J → Prop} (hi : h i = some (job, log)) :
    Holds (Function.update h i (some (job, log'))) (fun job _ => q job) j ↔ Holds h (fun job _ => q job) j :=
  holds_kept (holds_here hi)

theorem holds_start (hi : h i = none) :
    Holds (Function.update h i (some (job, []))) p j ↔ j = i ∧ p job [] ∨ Holds h p j := by
  rw [holds_update]
  split
  · rename_i hji
    simp [hji, Holds, hi]
  · rename_i hji
    simp [hji]

theorem heard_start (hi : h i = none) : Heard (Function.update h i (some (job, []))) y j ↔ Heard h y j := by
  unfold Heard
  rw [holds_start hi]
  simp

theorem heard_answer (hi : h i = some (job, log)) :
    Heard (Function.update h i (some (job, log ++ [x]))) y j ↔ Heard h y j ∨ y = x ∧ j = i := by
  unfold Heard
  rw [holds_update]
  split
  · rename_i hji
    rw [hji, holds_here hi, mem_append, mem_singleton, and_iff_left rfl]
  · rename_i hji
    rw [or_iff_left fun hnew => hji hnew.2]

end History

/-- Only an answer adds to what has been answered, and only calls change the shared state. -/
theorem history_step {e : Happening J X E}
    {I : σ → (Nat → Option (J × List (Exchange ε R))) → Prop} (hread : ∀ job, (host.program job).ReadOnly)
    (hstands : ∀ id r, w.tasks.get id = some r → r.Stands host)
    (hfresh : ∀ id r, w.tasks.get id = some r → id < w.next) (h : I w.shared w.history)
    (hstart : ∀ job, e = .start job → w.history w.next = none →
      I w.shared (Function.update w.history w.next (some (job, []))))
    (hexec : ∀ id x job log c next, e = .exec id x → w.tasks.get id = some ⟨job, log, .asking c next⟩ →
      (host.program job).Reaches log (.await c next) → I (host.exec w.shared c x).1
        (Function.update w.history id (some (job, log ++ [⟨c, (host.exec w.shared c x).2⟩]))))
    (hother : ∀ e', e = .other e' → I (host.other w.shared e') w.history) :
    I (host.step w e).1.shared (host.step w e).1.history := by
  have hmoves := host.step_moves w e
  generalize (host.step w e).1 = w' at hmoves
  generalize (host.step w e).2 = out at hmoves
  cases hmoves with
  | idle => exact h
  | other e' => exact hother e' rfl
  | start job =>
    have hnone : w.history w.next = none := by
      unfold World.history
      cases hget : w.tasks.get w.next with
      | none => rfl
      | some r => exact absurd (hfresh _ r hget) (Nat.lt_irrefl _)
    rw [World.history_set w.tasks w.shared _ w.next, (hread job).advance]
    exact hstart job rfl hnone
  | @exec id x job log c next hget =>
    rw [World.history_set w.tasks w.shared _ w.next]
    exact hexec id x job log c next rfl hget (hstands id _ hget _ rfl)
  | @resume id job log rest hget =>
    have hrest := (hstands id _ hget rest rfl).readOnly (hread job)
    rw [World.history_set w.tasks w.shared _ w.next, hrest.advance]
    have hsame : Function.update w.history id (some (job, log)) = w.history :=
      Function.update_eq_self_iff.2 (World.history_get hget).symm
    change I w.shared (Function.update w.history id (some (job, log)))
    rw [hsame]
    exact h
  | crash =>
    have hsame : World.history { w with
        tasks := w.tasks.mapValues fun r => { r with stage := r.stage.crashed } } = w.history := by
      funext id
      unfold World.history
      simp only [get_mapValues]
      cases w.tasks.get id with
      | none | some _ => rfl
    exact hsame ▸ h

end Async
