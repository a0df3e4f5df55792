import Mtmux.Base.AsyncRuns

/-! Tasks that keep to terms: what one may do to the shared state between two awaits, what it may tell and call, and
what it may count on when it goes on after one. -/
namespace Async
open OrderedMap List
variable {σ ω ε C : Type} {R : C → Type} {α β J X E : Type}

/-- `inv` holds of the shared state whenever a task goes on, whatever the others did meanwhile, and `replies` of the
answers it gets. -/
structure Terms (σ ω ε : Type) {C : Type} (R : C → Type) where
  inv : σ → Prop
  may : σ → σ → Prop
  tells : σ → ω → Prop
  calls : C → Prop
  replies : (c : C) → Except ε (R c) → Prop
  keeps : ∀ {s s'}, inv s → may s s' → inv s'
  may_refl : ∀ s, may s s
  may_trans : ∀ {s s' s''}, may s s' → may s' s'' → may s s''

/-- From this state on the task keeps to the terms, and what it returns satisfies `Q` in the state it returns in. -/
def Within (T : Terms σ ω ε R) (Q : σ → α → Prop) : Async σ ω ε R α → σ → Prop
  | .done a, s => Q s a
  | .throw _, _ => True
  | .read next, s => (next s).Within T Q s
  | .write f next, s => T.may s (f s) ∧ next.Within T Q (f s)
  | .emit o next, s => T.tells s o ∧ next.Within T Q s
  | .await c next, _ => T.calls c ∧ ∀ s, T.inv s → ∀ r, T.replies c r → (next r).Within T Q s

section Rules
variable {T : Terms σ ω ε R} {Q : σ → α → Prop} {s : σ}

theorem within_call {c : C} {Q : σ → R c → Prop} (hc : T.calls c)
    (h : ∀ s, T.inv s → ∀ r, T.replies c (.ok r) → Q s r) : (call c : Async σ ω ε R (R c)).Within T Q s := by
  refine ⟨hc, ?_⟩
  intro s' hs' r hr
  cases r with
  | ok r => exact h s' hs' r hr
  | error e => trivial

variable {t : Async σ ω ε R α} {f : α → Async σ ω ε R β}

theorem within_bind {Q : σ → β → Prop} : (t >>= f).Within T Q s ↔ t.Within T (fun s' a => (f a).Within T Q s') s := by
  change (t.bind f).Within T Q s ↔ _
  induction t generalizing s with
  | done _ | throw _ => rfl
  | read next ih => exact ih s
  | write g next ih => simp only [bind, Within, ih]
  | emit o next ih => simp only [bind, Within, ih]
  | await c next ih => simp only [bind, Within, ih]

theorem within_get {f : σ → Async σ ω ε R α} : (get >>= f).Within T Q s ↔ (f s).Within T Q s := Iff.rfl

theorem within_read {g : σ → α} {Q : σ → β → Prop} :
    (read (fun s => done (g s)) >>= f).Within T Q s ↔ (f (g s)).Within T Q s := Iff.rfl

variable {Q' : σ → α → Prop}

/-- Besides what is asked of it, what a task returns comes in a state that satisfies the invariant. -/
theorem Within.mono (h : t.Within T Q s) (hs : T.inv s) (hQ : ∀ s a, T.inv s → Q s a → Q' s a) : t.Within T Q' s := by
  induction t generalizing s with
  | done a => exact hQ s a hs h
  | throw e => trivial
  | read next ih => exact ih s h hs
  | write g next ih => exact ⟨h.1, ih h.2 (T.keeps hs h.1)⟩
  | emit o next ih => exact ⟨h.1, ih h.2 hs⟩
  | await c next ih => exact ⟨h.1, fun s' hs' r hr => ih r (h.2 s' hs' r hr) hs'⟩

theorem Within.then {Q : σ → β → Prop}
    (h : t.Within T Q' s) (hs : T.inv s) (hf : ∀ s' a, T.inv s' → Q' s' a → (f a).Within T Q s') :
    (t >>= f).Within T Q s :=
  within_bind.2 (h.mono hs hf)

/-- A guarded task keeps to the terms when the task does, and its handler from every state that the task may have
left. -/
theorem Within.catching {handler : ε → Async σ ω ε R α} (h : t.Within T Q s)
    (hs : T.inv s) (hhandler : ∀ s', T.inv s' → ∀ e, (handler e).Within T Q s') :
    (t.catching handler).Within T Q s := by
  induction t generalizing s with
  | done a => exact h
  | throw e => exact hhandler s hs e
  | read next ih => exact ih s h hs
  | write g next ih => exact ⟨h.1, ih h.2 (T.keeps hs h.1)⟩
  | emit o next ih => exact ⟨h.1, ih h.2 hs⟩
  | await c next ih => exact ⟨h.1, fun s' hs' r hr => ih r (h.2 s' hs' r hr) hs'⟩

/-- Terms that ask for less, and rely on more, are kept to all the more. -/
theorem Within.weaken {T' : Terms σ ω ε R} (h : t.Within T Q s) (hs : T'.inv s)
    (hinv : ∀ s, T'.inv s → T.inv s) (hmay : ∀ s s', T.may s s' → T'.may s s')
    (htells : ∀ s o, T'.inv s → T.tells s o → T'.tells s o) (hcalls : ∀ c, T.calls c → T'.calls c)
    (hreplies : ∀ c r, T'.replies c r → T.replies c r) : t.Within T' Q s := by
  induction t generalizing s with
  | done a => exact h
  | throw e => trivial
  | read next ih => exact ih s h hs
  | write g next ih => exact ⟨hmay _ _ h.1, ih h.2 (T'.keeps hs (hmay _ _ h.1))⟩
  | emit o next ih => exact ⟨htells _ _ hs h.1, ih h.2 hs⟩
  | await c next ih =>
    exact ⟨hcalls c h.1, fun s' hs' r hr => ih r (h.2 s' (hinv s' hs') r (hreplies c r hr)) hs'⟩

end Rules

/-- The task keeps to the terms from every state it may find. -/
def Kept (T : Terms σ ω ε R) (t : Async σ ω ε R α) : Prop := ∀ s, T.inv s → t.Within T (fun _ _ => True) s

section Kept
variable {T : Terms σ ω ε R}

theorem kept_pure (a : α) : (pure a : Async σ ω ε R α).Kept T := fun _ _ => trivial

theorem kept_throw (e : ε) : (Async.throw e : Async σ ω ε R α).Kept T := fun _ _ => trivial

theorem kept_get : (get : Async σ ω ε R σ).Kept T := fun _ _ => trivial

theorem kept_modify {f : σ → σ} (h : ∀ s, T.inv s → T.may s (f s)) : (modify f : Async σ ω ε R Unit).Kept T :=
  fun s hs => ⟨h s hs, trivial⟩

theorem kept_say {o : ω} (h : ∀ s, T.inv s → T.tells s o) : (say o : Async σ ω ε R Unit).Kept T :=
  fun s hs => ⟨h s hs, trivial⟩

theorem kept_call {c : C} (h : T.calls c) : (call c : Async σ ω ε R (R c)).Kept T :=
  fun _ _ => within_call h fun _ _ _ _ => trivial

variable {t : Async σ ω ε R α}

theorem Kept.bind {f : α → Async σ ω ε R β} (h : t.Kept T) (hf : ∀ a, (f a).Kept T) : (t >>= f).Kept T :=
  fun s hs => (h s hs).then hs fun s' a hs' _ => hf a s' hs'

theorem kept_get_bind {f : σ → Async σ ω ε R β} (hf : ∀ s, T.inv s → (f s).Kept T) : (get >>= f).Kept T :=
  fun s hs => hf s hs s hs

theorem Kept.catching {handler : ε → Async σ ω ε R α} (h : t.Kept T)
    (hhandler : ∀ e, (handler e).Kept T) : (t.catching handler).Kept T :=
  fun s hs => (h s hs).catching hs fun s' hs' e => hhandler e s' hs'

end Kept

/-- What is left of a task keeps to the terms. -/
def Stage.Within (T : Terms σ ω ε R) (Q : σ → α → Prop) : Stage σ ω ε R α → Prop
  | .asking c next => T.calls c ∧ ∀ s, T.inv s → ∀ r, T.replies c r → (next r).Within T Q s
  | .answered rest => ∀ s, T.inv s → rest.Within T Q s
  | .returned _ | .lost => True

section Stretch
variable {T : Terms σ ω ε R} {Q : σ → α → Prop}

/-- One stretch of a task: what it does to the state, what it tells on the way, and where it comes to stand. -/
theorem Within.advance {t : Async σ ω ε R α} {s : σ} (h : t.Within T Q s) (hs : T.inv s) :
    T.may s (t.advance s).1 ∧ T.inv (t.advance s).1 ∧
      (∀ o ∈ (t.advance s).2.1, ∃ s', T.may s s' ∧ T.inv s' ∧ T.tells s' o) ∧ (t.advance s).2.2.stage.Within T Q := by
  have hnothing : ∀ {s : σ}, ∀ o ∈ ([] : List ω), ∃ s', T.may s s' ∧ T.inv s' ∧ T.tells s' o := by
    intro s o ho
    cases ho
  induction t generalizing s with
  | done _ | throw _ => exact ⟨T.may_refl s, hs, hnothing, trivial⟩
  | read next ih => exact ih s h hs
  | write f next ih =>
    obtain ⟨hmay, hinv, hout, hstage⟩ := ih h.2 (T.keeps hs h.1)
    refine ⟨T.may_trans h.1 hmay, hinv, ?_, hstage⟩
    intro o ho
    obtain ⟨s', hs', hrest⟩ := hout o ho
    exact ⟨s', T.may_trans h.1 hs', hrest⟩
  | emit o next ih =>
    obtain ⟨hmay, hinv, hout, hstage⟩ := ih h.2 hs
    refine ⟨hmay, hinv, ?_, hstage⟩
    intro o' ho'
    cases mem_cons.1 ho' with
    | inl hhere =>
      subst hhere
      exact ⟨s, T.may_refl s, hs, h.1⟩
    | inr hlater => exact hout o' hlater
  | await c next _ => exact ⟨T.may_refl s, hs, hnothing, h⟩

end Stretch

/-! ### What is called after the first answer -/

/-- Every call is one of `P`, as long as the answer to the first one is one of `F`. -/
def CallsAfter (F : (c : C) → Except ε (R c) → Prop) (P : C → Prop) : Async σ ω ε R α → Prop
  | .done _ | .throw _ => True
  | .read next => ∀ s, (next s).CallsAfter F P
  | .write _ next => next.CallsAfter F P
  | .emit _ next => next.CallsAfter F P
  | .await c next => P c ∧ ∀ r, F c r → (next r).Calls P fun _ => True

def Stage.CallsAfter (F : (c : C) → Except ε (R c) → Prop) (P : C → Prop) (log : List (Exchange ε R)) :
    Stage σ ω ε R α → Prop
  | .asking c next => P c ∧ ∀ r, (log = [] → F c r) → (next r).Calls P fun _ => True
  | .answered rest => rest.Calls P fun _ => True
  | .returned _ | .lost => True

section CallsAfter
variable {F : (c : C) → Except ε (R c) → Prop} {P : C → Prop} {t : Async σ ω ε R α}

theorem CallsAfter.advance (h : t.CallsAfter F P) (s : σ) : (t.advance s).2.2.stage.CallsAfter F P [] := by
  induction t generalizing s with
  | done _ | throw _ => trivial
  | read next ih => exact ih s (h s) s
  | write f next ih => exact ih h (f s)
  | emit o next ih => exact ih h s
  | await c next _ => exact ⟨h.1, fun r hr => h.2 r (hr rfl)⟩

theorem Calls.advance (h : t.Calls P fun _ => True) (s : σ) (log : List (Exchange ε R)) :
    (t.advance s).2.2.stage.CallsAfter F P log := by
  induction t generalizing s with
  | done _ | throw _ => trivial
  | read next ih => exact ih s (h s) s
  | write f next ih => exact ih h (f s)
  | emit o next ih => exact ih h s
  | await c next _ => exact ⟨h.1, fun r _ => h.2 r⟩

variable {host : Host σ ω ε R α J X E} {w w' : World σ ω ε R α J} {e : Happening J X E} {out : List (Nat × ω)}
  {I : J → Prop}

theorem callsAfter_moves (hmoves : Host.Moves host w e w' out)
    (h : ∀ id r, w.tasks.get id = some r → I r.job → r.stage.CallsAfter F P r.log)
    (hstart : ∀ job, I job → (host.program job).CallsAfter F P)
    (hexec : ∀ id x job c next, e = .exec id x → I job → w.tasks.get id = some ⟨job, [], .asking c next⟩ →
      F c (host.exec w.shared c x).2) :
    ∀ id r, w'.tasks.get id = some r → I r.job → r.stage.CallsAfter F P r.log := by
  refine hmoves.forall_tasks h (fun job _ hjob => (hstart job hjob).advance _) ?_ ?_ ?_
  · intro id x job log c next he hget hjob
    refine (h id _ hget hjob).2 _ fun (hlog : log = []) => hexec id x job c next he hjob ?_
    rw [hget, hlog]
  · exact fun id job log rest _ hget hjob => Calls.advance (h id _ hget hjob) _ _
  · intro id r _ _
    obtain ⟨job, log, stage⟩ := r
    cases stage <;> trivial

end CallsAfter

/-! ### What is told after an answer -/

/-- What the task tells satisfies `P` as long as it does not wait; after an answer it is what `A` allows after that
answer, in the state in which the task goes on. -/
def Says (A : (c : C) → Except ε (R c) → σ → ω → Prop) (Q : (ω → Prop) → σ → α → Prop) :
    Async σ ω ε R α → (ω → Prop) → σ → Prop
  | .done a, P, s => Q P s a
  | .throw _, _, _ => True
  | .read next, P, s => (next s).Says A Q P s
  | .write f next, P, s => next.Says A Q P (f s)
  | .emit o next, P, s => P o ∧ next.Says A Q P s
  | .await c next, _, _ => ∀ s r, (next r).Says A Q (A c r s) s

section Says
variable {A : (c : C) → Except ε (R c) → σ → ω → Prop} {Q : (ω → Prop) → σ → α → Prop} {P : ω → Prop} {s : σ}
  {t : Async σ ω ε R α}

theorem says_bind {Q : (ω → Prop) → σ → β → Prop} {f : α → Async σ ω ε R β} :
    (t >>= f).Says A Q P s ↔ t.Says A (fun P s a => (f a).Says A Q P s) P s := by
  change (t.bind f).Says A Q P s ↔ _
  induction t generalizing P s with
  | done _ | throw _ => rfl
  | read next ih => exact ih s
  | write g next ih => exact ih
  | emit o next ih => simp only [bind, Says, ih]
  | await c next ih => simp only [bind, Says, ih]

theorem Says.catching {handler : ε → Async σ ω ε R α} (h : t.Says A Q P s)
    (hhandler : ∀ P s e, (handler e).Says A Q P s) : (t.catching handler).Says A Q P s := by
  induction t generalizing P s with
  | done a => exact h
  | throw e => exact hhandler P s e
  | read next ih => exact ih s h
  | write g next ih => exact ih h
  | emit o next ih => exact ⟨h.1, ih h.2⟩
  | await c next ih => exact fun s' r => ih r (h s' r)

def Stage.Says (A : (c : C) → Except ε (R c) → σ → ω → Prop) (log : List (Exchange ε R)) :
    Stage σ ω ε R α → Prop
  | .asking c next => ∀ s r, (next r).Says A (fun _ _ _ => True) (A c r s) s
  | .answered rest => ∃ x ∈ log.getLast?, ∀ s, rest.Says A (fun _ _ _ => True) (A x.1 x.2 s) s
  | .returned _ | .lost => True

theorem Says.advance (h : t.Says A (fun _ _ _ => True) P s) :
    (∀ o ∈ (t.advance s).2.1, P o) ∧ ∀ log, (t.advance s).2.2.stage.Says A log := by
  induction t generalizing P s with
  | done _ | throw _ => exact ⟨fun o ho => (by cases ho), fun _ => trivial⟩
  | read next ih => exact ih s h
  | write f next ih => exact ih h
  | emit o next ih =>
    obtain ⟨hout, hstage⟩ := ih h.2
    exact ⟨forall_mem_cons.2 ⟨h.1, hout⟩, hstage⟩
  | await c next _ => exact ⟨fun o ho => (by cases ho), fun _ => h⟩

/-- Wherever a task of this kind stands, what it tells next is allowed. -/
def World.Says (A : (c : C) → Except ε (R c) → σ → ω → Prop) (job : J) (w : World σ ω ε R α J) : Prop :=
  ∀ id log stage, w.tasks.get id = some ⟨job, log, stage⟩ → stage.Says A log

variable {host : Host σ ω ε R α J X E} {w w' : World σ ω ε R α J} {e : Happening J X E} {out : List (Nat × ω)}
  {job : J}

theorem World.Says.resumes (h : w.Says A job) {id : Nat} {log : List (Exchange ε R)} {rest : Async σ ω ε R α}
    (hget : w.tasks.get id = some ⟨job, log, .answered rest⟩) :
    ∃ x ∈ log.getLast?, ∀ o ∈ (rest.advance w.shared).2.1, A x.1 x.2 w.shared o := by
  obtain ⟨x, hx, hrest⟩ := h id log _ hget
  exact ⟨x, hx, (hrest w.shared).advance.1⟩

theorem World.Says.moves (h : w.Says A job) (hmoves : Host.Moves host w e w' out)
    (hstart : ∀ s, (host.program job).Says A (fun _ _ _ => True) (fun _ => False) s) : w'.Says A job := by
  have hall : ∀ id r, w'.tasks.get id = some r → r.job = job → r.stage.Says A r.log := by
    refine hmoves.forall_tasks ?_ ?_ ?_ ?_ ?_
    · rintro id ⟨_, log, stage⟩ hget rfl
      exact h id log stage hget
    · rintro _ - rfl
      exact (hstart w.shared).advance.2 _
    · rintro id x _ log c next - hget rfl
      exact ⟨⟨c, (host.exec w.shared c x).2⟩, by simp, fun s => h id log _ hget s _⟩
    · rintro id _ log rest - hget rfl
      obtain ⟨x, -, hrest⟩ := h id log _ hget
      exact (hrest w.shared).advance.2 _
    · rintro id ⟨_, log, stage⟩ - -
      cases stage <;> trivial
  exact fun id log stage hget => hall id _ hget rfl

end Says

structure World.Keeps (T : J → Terms σ ω ε R) (I : σ → Prop) (w : World σ ω ε R α J) : Prop where
  inv : I w.shared
  stages : ∀ id r, w.tasks.get id = some r → r.stage.Within (T r.job) fun _ _ => True

section Steps
variable {host : Host σ ω ε R α J X E} {T : J → Terms σ ω ε R} {I : σ → Prop} {w w' : World σ ω ε R α J}
  {e : Happening J X E} {out : List (Nat × ω)}

variable {log : List (Exchange ε R)}

/-- The shared state may be changed from outside, as long as the invariant holds. -/
theorem World.Keeps.withShared (h : w.Keeps T I) {s : σ} (hs : I s) : World.Keeps T I { w with shared := s } :=
  ⟨hs, h.stages⟩

section
variable (hmoves : Host.Moves host w e w' out)
include hmoves

theorem keeps_moves (h : w.Keeps T I) (hI : ∀ job, (T job).inv = I)
    (hexec : ∀ id x job log c next, e = .exec id x → w.tasks.get id = some ⟨job, log, .asking c next⟩ →
      I (host.exec w.shared c x).1 ∧ (T job).replies c (host.exec w.shared c x).2)
    (hother : ∀ e', e = .other e' → I (host.other w.shared e'))
    (hstart : ∀ job, e = .start job → (host.program job).Within (T job) (fun _ _ => True) w.shared) : w'.Keeps T I := by
  have hshared : I w'.shared := by
    cases hmoves with
    | idle => exact h.inv
    | start job => exact hI job ▸ ((hstart job rfl).advance (hI job ▸ h.inv)).2.1
    | exec hget => exact (hexec _ _ _ _ _ _ rfl hget).1
    | @resume id job log rest hget => exact hI job ▸ ((h.stages id _ hget w.shared (hI job ▸ h.inv)).advance (hI job ▸ h.inv)).2.1
    | other e' => exact hother e' rfl
    | crash => exact h.inv
  refine ⟨hshared, hmoves.forall_tasks h.stages ?_ ?_ ?_ ?_⟩
  · exact fun job he => ((hstart job he).advance (hI job ▸ h.inv)).2.2.2
  · exact fun id x job log c next he hget s hs => (h.stages id _ hget).2 s hs _ (hexec id x job log c next he hget).2
  · intro id job log rest _ hget
    exact ((h.stages id _ hget w.shared (hI job ▸ h.inv)).advance (hI job ▸ h.inv)).2.2.2
  · intro id r _
    obtain ⟨job, log, stage⟩ := r
    cases stage <;> trivial

/-- What is told in a step, one task tells, in a state that it may have made of the one before. -/
theorem tells_moves (h : w.Keeps T I) (hI : ∀ job, (T job).inv = I)
    (hstart : ∀ job, e = .start job → (host.program job).Within (T job) (fun _ _ => True) w.shared) :
    ∀ id o, (id, o) ∈ out → ∃ job, (e = .start job ∨ ∃ log rest, e = .resume id ∧
        w.tasks.get id = some ⟨job, log, .answered rest⟩) ∧ ∃ s, (T job).may w.shared s ∧ I s ∧ (T job).tells s o := by
  intro id o ho
  cases hmoves with
  | start job =>
    obtain ⟨o', ho', heq⟩ := mem_map.1 ho
    cases heq
    obtain ⟨-, -, hout, -⟩ := (hstart job rfl).advance (by rw [hI]; exact h.inv)
    obtain ⟨s, hs, hinv, htells⟩ := hout o ho'
    exact ⟨job, .inl rfl, s, hs, by rw [hI] at hinv; exact hinv, htells⟩
  | @resume id' job log rest hget =>
    obtain ⟨o', ho', heq⟩ := mem_map.1 ho
    cases heq
    have hstage := h.stages id _ hget
    have hrest := hstage w.shared (by rw [hI]; exact h.inv)
    obtain ⟨-, -, hout, -⟩ := hrest.advance (by rw [hI]; exact h.inv)
    obtain ⟨s, hs, hinv, htells⟩ := hout o ho'
    exact ⟨job, .inr ⟨log, rest, rfl, hget⟩, s, hs, by rw [hI] at hinv; exact hinv, htells⟩
  | _ => cases ho

/-- Where only tasks change the shared state, a step changes it as one of them may. -/
theorem may_moves (h : w.Keeps T I) (hI : ∀ job, (T job).inv = I)
    (hexec : ∀ s c x, (host.exec s c x).1 = s) (hother : ∀ s e, host.other s e = s)
    (hstart : ∀ job, e = .start job → (host.program job).Within (T job) (fun _ _ => True) w.shared) :
    w'.shared = w.shared ∨ ∃ job, (T job).may w.shared w'.shared := by
  cases hmoves with
  | idle | crash => exact .inl rfl
  | other e' => exact .inl (hother _ _)
  | exec => exact .inl (hexec _ _ _)
  | start job =>
    obtain ⟨hmay, -⟩ := (hstart job rfl).advance (by rw [hI]; exact h.inv)
    exact .inr ⟨job, hmay⟩
  | @resume id job log rest hget =>
    have hstage := h.stages id _ hget
    have hrest := hstage w.shared (by rw [hI]; exact h.inv)
    obtain ⟨hmay, -⟩ := hrest.advance (by rw [hI]; exact h.inv)
    exact .inr ⟨job, hmay⟩

theorem job_moves {id : Nat} {r' : Running σ ω ε R α J}
    (hget : w'.tasks.get id = some r') : (∃ r, w.tasks.get id = some r ∧ r.job = r'.job) ∨ e = .start r'.job := by
  refine hmoves.forall_tasks (P := fun id r' => (∃ r, w.tasks.get id = some r ∧ r.job = r'.job) ∨ e = .start r'.job)
    (fun id r hr => .inl ⟨r, hr, rfl⟩) (fun job he => .inr he) ?_ ?_ (fun id r hr => .inl ⟨r, hr, rfl⟩) id r' hget
  · exact fun id x job log c next _ hr => .inl ⟨_, hr, rfl⟩
  · exact fun id job log rest _ hr => .inl ⟨_, hr, rfl⟩

end

theorem World.Keeps.asks (h : w.Keeps T I) {id : Nat} {job : J} {c : C}
    {next : Except ε (R c) → Async σ ω ε R α} (hget : w.tasks.get id = some ⟨job, log, .asking c next⟩) :
    (T job).calls c :=
  (h.stages id _ hget).1

end Steps

end Async
