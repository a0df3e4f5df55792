import Mtmux.Base.ReplacedFile

/-! Runs of calls on a file that is replaced as a whole: which have ended, with what, and what the file
holds when all have. -/
namespace ReplacedFile
open List OrderedMap
variable {C Op F : Type}

namespace Program
variable (P : Program C Op F)

/-- What a call writes for its operation is what this made of something. -/
def Written (call : Call Op F) : Phase C → Prop
  | .reading | .again => True
  | .opening stage c | .filling _ stage c | .guarding stage c | .replacing stage c =>
    stage ≠ .making → ∃ found, P.apply call.op found = some c

/-- A call goes on or is over; no step is about two. -/
inductive Shape (s : State C Op F) (id : Nat) (r : State C Op F × List (Output C Op F)) : Prop where
  | goesOn (call : Call Op F) (ph ph' : Phase C) (hget : s.calls.get id = some (call, ph))
      (hcalls : ∀ other, r.1.calls.get other = if other = id then some (call, ph') else s.calls.get other)
      (hnext : r.1.next = s.next) (hout : r.2 = []) (hwritten : P.Written call ph → P.Written call ph')
  | ends (call : Call Op F) (ph : Phase C) (value : C) (wrote : Bool)
      (hget : s.calls.get id = some (call, ph))
      (hcalls : ∀ other, r.1.calls.get other = if other = id then none else s.calls.get other)
      (hnext : r.1.next = s.next) (hout : r.2 = [.ended id call value wrote])
      (hwritten : P.Written call ph → wrote = true → ∃ found, P.apply call.op found = some value)
  | fails (call : Call Op F) (ph : Phase C) (hget : s.calls.get id = some (call, ph))
      (hcalls : ∀ other, r.1.calls.get other = if other = id then none else s.calls.get other)
      (hnext : r.1.next = s.next) (hout : r.2 = [.failed id call])

variable {P} {s : State C Op F} {id : Nat} {call : Call Op F}

theorem Shape.edits {t : State C Op F} {ph : Phase C} (hget : s.calls.get id = some (call, ph))
    (hcalls : t.calls = s.calls) (hnext : t.next = s.next) (stage : Stage) (c : C) :
    P.Shape s id (P.edits t id call stage c) := by
  unfold Program.edits
  cases happly : P.apply call.op c with
  | none =>
    refine .ends call ph c false hget (fun other => ?_) hnext rfl (by simp)
    rw [get_finish, hcalls]
  | some c' =>
    refine .goesOn call ph (.opening stage c') hget (fun other => ?_) hnext rfl fun _ _ => ⟨c, happly⟩
    rw [get_goOn, hcalls]

theorem shape (P : Program C Op F) (s : State C Op F) (id : Nat) (clean : Bool) :
    (s.calls.get id = none ∧ P.step s (.goesOn id clean) = (s, [])) ∨ P.Shape s id (P.step s (.goesOn id clean)) := by
  simp only [Program.step]
  cases hget : s.calls.get id with
  | none => exact .inl ⟨rfl, rfl⟩
  | some w =>
    obtain ⟨call, ph⟩ := w
    refine .inr ?_
    cases ph with
    | reading =>
      dsimp only [Program.reads]
      cases P.view s with
      | none => exact .goesOn call _ .again hget (fun other => get_goOn other) rfl rfl fun h => h
      | some c => exact Shape.edits hget rfl rfl .found c
    | again =>
      exact .goesOn call _ (.opening .making _) hget (fun other => get_goOn other) rfl rfl
        fun _ hstage => absurd rfl hstage
    | opening stage c =>
      dsimp only [State.opens]
      cases s.tmp with
      | none => exact .goesOn call _ (.filling _ stage c) hget (fun other => get_goOn other) rfl rfl fun h => h
      | some i => exact .goesOn call _ (.filling i stage c) hget (fun other => get_goOn other) rfl rfl fun h => h
    | filling i stage c =>
      exact .goesOn call _ (.guarding stage c) hget (fun other => get_goOn other) rfl rfl fun h => h
    | guarding stage c =>
      dsimp only
      cases s.tmp with
      | none => exact .fails call _ hget (fun other => get_finish other) rfl rfl
      | some i =>
        exact .goesOn call _ (.replacing stage c) hget (fun other => get_goOn other) rfl rfl fun h => h
    | replacing stage c =>
      dsimp only [Program.renames]
      cases s.tmp with
      | none => exact .fails call _ hget (fun other => get_finish other) rfl rfl
      | some i =>
        let replaced : State C Op F := { s with file := i, tmp := none }
        cases stage with
        | making => exact Shape.edits (P := P) (t := replaced) hget rfl rfl .made c
        | made =>
          exact .ends call _ c true hget (fun other => get_finish other) rfl rfl fun h _ => h (by simp)
        | found =>
          exact .ends call _ c true hget (fun other => get_finish other) rfl rfl fun h _ => h (by simp)

def begun (tr : List (Machine.Entry (State C Op F) (Event Op F) (Output C Op F))) :
    List (Nat × Call Op F) :=
  tr.filterMap fun x =>
    match x.event with
    | .begins call => some (x.pre.next, call)
    | .goesOn _ _ => none

structure Accounted (begun ended : List (Nat × Call Op F)) (s : State C Op F) : Prop where
  begun_nodup : begun.Nodup
  begun_lt : ∀ p ∈ begun, p.1 < s.next
  ended_nodup : ended.Nodup
  ended_over : ∀ p ∈ ended, s.calls.get p.1 = none
  ids : ∀ id w, s.calls.get id = some w → id < s.next
  split : ∀ p, p ∈ begun ↔ p ∈ ended ∨ ∃ ph, s.calls.get p.1 = some (p.2, ph)

theorem Accounted.begins {begun ended : List (Nat × Call Op F)} (h : Accounted begun ended s)
    (call : Call Op F) : Accounted (begun ++ [(s.next, call)]) ended
      { s.goOn s.next call .reading with next := s.next + 1 } := by
  have hget : ∀ other, (s.goOn s.next call .reading).calls.get other =
      if other = s.next then some (call, .reading) else s.calls.get other := fun other => get_goOn other
  have hended : ∀ p ∈ ended, p.1 ≠ s.next := by
    intro p hp heq
    have hlt := h.begun_lt p ((h.split p).2 (.inl hp))
    omega
  refine ⟨?_, ?_, h.ended_nodup, ?_, ?_, ?_⟩
  · refine nodup_append.2 ⟨h.begun_nodup, nodup_singleton _, ?_⟩
    intro p hp q hq heq
    have hlt := h.begun_lt p hp
    rw [heq, mem_singleton.1 hq] at hlt
    exact Nat.lt_irrefl _ hlt
  · intro p hp
    cases mem_append.1 hp with
    | inl hp => exact Nat.lt_succ_of_lt (h.begun_lt p hp)
    | inr hp =>
      rw [mem_singleton.1 hp]
      exact Nat.lt_succ_self _
  · intro p hp
    exact (hget p.1).trans ((if_neg (hended p hp)).trans (h.ended_over p hp))
  · intro other w hother
    change (s.goOn s.next call .reading).calls.get other = _ at hother
    rw [hget other] at hother
    split at hother
    · rename_i heq
      rw [heq]
      exact Nat.lt_succ_self _
    · exact Nat.lt_succ_of_lt (h.ids other w hother)
  · intro p
    rw [mem_append, h.split p, mem_singleton]
    change _ ↔ p ∈ ended ∨ ∃ ph, (s.goOn s.next call .reading).calls.get p.1 = some (p.2, ph)
    rw [hget p.1]
    by_cases hp : p.1 = s.next
    · rw [if_pos hp]
      have hnone : ¬ ∃ ph, s.calls.get p.1 = some (p.2, ph) := by
        rintro ⟨ph, hget⟩
        have hlt := h.ids p.1 _ hget
        omega
      constructor
      · intro hcase
        cases hcase with
        | inl hcase => exact .inl (hcase.resolve_right hnone)
        | inr hcase =>
          subst hcase
          exact .inr ⟨.reading, rfl⟩
      · intro hcase
        cases hcase with
        | inl hended' => exact .inl (.inl hended')
        | inr hrun =>
          obtain ⟨ph, hrun⟩ := hrun
          cases hrun
          exact .inr (Prod.ext hp rfl)
    · rw [if_neg hp]
      constructor
      · intro hcase
        cases hcase with
        | inl hcase => exact hcase
        | inr hcase =>
          subst hcase
          exact absurd rfl hp
      · intro hcase
        exact .inl hcase

theorem Accounted.goesOn {begun ended : List (Nat × Call Op F)} (h : Accounted begun ended s)
    {r : State C Op F × List (Output C Op F)} (hshape : P.Shape s id r)
    (hfailed : ∀ id call, .failed id call ∉ r.2) : Accounted begun (ended ++ endings r.2) r.1 := by
  cases hshape with
  | goesOn call ph ph' hget hcalls hnext hout hwritten =>
    rw [hout, endings, filterMap_nil, append_nil]
    refine ⟨h.begun_nodup, hnext ▸ h.begun_lt, h.ended_nodup, ?_, ?_, ?_⟩
    · intro p hp
      rw [hcalls p.1]
      split
      · rename_i heq
        have hover := h.ended_over p hp
        rw [heq, hget] at hover
        cases hover
      · exact h.ended_over p hp
    · intro other w hother
      rw [hnext]
      rw [hcalls other] at hother
      split at hother
      · rename_i heq
        rw [heq]
        exact h.ids id _ hget
      · exact h.ids other w hother
    · intro p
      rw [h.split p, hcalls p.1]
      by_cases hp : p.1 = id
      · rw [if_pos hp, hp, hget]
        simp
      · rw [if_neg hp]
  | fails call ph hget hcalls hnext hout =>
    rw [hout] at hfailed
    exact absurd (mem_singleton_self _) (hfailed id call)
  | ends call ph value wrote hget hcalls hnext hout hwritten =>
    have hnew : endings r.2 = [(id, call)] := by rw [hout]; rfl
    have hold : (id, call) ∉ ended := by
      intro hp
      have hover := h.ended_over _ hp
      rw [hget] at hover
      cases hover
    rw [hnew]
    refine ⟨h.begun_nodup, hnext ▸ h.begun_lt, ?_, ?_, ?_, ?_⟩
    · refine nodup_append.2 ⟨h.ended_nodup, nodup_singleton _, ?_⟩
      intro p hp q hq heq
      rw [mem_singleton.1 hq] at heq
      rw [heq] at hp
      exact hold hp
    · intro p hp
      rw [hcalls p.1]
      split
      · rfl
      · rename_i hne
        cases mem_append.1 hp with
        | inl hp => exact h.ended_over p hp
        | inr hp =>
          rw [mem_singleton.1 hp] at hne
          exact absurd rfl hne
    · intro other w hother
      rw [hnext]
      rw [hcalls other] at hother
      split at hother
      · cases hother
      · exact h.ids other w hother
    · intro p
      rw [h.split p, hcalls p.1, mem_append, mem_singleton]
      by_cases hp : p.1 = id
      · rw [if_pos hp, hp, hget]
        constructor
        · intro hcase
          cases hcase with
          | inl hcase => exact .inl (.inl hcase)
          | inr hcase =>
            obtain ⟨ph', hcase⟩ := hcase
            cases hcase
            exact .inl (.inr (Prod.ext hp rfl))
        · intro hcase
          cases hcase with
          | inl hcase =>
            cases hcase with
            | inl hcase => exact .inl hcase
            | inr hcase =>
              subst hcase
              exact .inr ⟨ph, rfl⟩
          | inr hcase =>
            obtain ⟨ph', hcase⟩ := hcase
            cases hcase
      · rw [if_neg hp]
        have hne : p ≠ (id, call) := by
          rintro rfl
          exact hp rfl
        simp only [hne, or_false]

variable (P)

theorem sound_start (content : Content C) : P.Sound (P.view (.start content : State C Op F)) (.start content) [] where
  apart := ⟨Nat.zero_lt_one, by rintro _ ⟨⟩, by rintro ⟨⟩, by rintro _ _ _ _ _ ⟨⟩, by rintro _ _ ⟨⟩⟩
  value := .inl ⟨rfl, by rintro _ _ _ ⟨⟩, by rintro _ _ _ _ ⟨⟩⟩

variable {P} {content : Content C} {es : List (Event Op F)}

theorem endedIn_append (out out' : List (Output C Op F)) : endedIn (out ++ out') = endedIn out ++ endedIn out' := by
  simp [endedIn, endings]

theorem sound_run (hone : ∀ x ∈ (P.machine content).trace es, P.OneAfterAnother x.pre x.event) :
    P.Sound (P.view (.start content : State C Op F)) ((P.machine content).run es)
      (endedIn ((P.machine content).outputs es)) ∧ ∀ id call, .failed id call ∉ (P.machine content).outputs es := by
  induction es using List.reverseRecOn with
  | nil => exact ⟨P.sound_start content, fun _ _ h => by cases h⟩
  | append_singleton es e ih =>
    obtain ⟨hpast, hlast⟩ := Machine.forall_trace_snoc hone
    obtain ⟨hsound, hfailed⟩ := ih hpast
    have hstep := hsound.step e hlast
    rw [Machine.run_snoc, Machine.outputs_snoc, endedIn_append]
    refine ⟨hstep.sound, ?_⟩
    intro id call hmem
    cases mem_append.1 hmem with
    | inl hmem => exact hfailed id call hmem
    | inr hmem =>
      cases hstep.out with
      | inl hout =>
        change _ ∈ (P.step _ e).2 at hmem
        rw [hout] at hmem
        cases hmem
      | inr hout =>
        obtain ⟨_, _, _, _, hout, -⟩ := hout
        change _ ∈ (P.step _ e).2 at hmem
        rw [hout] at hmem
        cases mem_singleton.1 hmem

theorem Sound.view_ended (h : P.Sound init s ended) (hended : ended ≠ []) : P.view s = ended.foldl P.serial init := by
  cases h.value with
  | inl hsettled => exact hsettled.value
  | inr hmaking =>
    obtain ⟨id, call, ph, hmaking⟩ := hmaking
    exact absurd hmaking.ended hended

theorem value_run (hone : ∀ x ∈ (P.machine content).trace es, P.OneAfterAnother x.pre x.event)
    {first out : List (Output C Op F)} {id : Nat} {call : Call Op F} {value : C} {wrote : Bool}
    (hout : (P.machine content).outputs es = first ++ .ended id call value wrote :: out) :
    (endedIn first ++ [call]).foldl P.serial (P.view (.start content : State C Op F)) = some value := by
  induction es using List.reverseRecOn generalizing out with
  | nil =>
    rw [Machine.outputs_nil] at hout
    have hlength := congrArg List.length hout
    simp at hlength
  | append_singleton es e ih =>
    obtain ⟨hbefore, hlast⟩ := Machine.forall_trace_snoc hone
    obtain ⟨hsound, -⟩ := sound_run hbefore
    have hstep := hsound.step e hlast
    rw [Machine.outputs_snoc] at hout
    cases hstep.out with
    | inl hquiet =>
      change _ ++ (P.step _ e).2 = _ at hout
      rw [hquiet, append_nil] at hout
      exact ih hbefore hout
    | inr hends =>
      obtain ⟨id', call', value', wrote', hnew, hview⟩ := hends
      change _ ++ (P.step _ e).2 = _ at hout
      rw [hnew] at hout
      cases out using List.reverseRecOn with
      | nil =>
        obtain ⟨hfirst, hlast⟩ := append_inj' hout rfl
        cases hlast
        have hfold := hstep.sound.view_ended (by rw [hnew]; simp [endedIn, endings])
        rw [hview, hnew, hfirst] at hfold
        exact hfold.symm
      | append_singleton out last =>
        have hinit : (P.machine content).outputs es = first ++ .ended id call value wrote :: out := by
          have hsplit : (P.machine content).outputs es ++ [.ended id' call' value' wrote'] =
              (first ++ .ended id call value wrote :: out) ++ [last] := by simp [hout]
          exact (append_inj' hsplit rfl).1
        exact ih hbefore hinit

theorem written_run (P : Program C Op F) (content : Content C) (es : List (Event Op F)) :
    (∀ id call ph, ((P.machine content).run es).calls.get id = some (call, ph) → P.Written call ph) ∧
    ∀ id call value, .ended id call value true ∈ (P.machine content).outputs es →
      ∃ found, P.apply call.op found = some value := by
  induction es using List.reverseRecOn with
  | nil => exact ⟨fun _ _ _ h => (by cases h), fun _ _ _ h => (by cases h)⟩
  | append_singleton es e ih =>
    obtain ⟨hwritten, hended⟩ := ih
    rw [Machine.run_snoc, Machine.outputs_snoc]
    cases e with
    | begins call =>
      refine ⟨?_, ?_⟩
      · intro id call' ph hget
        change (State.goOn _ _ call .reading).calls.get id = _ at hget
        rw [get_goOn] at hget
        split at hget
        · cases hget
          trivial
        · exact hwritten id call' ph hget
      · intro id call' value hmem
        cases mem_append.1 hmem with
        | inl hmem => exact hended id call' value hmem
        | inr hmem => cases hmem
    | goesOn id clean =>
      cases shape P ((P.machine content).run es) id clean with
      | inl hidle =>
        change (∀ _ _ _, (P.step _ _).1.calls.get _ = _ → _) ∧ ∀ _ _ _, _ ∈ _ ++ (P.step _ _).2 → _
        rw [hidle.2]
        refine ⟨hwritten, ?_⟩
        intro id' call' value hmem
        rw [append_nil] at hmem
        exact hended id' call' value hmem
      | inr hshape =>
        change (∀ _ _ _, (P.step _ _).1.calls.get _ = _ → _) ∧ ∀ _ _ _, _ ∈ _ ++ (P.step _ _).2 → _
        cases hshape with
        | goesOn call ph ph' hget hcalls hnext hout hkeep =>
          rw [hout]
          refine ⟨?_, ?_⟩
          · intro other call' ph'' hother
            rw [hcalls other] at hother
            split at hother
            · cases hother
              exact hkeep (hwritten id call ph hget)
            · exact hwritten other call' ph'' hother
          · intro id' call' value hmem
            rw [append_nil] at hmem
            exact hended id' call' value hmem
        | ends call ph value wrote hget hcalls hnext hout hlast =>
          rw [hout]
          refine ⟨?_, ?_⟩
          · intro other call' ph'' hother
            rw [hcalls other] at hother
            split at hother
            · cases hother
            · exact hwritten other call' ph'' hother
          · intro id' call' value' hmem
            cases mem_append.1 hmem with
            | inl hmem => exact hended id' call' value' hmem
            | inr hmem =>
              cases mem_singleton.1 hmem
              exact hlast (hwritten id call ph hget) rfl
        | fails call ph hget hcalls hnext hout =>
          rw [hout]
          refine ⟨?_, ?_⟩
          · intro other call' ph'' hother
            rw [hcalls other] at hother
            split at hother
            · cases hother
            · exact hwritten other call' ph'' hother
          · intro id' call' value' hmem
            cases mem_append.1 hmem with
            | inl hmem => exact hended id' call' value' hmem
            | inr hmem => cases mem_singleton.1 hmem

theorem accounted_run (hfailed : ∀ id call, .failed id call ∉ (P.machine content).outputs es) :
    Accounted (begun ((P.machine content).trace es)) (endings ((P.machine content).outputs es))
      ((P.machine content).run es) := by
  induction es using List.reverseRecOn with
  | nil =>
    refine ⟨nodup_nil, by simp [begun, Machine.trace_nil], nodup_nil,
      by simp [endings, Machine.outputs_nil], by rintro _ _ ⟨⟩, ?_⟩
    intro p
    simp [begun, endings, Machine.trace_nil, Machine.outputs_nil, Machine.run_nil, machine, State.start,
      OrderedMap.get, OrderedMap.empty]
  | append_singleton es e ih =>
    rw [Machine.outputs_snoc] at hfailed
    have hacc := ih fun id call hmem => hfailed id call (mem_append_left _ hmem)
    rw [Machine.run_snoc, Machine.outputs_snoc, Machine.trace_snoc]
    have hbegun : ∀ x, begun ((P.machine content).trace es ++ [x]) =
        begun ((P.machine content).trace es) ++ begun [x] := by
      intro x
      simp [begun]
    have hendings : ∀ out, endings ((P.machine content).outputs es ++ out) =
        endings ((P.machine content).outputs es) ++ endings out := by
      intro out
      simp [endings]
    rw [hbegun, hendings]
    cases e with
    | begins call =>
      change Accounted _ (_ ++ []) _
      rw [append_nil]
      exact hacc.begins call
    | goesOn id clean =>
      change Accounted (_ ++ []) _ _
      rw [append_nil]
      cases shape P ((P.machine content).run es) id clean with
      | inl hidle =>
        change Accounted _ (_ ++ endings (P.step _ _).2) (P.step _ _).1
        rw [hidle.2]
        change Accounted _ (_ ++ []) _
        rw [append_nil]
        exact hacc
      | inr hshape =>
        exact hacc.goesOn hshape fun i c hmem => hfailed i c (mem_append_right _ hmem)

theorem serial_run (hone : ∀ x ∈ (P.machine content).trace es, P.OneAfterAnother x.pre x.event)
    (hover : ∀ id, ((P.machine content).run es).calls.get id = none) :
    ∃ order : List (Nat × Call Op F), order.Perm (begun ((P.machine content).trace es)) ∧
      P.view ((P.machine content).run es) =
        (order.map Prod.snd).foldl P.serial (P.view (.start content : State C Op F)) := by
  obtain ⟨hsound, hfailed⟩ := sound_run hone
  have hacc := accounted_run hfailed
  refine ⟨endings ((P.machine content).outputs es), ?_, ?_⟩
  · refine (perm_ext_iff_of_nodup hacc.ended_nodup hacc.begun_nodup).2 fun p => ?_
    rw [hacc.split p]
    simp [hover]
  · cases hsound.value with
    | inl hsettled => exact hsettled.value
    | inr hmaking =>
      obtain ⟨id, call, ph, hmaking⟩ := hmaking
      have hget := hmaking.get
      rw [hover id] at hget
      cases hget

theorem kept_fold {Q : C → Prop} {rest : List (Call Op F)} {value : C} (hQ : Q value)
    (hkeeps : ∀ call ∈ rest, ∀ c c', Q c → P.apply call.op c = some c' → Q c') :
    ∃ c, rest.foldl P.serial (some value) = some c ∧ Q c := by
  induction rest generalizing value with
  | nil => exact ⟨value, rfl, hQ⟩
  | cons next rest ih =>
    have hnext : Q ((P.apply next.op value).getD value) := by
      cases happly : P.apply next.op value with
      | none => exact hQ
      | some c' => exact hkeeps next mem_cons_self value c' hQ happly
    exact ih hnext fun call hcall => hkeeps call (mem_cons_of_mem _ hcall)

theorem kept_run (hone : ∀ x ∈ (P.machine content).trace es, P.OneAfterAnother x.pre x.event)
    {first out : List (Output C Op F)} {id : Nat} {call : Call Op F} {value : C} {wrote : Bool}
    (hout : (P.machine content).outputs es = first ++ .ended id call value wrote :: out) {Q : C → Prop}
    (hQ : Q value) (hkeeps : ∀ call ∈ endedIn out, ∀ c c', Q c → P.apply call.op c = some c' → Q c') :
    ∃ c, P.view ((P.machine content).run es) = some c ∧ Q c := by
  have hvalue := value_run hone hout
  obtain ⟨hsound, -⟩ := sound_run hone
  have hended : endedIn ((P.machine content).outputs es) = (endedIn first ++ [call]) ++ endedIn out := by
    rw [hout, endedIn_append, append_assoc]
    rfl
  rw [hended] at hsound
  have hview := hsound.view_ended (by simp)
  rw [foldl_append, hvalue] at hview
  rw [hview]
  exact kept_fold hQ hkeeps

/-- Where there is always something to read, the value is that of the calls that have ended. -/
theorem Sound.view_eq (h : P.Sound init s ended) (habsent : P.absent ≠ none) : P.view s = ended.foldl P.serial init := by
  cases h.value with
  | inl hsettled => exact hsettled.value
  | inr hmaking =>
    obtain ⟨_, _, _, hmaking⟩ := hmaking
    exact absurd hmaking.absent habsent

/-- What a step of one call comes to. -/
inductive Moved (P : Program C Op F) (s : State C Op F) (id : Nat) (call : Call Op F)
    (r : State C Op F × List (Output C Op F)) : Prop where
  | goesOn (ph : Phase C) (hout : r.2 = []) (hview : P.view r.1 = P.view s)
      (hcalls : ∀ other, r.1.calls.get other = if other = id then some (call, ph) else s.calls.get other)
  | ends (value : C) (wrote : Bool) (hout : r.2 = [.ended id call value wrote])
      (hview : P.view r.1 = P.serial (P.view s) call)
      (hcalls : ∀ other, r.1.calls.get other = if other = id then none else s.calls.get other)

theorem Sound.goesOn (h : P.Sound init s ended) (habsent : P.absent ≠ none) {ph : Phase C}
    (hget : s.calls.get id = some (call, ph)) {clean : Bool} (hone : P.OneAfterAnother s (.goesOn id clean)) :
    P.Moved s id call (P.step s (.goesOn id clean)) := by
  have hsteps := h.step (.goesOn id clean) hone
  have hview := hsteps.sound.view_eq habsent
  have hbefore := h.view_eq habsent
  cases shape P s id clean with
  | inl hidle =>
    rw [hget] at hidle
    cases hidle.1
  | inr hshape =>
    cases hshape with
    | goesOn call' ph' ph'' hget' hcalls hnext hout hwritten =>
      rw [hget] at hget'
      cases hget'
      refine .goesOn ph'' hout ?_ hcalls
      rw [hview, hbefore, hout]
      simp [endedIn, endings]
    | ends call' ph' value wrote hget' hcalls hnext hout hwritten =>
      rw [hget] at hget'
      cases hget'
      refine .ends value wrote hout ?_ hcalls
      rw [hview, hbefore, hout, foldl_append]
      rfl
    | fails call' ph' hget' hcalls hnext hout =>
      cases hsteps.out with
      | inl hnone =>
        rw [hout] at hnone
        cases hnone
      | inr hended =>
        obtain ⟨_, _, _, _, hended, -⟩ := hended
        rw [hout] at hended
        cases hended

/-- The file is replaced by one that holds a value, and by nothing else. -/
theorem Apart.step_file (h : Apart s) {e : Event Op F} (hone : P.OneAfterAnother s e) :
    (P.step s e).1.contents (P.step s e).1.file = s.contents s.file ∨
      ∃ c, (P.step s e).1.contents (P.step s e).1.file = .whole c := by
  have hedits (t : State C Op F) (id : Nat) (call : Call Op F) (stage : Stage) (c : C) :
      (P.edits t id call stage c).1.contents (P.edits t id call stage c).1.file = t.contents t.file := by
    unfold edits
    split
    · rfl
    · rfl
  cases e with
  | begins call => exact .inl rfl
  | goesOn id clean =>
    simp only [step]
    cases hget : s.calls.get id with
    | none => exact .inl rfl
    | some w =>
      obtain ⟨call, ph⟩ := w
      have hphase := hone call ph hget
      cases ph with
      | reading =>
        simp only [reads]
        split
        · exact .inl (hedits s id call .found _)
        · exact .inl rfl
      | again => exact .inl rfl
      | opening stage c =>
        refine .inl ?_
        dsimp only [State.opens]
        split
        · rename_i i htmp
          exact if_neg fun hsame => h.tmp_ne (htmp.trans (congrArg some hsame.symm))
        · exact if_neg (Nat.ne_of_lt h.file_lt)
      | filling i stage c => exact .inl (if_neg (Ne.symm (h.filling id call i stage c hget).2))
      | guarding stage c =>
        dsimp only
        split
        · exact .inl rfl
        · exact .inl rfl
      | replacing stage c =>
        obtain ⟨-, i, htmp, hwhole, -⟩ := hphase
        refine .inr ⟨c, ?_⟩
        simp only [renames, htmp]
        cases stage with
        | making => exact (hedits _ id call .made c).trans hwhole
        | made | found => exact hwhole

/-- The file holds what it held first, or a value. -/
theorem whole_run (hone : ∀ x ∈ (P.machine content).trace es, P.OneAfterAnother x.pre x.event) :
    ((P.machine content).run es).contents ((P.machine content).run es).file = content ∨
      ∃ c, ((P.machine content).run es).contents ((P.machine content).run es).file = .whole c := by
  induction es using List.reverseRecOn with
  | nil => exact .inl rfl
  | append_singleton es e ih =>
    obtain ⟨hbefore, hlast⟩ := Machine.forall_trace_snoc hone
    rw [Machine.run_snoc]
    cases (sound_run hbefore).1.apart.step_file hlast with
    | inl hsame => exact (ih hbefore).imp hsame.trans fun ⟨c, hc⟩ => ⟨c, hsame.trans hc⟩
    | inr hwhole => exact .inr hwhole

/-- A run can be checked for its calls going one after another. -/
def oneAfterAnother [DecidableEq C] (P : Program C Op F) (s : State C Op F) : Event Op F → Bool
  | .begins _ => true
  | .goesOn id _ =>
    match s.calls.get id with
    | none => true
    | some (call, phase) =>
      let alone := s.calls.entries.all fun w => decide (w.1 = id) || !w.2.2.makes
      match phase with
      | .opening _ _ | .filling _ _ _ => true
      | .reading | .again => alone
      | .guarding _ _ => s.tmp.isSome
      | .replacing stage c => alone && s.tmp.any fun i => decide (s.contents i = .whole c) &&
          (s.calls.entries.all fun w =>
            match w.2.2 with
            | .filling j _ _ => decide (j ≠ i)
            | _ => true) &&
          decide (P.makesOf s call stage = some c)

theorem of_oneAfterAnother [DecidableEq C] {e : Event Op F} (h : P.oneAfterAnother s e = true) :
    P.OneAfterAnother s e := by
  cases e with
  | begins call => trivial
  | goesOn id clean =>
    intro call ph hget
    simp only [oneAfterAnother, hget] at h
    have halone : (s.calls.entries.all fun w => decide (w.1 = id) || !w.2.2.makes) = true →
        ∀ other, other ≠ id → ∀ c ph, s.calls.get other = some (c, ph) → ph.makes = false := by
      intro hall other hne c ph' hother
      have hone := all_eq_true.1 hall _ ((get_eq_some _ _ _).1 hother)
      simpa [hne] using hone
    cases ph with
    | opening _ _ | filling _ _ _ => trivial
    | reading | again => exact halone h
    | guarding stage c =>
      intro _ hnone
      dsimp only at h
      rw [hnone] at h
      cases h
    | replacing stage c =>
      dsimp only at h
      rw [Bool.and_eq_true] at h
      refine ⟨halone h.1, ?_⟩
      cases htmp : s.tmp with
      | none =>
        rw [htmp] at h
        cases h.2
      | some i =>
        rw [htmp] at h
        have hrest := h.2
        simp only [Option.any_some, Bool.and_eq_true, decide_eq_true_eq] at hrest
        refine ⟨i, rfl, hrest.1.1, ?_, hrest.2⟩
        intro other call' stage' c' hother
        have hone := all_eq_true.1 hrest.1.2 _ ((get_eq_some _ _ _).1 hother)
        simp at hone

end Program
end ReplacedFile
