import Mtmux.Base.Machine
import Mtmux.Base.OrderedMap

/-! A value kept in a file that is replaced as a whole. A call reads the file, writes what it makes of the
value to a temporary file and renames that; all calls share the one temporary file. A file is an inode,
and one that is being written is written wherever its name has gone. -/
namespace ReplacedFile
open OrderedMap List

/-- What an inode holds: no bytes, a value, or bytes that are none. -/
inductive Content (C : Type) where
  | empty
  | whole (value : C)
  | torn
  deriving DecidableEq

/-- What a call is to do, and what it draws should it have to make the file. -/
structure Call (Op F : Type) where
  op : Op
  fresh : F
  deriving DecidableEq

/-- A program of calls. `absent` is what a file that cannot be read stands for where it is not made. An
operation that gives nothing writes nothing. -/
structure Program (C Op F : Type) where
  absent : Option C
  make : F → Option C → C
  apply : Op → C → Option C

/-- Does a call write the value it makes the file with, its own after that, or its own of what it found? -/
inductive Stage where
  | making | made | found
  deriving DecidableEq

/-- What a call does next. -/
inductive Phase (C : Type) where
  | reading
  | again
  | opening (stage : Stage) (value : C)
  | filling (inode : Nat) (stage : Stage) (value : C)
  | guarding (stage : Stage) (value : C)
  | replacing (stage : Stage) (value : C)

structure State (C Op F : Type) where
  file : Nat
  tmp : Option Nat
  contents : Nat → Content C
  inodes : Nat
  calls : OrderedMap Nat (Call Op F × Phase C)
  next : Nat

/-- `clean` says that what is written over other bytes is no shorter than they are. -/
inductive Event (Op F : Type) where
  | begins (call : Call Op F)
  | goesOn (id : Nat) (clean : Bool)

inductive Output (C Op F : Type) where
  | ended (id : Nat) (call : Call Op F) (value : C) (wrote : Bool)
  | failed (id : Nat) (call : Call Op F)
  deriving DecidableEq

variable {C Op F : Type}

def Content.value : Content C → Option C
  | .whole c => some c
  | _ => none

/-- A call that could not read the file and is going to make it, or has. -/
def Phase.makes : Phase C → Bool
  | .again => true
  | .opening stage _ | .filling _ stage _ | .guarding stage _ | .replacing stage _ =>
    decide (stage ≠ .found)
  | .reading => false

namespace State

def start (content : Content C) : State C Op F where
  file := 0
  tmp := none
  contents := fun _ => content
  inodes := 1
  calls := .empty
  next := 0

def read (s : State C Op F) : Option C := (s.contents s.file).value

def put (s : State C Op F) (inode : Nat) (content : Content C) : State C Op F :=
  { s with contents := fun i => if i = inode then content else s.contents i }

def goOn (s : State C Op F) (id : Nat) (call : Call Op F) (phase : Phase C) : State C Op F :=
  { s with calls := s.calls.set id (call, phase) }

def finish (s : State C Op F) (id : Nat) : State C Op F := { s with calls := s.calls.delete id }

/-- Opening the temporary file cuts it off. -/
def opens (s : State C Op F) (id : Nat) (call : Call Op F) (stage : Stage) (c : C) : State C Op F :=
  match s.tmp with
  | some i => (s.put i .empty).goOn id call (.filling i stage c)
  | none =>
    { s.put s.inodes .empty with tmp := some s.inodes, inodes := s.inodes + 1 }.goOn id call
      (.filling s.inodes stage c)

def fills (s : State C Op F) (id : Nat) (call : Call Op F) (inode : Nat) (stage : Stage) (c : C)
    (clean : Bool) : State C Op F :=
  (s.put inode (match s.contents inode with
    | .empty => .whole c
    | _ => if clean then .whole c else .torn)).goOn id call (.guarding stage c)

end State

namespace Program
variable (P : Program C Op F)

/-- What a call that reads the file now works on. -/
def view (s : State C Op F) : Option C := s.read.or P.absent

def edits (s : State C Op F) (id : Nat) (call : Call Op F) (stage : Stage) (c : C) :
    State C Op F × List (Output C Op F) :=
  match P.apply call.op c with
  | none => (s.finish id, [.ended id call c false])
  | some c' => (s.goOn id call (.opening stage c'), [])

def reads (s : State C Op F) (id : Nat) (call : Call Op F) : State C Op F × List (Output C Op F) :=
  match P.view s with
  | some c => P.edits s id call .found c
  | none => (s.goOn id call .again, [])

def renames (s : State C Op F) (id : Nat) (call : Call Op F) (stage : Stage) (c : C) :
    State C Op F × List (Output C Op F) :=
  match s.tmp with
  | none => (s.finish id, [.failed id call])
  | some i =>
    let s : State C Op F := { s with file := i, tmp := none }
    match stage with
    | .making => P.edits s id call .made c
    | _ => (s.finish id, [.ended id call c true])

def step (s : State C Op F) : Event Op F → State C Op F × List (Output C Op F)
  | .begins call => ({ s.goOn s.next call .reading with next := s.next + 1 }, [])
  | .goesOn id clean =>
    match s.calls.get id with
    | none => (s, [])
    | some (call, .reading) => P.reads s id call
    | some (call, .again) => (s.goOn id call (.opening .making (P.make call.fresh s.read)), [])
    | some (call, .opening stage c) => (s.opens id call stage c, [])
    | some (call, .filling i stage c) => (s.fills id call i stage c clean, [])
    | some (call, .guarding stage c) =>
      match s.tmp with
      | none => (s.finish id, [.failed id call])
      | some _ => (s.goOn id call (.replacing stage c), [])
    | some (call, .replacing stage c) => P.renames s id call stage c

def machine (content : Content C) : Machine (State C Op F) (Event Op F) (Output C Op F) where
  init := .start content
  step := P.step

def serial (file : Option C) (call : Call Op F) : Option C :=
  let c := file.getD (P.make call.fresh none)
  some ((P.apply call.op c).getD c)

/-- What the write of this stage makes of the file as it stands. -/
def makesOf (s : State C Op F) (call : Call Op F) : Stage → Option C
  | .making => some (P.make call.fresh s.read)
  | _ => (P.view s).map fun c => (P.apply call.op c).getD c

/-- While a call that found nothing to read is under way no other looks at the file or replaces it. Every
call finds the temporary file, and what it renames is all its own and what it makes of the file as it
stands then. -/
def OneAfterAnother (s : State C Op F) : Event Op F → Prop
  | .begins _ => True
  | .goesOn id _ =>
    ∀ call phase, s.calls.get id = some (call, phase) →
      let alone := ∀ other, other ≠ id → ∀ c ph, s.calls.get other = some (c, ph) → ph.makes = false
      match phase with
      | .opening _ _ | .filling _ _ _ => True
      | .reading | .again => alone
      | .guarding _ _ => s.tmp ≠ none
      | .replacing stage c => alone ∧ ∃ i, s.tmp = some i ∧ s.contents i = .whole c ∧
          (∀ other call' stage' c', s.calls.get other ≠ some (call', .filling i stage' c')) ∧
          P.makesOf s call stage = some c

def endings (out : List (Output C Op F)) : List (Nat × Call Op F) :=
  out.filterMap fun o =>
    match o with
    | .ended id call _ _ => some (id, call)
    | .failed _ _ => none

def endedIn (out : List (Output C Op F)) : List (Call Op F) := (endings out).map Prod.snd

def stageOk (s : State C Op F) (call : Call Op F) (c : C) : Stage → Prop
  | .found => False
  | .making => s.read = none ∧ c = P.make call.fresh none
  | .made => s.read = some (P.make call.fresh none) ∧
      P.apply call.op (P.make call.fresh none) = some c

def makingOk (s : State C Op F) (call : Call Op F) : Phase C → Prop
  | .reading => False
  | .again => s.read = none
  | .opening stage c | .filling _ stage c | .guarding stage c | .replacing stage c =>
    P.stageOk s call c stage

structure Settled (init : Option C) (s : State C Op F) (ended : List (Call Op F)) : Prop where
  value : P.view s = ended.foldl P.serial init
  found : ∀ id call ph, s.calls.get id = some (call, ph) → ph.makes = false
  waiting : P.view s = none → ∀ id call ph, s.calls.get id = some (call, ph) → ph = .reading

/-- The first call of all is making the file, and no other has looked at it. -/
structure Making (init : Option C) (s : State C Op F) (ended : List (Call Op F)) (id : Nat)
    (call : Call Op F) (ph : Phase C) : Prop where
  ended : ended = []
  init : init = none
  absent : P.absent = none
  get : s.calls.get id = some (call, ph)
  ok : P.makingOk s call ph
  others : ∀ other, other ≠ id → ∀ c ph, s.calls.get other = some (c, ph) → ph = .reading

/-- What is being written is not the file. -/
structure Apart (s : State C Op F) : Prop where
  file_lt : s.file < s.inodes
  tmp_lt : ∀ i, s.tmp = some i → i < s.inodes
  tmp_ne : s.tmp ≠ some s.file
  filling : ∀ id call i stage c, s.calls.get id = some (call, .filling i stage c) →
    i < s.inodes ∧ i ≠ s.file
  ids : ∀ id w, s.calls.get id = some w → id < s.next

structure Sound (init : Option C) (s : State C Op F) (ended : List (Call Op F)) : Prop where
  apart : Apart s
  value : P.Settled init s ended ∨ ∃ id call ph, P.Making init s ended id call ph

variable {P} {init : Option C} {s : State C Op F} {ended : List (Call Op F)} {id : Nat}
  {call : Call Op F}

theorem read_put {i : Nat} {content : Content C} (h : i ≠ s.file) : (s.put i content).read = s.read := by
  simp [State.read, State.put, h.symm]

variable {ph : Phase C}

theorem get_goOn (other : Nat) : (s.goOn id call ph).calls.get other =
    if other = id then some (call, ph) else s.calls.get other := get_set _ _ _ _

theorem get_finish (other : Nat) : (s.finish id).calls.get other =
    if other = id then none else s.calls.get other := get_delete _ _ _

theorem makes_of_ok (h : P.makingOk s call ph) : ph.makes = true := by
  cases ph with
  | reading => cases h
  | again => rfl
  | opening stage c | filling _ stage c | guarding stage c | replacing stage c =>
    cases stage with
    | found => cases h
    | making | made => rfl

/-- Nothing but a first call finds nothing. -/
theorem Settled.first (h : P.Settled init s ended) (hnone : P.view s = none) :
    ended = [] ∧ init = none ∧ P.absent = none ∧ s.read = none := by
  obtain ⟨hread, habsent⟩ := Option.or_eq_none_iff.1 hnone
  have hvalue := h.value
  rw [hnone] at hvalue
  cases ended using List.reverseRecOn with
  | nil => exact ⟨rfl, hvalue.symm, habsent, hread⟩
  | append_singleton rest call =>
    rw [foldl_append] at hvalue
    cases hvalue

variable {t : State C Op F}

theorem stageOk_read {stage : Stage} {c : C} (hread : t.read = s.read)
    (h : P.stageOk s call c stage) : P.stageOk t call c stage := by
  cases stage with
  | found => exact h
  | making | made => exact ⟨hread.trans h.1, h.2⟩

theorem view_eq (hread : t.read = s.read) : P.view t = P.view s := by
  rw [view, hread, view]

theorem Settled.goOn (h : P.Settled init s ended)
    (hread : t.read = s.read) (hget : ∀ other, t.calls.get other =
      if other = id then some (call, ph) else s.calls.get other)
    (hmakes : ph.makes = false) (hfound : P.view s ≠ none) : P.Settled init t ended where
  value := (view_eq hread).trans h.value
  found := by
    intro other c ph' hother
    rw [hget other] at hother
    split at hother
    · cases hother
      exact hmakes
    · exact h.found other c ph' hother
  waiting := by
    intro hnone
    rw [view_eq hread] at hnone
    exact absurd hnone hfound

theorem Settled.finish (h : P.Settled init s ended)
    (hview : P.view t = P.serial (P.view s) call)
    (hget : ∀ other, t.calls.get other = if other = id then none else s.calls.get other) : P.Settled init t (ended ++ [call]) where
  value := by
    rw [foldl_append, ← h.value]
    exact hview
  found := by
    intro other c ph hother
    rw [hget other] at hother
    split at hother
    · cases hother
    · exact h.found other c ph hother
  waiting := by
    intro hnone
    rw [hview] at hnone
    cases hnone

namespace Apart

variable {w : Call Op F × Phase C}

theorem goOn (h : Apart s) {ph : Phase C} (hget : s.calls.get id = some w)
    (hfilling : ∀ i stage c, ph = .filling i stage c → i < s.inodes ∧ i ≠ s.file) : Apart (s.goOn id call ph) where
  __ := h
  filling := by
    intro other call' i stage c hother
    rw [get_goOn] at hother
    split at hother
    · cases hother
      exact hfilling i stage c rfl
    · exact h.filling other call' i stage c hother
  ids := by
    intro other w' hother
    rw [get_goOn] at hother
    split at hother
    · rename_i heq
      rw [heq]
      exact h.ids id w hget
    · exact h.ids other w' hother

theorem finish (h : Apart s) : Apart (s.finish id) where
  __ := h
  filling := by
    intro other call' i stage c hother
    rw [get_finish] at hother
    split at hother
    · cases hother
    · exact h.filling other call' i stage c hother
  ids := by
    intro other w hother
    rw [get_finish] at hother
    split at hother
    · cases hother
    · exact h.ids other w hother

theorem begins (h : Apart s) (call : Call Op F) : Apart { s.goOn s.next call .reading with next := s.next + 1 } where
  __ := h
  filling := by
    intro other call' i stage c hother
    change (s.goOn s.next call .reading).calls.get other = _ at hother
    rw [get_goOn] at hother
    split at hother
    · cases hother
    · exact h.filling other call' i stage c hother
  ids := by
    intro other w hother
    change (s.goOn s.next call .reading).calls.get other = _ at hother
    rw [get_goOn] at hother
    split at hother
    · rename_i heq
      rw [heq]
      exact Nat.lt_succ_self _
    · exact Nat.lt_succ_of_lt (h.ids other w hother)

theorem opens (h : Apart s) (hget : s.calls.get id = some w) (stage : Stage)
    (c : C) : Apart (s.opens id call stage c) ∧ (s.opens id call stage c).read = s.read ∧
      ∃ i, ∀ other, (s.opens id call stage c).calls.get other =
        if other = id then some (call, .filling i stage c) else s.calls.get other := by
  unfold State.opens
  cases htmp : s.tmp with
  | some i =>
    have hne : i ≠ s.file := fun heq => h.tmp_ne (by rw [htmp, heq])
    have hput : Apart (s.put i .empty) := { h with }
    refine ⟨hput.goOn hget ?_, read_put hne, i, fun other => get_goOn other⟩
    rintro j stage' c' ⟨⟩
    exact ⟨h.tmp_lt i htmp, hne⟩
  | none =>
    have hne : s.inodes ≠ s.file := Nat.ne_of_gt h.file_lt
    let opened : State C Op F := { s.put s.inodes .empty with tmp := some s.inodes, inodes := s.inodes + 1 }
    have hopened : Apart opened :=
      { file_lt := Nat.lt_succ_of_lt h.file_lt
        tmp_lt := by
          rintro i ⟨⟩
          exact Nat.lt_succ_self _
        tmp_ne := fun heq => hne (Option.some.inj heq)
        filling := by
          intro other call' i stage c hother
          obtain ⟨hlt, hne⟩ := h.filling other call' i stage c hother
          exact ⟨Nat.lt_succ_of_lt hlt, hne⟩
        ids := h.ids }
    refine ⟨hopened.goOn hget ?_, read_put hne, s.inodes, fun other => get_goOn other⟩
    rintro j stage' c' ⟨⟩
    exact ⟨Nat.lt_succ_self _, hne⟩

theorem fills (h : Apart s) {i : Nat} {stage : Stage} {c : C}
    (hget : s.calls.get id = some (call, .filling i stage c)) (clean : Bool) :
    Apart (s.fills id call i stage c clean) ∧ (s.fills id call i stage c clean).read = s.read := by
  obtain ⟨-, hne⟩ := h.filling id call i stage c hget
  refine ⟨?_, read_put hne⟩
  exact goOn (s := s.put i _) { h with } hget
    (by rintro _ _ _ ⟨⟩)

/-- The temporary file takes the place of the file, and nobody writes to it any more. -/
theorem replaces (h : Apart s) {i : Nat} (htmp : s.tmp = some i)
    (hopen : ∀ other call stage c, s.calls.get other ≠ some (call, .filling i stage c)) :
    Apart { s with file := i, tmp := none } where
  file_lt := h.tmp_lt i htmp
  tmp_lt := by
    rintro j ⟨⟩
  tmp_ne := by
    rintro ⟨⟩
  filling := by
    intro other call' j stage c hother
    refine ⟨(h.filling other call' j stage c hother).1, ?_⟩
    rintro rfl
    exact hopen other call' stage c hother
  ids := h.ids

end Apart

/-- A call that has the file to itself meets no other that is making it. -/
theorem Sound.of_alone (h : P.Sound init s ended) (hget : s.calls.get id = some (call, ph))
    (halone : ∀ other, other ≠ id → ∀ c ph, s.calls.get other = some (c, ph) → ph.makes = false) :
    P.Settled init s ended ∨ P.Making init s ended id call ph := by
  cases h.value with
  | inl hsettled => exact .inl hsettled
  | inr hmaking =>
    obtain ⟨id', call', ph', hmaking⟩ := hmaking
    by_cases hid : id' = id
    · subst hid
      have hsame := hmaking.get
      rw [hget] at hsame
      cases hsame
      exact .inr hmaking
    · have hmakes := makes_of_ok hmaking.ok
      rw [halone id' hid call' ph' hmaking.get] at hmakes
      cases hmakes

theorem Sound.of_busy (h : P.Sound init s ended) (hget : s.calls.get id = some (call, ph)) (hbusy : ph ≠ .reading) :
    P.Settled init s ended ∧ ph.makes = false ∧ P.view s ≠ none ∨ P.Making init s ended id call ph := by
  cases h.value with
  | inl hsettled =>
    refine .inl ⟨hsettled, hsettled.found id call ph hget, ?_⟩
    intro hnone
    exact hbusy (hsettled.waiting hnone id call ph hget)
  | inr hmaking =>
    obtain ⟨id', call', ph', hmaking⟩ := hmaking
    by_cases hid : id = id'
    · subst hid
      have hsame := hmaking.get
      rw [hget] at hsame
      cases hsame
      exact .inr hmaking
    · exact absurd (hmaking.others id hid call ph hget) hbusy

theorem Making.goOn {ph' : Phase C} (h : P.Making init s ended id call ph)
    (hget : ∀ other, t.calls.get other =
      if other = id then some (call, ph') else s.calls.get other) (hok : P.makingOk t call ph') :
    P.Making init t ended id call ph' where
  __ := h
  get := (hget id).trans (if_pos rfl)
  ok := hok
  others := by
    intro other hne c ph hother
    rw [hget other, if_neg hne] at hother
    exact h.others other hne c ph hother

theorem Making.finish (h : P.Making init s ended id call ph)
    (hget : ∀ other, t.calls.get other = if other = id then none else s.calls.get other)
    (hview : P.view t = P.serial none call) : P.Settled init t (ended ++ [call]) where
  value := by
    rw [h.ended, h.init]
    exact hview
  found := by
    intro other c ph hother
    rw [hget other] at hother
    split at hother
    · cases hother
    · rename_i hne
      rw [h.others other hne c ph hother]
      rfl
  waiting := by
    intro _ other c ph hother
    rw [hget other] at hother
    split at hother
    · cases hother
    · rename_i hne
      exact h.others other hne c ph hother

theorem Sound.moves (h : P.Sound init s ended) {ph' : Phase C}
    (hget : s.calls.get id = some (call, ph)) (hbusy : ph ≠ .reading) (happart : Apart t)
    (hread : t.read = s.read)
    (hget' : ∀ other, t.calls.get other =
      if other = id then some (call, ph') else s.calls.get other) (hmakes : ph'.makes = ph.makes)
    (hok : P.makingOk s call ph → P.makingOk t call ph') : P.Sound init t ended := by
  refine ⟨happart, ?_⟩
  cases h.of_busy hget hbusy with
  | inl hsettled =>
    obtain ⟨hsettled, hfound, hsome⟩ := hsettled
    exact .inl (hsettled.goOn hread hget' (hmakes.trans hfound) hsome)
  | inr hmaking => exact .inr ⟨id, call, ph', hmaking.goOn hget' (hok hmaking.ok)⟩

/-- A call that begins looks at nothing yet. -/
theorem Sound.begins (h : P.Sound init s ended) (call : Call Op F) :
    P.Sound init { s.goOn s.next call .reading with next := s.next + 1 } ended := by
  have hget : ∀ other, (s.goOn s.next call .reading).calls.get other =
      if other = s.next then some (call, .reading) else s.calls.get other := fun other => get_goOn other
  refine ⟨h.apart.begins call, ?_⟩
  cases h.value with
  | inl hsettled =>
    refine .inl ⟨hsettled.value, ?_, ?_⟩
    · intro other c ph hother
      change (s.goOn s.next call .reading).calls.get other = _ at hother
      rw [hget other] at hother
      split at hother
      · cases hother
        rfl
      · exact hsettled.found other c ph hother
    · intro hnone other c ph hother
      change (s.goOn s.next call .reading).calls.get other = _ at hother
      rw [hget other] at hother
      split at hother
      · cases hother
        rfl
      · exact hsettled.waiting hnone other c ph hother
  | inr hmaking =>
    obtain ⟨id, call', ph, hmaking⟩ := hmaking
    have hne : id ≠ s.next := Nat.ne_of_lt (h.apart.ids id _ hmaking.get)
    refine .inr ⟨id, call', ph, { hmaking with get := ?_, others := ?_ }⟩
    · exact (hget id).trans ((if_neg hne).trans hmaking.get)
    · intro other hother c ph' hget'
      change (s.goOn s.next call .reading).calls.get other = _ at hget'
      rw [hget other] at hget'
      split at hget'
      · cases hget'
        rfl
      · exact hmaking.others other hother c ph' hget'

structure Steps (init : Option C) (ended : List (Call Op F)) (r : State C Op F × List (Output C Op F)) :
    Prop where
  sound : P.Sound init r.1 (ended ++ endedIn r.2)
  out : r.2 = [] ∨ ∃ id call value wrote, r.2 = [.ended id call value wrote] ∧ P.view r.1 = some value

theorem Steps.quiet (h : P.Sound init s ended) : P.Steps init ended (s, []) := by
  refine ⟨?_, .inl rfl⟩
  rw [endedIn, endings, filterMap_nil, map_nil, append_nil]
  exact h

theorem Steps.ends {c : C} {wrote : Bool} (happart : Apart s) (h : P.Settled init s (ended ++ [call]))
    (hview : P.view s = some c) : P.Steps init ended (s, [.ended id call c wrote]) where
  sound := ⟨happart, .inl h⟩
  out := .inr ⟨id, call, c, wrote, rfl, hview⟩

theorem Sound.reads (h : P.Sound init s ended) (hget : s.calls.get id = some (call, .reading))
    (halone : ∀ other, other ≠ id → ∀ c ph, s.calls.get other = some (c, ph) → ph.makes = false) :
    P.Steps init ended (P.reads s id call) := by
  have hsettled : P.Settled init s ended := by
    cases h.of_alone hget halone with
    | inl hsettled => exact hsettled
    | inr hmaking => exact hmaking.ok.elim
  unfold Program.reads
  cases hor : P.view s with
  | none =>
    obtain ⟨hended, hinit, habsent, hread⟩ := hsettled.first hor
    have happart : Apart (s.goOn id call .again) := h.apart.goOn hget (by rintro _ _ _ ⟨⟩)
    refine Steps.quiet ⟨happart, .inr ⟨id, call, .again, ?_⟩⟩
    refine ⟨hended, hinit, habsent, (get_goOn id).trans (if_pos rfl), hread, ?_⟩
    intro other hne c ph hother
    rw [get_goOn, if_neg hne] at hother
    exact hsettled.waiting hor other c ph hother
  | some c =>
    dsimp only
    unfold edits
    cases happly : P.apply call.op c with
    | none =>
      have hserial : P.view s = P.serial (P.view s) call := by
        rw [hor]
        simp [serial, happly]
      exact Steps.ends h.apart.finish
        (hsettled.finish (t := s.finish id) hserial fun other => get_finish other) hor
    | some c' =>
      have happart : Apart (s.goOn id call (.opening .found c')) :=
        h.apart.goOn hget (by rintro _ _ _ ⟨⟩)
      refine Steps.quiet ⟨happart, .inl ?_⟩
      have hget' : ∀ other, (s.goOn id call (.opening .found c')).calls.get other =
          if other = id then some (call, .opening .found c') else s.calls.get other := get_goOn
      refine hsettled.goOn rfl hget' rfl ?_
      rw [hor]
      simp

theorem Sound.replaces (h : P.Sound init s ended) {stage : Stage} {c : C}
    (hget : s.calls.get id = some (call, .replacing stage c)) {i : Nat} (htmp : s.tmp = some i)
    (hcontent : s.contents i = .whole c)
    (hopen : ∀ other call stage c, s.calls.get other ≠ some (call, .filling i stage c))
    (hmakes : P.makesOf s call stage = some c) : P.Steps init ended (P.renames s id call stage c) := by
  let replaced : State C Op F := { s with file := i, tmp := none }
  have happart : Apart replaced := h.apart.replaces htmp hopen
  have hread : replaced.read = some c := by
    change (s.contents i).value = _
    rw [hcontent]
    rfl
  have hview : P.view replaced = some c := by
    rw [view, hread]
    rfl
  unfold renames
  rw [htmp]
  cases h.of_busy hget (by simp) with
  | inl hsettled =>
    obtain ⟨hsettled, hfound, hsome⟩ := hsettled
    have hstage : stage = .found := by simpa [Phase.makes] using hfound
    subst hstage
    refine Steps.ends happart.finish ?_ hview
    refine hsettled.finish (t := replaced.finish id) ?_ fun other => get_finish other
    obtain ⟨cur, hcur, hc⟩ := Option.map_eq_some_iff.1 hmakes
    change P.view replaced = _
    rw [hview, hcur, ← hc]
    rfl
  | inr hmaking =>
    cases stage with
    | found => exact hmaking.ok.elim
    | made =>
      obtain ⟨-, happly⟩ := hmaking.ok
      refine Steps.ends happart.finish ?_ hview
      refine hmaking.finish (t := replaced.finish id) (fun other => get_finish other) ?_
      change P.view replaced = _
      rw [hview]
      simp [serial, happly]
    | making =>
      obtain ⟨-, hmade⟩ := hmaking.ok
      dsimp only
      unfold edits
      cases happly : P.apply call.op c with
      | none =>
        refine Steps.ends happart.finish ?_ hview
        refine hmaking.finish (t := replaced.finish id) (fun other => get_finish other) ?_
        change P.view replaced = _
        rw [hview]
        simp [serial, ← hmade, happly]
      | some c' =>
        have hnext : Apart (replaced.goOn id call (.opening .made c')) :=
          happart.goOn hget (by rintro _ _ _ ⟨⟩)
        refine Steps.quiet ⟨hnext, .inr ⟨id, call, .opening .made c', ?_⟩⟩
        refine hmaking.goOn (fun other => get_goOn other) ⟨?_, ?_⟩
        · change replaced.read = _
          rw [hread, hmade]
        · rw [← hmade]
          exact happly

theorem Sound.step (h : P.Sound init s ended) (e : Event Op F) (hone : P.OneAfterAnother s e) :
    P.Steps init ended (P.step s e) := by
  cases e with
  | begins call => exact Steps.quiet (h.begins call)
  | goesOn id clean =>
    simp only [Program.step]
    cases hget : s.calls.get id with
    | none => exact Steps.quiet h
    | some w =>
      obtain ⟨call, ph⟩ := w
      have hphase := hone call ph hget
      cases ph with
      | reading => exact h.reads hget hphase
      | again =>
        refine Steps.quiet (h.moves hget (by simp) ?_ rfl (fun other => get_goOn other) rfl ?_)
        · exact h.apart.goOn hget (by rintro _ _ _ ⟨⟩)
        · intro hread
          change s.read = none at hread
          refine ⟨hread, ?_⟩
          rw [hread]
      | opening stage c =>
        obtain ⟨happart, hread, i, hcalls⟩ := h.apart.opens hget stage c
        exact Steps.quiet (h.moves hget (by simp) happart hread hcalls rfl (stageOk_read hread))
      | filling i stage c =>
        obtain ⟨happart, hread⟩ := h.apart.fills hget clean
        exact Steps.quiet (h.moves hget (by simp) happart hread (fun other => get_goOn other) rfl
          (stageOk_read hread))
      | guarding stage c =>
        dsimp only
        cases htmp : s.tmp with
        | none => exact absurd htmp hphase
        | some i =>
          refine Steps.quiet (h.moves hget (by simp) ?_ rfl (fun other => get_goOn other) rfl
            fun hok => hok)
          exact h.apart.goOn hget (by rintro _ _ _ ⟨⟩)
      | replacing stage c =>
        obtain ⟨-, i, htmp, hcontent, hopen, hmakes⟩ := hphase
        exact h.replaces hget htmp hcontent hopen hmakes

end Program
end ReplacedFile
