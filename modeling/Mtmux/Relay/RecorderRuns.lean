import Mtmux.Relay.RecordingsIndex

/-! Starts and stops of recordings, with what their sources do meanwhile: the table of active recordings, the index and
the cast files. -/
namespace Mtmux.Relay.RecorderRuns
open Protocol ReplacedFile OrderedMap Machine Program List Option

/-- What a recording reads from. A pty that has shown nothing for a while counts as ready. -/
inductive Source where
  | none
  | pty (ready : Bool)
  | fifo
  | exited
  deriving DecidableEq

structure Recording where
  info : RecordingRow
  source : Source
  polling : Bool
  deriving DecidableEq

/-- What a start waits for. `undone` takes back what a failing capture has opened, `closing` closes its file. -/
inductive StartStage where
  | found
  | size
  | dir
  | writer
  | clone
  | piped
  | mkfifo
  | screen
  | pipePane
  | undone
  | closing
  | removing (call : Nat)
  | putting (call : Nat)

structure StartCall where
  info : RecordingRow
  stage : StartStage

/-- What a stop waits for: that the source and the file are closed, and then its patch of the index. -/
inductive StopStage where
  | closing
  | patching (call : Nat)

/-- `files` are the recordings with a cast file, `used` the ids that have been drawn. -/
structure State where
  active : OrderedMap String Recording
  starts : OrderedMap String StartCall
  stops : OrderedMap String StopStage
  files : List String
  index : ReplacedFile.State (List RecordingRow) IndexOp Unit
  used : List String

/-- `goOn` ends an await of a start; it says how that went, and whether a pty could be spawned. `limit` tells that the
file is full. -/
inductive Event where
  | start (id filename : String) (target : RecordingTarget) (title : String) (cols rows startedAt : Nat)
  | goOn (id : String) (ok spawned : Bool)
  | startIndex (id : String) (clean : Bool)
  | startIndexFails (id : String)
  | stop (id : String)
  | closed (id : String) (endedAt bytes events : Nat) (stopReason : RecordingStopReason)
  | stopIndex (id : String) (clean : Bool)
  | ready (id : String)
  | data (id : String) (limit : Bool)
  | exit (id : String)
  | fifoError (id : String)
  | poll (id : String) (limit : Bool)

inductive Verdict where
  | refused (target : RecordingTarget)
  | started (id : String)
  | threw (id : String)
  | stopped (id : String)
  deriving DecidableEq

/-- Do two targets name the same source? -/
def sameTarget : RecordingTarget → RecordingTarget → Bool
  | .session session, .session other => session = other
  | .pane _ paneId, .pane _ other => paneId = other
  | _, _ => false

namespace State

def rows (s : State) : List RecordingRow := (recordingsIndex.view s.index).getD []

def activeFor (s : State) (target : RecordingTarget) : Bool :=
  s.active.entries.any fun recording => sameTarget recording.2.info.target target

def callsIndex (s : State) (op : IndexOp) : State :=
  { s with index := (recordingsIndex.step s.index (.begins ⟨op, ()⟩)).1 }

def setStage (s : State) (info : RecordingRow) (stage : StartStage) : State :=
  { s with starts := s.starts.set info.id ⟨info, stage⟩ }

def setSource (s : State) (id : String) (source : Source) : State :=
  { s with active := s.active.modify id fun recording => { recording with source := source } }

/-- A start throws, with nothing done that is to be taken back. -/
def throws (s : State) (id : String) : State × List Verdict := ({ s with starts := s.starts.delete id }, [.threw id])

def catches (s : State) (info : RecordingRow) : State × List Verdict :=
  ({ s with active := s.active.delete info.id }.setStage info .closing, [])

def puts (s : State) (info : RecordingRow) : State × List Verdict :=
  ((s.callsIndex (.put info)).setStage info (.putting s.index.next), [])

def firstStage : RecordingTarget → StartStage
  | .session _ => .clone
  | .pane _ _ => .piped

/-- The file is there: the recording is in the table, and its capture begins. -/
def publishes (s : State) (info : RecordingRow) : State × List Verdict :=
  ({ s with files := s.files ++ [info.id], active := s.active.set info.id ⟨info, .none, false⟩ }.setStage info
    (firstStage info.target), [])

def start (s : State) (info : RecordingRow) : State × List Verdict :=
  if s.activeFor info.target then (s, [.refused info.target])
  else ({ s with used := s.used ++ [info.id] }.setStage info .found, [])

def goOn (s : State) (info : RecordingRow) (ok spawned : Bool) : StartStage → State × List Verdict
  | .found => if ok then (s.setStage info .size, []) else s.throws info.id
  | .size => (s.setStage info .dir, [])
  | .dir => if ok then (s.setStage info .writer, []) else s.throws info.id
  | .writer => if ok then s.publishes info else s.throws info.id
  | .clone =>
    if !ok then s.catches info
    else if spawned then (s.setSource info.id (.pty false)).puts info
    else (s.setStage info .undone, [])
  | .piped => if ok then (s.setStage info .mkfifo, []) else s.catches info
  | .mkfifo => if ok then (s.setStage info .screen, []) else s.catches info
  | .screen => ((s.setSource info.id .fifo).setStage info .pipePane, [])
  | .pipePane => if ok then s.puts info else (s.setStage info .undone, [])
  | .undone => s.catches info
  | .closing => ((s.callsIndex (.remove info.id)).setStage info (.removing s.index.next), [])
  | .putting _ | .removing _ => (s, [])

/-- A start's call of the index has ended. What fails in the `catch` is not looked at. -/
def indexed (s : State) (id : String) (failed : Bool) : StartStage → State × List Verdict
  | .putting _ =>
    if failed then s.throws id
    else ({ s with
        starts := s.starts.delete id
        active := s.active.modify id fun recording => { recording with polling := true } }, [.started id])
  | _ => s.throws id

def startCall : StartStage → Option Nat
  | .putting call | .removing call => some call
  | _ => Option.none

def startIndex (s : State) (id : String) (clean : Bool) : State × List Verdict :=
  match s.starts.get id with
  | Option.none => (s, [])
  | some ⟨_, stage⟩ =>
    match startCall stage with
    | Option.none => (s, [])
    | some call =>
      let r := recordingsIndex.step s.index (.goesOn call clean)
      match r.2 with
      | [] => ({ s with index := r.1 }, [])
      | .failed _ _ :: _ => { s with index := r.1 }.indexed id true stage
      | .ended _ _ _ _ :: _ => { s with index := r.1 }.indexed id false stage

def startIndexFails (s : State) (id : String) : State × List Verdict :=
  match s.starts.get id with
  | Option.none => (s, [])
  | some ⟨_, stage⟩ =>
    match startCall stage with
    | Option.none => (s, [])
    | some call => { s with index := s.index.finish call }.indexed id true stage

def stop (s : State) (id : String) : State :=
  match s.active.get id with
  | Option.none => s
  | some _ => { s with active := s.active.delete id, stops := s.stops.set id .closing }

def closed (s : State) (id : String) (changes : RecordingChanges) : State :=
  match s.stops.get id with
  | some .closing => { s.callsIndex (.patch id changes) with stops := s.stops.set id (.patching s.index.next) }
  | _ => s

def stopIndex (s : State) (id : String) (clean : Bool) : State × List Verdict :=
  match s.stops.get id with
  | some (.patching call) =>
    let r := recordingsIndex.step s.index (.goesOn call clean)
    match r.2 with
    | [] => ({ s with index := r.1 }, [])
    | _ => ({ s with index := r.1, stops := s.stops.delete id }, [.stopped id])
  | _ => (s, [])

def source (s : State) (id : String) : Source := ((s.active.get id).map Recording.source).getD .none

def ready (s : State) (id : String) : State := if s.source id = .pty false then s.setSource id (.pty true) else s

def data (s : State) (id : String) (limit : Bool) : State :=
  match s.source id with
  | .pty _ => if limit then (s.setSource id (.pty true)).stop id else s.setSource id (.pty true)
  | .fifo => if limit then s.stop id else s
  | _ => s

/-- A pty that exits before it was ready tells only those who listen for spawn errors. -/
def exit (s : State) (id : String) : State :=
  match s.source id with
  | .pty ready => if ready then (s.setSource id .exited).stop id else s.setSource id .exited
  | _ => s

def fifoError (s : State) (id : String) : State :=
  if s.source id = .fifo then (s.setSource id .exited).stop id else s

/-- The poll of the size, which a start sets up at its end. -/
def poll (s : State) (id : String) (limit : Bool) : State :=
  if limit && (s.active.get id).any Recording.polling then s.stop id else s

/-- A random id that is in use does not come up. -/
def step (s : State) : Event → State × List Verdict
  | .start id filename target title cols rows startedAt =>
    if id ∈ s.used ∨ ∃ row ∈ s.rows, row.id = id then (s, [])
    else s.start (startedRecording id filename target title cols rows startedAt)
  | .goOn id ok spawned =>
    match s.starts.get id with
    | Option.none => (s, [])
    | some call => s.goOn call.info ok spawned call.stage
  | .startIndex id clean => s.startIndex id clean
  | .startIndexFails id => s.startIndexFails id
  | .stop id => (s.stop id, [])
  | .closed id endedAt bytes events stopReason => (s.closed id (Relay.stopped endedAt bytes events stopReason), [])
  | .stopIndex id clean => s.stopIndex id clean
  | .ready id => (s.ready id, [])
  | .data id limit => (s.data id limit, [])
  | .exit id => (s.exit id, [])
  | .fifoError id => (s.fifoError id, [])
  | .poll id limit => (s.poll id limit, [])

end State

def recorder (content : Content (List RecordingRow)) : Machine State Event Verdict :=
  ⟨⟨.empty, .empty, .empty, [], .start content, []⟩, State.step⟩

/-- One recording a target, an open row for each that runs, and nothing left of a start that threw. A recording that a stop is closing is out of the table, and its row is still open. -/
structure Lifecycle (content : Content (List RecordingRow)) (es : List Event) : Prop where
  single : ∀ before after, es = before ++ after → ∀ id other r r', ((recorder content).run before).active.get id = some r →
    ((recorder content).run before).active.get other = some r' → sameTarget r.info.target r'.info.target = true → id = other
  rows : ∀ before after, es = before ++ after → ∀ row ∈ ((recorder content).run before).rows, row.endedAt = none →
    .started row.id ∈ (recorder content).outputs before →
      (((recorder content).run before).active.get row.id).isSome ∨ (((recorder content).run before).stops.get row.id).isSome
  sources : ∀ before after, es = before ++ after → ∀ id r, ((recorder content).run before).active.get id = some r →
    r.source ≠ .exited
  thrown : ∀ x ∈ (recorder content).trace es, ∀ id, .threw id ∈ x.out →
    x.post.active.get id = none ∧ (∀ row ∈ x.post.rows, row.id ≠ id) ∧ id ∉ x.post.files

def replacing (s : State) (call : Nat) : Prop := ∃ c stage rows, s.index.calls.get call = some (c, .replacing stage rows)

/-- What the recorder relies on: a target that a start takes is still free, a capture does not fail once the file is there,
nor a put, no pty exits before it was ready, the calls of the index go one after another, and a row is not put when its
recording has been stopped and the stop is over. -/
def Meets (s : State) : Event → Prop
  | .goOn id ok spawned => ∀ call, s.starts.get id = some call →
    match call.stage with
    | .writer => ok = true → s.activeFor call.info.target = false
    | .clone => ok = true ∧ spawned = true
    | .piped | .mkfifo | .pipePane => ok = true
    | _ => True
  | .startIndex id clean => ∀ call c, s.starts.get id = some call → State.startCall call.stage = some c →
    recordingsIndex.OneAfterAnother s.index (.goesOn c clean) ∧
      (replacing s c → (s.active.get id).isSome ∨ (s.stops.get id).isSome)
  | .startIndexFails id => ∀ call, s.starts.get id = some call → State.startCall call.stage = none
  | .stopIndex id clean => ∀ c, s.stops.get id = some (.patching c) →
    recordingsIndex.OneAfterAnother s.index (.goesOn c clean)
  | .exit id => s.source id ≠ .pty false
  | _ => True

/-- A run can be checked for it. -/
def meets (s : State) : Event → Bool
  | .goOn id ok spawned =>
    (s.starts.get id).all fun call =>
      match call.stage with
      | .writer => !ok || !s.activeFor call.info.target
      | .clone => ok && spawned
      | .piped | .mkfifo | .pipePane => ok
      | _ => true
  | .startIndex id clean =>
    ((s.starts.get id).bind fun call => State.startCall call.stage).all fun c =>
      recordingsIndex.oneAfterAnother s.index (.goesOn c clean) && ((s.active.get id).isSome || (s.stops.get id).isSome)
  | .startIndexFails id => ((s.starts.get id).bind fun call => State.startCall call.stage).isNone
  | .stopIndex id clean =>
    match s.stops.get id with
    | some (.patching c) => recordingsIndex.oneAfterAnother s.index (.goesOn c clean)
    | _ => true
  | .exit id => s.source id ≠ .pty false
  | _ => true

theorem of_meets {s : State} {e : Event} (h : meets s e = true) : Meets s e := by
  cases e with
  | goOn id ok spawned =>
    intro call hget
    simp only [meets, hget, all_some] at h
    obtain ⟨info, stage⟩ := call
    cases stage with
    | writer => exact fun hok => by simpa [hok] using h
    | clone => simpa using h
    | piped | mkfifo | pipePane => exact h
    | _ => trivial
  | startIndex id clean =>
    intro call c hget hcall
    simp only [meets, hget, bind_some, hcall, all_some, Bool.and_eq_true, Bool.or_eq_true] at h
    exact ⟨of_oneAfterAnother h.1, fun _ => h.2⟩
  | startIndexFails id =>
    intro call hget
    simpa only [meets, hget, bind_some, isNone_iff_eq_none] using h
  | stopIndex id clean =>
    intro c hstop
    simp only [meets, hstop] at h
    exact of_oneAfterAnother h
  | exit id =>
    have hready : s.source id ≠ .pty false := by simpa [meets] using h
    exact hready
  | _ => trivial

/-! ### The index -/

section Index
variable {init : Option (List RecordingRow)} {s : State} {ended : List (Call IndexOp Unit)}

theorem absent_ne : recordingsIndex.absent ≠ none := some_ne_none _

theorem get_begins (s : State) (op : IndexOp) (c : Nat) : (s.callsIndex op).index.calls.get c =
    if c = s.index.next then some (⟨op, ()⟩, .reading) else s.index.calls.get c :=
  get_set _ _ _ _

theorem rows_ends {t : State} {op : IndexOp}
    (h : recordingsIndex.view t.index = recordingsIndex.serial (recordingsIndex.view s.index) ⟨op, ()⟩) :
    t.rows = (op.apply s.rows).getD s.rows := by
  have hview : ∃ rows, recordingsIndex.view s.index = some rows := by
    unfold Program.view
    cases s.index.read with
    | none => exact ⟨[], rfl⟩
    | some rows => exact ⟨rows, rfl⟩
  obtain ⟨rows, hrows⟩ := hview
  unfold State.rows
  rw [h, hrows]
  rfl

theorem replacing_of_put {c : Nat} {info : RecordingRow} {ph : Phase (List RecordingRow)} {clean : Bool}
    (hget : s.index.calls.get c = some (⟨.put info, ()⟩, ph)) (hone : recordingsIndex.OneAfterAnother s.index (.goesOn c clean))
    (hends : (recordingsIndex.step s.index (.goesOn c clean)).2 ≠ []) : replacing s c := by
  have hphase := hone _ _ hget
  simp only [Program.step, hget] at hends
  cases ph with
  | reading =>
    refine absurd ?_ hends
    unfold Program.reads
    cases recordingsIndex.view s.index with
    | none | some _ => rfl
  | guarding stage rows =>
    refine absurd ?_ hends
    dsimp only
    split
    · rename_i htmp
      exact absurd htmp hphase
    · rfl
  | replacing stage rows => exact ⟨_, stage, rows, hget⟩
  | _ => exact absurd rfl hends

end Index

/-! ### What holds in every state -/

/-- A start whose file is not there yet. -/
def early : StartStage → Bool
  | .found | .size | .dir | .writer => true
  | _ => false

def failing : StartStage → Bool
  | .undone | .closing | .removing _ => true
  | _ => false

/-- What a state has under an id, besides its rows. -/
structure Slot where
  start : Option StartCall
  recording : Option Recording
  stop : Option StopStage
  filed : Prop
  used : Prop

/-- Somebody still looks after the row. -/
def Slot.Held (x : Slot) : Prop := x.start.isSome ∨ x.recording.isSome ∨ x.stop.isSome

def Slot.waits (x : Slot) : Option (RecordingRow × Nat) × Option Nat :=
  (x.start.bind fun call => (State.startCall call.stage).map fun c => (call.info, c),
    x.stop.bind fun stage =>
      match stage with
      | .closing => none
      | .patching c => some c)

def State.slot (s : State) (id : String) : Slot :=
  ⟨s.starts.get id, s.active.get id, s.stops.get id, id ∈ s.files, id ∈ s.used⟩

/-- Of the slots, a step from `s` to `t` changes that of `id` alone. -/
def State.Sets (s t : State) (id : String) (x : Slot) : Prop :=
  ∀ other, t.slot other = if other = id then x else s.slot other

def State.op (s : State) (c : Nat) : Option IndexOp := (s.index.calls.get c).map fun w => w.1.op

structure Fits (id : String) (rows : List RecordingRow) (returned : Prop) (x : Slot) : Prop where
  lives : ∀ r, x.recording = some r → r.source ≠ .exited
  opened : ∀ row ∈ rows, row.id = id → row.endedAt = none → x.used → x.Held
  info : ∀ call, x.start = some call → call.info.id = id ∧ failing call.stage = false
  fresh : ∀ call, x.start = some call → early call.stage = true →
    x.recording = none ∧ x.stop = none ∧ ¬ x.filed ∧ ∀ row ∈ rows, row.id ≠ id
  used : x.Held ∨ x.filed ∨ returned → x.used
  apart : x.recording.isSome → x.stop = none
  returned : returned → x.start = none

/-- Each call of the index has one start or stop that waits for it. -/
structure Awaited (op : Nat → Option IndexOp) (waits : String → Option (RecordingRow × Nat) × Option Nat) : Prop where
  putting : ∀ c info, op c = some (.put info) ↔ (waits info.id).1 = some (info, c)
  patching : ∀ c id, (∃ changes, op c = some (.patch id changes)) ↔ (waits id).2 = some c
  ends : ∀ c id changes, op c = some (.patch id changes) → ∃ time, changes.endedAt = some (some time)
  stays : ∀ c id, op c ≠ some (.remove id)

structure Inv (init : Option (List RecordingRow)) (s : State) (returned : List String) : Prop where
  sound : ∃ ended, recordingsIndex.Sound init s.index ended
  single : ∀ id other r r', s.active.get id = some r → s.active.get other = some r' →
    sameTarget r.info.target r'.info.target = true → id = other
  fits : ∀ id, Fits id s.rows (id ∈ returned) (s.slot id)
  awaited : Awaited s.op fun id => (s.slot id).waits

section Steps
variable {init : Option (List RecordingRow)} {s t : State} {returned returned' : List String} {id : String}
  {info : RecordingRow} {stage : StartStage}

theorem sameTarget_comm (a b : RecordingTarget) : sameTarget a b = sameTarget b a := by
  cases a with
  | session a =>
    cases b with
    | session b => simp [sameTarget, eq_comm]
    | pane b p => rfl
  | pane a p =>
    cases b with
    | session b => rfl
    | pane b q => simp [sameTarget, eq_comm]

variable {x : Slot}

theorem State.Sets.waits (h : s.Sets t id x) (other : String) :
    (t.slot other).waits = if other = id then x.waits else (s.slot other).waits := by
  rw [h]
  split <;> rfl

/-- A step concerns one id: what it puts into the table is there already, or its target is free. -/
theorem Inv.changes (h : Inv init s returned) (hsets : s.Sets t id x)
    (hsound : ∃ ended, recordingsIndex.Sound init t.index ended) (hrows : ∀ row ∈ t.rows, row.id ≠ id → row ∈ s.rows)
    (hreturned : ∀ other, other ≠ id → (other ∈ returned' ↔ other ∈ returned))
    (hactive : ∀ r, x.recording = some r →
      (∃ old, s.active.get id = some old ∧ old.info = r.info) ∨ s.activeFor r.info.target = false)
    (hfits : Fits id t.rows (id ∈ returned') x) (hawaited : Awaited t.op fun id => (t.slot id).waits) :
    Inv init t returned' := by
  have hthis : t.slot id = x := (hsets id).trans (if_pos rfl)
  have hothers {other : String} (hid : other ≠ id) : t.slot other = s.slot other := (hsets other).trans (if_neg hid)
  have hfind {other : String} {r : Recording} (hr : t.active.get other = some r) :
      (∃ old, s.active.get other = some old ∧ old.info = r.info) ∨ other = id ∧ s.activeFor r.info.target = false := by
    by_cases hid : other = id
    · subst hid
      exact (hactive r ((congrArg Slot.recording hthis).symm.trans hr)).imp_right fun hfree => ⟨rfl, hfree⟩
    · exact .inl ⟨r, (congrArg Slot.recording (hothers hid)).symm.trans hr, rfl⟩
  have halone {other : String} {r : Recording} {target : RecordingTarget} (hr : s.active.get other = some r)
      (hfree : s.activeFor target = false) : sameTarget r.info.target target = false := by
    simpa using any_eq_false.1 hfree _ ((get_eq_some _ _ _).1 hr)
  refine ⟨hsound, fun one other r r' hr hr' hsame => ?_, fun other => ?_, hawaited⟩
  · cases hfind hr with
    | inl hold =>
      obtain ⟨old, hold, hinfo⟩ := hold
      cases hfind hr' with
      | inl hold' =>
        obtain ⟨old', hold', hinfo'⟩ := hold'
        rw [← hinfo, ← hinfo'] at hsame
        exact h.single _ _ _ _ hold hold' hsame
      | inr hnew =>
        rw [← hinfo, halone hold hnew.2] at hsame
        cases hsame
    | inr hnew =>
      cases hfind hr' with
      | inl hold' =>
        obtain ⟨old', hold', hinfo'⟩ := hold'
        rw [← hinfo', sameTarget_comm, halone hold' hnew.2] at hsame
        cases hsame
      | inr hnew' => exact hnew.1.trans hnew'.1.symm
  · by_cases hid : other = id
    · rw [hid, hthis]
      exact hfits
    · obtain ⟨hlives, hopened, hinfo, hfresh, hused, hapart, hret⟩ := h.fits other
      rw [hothers hid, hreturned other hid]
      refine ⟨hlives, fun row hrow hrid => ?_, hinfo, fun call hcall hearly => ?_, hused, hapart, hret⟩
      · exact hopened row (hrows row hrow (hrid.trans_ne hid)) hrid
      · obtain ⟨hnone, hstop, hfile, hno⟩ := hfresh call hcall hearly
        exact ⟨hnone, hstop, hfile, fun row hrow hrid => hno row (hrows row hrow (hrid.trans_ne hid)) hrid⟩

/-- A step that leaves the index alone, and nobody comes to wait for it. -/
theorem Inv.quiet (h : Inv init s returned) (hsets : s.Sets t id x) (hindex : t.index = s.index)
    (hwaits : x.waits = (s.slot id).waits)
    (hactive : ∀ r, x.recording = some r →
      (∃ old, s.active.get id = some old ∧ old.info = r.info) ∨ s.activeFor r.info.target = false)
    (hfits : Fits id s.rows (id ∈ returned) (s.slot id) → Fits id s.rows (id ∈ returned) x) :
    Inv init t returned := by
  have hrows : t.rows = s.rows := by
    unfold State.rows
    rw [hindex]
  have hop : t.op = s.op := by
    funext c
    unfold State.op
    rw [hindex]
  have hall : (fun other => (t.slot other).waits) = fun other => (s.slot other).waits := by
    funext other
    rw [hsets.waits]
    split
    · rename_i hid
      rw [hid, hwaits]
    · rfl
  refine h.changes hsets (hindex ▸ h.sound) (fun row hrow _ => hrows ▸ hrow) (fun _ _ => Iff.rfl) hactive ?_ ?_
  · rw [hrows]
    exact hfits (h.fits id)
  · rw [hop, hall]
    exact h.awaited

/-! ### Steps of a start -/

theorem sets_setStage (s : State) (info : RecordingRow) (stage : StartStage) :
    s.Sets (s.setStage info stage) info.id { s.slot info.id with start := some ⟨info, stage⟩ } := by
  intro other
  unfold State.setStage State.slot
  split <;> simp_all

theorem Inv.setStage (h : Inv init s returned) (hget : s.starts.get info.id = some ⟨info, stage⟩)
    (hcall : State.startCall stage = none) {next : StartStage} (hnext : State.startCall next = none)
    (hfailing : failing next = false) (hearly : early next = true → early stage = true) :
    Inv init (s.setStage info next) returned := by
  refine h.quiet (sets_setStage s info next) rfl ?_ (fun r hr => .inl ⟨r, hr, rfl⟩) fun hf => ?_
  · simp [Slot.waits, State.slot, hget, hcall, hnext]
  · refine ⟨hf.lives, fun _ _ _ _ _ => .inl rfl, ?_, ?_, fun _ => hf.used (.inl (.inl (by simp [State.slot, hget]))), hf.apart,
      fun hret => by cases hget.symm.trans (hf.returned hret)⟩
    · rintro _ ⟨⟩
      exact ⟨rfl, hfailing⟩
    · rintro _ ⟨⟩ hnew
      exact hf.fresh _ hget (hearly hnew)

theorem sets_modify (s : State) (id : String) (f : Recording → Recording) :
    s.Sets { s with active := s.active.modify id f } id { s.slot id with recording := (s.active.get id).map f } := by
  intro other
  unfold State.slot
  split <;> simp_all [get_modify]

theorem Inv.modify (h : Inv init s returned) {f : Recording → Recording} (hf : ∀ r, (f r).info = r.info)
    (hsource : ∀ r, r.source ≠ .exited → (f r).source ≠ .exited) : Inv init { s with active := s.active.modify id f } returned := by
  refine h.quiet (sets_modify s id f) rfl rfl (fun r hr => ?_) fun hfits => ?_
  · obtain ⟨old, hold, rfl⟩ := map_eq_some_iff.1 hr
    exact .inl ⟨old, hold, (hf old).symm⟩
  · obtain ⟨hlives, hopened, hinfo, hfresh, hused, hapart, hreturned⟩ := hfits
    refine ⟨fun r hr => ?_, fun row hrow hid hopen hu => ?_, hinfo, fun call hcall hnew => ?_, fun hheld => hused ?_, ?_, hreturned⟩
    · obtain ⟨old, hold, rfl⟩ := map_eq_some_iff.1 hr
      exact hsource old (hlives old hold)
    · simpa [Slot.Held, State.slot] using hopened row hrow hid hopen hu
    · simpa [State.slot] using hfresh call hcall hnew
    · simpa [Slot.Held, State.slot] using hheld
    · simpa [State.slot] using hapart

theorem Inv.setSource (h : Inv init s returned) {source : Source} (hlives : source ≠ .exited) :
    Inv init (s.setSource id source) returned :=
  h.modify (fun _ => rfl) fun _ _ => hlives

theorem sets_delete (s : State) (id : String) :
    s.Sets { s with starts := s.starts.delete id } id { s.slot id with start := none } := by
  intro other
  unfold State.slot
  split <;> simp_all [get_delete]

theorem Inv.throws (h : Inv init s returned) (hget : s.starts.get id = some ⟨info, stage⟩) (hearly : early stage = true) :
    Inv init { s with starts := s.starts.delete id } returned := by
  have hcall : State.startCall stage = none := by
    cases stage with
    | putting _ | removing _ => cases hearly
    | _ => rfl
  refine h.quiet (sets_delete s id) rfl ?_ (fun r hr => .inl ⟨r, hr, rfl⟩) fun hf => ?_
  · simp [Slot.waits, State.slot, hget, hcall]
  · obtain ⟨-, -, -, hno⟩ := hf.fresh _ hget hearly
    exact ⟨hf.lives, fun row hrow hid => absurd hid (hno row hrow), by simp, by simp,
      fun _ => hf.used (.inl (.inl (by simp [State.slot, hget]))), hf.apart, fun _ => rfl⟩

/-- A recording whose target nobody else has comes into the table. -/
theorem Inv.publishes (h : Inv init s returned) (hget : s.starts.get info.id = some ⟨info, stage⟩) (hearly : early stage = false)
    (hfree : s.activeFor info.target = false) (hstops : s.stops.get info.id = none) :
    Inv init { s with files := s.files ++ [info.id], active := s.active.set info.id ⟨info, .none, false⟩ } returned := by
  refine h.quiet (x := { s.slot info.id with recording := some ⟨info, .none, false⟩, filed := True }) (fun other => ?_) rfl rfl
    (fun r hr => ?_) fun hf => ?_
  · unfold State.slot
    split <;> simp_all
  · cases hr
    exact .inr hfree
  · refine ⟨?_, fun _ _ _ _ _ => .inr (.inl rfl), hf.info, fun call hcall hnew => ?_, fun _ => hf.used (.inl (.inl ?_)), fun _ => hstops, hf.returned⟩
    · rintro _ ⟨⟩
      exact Source.noConfusion
    · cases hget.symm.trans hcall
      rw [hearly] at hnew
      cases hnew
    · simp [State.slot, hget]

theorem Inv.starts (h : Inv init s returned) (hid : info.id ∉ s.used) (hrows : ∀ row ∈ s.rows, row.id ≠ info.id) :
    Inv init ({ s with used := s.used ++ [info.id] }.setStage info .found) returned := by
  have hno : ¬ (s.slot info.id).Held ∧ info.id ∉ s.files ∧ info.id ∉ returned := by
    have hused := mt (h.fits info.id).used hid
    simpa [State.slot] using hused
  obtain ⟨hheld, hfile, hret⟩ := hno
  simp only [Slot.Held, State.slot, not_or, not_isSome_iff_eq_none] at hheld
  obtain ⟨hstart, hactive, hstop⟩ := hheld
  refine h.quiet (x := { s.slot info.id with start := some ⟨info, .found⟩, used := True }) (fun other => ?_) rfl ?_
    (fun r hr => .inl ⟨r, hr, rfl⟩) fun hf => ?_
  · unfold State.setStage State.slot
    split <;> simp_all
  · simp [Slot.waits, State.slot, hstart, State.startCall]
  · refine ⟨hf.lives, fun _ _ _ _ _ => .inl rfl, ?_, ?_, fun _ => trivial, hf.apart, fun h => absurd h hret⟩
    · rintro _ ⟨⟩
      exact ⟨rfl, rfl⟩
    · rintro _ ⟨⟩ -
      exact ⟨hactive, hstop, hfile, hrows⟩

/-! ### Steps of a stop -/

section
variable (h : Inv init s returned)
include h

theorem Inv.stops (hactive : (s.active.get id).isSome) {active : OrderedMap String Recording}
    (hget : ∀ other, active.get other = if other = id then none else s.active.get other) :
    Inv init { s with active := active, stops := s.stops.set id .closing } returned := by
  have hnone := (h.fits id).apart hactive
  refine h.quiet (x := { s.slot id with recording := none, stop := some .closing }) (fun other => ?_) rfl ?_
    (fun r hr => by cases hr) fun (hf : Fits id _ _ _) => ?_
  · unfold State.slot
    split <;> simp_all
  · simp [Slot.waits, hnone]
  · refine ⟨by simp, fun _ _ _ _ _ => .inr (.inr rfl), hf.info, fun call hcall hnew => ?_,
      fun _ => hf.used (.inl (.inr (.inl hactive))), by simp, hf.returned⟩
    have hgone : s.active.get id = none := (hf.fresh call hcall hnew).1
    rw [hgone] at hactive
    cases hactive

theorem Inv.stop (id : String) : Inv init (s.stop id) returned := by
  unfold State.stop
  cases hactive : s.active.get id with
  | none => exact h
  | some r => exact h.stops (by rw [hactive]; rfl) fun other => get_delete _ _ _

theorem Inv.leaves {id : String} (hsource : s.source id ≠ .none) (source : Source) :
    Inv init ((s.setSource id source).stop id) returned := by
  unfold State.source at hsource
  cases hactive : s.active.get id with
  | none =>
    rw [hactive] at hsource
    exact absurd rfl hsource
  | some r =>
    have hget : (s.setSource id source).active.get id = some { r with source } := by
      change (OrderedMap.modify _ _ _).get id = _
      rw [get_modify, if_pos rfl, hactive]
      rfl
    unfold State.stop
    rw [hget]
    refine h.stops (by rw [hactive]; rfl) fun other => ?_
    change (OrderedMap.delete (OrderedMap.modify _ _ _) _).get other = _
    rw [get_delete, get_modify]
    split <;> rfl

theorem Inv.data (id : String) (limit : Bool) : Inv init (s.data id limit) returned := by
  unfold State.data
  split
  · split
    · exact (h.setSource Source.noConfusion).stop id
    · exact h.setSource Source.noConfusion
  · split
    · exact h.stop id
    · exact h
  · exact h

theorem Inv.exit (hready : s.source id ≠ .pty false) : Inv init (s.exit id) returned := by
  unfold State.exit
  split
  · rename_i ready hsource
    cases ready with
    | false => exact absurd hsource hready
    | true => exact h.leaves (by rw [hsource]; exact Source.noConfusion) .exited
  · exact h

theorem Inv.fifoError (id : String) : Inv init (s.fifoError id) returned := by
  unfold State.fifoError
  split
  · rename_i hsource
    exact h.leaves (by rw [hsource]; exact Source.noConfusion) .exited
  · exact h

end

/-! ### Calls of the index -/

section Awaited
variable {op op' : Nat → Option IndexOp} {waits waits' : String → Option (RecordingRow × Nat) × Option Nat} {c : Nat}
  {changes : RecordingChanges}

theorem Awaited.puts (h : Awaited op waits) (hfree : op c = none) (hnone : (waits info.id).1 = none)
    (hop : ∀ i, op' i = if i = c then some (.put info) else op i)
    (hwaits : ∀ id, waits' id = if id = info.id then (some (info, c), (waits info.id).2) else waits id) : Awaited op' waits' := by
  obtain ⟨hputting, hpatching, hends, hstays⟩ := h
  constructor <;> grind

theorem Awaited.patches (h : Awaited op waits) (hfree : op c = none) (hnone : (waits id).2 = none)
    (hended : ∃ time, changes.endedAt = some (some time)) (hop : ∀ i, op' i = if i = c then some (.patch id changes) else op i)
    (hwaits : ∀ other, waits' other = if other = id then ((waits id).1, some c) else waits other) : Awaited op' waits' := by
  obtain ⟨hputting, hpatching, hends, hstays⟩ := h
  constructor <;> grind

theorem Awaited.put_ends (h : Awaited op waits) (hthis : op c = some (.put info))
    (hop : ∀ i, op' i = if i = c then none else op i)
    (hwaits : ∀ id, waits' id = if id = info.id then (none, (waits info.id).2) else waits id) : Awaited op' waits' := by
  obtain ⟨hputting, hpatching, hends, hstays⟩ := h
  constructor <;> grind

theorem Awaited.patch_ends (h : Awaited op waits) (hthis : op c = some (.patch id changes))
    (hop : ∀ i, op' i = if i = c then none else op i)
    (hwaits : ∀ other, waits' other = if other = id then ((waits id).1, none) else waits other) : Awaited op' waits' := by
  obtain ⟨hputting, hpatching, hends, hstays⟩ := h
  have hstop := (hpatching c id).1 ⟨changes, hthis⟩
  constructor <;> grind

end Awaited

theorem op_callsIndex (s : State) (op : IndexOp) (c : Nat) : (s.callsIndex op).op c = if c = s.index.next then some op else s.op c := by
  unfold State.op
  rw [get_begins]
  split <;> rfl

theorem Inv.op_next (h : Inv init s returned) : s.op s.index.next = none := by
  obtain ⟨ended, hsound⟩ := h.sound
  unfold State.op
  cases hget : s.index.calls.get s.index.next with
  | none => rfl
  | some w => exact absurd (hsound.apart.ids _ w hget) (Nat.lt_irrefl _)

theorem Inv.puts (h : Inv init s returned) (hget : s.starts.get info.id = some ⟨info, stage⟩)
    (hcall : State.startCall stage = none) : Inv init (s.puts info).1 returned := by
  obtain ⟨ended, hsound⟩ := h.sound
  have hsets : s.Sets (s.puts info).1 info.id _ := sets_setStage (s.callsIndex (.put info)) info (.putting s.index.next)
  have hf := h.fits info.id
  refine h.changes hsets ⟨ended, hsound.begins _⟩ (fun row hrow _ => hrow) (fun _ _ => Iff.rfl)
    (fun r hr => .inl ⟨r, hr, rfl⟩) ?_ ?_
  · refine ⟨hf.lives, fun _ _ _ _ _ => .inl rfl, ?_, ?_, fun _ => hf.used (.inl (.inl (by simp [State.slot, hget]))), hf.apart,
      fun hret => by cases hget.symm.trans (hf.returned hret)⟩
    · rintro _ ⟨⟩
      exact ⟨rfl, rfl⟩
    · rintro _ ⟨⟩ ⟨⟩
  · refine h.awaited.puts h.op_next ?_ (op_callsIndex s _) hsets.waits
    simp [Slot.waits, State.slot, hget, hcall]

/-- A stop has closed what it was to close, and patches its row. -/
theorem Inv.closed (h : Inv init s returned) (id : String) {changes : RecordingChanges}
    (hended : ∃ time, changes.endedAt = some (some time)) : Inv init (s.closed id changes) returned := by
  unfold State.closed
  split
  · rename_i hclosing
    obtain ⟨ended, hsound⟩ := h.sound
    have hsets : s.Sets { s.callsIndex (.patch id changes) with stops := s.stops.set id (.patching s.index.next) } id
        { s.slot id with stop := some (.patching s.index.next) } := by
      intro other
      unfold State.callsIndex State.slot
      split <;> simp_all
    have hf := h.fits id
    have hstop : (s.slot id).stop = some .closing := hclosing
    refine h.changes hsets ⟨ended, hsound.begins _⟩ (fun row hrow _ => hrow) (fun _ _ => Iff.rfl)
      (fun r hr => .inl ⟨r, hr, rfl⟩) ?_ ?_
    · refine ⟨hf.lives, fun _ _ _ _ _ => .inr (.inr rfl), hf.info, fun call hcall hnew => ?_,
        fun _ => hf.used (.inl (.inr (.inr (by rw [hstop]; rfl)))), fun hactive => ?_, hf.returned⟩
      · cases hstop.symm.trans (hf.fresh call hcall hnew).2.1
      · cases hstop.symm.trans (hf.apart hactive)
    · refine h.awaited.patches h.op_next ?_ hended (op_callsIndex s _) hsets.waits
      simp [Slot.waits, hstop]
  · exact h

variable {clean : Bool} {ph : Phase (List RecordingRow)} {index : ReplacedFile.State (List RecordingRow) IndexOp Unit} {c : Nat}
  {call : Call IndexOp Unit}

theorem Inv.goesOn (h : Inv init s returned) {next : Phase (List RecordingRow)} (hget : s.index.calls.get c = some (call, ph))
    (hsound : ∃ ended, recordingsIndex.Sound init index ended) (hview : recordingsIndex.view index = recordingsIndex.view s.index)
    (hcalls : ∀ other, index.calls.get other = if other = c then some (call, next) else s.index.calls.get other) :
    Inv init { s with index := index } returned := by
  have hrows : State.rows { s with index := index } = s.rows := by
    unfold State.rows
    rw [hview]
  have hop : State.op { s with index := index } = s.op := by
    funext other
    unfold State.op
    dsimp only
    rw [hcalls]
    split
    · rename_i hid
      rw [hid, hget]
      rfl
    · rfl
  exact ⟨hsound, h.single, fun id => hrows ▸ h.fits id, hop ▸ h.awaited⟩

theorem op_ends {x : State} (hindex : x.index = index)
    (hcalls : ∀ other, index.calls.get other = if other = c then none else s.index.calls.get other) (other : Nat) :
    x.op other = if other = c then none else s.op other := by
  unfold State.op
  rw [hindex, hcalls]
  split <;> rfl

theorem Inv.put_ends (h : Inv init s returned) (hstart : s.starts.get id = some ⟨info, .putting c⟩)
    (hsound : ∃ ended, recordingsIndex.Sound init index ended)
    (hview : recordingsIndex.view index = recordingsIndex.serial (recordingsIndex.view s.index) ⟨.put info, ()⟩)
    (hcalls : ∀ other, index.calls.get other = if other = c then none else s.index.calls.get other)
    (hkept : (s.active.get id).isSome ∨ (s.stops.get id).isSome) :
    Inv init { s with index := index, starts := s.starts.delete id } (returned ++ [id]) := by
  have hf := h.fits id
  obtain ⟨rfl, -⟩ := hf.info _ hstart
  have hrows : State.rows { s with index := index, starts := s.starts.delete info.id } =
      ((IndexOp.put info).apply s.rows).getD s.rows := rows_ends hview
  change _ = (s.rows.filter fun r => r.id ≠ info.id) ++ [info] at hrows
  have hsets : s.Sets { s with index := index, starts := s.starts.delete info.id } info.id _ := sets_delete s info.id
  refine h.changes hsets hsound (fun row hrow hid => ?_) (fun other hid => by simp [hid])
    (fun r hr => .inl ⟨r, hr, rfl⟩) ?_ ?_
  · rw [hrows] at hrow
    cases mem_append.1 hrow with
    | inl hrow => exact (mem_filter.1 hrow).1
    | inr hthis => exact absurd (congrArg RecordingRow.id (mem_singleton.1 hthis)) hid
  · exact ⟨hf.lives, fun _ _ _ _ _ => .inr hkept, by simp, by simp, fun _ => hf.used (.inl (.inr hkept)), hf.apart, fun _ => rfl⟩
  · have hput : s.op c = some (.put info) := (h.awaited.putting c info).2 (by simp [Slot.waits, State.slot, hstart, State.startCall])
    exact h.awaited.put_ends hput (op_ends rfl hcalls) hsets.waits

variable {changes : RecordingChanges}

theorem open_of_patch {rows : List RecordingRow} (hended : ∃ time, changes.endedAt = some (some time))
    {row : RecordingRow} (hrow : row ∈ ((IndexOp.patch id changes).apply rows).getD rows) :
    (∃ old ∈ rows, old.id = row.id) ∧ (row.endedAt = none → row.id ≠ id) ∧ (row.id ≠ id → row ∈ rows) := by
  obtain ⟨time, htime⟩ := hended
  change row ∈ (Option.map _ _).getD rows at hrow
  cases hfind : rows.find? fun r => r.id = id with
  | none =>
    rw [hfind] at hrow
    refine ⟨⟨row, hrow, rfl⟩, fun _ hid => ?_, fun _ => hrow⟩
    simpa [hid] using List.find?_eq_none.1 hfind row hrow
  | some existing =>
    have hid : existing.id = id := by simpa using List.find?_some hfind
    rw [hfind] at hrow
    obtain ⟨old, hold, rfl⟩ := mem_map.1 hrow
    split
    · refine ⟨⟨existing, mem_of_find?_eq_some hfind, rfl⟩, fun hopen => ?_, fun hne => absurd hid hne⟩
      simp only [RecordingChanges.apply, htime, getD_some] at hopen
      cases hopen
    · rename_i hne
      exact ⟨⟨old, hold, rfl⟩, fun _ => hne, fun _ => hold⟩

theorem Inv.patch_ends (h : Inv init s returned) (hpatch : s.op c = some (.patch id changes))
    (hsound : ∃ ended, recordingsIndex.Sound init index ended)
    (hview : recordingsIndex.view index = recordingsIndex.serial (recordingsIndex.view s.index) ⟨.patch id changes, ()⟩)
    (hcalls : ∀ other, index.calls.get other = if other = c then none else s.index.calls.get other) :
    Inv init { s with index := index, stops := s.stops.delete id } returned := by
  have hended := h.awaited.ends c id changes hpatch
  have hf := h.fits id
  have hrows : State.rows { s with index := index, stops := s.stops.delete id } =
      ((IndexOp.patch id changes).apply s.rows).getD s.rows := rows_ends hview
  have hsets : s.Sets { s with index := index, stops := s.stops.delete id } id { s.slot id with stop := none } := by
    intro other
    unfold State.slot
    split <;> simp_all [get_delete]
  refine h.changes hsets hsound (fun row hrow hid => ?_) (fun _ _ => Iff.rfl) (fun r hr => .inl ⟨r, hr, rfl⟩) ?_ ?_
  · rw [hrows] at hrow
    exact (open_of_patch hended hrow).2.2 hid
  · rw [hrows]
    refine ⟨hf.lives, fun row hrow hid hopen => absurd hid ((open_of_patch hended hrow).2.1 hopen), hf.info,
      fun call hcall hnew => ?_, fun hheld => hf.used (hheld.imp_left fun hheld => ?_), fun _ => rfl, hf.returned⟩
    · obtain ⟨hnone, -, hfile, hno⟩ := hf.fresh call hcall hnew
      refine ⟨hnone, rfl, hfile, fun row hrow hid => ?_⟩
      obtain ⟨old, hold, hsame⟩ := (open_of_patch hended hrow).1
      exact hno old hold (hsame.trans hid)
    · exact hheld.imp_right fun hrest => hrest.imp_right fun hnone => by cases hnone
  · exact h.awaited.patch_ends hpatch (op_ends rfl hcalls) hsets.waits

theorem call_of_op {op : IndexOp} (h : s.op c = some op) : ∃ ph, s.index.calls.get c = some (⟨op, ()⟩, ph) := by
  obtain ⟨⟨⟨found, call⟩, ph⟩, hget, rfl⟩ := map_eq_some_iff.1 h
  exact ⟨ph, hget⟩

theorem Inv.startIndex (h : Inv init s returned) (hmeets : Meets s (.startIndex id clean)) :
    ((s.startIndex id clean).2 = [] ∧ Inv init (s.startIndex id clean).1 returned) ∨
      ((s.startIndex id clean).2 = [.started id] ∧ Inv init (s.startIndex id clean).1 (returned ++ [id])) := by
  unfold State.startIndex
  cases hstart : s.starts.get id with
  | none => exact .inl ⟨rfl, h⟩
  | some call =>
    obtain ⟨info, stage⟩ := call
    dsimp only
    cases hcall : State.startCall stage with
    | none => exact .inl ⟨rfl, h⟩
    | some c =>
      obtain ⟨hid, hfailing⟩ := (h.fits id).info _ hstart
      obtain rfl : stage = .putting c := by
        cases stage with
        | putting call => exact congrArg StartStage.putting (Option.some.inj hcall)
        | removing call => cases hfailing
        | _ => cases hcall
      obtain ⟨hone, hkept⟩ := hmeets _ c hstart hcall
      have hput : s.op c = some (.put info) := (h.awaited.putting c info).2 (by
        rw [show info.id = id from hid]
        simp [Slot.waits, State.slot, hstart, State.startCall])
      obtain ⟨ph, hget⟩ := call_of_op hput
      obtain ⟨ended, hsound⟩ := h.sound
      have hmoved := hsound.goesOn absent_ne hget hone
      have hnext := Exists.intro _ (hsound.step (.goesOn c clean) hone).sound
      have hputs := replacing_of_put hget hone
      dsimp only
      cases hmoved with
      | goesOn next hout hview hcalls =>
        rw [hout]
        exact .inl ⟨rfl, h.goesOn hget hnext hview hcalls⟩
      | ends value wrote hout hview hcalls =>
        have hactive := hkept (hputs (by rw [hout]; exact cons_ne_nil _ _))
        rw [hout]
        refine .inr ⟨rfl, ?_⟩
        exact (h.put_ends hstart hnext hview hcalls hactive).modify (fun _ => rfl) fun _ hlives => hlives

theorem Inv.stopIndex (h : Inv init s returned) (hmeets : Meets s (.stopIndex id clean)) :
    Inv init (s.stopIndex id clean).1 returned ∧ ((s.stopIndex id clean).2 = [] ∨ (s.stopIndex id clean).2 = [.stopped id]) := by
  unfold State.stopIndex
  split
  · rename_i c hstop
    have hone := hmeets c hstop
    obtain ⟨changes, hpatch⟩ := (h.awaited.patching c id).2 (by simp [Slot.waits, State.slot, hstop])
    obtain ⟨ph, hget⟩ := call_of_op hpatch
    obtain ⟨ended, hsound⟩ := h.sound
    have hmoved := hsound.goesOn absent_ne hget hone
    have hnext := Exists.intro _ (hsound.step (.goesOn c clean) hone).sound
    dsimp only
    cases hmoved with
    | goesOn next hout hview hcalls =>
      rw [hout]
      exact ⟨h.goesOn hget hnext hview hcalls, .inl rfl⟩
    | ends value wrote hout hview hcalls =>
      rw [hout]
      exact ⟨h.patch_ends hpatch hnext hview hcalls, .inr rfl⟩
  · exact ⟨h, .inl rfl⟩

theorem Inv.goOn (h : Inv init s returned) {ok spawned : Bool} (hget : s.starts.get info.id = some ⟨info, stage⟩)
    (hmeets : Meets s (.goOn info.id ok spawned)) :
    (s.goOn info ok spawned stage).2 = [] ∧ Inv init (s.goOn info ok spawned stage).1 returned ∨
      s.goOn info ok spawned stage = s.throws info.id ∧ early stage = true := by
  have hmeets := hmeets _ hget
  have hfailing := ((h.fits info.id).info _ hget).2
  cases stage with
  | found =>
    simp only [State.goOn]
    split
    · exact .inl ⟨rfl, h.setStage hget rfl rfl rfl fun _ => rfl⟩
    · exact .inr ⟨rfl, rfl⟩
  | size => exact .inl ⟨rfl, h.setStage hget rfl rfl rfl fun _ => rfl⟩
  | dir =>
    simp only [State.goOn]
    split
    · exact .inl ⟨rfl, h.setStage hget rfl rfl rfl fun _ => rfl⟩
    · exact .inr ⟨rfl, rfl⟩
  | writer =>
    simp only [State.goOn]
    split
    · rename_i hok
      have hstops := ((h.fits info.id).fresh _ hget rfl).2.1
      have hlate : early (State.firstStage info.target) = false ∧ State.startCall (State.firstStage info.target) = none ∧
          failing (State.firstStage info.target) = false := by
        cases info.target with
        | session _ | pane _ _ => exact ⟨rfl, rfl, rfl⟩
      have hnext := h.setStage hget rfl hlate.2.1 hlate.2.2 fun _ => rfl
      have hstage : (s.setStage info (State.firstStage info.target)).starts.get info.id = some ⟨info, _⟩ :=
        (get_set _ _ _ _).trans (if_pos rfl)
      exact .inl ⟨rfl, hnext.publishes hstage hlate.1 (hmeets hok) hstops⟩
    · exact .inr ⟨rfl, rfl⟩
  | clone =>
    have hok : ok = true ∧ spawned = true := hmeets
    simp only [State.goOn, hok.1, hok.2, Bool.not_true, Bool.false_eq_true, if_false, if_true]
    have hsource : Inv init (s.setSource info.id (.pty false)) returned := h.setSource Source.noConfusion
    exact .inl ⟨rfl, hsource.puts hget rfl⟩
  | piped | mkfifo =>
    have hok : ok = true := hmeets
    simp only [State.goOn, hok, if_true]
    exact .inl ⟨trivial, h.setStage hget rfl rfl rfl fun hno => (by cases hno)⟩
  | screen =>
    have hsource : Inv init (s.setSource info.id .fifo) returned := h.setSource Source.noConfusion
    exact .inl ⟨rfl, hsource.setStage hget rfl rfl rfl fun hno => (by cases hno)⟩
  | pipePane =>
    have hok : ok = true := hmeets
    simp only [State.goOn, hok, if_true]
    exact .inl ⟨rfl, h.puts hget rfl⟩
  | undone | closing | removing _ => cases hfailing
  | putting call => exact .inl ⟨rfl, h⟩

end Steps

/-! ### Runs -/

def started (o : Verdict) : Option String :=
  match o with
  | .started id => some id
  | _ => none

theorem Inv.step {init : Option (List RecordingRow)} {s : State} {returned : List String} (h : Inv init s returned) {e : Event}
    (hmeets : Meets s e) : Inv init (s.step e).1 (returned ++ (s.step e).2.filterMap started) ∧
      ∀ id, .threw id ∈ (s.step e).2 → ∃ call, s.starts.get id = some call ∧ early call.stage = true ∧
        (s.step e).1.active = s.active ∧ (s.step e).1.files = s.files ∧ (s.step e).1.index = s.index := by
  have hquiet {t : State} (ht : Inv init t returned) : Inv init (t, ([] : List Verdict)).1 (returned ++ List.filterMap started []) ∧
      ∀ id, .threw id ∈ ([] : List Verdict) → ∃ call, s.starts.get id = some call ∧ early call.stage = true ∧
        t.active = s.active ∧ t.files = s.files ∧ t.index = s.index := by
    refine ⟨?_, fun id hid => (by cases hid)⟩
    rw [filterMap_nil, append_nil]
    exact ht
  cases e with
  | start id filename target title cols rows startedAt =>
    simp only [State.step]
    split
    · exact hquiet h
    · rename_i hfree
      simp only [not_or, not_exists, not_and] at hfree
      unfold State.start
      split
      · refine ⟨?_, fun other hother => (by simp at hother)⟩
        rw [filterMap_cons_none rfl, filterMap_nil, append_nil]
        exact h
      · exact hquiet (h.starts hfree.1 hfree.2)
  | goOn id ok spawned =>
    simp only [State.step]
    cases hget : s.starts.get id with
    | none => exact hquiet h
    | some call =>
      obtain ⟨info, stage⟩ := call
      obtain ⟨hid, -⟩ := (h.fits id).info _ hget
      dsimp only at hid ⊢
      subst hid
      cases h.goOn hget hmeets with
      | inl hgoes =>
        rw [hgoes.1]
        exact hquiet hgoes.2
      | inr hthrows =>
        rw [hthrows.1]
        refine ⟨?_, fun other hother => ?_⟩
        · change Inv init _ (returned ++ [])
          rw [append_nil]
          exact h.throws hget hthrows.2
        · cases mem_singleton.1 hother
          exact ⟨_, hget, hthrows.2, rfl, rfl, rfl⟩
  | startIndex id clean =>
    simp only [State.step]
    cases h.startIndex hmeets with
    | inl hgoes =>
      rw [hgoes.1]
      exact hquiet hgoes.2
    | inr hends =>
      rw [hends.1]
      refine ⟨hends.2, fun other hother => (by simp at hother)⟩
  | startIndexFails id =>
    simp only [State.step, State.startIndexFails]
    cases hget : s.starts.get id with
    | none => exact hquiet h
    | some call =>
      dsimp only
      rw [hmeets call hget]
      exact hquiet h
  | stop id => exact hquiet (h.stop id)
  | closed id endedAt bytes events stopReason => exact hquiet (h.closed id ⟨endedAt, rfl⟩)
  | stopIndex id clean =>
    obtain ⟨hnext, hout⟩ := h.stopIndex hmeets
    simp only [State.step]
    cases hout with
    | inl hnone =>
      rw [hnone]
      exact hquiet hnext
    | inr hstopped =>
      rw [hstopped]
      refine ⟨?_, fun other hother => (by simp at hother)⟩
      change Inv init _ (returned ++ [])
      rw [append_nil]
      exact hnext
  | ready id =>
    simp only [State.step, State.ready]
    split
    · exact hquiet (h.setSource Source.noConfusion)
    · exact hquiet h
  | data id limit => exact hquiet (h.data id limit)
  | exit id => exact hquiet (h.exit hmeets)
  | fifoError id => exact hquiet (h.fifoError id)
  | poll id limit =>
    simp only [State.step, State.poll]
    split
    · exact hquiet (h.stop id)
    · exact hquiet h

section Runs
variable {content : Content (List RecordingRow)} {es : List Event}

/-- The steps of a run all meet what the recorder relies on. -/
def MeetsAll (content : Content (List RecordingRow)) (es : List Event) : Prop :=
  ∀ x ∈ (recorder content).trace es, Meets x.pre x.event

theorem inv_start (content : Content (List RecordingRow)) : Inv (recordingsIndex.view (.start content :
    ReplacedFile.State (List RecordingRow) IndexOp Unit)) (recorder content).init [] where
  sound := ⟨[], recordingsIndex.sound_start content⟩
  single _ _ _ _ hr := by cases hr
  fits id := by constructor <;> simp [State.slot, recorder, Slot.Held, get_empty]
  awaited := by constructor <;> simp [State.slot, State.op, recorder, Slot.waits, get_empty, ReplacedFile.State.start]

theorem inv_run (h : MeetsAll content es) : Inv (recordingsIndex.view (.start content :
    ReplacedFile.State (List RecordingRow) IndexOp Unit)) ((recorder content).run es)
      (((recorder content).outputs es).filterMap started) := by
  refine trace_invariant _ (fun s outs => Inv _ s (outs.filterMap started)) (inv_start content) ?_ h
  intro es e hinv hmeets
  rw [filterMap_append]
  exact (hinv.step hmeets).1

end Runs

/-- The recorder keeps its promises in every run whose steps meet what it relies on. -/
theorem lifecycle_kept (content : Content (List RecordingRow)) (es : List Event) (hmeets : MeetsAll content es) :
    Lifecycle content es where
  single before after hes := (inv_run (forall_trace_before hmeets hes)).single
  rows before after hes row hrow hopen hstarted := by
    have hinv := inv_run (forall_trace_before hmeets hes)
    have hreturned : row.id ∈ ((recorder content).outputs before).filterMap started := mem_filterMap.2 ⟨_, hstarted, rfl⟩
    have hf := hinv.fits row.id
    refine (hf.opened row hrow rfl hopen (hf.used (.inr (.inr hreturned)))).resolve_left ?_
    rw [hf.returned hreturned]
    exact Bool.false_ne_true
  sources before after hes id := ((inv_run (forall_trace_before hmeets hes)).fits id).lives
  thrown x hx id hthrew := by
    have hmeets_x := hmeets x hx
    obtain ⟨before, e, after, hes, rfl⟩ := ((recorder content).mem_trace es x).1 hx
    have hinv := inv_run (forall_trace_before hmeets hes)
    obtain ⟨call, hget, hearly, hactive, hfiles, hindex⟩ := (hinv.step (e := e) hmeets_x).2 id hthrew
    obtain ⟨hgone, -, hfile, hrows⟩ := (hinv.fits id).fresh call hget hearly
    have hfile : id ∉ ((recorder content).run before).files := hfile
    refine ⟨hactive ▸ hgone, fun row hrow => hrows row ?_, fun hmem => hfile (hfiles ▸ hmem)⟩
    unfold State.rows at hrow
    change row ∈ (recordingsIndex.view ((State.step _ e).1.index)).getD [] at hrow
    rw [hindex] at hrow
    exact hrow

def wholeRun : List Event :=
  .start "rec_a" "a.cast" (.session "work") "work" 80 24 1000 :: (List.replicate 5 (.goOn "rec_a" true true) ++
    (List.replicate 5 (.startIndex "rec_a" true) ++ ([.data "rec_a" false, .exit "rec_a", .closed "rec_a" 2000 90 4 .ended] ++
      List.replicate 5 (.stopIndex "rec_a" true))))

theorem lifecycle_kept_whole : Lifecycle .empty wholeRun := by
  have hcheck : ((recorder .empty).trace wholeRun).all (fun x => meets x.pre x.event) = true := by decide +kernel
  exact lifecycle_kept .empty wholeRun fun x hx => of_meets (all_eq_true.1 hcheck x hx)

/-- Two starts of one session both look at the table before either is in it. -/
def twoStarts : List Event :=
  [.start "rec_a" "a.cast" (.session "work") "work" 80 24 1000, .start "rec_b" "b.cast" (.session "work") "work" 80 24 1000] ++
    (List.replicate 4 (.goOn "rec_a" true true) ++ List.replicate 4 (.goOn "rec_b" true true))

/-- A pane that already has a pipe is not recorded. -/
def failedStart : List Event :=
  .start "rec_a" "a.cast" (.pane "work" "%1") "work" 80 24 1000 :: (List.replicate 4 (.goOn "rec_a" true true) ++
    [.goOn "rec_a" false true, .goOn "rec_a" true true])

/-- One session is recorded twice, and the file of a recording that did not start is left. -/
theorem not_lifecycle_kept :
    ¬ Lifecycle .empty twoStarts ∧ ¬ Lifecycle .empty (failedStart ++ [.startIndex "rec_a" true]) := by
  constructor
  · intro h
    have hfirst : ((recorder .empty).run twoStarts).active.get "rec_a" =
        some ⟨startedRecording "rec_a" "a.cast" (.session "work") "work" 80 24 1000, .none, false⟩ := by decide +kernel
    have hsecond : ((recorder .empty).run twoStarts).active.get "rec_b" =
        some ⟨startedRecording "rec_b" "b.cast" (.session "work") "work" 80 24 1000, .none, false⟩ := by decide +kernel
    have hsame := h.single twoStarts [] (append_nil _).symm _ _ _ _ hfirst hsecond (by decide)
    exact absurd hsame (by decide)
  · intro h
    have hthrew : .threw "rec_a" ∈ (((recorder .empty).run failedStart).step (.startIndex "rec_a" true)).2 := by decide +kernel
    have hx := ((recorder .empty).mem_trace _ _).2 ⟨failedStart, .startIndex "rec_a" true, [], rfl, rfl⟩
    obtain ⟨-, -, hfile⟩ := h.thrown _ hx "rec_a" hthrew
    have hleft : "rec_a" ∈ (((recorder .empty).run failedStart).step (.startIndex "rec_a" true)).1.files := by decide +kernel
    exact hfile hleft

end Mtmux.Relay.RecorderRuns
