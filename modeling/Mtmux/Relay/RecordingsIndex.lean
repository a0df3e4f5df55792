import Mtmux.Cli.StoreUpdates
import Mtmux.Protocol.Messages

/-! The index of the recordings: one file, which every call reads and replaces as a whole. -/
namespace Mtmux.Relay
open Protocol ReplacedFile Cli Program List

/-- A row of the index. -/
structure RecordingRow where
  id : String
  filename : String
  target : RecordingTarget
  title : String
  cols : Nat
  rows : Nat
  startedAt : Nat
  endedAt : Option Nat
  bytes : Nat
  events : Nat
  truncated : Bool
  stopReason : Option RecordingStopReason
  deriving DecidableEq

/-- `Partial<RecordingInfo>`: the fields a patch gives. -/
structure RecordingChanges where
  id : Option String
  filename : Option String
  target : Option RecordingTarget
  title : Option String
  cols : Option Nat
  rows : Option Nat
  startedAt : Option Nat
  endedAt : Option (Option Nat)
  bytes : Option Nat
  events : Option Nat
  truncated : Option Bool
  stopReason : Option (Option RecordingStopReason)
  deriving DecidableEq

def RecordingChanges.apply (changes : RecordingChanges) (existing : RecordingRow) : RecordingRow where
  id := existing.id
  filename := changes.filename.getD existing.filename
  target := changes.target.getD existing.target
  title := changes.title.getD existing.title
  cols := changes.cols.getD existing.cols
  rows := changes.rows.getD existing.rows
  startedAt := changes.startedAt.getD existing.startedAt
  endedAt := changes.endedAt.getD existing.endedAt
  bytes := changes.bytes.getD existing.bytes
  events := changes.events.getD existing.events
  truncated := changes.truncated.getD existing.truncated
  stopReason := changes.stopReason.getD existing.stopReason

def stopped (endedAt bytes events : Nat) (stopReason : RecordingStopReason) : RecordingChanges :=
  ⟨none, none, none, none, none, none, none, some (some endedAt), some bytes, some events, none, some (some stopReason)⟩

def startedRecording (id filename : String) (target : RecordingTarget) (title : String) (cols rows startedAt : Nat) :
    RecordingRow :=
  ⟨id, filename, target, title, cols, rows, startedAt, none, 0, 0, false, none⟩

inductive IndexOp where
  | put (recording : RecordingRow)
  | patch (id : String) (changes : RecordingChanges)
  | remove (id : String)
  deriving DecidableEq

namespace IndexOp

def id : IndexOp → String
  | .put recording => recording.id
  | .patch id _ | .remove id => id

/-- What a call makes of the rows it has loaded; `none` writes nothing. -/
def apply (rows : List RecordingRow) : IndexOp → Option (List RecordingRow)
  | .put recording => some ((rows.filter fun r => r.id ≠ recording.id) ++ [recording])
  | .patch id changes => (rows.find? fun r => r.id = id).map fun existing =>
      rows.map fun r => if r.id = id then changes.apply existing else r
  | .remove id => (rows.find? fun r => r.id = id).map fun _ => rows.filter fun r => r.id ≠ id

end IndexOp

/-- An index that cannot be read is empty. -/
def recordingsIndex : Program (List RecordingRow) IndexOp Unit where
  absent := some []
  make _ _ := []
  apply op rows := op.apply rows

structure IndexKept (content : Content (List RecordingRow)) (es : List (Event IndexOp Unit)) : Prop where
  serial : InSomeOrder recordingsIndex content es
  stays : ∀ first id call value wrote out,
    (recordingsIndex.machine content).outputs es = first ++ .ended id call value wrote :: out →
      (∀ later ∈ Program.endedIn out, later.op.id ≠ call.op.id) →
        ∃ rows, recordingsIndex.view ((recordingsIndex.machine content).run es) = some rows ∧
          match call.op with
          | .put recording => recording ∈ rows
          | .patch id changes => wrote = true → ∃ existing, existing.id = id ∧ changes.apply existing ∈ rows
          | .remove id => ∀ row ∈ rows, row.id ≠ id
  present : ∀ first id recording value wrote out,
    (recordingsIndex.machine content).outputs es = first ++ .ended id ⟨.put recording, ()⟩ value wrote :: out →
      (∀ later ∈ Program.endedIn out, later.op ≠ .remove recording.id) →
        ∃ rows, recordingsIndex.view ((recordingsIndex.machine content).run es) = some rows ∧
          ∃ row ∈ rows, row.id = recording.id
  absent : ∀ first id recording value wrote out,
    (recordingsIndex.machine content).outputs es = first ++ .ended id ⟨.remove recording, ()⟩ value wrote :: out →
      (∀ later ∈ Program.endedIn out, ∀ row, later.op = .put row → row.id ≠ recording) →
        ∃ rows, recordingsIndex.view ((recordingsIndex.machine content).run es) = some rows ∧
          ∀ row ∈ rows, row.id ≠ recording
  complete : ∀ before after, es = before ++ after →
    ((recordingsIndex.machine content).run before).contents ((recordingsIndex.machine content).run before).file = content ∨
      ∃ rows, ((recordingsIndex.machine content).run before).contents
        ((recordingsIndex.machine content).run before).file = .whole rows

section Rows
variable {rows written : List RecordingRow} {op : IndexOp}

theorem apply_other (h : op.apply rows = some written) {row : RecordingRow} (hother : row.id ≠ op.id) :
    row ∈ written ↔ row ∈ rows := by
  cases op with
  | put recording =>
    cases h
    rw [mem_append, mem_filter, mem_singleton]
    constructor
    · rintro (⟨hrow, -⟩ | rfl)
      · exact hrow
      · exact absurd rfl hother
    · exact fun hrow => .inl ⟨hrow, by simpa [IndexOp.id] using hother⟩
  | patch id changes =>
    obtain ⟨existing, hexisting, rfl⟩ := Option.map_eq_some_iff.1 h
    have hid : existing.id = id := by simpa using List.find?_some hexisting
    rw [mem_map]
    constructor
    · rintro ⟨old, hold, rfl⟩
      split at hother
      · exact absurd hid hother
      · rename_i hne
        rwa [if_neg hne]
    · exact fun hrow => ⟨row, hrow, if_neg hother⟩
  | remove id =>
    obtain ⟨existing, -, rfl⟩ := Option.map_eq_some_iff.1 h
    rw [mem_filter]
    exact and_iff_left (by simpa [IndexOp.id] using hother)

theorem apply_present (h : op.apply rows = some written) {id : String} (hop : op ≠ .remove id)
    (hrow : ∃ row ∈ rows, row.id = id) : ∃ row ∈ written, row.id = id := by
  obtain ⟨row, hrow, rfl⟩ := hrow
  by_cases hother : row.id = op.id
  · cases op with
    | put recording =>
      cases h
      exact ⟨recording, by simp, hother.symm⟩
    | patch id changes =>
      obtain ⟨existing, hexisting, rfl⟩ := Option.map_eq_some_iff.1 h
      have hid : existing.id = id := by simpa using List.find?_some hexisting
      exact ⟨changes.apply existing, mem_map.2 ⟨row, hrow, if_pos hother⟩, hid.trans hother.symm⟩
    | remove id => exact absurd (congrArg IndexOp.remove hother.symm) hop
  · exact ⟨row, (apply_other h hother).2 hrow, rfl⟩

theorem apply_absent (h : op.apply rows = some written) {id : String} (hop : ∀ row, op = .put row → row.id ≠ id)
    (hgone : ∀ row ∈ rows, row.id ≠ id) : ∀ row ∈ written, row.id ≠ id := by
  intro row hrow hid
  by_cases hother : row.id = op.id
  · cases op with
    | put recording => exact hop recording rfl (hother.symm.trans hid)
    | patch other changes =>
      obtain ⟨existing, hexisting, -⟩ := Option.map_eq_some_iff.1 h
      have hfound : existing.id = other := by simpa using List.find?_some hexisting
      exact hgone existing (mem_of_find?_eq_some hexisting) ((hfound.trans hother.symm).trans hid)
    | remove other =>
      obtain ⟨existing, hexisting, -⟩ := Option.map_eq_some_iff.1 h
      have hfound : existing.id = other := by simpa using List.find?_some hexisting
      exact hgone existing (mem_of_find?_eq_some hexisting) ((hfound.trans hother.symm).trans hid)
  · exact hgone row ((apply_other h hother).1 hrow) hid

theorem remove_removes (rows : List RecordingRow) (id : String) :
    ∀ row ∈ ((IndexOp.remove id).apply rows).getD rows, row.id ≠ id := by
  change ∀ row ∈ (Option.map _ _).getD rows, _
  cases hfind : rows.find? fun r => r.id = id with
  | none => exact fun row hrow hid => by simpa [hid] using List.find?_eq_none.1 hfind row hrow
  | some existing =>
    intro row hrow
    simpa using (mem_filter.1 hrow).2

end Rows

section Kept
variable {content : Content (List RecordingRow)} {es : List (Event IndexOp Unit)}

variable {first out : List (Output (List RecordingRow) IndexOp Unit)} {value : List RecordingRow}

theorem kept_stays (hone : GoOneAfterAnother recordingsIndex content es) {id : Nat} {call : Call IndexOp Unit}
    {wrote : Bool} (hout : (recordingsIndex.machine content).outputs es = first ++ .ended id call value wrote :: out)
    (hlater : ∀ later ∈ Program.endedIn out, later.op.id ≠ call.op.id) :
    ∃ rows, recordingsIndex.view ((recordingsIndex.machine content).run es) = some rows ∧
      ∀ row, row.id = call.op.id → (row ∈ rows ↔ row ∈ value) := by
  refine kept_run hone hout (Q := fun rows => ∀ row, row.id = call.op.id → (row ∈ rows ↔ row ∈ value))
    (fun _ _ => Iff.rfl) ?_
  intro later hmem c c' hkept happly row hid
  have hother : row.id ≠ later.op.id := fun hsame => hlater later hmem (hsame.symm.trans hid)
  exact (apply_other happly hother).trans (hkept row hid)

theorem value_put {id : Nat} {recording : RecordingRow}
    (hone : GoOneAfterAnother recordingsIndex content es) {wrote : Bool}
    (hout : (recordingsIndex.machine content).outputs es = first ++ .ended id ⟨.put recording, ()⟩ value wrote :: out) :
    recording ∈ value := by
  obtain ⟨rows, rfl⟩ := value_cases hone hout
  exact mem_append_right _ (mem_singleton_self recording)

theorem value_patch {id : Nat} {recording : String} {changes : RecordingChanges}
    (hout : (recordingsIndex.machine content).outputs es =
      first ++ .ended id ⟨.patch recording changes, ()⟩ value true :: out) :
    ∃ existing, existing.id = recording ∧ changes.apply existing ∈ value := by
  have hended : .ended id ⟨.patch recording changes, ()⟩ value true ∈ (recordingsIndex.machine content).outputs es := by
    rw [hout]
    exact mem_append_right _ mem_cons_self
  obtain ⟨rows, happly⟩ := (written_run recordingsIndex content es).2 _ _ _ hended
  obtain ⟨existing, hfind, rfl⟩ := Option.map_eq_some_iff.1 happly
  have hid : existing.id = recording := by simpa using List.find?_some hfind
  exact ⟨existing, hid, mem_map.2 ⟨existing, mem_of_find?_eq_some hfind, if_pos hid⟩⟩

end Kept

/-- Where the calls go one after another as far as the file is concerned, no update of the index is lost. -/
theorem index_loses_nothing (content : Content (List RecordingRow)) (es : List (Event IndexOp Unit))
    (hone : GoOneAfterAnother recordingsIndex content es) : IndexKept content es where
  serial := serial_run hone
  stays first id call value wrote out hout hlater := by
    obtain ⟨rows, hview, hrows⟩ := kept_stays hone hout hlater
    refine ⟨rows, hview, ?_⟩
    obtain ⟨op, fresh⟩ := call
    cases op with
    | put recording => exact (hrows recording rfl).2 (value_put hone hout)
    | patch recording changes =>
      intro hwrote
      subst hwrote
      obtain ⟨existing, hid, hpatched⟩ := value_patch hout
      exact ⟨existing, hid, (hrows (changes.apply existing) hid).2 hpatched⟩
    | remove recording =>
      intro row hrow hid
      obtain ⟨before, rfl⟩ := value_cases hone hout
      exact remove_removes before recording row ((hrows row hid).1 hrow) hid
  present first id recording value wrote out hout hlater := by
    refine kept_run hone hout (Q := fun rows => ∃ row ∈ rows, row.id = recording.id)
      ⟨recording, value_put hone hout, rfl⟩ ?_
    exact fun later hmem c c' hthere happly => apply_present happly (hlater later hmem) hthere
  absent first id recording value wrote out hout hlater := by
    refine kept_run hone hout (Q := fun rows => ∀ row ∈ rows, row.id ≠ recording) ?_ ?_
    · obtain ⟨before, rfl⟩ := value_cases hone hout
      exact remove_removes before recording
    · exact fun later hmem c c' hgone happly => apply_absent happly (hlater later hmem) hgone
  complete before after hes := by
    exact whole_run (Machine.forall_trace_before hone hes)

def runningRow (id : String) : RecordingRow := startedRecording id (id ++ ".cast") (.session "work") "work" 80 24 1000

/-- A recording is put, stopped, and removed; each call begins before the one ahead of it has ended. -/
def putAndRemoved : List (Event IndexOp Unit) :=
  [.begins ⟨.put (runningRow "rec_a"), ()⟩, .begins ⟨.put (runningRow "rec_b"), ()⟩] ++
    List.replicate 4 (.goesOn 0 true) ++ [.begins ⟨.patch "rec_a" (stopped 2000 90 4 .ended), ()⟩, .goesOn 0 true] ++
    List.replicate 5 (.goesOn 1 true) ++ [.begins ⟨.remove "rec_a", ()⟩] ++ List.replicate 5 (.goesOn 2 true) ++
    List.replicate 5 (.goesOn 3 true)

theorem index_loses_nothing_removed : IndexKept .empty putAndRemoved := by
  refine index_loses_nothing _ _ ?_
  have hcheck : (((recordingsIndex.machine .empty).trace putAndRemoved).all fun x =>
      recordingsIndex.oneAfterAnother x.pre x.event) = true := by decide +kernel
  exact fun x hx => of_oneAfterAnother (all_eq_true.1 hcheck x hx)

/-- Two recordings are stopped at once: both calls load the index before either writes it. -/
def stoppedAtOnce : List (Event IndexOp Unit) :=
  [.begins ⟨.patch "rec_a" (stopped 2000 90 4 .ended), ()⟩, .begins ⟨.patch "rec_b" (stopped 2000 70 3 .ended), ()⟩, .goesOn 0 true,
    .goesOn 1 true] ++ List.replicate 4 (.goesOn 0 true) ++ List.replicate 4 (.goesOn 1 true)

def twoRunning : List RecordingRow := [runningRow "rec_a", runningRow "rec_b"]

/-- The first one is running again, as far as the index goes. -/
theorem stop_lost : ¬ IndexKept (.whole twoRunning) stoppedAtOnce := by
  intro h
  let row (id : String) (changes : RecordingChanges) := changes.apply (runningRow id)
  have hout : (recordingsIndex.machine (.whole twoRunning)).outputs stoppedAtOnce =
      [] ++ .ended 0 ⟨.patch "rec_a" (stopped 2000 90 4 .ended), ()⟩ [row "rec_a" (stopped 2000 90 4 .ended), runningRow "rec_b"] true ::
        [.ended 1 ⟨.patch "rec_b" (stopped 2000 70 3 .ended), ()⟩ [runningRow "rec_a", row "rec_b" (stopped 2000 70 3 .ended)] true] := by
    decide +kernel
  have hview : recordingsIndex.view ((recordingsIndex.machine (.whole twoRunning)).run stoppedAtOnce) =
      some [runningRow "rec_a", row "rec_b" (stopped 2000 70 3 .ended)] := by decide +kernel
  obtain ⟨rows, hrows, hpatched⟩ := h.stays _ _ _ _ _ _ hout (by decide)
  rw [hview] at hrows
  cases hrows
  obtain ⟨existing, -, hmem⟩ := hpatched rfl
  have hended : ∀ r ∈ [runningRow "rec_a", row "rec_b" (stopped 2000 70 3 .ended)], r.endedAt = some 2000 → r.bytes = 70 := by decide
  have hbytes : 90 = 70 := hended _ hmem rfl
  exact absurd hbytes (by decide)

end Mtmux.Relay
