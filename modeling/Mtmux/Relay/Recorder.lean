import Mtmux.Base.Text
import Mtmux.Relay.TmuxManager

/-! Recordings: each has its own pty on its own clone, or its own pipe on a pane. -/
namespace Mtmux.Relay
open Protocol

def recordingError {α : Type} (code message : String) : Io α := Async.throw ⟨some code, message⟩

def shellSafe (path : String) : Bool :=
  path ≠ "" && path.toList.all fun c =>
    c.isAlphanum || c = '.' || c = '_' || c = '/' || c = '-'

/-- The session's current size, so a recorder never resizes what it records. -/
def sessionSize (session : String) : Io TerminalSize :=
  Async.catching
    (do
      let windows ← listWindows session
      match (windows.find? WindowInfo.active).bind WindowInfo.dimensions with
      | some size => return size
      | none => return (windows.head?.bind WindowInfo.dimensions).getD ⟨80, 24⟩)
    fun _ => return ⟨80, 24⟩

def sameTarget : RecordingTarget → RecordingTarget → Bool
  | .session session, .session session' => session = session'
  | .pane _ paneId, .pane _ paneId' => paneId = paneId'
  | _, _ => false

namespace Recorder

def activeFor (active : List ActiveRecording) (target : RecordingTarget) : Option RecordingInfo :=
  (active.find? fun r => sameTarget r.info.target target).map ActiveRecording.info

def find (s : RelayState) (id : String) : Option ActiveRecording :=
  s.active.find? fun r => r.info.id = id

def change (grant : GrantRecord) (id : String) (f : ActiveRecording → ActiveRecording) : Io Unit :=
  Async.modify fun s =>
    { s with
      active := s.active.map fun r => if r.info.id = id ∧ r.grant = grant then f r else r }

def forget (id : String) : Io Unit :=
  Async.modify fun s => { s with active := s.active.filter fun r => r.info.id ≠ id }

def startSessionCapture (grant : GrantRecord) (id session : String) (size : TerminalSize) :
    Io Unit := do
  let cloneName ← createRecordingClone session id
  change grant id fun r => { r with capture := .session (some cloneName) none }
  let s ← Async.get
  match s.host.spawnFailure s.nextBridge with
  | some message =>
    Async.modify fun s => { s with nextBridge := s.nextBridge + 1 }
    destroyClone cloneName
    recordingError "RECORDER_FAILED"
      (if message = "" then "Could not attach a recorder." else message)
  | none =>
    Async.modify fun s =>
      { s with
        bridges := s.bridges.set s.nextBridge ⟨.recorder id, false, false, false⟩
        nextBridge := s.nextBridge + 1 }
    change grant id fun r => { r with capture := .session (some cloneName) (some s.nextBridge) }
    Async.say (.spawn (.attach grant cloneName (some size) true))

/-- `pipe-pane` into a named pipe, with the pane's current screen as the first frame. -/
def startPaneCapture (grant : GrantRecord) (id paneId filename : String) : Io Unit := do
  if ← Io.tmux (.on (.pane paneId) .panePipe) then
    recordingError "PANE_ALREADY_PIPED" "That pane already has a pipe running."
  else
    let s ← Async.get
    let fifoPath := s.host.recordingPath (filename ++ ".pipe")
    if shellSafe fifoPath then
      Async.catching (Io.recording (.mkfifo fifoPath)) fun e =>
        recordingError "MKFIFO_UNAVAILABLE" ("Could not create the pipe this needs (" ++ e.message ++
          "). Recording a whole session does not use one.")
      change grant id fun r => { r with capture := .pane paneId (some fifoPath) }
      let _ ← Async.catching (capturePaneById paneId) fun _ => return ""
      Async.catching (Io.tmux (.on (.pane paneId) (.pipePane (some fifoPath)))) fun e => do
        Async.catching (Io.recording (.unlink fifoPath)) fun _ => return
        Async.throw e
    else recordingError "UNSAFE_PATH" "Refusing to build a shell command from this path."

def capture (grant : GrantRecord) (id filename : String) (size : TerminalSize) :
    RecordingTarget → Io Unit
  | .session session => startSessionCapture grant id session size
  | .pane _ paneId => startPaneCapture grant id paneId filename

def fresh (grant : GrantRecord) (info : RecordingInfo) : ActiveRecording where
  info := info
  grant := grant
  capture := match info.target with
    | .session _ => .session none none
    | .pane _ paneId => .pane paneId none
  polling := false

/-- What is kept of a recording that could not be started: nothing. -/
def abandon {α : Type} (id : String) (e : Failure) : Io α := do
  forget id
  let _ ← Io.recording (.stopWriter id .error)
  Async.catching (Io.recording (.remove id)) fun _ => return
  Async.throw e

def start (grant : GrantRecord) (target : RecordingTarget) (title : Option String) :
    Io RecordingInfo := do
  let s ← Async.get
  match activeFor s.active target with
  | some _ => recordingError "ALREADY_RECORDING" "That is already being recorded."
  | none =>
    if ← sessionExists target.sessionName then
      let s ← Async.get
      let id := s.host.recordingId s.drawn
      Async.modify fun s => { s with drawn := s.drawn + 1 }
      let filename := s.host.recordingFilename id target.sessionName
      let size ← sessionSize target.sessionName
      Io.recording (.createWriter id)
      let shown := (title.map trimmed).filter (· ≠ "")
      let info : RecordingInfo :=
        ⟨id, filename, target, shown.getD target.sessionName, size.cols, size.rows, none⟩
      Async.modify fun s => { s with active := s.active ++ [fresh grant info] }
      Async.catching (capture grant id filename size target) (abandon id)
      Io.recording (.put info)
      change grant id fun r => { r with polling := true }
      return info
    else
      recordingError "SESSION_NOT_FOUND" ("Session \"" ++ target.sessionName ++ "\" not found")

/-- Try, and go on whatever comes of it. -/
def quietly {α : Type} (t : Io α) : Io Unit :=
  Async.catching (do let _ ← t; return) fun _ => return

def teardown (r : ActiveRecording) : Io Unit :=
  match r.capture with
  | .pane paneId fifoPath => do
    quietly (Io.tmux (.on (.pane paneId) (.pipePane none)))
    match fifoPath with
    | none => return
    | some path => quietly (Io.recording (.unlink path))
  | .session cloneName bridge => do
    match bridge with
    | none => pure ()
    | some bridge => Io.killBridge bridge
    match cloneName with
    | none => return
    | some name => destroyClone name

/-- A writer that closed itself keeps its own reason. -/
def stop (id : String) (reason : RecordingStopReason) : Io (Option RecordingInfo) := do
  let s ← Async.get
  match find s id with
  | none => Io.recording (.get id)
  | some r =>
    forget id
    teardown r
    let stopReason ← Io.recording (.stopWriter id reason)
    Io.recording (.patch id stopReason)

end Recorder

end Mtmux.Relay
