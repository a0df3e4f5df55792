import Mtmux.Relay.Policy
import Mtmux.Relay.Recorder

/-! What the relay does with a message once it is past the gate. -/
namespace Mtmux.Relay
open Protocol

/-- Clones are shown to nobody. -/
def visibleSessions (grant : GrantRecord) (sessions : List SessionInfo) : List SessionInfo :=
  (sessions.filter fun s => !isCloneSession s.name).filter fun s =>
    isFullGrant grant || allowsSession grant ⟨some s.id, s.name⟩ none

def sessionsVisibleTo (grant : GrantRecord) : Io (List SessionInfo) := do
  return visibleSessions grant (← listSessions)

def canSee (conn : ConnectionState) (name : String) : Bool :=
  !isCloneSession name && allowsSessionName conn.grant name

def currentWindowPanes (session : String) : Io (List PaneInfo × String) := do
  let windowId ← currentWindowId session
  let panes ← listPanes session (some windowId)
  return (panes, windowId)

def attachedTo (session : String) (message : ServerMessage) (conn : ConnectionState) :
    Option ServerMessage :=
  if conn.attachedSession = some session then some message else none

def announceLayout (conn session : String) : Io String := do
  let windows ← listWindows session
  let layout ← currentWindowPanes session
  Io.send conn (.windowChanged windows session)
  Io.send conn (.paneChanged layout.1 layout.2)
  Io.broadcastWhere (attachedTo session (.windowChanged windows session)) (some conn)
  Io.broadcastWhere (attachedTo session (.paneChanged layout.1 layout.2)) (some conn)
  return layout.2

def visibleRecordings (grant : GrantRecord) : Io (List RecordingInfo) := do
  let all ← Io.recording .list
  let s ← Async.get
  let live := s.active.map ActiveRecording.info
  return (all.map fun r => (live.find? fun l => l.id = r.id).getD r).filter fun r =>
    allowsRecording grant r.id

def visibleRecording (grant : GrantRecord) (id : String) : Io (Option RecordingInfo) :=
  if allowsRecording grant id then Io.recording (.get id) else return none

def sendScrollState (conn : String) (state : ScrollState) : Io Unit :=
  Io.send conn (.tmuxScrollState { state with position := if state.inMode then state.position else 0 })

def sendSlices (conn : String) (recording : RecordingInfo) : List RecordingSlice → Io Unit
  | [] => return
  | slice :: rest => do
    Io.recording (.readSlice recording.filename slice.offset)
    Io.send conn (.recordingChunk recording.id slice.offset slice.data slice.totalBytes slice.final)
    sendSlices conn recording rest

/-- A recording's bytes, as a run of chunks. -/
def streamRecording (conn : String) (recording : RecordingInfo) (offset : Nat) : Io Unit := do
  match ← Io.recording (.readSlices recording.filename offset) with
  | none => Io.sendError conn "NOT_FOUND" "Recording not found"
  | some slices => sendSlices conn recording slices

namespace Router
variable (conn : String)

def notAttached : Io Unit := Io.sendError conn "NOT_ATTACHED" "No session attached"

def attached (f : String → Io Unit) : Io Unit := do
  match ← Io.look conn fun c => c.attachedSession.filter (· ≠ "") with
  | none => notAttached conn
  | some session => f session

/-- The session as it is now: an await may have cleared it, and tmux cannot be told `null`. -/
def attachedNow : Io String := do
  match ← Io.look conn ConnectionState.attachedSession with
  | none => Async.throw ⟨none, "The argument must be of type string. Received null"⟩
  | some session => return session

/-- After a command that changed something, tell everybody what is there now. -/
def thenAnnounce (command : Io Unit) : Io String := do
  command
  announceLayout conn (← attachedNow conn)

def announced (command : Io Unit) : Io Unit := do
  let _ ← thenAnnounce conn command
  return

def announcedWindow (command : Io Unit) : Io Unit := do
  let windowId ← thenAnnounce conn command
  Io.update conn fun c => { c with activeWindowId := some windowId }

def toPty (data : String) : Io Unit := do
  match ← Io.look conn ConnectionState.pty with
  | none => return
  | some bridge => Async.say (.write bridge data)

/-- As `toPty`, for the messages that report a missing one. -/
def toAttachedPty (f : Nat → Io Unit) : Io Unit := do
  match ← Io.look conn ConnectionState.pty with
  | none => notAttached conn
  | some bridge => f bridge

def resize (size : TerminalSize) (bridge : Nat) : Io Unit := do
  let lastSize ← Io.look conn ConnectionState.lastSize
  if lastSize = some size then return
  else
    Io.update conn fun c => { c with lastSize := some size }
    Async.say (.resize bridge size)

def dropSession : Io Unit := do
  match ← Io.look conn ConnectionState.pty with
  | none => pure ()
  | some bridge =>
    Io.killBridge bridge
    Io.update conn fun c => { c with pty := none }
  Io.update conn fun c => { c with attachedSession := none, lastSize := none }
  match ← Io.look conn ConnectionState.cloneSession with
  | none => pure ()
  | some name =>
    destroyClone name
    Io.update conn fun c => { c with cloneSession := none }

def spawnPty (grant : GrantRecord) (name target : String) (size : Option TerminalSize)
    (attachId captured : Option String) : Io Unit := do
  let s ← Async.get
  match s.host.spawnFailure s.nextBridge with
  | some message =>
    Async.modify fun s => { s with nextBridge := s.nextBridge + 1 }
    match ← Io.look conn ConnectionState.cloneSession with
    | none => pure ()
    | some clone =>
      destroyClone clone
      Io.update conn fun c => { c with cloneSession := none }
    Io.sendError conn "PTY_SPAWN_FAILED" message
  | none =>
    Async.modify fun s =>
      { s with
        bridges := s.bridges.set s.nextBridge
          ⟨.browser conn name attachId captured, false, false, false⟩
        nextBridge := s.nextBridge + 1 }
    Io.update conn fun c =>
      { c with pty := some s.nextBridge, attachedSession := some name, lastSize := size }
    Async.say (.spawn (.attach grant target size grant.readOnly))

def sessionNotFound (name : String) : Io Unit :=
  Io.sendError conn "SESSION_NOT_FOUND" ("Session \"" ++ name ++ "\" not found")

def maybe {α : Type} (t : Io α) : Io (Option α) :=
  Async.catching (do return some (← t)) fun _ => return none

def attach (grant : GrantRecord) (name : String) (size : Option TerminalSize)
    (capture : Option Bool) (attachId : Option String) : Io Unit := do
  dropSession conn
  let found ← if isCloneSession name then pure false else sessionExists name
  if found then
    let captured ← if capture = some true then maybe (capturePane name) else pure none
    if grant.readOnly then
      match ← maybe (createReadOnlyClone name grant.id conn) with
      | none => Io.sendError conn "ATTACH_FAILED" "Could not open a read-only view."
      | some clone =>
        Io.update conn fun c => { c with cloneSession := some clone }
        spawnPty conn grant name clone size attachId captured
    else spawnPty conn grant name name size attachId captured
  else sessionNotFound conn name

def create (name cwd command : Option String) : Io Unit := do
  let session ← createSession name cwd command
  Io.send conn (.sessionCreated session)
  Io.broadcastWhere (fun other =>
    if canSee other session.name then some (.sessionCreated session) else none) (some conn)

def kill (name : String) : Io Unit := do
  killSession name
  Io.send conn (.sessionKilled name)
  Io.broadcastWhere (fun other =>
    if canSee other name then some (.sessionKilled name) else none) (some conn)

def ownLists (s : RelayState) (sessions : List SessionInfo) (other : ConnectionState) :
    Option ServerMessage :=
  let first := (s.others (some conn)).find? fun c => c.grant.id = other.grant.id
  some (.sessionList (visibleSessions (first.getD other).grant sessions))

def rename (grant : GrantRecord) (oldName newName : String) : Io Unit := do
  if ← sessionExists oldName then
    renameSession oldName newName
    Io.send conn (.sessionList (← sessionsVisibleTo grant))
    let everything ← listSessions
    let s ← Async.get
    Io.broadcastWhere (ownLists conn s everything) (some conn)
  else sessionNotFound conn oldName

def windows (name : String) : Io Unit := do
  let windows ← listWindows name
  let panes ← listPanes name none
  Io.send conn (.sessionWindows name windows panes)

def paneList (session : String) : Io Unit := do
  let layout ← currentWindowPanes session
  Io.send conn (.paneList layout.1 layout.2)

def windowList (session : String) : Io Unit := do
  let windows ← listWindows session
  let sessionName ← Io.look conn ConnectionState.attachedSession
  Io.send conn (.windowList windows sessionName)

def windowSelect (id : String) : Io Unit := do
  selectWindow id
  Io.update conn fun c => { c with activeWindowId := some id }
  let _ ← announceLayout conn (← attachedNow conn)
  return

def windowKill (id : String) : Io Unit := do
  let windowId ← thenAnnounce conn (killWindow id)
  Io.update conn fun c =>
    if c.activeWindowId = some id then
      { c with activeWindowId := if windowId = "" then none else some windowId }
    else c

def exitCopyMode (session : String) : Io Unit := do
  Relay.exitCopyMode session
  sendScrollState conn (← readScrollState (← attachedNow conn))

def paneCapture (id : String) : Io Unit := do
  let content ← capturePaneById id
  Io.send conn (.paneCaptured id content)

def allowed (paths : List String) (f : Io Unit) : Io Unit := do
  let s ← Async.get
  if paths.all s.host.isPathAllowed then f
  else Io.sendError conn "ACCESS_DENIED" "Path outside allowed directories"

def fileOp (op : FileOp) (path : String) (call : FileCall) : Io Unit :=
  Async.catching
    (do
      let _ ← Io.file call
      Io.send conn (.fileOpResult op path none))
    fun e => Io.send conn (.fileOpResult op path (some e.message))

def fileWrite (path content : String) : Io Unit :=
  Async.catching
    (do
      let size ← Io.file (.writeFile path content)
      Io.send conn (.fileWriteResult path (.ok size)))
    fun e => Io.send conn (.fileWriteResult path (.error e.message))

def fileUpload (path content : String) (final : Bool) : Io Unit :=
  Async.catching
    (do
      Io.file (.handleUpload conn path content final)
      if final then Io.send conn (.fileOpResult .upload path none) else return)
    fun e => Io.send conn (.fileOpResult .upload path (some e.message))

def fileRead (path : String) : Io Unit := do
  let content ← Io.file (.readFile path)
  Io.send conn (.fileContent path content.1 content.2)

def fileWatch (path : String) : Io Unit := do
  let s ← Async.get
  if ((s.connection conn).map fun c => c.watchers.contains path) = some true then return
  else match s.host.watchFailure path with
    | some message => Io.sendError conn "WATCH_FAILED" message
    | none => Io.update conn fun c => { c with watchers := c.watchers ++ [path] }

def fileUnwatch (path : String) : Io Unit :=
  Io.update conn fun c => { c with watchers := c.watchers.filter (· ≠ path) }

def recordingNotFound : Io Unit := Io.sendError conn "NOT_FOUND" "Recording not found"

def recordingStart (grant : GrantRecord) (target : RecordingTarget) (title : Option String) :
    Io Unit :=
  Async.catching
    (do
      let started ← Recorder.start grant target title
      Io.send conn (.recordingStarted started))
    fun e =>
      match e.code with
      | some code => Io.sendError conn code e.message
      | none => Async.throw e

def recordingStop (grant : GrantRecord) (id : String) : Io Unit := do
  match ← visibleRecording grant id with
  | none => recordingNotFound conn
  | some _ =>
    match ← Recorder.stop id .requested with
    | none => recordingNotFound conn
    | some stopped =>
      Io.send conn (.recordingStopped stopped (stopped.stopReason.getD .requested))

def recordingDelete (grant : GrantRecord) (id : String) : Io Unit := do
  match ← visibleRecording grant id with
  | none => recordingNotFound conn
  | some _ =>
    let s ← Async.get
    match Recorder.find s id with
    | none => pure ()
    | some _ =>
      let _ ← Recorder.stop id .requested
      pure ()
    Io.recording (.remove id)
    Io.send conn (.recordingDeleted id)

def recordingFetch (grant : GrantRecord) (id : String) (offset : Nat) : Io Unit := do
  match ← visibleRecording grant id with
  | none => recordingNotFound conn
  | some recording => streamRecording conn recording offset

def deviceApprove (id : String) : Io Unit := do
  let s ← Async.get
  if s.pendingApprovals.contains id then
    Async.modify fun s => { s with pendingApprovals := s.pendingApprovals.filter (· ≠ id) }
  else
    Io.sendError conn "APPROVAL_NOT_PENDING" "That request is no longer waiting for an answer."

end Router

open Router in
def handle (conn : String) (grant : GrantRecord) : ClientMessage → Io Unit
  | .ping timestamp => Io.send conn (.pong timestamp)
  | .sessionList => do Io.send conn (.sessionList (← sessionsVisibleTo grant))
  | .sessionCreate name cwd command => create conn name cwd command
  | .sessionAttach name size capture attachId => attach conn grant name size capture attachId
  | .sessionDetach => dropSession conn
  | .sessionKill name => kill conn name
  | .sessionRename oldName newName => rename conn grant oldName newName
  | .sessionWindows name => windows conn name
  | .terminalInput data => toAttachedPty conn fun bridge => Async.say (.write bridge data)
  | .terminalResize size => toAttachedPty conn (resize conn size)
  | .commandSend command => toAttachedPty conn fun bridge => Async.say (.write bridge (command ++ "\r"))
  | .commandInterrupt => do
    match ← Io.look conn fun c => c.attachedSession.filter (· ≠ "") with
    | none => return
    | some session => sendInterrupt session
  | .commandEof => toPty conn "\x04"
  | .commandClear => toPty conn "\x1b[2J\x1b[H"
  | .commandSuspend => toPty conn "\x1a"
  | .fileList path => allowed conn [path] do
    Io.send conn (.fileList path (← Io.file (.listDirectory path)))
  | .fileRead path => allowed conn [path] (fileRead conn path)
  | .fileStat path => allowed conn [path] do
    Io.send conn (.fileStat (← Io.file (.getStats path)))
  | .fileWatch path => allowed conn [path] (fileWatch conn path)
  | .fileUnwatch path => fileUnwatch conn path
  | .fileWrite path content => allowed conn [path] (fileWrite conn path content)
  | .fileCreate path content => allowed conn [path] (fileOp conn .create path (.createFile path content))
  | .fileMkdir path => allowed conn [path] (fileOp conn .mkdir path (.mkdir path))
  | .fileDelete path => allowed conn [path] (fileOp conn .delete path (.deleteFile path))
  | .fileRename oldPath newPath => allowed conn [oldPath, newPath]
    (fileOp conn .rename newPath (.renameFile oldPath newPath))
  | .fileUpload path content final => allowed conn [path] (fileUpload conn path content final)
  | .paneList => attached conn (paneList conn)
  | .paneSplit direction => attached conn fun session => announced conn (splitPane session direction)
  | .paneSelect id => attached conn fun _ => announcedWindow conn (selectPane id)
  | .paneZoom id zoomed => attached conn fun session =>
    announced conn (zoomPane session (id.filter (· ≠ "")) zoomed)
  | .paneStep delta => attached conn fun session => announced conn (stepPane session delta)
  | .paneResize id direction amount => attached conn fun _ =>
    announced conn (resizePane id direction amount)
  | .paneKill id => attached conn fun _ => announced conn (killPane id)
  | .windowList => attached conn (windowList conn)
  | .windowCreate name => attached conn fun session => announcedWindow conn (createWindow session name)
  | .windowSelect id => attached conn fun _ => windowSelect conn id
  | .windowStep delta => attached conn fun session => announcedWindow conn (stepWindow session delta)
  | .windowKill id => attached conn fun _ => windowKill conn id
  | .paneSwap id direction => attached conn fun _ => announced conn (swapPane id direction)
  | .windowRename id name => attached conn fun _ => announced conn (renameWindow id name)
  | .windowLayout preset => attached conn fun session => announced conn (selectLayout session preset)
  | .layoutRotate => attached conn fun session => announced conn (rotateLayout session)
  | .tmuxPrefix => attached conn sendPrefix
  | .tmuxCopyMode => attached conn enterCopyMode
  | .tmuxScroll lines => attached conn fun session => do
    sendScrollState conn (← scrollHistory session lines)
  | .tmuxScrollTo position => attached conn fun session => do
    sendScrollState conn (← scrollToPosition session position)
  | .tmuxScrollState => attached conn fun session => do
    sendScrollState conn (← readScrollState session)
  | .tmuxExitCopyMode => attached conn (Router.exitCopyMode conn)
  | .paneCapture id => attached conn fun _ => paneCapture conn id
  | .recordingStart target title => recordingStart conn grant target title
  | .recordingStop id => recordingStop conn grant id
  | .recordingList => do Io.send conn (.recordingList (← visibleRecordings grant))
  | .recordingDelete id => recordingDelete conn grant id
  | .recordingFetch id offset => recordingFetch conn grant id offset
  | .deviceApprove id _ => deviceApprove conn id
  | .auth _ => Io.sendError conn "ALREADY_AUTHENTICATED" "This connection is already authenticated."

/-- One message of a connection: the gate, then the case for it. -/
def routeMessage (conn : String) (msg : ClientMessage) : Io Unit := do
  let s ← Async.get
  match s.connection conn with
  | none => return
  | some c =>
    match ← enforce ⟨c.grant, c.attachedSession, none⟩ msg with
    | .deny code message => Io.sendError conn code message
    | .ok =>
      Async.catching (handle conn c.grant msg) fun e =>
        Io.sendError conn "HANDLER_ERROR" e.message

end Mtmux.Relay
