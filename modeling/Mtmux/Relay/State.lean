import Mtmux.Base.Async
import Mtmux.Relay.Grant
import Mtmux.Relay.Tmux

/-! What the relay keeps in memory, and what its handlers may do with it. -/
namespace Mtmux.Relay
open Protocol

/-- An authenticated connection. `queue` has the messages waiting behind the one that is being
handled. A connection that is `removed` is out of the table, but its handlers may still hold on
to it. -/
structure ConnectionState where
  id : String
  grant : GrantRecord
  pty : Option Nat
  attachedSession : Option String
  lastSize : Option TerminalSize
  cloneSession : Option String
  activeWindowId : Option String
  watchers : List String
  queue : List ClientMessage
  draining : Bool
  closing : Bool
  removed : Bool

/-- Who reads a pty: a browser, which asked for session `name`, or a recording. -/
inductive BridgeOwner where
  | browser (conn name : String) (attachId captured : Option String)
  | recorder (recording : String)

structure Bridge where
  owner : BridgeOwner
  ready : Bool
  detaching : Bool
  exited : Bool

/-- What a recording reads from: its own pty on its own clone of the session, or a pipe. -/
inductive Capture where
  | session (cloneName : Option String) (bridge : Option Nat)
  | pane (paneId : String) (fifoPath : Option String)

structure ActiveRecording where
  info : RecordingInfo
  grant : GrantRecord
  capture : Capture
  polling : Bool

/-- What the machine answers at once: which paths are allowed, why a directory cannot be
watched or a pty not be spawned, and how recordings and their files are called. -/
structure Host where
  isPathAllowed : String → Bool
  watchFailure : String → Option String
  spawnFailure : Nat → Option String
  recordingId : Nat → String
  recordingFilename : (id session : String) → String
  recordingPath : (filename : String) → String

structure RelayState where
  connections : OrderedMap String ConnectionState
  active : List ActiveRecording
  selectPaneSupportsZ : Option Bool
  bridges : OrderedMap Nat Bridge
  nextBridge : Nat
  drawn : Nat
  knownSessions : List String
  windowSignatures : OrderedMap String String
  pendingApprovals : List String
  now : Nat
  host : Host

/-- `release` closes a connection's watchers and aborts its uploads. -/
inductive FileCall where
  | listDirectory (path : String)
  | readFile (path : String)
  | getStats (path : String)
  | writeFile (path content : String)
  | createFile (path : String) (content : Option String)
  | mkdir (path : String)
  | deleteFile (path : String)
  | renameFile (oldPath newPath : String)
  | handleUpload (conn path content : String) (final : Bool)
  | release (conn : String)

@[reducible] def FileCall.Output : FileCall → Type
  | .listDirectory _ => List FileEntry
  | .readFile _ => String × Bool
  | .getStats _ => FileEntry
  | .writeFile .. => Nat
  | _ => Unit

structure RecordingSlice where
  offset : Nat
  data : String
  totalBytes : Nat
  final : Bool

/-- The recordings index, the cast writers and the named pipes. `createWriter` makes the
directory first; `readSlices` is what a file turns out to be read in, `readSlice` one of the reads. -/
inductive RecordingCall where
  | list
  | get (id : String)
  | put (info : RecordingInfo)
  | patch (id : String) (reason : RecordingStopReason)
  | remove (id : String)
  | createWriter (id : String)
  | stopWriter (id : String) (reason : RecordingStopReason)
  | mkfifo (path : String)
  | unlink (path : String)
  | readSlices (filename : String) (offset : Nat)
  | readSlice (filename : String) (offset : Nat)

@[reducible] def RecordingCall.Output : RecordingCall → Type
  | .list => List RecordingInfo
  | .get _ | .patch .. => Option RecordingInfo
  | .stopWriter .. => RecordingStopReason
  | .readSlices .. => Option (List RecordingSlice)
  | _ => Unit

inductive Call where
  | tmux (command : TmuxCommand)
  | file (call : FileCall)
  | recording (call : RecordingCall)

def Call.target : Call → Option Target
  | .tmux command => command.target
  | .file _ | .recording _ => none

@[reducible] def Call.Output : Call → Type
  | .tmux command => command.Output
  | .file call => call.Output
  | .recording call => call.Output

/-- What is started and not waited for. `grant` is the one on whose behalf. -/
inductive Job where
  | attach (grant : GrantRecord) (target : String) (size : Option TerminalSize) (readOnly : Bool)
  | announcePanes (name : String)

/-- What leaves a handler: messages, work that goes on by itself, and what a pty is told. -/
inductive Out where
  | send (conn : String) (message : ServerMessage)
  | spawn (job : Job)
  | write (bridge : Nat) (data : String)
  | resize (bridge : Nat) (size : TerminalSize)
  | kill (bridge : Nat)

abbrev Io : Type → Type := Async RelayState Out Failure Call.Output

namespace RelayState

def start (host : Host) : RelayState where
  connections := .empty
  active := []
  selectPaneSupportsZ := none
  bridges := .empty
  nextBridge := 0
  drawn := 0
  knownSessions := []
  windowSignatures := .empty
  pendingApprovals := []
  now := 0
  host := host

/-- The connections a broadcast goes through. -/
def others (s : RelayState) (exclude : Option String) : List ConnectionState :=
  s.connections.values.filter fun conn => !conn.removed && exclude ≠ some conn.id

def connection (s : RelayState) (id : String) : Option ConnectionState := s.connections.get id

def updateConnection (f : ConnectionState → ConnectionState) (id : String) (s : RelayState) :
    RelayState :=
  match s.connections.get id with
  | none => s
  | some conn => { s with connections := s.connections.set id (f conn) }

def updateBridge (f : Bridge → Bridge) (bridge : Nat) (s : RelayState) : RelayState :=
  match s.bridges.get bridge with
  | none => s
  | some b => { s with bridges := s.bridges.set bridge (f b) }

end RelayState

namespace Io

def tmux (command : TmuxCommand) : Io command.Output := Async.call (Call.tmux command)
def file (call : FileCall) : Io call.Output := Async.call (Call.file call)
def recording (call : RecordingCall) : Io call.Output := Async.call (Call.recording call)

def send (conn : String) (message : ServerMessage) : Io Unit := Async.say (.send conn message)

def sendError (conn code message : String) : Io Unit := send conn (.error code message)

def update (conn : String) (f : ConnectionState → ConnectionState) : Io Unit :=
  Async.modify (RelayState.updateConnection f conn)

/-- One field of a connection as it is now. -/
def look {α : Type} (conn : String) (f : ConnectionState → Option α) : Io (Option α) := do
  let s ← Async.get
  return (s.connection conn).bind f

def killBridge (bridge : Nat) : Io Unit := do
  Async.modify (RelayState.updateBridge (fun b => { b with detaching := true }) bridge)
  Async.say (.kill bridge)

def sendAll : List (String × ServerMessage) → Io Unit
  | [] => return
  | (conn, message) :: rest => do
    send conn message
    sendAll rest

/-- Each connection gets its own view of an event, or nothing. -/
def broadcastWhere (build : ConnectionState → Option ServerMessage) (exclude : Option String) :
    Io Unit := do
  let s ← Async.get
  sendAll ((s.others exclude).filterMap fun conn =>
    (build conn).map fun message => (conn.id, message))

end Io

section Calls
variable {P : Call → Prop}

theorem sendAll_calls (messages : List (String × ServerMessage)) : (Io.sendAll messages).Calls P fun _ => True := by
  induction messages with
  | nil => trivial
  | cons m messages ih => exact ih

theorem broadcastWhere_calls (build : ConnectionState → Option ServerMessage)
    (exclude : Option String) : (Io.broadcastWhere build exclude).Calls P fun _ => True :=
  fun _ => sendAll_calls _

theorem look_calls {α : Type} (conn : String) (f : ConnectionState → Option α) :
    (Io.look conn f).Calls P fun _ => True :=
  fun _ => trivial

theorem send_calls (conn : String) (message : ServerMessage) : (Io.send conn message).Calls P fun _ => True :=
  trivial

theorem get_calls : (Async.get : Io RelayState).Calls P fun _ => True := fun _ => trivial

theorem modify_calls (f : RelayState → RelayState) : (Async.modify f : Io Unit).Calls P fun _ => True :=
  trivial

theorem catching_calls {α : Type} {t : Io α} {handler : Failure → Io α}
    (h : t.Calls P fun _ => True) (hhandler : ∀ e, (handler e).Calls P fun _ => True) :
    (Async.catching t handler).Calls P fun _ => True :=
  h.catching hhandler

theorem then_calls {α β : Type} {t : Io α} {f : α → Io β} (h : t.Calls P fun _ => True)
    (hf : ∀ a, (f a).Calls P fun _ => True) : (t >>= f).Calls P fun _ => True :=
  Async.calls_bind.2 (h.mono (fun _ hc => hc) fun a _ => hf a)

theorem tmux_calls {command : TmuxCommand} (h : P (.tmux command)) : (Io.tmux command).Calls P fun _ => True :=
  Async.calls_call.2 ⟨h, fun _ => trivial⟩

end Calls

end Mtmux.Relay
