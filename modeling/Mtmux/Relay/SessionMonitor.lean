import Mtmux.Relay.Router

/-! What the relay does by itself: it looks every few seconds which sessions and windows there are, and it clears up
after connections and recordings. -/
namespace Mtmux.Relay
open Protocol

namespace SessionMonitor

def flag (b : Bool) : String := if b then "1" else "0"

/-- Cheap change detector for a window list. -/
def windowSignature (windows : List WindowInfo) : String :=
  String.intercalate "|" (windows.map fun w =>
    w.id ++ ":" ++ w.index.repr ++ ":" ++ w.name ++ ":" ++ flag w.active ++ ":" ++ w.paneCount.repr ++ ":" ++
      flag w.zoomed ++ ":" ++ w.layout)

def exitSeenBy (name : String) (conn : ConnectionState) : Option ServerMessage :=
  if conn.attachedSession = some name then none
  else if !allowsSessionName conn.grant name then none
  else some (.sessionExited name none)

def onSessionExit (name : String) : Io Unit :=
  if isCloneSession name then return else Io.broadcastWhere (exitSeenBy name) none

def createdSeenBy (session : SessionInfo) (conn : ConnectionState) : Option ServerMessage :=
  if allowsSession conn.grant ⟨some session.id, session.name⟩ none then some (.sessionCreated session) else none

def onSessionCreated (session : SessionInfo) : Io Unit :=
  if isCloneSession session.name then return else Io.broadcastWhere (createdSeenBy session) none

/-- The pane layout follows, when tmux has listed it. -/
def onWindowsChanged (name : String) (windows : List WindowInfo) : Io Unit :=
  if isCloneSession name then return
  else do
    Io.broadcastWhere (attachedTo name (.windowChanged windows name)) none
    Async.say (.spawn (.announcePanes name))

def announcePanes (name : String) : Io Unit :=
  Async.catching
    (do
      let layout ← currentWindowPanes name
      Io.broadcastWhere (attachedTo name (.paneChanged layout.1 layout.2)) none)
    fun _ => return

def watchedSessions (s : RelayState) : List String :=
  ((s.others none).filterMap fun conn => conn.attachedSession.filter (· ≠ "")).dedup

def setSignature (name signature : String) : Io Unit :=
  Async.modify fun s => { s with windowSignatures := s.windowSignatures.set name signature }

def forgetSignature (name : String) : Io Unit :=
  Async.modify fun s => { s with windowSignatures := s.windowSignatures.delete name }

/-- The first sighting only sets the baseline. -/
def pollWindow (name : String) : Io Unit :=
  Async.catching
    (do
      let windows ← listWindows name
      let signature := windowSignature windows
      let s ← Async.get
      let previous := s.windowSignatures.get name
      setSignature name signature
      if previous = none ∨ previous = some signature then return else onWindowsChanged name windows)
    fun _ => forgetSignature name

def pollEach : List String → Io Unit
  | [] => return
  | name :: rest => do
    pollWindow name
    pollEach rest

def pollWindows : Io Unit := do
  let s ← Async.get
  let watching := watchedSessions s
  Async.modify fun s =>
    { s with windowSignatures := s.windowSignatures.filter fun name _ => watching.contains name }
  pollEach watching

def exited : List String → Io Unit
  | [] => return
  | name :: rest => do
    onSessionExit name
    Async.modify fun s => { s with knownSessions := s.knownSessions.filter (· ≠ name) }
    exited rest

def created : List SessionInfo → Io Unit
  | [] => return
  | session :: rest => do
    let s ← Async.get
    if s.knownSessions.contains session.name then created rest
    else
      Async.modify fun s => { s with knownSessions := s.knownSessions ++ [session.name] }
      onSessionCreated session
      created rest

def pollSessions : Io Unit := do
  let sessions ← listSessions
  let s ← Async.get
  exited (s.knownSessions.filter fun name => !(sessions.map SessionInfo.name).contains name)
  created sessions

def poll : Io Unit := do
  Async.catching pollSessions fun _ => return
  Async.catching pollWindows fun _ => return

end SessionMonitor

/-- Kill the pty, destroy the clone, close what else the connection has open, and take it out of the table. -/
def removeConnection (conn : String) : Io Unit := do
  match ← Io.look conn ConnectionState.pty with
  | none => pure ()
  | some bridge =>
    Io.killBridge bridge
    Io.update conn fun c => { c with pty := none }
  match ← Io.look conn ConnectionState.cloneSession with
  | none => pure ()
  | some name =>
    destroyClone name
    Io.update conn fun c => { c with cloneSession := none }
  Async.catching (Io.file (.release conn)) fun _ => return
  Io.update conn fun c => { c with watchers := [], removed := true }

def destroyAll : List String → Io Unit
  | [] => return
  | name :: rest => do
    destroyClone name
    destroyAll rest

/-- The clones that an earlier relay has left behind. -/
def sweepOrphanClones : Io Unit := do
  let sessions ← Async.catching (Io.tmux .listSessions) fun _ => return []
  destroyAll ((sessions.map SessionInfo.name).filter isCloneSession)

end Mtmux.Relay
