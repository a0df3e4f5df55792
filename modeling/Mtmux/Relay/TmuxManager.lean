import Mtmux.Relay.State

/-! The relay's tmux operations, and the clones its viewers and recorders are attached to. -/
namespace Mtmux.Relay
open Protocol

def includes (text part : String) : Bool := decide ((text.splitOn part).length ≠ 1)

def defaultCaptureLines : Nat := 2000

def listSessions : Io (List SessionInfo) :=
  Async.catching (Io.tmux .listSessions) fun e =>
    if includes e.message "no server running" || includes e.message "no sessions" then return []
    else Async.throw e

def createSession (name cwd command : Option String) : Io SessionInfo :=
  Io.tmux (.newSession (name.filter (· ≠ "")) (cwd.filter (· ≠ "")) (command.filter (· ≠ "")))

def killSession (name : String) : Io Unit := Io.tmux (.killSession name)

def renameSession (oldName newName : String) : Io Unit := Io.tmux (.renameSession oldName newName)

def sessionExists (name : String) : Io Bool :=
  Async.catching (do Io.tmux (.on (.session name) .hasSession); return true) fun _ => return false

def sendInterrupt (session : String) : Io Unit :=
  Io.tmux (.on (.session session) (.sendKeys ["C-c"]))

def capturePane (session : String) : Io String :=
  Io.tmux (.on (.session session) (.capturePane defaultCaptureLines true))

def listWindows (session : String) : Io (List WindowInfo) :=
  Io.tmux (.on (.session session) .listWindows)

def currentWindowId (session : String) : Io String :=
  Io.tmux (.on (.session session) .currentWindow)

def stepWindow (session : String) (delta : Int) : Io Unit :=
  if 0 ≤ delta then Io.tmux (.on (.session session) .nextWindow)
  else Io.tmux (.on (.session session) .previousWindow)

/-- Probed once and remembered. -/
def supportsSelectPaneZ : Io Bool := do
  match (← Async.get).selectPaneSupportsZ with
  | some known => return known
  | none =>
    let supported ← Async.catching (Io.tmux .listCommands) fun _ => return false
    Async.modify fun s => { s with selectPaneSupportsZ := some supported }
    return supported

def stepPane (session : String) (delta : Int) : Io Unit := do
  let keepZoom ← supportsSelectPaneZ
  Io.tmux (.on (.paneStep session (decide (0 ≤ delta))) (.selectPane keepZoom))

def listPanes (session : String) (windowId : Option String) : Io (List PaneInfo) :=
  match windowId with
  | none => Io.tmux (.on (.session session) .listPanes)
  | some id =>
    if id = "" then Io.tmux (.on (.session session) .listPanes)
    else Io.tmux (.on (.windowOf session id) .listPanes)

def capturePaneById (paneId : String) : Io String :=
  Io.tmux (.on (.pane paneId) (.capturePane defaultCaptureLines false))

def splitPane (session : String) (direction : SplitDirection) : Io Unit :=
  Io.tmux (.on (.session session) (.splitWindow direction))

def selectPane (paneId : String) : Io Unit := do
  let keepZoom ← supportsSelectPaneZ
  Io.tmux (.on (.pane paneId) (.selectPane keepZoom))

def zoomTarget (session : String) : Option String → Target
  | none => .session session
  | some id => .pane id

def zoomPane (session : String) (paneId : Option String) (desired : Option Bool) : Io Unit := do
  let target := zoomTarget session paneId
  match desired with
  | none => Io.tmux (.on target .resizeZoom)
  | some desired =>
    -- the window's zoom flag, and whether this is its active pane
    let flags ← Io.tmux (.on target .zoomFlags)
    if desired = (flags.1 && flags.2) then return
    else if desired && flags.1 then Io.tmux (.on target (.selectPane true))
    else Io.tmux (.on target .resizeZoom)

def resizePane (paneId : String) (direction : PaneDirection) (amount : Nat) : Io Unit :=
  Io.tmux (.on (.pane paneId) (.resizePane direction amount))

def killPane (paneId : String) : Io Unit := Io.tmux (.on (.pane paneId) .killPane)

def createWindow (session : String) (name : Option String) : Io Unit :=
  Io.tmux (.on (.session session) (.newWindow (name.filter (· ≠ ""))))

def selectWindow (windowId : String) : Io Unit := Io.tmux (.on (.window windowId) .selectWindow)

def killWindow (windowId : String) : Io Unit := Io.tmux (.on (.window windowId) .killWindow)

def swapPane (paneId : String) (direction : PaneDirection) : Io Unit :=
  Io.tmux (.on (.pane paneId) (.swapPane direction))

def renameWindow (windowId name : String) : Io Unit :=
  Io.tmux (.on (.window windowId) (.renameWindow name))

def selectLayout (session : String) (preset : LayoutPreset) : Io Unit :=
  Io.tmux (.on (.session session) (.selectLayout preset))

def rotateLayout (session : String) : Io Unit := Io.tmux (.on (.session session) .rotateWindow)

def sendPrefix (session : String) : Io Unit := Io.tmux (.on (.session session) .sendPrefix)

def enterCopyMode (session : String) : Io Unit :=
  Io.tmux (.on (.session session) (.copyMode false))

def readScrollState (session : String) : Io ScrollState :=
  Io.tmux (.on (.session session) .scrollState)

/-- Positive `lines` goes back into the past. -/
def scrollHistory (session : String) (lines : Int) : Io ScrollState := do
  if lines = 0 then readScrollState session
  else
    let before ← readScrollState session
    if !before.inMode then Io.tmux (.on (.session session) (.copyMode true))
    Io.tmux (.on (.session session) (.sendKeys ["-X", "-N", lines.natAbs.repr,
      if 0 < lines then "scroll-up" else "scroll-down"]))
    readScrollState session

def scrollToPosition (session : String) (position : Nat) : Io ScrollState := do
  let state ← readScrollState session
  let clamped := min position state.historySize
  let delta : Int := clamped - (if state.inMode then state.position else 0)
  if delta = 0 then return state else scrollHistory session delta

def exitCopyMode (session : String) : Io Unit := do
  let state ← readScrollState session
  if !state.inMode then return
  else Io.tmux (.on (.session session) (.sendKeys ["-X", "cancel"]))

/-- Never throws: the clone may already be gone. -/
def destroyClone (name : String) : Io Unit :=
  if isCloneSession name then
    Async.catching (Io.tmux (.killSession name)) fun _ => return
  else return

def setOptions (name : String) : List (String × String) → Io Unit
  | [] => return
  | (option, value) :: rest => do
    Io.tmux (.on (.session name) (.setOption option value))
    setOptions name rest

/-- A grouped session with its own options; one that cannot be locked down is torn down. -/
def createClone (target name : String) (options : List (String × String)) : Io String := do
  Io.tmux (.groupSession target name)
  Async.catching (setOptions name options) fun e => do
    destroyClone name
    Async.throw e
  return name

def lockedOptions : List (String × String) :=
  [("prefix", "None"), ("prefix2", "None"), ("key-table", "mtmux-locked"),
    ("detach-on-destroy", "on")]

def createReadOnlyClone (target grantId connId : String) : Io String :=
  createClone target (cloneNameFor grantId connId) lockedOptions

def createRecordingClone (target recordingId : String) : Io String :=
  createClone target (recordingCloneNameFor recordingId)
    (lockedOptions ++ [("aggressive-resize", "off")])

end Mtmux.Relay
