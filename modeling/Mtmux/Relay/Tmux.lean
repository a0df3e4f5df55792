import Mtmux.Relay.TmuxServer

/-! The tmux commands the relay issues, and what the server does with them. -/
namespace Mtmux.Relay
open Protocol

inductive Target where
  | session (name : String)
  | window (id : String)
  | pane (id : String)
  | windowOf (name windowId : String)
  | paneStep (name : String) (forward : Bool)

namespace Target

def sessionName : Target → Option String
  | .session name | .windowOf name _ | .paneStep name _ => some name
  | .window _ | .pane _ => none

def objectId : Target → Option String
  | .window id | .pane id => some id
  | .session _ | .windowOf _ _ | .paneStep _ _ => none

end Target

/-- The commands that address something and leave the table of sessions alone. -/
inductive Action where
  | hasSession
  | attachSession (size : Option TerminalSize) (readOnly : Bool)
  | setOption (option value : String)
  | sendKeys (keys : List String)
  | capturePane (lines : Nat) (escapes : Bool)
  | listWindows
  | listPanes
  | currentWindow
  | zoomFlags
  | scrollState
  | panePipe
  | nextWindow
  | previousWindow
  | selectPane (keepZoom : Bool)
  | splitWindow (direction : SplitDirection)
  | resizeZoom
  | resizePane (direction : PaneDirection) (amount : Nat)
  | killPane
  | swapPane (direction : PaneDirection)
  | newWindow (name : Option String)
  | selectWindow
  | killWindow
  | renameWindow (name : String)
  | selectLayout (preset : LayoutPreset)
  | rotateWindow
  | sendPrefix
  | copyMode (exitAtBottom : Bool)
  | pipePane (into : Option String)

inductive TmuxCommand where
  | listSessions
  | listCommands
  | newSession (name cwd command : Option String)
  | groupSession (target name : String)
  | killSession (target : String)
  | renameSession (target newName : String)
  | on (target : Target) (action : Action)

def TmuxCommand.target : TmuxCommand → Option Target
  | .listSessions | .listCommands | .newSession .. => none
  | .groupSession target _ | .killSession target | .renameSession target _ => some (.session target)
  | .on target _ => some target

@[reducible] def Action.Output : Action → Type
  | .capturePane .. | .currentWindow => String
  | .listWindows => List WindowInfo
  | .listPanes => List PaneInfo
  | .zoomFlags => Bool × Bool
  | .scrollState => ScrollState
  | .panePipe => Bool
  | _ => Unit

@[reducible] def TmuxCommand.Output : TmuxCommand → Type
  | .listSessions => List SessionInfo
  | .listCommands => Bool
  | .newSession .. => SessionInfo
  | .on _ action => action.Output
  | _ => Unit

/-- What is thrown; only the recorder's own errors have a code. -/
structure Failure where
  code : Option String
  message : String

def clonePrefix : String := "__mtmux_"

/-- A session the relay made for viewing. -/
def isCloneSession (name : String) : Bool := name.startsWith clonePrefix

def sanitise (part : String) : String :=
  String.ofList (part.toList.filter fun c => c.isAlphanum || c = '_' || c = '-')

def cloneNameFor (grantId connId : String) : String :=
  clonePrefix ++ sanitise grantId ++ "_" ++ sanitise connId

def recordingCloneNameFor (recordingId : String) : String :=
  clonePrefix ++ "rec_" ++ sanitise recordingId

end Mtmux.Relay
