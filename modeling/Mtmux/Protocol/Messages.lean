import Mathlib.Tactic.Common

/-! Sessions, windows and panes as the relay tells them, what a browser may say to the relay and what the relay says to
a browser. -/
namespace Mtmux.Protocol

structure TerminalSize where
  cols : Nat
  rows : Nat
  deriving DecidableEq

structure SessionInfo where
  name : String
  id : String

structure PaneInfo where
  id : String
  index : Nat
  windowId : String
  active : Bool
  zoomed : Bool
  dimensions : TerminalSize

structure WindowInfo where
  id : String
  index : Nat
  name : String
  active : Bool
  paneCount : Nat
  layout : String
  zoomed : Bool
  dimensions : Option TerminalSize

inductive RecordingTarget where
  | session (session : String)
  | pane (session paneId : String)
  deriving DecidableEq

def RecordingTarget.sessionName : RecordingTarget → String
  | .session name => name
  | .pane name _ => name

inductive SplitDirection where
  | h | v
  deriving DecidableEq

inductive PaneDirection where
  | up | down | left | right
  deriving DecidableEq

inductive LayoutPreset where
  | evenHorizontal | evenVertical | mainHorizontal | mainVertical | tiled
  deriving DecidableEq

inductive ClientMessage where
  | auth (token : String)
  | ping (timestamp : Int)
  | terminalInput (data : String)
  | terminalResize (size : TerminalSize)
  | sessionList
  | sessionCreate (name cwd command : Option String)
  | sessionAttach (name : String) (size : Option TerminalSize) (capture : Option Bool)
      (attachId : Option String)
  | sessionDetach
  | sessionKill (name : String)
  | sessionRename (oldName newName : String)
  | fileList (path : String)
  | fileRead (path : String)
  | fileStat (path : String)
  | fileWatch (path : String)
  | fileUnwatch (path : String)
  | fileWrite (path content : String)
  | fileCreate (path : String) (content : Option String)
  | fileMkdir (path : String)
  | fileDelete (path : String)
  | fileRename (oldPath newPath : String)
  | fileUpload (path content : String) (final : Bool)
  | commandSend (command : String)
  | commandInterrupt
  | commandEof
  | commandClear
  | commandSuspend
  | paneList
  | paneSplit (direction : SplitDirection)
  | paneSelect (id : String)
  | paneZoom (id : Option String) (zoomed : Option Bool)
  | paneStep (delta : Int)
  | paneResize (id : String) (direction : PaneDirection) (amount : Nat)
  | paneKill (id : String)
  | windowList
  | windowCreate (name : Option String)
  | windowSelect (id : String)
  | windowStep (delta : Int)
  | windowKill (id : String)
  | paneSwap (id : String) (direction : PaneDirection)
  | windowRename (id name : String)
  | windowLayout (preset : LayoutPreset)
  | layoutRotate
  | tmuxPrefix
  | tmuxCopyMode
  | tmuxScroll (lines : Int)
  | tmuxScrollTo (position : Nat)
  | tmuxScrollState
  | tmuxExitCopyMode
  | paneCapture (id : String)
  | sessionWindows (name : String)
  | recordingStart (target : RecordingTarget) (title : Option String)
  | recordingStop (id : String)
  | recordingList
  | recordingDelete (id : String)
  | recordingFetch (id : String) (offset : Nat)
  | deviceApprove (id : String) (approved : Bool)
  deriving DecidableEq

namespace ClientMessage

def name : ClientMessage → Option String
  | .sessionCreate name _ _ => name
  | .sessionAttach name _ _ _ => some name
  | .sessionKill name => some name
  | .sessionWindows name => some name
  | .windowCreate name => name
  | .windowRename _ name => some name
  | _ => none

def oldName : ClientMessage → Option String
  | .sessionRename oldName _ => some oldName
  | _ => none

def id : ClientMessage → Option String
  | .paneSelect id | .paneResize id _ _ | .paneKill id | .paneSwap id _ | .paneCapture id
  | .windowSelect id | .windowKill id | .windowRename id _
  | .recordingStop id | .recordingDelete id | .recordingFetch id _ | .deviceApprove id _ => some id
  | .paneZoom id _ => id
  | _ => none

def target : ClientMessage → Option RecordingTarget
  | .recordingStart target _ => some target
  | _ => none

end ClientMessage

inductive RecordingStopReason where
  | requested | limit | ended | interrupted | error
  deriving DecidableEq

structure RecordingInfo where
  id : String
  filename : String
  target : RecordingTarget
  title : String
  cols : Nat
  rows : Nat
  stopReason : Option RecordingStopReason

inductive FileOp where
  | create | mkdir | delete | rename | upload

/-- Where the view of a pane sits in its history. -/
structure ScrollState where
  position : Nat
  historySize : Nat
  paneHeight : Nat
  inMode : Bool

/-- A file or directory, as far as the router looks at it. -/
structure FileEntry where
  name : String
  path : String

inductive ServerMessage where
  | pong (timestamp : Int)
  | error (code message : String)
  | terminalOutput (data : String)
  | sessionList (sessions : List SessionInfo)
  | sessionCreated (session : SessionInfo)
  | sessionKilled (name : String)
  | sessionExited (name : String) (exitCode : Option Int)
  | sessionAttached (name : String) (attachId : Option String)
  | sessionWindows (name : String) (windows : List WindowInfo) (panes : List PaneInfo)
  | fileList (path : String) (entries : List FileEntry)
  | fileContent (path content : String) (truncated : Bool)
  | fileStat (stat : FileEntry)
  | fileWriteResult (path : String) (result : Except String Nat)
  | fileOpResult (op : FileOp) (path : String) (error : Option String)
  | paneList (panes : List PaneInfo) (windowId : String)
  | windowList (windows : List WindowInfo) (sessionName : Option String)
  | paneChanged (panes : List PaneInfo) (windowId : String)
  | windowChanged (windows : List WindowInfo) (sessionName : String)
  | paneCaptured (id content : String)
  | tmuxScrollState (state : ScrollState)
  | recordingStarted (recording : RecordingInfo)
  | recordingStopped (recording : RecordingInfo) (reason : RecordingStopReason)
  | recordingList (recordings : List RecordingInfo)
  | recordingDeleted (id : String)
  | recordingChunk (id : String) (offset : Nat) (data : String) (totalBytes : Nat) (final : Bool)

end Mtmux.Protocol
