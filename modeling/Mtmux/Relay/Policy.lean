import Mtmux.Relay.TmuxManager

/-! The gate every message passes: a static table of what each kind of message needs, and one
function that asks for it. -/
namespace Mtmux.Relay
open Protocol

inductive SessionArg where
  | name | oldName

inductive FileAccess where
  | read | write
  deriving DecidableEq

/-- What a grant must satisfy for one kind of message. -/
structure Policy where
  write : Bool
  files : Option FileAccess
  paneId : Bool
  windowId : Bool
  sessionArg : Option SessionArg
  fullScopeOnly : Bool
  recordingTarget : Bool

namespace Policy

def free : Policy := ⟨false, none, false, false, none, false, false⟩
def writes : Policy := { free with write := true }
def fullScope : Policy := { writes with fullScopeOnly := true }
def file (access : FileAccess) : Policy := { free with files := some access }
def arg (field : SessionArg) : Policy := { free with sessionArg := some field }

end Policy

def recordingsGrantAllowed : ClientMessage → Bool
  | .ping _ | .recordingList | .recordingFetch .. => true
  | _ => false

def policy : ClientMessage → Policy
  | .auth _ => .free
  | .ping _ => .free
  | .sessionList => .free
  | .sessionCreate .. => .fullScope
  | .sessionAttach .. => .arg .name
  | .sessionDetach => .free
  | .sessionKill _ => { Policy.arg .name with write := true }
  | .sessionRename .. => { Policy.fullScope with sessionArg := some .oldName }
  | .sessionWindows _ => .arg .name
  | .terminalInput _ => .writes
  | .terminalResize _ => .free
  | .commandSend _ => .writes
  | .commandInterrupt => .writes
  | .commandEof => .writes
  | .commandClear => .writes
  | .commandSuspend => .writes
  | .fileList _ => .file .read
  | .fileRead _ => .file .read
  | .fileStat _ => .file .read
  | .fileWatch _ => .file .read
  | .fileUnwatch _ => .free
  | .fileWrite .. => .file .write
  | .fileCreate .. => .file .write
  | .fileMkdir _ => .file .write
  | .fileDelete _ => .file .write
  | .fileRename .. => .file .write
  | .fileUpload .. => .file .write
  | .paneList => .free
  | .paneSplit _ => .writes
  | .paneSelect _ => { Policy.writes with paneId := true }
  | .paneZoom .. => .writes
  | .paneStep _ => .writes
  | .paneResize .. => { Policy.writes with paneId := true }
  | .paneKill _ => { Policy.writes with paneId := true }
  | .paneSwap .. => { Policy.writes with paneId := true }
  | .paneCapture _ => { Policy.free with paneId := true }
  | .windowList => .free
  | .windowCreate _ => .writes
  | .windowSelect _ => { Policy.writes with windowId := true }
  | .windowStep _ => .writes
  | .windowKill _ => { Policy.writes with windowId := true }
  | .windowRename .. => { Policy.writes with windowId := true }
  | .windowLayout _ => .writes
  | .layoutRotate => .writes
  | .tmuxPrefix => .writes
  | .tmuxCopyMode => .free
  | .tmuxScroll _ => .free
  | .tmuxScrollTo _ => .free
  | .tmuxScrollState => .free
  | .tmuxExitCopyMode => .free
  | .recordingStart .. => { Policy.writes with recordingTarget := true }
  | .recordingStop _ => .writes
  | .recordingDelete _ => .writes
  | .recordingList => .free
  | .recordingFetch .. => .free
  | .deviceApprove .. => .fullScope

inductive EnforceResult where
  | ok
  | deny (code message : String)

/-- Out-of-scope sessions are not found, never denied. -/
def notFound (name : String) : EnforceResult :=
  .deny "SESSION_NOT_FOUND" ("Session \"" ++ name ++ "\" not found")

structure EnforceContext where
  grant : GrantRecord
  attachedSession : Option String
  tmuxServerPid : Option Nat

def sessionInScope (ctx : EnforceContext) (name : String) : Io Bool :=
  if isFullGrant ctx.grant then return true
  else Async.catching
    (do
      let sessions ← listSessions
      match sessions.find? fun s => s.name = name with
      | none => return false
      | some found => return allowsSession ctx.grant ⟨some found.id, found.name⟩ ctx.tmuxServerPid)
    fun _ => return false

def paneBelongs (session paneId : String) : Io Bool :=
  Async.catching
    (do
      let panes ← listPanes session none
      return panes.any fun p => p.id = paneId)
    fun _ => return false

def windowBelongs (session windowId : String) : Io Bool :=
  Async.catching
    (do
      let windows ← listWindows session
      return windows.any fun w => w.id = windowId)
    fun _ => return false

def filesEnough : Option FileAccess → GrantFiles → Bool
  | none, _ => true
  | some .read, held => held = .read || held = .write
  | some .write, held => held = .write

namespace Enforce
variable (ctx : EnforceContext) (msg : ClientMessage)

/-- The next check runs only when this one found nothing. -/
def andThen (first next : Io EnforceResult) : Io EnforceResult := do
  match ← first with
  | .ok => next
  | .deny code message => return .deny code message

/-- The checks that ask nothing of tmux. -/
def rights (now : Nat) : EnforceResult :=
  if !isGrantActive ctx.grant now then .deny "ACCESS_DENIED" "This share has expired."
  else if isRecordingsGrant ctx.grant && !recordingsGrantAllowed msg then
    .deny "ACCESS_DENIED" "This share is a recording, not a session."
  else if (policy msg).write && ctx.grant.readOnly then
    .deny "READ_ONLY" "This is a read-only session."
  else if (policy msg).fullScopeOnly && !isFullGrant ctx.grant then
    .deny "ACCESS_DENIED" "Not permitted for a shared session."
  else if filesEnough (policy msg).files ctx.grant.files then .ok
  else .deny "ACCESS_DENIED" "File access is not part of this share."

def recordingPane (target : RecordingTarget) : Io EnforceResult :=
  match target with
  | .session _ => return .ok
  | .pane name paneId =>
    if isFullGrant ctx.grant then return .ok
    else if name = "" then return .deny "NOT_ATTACHED" "No session attached"
    else do
      if ← paneBelongs name paneId then return .ok
      else return .deny "PANE_NOT_FOUND" ("Pane \"" ++ paneId ++ "\" not found")

def named (name : String) : Io EnforceResult := do
  if ← sessionInScope ctx name then return .ok else return notFound name

def recordingTarget : Io EnforceResult :=
  if (policy msg).recordingTarget then
    match msg.target with
    | none => return .ok
    | some target => andThen (named ctx target.sessionName) (recordingPane ctx target)
  else return .ok

def sessionArg : Io EnforceResult :=
  match (policy msg).sessionArg with
  | none => return .ok
  | some field =>
    let name := match field with
      | .name => msg.name
      | .oldName => msg.oldName
    match name with
    | none => return .ok
    | some name => named ctx name

def objectId : Io EnforceResult :=
  if (policy msg).paneId || (policy msg).windowId then
    match msg.id with
    | none => return .deny "INVALID_MESSAGE" "Missing target id."
    | some id =>
      match ctx.attachedSession.filter (· ≠ "") with
      | none => return .deny "NOT_ATTACHED" "No session attached"
      | some session => do
        if (policy msg).paneId then
          if ← paneBelongs session id then return .ok
          else return .deny "PANE_NOT_FOUND" ("Pane \"" ++ id ++ "\" not found")
        else
          if ← windowBelongs session id then return .ok
          else return .deny "WINDOW_NOT_FOUND" ("Window \"" ++ id ++ "\" not found")
  else return .ok

end Enforce

/-- The single gate. -/
def enforce (ctx : EnforceContext) (msg : ClientMessage) : Io EnforceResult := do
  let s ← Async.get
  Enforce.andThen (pure (Enforce.rights ctx msg s.now))
    (Enforce.andThen (Enforce.recordingTarget ctx msg)
      (Enforce.andThen (Enforce.sessionArg ctx msg) (Enforce.objectId ctx msg)))

end Mtmux.Relay
