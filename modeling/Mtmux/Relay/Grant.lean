import Mtmux.Protocol.Grants

/-! The grant attached to every authenticated connection. -/
namespace Mtmux.Relay
open Protocol

def fullGrant : GrantRecord where
  id := "grn_full"
  label := "This machine"
  scope := .all
  readOnly := false
  files := .write
  createdAt := 0
  expiresAt := none
  revokedAt := none
  tmuxServerPid := none
  tokenHash := String.ofList (List.replicate 64 '0')
  peerDeviceId := none

def isFullGrant (grant : GrantRecord) : Bool :=
  match grant.scope with
  | .all => true
  | _ => false

/-- What `allowsSession` is told about a session. -/
structure SessionRef where
  id : Option String
  name : String

/-- Matched on the session's id; on its name only when the grant was pinned against another
tmux server than the one running now. -/
def allowsSession (grant : GrantRecord) (session : SessionRef) (tmuxServerPid : Option Nat) : Bool :=
  match grant.scope with
  | .all => true
  | .sessions sessions =>
    let idMatched := match session.id with
      | none => false
      | some id => id ≠ "" && sessions.any fun s => s.id = id
    let serverChanged := grant.tmuxServerPid.isSome && tmuxServerPid.isSome &&
      grant.tmuxServerPid ≠ tmuxServerPid
    idMatched || (serverChanged && sessions.any fun s => s.name = session.name)
  | .recordings _ => false

/-- May this grant be told about an event that names this session? Never decides access. -/
def allowsSessionName (grant : GrantRecord) (name : String) : Bool :=
  match grant.scope with
  | .all => true
  | .sessions sessions => sessions.any fun s => s.name = name
  | .recordings _ => false

def allowsRecording (grant : GrantRecord) (id : String) : Bool :=
  match grant.scope with
  | .all => true
  | .sessions _ => false
  | .recordings recordings => recordings.contains id

def isRecordingsGrant (grant : GrantRecord) : Bool :=
  match grant.scope with
  | .recordings _ => true
  | _ => false

/-- The earlier of two deadlines, where none means there is no deadline. -/
def minNullable : Option Nat → Option Nat → Option Nat
  | none, b => b
  | some a, none => some a
  | some a, some b => some (min a b)

/-- Combine two grants into one no wider than either. -/
def narrower (a b : GrantRecord) : GrantRecord :=
  let files :=
    if a.files = .none ∨ b.files = .none then GrantFiles.none
    else if a.files = .read ∨ b.files = .read then .read
    else .write
  let scope :=
    match a.scope, b.scope with
    | .all, scope => scope
    | scope, .all => scope
    | .sessions listed, .sessions other =>
      GrantScope.sessions (listed.filter fun s => (other.map GrantSession.id).contains s.id)
    | .recordings listed, .recordings other => .recordings (listed.filter fun id => other.contains id)
    | .sessions _, .recordings _ => .sessions []
    | .recordings _, .sessions _ => .recordings []
  { a with
    scope := scope
    files := files
    readOnly := a.readOnly || b.readOnly
    expiresAt := minNullable a.expiresAt b.expiresAt
    revokedAt := minNullable a.revokedAt b.revokedAt }

theorem allowsSession_without_pid (grant : GrantRecord) (id name : String) :
    allowsSession grant ⟨some id, name⟩ none = true ↔ isFullGrant grant = true ∨ id ≠ "" ∧ id ∈ grant.scope.ids := by
  cases hscope : grant.scope with
  | all => simp [allowsSession, isFullGrant, hscope]
  | sessions _ | recordings _ => simp [allowsSession, isFullGrant, hscope, GrantScope.ids]

end Mtmux.Relay
