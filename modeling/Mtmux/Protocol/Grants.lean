import Mathlib.Tactic.Common

/-! What one shared credential may do. A grant names tmux sessions by id, and keeps the name
each had when it was shared. -/
namespace Mtmux.Protocol

structure GrantSession where
  id : String
  name : String
  deriving DecidableEq

inductive GrantScope where
  | all
  | sessions (sessions : List GrantSession)
  | recordings (recordings : List String)
  deriving DecidableEq

inductive GrantFiles where
  | none | read | write
  deriving DecidableEq

/-- The times are epoch milliseconds; `tmuxServerPid` is the server the ids belong to. -/
structure GrantRecord where
  id : String
  label : String
  scope : GrantScope
  readOnly : Bool
  files : GrantFiles
  createdAt : Nat
  expiresAt : Option Nat
  revokedAt : Option Nat
  tmuxServerPid : Option Nat
  tokenHash : String
  peerDeviceId : Option String
  deriving DecidableEq

def isGrantActive (grant : GrantRecord) (now : Nat) : Bool :=
  grant.revokedAt.isNone && grant.expiresAt.all fun expiresAt => decide (now < expiresAt)

namespace GrantScope

def ids : GrantScope → List String
  | .sessions listed => listed.map GrantSession.id
  | _ => []

def names : GrantScope → List String
  | .sessions listed => listed.map GrantSession.name
  | _ => []

end GrantScope

end Mtmux.Protocol
