import Mathlib.Tactic.Common

/-! Wire format of hosted pairing, of the fallback tunnel and of requested
access. A frame the schemas reject is `none` wherever a frame is received;
opaque blobs are strings that are only ever copied. -/
namespace Mtmux.Protocol

/-- Live mailboxes the broker keeps on one slot. -/
def maxPeersPerSlot : Nat := 2

/-- How long a requested pairing may sit undecided. -/
def requestTtlMs : Nat := 120000

def minCodeTtlMs : Int := 30000
def maxCodeTtlMs : Int := 300000

/-- A hosted code's deadline on the caller's clock; a duration cannot skew. -/
def codeDeadline (expiresAt : Int) (ttlMs : Option Int) (now : Int) : Int :=
  now + min (max (ttlMs.getD (expiresAt - now)) minCodeTtlMs) maxCodeTtlMs

def minProtocolVersion : Int := 2
def minPairCliVersion : String := "0.7.0"

/-- `declared` is the integer part of the version a caller states, `none` for
one that states nothing readable. -/
def meetsProtocolFloor (declared : Option Int) (floor : Int) : Bool :=
  if floor ≤ 0 then true
  else match declared with
    | none => false
    | some v => decide (floor ≤ v)

inductive SlotSpace where
  | typed | scan

structure PairClaimRequest where
  slot : String
  share : String
  ad : String
  sid : String

/- Either end to the broker, over /v1/pair/:mailboxId or /v1/claim/:claimId:
   `pair:share`, `pair:confirm` and `pair:establish` all name the peer they are
   for, a close may. -/
inductive PeerMessage where
  | share (share ad : String)
  | confirm (tag : String)
  | establish (sealedDescriptor : String)
  deriving DecidableEq

inductive PairingClientMessage where
  | toPeer (peer : String) (body : PeerMessage)
  | close (peer reason : Option String)
  deriving DecidableEq

inductive PairFailedReason where
  | expired | alreadyClaimed | confirmationFailed | peerGone | rateLimited | serverError
  deriving DecidableEq

inductive PairingServerMessage where
  | ready (mailboxId slot : String) (expiresAt : Nat)
  | peerShare (peer share ad sid : String)
  | peerConfirm (peer tag : String)
  | established (peer sealedDescriptor : String)
  | failed (peer : Option String) (reason : PairFailedReason)
  deriving DecidableEq

inductive PairDeniedReason where
  | refused | commitmentFailed | noTty | timeout | unknownRequest | agentGone | tooManyRequests
  deriving DecidableEq

inductive TunnelClosedReason where
  | agentGone | quotaExceeded | expired | revoked | serverError
  deriving DecidableEq

/- What a browser receives on /v1/request/:requestId. -/
inductive RequestServerMessage where
  | requestAck (requestId cliPublicKey : String)
  | approved (requestId sealedDescriptor : String)
  | denied (requestId : String) (reason : PairDeniedReason)
  deriving DecidableEq

/- What it sends there. -/
inductive RequestClientMessage where
  | commit (requestId commitment : String)
  | reveal (requestId browserPublicKey : String)
  deriving DecidableEq

/- Agent or browser to the broker. The three replies of requested access share
   their shape with what is forwarded to the asking browser. -/
inductive TunnelClientMessage where
  | register (deviceId publicKey challenge signature : String)
  | streamClose (streamId : String) (reason : Option String)
  | streamFrame (streamId data : String)
  | reply (message : RequestServerMessage)
  deriving DecidableEq

inductive TunnelServerMessage where
  | challenge (challenge : String)
  | ready (tunnelId : String)
  | streamOpen (streamId : String)
  | streamClose (streamId : String) (reason : Option String)
  | streamFrame (streamId data : String)
  | closed (reason : TunnelClosedReason)
  | request (requestId commitment deviceLabel accountEmail : String)
  | reveal (requestId browserPublicKey : String)
  deriving DecidableEq

/-- The messages that carry a pairing exchange, as against notices about it. -/
def PairingServerMessage.isRelay : PairingServerMessage → Bool
  | .peerShare _ _ _ _ | .peerConfirm _ _ | .established _ _ => true
  | .ready _ _ _ | .failed _ _ => false

def RequestServerMessage.requestId : RequestServerMessage → String
  | .requestAck id _ | .approved id _ | .denied id _ => id

/-- An approval or a refusal, as against the machine's key. -/
def RequestServerMessage.isDecision : RequestServerMessage → Bool
  | .requestAck _ _ => false
  | .approved _ _ | .denied _ _ => true

end Mtmux.Protocol
