import Mtmux.Base.Machine
import Mtmux.Base.OrderedMap
import Mtmux.Crypto.KeySchedule
import Mtmux.Protocol.PairingMessages

/-! Requested access at the machine: its key goes out against a commitment, the reveal
consumes the entry, and a human is asked with the digits derived from both. -/
namespace Mtmux.Agent
open Protocol Crypto

/-- A requested pairing between the ack and the reveal. -/
structure PendingAccess where
  commitment : Bytes
  deviceLabel : String
  accountEmail : String
  ephemeral : EphemeralKeyPair

/-- What the human at the machine is asked to approve. -/
structure AccessRequest where
  requestId : String
  sas : String
  deviceLabel : String
  accountEmail : String
  keys : SessionKeys
  deriving DecidableEq

/-- `failed` is a handler that threw. -/
inductive AccessDecision where
  | approved (sealedDescriptor : String)
  | refused (reason : Option PairDeniedReason)
  | failed

/-- `random` is the process's draws of ephemeral secrets, `canAsk` whether there is an
`onAccessRequest`. -/
structure AccessConfig where
  P : Primitives
  random : Nat → Bytes
  canAsk : Bool

/-- `asked` has the ids whose human has been asked, by the number of the question,
until they answer. -/
structure AccessTable where
  accessRequests : OrderedMap String PendingAccess
  drawn : Nat
  asked : OrderedMap Nat String
  questions : Nat

/-- Messages of the broker, honest or not, and the humans' answers in any order. -/
inductive AccessEvent where
  | message (message : TunnelServerMessage)
  | answer (question : Nat) (decision : AccessDecision)

inductive AccessOut where
  | send (message : RequestServerMessage)
  | ask (request : AccessRequest)
  deriving DecidableEq

namespace AccessTable
variable (cfg : AccessConfig)

def create : AccessTable := ⟨OrderedMap.empty, 0, OrderedMap.empty, 0⟩

/-- `pair:request`: answered with a fresh key, having seen nothing of theirs. The schema
lets only hex through. -/
def pairRequest (a : AccessTable) (requestId commitment deviceLabel accountEmail : String) :
    AccessTable × List AccessOut :=
  match hexToBytes commitment with
  | none => (a, [])
  | some commitment =>
    let ephemeral := newEphemeralKey cfg.P (cfg.random a.drawn)
    let pending : PendingAccess := ⟨commitment, deviceLabel, accountEmail, ephemeral⟩
    ({ a with accessRequests := a.accessRequests.set requestId pending, drawn := a.drawn + 1 },
      [.send (.requestAck requestId (bytesToHex ephemeral.publicKey))])

def agreed (requestId : String) (pending : PendingAccess) (browserPublicKey : Bytes) :
    Option (SessionKeys × String) :=
  if verifySasCommitment cfg.P pending.commitment browserPublicKey requestId then
    match sasSharedSecret cfg.P pending.ephemeral.secret browserPublicKey with
    | none => none
    | some ikm =>
      let transcript := sasTranscript requestId pending.commitment browserPublicKey
        pending.ephemeral.publicKey
      some (deriveSessionKeys cfg.P ikm transcript, deriveSas cfg.P ikm transcript)
  else none

/-- Check the commitment, derive the digits, and ask. -/
def decideAccess (a : AccessTable) (requestId : String) (pending : PendingAccess)
    (browserPublicKeyHex : String) : AccessTable × List AccessOut :=
  match (hexToBytes browserPublicKeyHex).bind (agreed cfg requestId pending) with
  | none => (a, [.send (.denied requestId .commitmentFailed)])
  | some (keys, sas) =>
    -- Nobody to ask means no.
    if cfg.canAsk then
      ({ a with asked := a.asked.set a.questions requestId, questions := a.questions + 1 },
        [.ask ⟨requestId, sas, pending.deviceLabel, pending.accountEmail, keys⟩])
    else (a, [.send (.denied requestId .noTty)])

/-- `pair:reveal`: one shot a request, whatever happens next. -/
def pairReveal (a : AccessTable) (requestId browserPublicKey : String) :
    AccessTable × List AccessOut :=
  match a.accessRequests.get requestId with
  | none => (a, [])
  | some pending =>
    decideAccess cfg { a with accessRequests := a.accessRequests.delete requestId } requestId
      pending browserPublicKey

def verdict (requestId : String) : AccessDecision → RequestServerMessage
  | .approved sealedDescriptor => .approved requestId sealedDescriptor
  | .refused reason => .denied requestId (reason.getD .refused)
  | .failed => .denied requestId .refused

def step (a : AccessTable) : AccessEvent → AccessTable × List AccessOut
  | .message (.request requestId commitment deviceLabel accountEmail) =>
    pairRequest cfg a requestId commitment deviceLabel accountEmail
  | .message (.reveal requestId browserPublicKey) => pairReveal cfg a requestId browserPublicKey
  | .message _ => (a, [])
  | .answer question decision =>
    match a.asked.get question with
    | none => (a, [])
    | some requestId =>
      ({ a with asked := a.asked.delete question }, [.send (verdict requestId decision)])

def machine : Machine AccessTable AccessEvent AccessOut := ⟨create, step cfg⟩

end AccessTable
end Mtmux.Agent
