import Mtmux.Base.Machine
import Mtmux.Crypto.Frames
import Mtmux.Protocol.PairingMessages

/-! The browser's half of requested access: it commits to a key, shows the digits derived
from the machine's, and reveals. -/
namespace Mtmux.Browser
open Protocol Crypto

/-- A `WebSocket` fires no message once `close` was called on it. -/
inductive SocketState where
  | absent | connecting | opened | closed
  deriving DecidableEq

inductive AccessRequestUpdate where
  | confirm (sas : String)
  | paired (keys : SessionKeys) (descriptor : String)
  | failed (message : String) (reason : Option PairDeniedReason)

inductive AccessClientOut where
  | update (update : AccessRequestUpdate)
  | send (message : RequestClientMessage)

/-- `random` is the draw of the ephemeral secret, `unreachable` the text for an API that
cannot be reached, `parseDescriptor` the JSON schema of a descriptor. -/
structure AccessClientConfig where
  P : Primitives
  G : Gcm
  random : Bytes
  unreachable : String
  parseDescriptor : Bytes → Option String

/-- What comes of the `POST /v1/pair/request`. -/
inductive RequestResponse where
  | tooOld
  | unauthorized
  | conflict (error : Option String)
  | notOk
  | granted (requestId : String)
  | threw

inductive AccessClientEvent where
  | response (response : RequestResponse)
  | socketOpen
  | message (message : RequestServerMessage)
  | unsealed (n : Nat)
  | socketClose
  | cancel

/-- `posting` while the request is awaited; `unsealing` has the descriptors being opened,
with the keys they are opened under. -/
structure AccessClient where
  posting : Bool
  requestId : String
  socket : SocketState
  cancelled : Bool
  settled : Bool
  pending : Option SessionKeys
  unsealing : List (SessionKeys × String)

def tooOld : String :=
  "This page is out of date. Reload it — and if that does not help, update mtmux."

def describeDenial : PairDeniedReason → String
  | .refused => "The request was refused on that machine."
  | .commitmentFailed => "That machine could not verify this browser. Nothing was shared."
  | .noTty => "Nobody is at that machine to approve the request."
  | .timeout => "Nobody answered on that machine."
  | .agentGone => "That machine went offline."
  | .tooManyRequests => "Too many requests. Wait a moment."
  | .unknownRequest => "The request was not approved."

namespace AccessClient
variable (cfg : AccessClientConfig)

def create : AccessClient := ⟨true, "", .absent, false, false, none, []⟩

def ephemeral : EphemeralKeyPair := newEphemeralKey cfg.P cfg.random

def commitment (requestId : String) : Bytes :=
  sasCommitment cfg.P (ephemeral cfg).publicKey requestId

def close : SocketState → SocketState
  | .absent => .absent
  | _ => .closed

def fail (c : AccessClient) (message : String) (reason : Option PairDeniedReason) :
    AccessClient × List AccessClientOut :=
  if c.settled || c.cancelled then (c, [])
  else ({ c with settled := true, socket := close c.socket }, [.update (.failed message reason)])

/-- The keys and the digits that go with a machine's key. -/
def agreed (requestId cliPublicKeyHex : String) : Option (SessionKeys × String) :=
  match hexToBytes cliPublicKeyHex with
  | none => none
  | some cliPublicKey =>
    match sasSharedSecret cfg.P (ephemeral cfg).secret cliPublicKey with
    | none => none
    | some ikm =>
      let transcript := sasTranscript requestId (commitment cfg requestId)
        (ephemeral cfg).publicKey cliPublicKey
      some (deriveSessionKeys cfg.P ikm transcript, deriveSas cfg.P ikm transcript)

/-- `pair:request-ack`: only now is the machine's key known, and only now is ours revealed. -/
def requestAck (c : AccessClient) (cliPublicKey : String) : AccessClient × List AccessClientOut :=
  match agreed cfg c.requestId cliPublicKey with
  | none => c.fail "That machine offered an unusable key. Nothing was shared." none
  | some (keys, sas) =>
    ({ c with pending := some keys },
      [.update (.confirm sas),
        .send (.reveal c.requestId (bytesToHex (ephemeral cfg).publicKey))])

def unsealDescriptor (keys : SessionKeys) (sealedDescriptor : String) : Option String :=
  match base64UrlToBytes sealedDescriptor with
  | none => none
  | some frame => (openOnce cfg.P cfg.G keys.s2c .s2c frame .descriptor).bind cfg.parseDescriptor

def handle (c : AccessClient) : RequestServerMessage → AccessClient × List AccessClientOut
  | .denied _ reason => c.fail (describeDenial reason) (some reason)
  | .requestAck _ cliPublicKey => c.requestAck cfg cliPublicKey
  | .approved _ sealedDescriptor =>
    match c.pending with
    | none => (c, [])
    | some keys => ({ c with unsealing := c.unsealing ++ [(keys, sealedDescriptor)] }, [])

def unsealed (c : AccessClient) (keys : SessionKeys) (sealedDescriptor : String) :
    AccessClient × List AccessClientOut :=
  match unsealDescriptor cfg keys sealedDescriptor with
  | none => c.fail "Could not open the machine's reply. Try again." none
  | some descriptor =>
    if c.settled || c.cancelled then (c, [])
    else
      ({ c with settled := true, socket := close c.socket },
        c.pending.toList.map fun keys => .update (.paired keys descriptor))

def respond (c : AccessClient) : RequestResponse → AccessClient × List AccessClientOut
  | .tooOld => c.fail tooOld none
  | .unauthorized => c.fail "Sign in again, then try once more." none
  | .conflict error => c.fail (error.getD "That machine is busy. Try again in a moment.") none
  | .notOk => c.fail "Could not reach that machine. Is it online?" none
  | .threw => c.fail cfg.unreachable none
  | .granted requestId =>
    if c.cancelled then (c, []) else ({ c with requestId := requestId, socket := .connecting }, [])

def step (c : AccessClient) : AccessClientEvent → AccessClient × List AccessClientOut
  | .response response =>
    if c.posting then respond cfg { c with posting := false } response else (c, [])
  | .socketOpen =>
    if c.socket = .connecting then
      ({ c with socket := .opened },
        [.send (.commit c.requestId (bytesToHex (commitment cfg c.requestId)))])
    else (c, [])
  | .message message => if c.socket = .opened then c.handle cfg message else (c, [])
  | .unsealed n =>
    match c.unsealing[n]? with
    | none => (c, [])
    | some (keys, sealedDescriptor) =>
      unsealed cfg { c with unsealing := c.unsealing.eraseIdx n } keys sealedDescriptor
  | .socketClose =>
    if c.socket = .absent then (c, [])
    else fail { c with socket := .closed } "Lost the connection to the pairing service." none
  | .cancel => ({ c with cancelled := true, socket := close c.socket }, [])

def machine : Machine AccessClient AccessClientEvent AccessClientOut := ⟨create, step cfg⟩

end AccessClient
end Mtmux.Browser
