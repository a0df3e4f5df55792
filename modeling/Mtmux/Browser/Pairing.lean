import Mtmux.Base.OrderedMap
import Mtmux.Browser.RequestAccess
import Mtmux.Crypto.CPace

/-! The browser's half of hosted pairing: its keys in both directions, and how it claims a code that
a terminal shows. -/
namespace Mtmux.Browser
open Protocol Crypto

inductive PairingFailure where
  | tooOld | tooManyCodes | tooManyAttempts | unavailable | unreachable
  | unexpected | invalid | mistyped | noMatch | tooManyPeers | unreadable | lost
  | failed (reason : PairFailedReason)
  deriving DecidableEq

inductive PairingUpdate where
  | waiting (code : String) (expiresAt : Int)
  | verifying
  | paired (keys : SessionKeys) (descriptor : String)
  | failed (failure : PairingFailure)
  deriving DecidableEq

inductive PairingOut where
  | update (update : PairingUpdate)
  | send (message : PairingClientMessage)
  deriving DecidableEq

/-- `ownAd` is the browser's label, fixed for the run; `parseDescriptor` is the JSON schema of
a descriptor. -/
structure PairingConfig (G : Type) where
  P : Primitives
  gcm : Gcm
  R : Ristretto G
  ownAd : String
  parseDescriptor : Bytes → Option String

variable {G : Type} [AddCommGroup G] [DecidableEq G] (cfg : PairingConfig G)

def unsealPairing (keys : SessionKeys) (sealedDescriptor : String) : Option String :=
  match base64UrlToBytes sealedDescriptor with
  | none => none
  | some frame =>
    (openOnce cfg.P cfg.gcm keys.s2c .s2c frame .descriptor).bind cfg.parseDescriptor

def ownTag (keys : SessionKeys) : PeerMessage :=
  .confirm (bytesToHex (confirmationTag cfg.P keys.confirm .browser))

/-- The keys of a browser that shows the code: the claimant's share leads the transcript. -/
def heldKeys (cpace : CPaceState) (share : Bytes) (ad : String) : Option SessionKeys :=
  (cpace.finish cfg.P cfg.R share ⟨utf8ToBytes cfg.ownAd, utf8ToBytes ad, false⟩).map fun isk =>
    deriveSessionKeys cfg.P isk
      (transcriptIr share (utf8ToBytes ad) cpace.share (utf8ToBytes cfg.ownAd))

def claimedKeys (cpace : CPaceState) (share : Bytes) (ad : String) : Option SessionKeys :=
  (cpace.finish cfg.P cfg.R share ⟨utf8ToBytes cfg.ownAd, utf8ToBytes ad, true⟩).map fun isk =>
    deriveSessionKeys cfg.P isk
      (transcriptIr cpace.share (utf8ToBytes cfg.ownAd) share (utf8ToBytes ad))

/- Showing a code. -/

structure StartPairing where
  posting : Bool
  slot : String
  socket : SocketState
  cancelled : Bool
  settled : Bool
  keys : Option SessionKeys
  peerHandle : Option String
  unsealing : List (SessionKeys × String)

namespace StartPairing

def fail (s : StartPairing) (failure : PairingFailure) : StartPairing × List PairingOut :=
  if s.settled || s.cancelled then (s, [])
  else ({ s with settled := true, socket := AccessClient.close s.socket },
    [.update (.failed failure)])

/-- Bind to the first peer and stay bound: a share of another means that the broker offered
the code twice. -/
def peerShare (secret : String) (scalarSeed : Bytes) (s : StartPairing) (peer : String)
    (share : Bytes) (ad : String) (sid : Bytes) : StartPairing × List PairingOut :=
  match s.peerHandle with
  | some handle => if peer = handle then (s, []) else s.fail .unexpected
  | none =>
    let s := { s with peerHandle := some peer }
    match cpaceStart cfg.P cfg.R (utf8ToBytes secret) (utf8ToBytes s.slot) sid scalarSeed with
    -- A draw of zero throws out of the handler.
    | none => (s, [.update .verifying])
    | some cpace =>
      match heldKeys cfg cpace share ad with
      | none => ((s.fail .invalid).1, .update .verifying :: (s.fail .invalid).2)
      | some keys =>
        ({ s with keys := some keys },
          [.update .verifying,
            .send (.toPeer peer (.share (bytesToHex cpace.share) cfg.ownAd)),
            .send (.toPeer peer (ownTag cfg keys))])

/-- A wrong code on the other machine gives another key; saying so destroys the mailbox. -/
def peerConfirm (s : StartPairing) (peer : String) (tag : Bytes) :
    StartPairing × List PairingOut :=
  match s.keys with
  | none => (s, [])
  | some keys =>
    if s.peerHandle ≠ some peer then (s, [])
    else if verifyConfirmation cfg.P keys.confirm .cli tag then (s, [])
    else ((s.fail .mistyped).1,
      .send (.close (some peer) (some "confirmation failed")) :: (s.fail .mistyped).2)

def handle (secret : String) (scalarSeed : Bytes) (s : StartPairing) (now : Int) :
    PairingServerMessage → StartPairing × List PairingOut
  | .ready _ _ expiresAt =>
    (s, [.update (.waiting (s.slot ++ secret) (codeDeadline expiresAt none now))])
  | .failed _ reason => s.fail (.failed reason)
  | .peerShare peer share ad sid =>
    match hexToBytes share, hexToBytes sid with
    | some share, some sid => s.peerShare cfg secret scalarSeed peer share ad sid
    | _, _ => (s, [])
  | .peerConfirm peer tag =>
    match hexToBytes tag with
    | some tag => s.peerConfirm cfg peer tag
    | none => (s, [])
  | .established _ sealedDescriptor =>
    match s.keys with
    | none => (s, [])
    | some keys => ({ s with unsealing := s.unsealing ++ [(keys, sealedDescriptor)] }, [])

end StartPairing

/- Claiming a code. -/

/-- What comes of the `POST /v1/pair/claim`. -/
inductive ClaimResponse where
  | tooOld | tooMany | notOk | threw | granted

inductive JoinEvent where
  | response (response : ClaimResponse)
  | message (message : PairingServerMessage)
  | unsealed (n : Nat)
  | grace
  | socketClose
  | cancel

structure JoinPairing where
  posting : Bool
  socket : SocketState
  cancelled : Bool
  settled : Bool
  graceTimer : Bool
  attempts : OrderedMap String SessionKeys
  outstanding : Int
  seen : Nat
  unsealing : List (SessionKeys × String)

namespace JoinPairing

def create : JoinPairing := ⟨true, .absent, false, false, false, OrderedMap.empty, 0, 0, []⟩

def claimRequest (slot : String) (cpace : CPaceState) : PairClaimRequest :=
  ⟨slot, bytesToHex cpace.share, cfg.ownAd, bytesToHex cpace.sid⟩

def fail (j : JoinPairing) (failure : PairingFailure) : JoinPairing × List PairingOut :=
  if j.settled || j.cancelled then (j, [])
  else ({ j with settled := true, graceTimer := false, socket := AccessClient.close j.socket },
    [.update (.failed failure)])

def ruleOut (j : JoinPairing) (peer : String) : JoinPairing × List PairingOut :=
  let j := { j with attempts := j.attempts.delete peer, outstanding := j.outstanding - 1 }
  if j.seen = 0 ∨ 0 < j.outstanding then (j, [])
  else if maxPeersPerSlot ≤ j.seen then j.fail .noMatch
  else ({ j with graceTimer := true }, [])

def giveUpOn (j : JoinPairing) (peer reason : String) : JoinPairing × List PairingOut :=
  ((j.ruleOut peer).1, .send (.close (some peer) (some reason)) :: (j.ruleOut peer).2)

def peerShare (cpace : CPaceState) (j : JoinPairing) (peer : String) (share : Bytes)
    (ad : String) : JoinPairing × List PairingOut :=
  if j.attempts.has peer then (j, [])
  else
    let j := { j with graceTimer := false, seen := j.seen + 1 }
    if maxPeersPerSlot < j.seen then j.fail .tooManyPeers
    else
      let j := { j with outstanding := j.outstanding + 1 }
      match claimedKeys cfg cpace share ad with
      | none => j.giveUpOn peer "invalid share"
      | some keys => ({ j with attempts := j.attempts.set peer keys }, [])

def peerConfirm (j : JoinPairing) (peer : String) (tag : Bytes) : JoinPairing × List PairingOut :=
  match j.attempts.get peer with
  | none => (j, [])
  | some keys =>
    if verifyConfirmation cfg.P keys.confirm .cli tag then
      (j, [.send (.toPeer peer (ownTag cfg keys))])
    else j.giveUpOn peer "confirmation failed"

def handle (cpace : CPaceState) (j : JoinPairing) :
    PairingServerMessage → JoinPairing × List PairingOut
  | .ready _ _ _ => (j, [])
  | .failed (some peer) _ => j.ruleOut peer
  | .failed none reason => j.fail (.failed reason)
  | .peerShare peer share ad _ =>
    match hexToBytes share with
    | some share => j.peerShare cfg cpace peer share ad
    | none => (j, [])
  | .peerConfirm peer tag =>
    match hexToBytes tag with
    | some tag => j.peerConfirm cfg peer tag
    | none => (j, [])
  | .established peer sealedDescriptor =>
    match j.attempts.get peer with
    | none => (j, [])
    | some keys => ({ j with unsealing := j.unsealing ++ [(keys, sealedDescriptor)] }, [])

def unsealed (j : JoinPairing) (keys : SessionKeys) (sealedDescriptor : String) :
    JoinPairing × List PairingOut :=
  match unsealPairing cfg keys sealedDescriptor with
  | none => j.fail .unreadable
  | some descriptor =>
    if j.settled || j.cancelled then (j, [])
    else ({ j with settled := true, socket := AccessClient.close j.socket },
      [.update (.paired keys descriptor)])

def respond (j : JoinPairing) : ClaimResponse → JoinPairing × List PairingOut
  | .tooOld => j.fail .tooOld
  | .tooMany => j.fail .tooManyAttempts
  | .notOk => j.fail .unavailable
  | .threw => j.fail .unreachable
  | .granted => if j.cancelled then (j, []) else ({ j with socket := .opened }, [])

def step (cpace : CPaceState) (j : JoinPairing) : JoinEvent → JoinPairing × List PairingOut
  | .response response =>
    if j.posting then respond { j with posting := false } response else (j, [])
  | .message message => if j.socket = .opened then j.handle cfg cpace message else (j, [])
  | .unsealed n =>
    match j.unsealing[n]? with
    | none => (j, [])
    | some (keys, sealedDescriptor) =>
      unsealed cfg { j with unsealing := j.unsealing.eraseIdx n } keys sealedDescriptor
  | .grace => if j.graceTimer then j.fail .noMatch else (j, [])
  | .socketClose => if j.socket = .absent then (j, []) else fail { j with socket := .closed } .lost
  | .cancel => ({ j with cancelled := true, socket := AccessClient.close j.socket }, [])

def joinPairing (cpace : CPaceState) : Machine JoinPairing JoinEvent PairingOut :=
  ⟨create, step cfg cpace⟩

end JoinPairing
end Mtmux.Browser
