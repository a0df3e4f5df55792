import Mtmux.Base.Machine
import Mtmux.Base.OrderedMap
import Mtmux.Crypto.KeySchedule
import Mtmux.Protocol.PairingMessages

/-! The CLI's half of a pairing exchange, once a socket to the broker is open: several peers
may answer, each with its own keys, and the one whose tag verifies is let in. -/
namespace Mtmux.Cli
open Protocol Crypto

/-- A `pair:peer-share`, its hex read. -/
structure PeerShare where
  peer : String
  share : Bytes
  ad : String
  sid : Bytes

/-- One exchange with a single candidate peer. -/
structure Attempt where
  peer : String
  ownShare : Bytes
  keys : SessionKeys
  peerAd : String

inductive Derived where
  | attempt (attempt : Attempt)
  | reject (reason : String)

/-- `mailbox` answers a peer's first share, `claim` has sent its own beforehand. -/
inductive ExchangeSide where
  | claim | mailbox
  deriving DecidableEq

structure PairingResult where
  keys : SessionKeys
  peerLabel : String
  deriving DecidableEq

/-- The ways a run ends badly; `aborted` is the caller's. -/
inductive ExchangeFailure where
  | noMatch | timedOut | lost | tooManyPeers
  | failed (reason : PairFailedReason)
  | sealing (message : String)
  | aborted
  deriving DecidableEq

/-- `derive` is given how often it was called before, since a holder draws a scalar at each
call; it answers for the peer that asked. `admits` says whether there is an `admit`. -/
structure ExchangeOptions where
  P : Primitives
  side : ExchangeSide
  maxPeers : Option Nat
  derive : Nat → PeerShare → Derived
  derive_peer : ∀ n msg attempt, derive n msg = .attempt attempt → attempt.peer = msg.peer
  admits : Bool

inductive ConfirmStage where
  | admitting | sealing

/-- A `handlePeerConfirm` whose tag verified, suspended at `admit` or at `seal`. -/
structure Confirm where
  peer : String
  attempt : Attempt
  stage : ConfirmStage

structure Exchange where
  attempts : OrderedMap String Attempt
  settled : Bool
  outstanding : Int
  seen : Nat
  graceTimer : Bool
  derived : Nat
  confirms : OrderedMap Nat Confirm
  calls : Nat

/-- Messages of the broker, honest or not, answers of `admit` and `seal` in any order
(`none` is a gate that threw), the two timers, the caller's abort and the socket's end. -/
inductive ExchangeEvent where
  | message (message : PairingServerMessage)
  | admitted (call : Nat) (answer : Option Bool)
  | sealed (call : Nat) (result : Except String Bytes)
  | timeout
  | grace
  | abort
  | socketClose

inductive ExchangeOut where
  | send (message : PairingClientMessage)
  | ask (call : Nat) (peer label : String)
  | sealFor (call : Nat) (keys : SessionKeys)
  | close
  | reject (failure : ExchangeFailure)
  | resolve (result : PairingResult)
  deriving DecidableEq

namespace Exchange
variable (opts : ExchangeOptions)

def create : Exchange := ⟨OrderedMap.empty, false, 0, 0, false, 0, OrderedMap.empty, 0⟩

def finish (x : Exchange) (outcome : ExchangeOut) : Exchange × List ExchangeOut :=
  if x.settled then (x, []) else ({ x with settled := true }, [.close, outcome])

/-- This peer cannot be the one. When the last that answered is gone, and as many have
answered as may, the code was wrong; else a timer waits for stragglers. -/
def ruleOut (x : Exchange) (peer : String) : Exchange × List ExchangeOut :=
  let x := { x with attempts := x.attempts.delete peer, outstanding := x.outstanding - 1 }
  if x.seen = 0 ∨ 0 < x.outstanding then (x, [])
  else if ∃ m ∈ opts.maxPeers, m ≤ x.seen then x.finish (.reject .noMatch)
  else ({ x with graceTimer := true }, [])

def giveUpOn (x : Exchange) (peer reason : String) : Exchange × List ExchangeOut :=
  ((x.ruleOut opts peer).1, .send (.close (some peer) (some reason)) :: (x.ruleOut opts peer).2)

def ownConfirm (attempt : Attempt) : ExchangeOut :=
  .send (.toPeer attempt.peer
    (.confirm (bytesToHex (confirmationTag opts.P attempt.keys.confirm .cli))))

def adCli : String := "cli"

def handlePeerShare (x : Exchange) (msg : PeerShare) : Exchange × List ExchangeOut :=
  if x.attempts.has msg.peer then (x, [])
  else
    -- A straggler arrived, so "everyone has been ruled out" was wrong.
    let x := { x with graceTimer := false, seen := x.seen + 1 }
    if ∃ m ∈ opts.maxPeers, m < x.seen then x.finish (.reject .tooManyPeers)
    else
      let y := { x with outstanding := x.outstanding + 1, derived := x.derived + 1 }
      match opts.derive x.derived msg with
      | .reject reason => y.giveUpOn opts msg.peer reason
      | .attempt attempt =>
        ({ y with attempts := y.attempts.set attempt.peer attempt },
          match opts.side with
          | .mailbox =>
            [.send (.toPeer attempt.peer (.share (bytesToHex attempt.ownShare) adCli)),
              ownConfirm opts attempt]
          | .claim => [])

def peerLabel (attempt : Attempt) : String :=
  if attempt.peerAd = "" then "browser" else attempt.peerAd

def handlePeerConfirm (x : Exchange) (peer : String) (tag : Bytes) : Exchange × List ExchangeOut :=
  match x.attempts.get peer with
  | none => (x, [])
  | some attempt =>
    if verifyConfirmation opts.P attempt.keys.confirm .browser tag then
      let stage : ConfirmStage := if opts.admits then .admitting else .sealing
      ({ x with confirms := x.confirms.set x.calls ⟨peer, attempt, stage⟩, calls := x.calls + 1 },
        (match opts.side with
          | .claim => [ownConfirm opts attempt]
          | .mailbox => []) ++
        [if opts.admits then .ask x.calls peer (peerLabel attempt)
          else .sealFor x.calls attempt.keys])
    else x.giveUpOn opts peer "confirmation failed"

/-- A gate that threw is not a yes. -/
def admitted (x : Exchange) (call : Nat) (answer : Option Bool) : Exchange × List ExchangeOut :=
  match x.confirms.get call with
  | some ⟨peer, attempt, .admitting⟩ =>
    if x.settled then ({ x with confirms := x.confirms.delete call }, [])
    else if answer = some true then
      ({ x with confirms := x.confirms.set call ⟨peer, attempt, .sealing⟩ },
        [.sealFor call attempt.keys])
    else giveUpOn opts { x with confirms := x.confirms.delete call } peer "refused at the machine"
  | _ => (x, [])

def sealed (x : Exchange) (call : Nat) (result : Except String Bytes) :
    Exchange × List ExchangeOut :=
  match x.confirms.get call with
  | some ⟨peer, attempt, .sealing⟩ =>
    let y := { x with confirms := x.confirms.delete call }
    match result with
    | .error message => y.finish (.reject (.sealing message))
    | .ok blob =>
      if x.settled then (y, [])
      else
        ((y.finish (.resolve ⟨attempt.keys, peerLabel attempt⟩)).1,
          .send (.toPeer peer (.establish (bytesToBase64Url blob))) ::
            (y.finish (.resolve ⟨attempt.keys, peerLabel attempt⟩)).2)
  | _ => (x, [])

/-- A failure that names a peer retires one conversation, one that names none is about the
socket. The schema lets only hex through. -/
def handle (x : Exchange) : PairingServerMessage → Exchange × List ExchangeOut
  | .ready _ _ _ => (x, [])
  | .failed (some peer) _ => x.ruleOut opts peer
  | .failed none reason => x.finish (.reject (.failed reason))
  | .peerShare peer share ad sid =>
    match hexToBytes share, hexToBytes sid with
    | some share, some sid => x.handlePeerShare opts ⟨peer, share, ad, sid⟩
    | _, _ => (x, [])
  | .peerConfirm peer tag =>
    match hexToBytes tag with
    | some tag => x.handlePeerConfirm opts peer tag
    | none => (x, [])
  | .established _ _ => (x, [])

def step (x : Exchange) : ExchangeEvent → Exchange × List ExchangeOut
  | .message message => x.handle opts message
  | .admitted call answer => x.admitted opts call answer
  | .sealed call result => x.sealed call result
  | .timeout => x.finish (.reject .timedOut)
  | .grace => if x.graceTimer then x.finish (.reject .noMatch) else (x, [])
  | .abort => x.finish (.reject .aborted)
  | .socketClose => x.finish (.reject .lost)

def runExchange : Machine Exchange ExchangeEvent ExchangeOut := ⟨create, step opts⟩

end Exchange
end Mtmux.Cli
