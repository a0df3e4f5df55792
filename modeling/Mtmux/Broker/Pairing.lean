import Mtmux.Broker.RateLimit
import Mtmux.Broker.MailboxStore

/-! The pairing half of the broker: the two HTTP calls that open a mailbox and a
claim, and the handlers of the holder's and the claimant's sockets. A handler
runs to its end before the next event and reads the clock as one instant. -/
namespace Mtmux.Broker
open Protocol

/-- How many slots to try before reporting the broker full. -/
def slotDraws : Nat := 12

/-- Bucket key for limits that are deliberately not per-caller. -/
def globalKey : String := "*"
def slotKey (slot : String) : String := "slot:" ++ slot

/-- `rnd k` is the k-th random id the process draws. -/
structure PairingConfig where
  rnd : Nat → String
  minProtocolVersion : Int

structure ClaimPayload where
  share : String
  ad : String
  sid : String

/-- The closure of an attached socket's handlers. -/
inductive PairingHandle where
  | holder (mailboxId : String) (established : Bool)
  | claimant (claimId : String)
  deriving DecidableEq

/- `sockets` holds the sockets whose close event has not fired; a socket that an
   attach refused never gets handlers. `drawn` counts the random ids used. -/
structure Pairing where
  store : MailboxStore
  claimPayloads : OrderedMap String ClaimPayload
  mailboxLimiter : RateLimiter
  claimLimiter : RateLimiter
  slotClaimLimiter : RateLimiter
  globalClaimLimiter : RateLimiter
  sockets : OrderedMap Nat PairingHandle
  nextSocket : Nat
  drawn : Nat

/-- The request bodies as read so far: the version they declare, and what the
schema made of the rest. -/
structure PairNewBody where
  version : Option Int
  space : Option SlotSpace

structure PairClaimBody where
  version : Option Int
  parsed : Option PairClaimRequest

inductive PairingEvent where
  | pairNew (ip : String) (body : PairNewBody) (draw : SlotSpace → Nat → String) (jitter : Nat)
  | pairClaim (ip : String) (body : PairClaimBody)
  | attachMailbox (mailboxId : String)
  | attachClaim (claimId : String)
  | message (sock : Nat) (raw : Option PairingClientMessage)
  | close (sock : Nat)

namespace Pairing
variable (cfg : PairingConfig) (now : Nat)

def retryAfterSeconds (jitter : Nat) : Nat := 3 + jitter % 5

/-- Milliseconds to whole seconds, rounded up. -/
def ceilSeconds (ms : Nat) : Nat := (ms + 999) / 1000

def upgradeRequired (version : Option Int) : Option HttpResult :=
  if meetsProtocolFloor version cfg.minProtocolVersion then none
  else some
    { status := 426
      body := .upgrade "This version of mtmux is too old to pair. Run: npm i -g mtmux@latest"
        cfg.minProtocolVersion minPairCliVersion }

/-- Draw slots until a mailbox opens or the attempts run out. -/
def drawMailbox (st : MailboxStore) (id : String) (draw : Nat → String) :
    Nat → MailboxStore × Option Mailbox
  | 0 => (st, none)
  | left + 1 =>
    match st.createMailbox id (draw (slotDraws - (left + 1))) now with
    | (st, some box) => (st, some box)
    | (st, none) => drawMailbox st id draw left

def pairNew (p : Pairing) (ip : String) (body : PairNewBody) (draw : SlotSpace → Nat → String)
    (jitter : Nat) : Pairing × List PairingOut :=
  let (limiter, ok) := p.mailboxLimiter.take ip now
  if !ok then
    let (limiter, wait) := limiter.retryAfterMs ip now
    ({ p with mailboxLimiter := limiter },
      [.http ⟨429, .error "Too many pairing codes requested", some (ceilSeconds wait)⟩])
  else
    let p := { p with mailboxLimiter := limiter }
    match upgradeRequired cfg body.version with
    | some tooOld => (p, [.http tooOld])
    | none =>
      match drawMailbox now p.store (cfg.rnd p.drawn) (draw (body.space.getD .typed)) slotDraws with
      | (st, none) =>
        ({ p with store := st, drawn := p.drawn + 1 },
          [.http ⟨503, .error "Pairing is busy. Try again in a moment.",
            some (retryAfterSeconds jitter)⟩])
      | (st, some box) =>
        ({ p with store := st, drawn := p.drawn + 1 },
          [.http ⟨200, .mailbox box.id box.slot box.expiresAt (box.expiresAt - box.createdAt),
            none⟩])

def pairClaim (p : Pairing) (ip : String) (body : PairClaimBody) : Pairing × List PairingOut :=
  let (limiter, ok) := p.claimLimiter.take ip now
  if !ok then
    let (limiter, wait) := limiter.retryAfterMs ip now
    ({ p with claimLimiter := limiter },
      [.http ⟨429, .error "Too many pairing attempts", some (max 1 (ceilSeconds wait))⟩])
  else
    let p := { p with claimLimiter := limiter }
    match upgradeRequired cfg body.version with
    | some tooOld => (p, [.http tooOld])
    | none =>
      match body.parsed with
      | none => (p, [.http ⟨400, .error "Malformed claim", none⟩])
      | some req =>
        let (st, claim) := p.store.createClaim (cfg.rnd p.drawn) req.slot now
        ({ p with
            store := st
            drawn := p.drawn + 1
            claimPayloads := p.claimPayloads.set claim.id ⟨req.share, req.ad, req.sid⟩ },
          [.http ⟨200, .claim claim.id claim.expiresAt, none⟩])

/- WS /v1/pair/:mailboxId, whoever opened the mailbox. -/

def attachMailboxSocket (p : Pairing) (mailboxId : String) : Pairing × List PairingOut :=
  let sock := p.nextSocket
  let (st, found) := p.store.getMailbox mailboxId now
  let p := { p with store := st, nextSocket := sock + 1 }
  match found with
  | none =>
    (p, [.send sock (.failed none .expired), .close sock 1008 "Unknown or expired mailbox"])
  | some box =>
    if box.sink ≠ none then (p, [.close sock 1008 "Mailbox already attached"])
    else
      let (st, flushed) := p.store.attach (.mailbox mailboxId) sock
      -- Buffered messages go first, so `pair:ready` follows a claim that already arrived.
      let (st, ready) := st.deliver (.mailbox mailboxId) (.ready box.id box.slot box.expiresAt)
      ({ p with store := st, sockets := p.sockets.set sock (.holder mailboxId false) },
        flushed ++ ready)

/-- The claim a mailbox was burned by, if the two still agree. -/
def claimFor (st : MailboxStore) (box : Mailbox) : MailboxStore × Option Claim :=
  match box.claimedBy, box.peer with
  | some claimId, some peer =>
    let (st, found) := st.getClaim claimId now
    match found with
    | none => (st, none)
    | some claim => (st, if claim.peers.get peer = some box.id then some claim else none)
  | _, _ => (st, none)

def dropPeer (st : MailboxStore) (claimId peer : String) : MailboxStore :=
  st.updateClaim claimId fun claim => { claim with peers := claim.peers.delete peer }

def holderClose (p : Pairing) (sock : Nat) (box : Mailbox) (named : Option String) :
    Pairing × List PairingOut :=
  let (st, claim) := claimFor now p.store box
  let (st, told) :=
    match claim, box.peer with
    | some claim, some peer =>
      st.deliver (.claim claim.id) (.failed (some peer)
        (if named = none then .peerGone else .confirmationFailed))
    | _, _ => (st, [])
  ({ p with store := st.removeMailbox box.id }, told ++ [.close sock 1000 "Closed"])

def holderRelay (p : Pairing) (sock : Nat) (box : Mailbox) (peer : String)
    (msg : PeerMessage) : Pairing × List PairingOut :=
  if box.peer ≠ some peer then (p, [.close sock 1008 "Unknown peer"])
  else
    match claimFor now p.store box with
    | (st, none) =>
      let (st, told) := st.deliver (.mailbox box.id) (.failed (some peer) .peerGone)
      ({ p with store := st }, told)
    | (st, some claim) =>
      match msg with
      | .share share ad =>
        let sid := ((p.claimPayloads.get claim.id).map ClaimPayload.sid).getD
          "00000000000000000000000000000000"
        let (st, out) := st.deliver (.claim claim.id) (.peerShare peer share ad sid)
        ({ p with store := st }, out)
      | .confirm tag =>
        let (st, out) := st.deliver (.claim claim.id) (.peerConfirm peer tag)
        ({ p with store := st, sockets := p.sockets.set sock (.holder box.id true) }, out)
      | .establish sealedDescriptor =>
        let (st, out) := st.deliver (.claim claim.id) (.established peer sealedDescriptor)
        let st := dropPeer (st.removeMailbox box.id) claim.id peer
        ({ p with store := st, sockets := p.sockets.set sock (.holder box.id true) }, out)

def holderMessage (p : Pairing) (sock : Nat) (mailboxId : String) (raw : Option PairingClientMessage) :
    Pairing × List PairingOut :=
  match raw, p.store.boxes.get mailboxId with
  | none, _ => (p, [.close sock 1008 "Malformed message"])
  | some _, none => (p, [])
  | some (.close named _), some box => holderClose now p sock box named
  | some (.toPeer peer msg), some box => holderRelay now p sock box peer msg

/-- The holder's socket went away: before its last word the mailbox goes too,
after it only the sink is dropped. -/
def holderGone (p : Pairing) (sock : Nat) (mailboxId : String) (established : Bool) : Pairing :=
  { p with
    store := if established then p.store.updateBox mailboxId fun box => { box with sink := none }
      else p.store.removeMailbox mailboxId
    sockets := p.sockets.delete sock }

/- WS /v1/claim/:claimId, whoever quoted the slot. -/

/-- Hand the claim to each live mailbox in turn, under a fresh peer handle. -/
def fanOut (claimId : String) (payload : ClaimPayload) :
    List Mailbox → MailboxStore → Nat → MailboxStore × Nat × List PairingOut
  | [], st, drawn => (st, drawn, [])
  | box :: boxes, st, drawn =>
    let peer := cfg.rnd drawn
    match st.claimMailbox box.id claimId peer with
    | (st, false) => fanOut claimId payload boxes st (drawn + 1)
    | (st, true) =>
      let st := st.updateClaim claimId fun claim =>
        { claim with peers := claim.peers.set peer box.id }
      let (st, out) := st.deliver (.mailbox box.id)
        (.peerShare peer payload.share payload.ad payload.sid)
      let r := fanOut claimId payload boxes st (drawn + 1)
      (r.1, r.2.1, out ++ r.2.2)

def forgetClaim (p : Pairing) (claimId : String) : Pairing :=
  { p with
    store := p.store.destroyClaim claimId
    claimPayloads := p.claimPayloads.delete claimId }

def chargeBudgets (p : Pairing) (slot : String) : Pairing × Bool :=
  let (bySlot, okSlot) := p.slotClaimLimiter.take (slotKey slot) now
  let p := { p with slotClaimLimiter := bySlot }
  if !okSlot then (p, false)
  else
    let (all, okAll) := p.globalClaimLimiter.take globalKey now
    ({ p with globalClaimLimiter := all }, okAll)

def attachClaimant (p : Pairing) (sock : Nat) (claim : Claim) : Pairing × List PairingOut :=
  let (st, flushed) := p.store.attach (.claim claim.id) sock
  let p := { p with store := st.extendClaim claim.id now }
  match p.claimPayloads.get claim.id with
  | none => (p, flushed)
  | some payload =>
    let (st, live) := p.store.liveMailboxesForSlot claim.slot now
    let (st, drawn, out) := fanOut cfg claim.id payload live st p.drawn
    ({ p with store := st, drawn := drawn }, flushed ++ out)

def attachClaimSocket (p : Pairing) (claimId : String) : Pairing × List PairingOut :=
  let sock := p.nextSocket
  let (st, found) := p.store.getClaim claimId now
  let p := { p with store := st, nextSocket := sock + 1 }
  match found with
  | none => (p, [.send sock (.failed none .expired), .close sock 1008 "Unknown or expired claim"])
  | some claim =>
    if claim.sink ≠ none then (p, [.close sock 1008 "Claim already attached"])
    else
      let (p, ok) := chargeBudgets now p claim.slot
      if !ok then
        (p.forgetClaim claimId,
          [.send sock (.failed none .rateLimited), .close sock 1013 "Too many attempts"])
      else
        let (p, out) := attachClaimant cfg now p sock claim
        let peers := ((p.store.claimObjs.get claimId).map fun claim => claim.peers.size).getD 0
        if peers = 0 then
          (p.forgetClaim claimId,
            out ++ [.send sock (.failed none .peerGone),
              .close sock 1000 "Nothing waiting on that slot"])
        else ({ p with sockets := p.sockets.set sock (.claimant claimId) }, out)

def ownedMailbox (st : MailboxStore) (claimId peer : String) : MailboxStore × Option Mailbox :=
  match (st.claimObjs.get claimId).bind fun claim => claim.peers.get peer with
  | none => (st, none)
  | some mailboxId =>
    match st.getMailbox mailboxId now with
    | (st, none) => (st, none)
    | (st, some box) => (st, if box.claimedBy = some claimId then some box else none)

/-- One failed conversation: tell the mailbox owned under `peer`, then it goes. -/
def failPeer (st : MailboxStore) (claimId peer : String) : MailboxStore × List PairingOut :=
  match ownedMailbox now st claimId peer with
  | (st, none) => (st, [])
  | (st, some box) =>
    let (st, out) := st.deliver (.mailbox box.id) (.failed (some peer) .confirmationFailed)
    (st.removeMailbox box.id, out)

def claimRelay (p : Pairing) (sock : Nat) (claimId peer : String) (msg : PeerMessage) :
    Pairing × List PairingOut :=
  match ownedMailbox now p.store claimId peer with
  | (st, none) =>
    let (st, told) := st.deliver (.claim claimId) (.failed (some peer) .peerGone)
    ({ p with store := st }, told)
  | (st, some box) =>
    match msg with
    | .share _ _ => ({ p with store := st }, [.close sock 1008 "Share belongs in the claim body"])
    | .confirm tag =>
      let (st, out) := st.deliver (.mailbox box.id) (.peerConfirm peer tag)
      ({ p with store := st }, out)
    | .establish sealedDescriptor =>
      let (st, out) := st.deliver (.mailbox box.id) (.established peer sealedDescriptor)
      ({ p with store := dropPeer (st.removeMailbox box.id) claimId peer }, out)

def claimMessage (p : Pairing) (sock : Nat) (claimId : String)
    (raw : Option PairingClientMessage) : Pairing × List PairingOut :=
  match raw with
  | none => (p, [.close sock 1008 "Malformed message"])
  | some (.close (some peer) _) =>
    let (st, out) := failPeer now p.store claimId peer
    ({ p with store := dropPeer st claimId peer }, out)
  | some (.close none _) => (p.forgetClaim claimId, [.close sock 1000 "Closed"])
  | some (.toPeer peer msg) => claimRelay now p sock claimId peer msg

/-- Fail every conversation still in the routing table. -/
def failPeers (claimId : String) : List String → MailboxStore → MailboxStore × List PairingOut
  | [], st => (st, [])
  | peer :: peers, st =>
    let (st, out) := failPeer now st claimId peer
    let r := failPeers claimId peers st
    (r.1, out ++ r.2)

/-- The claimant's socket went away: every code it burned is dead, and its
holders are told. -/
def claimGone (p : Pairing) (sock : Nat) (claimId : String) : Pairing × List PairingOut :=
  let peers := ((p.store.claimObjs.get claimId).map fun claim => claim.peers.keys).getD []
  let (st, out) := failPeers now claimId peers p.store
  ({ ({ p with store := st }).forgetClaim claimId with sockets := p.sockets.delete sock }, out)

def sweepClaimPayloads (p : Pairing) : Pairing :=
  { p with claimPayloads := p.claimPayloads.filter fun claimId _ =>
      (p.store.getClaim claimId now).2.isSome }

def sweep (p : Pairing) : Pairing :=
  sweepClaimPayloads now { p with store := p.store.sweep now }

def step (p : Pairing) : PairingEvent → Pairing × List PairingOut
  | .pairNew ip body draw jitter => pairNew cfg now p ip body draw jitter
  | .pairClaim ip body => pairClaim cfg now p ip body
  | .attachMailbox mailboxId => attachMailboxSocket now p mailboxId
  | .attachClaim claimId => attachClaimSocket cfg now p claimId
  | .message sock raw =>
    match p.sockets.get sock with
    | none => (p, [])
    | some (.holder mailboxId _) => holderMessage now p sock mailboxId raw
    | some (.claimant claimId) => claimMessage now p sock claimId raw
  | .close sock =>
    match p.sockets.get sock with
    | none => (p, [])
    | some (.holder mailboxId established) => (holderGone p sock mailboxId established, [])
    | some (.claimant claimId) => claimGone now p sock claimId

end Pairing
end Mtmux.Broker
