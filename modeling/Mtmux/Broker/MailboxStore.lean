import Mtmux.Base.OrderedMap
import Mtmux.Protocol.PairingMessages

/-! Pending pairings: mailboxes indexed by slot, claims, and the delivery of
broker messages to whichever end has attached. -/
namespace Mtmux.Broker
open Protocol

def mailboxTtlMs : Nat := 3 * 60 * 1000
def maxMailboxesPerSlot : Nat := maxPeersPerSlot
def maxLiveMailboxes : Nat := 10000
def claimAttachTtlMs : Nat := 15 * 1000

/-- Cap on buffered messages per target. -/
def maxPending : Nat := 16

/-- `sink` is the socket whose `send` the sink closes over. -/
structure Mailbox where
  id : String
  slot : String
  createdAt : Nat
  expiresAt : Nat
  claimedBy : Option String
  peer : Option String
  sink : Option Nat
  pending : List PairingServerMessage

/-- `peers` maps a peer handle to the mailbox it was minted for. -/
structure Claim where
  id : String
  slot : String
  createdAt : Nat
  expiresAt : Nat
  sink : Option Nat
  pending : List PairingServerMessage
  peers : OrderedMap String String

inductive Target where
  | mailbox (id : String)
  | claim (id : String)
  deriving DecidableEq

/-- An answer to an HTTP call. -/
inductive HttpBody where
  | error (text : String)
  | upgrade (text : String) (minProtocol : Int) (minCli : String)
  | mailbox (mailboxId slot : String) (expiresAt ttlMs : Nat)
  | claim (claimId : String) (expiresAt : Nat)
  | request (requestId : String) (expiresAt : Nat)
  deriving DecidableEq

structure HttpResult where
  status : Nat
  body : HttpBody
  retryAfter : Option Nat := none
  deriving DecidableEq

/- What the pairing half does to the world. `handed` is one successful
   `deliver`: to the attached socket `via`, or into the buffer when `via` is
   `none`; `flushed` is a buffered message leaving the buffer at `attach`;
   `send` and `close` are a handler's own calls on its socket. -/
inductive PairingOut where
  | handed (target : Target) (via : Option Nat) (message : PairingServerMessage)
  | flushed (target : Target) (sock : Nat) (message : PairingServerMessage)
  | send (sock : Nat) (message : PairingServerMessage)
  | close (sock : Nat) (code : Nat) (reason : String)
  | http (result : HttpResult)
  deriving DecidableEq

/- Socket handlers hold on to a mailbox or a claim after the store has let go of
   it, so every object ever made stays in `boxes` or `claimObjs`, and the two
   maps of the store are the ids they list. Ids are never drawn twice, hence an
   id stands for its object. -/
structure MailboxStore where
  ttlMs : Nat
  boxes : OrderedMap String Mailbox
  mailboxes : List String
  bySlot : OrderedMap String (List String)
  claimObjs : OrderedMap String Claim
  claims : List String

def expired (expiresAt now : Nat) : Bool := decide (expiresAt ≤ now)

namespace MailboxStore

def create (ttlMs : Nat) : MailboxStore :=
  ⟨ttlMs, OrderedMap.empty, [], OrderedMap.empty, OrderedMap.empty, []⟩

def stored (st : MailboxStore) (id : String) : Option Mailbox :=
  if id ∈ st.mailboxes then st.boxes.get id else none

def removeMailbox (st : MailboxStore) (id : String) : MailboxStore :=
  match st.stored id with
  | none => st
  | some box =>
    { st with
      mailboxes := st.mailboxes.filter (· ≠ id)
      bySlot :=
        match st.bySlot.get box.slot with
        | none => st.bySlot
        | some ids =>
          if ids.filter (· ≠ id) = [] then st.bySlot.delete box.slot
          else st.bySlot.set box.slot (ids.filter (· ≠ id)) }

/-- The loop that `createMailbox` and `liveMailboxesForSlot` share: expire what
has timed out, keep the live ones in order. -/
def scanSlot (st : MailboxStore) (now : Nat) : List String → MailboxStore × List Mailbox
  | [] => (st, [])
  | id :: ids =>
    match st.stored id with
    | none => scanSlot (st.removeMailbox id) now ids
    | some box =>
      if expired box.expiresAt now then scanSlot (st.removeMailbox id) now ids
      else
        let r := scanSlot st now ids
        (r.1, box :: r.2)

def createMailbox (st : MailboxStore) (id slot : String) (now : Nat) :
    MailboxStore × Option Mailbox :=
  let r := st.scanSlot now ((st.bySlot.get slot).getD [])
  if maxMailboxesPerSlot ≤ r.2.length then (r.1, none)
  else if maxLiveMailboxes ≤ r.1.mailboxes.length then (r.1, none)
  else
    let box : Mailbox := ⟨id, slot, now, now + r.1.ttlMs, none, none, none, []⟩
    ({ r.1 with
        boxes := r.1.boxes.set id box
        mailboxes := r.1.mailboxes ++ [id]
        bySlot := r.1.bySlot.set slot (((r.1.bySlot.get slot).getD []) ++ [id]) }, some box)

def getMailbox (st : MailboxStore) (id : String) (now : Nat) : MailboxStore × Option Mailbox :=
  match st.stored id with
  | none => (st, none)
  | some box => if expired box.expiresAt now then (st.removeMailbox id, none) else (st, some box)

def liveMailboxesForSlot (st : MailboxStore) (slot : String) (now : Nat) :
    MailboxStore × List Mailbox :=
  let r := st.scanSlot now ((st.bySlot.get slot).getD [])
  (r.1, r.2.filter fun box => box.claimedBy = none)

/-- Spend the guess: bind a mailbox to a claim, once and only once. -/
def claimMailbox (st : MailboxStore) (id claimId peer : String) : MailboxStore × Bool :=
  match st.boxes.get id with
  | none => (st, false)
  | some box =>
    if box.claimedBy ≠ none then (st, false)
    else
      ({ st with boxes := st.boxes.set id { box with claimedBy := some claimId, peer := some peer } },
        true)

def createClaim (st : MailboxStore) (id slot : String) (now : Nat) : MailboxStore × Claim :=
  let claim : Claim := ⟨id, slot, now, now + claimAttachTtlMs, none, [], OrderedMap.empty⟩
  ({ st with claimObjs := st.claimObjs.set id claim, claims := st.claims ++ [id] }, claim)

def storedClaim (st : MailboxStore) (id : String) : Option Claim :=
  if id ∈ st.claims then st.claimObjs.get id else none

def destroyClaim (st : MailboxStore) (id : String) : MailboxStore :=
  { st with claims := st.claims.filter (· ≠ id) }

def getClaim (st : MailboxStore) (id : String) (now : Nat) : MailboxStore × Option Claim :=
  match st.storedClaim id with
  | none => (st, none)
  | some claim => if expired claim.expiresAt now then (st.destroyClaim id, none) else (st, some claim)

def updateClaim (st : MailboxStore) (id : String) (f : Claim → Claim) : MailboxStore :=
  { st with claimObjs := st.claimObjs.modify id f }

def updateBox (st : MailboxStore) (id : String) (f : Mailbox → Mailbox) : MailboxStore :=
  { st with boxes := st.boxes.modify id f }

def extendClaim (st : MailboxStore) (id : String) (now : Nat) : MailboxStore :=
  st.updateClaim id fun claim => { claim with expiresAt := now + st.ttlMs }

def inbox (st : MailboxStore) : Target → Option (Option Nat × List PairingServerMessage)
  | .mailbox id => (st.boxes.get id).map fun box => (box.sink, box.pending)
  | .claim id => (st.claimObjs.get id).map fun claim => (claim.sink, claim.pending)

def setInbox (st : MailboxStore) (target : Target) (sink : Option Nat)
    (pending : List PairingServerMessage) : MailboxStore :=
  match target with
  | .mailbox id => st.updateBox id fun box => { box with sink := sink, pending := pending }
  | .claim id => st.updateClaim id fun claim => { claim with sink := sink, pending := pending }

/-- Deliver to a sink, buffering if the socket has not attached yet. -/
def deliver (st : MailboxStore) (target : Target) (message : PairingServerMessage) :
    MailboxStore × List PairingOut :=
  match st.inbox target with
  | none => (st, [])
  | some (some sock, _) => (st, [.handed target (some sock) message])
  | some (none, pending) =>
    if pending.length < maxPending then
      (st.setInbox target none (pending ++ [message]), [.handed target none message])
    else (st, [])

def attach (st : MailboxStore) (target : Target) (sock : Nat) : MailboxStore × List PairingOut :=
  match st.inbox target with
  | none => (st, [])
  | some (_, pending) =>
    (st.setInbox target (some sock) [], pending.map fun message => .flushed target sock message)

def sweep (st : MailboxStore) (now : Nat) : MailboxStore :=
  let st := (st.mailboxes.filter fun id =>
    match st.boxes.get id with
    | none => false
    | some box => expired box.expiresAt now).foldl removeMailbox st
  { st with claims := st.claims.filter fun id =>
      match st.claimObjs.get id with
      | none => true
      | some claim => !expired claim.expiresAt now }

end MailboxStore
end Mtmux.Broker
