import Mtmux.Base.Text
import Mtmux.Relay.Connections

/-! The code that the terminal shows, and the requests that redeem it over HTTP. -/
namespace Mtmux.Relay

def maxCodeAttempts : Nat := 5

def normalizeTyped (input : String) : Option String :=
  let digits := input.toList.filter fun c => !(isSpace c || c = '-')
  if digits ≠ [] ∧ digits.all Char.isDigit = true then some (String.ofList digits) else none

/-- The one credential on the screen, in both spellings. -/
structure LocalOffer where
  nonceKey : String
  codeKey : String
  expiresAt : Nat
  wrong : Nat

inductive PairingVia where
  | scan
  | code

/-- `digest` is SHA-256 in hex. -/
def LocalOffer.resolveVia (digest : String → String) (offer : LocalOffer) (nonce code : String) : Option PairingVia :=
  if nonce ≠ "" ∧ digest nonce = offer.nonceKey then some .scan
  else
    match normalizeTyped code with
    | none => none
    | some typed => if digest typed = offer.codeKey then some .code else none

/-- A request waits for its body, or for the owner's answer. -/
inductive PairingStage where
  | reading
  | asking
  deriving DecidableEq

/-- `armed` is the offer, `requests` are those that are not answered yet. -/
structure LocalPairing where
  now : Nat
  throttle : AuthThrottle
  armed : Option LocalOffer
  requests : OrderedMap Nat PairingStage
  next : Nat

/-- The body of a request has come with these fields; one that is missing is empty. -/
inductive PairingEvent where
  | post
  | body (request : Nat) (nonce code : String)
  | answer (request : Nat) (allowed : Bool)
  | arm (nonce code : String) (ttl : Nat)
  | tick (ms : Nat)

structure PairingResponse where
  request : Nat
  status : Nat

namespace LocalPairing
variable (digest : String → String) (gate : Bool) (address : String)

def start : LocalPairing := ⟨0, .empty, none, .empty, 0⟩

def current (s : LocalPairing) : Option LocalOffer := s.armed.filter fun offer => decide (s.now < offer.expiresAt)

def arm (nonce code : String) (ttl : Nat) (s : LocalPairing) : LocalPairing :=
  match normalizeTyped code with
  | none => s
  | some digits => { s with armed := some ⟨digest nonce, digest digits, s.now + ttl, 0⟩ }

def respond (request status : Nat) (s : LocalPairing) : LocalPairing × List PairingResponse :=
  ({ s with requests := s.requests.delete request }, [⟨request, status⟩])

/-- Too early: the request is not even read. -/
def post (s : LocalPairing) : LocalPairing × List PairingResponse :=
  match s.throttle.checkAuthThrottle address s.now with
  | some _ => ({ s with next := s.next + 1 }, [⟨s.next, 429⟩])
  | none => ({ s with requests := s.requests.set s.next .reading, next := s.next + 1 }, [])

def invalid (request : Nat) (s : LocalPairing) : LocalPairing × List PairingResponse :=
  { s with throttle := s.throttle.recordAuthFailure address s.now }.respond request 401

def paired (request : Nat) (s : LocalPairing) : LocalPairing × List PairingResponse :=
  { s with throttle := s.throttle.recordAuthSuccess address }.respond request 200

/-- A wrong code is a guess; the fifth one burns the offer. A wrong nonce is not. -/
def bill (code : String) (offer : LocalOffer) (s : LocalPairing) : LocalPairing :=
  if (normalizeTyped code).isSome then
    { s with
      armed := if maxCodeAttempts ≤ offer.wrong + 1 then none else some { offer with wrong := offer.wrong + 1 } }
  else s

/-- `redeemLocalPairing`: a right credential spends the offer before the owner is asked. -/
def redeem (request : Nat) (nonce code : String) (s : LocalPairing) : LocalPairing × List PairingResponse :=
  match s.current with
  | none => { s with armed := none }.invalid address request
  | some offer =>
    match offer.resolveVia digest nonce code with
    | none => (s.bill code offer).invalid address request
    | some _ =>
      if gate then ({ s with armed := none, requests := s.requests.set request .asking }, [])
      else { s with armed := none }.paired address request

def step (s : LocalPairing) : PairingEvent → LocalPairing × List PairingResponse
  | .post => s.post address
  | .body request nonce code =>
    if s.requests.get request = some .reading then
      if nonce = "" ∧ code = "" then s.respond request 400 else s.redeem digest gate address request nonce code
    else (s, [])
  | .answer request allowed =>
    if s.requests.get request = some .asking then
      if allowed then s.paired address request else s.respond request 403
    else (s, [])
  | .arm nonce code ttl => (s.arm digest nonce code ttl, [])
  | .tick ms => ({ s with now := s.now + ms }, [])

end LocalPairing

def localPairing (digest : String → String) (gate : Bool) (address : String) :
    Machine LocalPairing PairingEvent PairingResponse :=
  ⟨.start, LocalPairing.step digest gate address⟩

end Mtmux.Relay
