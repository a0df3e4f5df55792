import Mtmux.Base.Machine
import Mtmux.Base.OrderedMap

/-! The question asked of every socket that has authenticated: may it in? Answers are shared by
device, and cover it for as long as it stays connected and a little longer. -/
namespace Mtmux.Cli

def admitGraceMs : Nat := 120000
def presenceSampleMs : Nat := 15000
def refusalGraceMs : Nat := 15000

inductive AccessTransport where
  | loopback | lan | tunnel
  deriving DecidableEq

/-- The ids of devices are minted here (`browser-…`, `local-…`), so none reads like a key the
gate uses for a socket that has no device. -/
structure DeviceId where
  val : String
  not_machine : val ≠ "machine-token"
  not_token : ∀ tokenId, val ≠ "token:" ++ tokenId

instance : DecidableEq DeviceId := fun a b =>
  decidable_of_iff (a.val = b.val) ⟨fun h => by cases a; cases b; cases h; rfl, fun h => h ▸ rfl⟩

/-- A socket that has just authenticated. -/
structure ConnectionRequest where
  tokenId : Option String
  deviceId : Option DeviceId
  label : Option String
  transport : AccessTransport
  userAgent : Option String
  deriving DecidableEq

/-- A promise of an answer: settled, or that of a question in front of a human. -/
inductive Answer where
  | settled (ok : Bool)
  | asking (question : Nat)
  deriving DecidableEq

/-- Without a moment at which it `lapses` it is open-ended. -/
structure Decision where
  answer : Answer
  lapses : Option Nat
  approved : Bool
  deriving DecidableEq

structure GateQuestion where
  id : Nat
  req : ConnectionRequest
  deriving DecidableEq

structure Waiting where
  socket : Nat
  req : ConnectionRequest
  question : Nat

/-- `live` has the sockets that were let in and are open, each with its device while the relay
knows the device behind its token; `closed` those that closed before or after. -/
structure GateState where
  now : Nat
  decided : OrderedMap String Decision
  admittedHere : List DeviceId
  asked : Nat
  standing : List GateQuestion
  waiting : List Waiting
  live : List (Nat × Option DeviceId)
  seen : List Nat
  closed : List Nat
  asks : Bool
  known : DeviceId → Bool
  nameFor : DeviceId → Option String

inductive GateEvent where
  | arrive (socket : Nat) (req : ConnectionRequest)
  | approve (deviceId : DeviceId)
  | forget (deviceId : DeviceId)
  | sample
  | answer (question : Nat) (result : Option Bool)
  | close (socket : Nat)
  | unname (socket : Nat)
  | policy (asks : Bool)
  | peers (known : DeviceId → Bool) (nameFor : DeviceId → Option String)
  | tick (ms : Nat)

inductive GateOutput where
  | ask (question : Nat) (named : String) (transport : AccessTransport)
  | verdict (socket : Nat) (ok : Bool)
  deriving DecidableEq

def keyFor (req : ConnectionRequest) : String :=
  match req.deviceId with
  | some deviceId => deviceId.val
  | none =>
    match req.tokenId.filter (· ≠ "") with
    | some tokenId => "token:" ++ tokenId
    | none => "machine-token"

namespace GateState

def connected (s : GateState) : List DeviceId := s.live.filterMap Prod.snd

def present (s : GateState) : Option DeviceId → Bool
  | none => false
  | some deviceId => s.connected.contains deviceId

def inForce (s : GateState) (r : Decision) : Bool := r.lapses.all fun lapses => decide (s.now < lapses)

def renewed (s : GateState) (r : Decision) : Decision := { r with lapses := some (s.now + admitGraceMs) }

/-- Keep the cover of a device that is still here, drop one that has lapsed. -/
def covered (s : GateState) (key : String) (deviceId : Option DeviceId) : GateState × Option Decision :=
  match s.decided.get key with
  | none => (s, none)
  | some r =>
    if r.approved && s.present deviceId then
      ({ s with decided := s.decided.set key (s.renewed r) }, some (s.renewed r))
    else if s.inForce r then (s, some r)
    else ({ s with decided := s.decided.delete key }, none)

/-- The answer reaches the relay: the socket is open then, or it has gone. -/
def resolve (s : GateState) (socket : Nat) (req : ConnectionRequest) (ok : Bool) : GateState :=
  if ok && !s.closed.contains socket then { s with live := s.live ++ [(socket, req.deviceId)] } else s

def exempt (req : ConnectionRequest) : Bool :=
  req.deviceId.isNone && req.tokenId.isNone && req.transport = .loopback

def recognised (s : GateState) (req : ConnectionRequest) : Bool :=
  match req.deviceId with
  | none => false
  | some deviceId => s.known deviceId || s.admittedHere.contains deviceId

def named (s : GateState) (req : ConnectionRequest) : String :=
  match (req.deviceId.bind s.nameFor).filter (· ≠ "") with
  | some name => name
  | none => (req.label.filter (· ≠ "")).getD "An unnamed device"

/-- The question goes in front of a human, and everybody else of the same key waits for it. -/
def ask (s : GateState) (socket : Nat) (req : ConnectionRequest) : GateState :=
  { s with
    asked := s.asked + 1
    standing := s.standing ++ [⟨s.asked, req⟩]
    waiting := s.waiting ++ [⟨socket, req, s.asked⟩]
    decided := s.decided.set (keyFor req) ⟨.asking s.asked, none, false⟩ }

/-- A socket that nothing covers. -/
def admitAnew (s : GateState) (socket : Nat) (req : ConnectionRequest) : GateState × List GateOutput :=
  if exempt req then (s.resolve socket req true, [.verdict socket true])
  else if s.recognised req && !s.asks then (s.resolve socket req true, [.verdict socket true])
  else (s.ask socket req, [.ask s.asked (s.named req) req.transport])

def admitSocket (s : GateState) (socket : Nat) (req : ConnectionRequest) : GateState × List GateOutput :=
  match s.covered (keyFor req) req.deviceId with
  | (s, none) => s.admitAnew socket req
  | (s, some r) =>
    match r.answer with
    | .settled ok => (s.resolve socket req ok, [.verdict socket ok])
    | .asking question => ({ s with waiting := s.waiting ++ [⟨socket, req, question⟩] }, [])

def approve (s : GateState) (deviceId : DeviceId) : GateState :=
  { s with
    admittedHere := deviceId :: s.admittedHere
    decided := s.decided.set deviceId.val ⟨.settled true, some (s.now + admitGraceMs), true⟩ }

def forget (s : GateState) (deviceId : DeviceId) : GateState :=
  { s with
    admittedHere := s.admittedHere.filter (· ≠ deviceId)
    decided := s.decided.delete deviceId.val }

def stamp (s : GateState) (deviceId : DeviceId) : GateState :=
  match s.decided.get deviceId.val with
  | none => s
  | some r =>
    if r.approved then { s with decided := s.decided.set deviceId.val (s.renewed r) } else s

def sampleSweep (s : GateState) : GateState := s.connected.foldl stamp s

/-- What the question's record says from now on; by then another may stand in its place. -/
def settle (s : GateState) (q : GateQuestion) (ok : Bool) : GateState :=
  match s.decided.get (keyFor q.req) with
  | none => s
  | some r =>
    if r.answer = .asking q.id then
      { s with decided := s.decided.set (keyFor q.req) ⟨.settled ok,
          some (s.now + (if ok then admitGraceMs else refusalGraceMs)), ok⟩ }
    else s

def noteAdmitted (s : GateState) (q : GateQuestion) (ok : Bool) : GateState :=
  match q.req.deviceId with
  | none => s
  | some deviceId => if ok then { s with admittedHere := deviceId :: s.admittedHere } else s

def release (s : GateState) (q : GateQuestion) (ok : Bool) : GateState × List GateOutput :=
  ((s.waiting.filter fun w => w.question = q.id).foldl (fun s w => s.resolve w.socket w.req ok)
      { s with waiting := s.waiting.filter fun w => w.question ≠ q.id },
    (s.waiting.filter fun w => w.question = q.id).map fun w => .verdict w.socket ok)

def answered (s : GateState) (q : GateQuestion) (result : Option Bool) : GateState × List GateOutput :=
  let s := { s with standing := s.standing.filter fun q' => q'.id ≠ q.id }
  match result with
  | some ok => ((s.settle q ok).noteAdmitted q ok).release q ok
  | none => { s with decided := s.decided.delete (keyFor q.req) }.release q false

def step (s : GateState) : GateEvent → GateState × List GateOutput
  | .arrive socket req =>
    if s.seen.contains socket then (s, [])
    else { s with seen := socket :: s.seen }.admitSocket socket req
  | .approve deviceId => (s.approve deviceId, [])
  | .forget deviceId => (s.forget deviceId, [])
  | .sample => (s.sampleSweep, [])
  | .answer question result =>
    match s.standing.find? fun q => q.id = question with
    | none => (s, [])
    | some q => s.answered q result
  | .close socket =>
    ({ s with
        closed := socket :: s.closed
        live := s.live.filter fun l => l.1 ≠ socket }, [])
  | .unname socket =>
    ({ s with live := s.live.map fun l => if l.1 = socket then (l.1, none) else l }, [])
  | .policy asks => ({ s with asks := asks }, [])
  | .peers known nameFor => ({ s with known := known, nameFor := nameFor }, [])
  | .tick ms => ({ s with now := s.now + ms }, [])

def start (asks : Bool) : GateState where
  now := 0
  decided := .empty
  admittedHere := []
  asked := 0
  standing := []
  waiting := []
  live := []
  seen := []
  closed := []
  asks := asks
  known _ := false
  nameFor _ := none

end GateState

def gateMachine (asks : Bool) : Machine GateState GateEvent GateOutput where
  init := .start asks
  step := GateState.step

end Mtmux.Cli
