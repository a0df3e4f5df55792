import Mathlib.Data.Rat.Floor
import Mtmux.Cli.PairingExchange

/-! The codes that `mtmux start` shows: a typed one and one behind the QR, each hosted in a mailbox
of its own and armed again when it is spent. -/
namespace Mtmux.Cli

inductive Half where
  | typed | scan
  deriving DecidableEq

def Half.other : Half → Half
  | .typed => .scan
  | .scan => .typed

theorem Half.eq_other {half half' : Half} (h : half' ≠ half) : half' = half.other := by
  cases half <;> cases half' <;> simp [Half.other] at h ⊢

inductive PairingErrorKind where
  | expired | noMatch | lost | tooManyPeers | failed
  deriving DecidableEq

/-- The kinds `hostPairing` gives its errors; where it gives none it is the default. -/
def ExchangeFailure.kind : ExchangeFailure → PairingErrorKind
  | .noMatch => .noMatch
  | .timedOut => .expired
  | .lost => .lost
  | .tooManyPeers | .failed _ | .sealing _ | .aborted => .failed

/-- Failures of each kind since the last completed pairing. -/
structure RearmState where
  expiries : Nat
  wrong : Nat
  lost : Nat

def noFailures : RearmState := ⟨0, 0, 0⟩

structure RearmLimits where
  expiries : Nat
  wrong : Nat
  lost : Nat

def rearmLimits : RearmLimits := ⟨5, 8, 20⟩

/-- A failure of the scan half is never a guess. -/
def limitsFor : Half → RearmLimits
  | .typed => rearmLimits
  | .scan => { rearmLimits with wrong := 20 }

/-- Delay before the code that follows the nth wrong one. -/
def wrongBackoffMs : List Nat := [0, 0, 0, 5000, 15000, 45000, 120000, 120000]

def guessingAt : Nat := 4
def rearmRetryMs : Nat := 10000

inductive RearmWarning where
  | wrongCode | guessing | brokerMisbehaving
  deriving DecidableEq

structure RearmDecision where
  rearm : Bool
  state : RearmState
  delayMs : Nat
  warn : Option RearmWarning

/-- Whether to mint another code after a failure. An error of no kind is a dropped socket. -/
def rearmDecision (err : Option PairingErrorKind) (state : RearmState) (max : RearmLimits)
    (jitter : ℚ) : RearmDecision :=
  match err.getD .lost with
  | .expired =>
    { rearm := decide (state.expiries + 1 < max.expiries)
      state := { state with expiries := state.expiries + 1 }
      delayMs := 0
      warn := none }
  | .noMatch | .failed =>
    { rearm := decide (state.wrong + 1 < max.wrong)
      state := { state with wrong := state.wrong + 1 }
      delayMs := wrongBackoffMs.getD state.wrong 120000
      warn := some (if guessingAt ≤ state.wrong + 1 then .guessing else .wrongCode) }
  | .lost =>
    { rearm := decide (state.lost + 1 < max.lost)
      state := { state with lost := state.lost + 1 }
      delayMs := (((min (1000 * 2 ^ (state.lost + 1)) 30000 : Nat) : ℚ) * (1 / 2 + jitter * (1 / 2)) +
        1 / 2).floor.toNat
      warn := none }
  | .tooManyPeers =>
    { rearm := false
      state := state
      delayMs := 0
      warn := some .brokerMisbehaving }

inductive RearmReason where
  | paired | expired | wrongCode | lost
  deriving DecidableEq

def failureKindReason (err : Option PairingErrorKind) : RearmReason :=
  if err = some .expired then .expired else .lost

/-- A code in its mailbox. `settled` is how its exchange ended, and `heard` says that the loop's
handler has been called with it. -/
structure HostedPairing where
  half : Half
  round : Nat
  code : String
  cancelled : Bool
  settled : Option (Except ExchangeFailure PairingResult)
  heard : Bool

/-- Can the code still be claimed? -/
def HostedPairing.standing (p : HostedPairing) : Bool := !p.cancelled && p.settled.isNone

inductive ArmCause where
  | boot | paired | rearm
  deriving DecidableEq

/-- Who waits for an arming call: a round that arms both halves, nobody any more since the other
half's call failed, or the handler of a failure, with the round it belongs to. -/
inductive ArmOrigin where
  | whole (first : Nat) (cause : ArmCause)
  | orphan
  | again (round : Nat) (reason : RearmReason)
  deriving DecidableEq

/-- An `armHalf` that waits for `hostPairing`. It read the round before. -/
structure ArmCall where
  half : Half
  round : Nat
  origin : ArmOrigin

structure RearmTimer where
  half : Half
  round : Nat
  reason : RearmReason
  delayMs : Nat

/-- Where the handler of a completed pairing waits. -/
inductive HandlerStage where
  | registering | addingGrant | addingPeer
  deriving DecidableEq

structure ArmingState where
  round : Nat
  failures : Half → RearmState
  live : Half → Option Nat
  hosted : OrderedMap Nat HostedPairing
  calls : OrderedMap Nat ArmCall
  pending : OrderedMap Nat RearmTimer
  handlers : OrderedMap Nat HandlerStage
  next : Nat

structure PairingInvite where
  code : Option String
  url : Option String
  deriving DecidableEq

inductive ArmingEvent where
  | answers (call : Nat) (code : Option String)
  | settles (id : Nat) (outcome : Except ExchangeFailure PairingResult)
  | hears (id : Nat) (jitter : ℚ)
  | registered (id : Nat) (ok : Bool)
  | stored (id : Nat) (ok : Bool) (jitter : ℚ)
  | fires (timer : Nat)
  | rearm

/-- `establish` is the descriptor that the exchange sends as it ends well. -/
inductive ArmingOutput where
  | hostPairing (half : Half)
  | establish (id : Nat)
  | cancelled (id : Nat)
  | register (id : Nat)
  | notShared (id : Nat)
  | addSessionKeys (id : Nat)
  | approve (id : Nat)
  | addGrant (id : Nat)
  | addPeer (id : Nat)
  | paired (id : Nat)
  | warned (half : Half) (warning : RearmWarning) (wrong delayMs : Nat)
  | idle
  | couldNotArm (half : Half)
  | invited (invite : PairingInvite)
  | rearmed (invite : PairingInvite) (reason : RearmReason)
  deriving DecidableEq

/-- What the loop is started with: where the app is, and whether its codes are shares. -/
structure HostingOptions where
  appOrigin : String
  grants : Bool

def joinUrl (appOrigin code : String) : String := appOrigin ++ "/j#" ++ code

abbrev ArmingStep : Type := ArmingState × List ArmingOutput

namespace ArmingState
variable (opts : HostingOptions)

def andThen (r : ArmingStep) (f : ArmingState → ArmingStep) : ArmingStep :=
  ((f r.1).1, r.2 ++ (f r.1).2)

def codeOf (s : ArmingState) (half : Half) : Option String :=
  (s.live half).bind fun id => (s.hosted.get id).map HostedPairing.code

def inviteNow (s : ArmingState) : PairingInvite where
  code := s.codeOf .typed
  url := (s.codeOf .scan).map (joinUrl opts.appOrigin)

def armHalf (s : ArmingState) (half : Half) (origin : ArmOrigin) : ArmingStep :=
  ({ s with calls := s.calls.set s.next ⟨half, s.round, origin⟩, next := s.next + 1 },
    [.hostPairing half])

def armRound (s : ArmingState) (cause : ArmCause) : ArmingStep :=
  andThen (s.armHalf .typed (.whole s.next cause)) fun t => t.armHalf .scan (.whole s.next cause)

def scheduleRearm (s : ArmingState) (half : Half) (round : Nat) (reason : RearmReason)
    (delayMs : Nat) : ArmingStep :=
  if delayMs = 0 then s.armHalf half (.again round reason)
  else
    ({ s with pending := s.pending.set s.next ⟨half, round, reason, delayMs⟩, next := s.next + 1 },
      [])

/-- Tell the broker, and settle the exchange if it has not ended. -/
def cancel (s : ArmingState) (id : Nat) : ArmingStep :=
  match s.hosted.get id with
  | none => (s, [])
  | some p =>
    if p.cancelled then (s, [])
    else
      let p := { p with cancelled := true, settled := some (p.settled.getD (.error .aborted)) }
      ({ s with hosted := s.hosted.set id p }, [.cancelled id])

def cancelLive (s : ArmingState) (half : Half) : ArmingStep :=
  match s.live half with
  | none => (s, [])
  | some id => s.cancel id

/-- What follows an arming that worked; a round waits for both of its halves. -/
def announce (s : ArmingState) : ArmOrigin → List ArmingOutput
  | .again _ reason => [.rearmed (s.inviteNow opts) reason]
  | .orphan => []
  | .whole first cause =>
    if s.calls.values.any fun c => c.origin = .whole first cause then []
    else
      match cause with
      | .boot | .rearm => [.invited (s.inviteNow opts)]
      | .paired => [.rearmed (s.inviteNow opts) .paired]

/-- `hostPairing` is back, with a code or with an error. -/
def answers (s : ArmingState) (call : Nat) (c : ArmCall) : Option String → ArmingStep
  | some code =>
    let s : ArmingState :=
      { s with
        calls := s.calls.delete call
        hosted := s.hosted.set s.next ⟨c.half, c.round, code, false, none, false⟩
        live := Function.update s.live c.half (some s.next)
        next := s.next + 1 }
    (s, s.announce opts c.origin)
  | none =>
    let s : ArmingState := { s with calls := s.calls.delete call }
    match c.origin with
    | .again round reason =>
      andThen (s, [.couldNotArm c.half]) fun s => s.scheduleRearm c.half round reason rearmRetryMs
    | .whole first cause =>
      ({ s with calls := s.calls.mapValues fun d =>
          if d.origin = .whole first cause then { d with origin := .orphan } else d }, [])
    | .orphan => (s, [])

/-- A code failed, or its handler did; what is said of an ended round is ignored. -/
def failed (s : ArmingState) (half : Half) (myRound : Nat) (err : Option PairingErrorKind)
    (jitter : ℚ) : ArmingStep :=
  if myRound ≠ s.round then (s, [])
  else
    let decision := rearmDecision err (s.failures half) (limitsFor half) jitter
    let s : ArmingState :=
      { s with
        live := Function.update s.live half none
        failures := Function.update s.failures half decision.state }
    let warned := decision.warn.toList.map fun warning =>
      .warned half warning decision.state.wrong (if decision.rearm then decision.delayMs else 0)
    andThen (s, warned) fun s =>
      if decision.rearm then
        s.scheduleRearm half myRound
          (if decision.warn = none then failureKindReason err else .wrongCode) decision.delayMs
      else (s, if (s.live .typed).isNone && (s.live .scan).isNone then [.idle] else [])

/-- A browser has paired: the round is over, and the other code with it. -/
def paired (s : ArmingState) (id : Nat) (p : HostedPairing) : ArmingStep :=
  if p.round ≠ s.round then (s, [])
  else
    andThen ({ s with round := s.round + 1 }.cancelLive p.half.other) fun s =>
      ({ s with live := fun _ => none, handlers := s.handlers.set id .registering }, [.register id])

def hear (s : ArmingState) (id : Nat) (p : HostedPairing) (jitter : ℚ) : ArmingStep :=
  let s : ArmingState := { s with hosted := s.hosted.set id { p with heard := true } }
  match p.settled with
  | some (.ok _) => s.paired id p
  | some (.error failure) => s.failed p.half p.round (some failure.kind) jitter
  | none => (s, [])

/-- A share that could not be registered is not admitted. -/
def registered (s : ArmingState) (id : Nat) (ok : Bool) : ArmingStep :=
  if opts.grants && !ok then ({ s with handlers := s.handlers.delete id }, [.notShared id])
  else if opts.grants then
    ({ s with handlers := s.handlers.set id .addingGrant },
      [.addSessionKeys id, .approve id, .addGrant id])
  else
    ({ s with handlers := s.handlers.set id .addingPeer },
      [.addSessionKeys id, .approve id, .addPeer id])

/-- A completed pairing clears the budgets, and both halves are armed anew. -/
def complete (s : ArmingState) (id : Nat) : ArmingStep :=
  andThen ({ s with handlers := s.handlers.delete id, failures := fun _ => noFailures },
    [.paired id]) fun s => s.armRound .paired

def stored (s : ArmingState) (id : Nat) (stage : HandlerStage) (ok : Bool) (jitter : ℚ) :
    ArmingStep :=
  if ok then
    match stage with
    | .registering => (s, [])
    | .addingGrant => ({ s with handlers := s.handlers.set id .addingPeer }, [.addPeer id])
    | .addingPeer => s.complete id
  else
    match s.hosted.get id with
    | none => (s, [])
    | some p => { s with handlers := s.handlers.delete id }.failed p.half p.round none jitter

/-- Mint a code on demand. -/
def rearm (s : ArmingState) : ArmingStep :=
  let s : ArmingState := { s with round := s.round + 1, failures := fun _ => noFailures }
  andThen (andThen (s.cancelLive .typed) fun s => s.cancelLive .scan) fun s =>
    { s with live := fun _ => none }.armRound .rearm

def step (s : ArmingState) : ArmingEvent → ArmingStep
  | .answers call code =>
    match s.calls.get call with
    | none => (s, [])
    | some c => s.answers opts call c code
  | .settles id outcome =>
    match s.hosted.get id with
    | none => (s, [])
    | some p =>
      if p.settled.isSome then (s, [])
      else
        ({ s with hosted := s.hosted.set id { p with settled := some outcome } },
          match outcome with
          | .ok _ => [.establish id]
          | .error _ => [])
  | .hears id jitter =>
    match s.hosted.get id with
    | none => (s, [])
    | some p => if p.heard || p.settled.isNone then (s, []) else s.hear id p jitter
  | .registered id ok =>
    if s.handlers.get id = some .registering then s.registered opts id ok else (s, [])
  | .stored id ok jitter =>
    match s.handlers.get id with
    | none | some .registering => (s, [])
    | some stage => s.stored id stage ok jitter
  | .fires timer =>
    match s.pending.get timer with
    | none => (s, [])
    | some t =>
      { s with pending := s.pending.delete timer }.armHalf t.half (.again t.round t.reason)
  | .rearm => s.rearm

def empty : ArmingState where
  round := 0
  failures := fun _ => noFailures
  live := fun _ => none
  hosted := .empty
  calls := .empty
  pending := .empty
  handlers := .empty
  next := 0

/-- The loop begins as it arms its first round. -/
def init : ArmingState := (empty.armRound .boot).1

end ArmingState

def armingMachine (opts : HostingOptions) : Machine ArmingState ArmingEvent ArmingOutput where
  init := .init
  step := ArmingState.step opts

end Mtmux.Cli
