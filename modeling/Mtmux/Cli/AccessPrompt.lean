import Mtmux.Base.Machine
import Mtmux.Base.OrderedMap

/-! Who is asked whether to let a device in: the app on every connected browser, and this machine,
by `mtmux approve`, by a prompt in its terminal or by a request held until somebody looks. -/
namespace Mtmux.Cli

def approvalTimeoutMs : Nat := 100000
def maxWindowMs : Nat := 3600000
def defaultWindowMs : Nat := 300000

inductive AccessVia where
  | code | request | returning
  deriving DecidableEq

structure AccessPromptInput where
  sas : Option String
  deviceLabel : String
  accountEmail : String
  via : Option AccessVia
  deriving DecidableEq

inductive AccessPromptResult where
  | approved | refused | noTty | timeout
  deriving DecidableEq

/-- A channel a call is given: none, one that works, or one that throws when it is called. -/
inductive AccessDep where
  | absent | present | failing

structure AccessDeps where
  ask : AccessDep
  offer : AccessDep
  park : AccessDep

/-- The in-app channel of a call: its question stands, it has an answer the call has not heard of
yet, or the call has. -/
inductive AppChannel where
  | asking
  | answered (answer : Option Bool)
  | done
  deriving DecidableEq

/-- Where the machine's own chain waits. An outcome of `none` is a promise that was rejected. -/
inductive LocalChain where
  | offering
  | offered (answer : Option (Option Bool))
  | prompting
  | prompted (answer : Option AccessPromptResult)
  | parking
  | parked (approved : Option Bool)
  | returned (result : Option AccessPromptResult)
  | done
  deriving DecidableEq

/-- One call of `decideAccess`. `opened` channels can still answer; `settled` is the first answer,
and `concluded` says that the call has returned it and told the others to stop. -/
structure AccessCall where
  req : AccessPromptInput
  deps : AccessDeps
  app : AppChannel
  chain : LocalChain
  opened : Nat
  held : Option AccessPromptResult
  settled : Option AccessPromptResult
  concluded : Bool

/-- The question that stands in the app. -/
structure LiveAsk where
  id : Nat
  call : Nat
  expiresAt : Nat
  deriving DecidableEq

/-- The request in front of, or held for, whoever runs `mtmux approve`. Only a parked one was given
its call's abort signal. -/
structure LiveOffer where
  id : Nat
  call : Nat
  parked : Bool
  offer : AccessPromptInput
  deriving DecidableEq

/-- An approval window, with the poll that is held for it. -/
structure Waiter where
  window : Nat
  sessionId : String
  expiresAt : Nat
  held : Option Nat
  deriving DecidableEq

/-- `approvers` are the connections that may answer in the app; `timers` the windows whose timer has
not fired or been cleared. -/
structure AccessState where
  now : Nat
  calls : OrderedMap Nat AccessCall
  approvers : List Nat
  ask : Option LiveAsk
  asks : Nat
  waiter : Option Waiter
  windows : Nat
  timers : List Nat
  offer : Option LiveOffer
  offers : Nat

/-- Who sends a request to the control endpoint, and with which bearer token. -/
structure ControlPeer where
  remoteAddress : String
  bearer : Option String

inductive AccessEvent where
  | start (call : Nat) (req : AccessPromptInput) (deps : AccessDeps)
  | hearApp (call : Nat)
  | resume (call : Nat)
  | promptAnswers (call : Nat) (answer : Option AccessPromptResult)
  | conclude (call : Nat)
  | resolveDeviceApproval (id : Nat) (approved : Bool)
  | approvers (conns : List Nat) (noted : Bool)
  | askTimer (id : Nat)
  | offerTimer (id : Nat)
  | wait (poll : Nat) (peer : ControlPeer) (sessionId : String) (windowMs : Option Nat)
  | decide (poll : Nat) (peer : ControlPeer) (sessionId : String) (id : Nat) (approved : Bool)
  | pollCloses (poll : Nat)
  | windowTimer (window : Nat)
  | shutdown
  | tick (ms : Nat)

inductive ChannelKind where
  | ask | offer | park
  deriving DecidableEq

inductive ResolvedReason where
  | decided | expired | withdrawn
  deriving DecidableEq

inductive ControlReply where
  | request (id : Nat) (sas : Option String) (deviceLabel accountEmail : String)
  | closed
  | failed (status : Nat) (error : String)
  | ok
  deriving DecidableEq

inductive AccessOutput where
  | approvalRequest (conn id : Nat) (sas : Option String) (deviceLabel accountEmail : String)
      (via : AccessVia) (expiresAt : Nat)
  | approvalResolved (conn id : Nat) (approved : Bool) (reason : ResolvedReason)
  | reply (poll : Nat) (reply : ControlReply)
  | prompt (call : Nat)
  | notice (call : Nat)
  | made (kind : ChannelKind) (call : Nat)
  | settled (kind : ChannelKind) (call : Nat) (answer : Option Bool)
  | resolved (call : Nat) (result : AccessPromptResult)
  deriving DecidableEq

namespace AccessCall

def answer (c : AccessCall) (result : AccessPromptResult) : AccessCall :=
  { c with settled := match c.settled with
    | none => some result
    | some first => some first }

/-- One channel fewer; when none is left, what the machine could not do is the answer. -/
def abstain (c : AccessCall) : AccessCall :=
  let c := { c with opened := c.opened - 1 }
  if c.opened = 0 ∧ c.settled = none then c.answer (c.held.getD .noTty) else c

def hearApp (c : AccessCall) (answer : Option Bool) : AccessCall :=
  let c := { c with app := .done }
  match answer with
  | some true => c.answer .approved
  | some false => c.answer .refused
  | none => c.abstain

def hearLocal (c : AccessCall) (result : Option AccessPromptResult) : AccessCall :=
  let c := { c with chain := .done }
  match result with
  | some .noTty => { c with held := some .noTty }.abstain
  | some result => c.answer result
  | none => c.abstain

def settle (c : AccessCall) (kind : ChannelKind) (answer : Option Bool) : AccessCall :=
  match kind with
  | .ask => { c with app := .answered answer }
  | .offer => { c with chain := .offered (some answer) }
  | .park => { c with chain := .parked (some (answer = some true)) }

end AccessCall

def LiveOffer.kind (p : LiveOffer) : ChannelKind := if p.parked then .park else .offer

abbrev AccessStep : Type := AccessState × List AccessOutput

namespace AccessState

def set (s : AccessState) (call : Nat) (c : AccessCall) : AccessState :=
  { s with calls := s.calls.set call c }

def onCall (s : AccessState) (call : Nat) (f : AccessCall → AccessStep) : AccessStep :=
  match s.calls.get call with
  | none => (s, [])
  | some c => f c

def settle (s : AccessState) (kind : ChannelKind) (call : Nat) (answer : Option Bool) : AccessStep :=
  ({ s with calls := s.calls.modify call fun c => c.settle kind answer }, [.settled kind call answer])

def andThen (r : AccessStep) (f : AccessState → AccessStep) : AccessStep :=
  ((f r.1).1, r.2 ++ (f r.1).2)

/-- Close the question in the app, and tell every dialog. -/
def finish (s : AccessState) (answer : Option Bool) (reason : ResolvedReason) : AccessStep :=
  match s.ask with
  | none => (s, [])
  | some p =>
    andThen ({ s with ask := none },
      s.approvers.map fun conn => .approvalResolved conn p.id (answer = some true) reason)
      fun s => s.settle .ask p.call answer

/-- Has the call told its channels to stop? -/
def aborted (s : AccessState) (call : Nat) : Bool := (s.calls.get call).any AccessCall.concluded

def askDeviceApproval (s : AccessState) (call : Nat) (req : AccessPromptInput) : AccessStep :=
  if s.aborted call || s.ask.isSome || s.approvers.isEmpty then s.settle .ask call none
  else
    ({ s with
        asks := s.asks + 1
        ask := some ⟨s.asks + 1, call, s.now + approvalTimeoutMs⟩ },
      s.approvers.map fun conn => .approvalRequest conn (s.asks + 1) (req.sas.filter (· ≠ ""))
        req.deviceLabel req.accountEmail (req.via.getD .request) (s.now + approvalTimeoutMs))

def settlePending (s : AccessState) (approved : Bool) : AccessStep :=
  match s.offer with
  | none => (s, [])
  | some p => { s with offer := none }.settle p.kind p.call (some approved)

/-- Hand the held poll whatever is pending. -/
def flush (s : AccessState) : AccessStep :=
  match s.waiter, s.offer with
  | some w, some p =>
    match w.held with
    | some poll =>
      ({ s with waiter := some { w with held := none } },
        [.reply poll (.request p.id (p.offer.sas.filter (· ≠ "")) p.offer.deviceLabel
          p.offer.accountEmail)])
    | none => (s, [])
  | _, _ => (s, [])

def windowOpen (s : AccessState) : Bool := s.waiter.any fun w => decide (s.now < w.expiresAt)

/-- Put a request in front of whoever waits for one, or hold it. -/
def offerTo (s : AccessState) (call : Nat) (req : AccessPromptInput) (park : Bool) : AccessStep :=
  if !s.windowOpen && !park then s.settle .offer call none
  else if s.offer.isSome then s.settle (if park then .park else .offer) call (some false)
  else if park && s.aborted call then s.settle .park call (some false)
  else { s with
    offers := s.offers + 1
    offer := some ⟨s.offers + 1, call, park, req⟩ }.flush

/-- The window is over, and with it what was in front of it. -/
def dropWaiter (s : AccessState) : AccessStep :=
  match s.waiter with
  | none => (s, [])
  | some w =>
    andThen ({ s with waiter := none, timers := s.timers.filter (· ≠ w.window) },
      w.held.toList.map fun poll => .reply poll .closed) fun s => s.settlePending false

def isLoopback (address : String) : Bool :=
  ["127.0.0.1", "::1", "::ffff:127.0.0.1"].contains address

/-- Anything that can drive the endpoint can let a stranger in. -/
def guard (authToken : String) (peer : ControlPeer) : Option ControlReply :=
  if !isLoopback peer.remoteAddress then some (.failed 403 "Loopback only")
  else if peer.bearer ≠ some authToken then some (.failed 401 "Unauthorized")
  else none

def handleWait (s : AccessState) (poll : Nat) (sessionId : String) (windowMs : Option Nat) :
    AccessStep :=
  if sessionId = "" then (s, [.reply poll (.failed 400 "sessionId required")])
  else if s.waiter.any fun w => w.sessionId ≠ sessionId && decide (s.now < w.expiresAt) then
    (s, [.reply poll (.failed 409 "Another approval window is already open on this machine.")])
  else
    match s.waiter.filter fun w => w.sessionId = sessionId with
    | some w => { s with waiter := some { w with held := some poll } }.flush
    | none =>
      { s with
        windows := s.windows + 1
        timers := s.windows :: s.timers
        waiter := some ⟨s.windows, sessionId,
          s.now + min maxWindowMs ((windowMs.filter (0 < ·)).getD defaultWindowMs), some poll⟩ }.flush

def handleDecide (s : AccessState) (poll : Nat) (sessionId : String) (id : Nat) (approved : Bool) :
    AccessStep :=
  if s.waiter.all fun w => w.sessionId ≠ sessionId then
    (s, [.reply poll (.failed 409 "No approval window is open.")])
  else if s.offer.all fun p => p.id ≠ id then
    (s, [.reply poll (.failed 409 "That request is no longer waiting.")])
  else andThen (s.settlePending approved) fun s => (s, [.reply poll .ok])

/-- The machine's chain begins with the offer, or with the prompt if there is nobody to offer to. -/
def startLocal (s : AccessState) (call : Nat) (req : AccessPromptInput) (dep : AccessDep) :
    AccessStep :=
  match dep with
  | .absent => s.onCall call fun c => (s.set call { c with chain := .prompting }, [.prompt call])
  | .failing => s.onCall call fun c => (s.set call { c with chain := .offered none }, [])
  | .present => andThen (s, [.made .offer call]) fun s => s.offerTo call req false

def startApp (s : AccessState) (call : Nat) (req : AccessPromptInput) (dep : AccessDep) :
    AccessStep :=
  match dep with
  | .absent => s.onCall call fun c => (s.set call { c with app := .answered none }, [])
  | .failing => andThen (s, [.made .ask call]) fun s => s.settle .ask call none
  | .present => andThen (s, [.made .ask call]) fun s => s.askDeviceApproval call req

def decideAccess (s : AccessState) (call : Nat) (req : AccessPromptInput) (deps : AccessDeps) :
    AccessStep :=
  let c : AccessCall :=
    { req := req
      deps := deps
      app := .asking
      chain := .offering
      opened := 2
      held := none
      settled := none
      concluded := false }
  andThen ((s.set call c).startLocal call req deps.offer) fun s => s.startApp call req deps.ask

/-- The prompt could not ask: hold the request, if it can be held. -/
def startPark (s : AccessState) (call : Nat) (c : AccessCall) : AccessStep :=
  match c.deps.park with
  | .absent => (s.set call { c with chain := .returned (some .noTty) }, [])
  | .failing => (s.set call { c with chain := .parked none }, [.notice call])
  | .present =>
    andThen (s.set call { c with chain := .parking }, [.notice call, .made .park call])
      fun s => s.offerTo call c.req true

/-- The chain goes on from where it waited. -/
def resume (s : AccessState) (call : Nat) (c : AccessCall) : AccessStep :=
  match c.chain with
  | .offered none => (s.set call { c with chain := .returned none }, [])
  | .offered (some (some approved)) =>
    (s.set call { c with chain := .returned (some (if approved then .approved else .refused)) }, [])
  | .offered (some none) =>
    if c.concluded then (s.set call { c with chain := .returned (some .noTty) }, [])
    else (s.set call { c with chain := .prompting }, [.prompt call])
  | .prompted none => (s.set call { c with chain := .returned none }, [])
  | .prompted (some .noTty) =>
    if c.concluded then (s.set call { c with chain := .returned (some .noTty) }, [])
    else s.startPark call c
  | .prompted (some result) => (s.set call { c with chain := .returned (some result) }, [])
  | .parked none => (s.set call { c with chain := .returned none }, [])
  | .parked (some approved) =>
    (s.set call { c with chain := .returned (some (if approved then .approved else .timeout)) }, [])
  | .returned result => (s.set call (c.hearLocal result), [])
  | .offering | .prompting | .parking | .done => (s, [])

/-- The answer is in: whatever did not win stops, and the call returns. -/
def conclude (s : AccessState) (call : Nat) (result : AccessPromptResult) : AccessStep :=
  andThen (andThen
    (if s.ask.any fun p => p.call = call then s.finish none .withdrawn else (s, []))
    fun s => if s.offer.any fun p => p.call = call && p.parked then s.settlePending false else (s, []))
    fun s => s.onCall call fun c => (s.set call { c with concluded := true }, [.resolved call result])

def step (authToken : String) (s : AccessState) : AccessEvent → AccessStep
  | .start call req deps => if s.calls.has call then (s, []) else s.decideAccess call req deps
  | .hearApp call => s.onCall call fun c =>
      match c.app with
      | .answered answer => (s.set call (c.hearApp answer), [])
      | _ => (s, [])
  | .resume call => s.onCall call fun c => s.resume call c
  | .promptAnswers call answer => s.onCall call fun c =>
      if c.chain = .prompting then (s.set call { c with chain := .prompted answer }, []) else (s, [])
  | .conclude call => s.onCall call fun c =>
      match c.settled with
      | some result => if c.concluded then (s, []) else s.conclude call result
      | none => (s, [])
  | .resolveDeviceApproval id approved =>
    if s.ask.any fun p => p.id = id then s.finish (some approved) .decided else (s, [])
  | .approvers conns noted =>
    let s := { s with approvers := conns }
    if noted && conns.isEmpty then s.finish none .withdrawn else (s, [])
  | .askTimer id =>
    if s.ask.any fun p => p.id = id then s.finish (some false) .expired else (s, [])
  | .offerTimer id =>
    if s.offer.any fun p => p.id = id then s.settlePending false else (s, [])
  | .wait poll peer sessionId windowMs =>
    match guard authToken peer with
    | some reply => (s, [.reply poll reply])
    | none => s.handleWait poll sessionId windowMs
  | .decide poll peer sessionId id approved =>
    match guard authToken peer with
    | some reply => (s, [.reply poll reply])
    | none => s.handleDecide poll sessionId id approved
  | .pollCloses poll =>
    match s.waiter with
    | none => (s, [])
    | some w =>
      if w.held = some poll then { s with waiter := some { w with held := none } }.settlePending false
      else (s, [])
  | .windowTimer window =>
    if s.timers.contains window then
      { s with timers := s.timers.filter (· ≠ window) }.dropWaiter
    else (s, [])
  | .shutdown => s.dropWaiter
  | .tick ms => ({ s with now := s.now + ms }, [])

def init : AccessState where
  now := 0
  calls := .empty
  approvers := []
  ask := none
  asks := 0
  waiter := none
  windows := 0
  timers := []
  offer := none
  offers := 0

end AccessState

def accessMachine (authToken : String) : Machine AccessState AccessEvent AccessOutput where
  init := .init
  step := AccessState.step authToken

end Mtmux.Cli
