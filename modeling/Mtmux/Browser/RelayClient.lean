import Mtmux.Base.Machine
import Mtmux.Base.OrderedMap
import Mtmux.Protocol.Messages

/-! The browser's client of one relay. It runs to its end before anything else does, but for the handlers
that it calls on the way: these may call the client back. What it still has to do after them waits in
`todo`. -/
namespace Mtmux.Browser
open Protocol

inductive ClientStatus where
  | connecting | connected | reconnecting | disconnected
  deriving DecidableEq

/-- A transport: `detached` says that it was closed from here, `over` that it has called `onClose`. -/
structure Line where
  route : Nat
  isOpen : Bool
  detached : Bool
  ended : Bool
  deriving DecidableEq

/-- Neither side has ended it. -/
def Line.alive (line : Line) : Bool := !line.detached && !line.ended

/-- Who closes a transport; `connect` is a call of `connect` or `reconnectNow`, or the timer. -/
inductive Closer where
  | connect | setTransport | disconnect | authFailure | zombie
  deriving DecidableEq

inductive ClientPoint where
  | handlers
  | dial
  | dialled (transport : Nat)
  | authenticated
  | schedule
  | setTimer
  deriving DecidableEq

inductive ClientMethod where
  | connect
  | disconnect
  | reconnectNow
  | setTransport (route : Nat)
  | send (msg : ClientMessage)

inductive RelayAnswer where
  | authSuccess
  | authFailure
  | pong (timestamp : Int)
  | other
  deriving DecidableEq

inductive ClientEvent where
  | calls (method : ClientMethod)
  | goesOn
  | onOpen (transport : Nat)
  | onMessage (transport : Nat) (msg : RelayAnswer)
  | onClose (transport : Nat)
  | readyState (transport : Nat) (isOpen : Bool)
  | timerFires (timer : Nat)
  | pingFires (bufferedAmount : Nat)
  | passes (ms : Nat)

/-- Each call of `send` has a number, and each transport and timer. -/
inductive ClientOutput where
  | status (status : ClientStatus)
  | sent (id : Nat) (msg : ClientMessage)
  | put (transport id : Nat) (msg : ClientMessage)
  | auth (transport : Nat) (token : String)
  | authed (transport : Nat)
  | dialled (transport route : Nat)
  | closed (transport : Nat) (closer : Closer)
  | timer (timer delay : Nat)
  | dropped (messages : List (Nat × ClientMessage))
  | routeStale
  deriving DecidableEq

structure RelayClient where
  transport : Option Nat
  lines : OrderedMap Nat Line
  makeTransport : Nat
  token : String
  reconnectDelay : Nat
  reconnectTimer : Option Nat
  timers : List Nat
  pinging : Bool
  intentionalClose : Bool
  status : ClientStatus
  latency : Option Int
  reconnectCount : Nat
  lastPongAt : Nat
  pendingMessages : List (Nat × ClientMessage)
  connecting : Bool
  routeStaleAsked : Bool
  todo : List ClientPoint
  now : Nat
  next : Nat
  sends : Nat

abbrev ClientStep : Type := RelayClient × List ClientOutput

def minReconnectDelay : Nat := 1000
def maxReconnectDelay : Nat := 30000
def staleRouteAfter : Nat := 3
def maxPendingMessages : Nat := 50

def dropWhenDisconnected : ClientMessage → Bool
  | .terminalInput _ | .terminalResize _ | .commandSend _ | .tmuxPrefix | .tmuxScroll _ | .tmuxScrollTo _
  | .tmuxExitCopyMode | .sessionAttach _ _ _ _ | .sessionDetach => true
  | _ => false

def shouldQueue (msg : ClientMessage) : Bool :=
  match msg with
  | .ping _ => false
  | msg => !dropWhenDisconnected msg

namespace RelayClient

def init (route : Nat) (token : String) : RelayClient where
  transport := none
  lines := .empty
  makeTransport := route
  token := token
  reconnectDelay := minReconnectDelay
  reconnectTimer := none
  timers := []
  pinging := false
  intentionalClose := false
  status := .disconnected
  latency := none
  reconnectCount := 0
  lastPongAt := 0
  pendingMessages := []
  connecting := false
  routeStaleAsked := false
  todo := []
  now := 0
  next := 0
  sends := 0

/-- The handlers hear of the status before anything else is done. -/
def setStatus (s : RelayClient) (status : ClientStatus) (rest : List ClientPoint) : ClientStep :=
  ({ s with status := status, todo := .handlers :: rest ++ s.todo }, [.status status])

def closeTransport (s : RelayClient) (closer : Closer) : ClientStep :=
  match s.transport with
  | none => (s, [])
  | some t =>
    ({ s with
        transport := none
        lines := s.lines.modify t fun line => { line with detached := true, isOpen := false } },
      [.closed t closer])

def clearTimer (s : RelayClient) : RelayClient :=
  match s.reconnectTimer with
  | none => s
  | some timer => { s with reconnectTimer := none, timers := s.timers.filter (· ≠ timer) }

/-- Messages go out only over an open transport, once the relay has confirmed the token. -/
def ready (s : RelayClient) : Option Nat :=
  s.transport.filter fun t => (s.lines.get t).any (·.isOpen) && decide (s.status = .connected)

def enqueue (s : RelayClient) (msg : Nat × ClientMessage) : ClientStep :=
  if !shouldQueue msg.2 then (s, [])
  else
    let pending := s.pendingMessages ++ [msg]
    let dropped := pending.length - maxPendingMessages
    if dropped = 0 then ({ s with pendingMessages := pending }, [])
    else
      ({ s with pendingMessages := pending.drop dropped, todo := .handlers :: s.todo },
        [.dropped (pending.take dropped)])

def deliver (s : RelayClient) (msg : Nat × ClientMessage) : ClientStep :=
  match s.ready with
  | some t => (s, [.put t msg.1 msg.2])
  | none => s.enqueue msg

def send (s : RelayClient) (msg : ClientMessage) : ClientStep :=
  let r := { s with sends := s.sends + 1 }.deliver (s.sends, msg)
  (r.1, .sent s.sends msg :: r.2)

def flushPendingMessages (s : RelayClient) : ClientStep :=
  s.pendingMessages.foldl (fun r msg => ((r.1.deliver msg).1, r.2 ++ (r.1.deliver msg).2))
    ({ s with pendingMessages := [] }, [])

def connect (s : RelayClient) (closer : Closer) : ClientStep :=
  let s := s.clearTimer
  if s.connecting then (s, [])
  else
    let closed := s.closeTransport closer
    let r := { closed.1 with intentionalClose := false, connecting := true }.setStatus
      (if 0 < s.reconnectCount then .reconnecting else .connecting) [.dial]
    (r.1, closed.2 ++ r.2)

def disconnect (s : RelayClient) : ClientStep :=
  let s : RelayClient := { s with intentionalClose := true, connecting := false, pinging := false }
  let closed := s.clearTimer.closeTransport .disconnect
  let r := closed.1.setStatus .disconnected []
  (r.1, closed.2 ++ r.2)

def reconnectNow (s : RelayClient) : ClientStep :=
  if s.intentionalClose then (s, [])
  else { s with reconnectDelay := minReconnectDelay }.connect .connect

def setTransport (s : RelayClient) (route : Nat) : ClientStep :=
  let s : RelayClient := { s with makeTransport := route, routeStaleAsked := false }
  if s.intentionalClose then (s, [])
  else { s with reconnectDelay := minReconnectDelay, connecting := false }.connect .setTransport

def calls (s : RelayClient) : ClientMethod → ClientStep
  | .connect => s.connect .connect
  | .disconnect => s.disconnect
  | .reconnectNow => s.reconnectNow
  | .setTransport route => s.setTransport route
  | .send msg => s.send msg

/-- `onClose` of a transport. -/
def closes (s : RelayClient) (t : Nat) : ClientStep :=
  let s : RelayClient :=
    { s with
      lines := s.lines.modify t fun line => { line with ended := true, isOpen := false }
      connecting := false
      pinging := false }
  if s.intentionalClose then s.setStatus .disconnected []
  else s.setStatus .reconnecting [.schedule]

def handleMessage (s : RelayClient) (t : Nat) : RelayAnswer → ClientStep
  | .authSuccess =>
    let r := { s with connecting := false }.setStatus .connected [.authenticated, .handlers]
    (r.1, .authed t :: r.2)
  | .authFailure =>
    let closed := { s with intentionalClose := true, connecting := false }.closeTransport .authFailure
    let r := closed.1.setStatus .disconnected [.handlers]
    (r.1, closed.2 ++ r.2)
  | .pong timestamp =>
    ({ s with latency := some (s.now - timestamp), lastPongAt := s.now, todo := .handlers :: s.todo }, [])
  | .other => ({ s with todo := .handlers :: s.todo }, [])

def dropConnection (s : RelayClient) : ClientStep :=
  let closed := s.closeTransport .zombie
  let r := { closed.1 with connecting := false, pinging := false }.setStatus .reconnecting [.schedule]
  (r.1, closed.2 ++ r.2)

def goesOn (s : RelayClient) : ClientPoint → ClientStep
  | .handlers | .dialled _ => (s, [])
  | .dial =>
    ({ s with
        transport := some s.next
        lines := s.lines.set s.next ⟨s.makeTransport, false, false, false⟩
        next := s.next + 1
        todo := .dialled s.next :: s.todo },
      [.dialled s.next s.makeTransport])
  | .authenticated =>
    { s with
      reconnectDelay := minReconnectDelay
      reconnectCount := 0
      routeStaleAsked := false
      pinging := true
      lastPongAt := s.now }.flushPendingMessages
  | .schedule =>
    if s.intentionalClose then (s, [])
    else
      let s : RelayClient := { s with reconnectCount := s.reconnectCount + 1 }
      if staleRouteAfter ≤ s.reconnectCount ∧ s.routeStaleAsked = false then
        ({ s with routeStaleAsked := true, todo := .handlers :: .setTimer :: s.todo }, [.routeStale])
      else ({ s with todo := .setTimer :: s.todo }, [])
  | .setTimer =>
    ({ s with
        reconnectTimer := some s.next
        timers := s.next :: s.timers
        next := s.next + 1
        reconnectDelay := min (s.reconnectDelay * 2) maxReconnectDelay },
      [.timer s.next s.reconnectDelay])

def pings (s : RelayClient) (bufferedAmount : Nat) : ClientStep :=
  if s.lastPongAt ≠ 0 ∧ 25000 < s.now - s.lastPongAt then s.dropConnection
  else if s.transport.isSome ∧ 1048576 < bufferedAmount then s.dropConnection
  else s.send (.ping s.now)

/-- The handlers are being called, or nothing is running. -/
def yields (s : RelayClient) : Bool :=
  match s.todo with
  | [] | .handlers :: _ => true
  | _ => false

/-- A transport calls back between the client's own steps; one that cannot be made calls `onClose` while it
is dialled. One that was closed from here delivers nothing. -/
def step (s : RelayClient) : ClientEvent → ClientStep
  | .calls method => if s.yields then s.calls method else (s, [])
  | .goesOn =>
    match s.todo with
    | [] => (s, [])
    | point :: rest => { s with todo := rest }.goesOn point
  | .onOpen t =>
    if s.todo = [] ∧ (s.lines.get t).any (!·.detached) then
      (s, (s.transport.map fun current => ClientOutput.auth current s.token).toList)
    else (s, [])
  | .onMessage t msg =>
    if s.todo = [] ∧ (s.lines.get t).any (!·.detached) then s.handleMessage t msg else (s, [])
  | .onClose t =>
    if (s.lines.get t).isSome ∧ (s.todo = [] ∨ s.todo.head? = some (.dialled t)) then s.closes t
    else (s, [])
  | .readyState t isOpen =>
    ({ s with lines := s.lines.modify t fun line => { line with isOpen := isOpen && line.alive } }, [])
  | .timerFires timer =>
    if s.todo = [] ∧ timer ∈ s.timers then
      { s with timers := s.timers.filter (· ≠ timer), reconnectTimer := none }.connect .connect
    else (s, [])
  | .pingFires bufferedAmount =>
    if s.todo = [] ∧ s.pinging then s.pings bufferedAmount else (s, [])
  | .passes ms => ({ s with now := s.now + ms }, [])

end RelayClient

def clientMachine (init : RelayClient) : Machine RelayClient ClientEvent ClientOutput where
  init := init
  step := RelayClient.step

end Mtmux.Browser
