import Mtmux.Agent.Streams

/-! The tunnel agent and its sockets to the broker: starting, stopping, retrying, and watching that a socket still
answers. -/
namespace Mtmux.Agent

def keepaliveDeadlineMs : Nat := 75000

inductive AgentStatus where
  | connecting | registered | disconnected | stopped | outdated
  deriving DecidableEq

/-- What the broker sends. The messages of requested pairings change nothing here. -/
inductive AgentMessage where
  | challenge
  | ready (tunnelId : String)
  | streamOpen (streamId : String)
  | streamFrame (streamId data : String)
  | streamClose (streamId : String)
  | request
  | tunnelClosed

/-- A message that cannot be read is none. The tick is that of the interval that watches the socket. -/
inductive SocketEvent where
  | message (message : Option AgentMessage)
  | pong
  | unsupported (status : Nat)
  | close
  | tick

inductive AgentEvent where
  | start
  | stop
  | retry
  | socket (socket : Nat) (event : SocketEvent)
  | table (event : TableEvent)
  | wait (ms : Nat)

/-- Sockets are numbered as they are opened: `opened` counts them, `closed` has those that closed and `asked` those
that were asked to close. `keepalive` is the socket whose interval runs, `retries` counts the timers that are set. -/
structure AgentState where
  broker : Option Nat
  tunnelId : Option String
  status : AgentStatus
  attempt : Nat
  stopped : Bool
  keepalive : Option Nat
  lastInboundAt : Nat
  now : Nat
  table : StreamTable
  retries : Nat
  opened : Nat
  closed : List Nat
  asked : List Nat

namespace AgentState
variable (cfg : StreamConfig)

abbrev Did : Type := AgentState × List TableOut

def live (s : AgentState) : List Nat :=
  (List.range s.opened).filter fun socket => !s.closed.contains socket && !s.asked.contains socket

def askToClose (s : AgentState) (socket : Option Nat) : AgentState := { s with asked := socket.toList ++ s.asked }

def onTable (s : AgentState) (event : TableEvent) : Did :=
  ({ s with table := (s.table.step cfg event).1 }, (s.table.step cfg event).2)

def teardownStreams (s : AgentState) : Did := s.onTable cfg .teardownStreams

/-- The new socket is the current one, and its interval the only one that runs. -/
def connect (s : AgentState) : AgentState :=
  if s.stopped then s
  else
    { s with
      status := .connecting
      broker := some s.opened
      opened := s.opened + 1
      keepalive := some s.opened
      lastInboundAt := s.now }

def start (s : AgentState) : AgentState := { s with stopped := false, attempt := 0 }.connect

def stop (s : AgentState) : Did :=
  let torn := { s with stopped := true, keepalive := none }.teardownStreams cfg
  ({ torn.1.askToClose s.broker with broker := none, status := .stopped }, torn.2)

/-- Nothing tells a message of the current socket from one of another. -/
def handle (s : AgentState) : AgentMessage → Did
  | .challenge => (s, [])
  | .ready tunnelId => ({ s with tunnelId := some tunnelId, attempt := 0, status := .registered }, [])
  | .streamOpen streamId => s.onTable cfg (.streamOpen streamId)
  | .streamFrame streamId data => s.onTable cfg (.streamFrame streamId data)
  | .streamClose streamId => s.onTable cfg (.streamClose streamId)
  | .request => (s, [])
  | .tunnelClosed =>
    let torn := { s with status := .disconnected }.teardownStreams cfg
    (torn.1.askToClose s.broker, torn.2)

def onClose (s : AgentState) (socket : Nat) : Did :=
  let s := { s with closed := socket :: s.closed }
  if s.broker ≠ some socket then (s, [])
  else
    let torn := { s with keepalive := none, broker := none, tunnelId := none }.teardownStreams cfg
    if s.stopped then
      (if s.status = .outdated then torn.1 else { torn.1 with status := .stopped }, torn.2)
    else ({ torn.1 with status := .disconnected, attempt := s.attempt + 1, retries := s.retries + 1 }, torn.2)

/-- A socket that has been silent for too long is given up on. -/
def onTick (s : AgentState) (socket : Nat) : AgentState :=
  if s.keepalive ≠ some socket then s
  else if s.broker ≠ some socket then { s with keepalive := none }
  else if keepaliveDeadlineMs < s.now - s.lastInboundAt then { s with keepalive := none }.askToClose (some socket)
  else s

def onSocket (s : AgentState) (socket : Nat) : SocketEvent → Did
  | .message message =>
    let s := { s with lastInboundAt := s.now }
    match message with
    | none => (s, [])
    | some message => s.handle cfg message
  | .pong => ({ s with lastInboundAt := s.now }, [])
  | .unsupported status =>
    let s := s.askToClose (some socket)
    (if status ≠ 426 then s else { s with stopped := true, keepalive := none, status := .outdated }, [])
  | .close => s.onClose cfg socket
  | .tick => (s.onTick socket, [])

/-- Only sockets that were opened have events, and only timers that were set fire. -/
def step (s : AgentState) : AgentEvent → Did
  | .start => (s.start, [])
  | .stop => s.stop cfg
  | .retry => (if s.retries = 0 then s else { s with retries := s.retries - 1 }.connect, [])
  | .socket socket event => if socket < s.opened then s.onSocket cfg socket event else (s, [])
  | .table event => s.onTable cfg event
  | .wait ms => ({ s with now := s.now + ms }, [])

def create : AgentState where
  broker := none
  tunnelId := none
  status := .disconnected
  attempt := 0
  stopped := false
  keepalive := none
  lastInboundAt := 0
  now := 0
  table := .create
  retries := 0
  opened := 0
  closed := []
  asked := []

end AgentState

def tunnelAgent (cfg : StreamConfig) : Machine AgentState AgentEvent TableOut := ⟨.create, AgentState.step cfg⟩

end Mtmux.Agent
