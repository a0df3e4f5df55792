import Mtmux.Base.RelyGuarantee
import Mtmux.Relay.SessionMonitor

/-! The whole relay at work: its connections, the tasks that run between awaits, its ptys and watchers, and time. -/
namespace Mtmux.Relay
open Protocol

/-- What runs by itself. -/
inductive Task where
  | message (conn : String) (msg : ClientMessage)
  | removal (conn : String)
  | job (job : Job)
  | poll
  | sweep
  | sessionListing
  | recordingSize (session : String)
  | recordingOver (id : String) (reason : RecordingStopReason)

/-- A pty's own command runs in the pty; the others are the relay's. -/
def Task.program : Task → Io Unit
  | .message conn msg => routeMessage conn msg
  | .removal conn => removeConnection conn
  | .job (.attach _ target size readOnly) => Io.tmux (.on (.session target) (.attachSession size readOnly))
  | .job (.announcePanes name) => SessionMonitor.announcePanes name
  | .poll => SessionMonitor.poll
  | .sweep => sweepOrphanClones
  | .sessionListing => do
    let _ ← listSessions
    return
  | .recordingSize session => do
    let _ ← sessionSize session
    return
  | .recordingOver id reason => do
    let _ ← Recorder.stop id reason
    return

/-- How a call turns out, and which sessions there are at that moment. -/
structure Answer where
  sessions : List String
  reply : (c : Call) → Except Failure c.Output

def relayHost : Async.Host RelayState Out Failure Call.Output Unit Task Answer Empty where
  program := Task.program
  exec s c x := (s, x.reply c)
  other s _ := s

abbrev RelayWorld : Type := Async.World RelayState Out Failure Call.Output Unit Task

/-- `jobs` are started and have not begun; `shut` are the connections whose socket takes nothing any more. `credentials`
has the token a connection came in with, `revoked` the tokens that have been taken back. -/
structure System where
  world : RelayWorld
  jobs : List Job
  shut : List String
  nextConn : Nat
  credentials : List (String × String)
  revoked : List String

/-- What reaches a browser. -/
inductive Pushed where
  | message (message : ServerMessage)
  | greeting (readOnly : Bool) (files : GrantFiles)
  | fileChanged (path : String)
  | devicePaired (label : String)
  | approvalRequest (id : String)
  | approvalResolved (id : String)

inductive SystemOutput where
  | sent (conn : String) (message : Pushed)
  | pty (out : Out)

/-- What the relay does on a timer or for the machine itself. -/
inductive Errand where
  | poll
  | sweep
  | sessionListing
  | recordingSize (session : String)
  | recordingOver (id : String) (reason : RecordingStopReason)

def Errand.task : Errand → Task
  | .poll => .poll
  | .sweep => .sweep
  | .sessionListing => .sessionListing
  | .recordingSize session => .recordingSize session
  | .recordingOver id reason => .recordingOver id reason

/-- `connect` lets a socket in whose token was checked some time before, when its owner was asked; `next` takes up the
next message of a connection. `ptyReady` is the timer of a pty that has shown nothing yet. -/
inductive SystemEvent where
  | connect (grant : GrantRecord) (token : Option String)
  | message (conn : String) (msg : ClientMessage)
  | next (conn : String)
  | exec (task : Nat) (x : Answer)
  | resume (task : Nat)
  | begin (job : Nat)
  | errand (errand : Errand)
  | shut (conn : String)
  | close (conn : String)
  | teardown (conn : String)
  | hangUp (conn : String)
  | revoke (tokens : List String)
  | ptyReady (bridge : Nat)
  | ptyData (bridge : Nat) (data : String)
  | ptyExit (bridge : Nat) (exitCode : Int)
  | fileChanged (conn path changed : String)
  | paired (label : String)
  | approvalRequest (id : String)
  | approvalResolved (id : String)
  | tick (ms : Nat)

def connectionName (n : Nat) : String := "conn-" ++ n.repr

def freshConnection (id : String) (grant : GrantRecord) : ConnectionState where
  id := id
  grant := grant
  pty := none
  attachedSession := none
  lastSize := none
  cloneSession := none
  activeWindowId := none
  watchers := []
  queue := []
  draining := false
  closing := false
  removed := false

/-- Connections that may both see and answer an approval request. -/
def mayApprove (now : Nat) (conn : ConnectionState) : Bool :=
  isFullGrant conn.grant && !conn.grant.readOnly && isGrantActive conn.grant now

namespace RelayState

/-- What a pty tells the relay, and what the relay tells a browser then. -/
abbrev PtyStep : Type := RelayState × List (String × ServerMessage)

def withBridge (s : RelayState) (bridge : Nat) (f : Bridge → PtyStep) : PtyStep :=
  match s.bridges.get bridge with
  | none => (s, [])
  | some b => f b

def captured : Option String → List ServerMessage
  | none => []
  | some data => if data = "" then [] else [.terminalOutput data]

/-- `fireReady`: the acknowledgement first, then the replay. -/
def fireReady (s : RelayState) (bridge : Nat) (b : Bridge) : PtyStep :=
  if b.ready then (s, [])
  else
    (s.updateBridge (fun b => { b with ready := true }) bridge,
      match b.owner with
      | .recorder _ => []
      | .browser conn name attachId capture =>
        (ServerMessage.sessionAttached name attachId :: captured capture).map (Prod.mk conn))

/-- The timer is cleared when the pty is killed. -/
def ptyReady (s : RelayState) (bridge : Nat) : PtyStep :=
  s.withBridge bridge fun b => if b.exited || b.detaching then (s, []) else s.fireReady bridge b

def ptyData (s : RelayState) (bridge : Nat) (data : String) : PtyStep :=
  s.withBridge bridge fun b =>
    if b.exited then (s, [])
    else
      let ready := s.fireReady bridge b
      (ready.1, ready.2 ++
        match b.owner with
        | .recorder _ => []
        | .browser conn _ _ _ =>
          if ((ready.1.connection conn).bind ConnectionState.pty) = some bridge then
            [(conn, .terminalOutput data)]
          else [])

def forgetPty (s : RelayState) (bridge : Nat) (conn : String) : RelayState :=
  s.updateConnection
    (fun c => if c.pty = some bridge then { c with pty := none, attachedSession := none, lastSize := none } else c)
    conn

def spawnFailed (exitCode : Int) : ServerMessage :=
  .error "PTY_SPAWN_FAILED" ("tmux attach-session exited with code " ++ toString exitCode ++ " before ready")

def ptyExit (s : RelayState) (bridge : Nat) (exitCode : Int) : PtyStep :=
  s.withBridge bridge fun b =>
    if b.exited then (s, [])
    else
      let gone := s.updateBridge (fun b => { b with exited := true }) bridge
      if b.detaching then (gone, [])
      else
        match b.owner with
        | .recorder _ => (gone, [])
        | .browser conn name _ _ =>
          (gone.forgetPty bridge conn,
            [(conn, if b.ready then .sessionExited name (some exitCode) else spawnFailed exitCode)])

/-- The recording whose pty has ended by itself. -/
def endedRecording (s : RelayState) (bridge : Nat) : Option String :=
  match s.bridges.get bridge with
  | some ⟨.recorder id, true, false, false⟩ => some id
  | _ => none

/-- A message goes behind those that wait. -/
def enqueue (msg : ClientMessage) (c : ConnectionState) : ConnectionState :=
  if c.closing then c else { c with queue := c.queue ++ [msg] }

end RelayState

namespace System

def start (host : Host) : System := ⟨.begin (.start host), [], [], 1, [], []⟩

def relay (s : System) : RelayState := s.world.shared

def withRelay (s : System) (r : RelayState) : System := { s with world := { s.world with shared := r } }

/-- `sendJson`: only to an open socket. -/
def tell (s : System) (conn : String) (message : Pushed) : List SystemOutput :=
  if s.shut.contains conn then [] else [.sent conn message]

def tellAll (s : System) (messages : List (String × ServerMessage)) : List SystemOutput :=
  messages.flatMap fun m => s.tell m.1 (.message m.2)

/-- Each connection gets its own view of an event, or nothing. -/
def broadcast (s : System) (build : ConnectionState → Option Pushed) : List SystemOutput :=
  (s.relay.others none).flatMap fun conn => ((build conn).map (s.tell conn.id)).getD []

def spawned : Out → Option Job
  | .spawn job => some job
  | _ => none

def visible (s : System) : Out → List SystemOutput
  | .send conn message => s.tell conn (.message message)
  | .spawn _ => []
  | out => [.pty out]

def run (s : System) (e : Async.Happening Task Answer Empty) : System × List SystemOutput :=
  let moved := relayHost.step s.world e
  ({ s with world := moved.1, jobs := s.jobs ++ (moved.2.map Prod.snd).filterMap spawned },
    (moved.2.map Prod.snd).flatMap s.visible)

def handling (conn : String) (r : Async.Running RelayState Out Failure Call.Output Unit Task) : Bool :=
  match r.job, r.stage with
  | .message c _, .asking _ _ | .message c _, .answered _ => c = conn
  | _, _ => false

def busy (s : System) (conn : String) : Bool := s.world.tasks.values.any (handling conn)

def fromPty (s : System) (step : RelayState.PtyStep) : System × List SystemOutput :=
  (s.withRelay step.1, s.tellAll step.2)

def onConnection (s : System) (conn : String) (f : ConnectionState → System × List SystemOutput) :
    System × List SystemOutput :=
  match s.relay.connection conn with
  | none => (s, [])
  | some c => f c

def connect (s : System) (grant : GrantRecord) (token : Option String) : System × List SystemOutput :=
  let id := connectionName s.nextConn
  ({ s with
      world := { s.world with
        shared := { s.relay with connections := s.relay.connections.set id (freshConnection id grant) } }
      nextConn := s.nextConn + 1
      credentials := token.toList.map (Prod.mk id) ++ s.credentials },
    s.tell id (.greeting grant.readOnly grant.files) ++
      if mayApprove s.relay.now (freshConnection id grant) then
        s.relay.pendingApprovals.flatMap fun request => s.tell id (.approvalRequest request)
      else [])

/-- `closeRevokedConnections`: the sockets that came in with one of these tokens. -/
def revoke (s : System) (tokens : List String) : System :=
  { s with
    shut := (s.credentials.filter fun credential => tokens.contains credential.2).map Prod.fst ++ s.shut
    revoked := tokens ++ s.revoked }

/-- The messages of a connection are handled one after another. -/
def next (s : System) (conn : String) (c : ConnectionState) : System × List SystemOutput :=
  if s.busy conn then (s, [])
  else
    match c.queue with
    | [] => (s, [])
    | msg :: rest =>
      (s.withRelay (s.relay.updateConnection (fun c => { c with queue := rest }) conn)).run
        (.start (.message conn msg))

def shutSocket (s : System) (conn : String) : System := { s with shut := conn :: s.shut }

def step (s : System) : SystemEvent → System × List SystemOutput
  | .connect grant token => s.connect grant token
  | .message conn msg => (s.withRelay (s.relay.updateConnection (RelayState.enqueue msg) conn), [])
  | .next conn => s.onConnection conn (s.next conn)
  | .exec task x => s.run (.exec task x)
  | .resume task => s.run (.resume task)
  | .begin job =>
    match s.jobs[job]? with
    | none => (s, [])
    | some begun => { s with jobs := s.jobs.eraseIdx job }.run (.start (.job begun))
  | .errand errand => s.run (.start errand.task)
  | .shut conn => (s.shutSocket conn, [])
  | .close conn =>
    ((s.shutSocket conn).withRelay (s.relay.updateConnection (fun c => { c with closing := true }) conn), [])
  | .teardown conn => s.onConnection conn fun c =>
      if c.closing && !s.busy conn && c.queue.isEmpty then s.run (.start (.removal conn)) else (s, [])
  | .hangUp conn => s.onConnection conn fun c =>
      if c.removed then (s, []) else (s.shutSocket conn).run (.start (.removal conn))
  | .revoke tokens => (s.revoke tokens, [])
  | .ptyReady bridge => s.fromPty (s.relay.ptyReady bridge)
  | .ptyData bridge data => s.fromPty (s.relay.ptyData bridge data)
  | .ptyExit bridge exitCode =>
    match s.relay.endedRecording bridge with
    | some id => (s.withRelay (s.relay.ptyExit bridge exitCode).1).run (.start (.recordingOver id .ended))
    | none => s.fromPty (s.relay.ptyExit bridge exitCode)
  | .fileChanged conn path changed => s.onConnection conn fun c =>
      (s, if c.watchers.contains path then s.tell conn (.fileChanged changed) else [])
  | .paired label => (s, s.broadcast fun _ => some (.devicePaired label))
  | .approvalRequest id =>
    if s.relay.pendingApprovals = [] ∧ (s.relay.others none).any (mayApprove s.relay.now) then
      (s.withRelay { s.relay with pendingApprovals := [id] },
        s.broadcast fun c => if mayApprove s.relay.now c then some (.approvalRequest id) else none)
    else (s, [])
  | .approvalResolved id =>
    (s.withRelay { s.relay with pendingApprovals := s.relay.pendingApprovals.filter (· ≠ id) },
      s.broadcast fun c => if mayApprove s.relay.now c then some (.approvalResolved id) else none)
  | .tick ms => (s.withRelay { s.relay with now := s.relay.now + ms }, [])

end System

def systemMachine (host : Host) : Machine System SystemEvent SystemOutput := ⟨.start host, System.step⟩

end Mtmux.Relay
