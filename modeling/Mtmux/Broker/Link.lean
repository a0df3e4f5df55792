import Mtmux.Broker.TunnelRegistry

/-! The tunnel half of the broker: the agent's, the browser's and the requester's
sockets, the access requests between them, and metering. Awaited answers of the
accounts service are events of their own, so anything may happen before them. -/
namespace Mtmux.Broker
open Protocol

/-- A request is four messages. -/
def maxPendingRequest : Nat := 8

/-- `rnd` is the process's random draws; the rest is the device crypto, the
quotas, the keyed hash of tunnel ids, and whether accounts are metered. -/
structure LinkConfig where
  rnd : Nat → String
  quotas : Quotas
  mac : String → String
  verifyChallenge : String → String → String → Bool
  deviceIdFor : String → String
  metering : Bool

structure AccessRequest where
  id : String
  deviceId : String
  expiresAt : Nat
  deviceLabel : String
  accountEmail : String
  forwarded : Bool
  browser : Option Nat
  pending : List RequestServerMessage

/-- The closure of a socket's handlers. A browser's keeps the tunnel object and
the stream it was given at attach. -/
inductive LinkHandle where
  | agent (challenge : String) (tunnelId : Option String)
  | request (requestId : String)
  | browser (tunnelId : String) (reg : Nat) (streamId : String)
  deriving DecidableEq

/-- Where the metering of a registration waits. -/
inductive MeterStage where
  | owner | decision
  deriving DecidableEq

structure Link where
  registry : TunnelRegistry
  requests : OrderedMap String AccessRequest
  pendingByDevice : OrderedMap String String
  sockets : OrderedMap Nat LinkHandle
  nextSocket : Nat
  drawn : Nat
  meters : OrderedMap Nat MeterStage

/- A received frame, by the schema that accepts it. -/
inductive LinkFrame where
  | tunnel (message : TunnelClientMessage)
  | request (message : RequestClientMessage)
  | malformed
  deriving DecidableEq

/- `revoke` is the registry's `close` with that reason, which it offers to its
   owner. -/
inductive LinkEvent where
  | pairRequest (deviceId deviceLabel accountEmail : String)
  | attachAgent
  | attachRequest (requestId : String)
  | attachTunnel (tunnelId : String)
  | message (sock : Nat) (raw : LinkFrame)
  | close (sock : Nat)
  | ownerAnswer (reg : Nat) (owner : Option String)
  | checkAnswer (reg : Nat) (allowed : Bool) (reason : Option String)
  | meterFailed (reg : Nat)
  | revoke (tunnelId : String)
  deriving DecidableEq

namespace Link
variable (cfg : LinkConfig) (now : Nat)

def create : Link :=
  ⟨TunnelRegistry.create, OrderedMap.empty, OrderedMap.empty, OrderedMap.empty, 0, 0,
    OrderedMap.empty⟩

def dropRequest (l : Link) (requestId : String) : Link :=
  match l.requests.get requestId with
  | none => l
  | some request =>
    { l with
      requests := l.requests.delete requestId
      pendingByDevice :=
        if l.pendingByDevice.get request.deviceId = some requestId then
          l.pendingByDevice.delete request.deviceId
        else l.pendingByDevice }

def liveRequest (l : Link) (requestId : String) : Link × Option AccessRequest :=
  match l.requests.get requestId with
  | none => (l, none)
  | some request =>
    if expired request.expiresAt now then (l.dropRequest requestId, none) else (l, some request)

/-- Deliver to the browser, buffering until its socket attaches. -/
def toBrowser (l : Link) (request : AccessRequest) (message : RequestServerMessage) :
    Link × List LinkOut :=
  match request.browser with
  | some sock => (l, [.reply request.id (some sock) message])
  | none =>
    if request.pending.length < maxPendingRequest then
      let request := { request with pending := request.pending ++ [message] }
      ({ l with requests := l.requests.set request.id request },
        [.reply request.id none message])
    else (l, [])

/-- Open a request on a machine that is online and has none waiting. -/
def openRequest (l : Link) (deviceId deviceLabel accountEmail : String) : Link × List LinkOut :=
  let requestId := "req-" ++ cfg.rnd l.drawn
  let request : AccessRequest :=
    ⟨requestId, deviceId, now + requestTtlMs, deviceLabel, accountEmail, false, none, []⟩
  ({ l with
      requests := l.requests.set requestId request
      pendingByDevice := l.pendingByDevice.set deviceId requestId
      drawn := l.drawn + 1 },
    [.http ⟨200, .request requestId (now + requestTtlMs), none⟩])

def pairRequest (l : Link) (deviceId deviceLabel accountEmail : String) : Link × List LinkOut :=
  let (reg, found, out) := l.registry.byDevice deviceId now
  let l := { l with registry := reg }
  match found with
  | none => (l, out ++ [.http ⟨409, .error "That machine is not online right now.", none⟩])
  | some _ =>
    match l.pendingByDevice.get deviceId with
    | none =>
      let (l, opened) := openRequest cfg now l deviceId deviceLabel accountEmail
      (l, out ++ opened)
    | some existing =>
      match liveRequest now l existing with
      | (l, some _) =>
        (l, out ++ [.http ⟨409, .error "That machine already has a request waiting.", none⟩])
      | (l, none) =>
        let (l, opened) := openRequest cfg now l deviceId deviceLabel accountEmail
        (l, out ++ opened)

/- WS /v1/agent, the machine's persistent tunnel. -/

def attachAgentSocket (l : Link) : Link × List LinkOut :=
  let sock := l.nextSocket
  let challenge := cfg.rnd l.drawn
  ({ l with
      sockets := l.sockets.set sock (.agent challenge none)
      nextSocket := sock + 1
      drawn := l.drawn + 1 },
    [.send sock (.challenge challenge)])

def agentRegister (l : Link) (sock : Nat) (challenge : String) (msg : TunnelClientMessage) :
    Link × List LinkOut :=
  match msg with
  | .register deviceId publicKey answered signature =>
    if answered = challenge ∧ cfg.verifyChallenge publicKey challenge signature ∧
        cfg.deviceIdFor publicKey = deviceId then
      let (reg, (r, tunnel), out) :=
        l.registry.register cfg.quotas cfg.mac deviceId publicKey sock now
      ({ l with
          registry := reg
          sockets := l.sockets.set sock (.agent challenge (some tunnel.id))
          meters := if cfg.metering then l.meters.set r .owner else l.meters },
        out ++ [.send sock (.ready tunnel.id)])
    else (l, [.close sock 1008 "Registration failed"])
  | _ => (l, [.close sock 1008 "Must register first"])

/-- A machine's answer to a request it was sent. -/
def agentReply (l : Link) (tunnel : Tunnel) (message : RequestServerMessage) :
    Link × List LinkOut :=
  match liveRequest now l message.requestId with
  | (l, none) => (l, [])
  | (l, some request) =>
    if request.deviceId ≠ tunnel.deviceId then (l, [])
    else
      let (l, out) := toBrowser l request message
      -- An approval or a refusal ends the request either way.
      (if message.isDecision then l.dropRequest message.requestId else l, out)

/-- The handlers work on whatever registration the socket's tunnel id names now. -/
def agentServe (l : Link) (sock : Nat) (tunnelId : String) (msg : TunnelClientMessage) :
    Link × List LinkOut :=
  let (reg, found, out) := l.registry.get tunnelId now
  let l := { l with registry := reg }
  match found with
  | none => (l, out ++ [.close sock 1000 "Tunnel gone"])
  | some (r, tunnel) =>
    match msg with
    | .streamClose streamId reason =>
      let (reg, out) := l.registry.closeStream r streamId reason
      ({ l with registry := reg }, out)
    | .streamFrame streamId data =>
      match l.registry.charge cfg.quotas r data.length with
      | (reg, false, out) =>
        ({ l with registry := reg }, out ++ [.close sock 1008 "Quota exceeded"])
      | (reg, true, _) =>
        ({ l with registry := reg },
          ((tunnel.streams.get streamId).bind Stream.browser).toList.map fun browser =>
            .toBrowser r browser (.streamFrame streamId data))
    | .reply message => agentReply now l tunnel message
    | .register _ _ _ _ => (l, [.close sock 1008 "Already registered"])

def agentMessage (l : Link) (sock : Nat) (challenge : String) (tunnelId : Option String)
    (raw : LinkFrame) : Link × List LinkOut :=
  match raw, tunnelId with
  | .tunnel msg, none => agentRegister cfg now l sock challenge msg
  | .tunnel msg, some tunnelId => agentServe cfg now l sock tunnelId msg
  | _, _ => (l, [.close sock 1008 "Malformed message"])

/-- Fold a finished tunnel's totals into its owner's usage. -/
def settle (r : Nat) (tunnel : Tunnel) : List LinkOut :=
  match tunnel.owner with
  | none => []
  | some userId =>
    if cfg.metering then
      [.recordUsage r userId tunnel.bytes ((now - tunnel.createdAt + 500) / 1000)]
    else []

def agentGone (l : Link) (sock : Nat) (tunnelId : Option String) : Link × List LinkOut :=
  let l := { l with sockets := l.sockets.delete sock }
  match tunnelId with
  | none => (l, [])
  | some tunnelId =>
    let (reg, found, out) := l.registry.get tunnelId now
    let settled := found.elim [] fun (r, tunnel) => settle cfg now r tunnel
    let (reg, dropped) := reg.drop tunnelId .agentGone
    ({ l with registry := reg }, out ++ settled ++ dropped)

/- Metering of a registration: who owns the device, then what the plan says. -/

def ownerAnswer (l : Link) (r : Nat) (owner : Option String) : Link :=
  match l.meters.get r, owner with
  | some .owner, none => { l with meters := l.meters.delete r }
  | some .owner, some userId =>
    { l with
      registry := l.registry.update r fun tunnel => { tunnel with userId := some userId }
      meters := l.meters.set r .decision }
  | _, _ => l

/-- Mark the tunnel, then close whatever its id names now. -/
def block (l : Link) (r : Nat) (reason : String) : Link × List LinkOut :=
  match l.registry.objs[r]? with
  | none => (l, [])
  | some tunnel =>
    let (reg, out) := (l.registry.update r fun tunnel =>
      { tunnel with blocked := some reason }).drop tunnel.id .quotaExceeded
    ({ l with registry := reg }, out)

def checkAnswer (l : Link) (r : Nat) (allowed : Bool) (reason : Option String) :
    Link × List LinkOut :=
  if l.meters.get r = some .decision then
    let l := { l with meters := l.meters.delete r }
    if allowed then (l, []) else block l r (reason.getD "Plan limit reached")
  else (l, [])

/- WS /v1/request/:requestId, the browser that asked for access. -/

def attachRequestSocket (l : Link) (requestId : String) : Link × List LinkOut :=
  let sock := l.nextSocket
  match liveRequest now { l with nextSocket := sock + 1 } requestId with
  | (l, none) =>
    (l, [.answer sock (.denied requestId .unknownRequest),
      .close sock 1008 "Unknown or expired request"])
  | (l, some request) =>
    if request.browser ≠ none then (l, [.close sock 1008 "Request already attached"])
    else
      ({ l with
          requests := l.requests.set requestId { request with browser := some sock, pending := [] }
          sockets := l.sockets.set sock (.request requestId) },
        request.pending.map fun message => .flushed requestId sock message)

/-- A commitment is forwarded once, under the socket's own id; a reveal after it,
as it came. -/
def requestForward (l : Link) (requestId : String) (live : AccessRequest) (r : Nat)
    (tunnel : Tunnel) (msg : RequestClientMessage) : Link × List LinkOut :=
  match msg with
  | .commit _ commitment =>
    if live.forwarded then (l, [])
    else
      ({ l with requests := l.requests.set requestId { live with forwarded := true } },
        [.toAgent r tunnel.agent
          (.request requestId commitment live.deviceLabel live.accountEmail)])
  | .reveal named browserPublicKey =>
    if live.forwarded then (l, [.toAgent r tunnel.agent (.reveal named browserPublicKey)])
    else (l, [])

def requestMessage (l : Link) (sock : Nat) (requestId : String) (raw : LinkFrame) :
    Link × List LinkOut :=
  match raw with
  | .request msg =>
    match liveRequest now l requestId with
    | (l, none) => (l, [.answer sock (.denied requestId .timeout), .close sock 1000 "Expired"])
    | (l, some live) =>
      let (reg, found, out) := l.registry.byDevice live.deviceId now
      let l := { l with registry := reg }
      match found with
      | none =>
        (l.dropRequest requestId, out ++ [.answer sock (.denied requestId .agentGone)])
      | some (r, tunnel) => requestForward l requestId live r tunnel msg
  | _ => (l, [.close sock 1008 "Malformed message"])

/-- The browser walked away, and its request with it. -/
def requestGone (l : Link) (sock : Nat) (requestId : String) : Link :=
  ({ l with sockets := l.sockets.delete sock }).dropRequest requestId

/- WS /v1/tunnel/:tunnelId, the browser. -/

def attachTunnelSocket (l : Link) (tunnelId : String) : Link × List LinkOut :=
  let sock := l.nextSocket
  let (reg, found, out) := l.registry.get tunnelId now
  let l := { l with registry := reg, nextSocket := sock + 1 }
  match found with
  | none => (l, out ++ [.send sock (.closed .agentGone), .close sock 1008 "Unknown tunnel"])
  | some (r, _) =>
    let streamId := "str-" ++ cfg.rnd l.drawn
    match l.registry.openStream cfg.quotas r streamId sock now with
    | (_, false, _) =>
      (l, [.send sock (.closed .quotaExceeded), .close sock 1008 "Too many streams"])
    | (reg, true, out) =>
      ({ l with
          registry := reg
          sockets := l.sockets.set sock (.browser tunnelId r streamId)
          drawn := l.drawn + 1 },
        out ++ [.send sock (.streamOpen streamId)])

/-- The browser's handlers work on the registration captured at attach. -/
def browserMessage (l : Link) (sock r : Nat) (streamId : String) (raw : LinkFrame) :
    Link × List LinkOut :=
  match raw with
  | .tunnel (.streamClose named reason) =>
    if named ≠ streamId then (l, [.close sock 1008 "Unknown stream"])
    else
      let (reg, out) := l.registry.closeStream r streamId reason
      ({ l with registry := reg }, out ++ [.close sock 1000 "Closed"])
  | .tunnel (.streamFrame named data) =>
    if named ≠ streamId then (l, [.close sock 1008 "Unknown stream"])
    else
      match l.registry.charge cfg.quotas r data.length with
      | (reg, false, out) =>
        ({ l with registry := reg }, out ++ [.close sock 1008 "Quota exceeded"])
      | (reg, true, _) =>
        ({ l with registry := reg },
          (l.registry.objs[r]?).toList.map fun tunnel =>
            .toAgent r tunnel.agent (.streamFrame streamId data))
  | .tunnel _ => (l, [.close sock 1008 "Unexpected message"])
  | _ => (l, [.close sock 1008 "Malformed message"])

def browserGone (l : Link) (sock : Nat) (tunnelId streamId : String) : Link × List LinkOut :=
  let (reg, found, out) := l.registry.get tunnelId now
  let l := { l with registry := reg, sockets := l.sockets.delete sock }
  match found with
  | none => (l, out)
  | some (r, _) =>
    let (reg, told) := l.registry.closeStream r streamId (some "browser-gone")
    ({ l with registry := reg }, told)

/-- Drop requests nobody decided. -/
def sweepRequests (l : Link) : Link :=
  l.requests.keys.foldl (fun l requestId => (liveRequest now l requestId).1) l

def sweepTunnels (l : Link) : Link × List LinkOut :=
  let (reg, out) := l.registry.sweep now
  ({ l with registry := reg }, out)

def step (l : Link) : LinkEvent → Link × List LinkOut
  | .pairRequest deviceId deviceLabel accountEmail =>
    pairRequest cfg now l deviceId deviceLabel accountEmail
  | .attachAgent => attachAgentSocket cfg l
  | .attachRequest requestId => attachRequestSocket now l requestId
  | .attachTunnel tunnelId => attachTunnelSocket cfg now l tunnelId
  | .message sock raw =>
    match l.sockets.get sock with
    | none => (l, [])
    | some (.agent challenge tunnelId) => agentMessage cfg now l sock challenge tunnelId raw
    | some (.request requestId) => requestMessage now l sock requestId raw
    | some (.browser _ r streamId) => browserMessage cfg l sock r streamId raw
  | .close sock =>
    match l.sockets.get sock with
    | none => (l, [])
    | some (.agent _ tunnelId) => agentGone cfg now l sock tunnelId
    | some (.request requestId) => (requestGone l sock requestId, [])
    | some (.browser tunnelId _ streamId) => browserGone now l sock tunnelId streamId
  | .ownerAnswer r owner => (ownerAnswer l r owner, [])
  | .checkAnswer r allowed reason => checkAnswer l r allowed reason
  | .meterFailed r => ({ l with meters := l.meters.delete r }, [])
  | .revoke tunnelId =>
    let (reg, out) := l.registry.drop tunnelId .revoked
    ({ l with registry := reg }, out)

end Link
end Mtmux.Broker
