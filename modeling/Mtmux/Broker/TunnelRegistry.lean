import Mtmux.Broker.MailboxStore

/-! Live reverse tunnels: one agent sink per device, the browser streams pinned to
it, and the quotas. Socket handlers keep a tunnel object after the registry has
replaced it, so every registration ever made has its own number and stays in
`objs`; the registry's map sends a tunnel id to the current one. -/
namespace Mtmux.Broker
open Protocol

/-- `browser` is the socket whose `send` the sink closes over. -/
structure Stream where
  id : String
  openedAt : Nat
  browser : Option Nat

structure Tunnel where
  id : String
  deviceId : String
  publicKey : String
  createdAt : Nat
  expiresAt : Nat
  bytes : Nat
  userId : Option String
  blocked : Option String
  agent : Nat
  streams : OrderedMap String Stream

structure Quotas where
  maxBytes : Nat
  maxMinutes : Nat
  maxStreams : Nat

/-- The account a tunnel is charged to; an empty id is no account. -/
def Tunnel.owner (tunnel : Tunnel) : Option String := tunnel.userId.filter (· ≠ "")

/-- A tunnel refuses new streams when it was given a reason to. -/
def Tunnel.refusing (tunnel : Tunnel) : Bool := tunnel.blocked.any (· ≠ "")

/- What the tunnel half does to the world. `toAgent` and `toBrowser` go through the
   sinks of a registration and name it; `reply` is a machine's answer handed to
   a request's browser, into its buffer when `via` is `none`; `flushed` is such
   an answer leaving the buffer. The others are a handler's own calls. -/
inductive LinkOut where
  | toAgent (reg sock : Nat) (message : TunnelServerMessage)
  | toBrowser (reg sock : Nat) (message : TunnelServerMessage)
  | reply (requestId : String) (via : Option Nat) (message : RequestServerMessage)
  | flushed (requestId : String) (sock : Nat) (message : RequestServerMessage)
  | send (sock : Nat) (message : TunnelServerMessage)
  | answer (sock : Nat) (message : RequestServerMessage)
  | close (sock code : Nat) (reason : String)
  | recordUsage (reg : Nat) (userId : String) (bytes seconds : Nat)
  | http (result : HttpResult)
  deriving DecidableEq

structure TunnelRegistry where
  objs : List Tunnel
  tunnels : OrderedMap String Nat
  byDeviceId : OrderedMap String String
  epochs : OrderedMap String Nat

/-- `mac` is the printed prefix of the keyed hash that tunnel ids are made of. -/
def deriveTunnelId (mac : String → String) (deviceId : String) (epoch : Nat) : String :=
  "tnl-" ++ mac (deviceId ++ ":" ++ toString epoch)

namespace TunnelRegistry

def create : TunnelRegistry := ⟨[], OrderedMap.empty, OrderedMap.empty, OrderedMap.empty⟩

def current (reg : TunnelRegistry) (tunnelId : String) : Option (Nat × Tunnel) :=
  match reg.tunnels.get tunnelId with
  | none => none
  | some r => (reg.objs[r]?).map fun tunnel => (r, tunnel)

def update (reg : TunnelRegistry) (r : Nat) (f : Tunnel → Tunnel) : TunnelRegistry :=
  { reg with objs := reg.objs.modify r f }

def closing (r : Nat) (tunnel : Tunnel) (reason : TunnelClosedReason) : List LinkOut :=
  (tunnel.streams.values.filterMap fun stream =>
      stream.browser.map fun sock => .toBrowser r sock (.closed reason)) ++
    [.toAgent r tunnel.agent (.closed reason)]

def drop (reg : TunnelRegistry) (tunnelId : String) (reason : TunnelClosedReason) :
    TunnelRegistry × List LinkOut :=
  match reg.current tunnelId with
  | none => (reg, [])
  | some (r, tunnel) =>
    ({ objs := reg.objs.modify r fun tunnel => { tunnel with streams := OrderedMap.empty }
       tunnels := reg.tunnels.delete tunnelId
       byDeviceId :=
         if reg.byDeviceId.get tunnel.deviceId = some tunnelId then
           reg.byDeviceId.delete tunnel.deviceId
         else reg.byDeviceId
       -- Revocation is the one close that reconnecting must not undo.
       epochs :=
         if reason = .revoked then
           reg.epochs.set tunnel.deviceId ((reg.epochs.get tunnel.deviceId).getD 0 + 1)
         else reg.epochs },
      closing r tunnel reason)

/-- Add a registration and make it the current one of its device. -/
def install (reg : TunnelRegistry) (tunnel : Tunnel) : TunnelRegistry :=
  { reg with
    objs := reg.objs ++ [tunnel]
    tunnels := reg.tunnels.set tunnel.id reg.objs.length
    byDeviceId := reg.byDeviceId.set tunnel.deviceId tunnel.id }

variable (quotas : Quotas) (mac : String → String)

/-- One tunnel per device: the old one is dropped first. -/
def register (reg : TunnelRegistry) (deviceId publicKey : String) (agent now : Nat) :
    TunnelRegistry × (Nat × Tunnel) × List LinkOut :=
  let (reg, out) :=
    match reg.byDeviceId.get deviceId with
    | none => (reg, [])
    | some existing => reg.drop existing .agentGone
  let tunnel : Tunnel :=
    { id := deriveTunnelId mac deviceId ((reg.epochs.get deviceId).getD 0)
      deviceId := deviceId
      publicKey := publicKey
      createdAt := now
      expiresAt := now + quotas.maxMinutes * 60000
      bytes := 0
      userId := none
      blocked := none
      agent := agent
      streams := OrderedMap.empty }
  (reg.install tunnel, (reg.objs.length, tunnel), out)

def get (reg : TunnelRegistry) (tunnelId : String) (now : Nat) :
    TunnelRegistry × Option (Nat × Tunnel) × List LinkOut :=
  match reg.current tunnelId with
  | none => (reg, none, [])
  | some (r, tunnel) =>
    if expired tunnel.expiresAt now then
      let (reg, out) := reg.drop tunnelId .expired
      (reg, none, out)
    else (reg, some (r, tunnel), [])

def byDevice (reg : TunnelRegistry) (deviceId : String) (now : Nat) :
    TunnelRegistry × Option (Nat × Tunnel) × List LinkOut :=
  match reg.byDeviceId.get deviceId with
  | none => (reg, none, [])
  | some tunnelId => reg.get tunnelId now

def openStream (reg : TunnelRegistry) (r : Nat) (id : String) (browser now : Nat) :
    TunnelRegistry × Bool × List LinkOut :=
  match reg.objs[r]? with
  | none => (reg, false, [])
  | some tunnel =>
    if tunnel.refusing then (reg, false, [])
    else if quotas.maxStreams ≤ tunnel.streams.size then (reg, false, [])
    else
      (reg.update r fun tunnel =>
          { tunnel with streams := tunnel.streams.set id ⟨id, now, some browser⟩ },
        true, [.toAgent r tunnel.agent (.streamOpen id)])

def closeStream (reg : TunnelRegistry) (r : Nat) (streamId : String) (reason : Option String) :
    TunnelRegistry × List LinkOut :=
  match reg.objs[r]? with
  | none => (reg, [])
  | some tunnel =>
    match tunnel.streams.get streamId with
    | none => (reg, [])
    | some stream =>
      (reg.update r fun tunnel => { tunnel with streams := tunnel.streams.delete streamId },
        (stream.browser.toList.map fun sock => .toBrowser r sock (.streamClose streamId reason)) ++
          [.toAgent r tunnel.agent (.streamClose streamId reason)])

def addBytes (reg : TunnelRegistry) (r bytes : Nat) : TunnelRegistry :=
  reg.update r fun tunnel => { tunnel with bytes := tunnel.bytes + bytes }

/-- Charge bytes against the quota; false once it is overrun. The drop goes by
the tunnel's id, whatever registration that names by now. -/
def charge (reg : TunnelRegistry) (r bytes : Nat) : TunnelRegistry × Bool × List LinkOut :=
  match reg.objs[r]? with
  | none => (reg, false, [])
  | some tunnel =>
    if quotas.maxBytes < tunnel.bytes + bytes then
      let (reg, out) := (reg.addBytes r bytes).drop tunnel.id .quotaExceeded
      (reg, false, out)
    else (reg.addBytes r bytes, true, [])

/-- Drop the current registrations that have timed out, in the map's order. -/
def sweepIds (reg : TunnelRegistry) (now : Nat) : List String → TunnelRegistry × List LinkOut
  | [] => (reg, [])
  | tunnelId :: ids =>
    let (reg, _, out) := reg.get tunnelId now
    let r := sweepIds reg now ids
    (r.1, out ++ r.2)

def sweep (reg : TunnelRegistry) (now : Nat) : TunnelRegistry × List LinkOut :=
  reg.sweepIds now reg.tunnels.keys

end TunnelRegistry
end Mtmux.Broker
