import Mtmux.Base.Machine
import Mtmux.Protocol.Messages
import Mtmux.Relay.SessionTokens

/-! The sockets of the relay: how one becomes an authenticated connection, and what a revocation
does to those that did. -/
namespace Mtmux.Relay
open Protocol

def failuresBeforeLockout : Nat := 5
def baseLockoutMs : Nat := 30000
def maxLockoutMs : Nat := 900000
def throttleTtlMs : Nat := 3600000
def throttleMaxEntries : Nat := 10000

structure ThrottleEntry where
  failures : Nat
  lockedUntil : Nat
  lockoutMs : Nat
  touchedAt : Nat
  deriving DecidableEq

abbrev AuthThrottle : Type := OrderedMap String ThrottleEntry

namespace AuthThrottle

/-- Only a large table is swept; what is still over the cap loses its oldest entries. -/
def sweep (entries : AuthThrottle) (now : Nat) : AuthThrottle :=
  if entries.size < 256 then entries
  else
    let fresh := entries.filter fun _ entry =>
      !(decide (throttleTtlMs < now - entry.touchedAt) && decide (entry.lockedUntil ≤ now))
    let oldest := (fresh.entries.mergeSort fun a b => decide (a.2.touchedAt ≤ b.2.touchedAt)).take
      (fresh.size - throttleMaxEntries)
    fresh.filter fun address _ => !(oldest.map Prod.fst).contains address

/-- For how long the address has to wait, if at all. -/
def checkAuthThrottle (entries : AuthThrottle) (address : String) (now : Nat) : Option Nat :=
  if address = "" then none
  else
    match entries.get address with
    | none => none
    | some entry => if entry.lockedUntil ≤ now then none else some (entry.lockedUntil - now)

def recordAuthFailure (entries : AuthThrottle) (address : String) (now : Nat) : AuthThrottle :=
  if address = "" then entries
  else
    let swept := entries.sweep now
    let entry := (swept.get address).getD ⟨0, 0, 0, now⟩
    let failures := entry.failures + 1
    let lockoutMs := if failuresBeforeLockout ≤ failures then
        if entry.lockoutMs = 0 then baseLockoutMs else min (entry.lockoutMs * 2) maxLockoutMs
      else entry.lockoutMs
    let lockedUntil := if failuresBeforeLockout ≤ failures then now + lockoutMs
      else entry.lockedUntil
    swept.set address ⟨failures, lockedUntil, lockoutMs, now⟩

def recordAuthSuccess (entries : AuthThrottle) (address : String) : AuthThrottle :=
  if address = "" then entries else entries.delete address

end AuthThrottle

/-- How many messages have come since the current second began. -/
structure RateLimiter where
  count : Nat
  windowStart : Nat

def RateLimiter.check (limiter : RateLimiter) (limit now : Nat) : RateLimiter × Bool :=
  let limiter := if 1000 ≤ now - limiter.windowStart then ⟨0, now⟩ else limiter
  ({ limiter with count := limiter.count + 1 }, decide (limiter.count + 1 ≤ limit))

inductive ReadyState where
  | opened | closing | closed
  deriving DecidableEq

/-- What a credential is good for. There is no token id behind the machine's own token. -/
structure AuthResult where
  grant : GrantRecord
  label : Option String
  tokenId : Option String

/-- One socket, from its upgrade on. `admitting` has the result a human is being asked about;
`leaving` says that the machine hung up, `removed` that it is out of the table. -/
structure Socket where
  ws : ReadyState
  address : String
  userAgent : Option String
  authTimer : Bool
  limiter : RateLimiter
  admitting : Option AuthResult
  authenticated : Bool
  grant : GrantRecord
  label : Option String
  tokenId : Option String
  lastActivityAt : Nat
  queue : List ClientMessage
  draining : Bool
  closing : Bool
  leaving : Bool
  removed : Bool

structure Gateway where
  now : Nat
  sessions : Sessions
  throttle : AuthThrottle
  sockets : OrderedMap Nat Socket

structure GatewayConfig where
  authToken : String
  wsRateLimit : Nat

inductive GatewayEvent where
  | connect (socket : Nat) (address : String) (userAgent : Option String)
  | message (socket : Nat) (msg : Except String ClientMessage)
  | admission (socket : Nat) (admitted : Bool)
  | handled (socket : Nat)
  | authTimeout (socket : Nat)
  | close (socket : Nat)
  | teardown (socket : Nat)
  | hangUp (socket : Nat)
  | shut (socket : Nat)
  | register (token : String) (ttlMs : Nat) (grant : GrantRecord) (label deviceId : Option String)
  | lookup (token : String)
  | revokeSessionToken (token : String)
  | revokeGrant (grantId : String)
  | tick (ms : Nat)

inductive ScopeKind where
  | all | sessions | recordings

inductive GatewayMessage where
  | error (code message : String)
  | authFailure (reason : String) (code : Option String)
  | authSuccess (readOnly : Bool) (files : GrantFiles) (scope : ScopeKind)
  | serverInfo (withDefaultPath : Bool)

inductive GatewayOutput where
  | send (socket : Nat) (msg : GatewayMessage)
  | ask (socket : Nat) (tokenId deviceId label : Option String)
  | route (socket : Nat) (msg : ClientMessage)
  | wsClose (socket code : Nat)
  | used (deviceId : String)

def scopeKind : GrantScope → ScopeKind
  | .all => .all
  | .sessions _ => .sessions
  | .recordings _ => .recordings

namespace Socket

/-- `ws.close()`: the closing handshake begins, and what is on the wire still arrives. -/
def shut (c : Socket) : Socket :=
  { c with ws := match c.ws with
    | .opened => .closing
    | state => state }

def send (c : Socket) (id : Nat) (msg : GatewayMessage) : List GatewayOutput :=
  if c.ws = .opened then [.send id msg] else []

/-- One more message for the handlers, which take them one by one. -/
def enqueue (c : Socket) (id : Nat) (msg : ClientMessage) : Socket × List GatewayOutput :=
  if c.closing then (c, [])
  else if c.draining then ({ c with queue := c.queue ++ [msg] }, [])
  else ({ c with draining := true }, [.route id msg])

/-- The handler of one message is done. -/
def handled (c : Socket) (id : Nat) : Socket × List GatewayOutput :=
  if c.draining then
    match c.queue with
    | [] => ({ c with draining := false }, [])
    | msg :: queue => ({ c with queue := queue }, [.route id msg])
  else (c, [])

/-- The gate has answered. -/
def admission (c : Socket) (id : Nat) (result : AuthResult) (admitted : Bool) :
    Socket × List GatewayOutput :=
  let c := { c with admitting := none }
  if c.ws ≠ .opened then (c, [])
  else if !admitted then
    (c.shut, c.send id (.authFailure "Not approved on the machine" (some "unapproved")))
  else
    ({ c with
        authenticated := true
        grant := result.grant
        label := result.label
        tokenId := result.tokenId },
      c.send id (.authSuccess result.grant.readOnly result.grant.files (scopeKind result.grant.scope)) ++
        c.send id (.serverInfo (result.grant.files ≠ .none)))

end Socket

namespace Gateway

def set (s : Gateway) (id : Nat) (c : Socket) : Gateway :=
  { s with sockets := s.sockets.set id c }

def put (s : Gateway) (id : Nat) (r : Socket × List GatewayOutput) : Gateway × List GatewayOutput :=
  (s.set id r.1, r.2)

def retrySeconds (ms : Nat) : Nat := (ms + 999) / 1000

/-- The machine's own token or a registered one, with backoff for an address that keeps failing. -/
def authenticateMessage (s : Gateway) (cfg : GatewayConfig) (address : String) (msg : ClientMessage) :
    Gateway × Except String AuthResult × List GatewayOutput :=
  match msg with
  | .auth token =>
    match s.throttle.checkAuthThrottle address s.now with
    | some retryAfterMs =>
      (s, .error ("Too many failed attempts. Try again in " ++ toString (retrySeconds retryAfterMs) ++
        "s."), [])
    | none =>
      if token = cfg.authToken then
        ({ s with throttle := s.throttle.recordAuthSuccess address },
          .ok ⟨fullGrant, s.sessions.labelForToken token s.now, none⟩, [])
      else
        let found := s.sessions.grantForToken token s.now
        match found.grant with
        | none =>
          ({ s with
              sessions := found.sessions
              throttle := s.throttle.recordAuthFailure address s.now }, .error "Invalid token", [])
        | some grant =>
          ({ s with
              sessions := found.sessions
              throttle := s.throttle.recordAuthSuccess address },
            .ok ⟨grant, found.sessions.labelForToken token s.now, some token⟩,
            found.used.toList.map .used)
  | _ => (s, .error "First message must be auth", [])

def firstMessage (s : Gateway) (cfg : GatewayConfig) (id : Nat) (c : Socket) (msg : ClientMessage) :
    Gateway × List GatewayOutput :=
  let c := { c with authTimer := false }
  match s.authenticateMessage cfg c.address msg with
  | (s, .error reason, out) => (s.set id c.shut, out ++ c.send id (.authFailure reason none))
  | (s, .ok result, out) =>
    (s.set id { c with admitting := some result },
      out ++ [.ask id result.tokenId (result.tokenId.bind s.sessions.deviceIdForTokenId) result.label])

def message (s : Gateway) (cfg : GatewayConfig) (id : Nat) (c : Socket)
    (msg : Except String ClientMessage) : Gateway × List GatewayOutput :=
  let c := { c with lastActivityAt := s.now }
  if c.admitting.isSome then (s.set id c, [])
  else
    match c.limiter.check cfg.wsRateLimit s.now with
    | (limiter, false) =>
      (s.set id { c with limiter := limiter },
        c.send id (.error "RATE_LIMITED" "Too many messages"))
    | (limiter, true) =>
      let c := { c with limiter := limiter }
      match msg with
      | .error reason => (s.set id c, c.send id (.error "INVALID_MESSAGE" reason))
      | .ok msg =>
        if !c.authenticated then s.firstMessage cfg id c msg
        else s.put id (c.enqueue id msg)

def isRevoked (tokenIds : List String) (c : Socket) : Bool :=
  !c.removed && c.tokenId.any tokenIds.contains

def closeRevokedConnections (s : Gateway) (tokenIds : List String) : Gateway × List GatewayOutput :=
  ({ s with sockets := s.sockets.mapValues fun c => if isRevoked tokenIds c then c.shut else c },
    (s.sockets.entries.filter fun p => isRevoked tokenIds p.2).map fun p => .wsClose p.1 1008)

def revoked (s : Gateway) (table : Sessions × List String) : Gateway × List GatewayOutput :=
  { s with sessions := table.1 }.closeRevokedConnections table.2

/-- What an event does to the socket it is about. -/
def onSocket (s : Gateway) (id : Nat) (f : Socket → Gateway × List GatewayOutput) :
    Gateway × List GatewayOutput :=
  match s.sockets.get id with
  | none => (s, [])
  | some c => f c

def step (cfg : GatewayConfig) (s : Gateway) : GatewayEvent → Gateway × List GatewayOutput
  | .connect id address userAgent =>
    if s.sockets.has id then (s, [])
    else
      (s.set id
        { ws := .opened
          address := address
          userAgent := userAgent
          authTimer := true
          limiter := ⟨0, s.now⟩
          admitting := none
          authenticated := false
          grant := fullGrant
          label := none
          tokenId := none
          lastActivityAt := s.now
          queue := []
          draining := false
          closing := false
          leaving := false
          removed := false }, [])
  | .message id msg => s.onSocket id fun c =>
      if c.ws = .closed then (s, []) else s.message cfg id c msg
  | .admission id admitted => s.onSocket id fun c =>
      match c.admitting with
      | none => (s, [])
      | some result => s.put id (c.admission id result admitted)
  | .handled id => s.onSocket id fun c => s.put id (c.handled id)
  | .authTimeout id => s.onSocket id fun c =>
      if c.authTimer then
        (s.set id { c.shut with authTimer := false },
          c.send id (.authFailure "Authentication timeout" none))
      else (s, [])
  | .close id => s.onSocket id fun c =>
      (s.set id { c with ws := .closed, authTimer := false, closing := true }, [])
  | .teardown id => s.onSocket id fun c =>
      if c.leaving || (c.closing && !c.draining) then (s.set id { c with removed := true }, [])
      else (s, [])
  | .hangUp id => s.onSocket id fun c =>
      if c.removed then (s, []) else (s.set id { c.shut with leaving := true }, [.wsClose id 1000])
  | .shut id => s.onSocket id fun c => (s.set id c.shut, [])
  | .register token ttlMs grant label deviceId =>
    ({ s with sessions := s.sessions.registerSessionToken token ttlMs s.now grant label deviceId }, [])
  | .lookup token =>
    let found := s.sessions.grantForToken token s.now
    ({ s with sessions := found.sessions }, found.used.toList.map .used)
  | .revokeSessionToken token => s.revoked (s.sessions.revokeSessionToken token)
  | .revokeGrant grantId => s.revoked (s.sessions.revokeGrant grantId)
  | .tick ms => ({ s with now := s.now + ms }, [])

def start : Gateway where
  now := 0
  sessions := .empty
  throttle := .empty
  sockets := .empty

end Gateway

def gatewayMachine (cfg : GatewayConfig) : Machine Gateway GatewayEvent GatewayOutput where
  init := .start
  step := Gateway.step cfg

end Mtmux.Relay
