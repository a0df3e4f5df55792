import Mtmux.Agent.Streams
import Mtmux.Cli.PeerStore
import Mtmux.Relay.SessionTokens

/-! What `mtmux start` trusts, and for how long: the tokens the relay takes, the keys of the tunnel,
and the files that outlive the process. Other commands write the same files from processes of their
own. -/
namespace Mtmux.Cli
open Agent Crypto Protocol Relay

def sessionTtlMs : Nat := 24 * 60 * 60 * 1000
def touchIntervalMs : Nat := 60 * 60 * 1000

/-- A share: `mtmux start --share` makes one of every pairing, `mtmux share` of its own. -/
structure ShareOptions where
  label : String
  scope : GrantScope
  readOnly : Bool
  files : GrantFiles
  expiresAt : Option Nat

def ShareOptions.buildGrant (share : ShareOptions) (hashToken : String → String) (draw : String)
    (now : Nat) (directToken : String) : GrantRecord where
  id := GrantsStore.newGrantId draw
  label := share.label
  scope := share.scope
  readOnly := share.readOnly
  files := share.files
  createdAt := now
  expiresAt := share.expiresAt
  revokedAt := none
  tmuxServerPid := none
  tokenHash := hashToken directToken
  peerDeviceId := none

/-- How a browser came to agree on keys with this machine. A code, and a request that a human granted,
are of one of this process's tunnels; `mtmux pair` and `mtmux share` have tunnels of their own, and
name no device to the relay. -/
inductive Via where
  | code (agent : Nat) (deviceId : String) (grant : Option GrantRecord)
  | request (agent : Nat) (deviceId : String)
  | pair
  | share (grant : GrantRecord)
  deriving DecidableEq

structure Pairing where
  via : Via
  keys : SessionKeys
  label : String

namespace Pairing

def token (p : Pairing) : String := p.keys.directToken

def deviceId (p : Pairing) : Option String :=
  match p.via with
  | .code _ deviceId _ | .request _ deviceId => some deviceId
  | .pair | .share _ => none

def grant (p : Pairing) : Option GrantRecord :=
  match p.via with
  | .code _ _ grant => grant
  | .share grant => some grant
  | .request _ _ | .pair => none

def ttlMs (p : Pairing) : Nat :=
  match p.via with
  | .share _ => sessionTtlMs
  | _ => peerExpiryMs

def identity (p : Pairing) : Option PeerIdentity :=
  p.deviceId.map fun deviceId => ⟨deviceId, p.label, false⟩

/-- The record that outlives the process. `mtmux pair` stores no credential. -/
def record (p : Pairing) (now : Nat) : PeerRecord where
  deviceId := p.deviceId.getD (browserId now)
  label := p.label
  name := none
  pairedAt := now
  lastSeenAt := now
  directToken := if p.via = .pair then none else some p.token
  sessionKeys := if p.via = .pair then none else some p.keys
  grantId := p.grant.map GrantRecord.id

end Pairing

/-- Who reads the list of devices to remove some. -/
inductive Remover where
  | panel (deviceId : String)
  | panelAll
  | shell (deviceId : String)

/-- What follows an edit of the file. -/
inductive AfterEdit where
  | nothing
  | paired (deviceId : String)
  | revoked (deviceId : String)
  | removeAll (rest : List PeerRecord)
  | tellServer (token : Option String)

/-- What waits for something: for the relay's answer to a registration, for a descriptor to be
sealed, for a file to be read, or for what was made of it to be written. -/
inductive Job where
  | registering (p : Pairing)
  | sealing (p : Pairing)
  | addingGrant (p : Pairing) (grant : GrantRecord)
  | listing (who : Remover)
  | loading (edit : PeerEdit) (next : AfterEdit)
  | writing (edit : PeerEdit) (loaded written : List PeerRecord) (next : AfterEdit)
  | revokingToken (token : String)
  | revokingGrant (grantId : String)

/-- A job dies with its process. -/
structure Work where
  own : Bool
  job : Job

/-- A tunnel's agent; `hosted` says that its codes have been armed. -/
structure TunnelAgent where
  keyring : List KeyringEntry
  hosted : Bool

/-- How far the tunnel that is being opened is. -/
inductive Opening where
  | idle
  | called
  | started (agent : Nat)
  deriving DecidableEq

inductive Phase where
  | booting (peers : List PeerRecord) (now : Nat)
  | serving

/-- The first two are files. -/
structure TrustState where
  peers : List PeerRecord
  grants : List GrantRecord
  phase : Phase
  share : Option ShareOptions
  sessions : Sessions
  lastTouched : OrderedMap String Nat
  trusted : List KeyringEntry
  agents : List TunnelAgent
  hosted : Option Nat
  opening : Opening
  jobs : OrderedMap Nat Work
  next : Nat

/-- `handled` says that the relay got the request, `answered` that its answer came in time. -/
inductive TrustEvent where
  | boots (share : Option ShareOptions) (now : Nat)
  | restores (now : Nat)
  | openTunnel
  | startAgent
  | tunnelUp (agent : Nat)
  | tunnelDown
  | codePaired (agent : Nat) (keys : SessionKeys) (label draw : String) (now : Nat)
  | accessApproved (agent : Nat) (keys : SessionKeys) (label : String) (now : Nat)
  | shellPairs (keys : SessionKeys) (label : String)
  | shellShares (share : ShareOptions) (keys : SessionKeys) (label draw : String) (now : Nat)
  | signedInLocally (token : String) (label : Option String) (draw : String) (now : Nat)
  | registered (job : Nat) (handled answered : Bool) (now : Nat)
  | sealed (job : Nat) (ok : Bool) (now : Nat)
  | addsGrant (job now : Nat)
  | reads (job : Nat)
  | writes (job : Nat)
  | fails (job : Nat)
  | revokes (deviceId : String)
  | removesAll
  | shellRemoves (deviceId : String)
  | renames (own : Bool) (deviceId : String) (name : Option String)
  | configures (own : Bool)
  | shellRevokes (grantId : String) (now : Nat)
  | prunes (maxAgeMs now : Nat)
  | told (job : Nat) (ok : Bool)
  | usesToken (token : String) (now : Nat)

inductive TrustOutput where
  | registered (token : String) (grant : Option GrantRecord) (deviceId : Option String)
  | restored (token : String) (grant : Option GrantRecord) (deviceId : String)
  | admitted (deviceId : String)
  | notShared
  | paired (deviceId : String)
  | removed (deviceId : String)
  | revoked (deviceId : String)
  | grantRevoked (grantId : String)
  deriving DecidableEq

abbrev TrustStep : Type := TrustState × List TrustOutput

def addSessionKeys (keyring : List KeyringEntry) (entry : KeyringEntry) : List KeyringEntry :=
  if maxKeyring < (keyring ++ [entry]).length then (keyring ++ [entry]).tail else keyring ++ [entry]

def removeSessionKeys (keyring : List KeyringEntry) (deviceId : String) : List KeyringEntry :=
  keyring.filter fun entry => entry.deviceId ≠ some deviceId

structure RestoreResult where
  restored : Nat
  needRepair : Nat
  needRekey : Nat
  trusted : List KeyringEntry
  sessions : Sessions
  out : List TrustOutput

/-- One record of the file. A scoped device gets its scope back, or it does not come back at all. -/
def restorePeer (active : List GrantRecord) (now later : Nat) (r : RestoreResult)
    (peer : PeerRecord) : RestoreResult :=
  let grantId := peer.grantId.filter (· ≠ "")
  let grant := grantId.bind fun id => active.reverse.find? fun g => g.id = id
  if isPeerExpired peer now then r
  else if grantId.isSome && grant.isNone then r
  else
    match peer.directToken.filter (· ≠ "") with
    | none => { r with needRepair := r.needRepair + 1 }
    | some token =>
      let r : RestoreResult :=
        { r with
          restored := r.restored + 1
          sessions := r.sessions.registerSessionToken token (peerLifetimeRemainingMs peer now) later
            (grant.getD fullGrant) (some peer.label) (some peer.deviceId)
          out := r.out ++ [.restored token grant peer.deviceId] }
      match peer.sessionKeys with
      | none => { r with needRekey := r.needRekey + 1 }
      | some keys =>
        { r with trusted := r.trusted ++ [⟨keys, some ⟨peer.deviceId, peer.label, true⟩⟩] }

def restoreTrustedDevices (peers : List PeerRecord) (grants : List GrantRecord)
    (now later : Nat) (sessions : Sessions) : RestoreResult :=
  peers.foldl (restorePeer (GrantsStore.active grants now) now later) ⟨0, 0, 0, [], sessions, []⟩

namespace TrustState
variable (hashToken : String → String)

def andThen (r : TrustStep) (f : TrustState → TrustStep) : TrustStep := ((f r.1).1, r.2 ++ (f r.1).2)

def serving (s : TrustState) : Bool :=
  match s.phase with
  | .serving => true
  | .booting _ _ => false

def begin (s : TrustState) (own : Bool) (job : Job) : TrustState :=
  { s with jobs := s.jobs.set s.next ⟨own, job⟩, next := s.next + 1 }

def goOn (s : TrustState) (id : Nat) (own : Bool) (job : Job) : TrustState :=
  { s with jobs := s.jobs.set id ⟨own, job⟩ }

def finish (s : TrustState) (id : Nat) : TrustState := { s with jobs := s.jobs.delete id }

/-- A crash, and the start after it. The devices are read before the shares. -/
def boots (s : TrustState) (share : Option ShareOptions) (now : Nat) : TrustState :=
  { s with
    phase := .booting s.peers now
    share := share
    sessions := .empty
    lastTouched := .empty
    trusted := []
    agents := []
    hosted := none
    opening := .idle
    jobs := s.jobs.filter fun _ work => !work.own }

def restores (s : TrustState) (later : Nat) : TrustStep :=
  match s.phase with
  | .serving => (s, [])
  | .booting peers now =>
    let r := restoreTrustedDevices peers s.grants now later s.sessions
    ({ s with phase := .serving, sessions := r.sessions, trusted := r.trusted }, r.out)

def startAgent (s : TrustState) : TrustState :=
  { s with
    agents := s.agents ++ [⟨s.trusted.foldl addSessionKeys [], false⟩]
    opening := .started s.agents.length }

def tunnelUp (s : TrustState) (agent : Nat) (a : TunnelAgent) : TrustState :=
  { s with
    agents := s.agents.set agent { a with hosted := true }
    hosted := some agent
    opening := if s.opening = .started agent then .idle else s.opening }

/-- The relay's end of a registration. -/
def pairSession (s : TrustState) (p : Pairing) (now : Nat) : Option Sessions :=
  if p.token.length < 32 then none
  else
    some (s.sessions.registerSessionToken p.token p.ttlMs now (p.grant.getD fullGrant) (some p.label)
      p.deviceId)

def admitKeys (s : TrustState) (agent : Nat) (p : Pairing) : TrustStep :=
  ({ s with agents := s.agents.modify agent fun a =>
      { a with keyring := addSessionKeys a.keyring ⟨p.keys, p.identity⟩ } },
    p.deviceId.toList.map .admitted)

def addPeer (s : TrustState) (id : Nat) (own : Bool) (p : Pairing) (now : Nat) : TrustState :=
  s.goOn id own (.loading (.addPeer (p.record now)) (.paired (p.record now).deviceId))

def answered (s : TrustState) (id : Nat) (own : Bool) (p : Pairing) (ok : Bool) (now : Nat) :
    TrustStep :=
  match p.via with
  | .code agent _ (some grant) =>
    if !ok then (s.finish id, [.notShared])
    else andThen (s.admitKeys agent p) fun s => (s.goOn id own (.addingGrant p grant), [])
  | .code agent _ none => andThen (s.admitKeys agent p) fun s => (s.addPeer id own p now, [])
  | .request _ _ => if !ok then (s.finish id, [.notShared]) else (s.goOn id own (.sealing p), [])
  | .pair => if !ok then (s.finish id, [.notShared]) else (s.addPeer id own p now, [])
  | .share grant =>
    if !ok then (s.finish id, [.notShared]) else (s.goOn id own (.addingGrant p grant), [])

def registered (s : TrustState) (id : Nat) (own : Bool) (p : Pairing) (handled answered : Bool)
    (now : Nat) : TrustStep :=
  match if handled && s.serving then s.pairSession p now else none with
  | none => s.answered id own p false now
  | some sessions =>
    andThen ({ s with sessions := sessions },
        [.registered p.token p.grant p.deviceId]) fun s =>
      s.answered id own p answered now

/-- The descriptor of a granted request goes back, and its keys are taken. -/
def sealed (s : TrustState) (id : Nat) (own : Bool) (p : Pairing) (ok : Bool) (now : Nat) :
    TrustStep :=
  match p.via with
  | .request agent _ =>
    if ok then andThen (s.admitKeys agent p) fun s => (s.addPeer id own p now, [])
    else (s.finish id, [])
  | _ => (s, [])

def addsGrant (s : TrustState) (id : Nat) (own : Bool) (p : Pairing) (grant : GrantRecord)
    (now : Nat) : TrustState :=
  let s : TrustState := { s with grants := GrantsStore.add s.grants grant }
  match p.via with
  | .share _ => s.finish id
  | _ => s.addPeer id own p now

/-- The live half of a removal: the token of the record, and the keys of the tunnel that is up. -/
def cutOff (s : TrustState) (peer : PeerRecord) : TrustState :=
  { s with
    sessions := match peer.directToken.filter (· ≠ "") with
      | none => s.sessions
      | some token => (s.sessions.revokeSessionToken token).1
    agents := match s.hosted with
      | none => s.agents
      | some agent => s.agents.modify agent fun a =>
          { a with keyring := removeSessionKeys a.keyring peer.deviceId } }

def removeNext (s : TrustState) (id : Nat) (own : Bool) : List PeerRecord → TrustState
  | [] => s.finish id
  | peer :: rest => (s.cutOff peer).goOn id own (.loading (.removePeer peer.deviceId) (.removeAll rest))

/-- The list of devices is read. The panel knows only the devices that are on it. -/
def listed (s : TrustState) (id : Nat) (own : Bool) : Remover → TrustStep
  | .panel deviceId =>
    match s.peers.find? fun p => p.deviceId = deviceId with
    | none => (s.finish id, [.revoked deviceId])
    | some peer =>
      ((s.cutOff peer).goOn id own (.loading (.removePeer deviceId) (.revoked deviceId)), [])
  | .panelAll => (s.removeNext id own s.peers, [])
  | .shell deviceId =>
    (s.goOn id own (.loading (.removePeer deviceId)
      (.tellServer ((s.peers.find? fun p => p.deviceId = deviceId).bind PeerRecord.directToken))), [])

/-- An edit is over; `wrote` says whether there was something to write. -/
def edited (s : TrustState) (id : Nat) (own wrote : Bool) : AfterEdit → TrustStep
  | .nothing => (s.finish id, [])
  | .paired deviceId => (s.finish id, [.paired deviceId])
  | .revoked deviceId => (s.finish id, [.revoked deviceId])
  | .removeAll rest => (s.removeNext id own rest, [])
  | .tellServer token =>
    match token.filter (· ≠ "") with
    | none => (s.finish id, [])
    | some token =>
      (if wrote then s.goOn id own (.revokingToken token) else s.finish id, [])

def loads (s : TrustState) (id : Nat) (own : Bool) (edit : PeerEdit) (next : AfterEdit) : TrustStep :=
  match edit.apply s.peers with
  | none => s.edited id own false next
  | some written => (s.goOn id own (.writing edit s.peers written next), [])

def writes (s : TrustState) (id : Nat) (own : Bool) (edit : PeerEdit) (written : List PeerRecord)
    (next : AfterEdit) : TrustStep :=
  andThen ({ s with peers := written }, edit.removes.toList.map .removed) fun s =>
    s.edited id own true next

def told (s : TrustState) (id : Nat) (ok : Bool) : Job → TrustState
  | .revokingToken token =>
    if ok && s.serving && decide (32 ≤ token.length) then
      { s with sessions := (s.sessions.revokeSessionToken token).1 }.finish id
    else s.finish id
  | .revokingGrant grantId =>
    if ok && s.serving then { s with sessions := (s.sessions.revokeGrant grantId).1 }.finish id
    else s.finish id
  | _ => s

/-- A token is used; the record of its device hears of it once an hour. -/
def usesToken (s : TrustState) (token : String) (now : Nat) : TrustState :=
  let r := s.sessions.grantForToken token now
  let s : TrustState := { s with sessions := r.sessions }
  match r.used with
  | none => s
  | some deviceId =>
    if (s.lastTouched.get deviceId).any fun previous => decide (now < previous + touchIntervalMs) then s
    else
      { s with lastTouched := s.lastTouched.set deviceId now }.begin true
        (.loading (.touchPeer deviceId now) .nothing)

def pairs (s : TrustState) (own : Bool) (via : Via) (keys : SessionKeys) (label : String) : TrustState :=
  s.begin own (.registering ⟨via, keys, label⟩)

def revokesGrant (s : TrustState) (grantId : String) (now : Nat) : TrustStep :=
  match GrantsStore.revoke s.grants grantId now with
  | none => (s, [])
  | some grants =>
    ({ s with grants := grants }.begin false (.revokingGrant grantId), [.grantRevoked grantId])

def step (s : TrustState) : TrustEvent → TrustStep
  | .boots share now => (s.boots share now, [])
  | .restores later => s.restores later
  | .openTunnel =>
    if s.serving && s.hosted.isNone && s.opening = .idle then ({ s with opening := .called }, [])
    else (s, [])
  | .startAgent => if s.opening = .called then (s.startAgent, []) else (s, [])
  | .tunnelUp agent =>
    match s.agents[agent]? with
    | none => (s, [])
    | some a => if a.hosted then (s, []) else (s.tunnelUp agent a, [])
  | .tunnelDown =>
    match s.opening with
    | .started _ => ({ s with opening := .idle }, [])
    | _ => (s, [])
  | .codePaired agent keys label draw now =>
    match s.agents[agent]? with
    | none => (s, [])
    | some a =>
      if a.hosted then
        let grant := s.share.map fun share => share.buildGrant hashToken draw now keys.directToken
        (s.pairs true (.code agent (browserId now) grant) keys label, [])
      else (s, [])
  | .accessApproved agent keys label now =>
    match s.agents[agent]? with
    | none => (s, [])
    | some _ => (s.pairs true (.request agent (browserId now)) keys label, [])
  | .shellPairs keys label => (s.pairs false .pair keys label, [])
  | .shellShares share keys label draw now =>
    (s.pairs false (.share (share.buildGrant hashToken draw now keys.directToken)) keys label, [])
  | .signedInLocally token label draw now =>
    let deviceId := some ("local-" ++ draw)
    if s.serving then
      ({ s with sessions := s.sessions.registerSessionToken token sessionTtlMs now fullGrant label deviceId },
        [.registered token none deviceId])
    else (s, [])
  | .registered id handled answered now =>
    match s.jobs.get id with
    | some ⟨own, .registering p⟩ => s.registered id own p handled answered now
    | _ => (s, [])
  | .sealed id ok now =>
    match s.jobs.get id with
    | some ⟨own, .sealing p⟩ => s.sealed id own p ok now
    | _ => (s, [])
  | .addsGrant id now =>
    match s.jobs.get id with
    | some ⟨own, .addingGrant p grant⟩ => (s.addsGrant id own p grant now, [])
    | _ => (s, [])
  | .reads id =>
    match s.jobs.get id with
    | some ⟨own, .listing who⟩ => s.listed id own who
    | some ⟨own, .loading edit next⟩ => s.loads id own edit next
    | _ => (s, [])
  | .writes id =>
    match s.jobs.get id with
    | some ⟨own, .writing edit _ written next⟩ => s.writes id own edit written next
    | _ => (s, [])
  | .fails id =>
    match s.jobs.get id with
    | some ⟨_, .addingGrant _ _⟩ | some ⟨_, .listing _⟩ | some ⟨_, .loading _ _⟩
    | some ⟨_, .writing _ _ _ _⟩ => (s.finish id, [])
    | _ => (s, [])
  | .revokes deviceId => if s.serving then (s.begin true (.listing (.panel deviceId)), []) else (s, [])
  | .removesAll => if s.serving then (s.begin true (.listing .panelAll), []) else (s, [])
  | .shellRemoves deviceId => (s.begin false (.listing (.shell deviceId)), [])
  | .renames own deviceId name =>
    if own && !s.serving then (s, [])
    else (s.begin own (.loading (.renamePeer deviceId name) .nothing), [])
  | .configures own => (s.begin own (.loading .other .nothing), [])
  | .shellRevokes grantId now => s.revokesGrant grantId now
  | .prunes maxAgeMs now => ({ s with grants := GrantsStore.prune s.grants maxAgeMs now }, [])
  | .told id ok =>
    match s.jobs.get id with
    | some ⟨_, job⟩ => (s.told id ok job, [])
    | none => (s, [])
  | .usesToken token now => (s.usesToken token now, [])

def init : TrustState where
  peers := []
  grants := []
  phase := .booting [] 0
  share := none
  sessions := .empty
  lastTouched := .empty
  trusted := []
  agents := []
  hosted := none
  opening := .idle
  jobs := .empty
  next := 0

end TrustState

def trustMachine (hashToken : String → String) : Machine TrustState TrustEvent TrustOutput where
  init := .init
  step := TrustState.step hashToken

end Mtmux.Cli
