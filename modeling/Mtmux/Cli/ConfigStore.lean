import Mtmux.Base.ReplacedRuns
import Mtmux.Cli.PeerStore

/-! The two stores of `mtmux`, `config.json` and `grants.json`. Every write reads the whole file, makes
something of it and replaces it. -/
namespace Mtmux.Cli
open Crypto Protocol ReplacedFile List Option

structure StoredDeviceKey where
  deviceId : String
  publicKey : String
  secretKey : String
  deriving DecidableEq

structure Account where
  token : String
  userId : String
  email : String
  apiBase : String
  serverId : Option String
  deriving DecidableEq

inductive ReconnectPolicy where
  | trust | confirm
  deriving DecidableEq

inductive Reach where
  | localOnly | hosted
  deriving DecidableEq

structure Config where
  token : String
  apiBase : Option String
  deviceKey : Option StoredDeviceKey
  peers : Option (List PeerRecord)
  account : Option Account
  serverName : Option String
  reconnectPolicy : Option ReconnectPolicy
  reach : Option Reach
  deriving DecidableEq

/-- The identity of a machine. Its id is a digest of the public key, and the digest is a parameter. -/
structure DeviceKeyPair where
  publicKey : Bytes
  secretKey : Bytes
  publicKey_length : publicKey.length = 32
  secretKey_length : secretKey.length = 32
  deriving DecidableEq

def deviceIdFor (sha256 : Bytes → Bytes) (publicKey : Bytes) : String :=
  bytesToHex ((sha256 publicKey).take 8)

def encodeDeviceKey (sha256 : Bytes → Bytes) (pair : DeviceKeyPair) : StoredDeviceKey where
  deviceId := deviceIdFor sha256 pair.publicKey
  publicKey := bytesToHex pair.publicKey
  secretKey := bytesToHex pair.secretKey

/-- A key that was corrupted or edited is not taken. -/
def decodeDeviceKey (sha256 : Bytes → Bytes) (stored : StoredDeviceKey) : Option DeviceKeyPair :=
  match hexToBytes stored.publicKey, hexToBytes stored.secretKey with
  | some publicKey, some secretKey =>
    if h : publicKey.length = 32 ∧ secretKey.length = 32 then
      if stored.deviceId ≠ "" ∧ stored.deviceId ≠ deviceIdFor sha256 publicKey then none
      else some ⟨publicKey, secretKey, h.1, h.2⟩
    else none
  | _, _ => none

theorem decode_encode (sha256 : Bytes → Bytes) (pair : DeviceKeyPair) :
    decodeDeviceKey sha256 (encodeDeviceKey sha256 pair) = some pair := by
  simp [decodeDeviceKey, encodeDeviceKey, hexToBytes_bytesToHex, pair.publicKey_length,
    pair.secretKey_length]

inductive ConfigOp where
  | addPeer (peer : PeerRecord)
  | removePeer (deviceId : String)
  | renamePeer (deviceId : String) (name : Option String)
  | touchPeer (deviceId : String) (lastSeenAt : Nat)
  | setAccount (account : Account)
  | clearAccount
  | setServerName (name : String)
  | setReconnectPolicy (policy : ReconnectPolicy)
  | setApiBase (url : Option String)
  | ensureDeviceKey (generated : DeviceKeyPair)
  deriving DecidableEq

namespace Config

def empty (token : String) : Config := ⟨token, none, none, none, none, none, none, none⟩

def listPeers (config : Config) : List PeerRecord := config.peers.getD []

def withPeers (config : Config) (peers : List PeerRecord) : Config := { config with peers := some peers }

def withApiBase (config : Config) (url : Option String) : Config :=
  { config with
    apiBase := url.map fun url => String.ofList (url.toList.reverse.dropWhile (· = '/')).reverse }

end Config

/-- What an operation makes of the configuration it has loaded; `none` writes nothing. -/
def ConfigOp.apply (sha256 : Bytes → Bytes) (config : Config) : ConfigOp → Option Config
  | .addPeer peer => some (config.withPeers (Cli.addPeer config.listPeers peer))
  | .removePeer deviceId => (Cli.removePeer config.listPeers deviceId).map config.withPeers
  | .renamePeer deviceId name => (Cli.renamePeer config.listPeers deviceId name).map config.withPeers
  | .touchPeer deviceId lastSeenAt =>
    (Cli.touchPeer config.listPeers deviceId lastSeenAt).map config.withPeers
  | .setAccount account => some { config with account := some account }
  | .clearAccount => some { config with account := none }
  | .setServerName name => some { config with serverName := some name }
  | .setReconnectPolicy policy => some { config with reconnectPolicy := some policy }
  | .setApiBase url => some (config.withApiBase url)
  | .ensureDeviceKey generated =>
    if (config.deviceKey.bind (decodeDeviceKey sha256)).isSome then none
    else some { config with deviceKey := some (encodeDeviceKey sha256 generated) }

/-- A configuration that cannot be read is made anew, with the token of the old place if there is one. -/
def configStore (sha256 : Bytes → Bytes) (legacy : Option String) : Program Config ConfigOp String where
  absent := none
  make fresh existing :=
    { existing.getD (.empty "") with token := (legacy.filter (· ≠ "")).getD fresh }
  apply op config := op.apply sha256 config

inductive GrantOp where
  | add (grant : GrantRecord)
  | revoke (grantId : String) (now : Nat)
  | prune (maxAgeMs now : Nat)

def GrantOp.apply (grants : List GrantRecord) : GrantOp → Option (List GrantRecord)
  | .add grant => some (GrantsStore.add grants grant)
  | .revoke grantId now => GrantsStore.revoke grants grantId now
  | .prune maxAgeMs now =>
    let keep := GrantsStore.prune grants maxAgeMs now
    if keep.length = grants.length then none else some keep

/-- Shares that cannot be read are no shares. -/
def grantsStore : Program (List GrantRecord) GrantOp Unit where
  absent := some []
  make _ _ := []
  apply op grants := op.apply grants

section Config
variable {sha256 : Bytes → Bytes} {config written : Config} {op : ConfigOp}

theorem apply_ensureDeviceKey {generated : DeviceKeyPair}
    (h : (ConfigOp.ensureDeviceKey generated).apply sha256 config = some written) :
    config.deviceKey.bind (decodeDeviceKey sha256) = none ∧
      written = { config with deviceKey := some (encodeDeviceKey sha256 generated) } := by
  simp only [ConfigOp.apply] at h
  split at h
  · cases h
  · rename_i hkey
    cases h
    exact ⟨by simpa using hkey, rfl⟩

theorem apply_listPeers (h : op.apply sha256 config = some written) : written.listPeers = config.listPeers ∨
      ∃ edit : PeerEdit, edit.apply config.listPeers = some written.listPeers ∧
        (∀ deviceId, edit = .removePeer deviceId → op = .removePeer deviceId) ∧
        (∀ peer, edit = .addPeer peer → op = .addPeer peer) := by
  cases op with
  | addPeer peer =>
    cases h
    exact .inr ⟨.addPeer peer, rfl, by rintro _ ⟨⟩, by rintro _ ⟨⟩; rfl⟩
  | removePeer deviceId =>
    obtain ⟨peers, hpeers, rfl⟩ := map_eq_some_iff.1 h
    exact .inr ⟨.removePeer deviceId, hpeers, by rintro _ ⟨⟩; rfl, by rintro _ ⟨⟩⟩
  | renamePeer deviceId name =>
    obtain ⟨peers, hpeers, rfl⟩ := map_eq_some_iff.1 h
    exact .inr ⟨.renamePeer deviceId name, hpeers, by rintro _ ⟨⟩, by rintro _ ⟨⟩⟩
  | touchPeer deviceId lastSeenAt =>
    obtain ⟨peers, hpeers, rfl⟩ := map_eq_some_iff.1 h
    exact .inr ⟨.touchPeer deviceId lastSeenAt, hpeers, by rintro _ ⟨⟩, by rintro _ ⟨⟩⟩
  | ensureDeviceKey generated =>
    obtain ⟨-, rfl⟩ := apply_ensureDeviceKey h
    exact .inl rfl
  | setAccount _ | clearAccount | setServerName _ | setReconnectPolicy _ | setApiBase _ =>
    cases h
    exact .inl rfl

variable {deviceId : String}

theorem apply_removed (h : op.apply sha256 config = some written)
    (hadds : ∀ peer, op = .addPeer peer → peer.deviceId ≠ deviceId)
    (hgone : ∀ p ∈ config.listPeers, p.deviceId ≠ deviceId) : ∀ p ∈ written.listPeers, p.deviceId ≠ deviceId := by
  intro p hp
  cases apply_listPeers h with
  | inl hsame =>
    rw [hsame] at hp
    exact hgone p hp
  | inr hedit =>
    obtain ⟨edit, hwritten, -, hadd⟩ := hedit
    cases mem_apply hwritten hp with
    | inl hadded => exact hadds p (hadd p hadded)
    | inr hkept =>
      obtain ⟨q, hq, hsame⟩ := hkept.1
      rw [hsame.deviceId]
      exact hgone q hq

theorem mem_updatePeer_of_mem {f : PeerRecord → PeerRecord} (hf : ∀ p, (f p).Same p)
    {peers : List PeerRecord} {p : PeerRecord} (hp : p ∈ peers) :
    ∃ q ∈ updatePeer deviceId f peers, q.deviceId = p.deviceId := by
  induction peers with
  | nil => cases hp
  | cons a peers ih =>
    unfold updatePeer
    cases mem_cons.1 hp with
    | inl heq =>
      subst heq
      split
      · exact ⟨f p, mem_cons_self, (hf p).deviceId⟩
      · exact ⟨p, mem_cons_self, rfl⟩
    | inr hrest =>
      split
      · exact ⟨p, mem_cons_of_mem _ hrest, rfl⟩
      · obtain ⟨q, hq, hid⟩ := ih hrest
        exact ⟨q, mem_cons_of_mem _ hq, hid⟩

theorem apply_added (h : op.apply sha256 config = some written)
    (hremoves : op ≠ .removePeer deviceId) (hthere : ∃ p ∈ config.listPeers, p.deviceId = deviceId) :
    ∃ p ∈ written.listPeers, p.deviceId = deviceId := by
  obtain ⟨p, hp, rfl⟩ := hthere
  cases op with
  | addPeer peer =>
    cases h
    by_cases hid : p.deviceId = peer.deviceId
    · exact ⟨peer, mem_addPeer.2 (.inr rfl), hid.symm⟩
    · exact ⟨p, mem_addPeer.2 (.inl ⟨hp, hid⟩), rfl⟩
  | removePeer other =>
    obtain ⟨peers, hpeers, rfl⟩ := map_eq_some_iff.1 h
    refine ⟨p, (mem_removePeer hpeers).2 ⟨hp, ?_⟩, rfl⟩
    rintro rfl
    exact hremoves rfl
  | renamePeer other name =>
    obtain ⟨peers, hpeers, rfl⟩ := map_eq_some_iff.1 h
    unfold renamePeer at hpeers
    split at hpeers
    · cases hpeers
      exact mem_updatePeer_of_mem (fun q => q.same_name _) hp
    · cases hpeers
  | touchPeer other lastSeenAt =>
    obtain ⟨peers, hpeers, rfl⟩ := map_eq_some_iff.1 h
    unfold touchPeer at hpeers
    split at hpeers
    · cases hpeers
      exact mem_updatePeer_of_mem (fun q => q.same_lastSeenAt _) hp
    · cases hpeers
  | ensureDeviceKey generated =>
    obtain ⟨-, rfl⟩ := apply_ensureDeviceKey h
    exact ⟨p, hp, rfl⟩
  | setAccount _ | clearAccount | setServerName _ | setReconnectPolicy _ | setApiBase _ =>
    cases h
    exact ⟨p, hp, rfl⟩

theorem apply_deviceKey {key : StoredDeviceKey} (h : op.apply sha256 config = some written)
    (hkey : config.deviceKey = some key) (hdecodes : decodeDeviceKey sha256 key ≠ none) :
    written.deviceKey = some key := by
  cases op with
  | addPeer peer =>
    cases h
    exact hkey
  | removePeer _ | renamePeer _ _ | touchPeer _ _ =>
    obtain ⟨peers, -, rfl⟩ := map_eq_some_iff.1 h
    exact hkey
  | ensureDeviceKey generated =>
    obtain ⟨hnone, -⟩ := apply_ensureDeviceKey h
    rw [hkey] at hnone
    exact absurd hnone hdecodes
  | setAccount _ | clearAccount | setServerName _ | setReconnectPolicy _ | setApiBase _ =>
    cases h
    exact hkey

end Config

section Grants
variable {grants written : List GrantRecord} {grantId : String}

theorem revoke_revokes {now : Nat} (h : GrantsStore.revoke grants grantId now = some written) :
    ∀ g ∈ written, g.id = grantId → g.revokedAt.isSome = true := by
  unfold GrantsStore.revoke at h
  split at h
  · cases h
  · split at h
    · cases h
    · cases h
      intro g hg hid
      obtain ⟨old, -, rfl⟩ := mem_map.1 hg
      split
      · rfl
      · rename_i hne
        rw [if_neg hne] at hid
        exact absurd hid hne

/-- Nothing but a new share of the same id makes a revoked one active. -/
theorem apply_revoked {op : GrantOp} (h : op.apply grants = some written) (hadds : ∀ g, op = .add g → g.id ≠ grantId)
    (hrevoked : ∀ g ∈ grants, g.id = grantId → g.revokedAt.isSome = true) :
    ∀ g ∈ written, g.id = grantId → g.revokedAt.isSome = true := by
  intro g hg hid
  cases op with
  | add grant =>
    cases h
    cases mem_append.1 hg with
    | inl hold => exact hrevoked g (mem_filter.1 hold).1 hid
    | inr hnew =>
      rw [mem_singleton.1 hnew] at hid
      exact absurd hid (hadds grant rfl)
  | revoke other now =>
    change GrantsStore.revoke grants other now = some written at h
    unfold GrantsStore.revoke at h
    split at h
    · cases h
    · split at h
      · cases h
      · cases h
        obtain ⟨old, hold, rfl⟩ := mem_map.1 hg
        split at hid
        · rename_i heq
          rw [if_pos heq]
          rfl
        · rename_i hne
          rw [if_neg hne]
          exact hrevoked old hold hid
  | prune maxAgeMs now =>
    simp only [GrantOp.apply] at h
    split at h
    · cases h
    · cases h
      exact hrevoked g (mem_filter.1 hg).1 hid

end Grants
end Mtmux.Cli
