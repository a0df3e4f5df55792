import Mathlib.Data.Nat.Digits.Defs
import Mtmux.Base.Text
import Mtmux.Crypto.KeySchedule
import Mtmux.Protocol.Grants

/-! The two files a restart reads: the devices that have paired, and the shares. The record of a
device that came through a share has the share's id, and its scope is in the other file. -/
namespace Mtmux.Cli
open Crypto Protocol List

structure PeerRecord where
  deviceId : String
  label : String
  name : Option String
  pairedAt : Nat
  lastSeenAt : Nat
  directToken : Option String
  sessionKeys : Option SessionKeys
  grantId : Option String
  deriving DecidableEq

def peerExpiryMs : Nat := 90 * 24 * 60 * 60 * 1000

/-- How much of a device's trust is left; the subtraction stops at zero. -/
def peerLifetimeRemainingMs (peer : PeerRecord) (now : Nat) : Nat :=
  peerExpiryMs + peer.lastSeenAt - now

def isPeerExpired (peer : PeerRecord) (now : Nat) : Bool :=
  decide (peerLifetimeRemainingMs peer now ≤ 0)

def base36Digit (n : Nat) : Char := Char.ofNat (if n < 10 then 48 + n else 87 + n)

def toString36 (n : Nat) : String :=
  if n = 0 then "0" else String.ofList ((Nat.digits 36 n).reverse.map base36Digit)

/-- The id a browser gets as it pairs: no two in the same millisecond differ. -/
def browserId (now : Nat) : String := "browser-" ++ toString36 now

example : browserId 1700000000000 = "browser-loyw3v28" := by decide +kernel

def maxPeerName : Nat := 32

/-- The writes of `config.json` that concern its devices, and those that do not. -/
inductive PeerEdit where
  | addPeer (peer : PeerRecord)
  | removePeer (deviceId : String)
  | renamePeer (deviceId : String) (name : Option String)
  | touchPeer (deviceId : String) (lastSeenAt : Nat)
  | other
  deriving DecidableEq

def PeerEdit.removes : PeerEdit → Option String
  | .removePeer deviceId => some deviceId
  | _ => none

def addPeer (peers : List PeerRecord) (peer : PeerRecord) : List PeerRecord :=
  (peers.filter fun p => p.deviceId ≠ peer.deviceId) ++ [peer]

/-- There is nothing to write where there was no such device. -/
def removePeer (peers : List PeerRecord) (deviceId : String) : Option (List PeerRecord) :=
  let remaining := peers.filter fun p => p.deviceId ≠ deviceId
  if remaining.length = peers.length then none else some remaining

/-- The first record of a device changes in place. -/
def updatePeer (deviceId : String) (f : PeerRecord → PeerRecord) : List PeerRecord → List PeerRecord
  | [] => []
  | p :: peers => if p.deviceId = deviceId then f p :: peers else p :: updatePeer deviceId f peers

def renamePeer (peers : List PeerRecord) (deviceId : String) (name : Option String) :
    Option (List PeerRecord) :=
  if peers.any fun p => p.deviceId = deviceId then
    let trimmed := sliced maxPeerName (trimmed (name.getD ""))
    some (updatePeer deviceId (fun p => { p with name := some trimmed |>.filter (· ≠ "") }) peers)
  else none

def touchPeer (peers : List PeerRecord) (deviceId : String) (lastSeenAt : Nat) :
    Option (List PeerRecord) :=
  if peers.any fun p => p.deviceId = deviceId then
    some (updatePeer deviceId (fun p => { p with lastSeenAt := lastSeenAt }) peers)
  else none

/-- What an edit makes of the file it has read; `none` writes nothing. -/
def PeerEdit.apply (peers : List PeerRecord) : PeerEdit → Option (List PeerRecord)
  | .addPeer peer => some (Cli.addPeer peers peer)
  | .removePeer deviceId => Cli.removePeer peers deviceId
  | .renamePeer deviceId name => Cli.renamePeer peers deviceId name
  | .touchPeer deviceId lastSeenAt => Cli.touchPeer peers deviceId lastSeenAt
  | .other => some peers

namespace GrantsStore

def newGrantId (draw : String) : String := "grn_" ++ draw

def active (grants : List GrantRecord) (now : Nat) : List GrantRecord :=
  grants.filter fun g => isGrantActive g now

def add (grants : List GrantRecord) (grant : GrantRecord) : List GrantRecord :=
  (grants.filter fun g => g.id ≠ grant.id) ++ [grant]

/-- The row is kept. There is nothing to write when the first row of the id is revoked already. -/
def revoke (grants : List GrantRecord) (grantId : String) (now : Nat) : Option (List GrantRecord) :=
  match grants.find? fun g => g.id = grantId with
  | none => none
  | some target =>
    if target.revokedAt.isSome then none
    else some (grants.map fun g => if g.id = grantId then { g with revokedAt := some now } else g)

/-- Drop the rows that ended `maxAgeMs` ago. -/
def prune (grants : List GrantRecord) (maxAgeMs now : Nat) : List GrantRecord :=
  grants.filter fun g => isGrantActive g now ||
    decide (now < (g.revokedAt.or g.expiresAt).getD g.createdAt + maxAgeMs)

end GrantsStore

section Peers
variable {peers written : List PeerRecord}

variable {p : PeerRecord}

theorem mem_addPeer {peer : PeerRecord} :
    p ∈ addPeer peers peer ↔ (p ∈ peers ∧ p.deviceId ≠ peer.deviceId) ∨ p = peer := by
  simp [addPeer]

variable {deviceId : String}

theorem mem_removePeer (h : removePeer peers deviceId = some written)
    : p ∈ written ↔ p ∈ peers ∧ p.deviceId ≠ deviceId := by
  unfold removePeer at h
  dsimp only at h
  split at h
  · cases h
  · cases h
    simp

theorem removePeer_none (h : removePeer peers deviceId = none) (hp : p ∈ peers) : p.deviceId ≠ deviceId := by
  unfold removePeer at h
  dsimp only at h
  split at h
  · rename_i hlength
    have hall := length_filter_eq_length_iff.1 hlength p hp
    simpa using hall
  · cases h

/-- What a changed record keeps: its device and its credential. -/
structure PeerRecord.Same (p q : PeerRecord) : Prop where
  deviceId : p.deviceId = q.deviceId
  directToken : p.directToken = q.directToken
  sessionKeys : p.sessionKeys = q.sessionKeys
  grantId : p.grantId = q.grantId

theorem PeerRecord.Same.refl (p : PeerRecord) : p.Same p := ⟨rfl, rfl, rfl, rfl⟩

theorem PeerRecord.same_name (p : PeerRecord) (name : Option String) :
    PeerRecord.Same { p with name := name } p := ⟨rfl, rfl, rfl, rfl⟩

theorem PeerRecord.same_lastSeenAt (p : PeerRecord) (lastSeenAt : Nat) :
    PeerRecord.Same { p with lastSeenAt := lastSeenAt } p := ⟨rfl, rfl, rfl, rfl⟩

theorem mem_updatePeer {f : PeerRecord → PeerRecord} (hf : ∀ p, (f p).Same p)
    (hp : p ∈ updatePeer deviceId f peers) : ∃ q ∈ peers, p.Same q := by
  induction peers with
  | nil => cases hp
  | cons q peers ih =>
    unfold updatePeer at hp
    split at hp
    · obtain rfl | hp := mem_cons.1 hp
      · exact ⟨q, mem_cons_self, hf q⟩
      · exact ⟨p, mem_cons_of_mem _ hp, .refl p⟩
    · obtain rfl | hp := mem_cons.1 hp
      · exact ⟨p, mem_cons_self, .refl p⟩
      · obtain ⟨r, hr, hsame⟩ := ih hp
        exact ⟨r, mem_cons_of_mem _ hr, hsame⟩

/-- What stands in a file that was written stood in it before, or is the record that was added. -/
theorem mem_apply {edit : PeerEdit} (h : edit.apply peers = some written) (hp : p ∈ written) :
    edit = .addPeer p ∨ (∃ q ∈ peers, p.Same q) ∧ ∀ deviceId, edit = .removePeer deviceId → p.deviceId ≠ deviceId := by
  have kept : (∀ deviceId, edit ≠ .removePeer deviceId) → (∃ q ∈ peers, p.Same q) →
      edit = .addPeer p ∨ (∃ q ∈ peers, p.Same q) ∧ ∀ deviceId, edit = .removePeer deviceId →
        p.deviceId ≠ deviceId :=
    fun hedit hq => .inr ⟨hq, fun d hd => absurd hd (hedit d)⟩
  cases edit with
  | addPeer peer =>
    cases h
    obtain ⟨hp, -⟩ | rfl := mem_addPeer.1 hp
    · exact kept (fun _ heq => by cases heq) ⟨p, hp, .refl p⟩
    · exact .inl rfl
  | removePeer deviceId =>
    obtain ⟨hold, hne⟩ := (mem_removePeer h).1 hp
    refine .inr ⟨⟨p, hold, .refl p⟩, ?_⟩
    intro d hd
    cases hd
    exact hne
  | renamePeer deviceId name =>
    simp only [PeerEdit.apply, renamePeer] at h
    split at h
    · rw [← Option.some.inj h] at hp
      exact kept (fun _ heq => by cases heq) (mem_updatePeer (fun q => q.same_name _) hp)
    · cases h
  | touchPeer deviceId lastSeenAt =>
    simp only [PeerEdit.apply, touchPeer] at h
    split at h
    · rw [← Option.some.inj h] at hp
      exact kept (fun _ heq => by cases heq) (mem_updatePeer (fun q => q.same_lastSeenAt _) hp)
    · cases h
  | other =>
    cases h
    exact kept (fun _ heq => by cases heq) ⟨p, hp, .refl p⟩

end Peers
end Mtmux.Cli
