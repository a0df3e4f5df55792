import Mathlib.Data.ZMod.Basic
import Mtmux.Cli.PairingExchange
import Mtmux.Crypto.CPace
import Mtmux.Crypto.Frames

/-! Hosted pairing at the CLI, in both directions: it claims a code that a browser shows, or
shows one and is claimed. -/
namespace Mtmux.Cli
open Protocol Crypto

/-- Bound on the peer's associated data, in UTF-16 units. -/
def adPeerMax : Nat := 256

def utf16Length (s : String) : Nat :=
  (s.toList.map fun c => if c.toNat < 0x10000 then 1 else 2).sum

variable {G : Type} [AddCommGroup G] [DecidableEq G] (P : Primitives) (R : Ristretto G)

/-- What is posted with a claim; the claimant picks the session id and is the initiator. -/
def claimRequest (slot : String) (cpace : CPaceState) : PairClaimRequest :=
  ⟨slot, bytesToHex cpace.share, Exchange.adCli, bytesToHex cpace.sid⟩

/-- `derive` of `pairWithCode`: one share serves every mailbox that answers. -/
def claimDerive (cpace : CPaceState) (msg : PeerShare) : Derived :=
  if adPeerMax < utf16Length msg.ad then .reject "oversized associated data"
  else
    match cpace.finish P R msg.share ⟨utf8ToBytes Exchange.adCli, utf8ToBytes msg.ad, true⟩ with
    | none => .reject "invalid share"
    | some isk =>
      .attempt
        { peer := msg.peer
          ownShare := cpace.share
          peerAd := msg.ad
          keys := deriveSessionKeys P isk (transcriptIr cpace.share (utf8ToBytes Exchange.adCli)
            msg.share (utf8ToBytes msg.ad)) }

/-- `derive` of `hostPairing`: the claimant chose the session id, so the run starts only now,
and its share leads the transcript. A seed without a scalar, at which the code throws, is refused. -/
def hostDerive (secret slot : String) (scalarSeed : Bytes) (msg : PeerShare) : Derived :=
  if adPeerMax < utf16Length msg.ad then .reject "oversized associated data"
  else
    match cpaceStart P R (utf8ToBytes secret) (utf8ToBytes slot) msg.sid scalarSeed with
    | none => .reject "invalid share"
    | some cpace =>
      match cpace.finish P R msg.share
          ⟨utf8ToBytes Exchange.adCli, utf8ToBytes msg.ad, false⟩ with
      | none => .reject "invalid share"
      | some isk =>
        .attempt
          { peer := msg.peer
            ownShare := cpace.share
            peerAd := msg.ad
            keys := deriveSessionKeys P isk (transcriptIr msg.share (utf8ToBytes msg.ad)
              cpace.share (utf8ToBytes Exchange.adCli)) }

theorem claimDerive_peer {cpace : CPaceState} {msg : PeerShare} {attempt : Attempt}
    (h : claimDerive P R cpace msg = .attempt attempt) : attempt.peer = msg.peer := by
  unfold claimDerive at h
  split at h
  · cases h
  · split at h
    · cases h
    · cases h
      rfl

theorem hostDerive_peer {secret slot : String} {scalarSeed : Bytes} {msg : PeerShare}
    {attempt : Attempt} (h : hostDerive P R secret slot scalarSeed msg = .attempt attempt) :
    attempt.peer = msg.peer := by
  unfold hostDerive at h
  split at h
  · cases h
  · split at h
    · cases h
    · split at h
      · cases h
      · cases h
        rfl

def pairWithCode (cpace : CPaceState) : ExchangeOptions where
  P := P
  side := .claim
  maxPeers := some maxPeersPerSlot
  derive _ msg := claimDerive P R cpace msg
  derive_peer _ _ _ h := claimDerive_peer P R h
  admits := false

/-- The exchange behind `hostPairing`: a mailbox is claimed once. -/
def hostPairing (secret slot : String) (scalarSeed : Nat → Bytes) (admits : Bool) :
    ExchangeOptions where
  P := P
  side := .mailbox
  maxPeers := some 1
  derive n msg := hostDerive P R secret slot (scalarSeed n) msg
  derive_peer _ _ _ h := hostDerive_peer P R h
  admits := admits

def sealDescriptor (gcm : Gcm) (keys : SessionKeys) (salt json : Bytes) : Option Bytes :=
  sealOnce P gcm keys.s2c .s2c salt json .descriptor

/- A small instance, for concrete runs: the residues modulo 251, and hashes that are none. -/

def plainPrimitives : Primitives where
  sha256 := id
  sha512 := id
  hmac key message := List.replicate 32 (key.headD 0 + UInt8.ofNat message.length)
  hkdf ikm _ info length := List.replicate length (UInt8.ofNat ((ikm ++ info).map UInt8.toNat).sum)
  publicKey := id
  sharedSecret _ key := some key

def residueCurve : Ristretto (ZMod 251) where
  order := 251
  multiply p n := if 0 < n ∧ n < 251 then some (n • p) else none
  deriveToCurve bytes := ((bytes.map UInt8.toNat).sum : Nat)
  toBytes p := UInt8.ofNat p.val :: List.replicate 31 0
  fromBytes bytes := if bytes.length = 32 then some ((bytes.headD 0).toNat : ZMod 251) else none

def smallSeed (n : Nat) : Bytes := UInt8.ofNat (n + 2) :: List.replicate 31 0

def sampleShare : ExchangeEvent :=
  .message (.peerShare "peer-1" (bytesToHex (5 :: List.replicate 31 0)) "phone"
    (bytesToHex (List.replicate 16 7)))

def sampleConfirm (byte : UInt8) : ExchangeEvent :=
  .message (.peerConfirm "peer-1" (bytesToHex (List.replicate 32 byte)))

def sampleHost : ExchangeOptions :=
  hostPairing plainPrimitives residueCurve "123456" "049" smallSeed true

def sampleClaim : ExchangeOptions :=
  pairWithCode plainPrimitives residueCurve
    ⟨List.replicate 16 7, 3, 117 :: List.replicate 31 0⟩

end Mtmux.Cli
