import Mathlib.Data.Int.GCD
import Mathlib.Data.Nat.Prime.Basic
import Mtmux.Crypto.KeySchedule

/-! CPace: both ends turn a password into a generator, exchange multiples of it and hash
what they agree on. The group library is a parameter. -/
namespace Mtmux.Crypto

/-- What is taken from the curve library, over the group `G`. -/
structure Ristretto (G : Type) where
  order : Nat
  multiply : (point : G) → (n : Nat) → Option G
  deriveToCurve : Bytes → G
  toBytes : G → Bytes
  fromBytes : Bytes → Option G

variable {G : Type} [AddCommGroup G] (P : Primitives) (R : Ristretto G)

def dsi : Bytes := utf8ToBytes "CPaceRistretto255"
def dsiIsk : Bytes := utf8ToBytes "CPaceRistretto255_ISK"
def sInBytes : Nat := 128
def scalarBytes : Nat := 32
def elementBytes : Nat := 32

/-- A group of prime order whose elements have an encoding of 32 bytes. The library refuses scalars
outside `1 ≤ n < order`. -/
structure Ristretto.Lawful (R : Ristretto G) : Prop where
  prime : R.order.Prime
  torsion : ∀ p : G, R.order • p = 0
  multiplies : ∀ (p : G) (n : Nat), R.multiply p n = if 0 < n ∧ n < R.order then some (n • p) else none
  decodes : ∀ p : G, R.fromBytes (R.toBytes p) = some p
  length : ∀ p : G, (R.toBytes p).length = elementBytes

/-- The zero padding pushes the password out of the first hash block. -/
def generatorString (prs ci sid : Bytes) : Bytes :=
  let lenZpad := sInBytes - 1 - (prependLen prs).length - (prependLen dsi).length
  lvCat [dsi, prs, List.replicate lenZpad 0, ci, sid]

def generatorPoint (prs ci sid : Bytes) : G :=
  R.deriveToCurve (P.sha512 (generatorString prs ci sid))

def littleEndian (bytes : Bytes) : Nat := bytes.foldr (fun b value => value * 256 + b.toNat) 0

def sampleScalar (random : Bytes) : Option Nat :=
  if random.length ≠ scalarBytes then none
  else some (littleEndian (random.modify (scalarBytes - 1) (· &&& 0x0f)))

def transcriptIr (ya ada yb adb : Bytes) : Bytes := lvCat [ya, ada] ++ lvCat [yb, adb]

structure CPaceState where
  sid : Bytes
  scalar : Nat
  share : Bytes

/-- `own` and `peer` went with the two shares. -/
structure CPaceAd where
  own : Bytes
  peer : Bytes
  isInitiator : Bool

def cpaceStart (password channelId sid scalarSeed : Bytes) : Option CPaceState :=
  match sampleScalar scalarSeed with
  | none => none
  | some scalar =>
    (R.multiply (generatorPoint P R password channelId sid) scalar).map fun point =>
      ⟨sid, scalar, R.toBytes point⟩

/-- Decode the peer's share, multiply, and refuse the identity. -/
def scalarMultVfy [DecidableEq G] (scalar : Nat) (peerShare : Bytes) : Option Bytes :=
  if peerShare.length ≠ elementBytes then none
  else match R.fromBytes peerShare with
    | none => none
    | some point =>
      match R.multiply point scalar with
      | none => none
      | some shared => if shared = 0 then none else some (R.toBytes shared)

namespace CPaceState

def transcript (state : CPaceState) (peerShare : Bytes) (ad : CPaceAd) : Bytes :=
  if ad.isInitiator then transcriptIr state.share ad.own peerShare ad.peer
  else transcriptIr peerShare ad.peer state.share ad.own

def finish [DecidableEq G] (state : CPaceState) (peerShare : Bytes) (ad : CPaceAd) : Option Bytes :=
  (scalarMultVfy R state.scalar peerShare).map fun k =>
    P.sha512 (lvCat [dsiIsk, state.sid, k] ++ state.transcript peerShare ad)

end CPaceState

variable {P R}

variable {sid sid' : Bytes}

theorem generatorString_inj {prs ci prs' ci' : Bytes} (h : generatorString prs ci sid = generatorString prs' ci' sid') :
    prs = prs' ∧ ci = ci' ∧ sid = sid' := by
  have hlists := lvCat_inj (by rfl) h
  simp only [List.cons.injEq] at hlists
  exact ⟨hlists.2.1, hlists.2.2.2.1, hlists.2.2.2.2.1⟩

theorem Ristretto.Lawful.multiply_some (hR : R.Lawful) {p point : G} {n : Nat}
    (h : R.multiply p n = some point) : 0 < n ∧ n < R.order ∧ point = n • p := by
  rw [hR.multiplies] at h
  split at h
  · rename_i hn
    cases h
    exact ⟨hn.1, hn.2, rfl⟩
  · cases h

theorem Ristretto.Lawful.cancel (hR : R.Lawful) {n : Nat} (hpos : 0 < n) (hlt : n < R.order)
    {p q : G} (h : n • p = n • q) : p = q := by
  have hndvd : ¬ R.order ∣ n := fun hdvd => by
    have hle := Nat.le_of_dvd hpos hdvd
    omega
  have hcoprime : Nat.Coprime n R.order :=
    Nat.Coprime.symm ((Nat.Prime.coprime_iff_not_dvd hR.prime).2 hndvd)
  obtain ⟨u, -, hu⟩ := Nat.exists_mul_mod_eq_one_of_coprime hcoprime hR.prime.one_lt
  have hone (x : G) : u • n • x = x := by
    have hsum : u * n = R.order * (n * u / R.order) + 1 := by
      have hdiv := Nat.div_add_mod (n * u) R.order
      rw [hu] at hdiv
      rw [hdiv, Nat.mul_comm]
    rw [← mul_nsmul', hsum, add_nsmul, one_nsmul, mul_nsmul', hR.torsion, zero_add]
  rw [← hone p, h, hone q]

variable {channelId password seed : Bytes}

theorem cpaceStart_some (hR : R.Lawful) {state : CPaceState}
    (h : cpaceStart P R password channelId sid seed = some state) : 0 < state.scalar ∧ state.scalar < R.order ∧ state.sid = sid ∧
      state.share = R.toBytes (state.scalar • generatorPoint P R password channelId sid) := by
  unfold cpaceStart at h
  split at h
  · cases h
  · obtain ⟨point, hpoint, rfl⟩ := Option.map_eq_some_iff.1 h
    obtain ⟨hpos, hlt, rfl⟩ := hR.multiply_some hpoint
    exact ⟨hpos, hlt, rfl, rfl⟩

theorem scalarMultVfy_toBytes [DecidableEq G] (hR : R.Lawful) {n : Nat} (hpos : 0 < n) (hlt : n < R.order)
    {p : G} (hp : p ≠ 0) : scalarMultVfy R n (R.toBytes p) = some (R.toBytes (n • p)) := by
  have hne : n • p ≠ 0 := fun hzero => hp (hR.cancel hpos hlt (by rw [hzero, nsmul_zero]))
  unfold scalarMultVfy
  rw [if_neg (by rw [hR.length]; simp), hR.decodes]
  simp only [hR.multiplies, if_pos (And.intro hpos hlt), if_neg hne]

theorem finish_against [DecidableEq G] (hR : R.Lawful) {own peer : CPaceState} {password' channelId' seed' : Bytes}
    (hown : cpaceStart P R password channelId sid seed = some own)
    (hpeer : cpaceStart P R password' channelId' sid' seed' = some peer)
    (hg : generatorPoint P R password' channelId' sid' ≠ 0) (ad : CPaceAd) : own.finish P R peer.share ad =
      some (P.sha512 (lvCat [dsiIsk, sid, R.toBytes ((own.scalar * peer.scalar) •
        generatorPoint P R password' channelId' sid')] ++ own.transcript peer.share ad)) := by
  obtain ⟨hpos, hlt, hsid, -⟩ := cpaceStart_some hR hown
  obtain ⟨hpos', hlt', -, hshare⟩ := cpaceStart_some hR hpeer
  have hne : peer.scalar • generatorPoint P R password' channelId' sid' ≠ 0 := fun hzero =>
    hg (hR.cancel hpos' hlt' (by rw [hzero, nsmul_zero]))
  rw [CPaceState.finish, hshare, scalarMultVfy_toBytes hR hpos hlt hne, Option.map_some, hsid,
    ← mul_nsmul']

theorem finish_agree [DecidableEq G] (hR : R.Lawful) (hP : P.Collisionless) {initiator responder : CPaceState}
    {password' channelId' seed' : Bytes} (hstart : cpaceStart P R password channelId sid seed = some initiator)
    (hstart' : cpaceStart P R password' channelId' sid' seed' = some responder)
    (hg : generatorPoint P R password channelId sid ≠ 0) (hg' : generatorPoint P R password' channelId' sid' ≠ 0)
    (hapart : generatorPoint P R password channelId sid = generatorPoint P R password' channelId' sid' →
      generatorString password channelId sid = generatorString password' channelId' sid') (ad ad' : Bytes) :
    ∃ isk isk', initiator.finish P R responder.share ⟨ad, ad', true⟩ = some isk ∧
      responder.finish P R initiator.share ⟨ad', ad, false⟩ = some isk' ∧
      (isk = isk' ↔ password = password' ∧ channelId = channelId' ∧ sid = sid') := by
  refine ⟨_, _, finish_against hR hstart hstart' hg' _, finish_against hR hstart' hstart hg _, ?_⟩
  simp only [CPaceState.transcript, if_true, Bool.false_eq_true, if_false]
  obtain ⟨hpos, hlt, -, -⟩ := cpaceStart_some hR hstart
  obtain ⟨hpos', hlt', -, -⟩ := cpaceStart_some hR hstart'
  constructor
  · intro hisk
    have hcat := (List.append_inj_left' (hP.sha512 hisk) rfl)
    have hfields := lvCat_inj (by rfl) hcat
    simp only [List.cons.injEq, and_true] at hfields
    have hpoint := congrArg R.fromBytes hfields.2.2
    rw [hR.decodes, hR.decodes, Option.some.injEq] at hpoint
    rw [Nat.mul_comm responder.scalar, mul_nsmul', mul_nsmul'] at hpoint
    have hsame := hR.cancel hpos' hlt' (hR.cancel hpos hlt hpoint)
    exact generatorString_inj (hapart hsame.symm)
  · intro hsame
    obtain ⟨rfl, rfl, rfl⟩ := hsame
    rw [Nat.mul_comm]

end Mtmux.Crypto
