import Mathlib.Tactic.NormNum.Prime
import Mtmux.Agent.AccessRequests
import Mtmux.Agent.Ordering
import Mtmux.Browser.Pairing
import Mtmux.Cli.PairingClient

/-! The two ends of a pairing derive the same keys: whichever of them shows the code, and
when access is requested instead. The broker passes on what it is handed. -/
namespace Mtmux.Pairing
open Protocol Crypto Browser Cli List Option

variable {G : Type} [AddCommGroup G] [DecidableEq G]

/-- The two ends have the same keys exactly when `same` holds; then each end's tag verifies at
the other, and no end's tag verifies as the other's. -/
structure Agree (P : Primitives) (cli browser : SessionKeys) (same : Prop) : Prop where
  keys : cli = browser ↔ same
  cliTag : same →
    verifyConfirmation P browser.confirm .cli (confirmationTag P cli.confirm .cli) = true
  browserTag : same →
    verifyConfirmation P cli.confirm .browser (confirmationTag P browser.confirm .browser) = true
  notOwn : verifyConfirmation P cli.confirm .browser (confirmationTag P cli.confirm .cli) = false ∧
    verifyConfirmation P browser.confirm .cli (confirmationTag P browser.confirm .browser) = false

/-- The two generators are none of them the identity, and do not collide. -/
structure Generators (P : Primitives) (R : Ristretto G) (secret slot : String) (sid : Bytes)
    (secret' slot' : String) (sid' : Bytes) : Prop where
  claimant : generatorPoint P R (utf8ToBytes secret) (utf8ToBytes slot) sid ≠ 0
  holder : generatorPoint P R (utf8ToBytes secret') (utf8ToBytes slot') sid' ≠ 0
  apart : generatorPoint P R (utf8ToBytes secret) (utf8ToBytes slot) sid =
      generatorPoint P R (utf8ToBytes secret') (utf8ToBytes slot') sid' →
    generatorString (utf8ToBytes secret) (utf8ToBytes slot) sid =
      generatorString (utf8ToBytes secret') (utf8ToBytes slot') sid'

def ShownByBrowser (cfg : PairingConfig G) : Prop :=
  ∀ (secret slot secret' slot' : String) (sid sid' seed seed' : Bytes) (c b : CPaceState),
    cpaceStart cfg.P cfg.R (utf8ToBytes secret) (utf8ToBytes slot) sid seed = some c →
    cpaceStart cfg.P cfg.R (utf8ToBytes secret') (utf8ToBytes slot') sid' seed' = some b →
    Generators cfg.P cfg.R secret slot sid secret' slot' sid' →
    ∀ (s : StartPairing) (x : Exchange) (now : Int) (peer peer' : String),
      s.slot = slot' → s.peerHandle = none → x.attempts.get peer' = none →
      x.seen < maxPeersPerSlot → utf16Length cfg.ownAd ≤ adPeerMax →
    ∃ keys attempt,
      s.handle cfg secret' seed' now (.peerShare peer (Cli.claimRequest slot c).share
          (Cli.claimRequest slot c).ad (bytesToHex sid')) =
        ({ s with peerHandle := some peer, keys := some keys },
          [.update .verifying, .send (.toPeer peer (.share (bytesToHex b.share) cfg.ownAd)),
            .send (.toPeer peer (ownTag cfg keys))]) ∧
      (x.handle (pairWithCode cfg.P cfg.R c) (.peerShare peer' (bytesToHex b.share) cfg.ownAd
          (bytesToHex sid'))).1.attempts.get peer' = some attempt ∧
      Agree cfg.P attempt.keys keys (secret = secret' ∧ slot = slot' ∧ sid = sid')

def ShownByCli (cfg : PairingConfig G) : Prop :=
  ∀ (secret slot secret' slot' : String) (sid sid' seed : Bytes) (seeds : Nat → Bytes)
    (admits : Bool) (c b : CPaceState) (x : Exchange),
    cpaceStart cfg.P cfg.R (utf8ToBytes secret) (utf8ToBytes slot) sid seed = some c →
    cpaceStart cfg.P cfg.R (utf8ToBytes secret') (utf8ToBytes slot') sid' (seeds x.derived) =
      some b →
    Generators cfg.P cfg.R secret slot sid secret' slot' sid' →
    ∀ (j : JoinPairing) (peer peer' : String), x.attempts.get peer = none → x.seen = 0 →
      j.attempts.get peer' = none → j.seen < maxPeersPerSlot →
      utf16Length cfg.ownAd ≤ adPeerMax →
    ∃ keys attempt,
      (x.handle (hostPairing cfg.P cfg.R secret' slot' seeds admits) (.peerShare peer
          (JoinPairing.claimRequest cfg slot c).share (JoinPairing.claimRequest cfg slot c).ad
          (bytesToHex sid'))).1.attempts.get peer = some attempt ∧
      attempt.ownShare = b.share ∧
      (j.handle cfg c (.peerShare peer' (bytesToHex attempt.ownShare) Exchange.adCli
          (bytesToHex sid'))).1.attempts.get peer' = some keys ∧
      Agree cfg.P attempt.keys keys (secret = secret' ∧ slot = slot' ∧ sid = sid')

structure Exchanges (P : Primitives) : Prop where
  commutes : ∀ a b : Bytes, a.length = 32 → b.length = 32 →
    P.sharedSecret a (P.publicKey b) = P.sharedSecret b (P.publicKey a)
  nonzero : ∀ a b : Bytes, a.length = 32 → b.length = 32 →
    ∃ shared, P.sharedSecret a (P.publicKey b) = some shared ∧ shared.all (· = 0) = false

/-- `requestAccess` with `decideAccess`: the browser commits, the machine answers with its
key, the browser reveals. -/
def Requested (cfg : AccessClientConfig) : Prop :=
  ∀ (random : Nat → Bytes) (canAsk : Bool) (a : Agent.AccessTable)
    (requestId deviceLabel accountEmail : String),
    cfg.random.length = 32 → (random a.drawn).length = 32 →
    ∃ pending ack keys sas,
      a.pairRequest ⟨cfg.P, random, canAsk⟩ requestId
          (bytesToHex (AccessClient.commitment cfg requestId)) deviceLabel accountEmail =
        ({ a with accessRequests := a.accessRequests.set requestId pending, drawn := a.drawn + 1 },
          [.send (.requestAck requestId ack)]) ∧
      AccessClient.agreed cfg requestId ack = some (keys, sas) ∧
      (hexToBytes (bytesToHex (AccessClient.ephemeral cfg).publicKey)).bind
          (Agent.AccessTable.agreed ⟨cfg.P, random, canAsk⟩ requestId pending) =
        some (keys, sas) ∧
      ∀ salt json frame, sealDescriptor cfg.P cfg.G keys salt json = some frame →
        AccessClient.unsealDescriptor cfg keys (bytesToBase64Url frame) = cfg.parseDescriptor json

def DescriptorsOpen (cfg : PairingConfig G) : Prop :=
  ∀ keys salt json frame, sealDescriptor cfg.P cfg.gcm keys salt json = some frame →
    unsealPairing cfg keys (bytesToBase64Url frame) = cfg.parseDescriptor json

variable {P : Primitives}

theorem agree_of_keys (hP : P.Collisionless) {cli browser : SessionKeys}
    {same : Prop} (h : cli = browser ↔ same) : Agree P cli browser same := by
  refine ⟨h, fun hsame => ?_, fun hsame => ?_, ?_, ?_⟩
  · rw [h.2 hsame]
    exact verifyConfirmation_tag P _ _
  · rw [h.2 hsame]
    exact verifyConfirmation_tag P _ _
  · exact verifyConfirmation_role hP _ (by decide)
  · exact verifyConfirmation_role hP _ (by decide)

theorem derived_agree {R : Ristretto G} (hR : R.Lawful) (hP : P.Collisionless)
    {secret slot secret' slot' : String} {sid sid' seed seed' : Bytes} {c b : CPaceState}
    (hc : cpaceStart P R (utf8ToBytes secret) (utf8ToBytes slot) sid seed = some c)
    (hb : cpaceStart P R (utf8ToBytes secret') (utf8ToBytes slot') sid' seed' = some b)
    (hg : Generators P R secret slot sid secret' slot' sid') (ad ad' : Bytes) :
    ∃ isk isk', c.finish P R b.share ⟨ad, ad', true⟩ = some isk ∧ b.finish P R c.share ⟨ad', ad, false⟩ = some isk' ∧
      (deriveSessionKeys P isk (transcriptIr c.share ad b.share ad') =
          deriveSessionKeys P isk' (transcriptIr c.share ad b.share ad') ↔
        secret = secret' ∧ slot = slot' ∧ sid = sid') := by
  obtain ⟨isk, isk', hisk, hisk', hiff⟩ := finish_agree hR hP hc hb hg.claimant hg.holder hg.apart
    ad ad'
  refine ⟨isk, isk', hisk, hisk', ?_⟩
  constructor
  · intro hkeys
    obtain ⟨hsecret, hslot, hsid⟩ := hiff.1 (deriveSessionKeys_inj hP hkeys)
    exact ⟨utf8ToBytes_inj hsecret, utf8ToBytes_inj hslot, hsid⟩
  · intro hsame
    obtain ⟨hsecret, hslot, hsid⟩ := hsame
    rw [hiff.2 ⟨by rw [hsecret], by rw [hslot], hsid⟩]

theorem shown_by_browser {cfg : PairingConfig G} (hR : cfg.R.Lawful) (hP : cfg.P.Collisionless) :
    ShownByBrowser cfg := by
  intro secret slot secret' slot' sid sid' seed seed' c b hc hb hg s x now peer peer' hslot hhandle
    hfresh hroom had
  obtain ⟨isk, isk', hisk, hisk', hkeys⟩ := derived_agree hR hP hc hb hg
    (utf8ToBytes Exchange.adCli) (utf8ToBytes cfg.ownAd)
  refine ⟨deriveSessionKeys cfg.P isk' (transcriptIr c.share (utf8ToBytes Exchange.adCli) b.share
      (utf8ToBytes cfg.ownAd)),
    ⟨peer', c.share, deriveSessionKeys cfg.P isk (transcriptIr c.share (utf8ToBytes Exchange.adCli)
      b.share (utf8ToBytes cfg.ownAd)), cfg.ownAd⟩, ?_, ?_, agree_of_keys hP hkeys⟩
  · have hheld : heldKeys cfg b c.share Exchange.adCli = some (deriveSessionKeys cfg.P isk'
        (transcriptIr c.share (utf8ToBytes Exchange.adCli) b.share (utf8ToBytes cfg.ownAd))) := by
      rw [heldKeys, hisk', map_some]
    simp only [StartPairing.handle, Cli.claimRequest, hexToBytes_bytesToHex, StartPairing.peerShare,
      hhandle, hslot, hb, hheld]
  · have hderive : claimDerive cfg.P cfg.R c ⟨peer', b.share, cfg.ownAd, sid'⟩ =
        .attempt ⟨peer', c.share, deriveSessionKeys cfg.P isk (transcriptIr c.share
          (utf8ToBytes Exchange.adCli) b.share (utf8ToBytes cfg.ownAd)), cfg.ownAd⟩ := by
      rw [claimDerive, if_neg (by simp only; omega)]
      simp only [hisk]
    have hnew : x.attempts.has peer' = false := by simp [OrderedMap.has, hfresh]
    simp only [Exchange.handle, hexToBytes_bytesToHex, Exchange.handlePeerShare, hnew,
      Bool.false_eq_true, if_false, pairWithCode, hderive]
    rw [if_neg]
    · simp
    · simp only [mem_def, Option.some.injEq, exists_eq_left']
      omega

theorem shown_by_cli {cfg : PairingConfig G} (hR : cfg.R.Lawful) (hP : cfg.P.Collisionless) : ShownByCli cfg := by
  intro secret slot secret' slot' sid sid' seed seeds admits c b x hc hb hg j peer peer' hfresh
    hseen hfresh' hroom had
  obtain ⟨isk, isk', hisk, hisk', hkeys⟩ := derived_agree hR hP hc hb hg
    (utf8ToBytes cfg.ownAd) (utf8ToBytes Exchange.adCli)
  refine ⟨deriveSessionKeys cfg.P isk (transcriptIr c.share (utf8ToBytes cfg.ownAd) b.share
      (utf8ToBytes Exchange.adCli)),
    ⟨peer, b.share, deriveSessionKeys cfg.P isk' (transcriptIr c.share (utf8ToBytes cfg.ownAd)
      b.share (utf8ToBytes Exchange.adCli)), cfg.ownAd⟩, ?_, rfl, ?_, agree_of_keys hP ?_⟩
  · have hderive : hostDerive cfg.P cfg.R secret' slot' (seeds x.derived)
        ⟨peer, c.share, cfg.ownAd, sid'⟩ =
        .attempt ⟨peer, b.share, deriveSessionKeys cfg.P isk' (transcriptIr c.share
          (utf8ToBytes cfg.ownAd) b.share (utf8ToBytes Exchange.adCli)), cfg.ownAd⟩ := by
      rw [hostDerive, if_neg (by simp only; omega)]
      simp only [hb, hisk']
    have hnew : x.attempts.has peer = false := by simp [OrderedMap.has, hfresh]
    simp only [Exchange.handle, JoinPairing.claimRequest, hexToBytes_bytesToHex,
      Exchange.handlePeerShare, hnew, Bool.false_eq_true, if_false, hostPairing, hderive]
    rw [if_neg]
    · simp
    · simp only [mem_def, Option.some.injEq, exists_eq_left']
      omega
  · have hclaimed : claimedKeys cfg c b.share Exchange.adCli = some (deriveSessionKeys cfg.P isk
        (transcriptIr c.share (utf8ToBytes cfg.ownAd) b.share (utf8ToBytes Exchange.adCli))) := by
      rw [claimedKeys, hisk, map_some]
    have hnew : j.attempts.has peer' = false := by simp [OrderedMap.has, hfresh']
    simp only [JoinPairing.handle, hexToBytes_bytesToHex, JoinPairing.peerShare, hnew,
      Bool.false_eq_true, if_false, hclaimed]
    rw [if_neg (by omega)]
    simp
  · rw [eq_comm]
    exact hkeys

theorem descriptors_open {gcm : Gcm} (hgcm : gcm.Lawful) {keys : SessionKeys} {salt json frame : Bytes}
    (h : sealDescriptor P gcm keys salt json = some frame) : base64UrlToBytes (bytesToBase64Url frame) = some frame ∧
      openOnce P gcm keys.s2c .s2c frame .descriptor = some json :=
  ⟨base64UrlToBytes_bytesToBase64Url frame, openOnce_sealOnce hgcm h⟩

theorem requested {cfg : AccessClientConfig} (hP : Exchanges cfg.P) (hgcm : cfg.G.Lawful) : Requested cfg := by
  intro random canAsk a requestId deviceLabel accountEmail hown hpeer
  obtain ⟨shared, hshared, hnonzero⟩ := hP.nonzero _ _ hown hpeer
  have hbrowser : sasSharedSecret cfg.P cfg.random (cfg.P.publicKey (random a.drawn)) =
      some shared := by
    simp [sasSharedSecret, hshared, hnonzero]
  have hcli : sasSharedSecret cfg.P (random a.drawn) (cfg.P.publicKey cfg.random) =
      some shared := by
    have hswap := hP.commutes _ _ hown hpeer
    rw [hshared] at hswap
    simp [sasSharedSecret, ← hswap, hnonzero]
  have hcommitted : verifySasCommitment cfg.P (AccessClient.commitment cfg requestId)
      (AccessClient.ephemeral cfg).publicKey requestId = true :=
    (verifySasCommitment_iff cfg.P).2 rfl
  refine ⟨⟨AccessClient.commitment cfg requestId, deviceLabel, accountEmail,
      newEphemeralKey cfg.P (random a.drawn)⟩,
    bytesToHex (newEphemeralKey cfg.P (random a.drawn)).publicKey,
    deriveSessionKeys cfg.P shared (sasTranscript requestId (AccessClient.commitment cfg requestId)
      (AccessClient.ephemeral cfg).publicKey (newEphemeralKey cfg.P (random a.drawn)).publicKey),
    deriveSas cfg.P shared (sasTranscript requestId (AccessClient.commitment cfg requestId)
      (AccessClient.ephemeral cfg).publicKey (newEphemeralKey cfg.P (random a.drawn)).publicKey),
    ?_, ?_, ?_, fun salt json frame hseal => ?_⟩
  · simp only [Agent.AccessTable.pairRequest, hexToBytes_bytesToHex]
  · simp only [AccessClient.agreed, hexToBytes_bytesToHex]
    rw [show (AccessClient.ephemeral cfg).secret = cfg.random from rfl,
      show (newEphemeralKey cfg.P (random a.drawn)).publicKey = cfg.P.publicKey (random a.drawn)
        from rfl, hbrowser]
  · simp only [hexToBytes_bytesToHex, bind_some, Agent.AccessTable.agreed, hcommitted, if_true]
    rw [show (newEphemeralKey cfg.P (random a.drawn)).secret = random a.drawn from rfl,
      show (AccessClient.ephemeral cfg).publicKey = cfg.P.publicKey cfg.random from rfl, hcli]
  · obtain ⟨hbase, hopen⟩ := descriptors_open hgcm hseal
    rw [AccessClient.unsealDescriptor, hbase]
    simp only [hopen, bind_some]

/-- In both directions and for requested access, the two ends agree, and what the CLI seals
the browser opens. -/
theorem both_ends_agree (cfg : PairingConfig G) (acc : AccessClientConfig) (hR : cfg.R.Lawful)
    (hP : cfg.P.Collisionless) (hgcm : cfg.gcm.Lawful) (hX : Exchanges acc.P) (hG : acc.G.Lawful) :
    ShownByBrowser cfg ∧ ShownByCli cfg ∧ DescriptorsOpen cfg ∧ Requested acc := by
  refine ⟨shown_by_browser hR hP, shown_by_cli hR hP, fun keys salt json frame hseal => ?_,
    requested hX hG⟩
  obtain ⟨hbase, hopen⟩ := descriptors_open hgcm hseal
  rw [unsealPairing, hbase]
  simp only [hopen, bind_some]

/-- With keys of the length that the derivation gives, the machine's end does seal. -/
theorem sealDescriptor_isSome {gcm : Gcm} {keys : SessionKeys} {salt json : Bytes}
    (hkey : keys.s2c.length = keyBytes) (hsalt : salt.length = subkeySaltBytes) :
    (sealDescriptor P gcm keys salt json).isSome = true := by
  simp [sealDescriptor, sealOnce, FrameSealer.create, deriveSubkey, hkey, hsalt, FrameSealer.sealFrame]

/-- Hashes that keep all they are given, and a shared secret of 32 bytes. -/
def keepingPrimitives : Primitives where
  sha256 := id
  sha512 := id
  hmac key message := key ++ message
  hkdf ikm _ _ _ := ikm
  publicKey := id
  sharedSecret secret key := some (1 :: (List.zipWith (· + ·) secret key).tail)

theorem keepingPrimitives_collisionless : keepingPrimitives.Collisionless := by
  refine ⟨fun _ _ h => h, fun _ _ _ _ h => h, ?_⟩
  intro key message message' h
  exact append_cancel_left h

theorem keepingPrimitives_exchanges : Exchanges keepingPrimitives := by
  constructor
  · intro a b _ _
    simp only [keepingPrimitives, id_eq]
    rw [zipWith_comm_of_comm (fun x y => UInt8.add_comm x y)]
  · intro a b _ _
    exact ⟨_, rfl, by simp⟩

theorem residueCurve_lawful : residueCurve.Lawful where
  prime := by
    simp only [residueCurve]
    norm_num
  torsion p := by
    simp only [residueCurve, nsmul_eq_mul]
    rw [ZMod.natCast_self, zero_mul]
  multiplies _ _ := rfl
  decodes p := by
    have hval : p.val < 251 := ZMod.val_lt p
    have hbyte : (UInt8.ofNat p.val).toNat = p.val := by
      simp only [UInt8.toNat_ofNat']
      omega
    simp only [residueCurve, length_cons, length_replicate, if_true, headD_cons,
      hbyte, ZMod.natCast_val, ZMod.cast_id', id_eq]
  length p := by simp [residueCurve, elementBytes]

def samplePairing : PairingConfig (ZMod 251) where
  P := keepingPrimitives
  gcm := Agent.StreamTable.plainGcm
  R := residueCurve
  ownAd := "phone"
  parseDescriptor bytes := some (bytesToHex bytes)

def sampleRequest : AccessClientConfig where
  P := keepingPrimitives
  G := Agent.StreamTable.plainGcm
  random := List.replicate 32 4
  unreachable := "unreachable"
  parseDescriptor bytes := some (bytesToHex bytes)

theorem both_ends_agree_residues :
    (ShownByBrowser samplePairing ∧ ShownByCli samplePairing ∧ DescriptorsOpen samplePairing ∧
      Requested sampleRequest) ∧
    Generators samplePairing.P samplePairing.R "123456" "049" (List.replicate 16 7) "123457" "049"
      (List.replicate 16 7) ∧ (cpaceStart samplePairing.P samplePairing.R (utf8ToBytes "123456") (utf8ToBytes "049")
      (List.replicate 16 7) (smallSeed 1)).isSome = true ∧
    utf16Length samplePairing.ownAd ≤ adPeerMax ∧ sampleRequest.random.length = 32 ∧
    ∃ keys sas, AccessClient.agreed sampleRequest "request-1" (bytesToHex (List.replicate 32 9)) =
      some (keys, sas) ∧ ∀ json, (sealDescriptor keepingPrimitives Agent.StreamTable.plainGcm keys
        (List.replicate 16 3) json).isSome = true := by
  refine ⟨both_ends_agree samplePairing sampleRequest residueCurve_lawful
    keepingPrimitives_collisionless Agent.StreamTable.plainGcm_lawful keepingPrimitives_exchanges
    Agent.StreamTable.plainGcm_lawful, ?_, by decide +kernel, by decide +kernel, by decide +kernel, ?_⟩
  · exact ⟨by decide +kernel, by decide +kernel, by decide +kernel⟩
  · exact ⟨_, _, rfl, fun json => sealDescriptor_isSome (by decide +kernel) rfl⟩

end Mtmux.Pairing
