import Mtmux.Cli.ConfigStore

/-! Do the two stores lose an update? Calls of one process go on between each other's steps, and the
background touches of the devices in use do so while the owner removes one. -/
namespace Mtmux.Cli
open Crypto Protocol ReplacedFile Program List

def AllOver {C Op F : Type} (s : State C Op F) : Prop := ∀ id, s.calls.get id = none

/-- The file is what some order of the calls makes of the first one. -/
def InSomeOrder {C Op F : Type} (P : Program C Op F) (content : Content C) (es : List (Event Op F)) :
    Prop :=
  AllOver ((P.machine content).run es) →
    ∃ order : List (Nat × Call Op F), order.Perm (Program.begun ((P.machine content).trace es)) ∧
      P.view ((P.machine content).run es) =
        (order.map Prod.snd).foldl P.serial (P.view (.start content : State C Op F))

/-- No update of the configuration is lost, and in particular none of a device or of the device key. -/
structure ConfigKept (sha256 : Bytes → Bytes) (legacy : Option String) (content : Content Config)
    (es : List (Event ConfigOp String)) : Prop where
  serial : InSomeOrder (configStore sha256 legacy) content es
  removed : ∀ first id deviceId fresh value wrote out,
    ((configStore sha256 legacy).machine content).outputs es =
        first ++ .ended id ⟨.removePeer deviceId, fresh⟩ value wrote :: out →
      (∀ call ∈ Program.endedIn out, ∀ peer, call.op = .addPeer peer → peer.deviceId ≠ deviceId) →
        ∃ config, (configStore sha256 legacy).view (((configStore sha256 legacy).machine content).run es) =
          some config ∧ ∀ p ∈ config.listPeers, p.deviceId ≠ deviceId
  added : ∀ first id peer fresh value wrote out,
    ((configStore sha256 legacy).machine content).outputs es =
        first ++ .ended id ⟨.addPeer peer, fresh⟩ value wrote :: out →
      (∀ call ∈ Program.endedIn out, call.op ≠ .removePeer peer.deviceId) →
        ∃ config, (configStore sha256 legacy).view (((configStore sha256 legacy).machine content).run es) =
          some config ∧ ∃ p ∈ config.listPeers, p.deviceId = peer.deviceId
  deviceKey : ∀ first id generated fresh value wrote out,
    ((configStore sha256 legacy).machine content).outputs es =
        first ++ .ended id ⟨.ensureDeviceKey generated, fresh⟩ value wrote :: out →
      ∃ config key, (configStore sha256 legacy).view
          (((configStore sha256 legacy).machine content).run es) = some config ∧
        value.deviceKey = some key ∧ config.deviceKey = some key

/-- No update of the shares is lost, and a share that was revoked is never active again. -/
structure GrantsKept (content : Content (List GrantRecord)) (es : List (Event GrantOp Unit)) : Prop where
  serial : InSomeOrder grantsStore content es
  revoked : ∀ first id grantId now value out,
    (grantsStore.machine content).outputs es =
        first ++ .ended id ⟨.revoke grantId now, ()⟩ value true :: out →
      (∀ call ∈ Program.endedIn out, ∀ g, call.op = .add g → g.id ≠ grantId) →
        ∃ grants, grantsStore.view ((grantsStore.machine content).run es) = some grants ∧
          ∀ g ∈ grants, g.id = grantId → ∀ later, isGrantActive g later = false

/-- The calls of a run go one after another, as far as the file is concerned. -/
def GoOneAfterAnother {C Op F : Type} (P : Program C Op F) (content : Content C)
    (es : List (Event Op F)) : Prop :=
  ∀ x ∈ (P.machine content).trace es, P.OneAfterAnother x.pre x.event

section Kept
variable {sha256 : Bytes → Bytes} {legacy : Option String} {content : Content Config}
  {es : List (Event ConfigOp String)}

variable {id : Nat} {wrote : Bool}

theorem value_cases {C Op F : Type} {P : Program C Op F} {content : Content C} {es : List (Event Op F)}
    (hone : GoOneAfterAnother P content es) {first out : List (Output C Op F)} {call : Call Op F} {value : C}
    (hout : (P.machine content).outputs es = first ++ .ended id call value wrote :: out) :
    ∃ c, value = (P.apply call.op c).getD c := by
  have hvalue := value_run hone hout
  rw [foldl_append] at hvalue
  exact ⟨_, (Option.some.inj hvalue).symm⟩

variable {first out : List (Output Config ConfigOp String)} {fresh : String} {value : Config}

section
variable (hone : GoOneAfterAnother (configStore sha256 legacy) content es)
include hone

theorem kept_removed {deviceId : String}
        (hout : ((configStore sha256 legacy).machine content).outputs es =
        first ++ .ended id ⟨.removePeer deviceId, fresh⟩ value wrote :: out)
    (hadds : ∀ call ∈ Program.endedIn out, ∀ peer, call.op = .addPeer peer → peer.deviceId ≠ deviceId) :
    ∃ config, (configStore sha256 legacy).view (((configStore sha256 legacy).machine content).run es) =
      some config ∧ ∀ p ∈ config.listPeers, p.deviceId ≠ deviceId := by
  obtain ⟨before, hvalue⟩ := value_cases hone hout
  refine kept_run hone hout ?_ fun call hcall c c' hgone happly =>
    apply_removed happly (hadds call hcall) hgone
  rw [hvalue]
  change ∀ p ∈ (Option.getD ((removePeer before.listPeers deviceId).map before.withPeers) before).listPeers, _
  cases hremove : removePeer before.listPeers deviceId with
  | none => exact fun p hp => removePeer_none hremove hp
  | some peers => exact fun p hp => ((mem_removePeer hremove).1 hp).2

theorem kept_added {peer : PeerRecord}
        (hout : ((configStore sha256 legacy).machine content).outputs es =
        first ++ .ended id ⟨.addPeer peer, fresh⟩ value wrote :: out)
    (hremoves : ∀ call ∈ Program.endedIn out, call.op ≠ .removePeer peer.deviceId) :
    ∃ config, (configStore sha256 legacy).view (((configStore sha256 legacy).machine content).run es) =
      some config ∧ ∃ p ∈ config.listPeers, p.deviceId = peer.deviceId := by
  obtain ⟨before, hvalue⟩ := value_cases hone hout
  refine kept_run hone hout ?_ fun call hcall c c' hthere happly =>
    apply_added happly (hremoves call hcall) hthere
  rw [hvalue]
  exact ⟨peer, mem_addPeer.2 (.inr rfl), rfl⟩

theorem kept_deviceKey
        {generated : DeviceKeyPair} (hout : ((configStore sha256 legacy).machine content).outputs es =
        first ++ .ended id ⟨.ensureDeviceKey generated, fresh⟩ value wrote :: out) :
    ∃ config key, (configStore sha256 legacy).view (((configStore sha256 legacy).machine content).run es) =
      some config ∧ value.deviceKey = some key ∧ config.deviceKey = some key := by
  obtain ⟨before, hvalue⟩ := value_cases hone hout
  have hkey : ∃ key, value.deviceKey = some key ∧ decodeDeviceKey sha256 key ≠ none := by
    rw [hvalue]
    change ∃ key, (Option.getD (ConfigOp.apply sha256 before (.ensureDeviceKey generated)) before).deviceKey =
      some key ∧ _
    cases happly : ConfigOp.apply sha256 before (.ensureDeviceKey generated) with
    | none =>
      simp only [ConfigOp.apply] at happly
      split at happly
      · rename_i hsome
        obtain ⟨pair, hpair⟩ := Option.isSome_iff_exists.1 hsome
        obtain ⟨key, hkey, hdecoded⟩ := Option.bind_eq_some_iff.1 hpair
        exact ⟨key, hkey, by simp [hdecoded]⟩
      · cases happly
    | some written =>
      obtain ⟨-, rfl⟩ := apply_ensureDeviceKey happly
      exact ⟨_, rfl, by simp [decode_encode]⟩
  obtain ⟨key, hvalue, hdecodes⟩ := hkey
  obtain ⟨config, hview, hkept⟩ := kept_run hone hout
    (Q := fun config => config.deviceKey = some key) hvalue
    fun call _ c c' hkey happly => apply_deviceKey happly hkey hdecodes
  exact ⟨config, key, hview, hvalue, hkept⟩

end

theorem kept_revoked {content : Content (List GrantRecord)} {es : List (Event GrantOp Unit)}
    (hone : GoOneAfterAnother grantsStore content es)
    {first out : List (Output (List GrantRecord) GrantOp Unit)} {now : Nat} {grantId : String}
    {value : List GrantRecord} (hout : (grantsStore.machine content).outputs es =
        first ++ .ended id ⟨.revoke grantId now, ()⟩ value true :: out)
    (hadds : ∀ call ∈ Program.endedIn out, ∀ g, call.op = .add g → g.id ≠ grantId) :
    ∃ grants, grantsStore.view ((grantsStore.machine content).run es) = some grants ∧
      ∀ g ∈ grants, g.id = grantId → ∀ later, isGrantActive g later = false := by
  have hended : .ended id ⟨.revoke grantId now, ()⟩ value true ∈ (grantsStore.machine content).outputs es := by
    rw [hout]
    simp
  obtain ⟨found, hfound⟩ := (written_run grantsStore content es).2 _ _ _ hended
  obtain ⟨grants, hview, hrevoked⟩ := kept_run hone hout (revoke_revokes hfound)
    fun call hcall c c' hrevoked happly => apply_revoked happly (hadds call hcall) hrevoked
  refine ⟨grants, hview, ?_⟩
  intro g hg hid later
  have hsome := hrevoked g hg hid
  rw [isGrantActive, Option.isNone_eq_false_iff.2 hsome]
  rfl

end Kept

/-- Where the calls go one after another as far as the files are concerned, no update is lost. -/
theorem no_update_lost (sha256 : Bytes → Bytes) (legacy : Option String) :
    (∀ content es, GoOneAfterAnother (configStore sha256 legacy) content es → ConfigKept sha256 legacy content es) ∧
    ∀ content es, GoOneAfterAnother grantsStore content es → GrantsKept content es := by
  constructor
  · intro content es hone
    exact
      { serial := serial_run hone
        removed := fun _ _ _ _ _ _ _ => kept_removed hone
        added := fun _ _ _ _ _ _ _ => kept_added hone
        deviceKey := fun _ _ _ _ _ _ _ => kept_deviceKey hone }
  · intro content es hone
    exact
      { serial := serial_run hone
        revoked := fun _ _ _ _ _ _ => kept_revoked hone }

def storedPhone : PeerRecord where
  deviceId := "browser-m1x2"
  label := "Phone"
  name := none
  pairedAt := 1000
  lastSeenAt := 1000
  directToken := some "9c0a"
  sessionKeys := none
  grantId := none

def storedConfig : Content Config := .whole { Config.empty "b7d4" with peers := some [storedPhone] }

/-- Two calls that begin together, and go on one after the other. -/
def bothCalls {Op F : Type} (call other : Call Op F) : List (Event Op F) :=
  [.begins call, .begins other] ++ List.replicate 5 (.goesOn 0 true) ++ List.replicate 5 (.goesOn 1 true)

def sharedGrant : GrantRecord where
  id := "grn_abc"
  label := "share"
  scope := .all
  readOnly := true
  files := .none
  createdAt := 1000
  expiresAt := none
  revokedAt := none
  tmuxServerPid := none
  tokenHash := ""
  peerDeviceId := none

/-- A device is seen and then removed, and a share is made and then revoked. -/
theorem no_update_lost_removed : ConfigKept id none storedConfig
      (bothCalls ⟨.touchPeer "browser-m1x2" 2000, "c5e6"⟩ ⟨.removePeer "browser-m1x2", "c5e6"⟩) ∧
    GrantsKept .empty (bothCalls ⟨.add sharedGrant, ()⟩ ⟨.revoke "grn_abc" 2000, ()⟩) := by
  refine ⟨(no_update_lost id none).1 _ _ ?_, (no_update_lost id none).2 _ _ ?_⟩
  · have hcheck : ((((configStore id none).machine storedConfig).trace
        (bothCalls ⟨.touchPeer "browser-m1x2" 2000, "c5e6"⟩ ⟨.removePeer "browser-m1x2", "c5e6"⟩)).all fun x =>
        (configStore id none).oneAfterAnother x.pre x.event) = true := by decide +kernel
    exact fun x hx => of_oneAfterAnother (all_eq_true.1 hcheck x hx)
  · have hcheck : (((grantsStore.machine .empty).trace
        (bothCalls ⟨.add sharedGrant, ()⟩ ⟨.revoke "grn_abc" 2000, ()⟩)).all fun x =>
        grantsStore.oneAfterAnother x.pre x.event) = true := by decide +kernel
    exact fun x hx => of_oneAfterAnother (all_eq_true.1 hcheck x hx)

/-- A touch has loaded the file when the device is removed, and writes what it loaded. -/
def touchedAndRemoved : List (Event ConfigOp String) :=
  [.begins ⟨.touchPeer "browser-m1x2" 2000, "c5e6"⟩, .begins ⟨.removePeer "browser-m1x2", "c5e6"⟩,
    .goesOn 0 true] ++ List.replicate 5 (.goesOn 1 true) ++ List.replicate 4 (.goesOn 0 true)

def removedConfig : Config := { Config.empty "b7d4" with peers := some [] }

def touchedConfig : Config :=
  { Config.empty "b7d4" with peers := some [{ storedPhone with lastSeenAt := 2000 }] }

/-- The device that the owner removed is back. -/
theorem not_no_update_lost : ((configStore id none).machine storedConfig).outputs touchedAndRemoved =
      [.ended 1 ⟨.removePeer "browser-m1x2", "c5e6"⟩ removedConfig true,
        .ended 0 ⟨.touchPeer "browser-m1x2" 2000, "c5e6"⟩ touchedConfig true] ∧
    ¬ ConfigKept id none storedConfig touchedAndRemoved := by
  have hout : ((configStore id none).machine storedConfig).outputs touchedAndRemoved =
      [.ended 1 ⟨.removePeer "browser-m1x2", "c5e6"⟩ removedConfig true,
        .ended 0 ⟨.touchPeer "browser-m1x2" 2000, "c5e6"⟩ touchedConfig true] := by decide +kernel
  refine ⟨hout, ?_⟩
  intro h
  have hview : (configStore id none).view (((configStore id none).machine storedConfig).run
      touchedAndRemoved) = some touchedConfig := by decide +kernel
  have hends : ∀ call ∈ Program.endedIn
      [.ended 0 ⟨.touchPeer "browser-m1x2" 2000, "c5e6"⟩ touchedConfig true],
      ∀ peer : PeerRecord, call.op = ConfigOp.addPeer peer → peer.deviceId ≠ "browser-m1x2" := by
    intro call hcall peer hop
    cases mem_singleton.1 hcall
    cases hop
  obtain ⟨config, hconfig, hgone⟩ := h.removed [] 1 "browser-m1x2" "c5e6" removedConfig true _ hout hends
  rw [hview] at hconfig
  cases hconfig
  exact hgone { storedPhone with lastSeenAt := 2000 } (mem_singleton_self _) rfl

end Mtmux.Cli
