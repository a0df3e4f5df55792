import Mtmux.Browser.LockStore
import Mtmux.Crypto.Envelope

/-! Where the device lock keeps what it seals, and the data that binds it to its place. -/
namespace Mtmux.Browser
open Crypto

/-- What `recordAad` and `wrapAad` are for. -/
inductive Place where
  | record (slot id : CodeUnits)
  | factor (kind id : CodeUnits)

def Place.aad : Place → Option CodeUnits
  | .record slot id => recordAad slot id
  | .factor kind id => wrapAad kind id

def FactorKind.text : FactorKind → String
  | .pin => "pin"
  | .passkey => "passkey"

/-- Where a sealed record lies: under a machine's id, under the key of the local token, or in a factor of the lock. -/
inductive Slot where
  | keys (serverId : String)
  | localToken
  | factor (kind : FactorKind) (id : String)
  deriving DecidableEq

def Slot.place : Slot → Place
  | .keys serverId => .record (units "session-keys") (units serverId)
  | .localToken => .record (units "local-token") (units "self-hosted")
  | .factor kind id => .factor (units kind.text) (units id)

/-- Two places whose names are one text to the encoder, which replaces surrogates without a partner. -/
def SameText : Place → Place → Prop
  | .record slot id, .record slot' id' => codePoints slot = codePoints slot' ∧ codePoints id = codePoints id'
  | .factor kind id, .factor kind' id' => codePoints kind = codePoints kind' ∧ codePoints id = codePoints id'
  | _, _ => False

/- The associated data of two places. -/

/-- The fields of a place behind the tag of its family. -/
def joined (tag a b : CodeUnits) : CodeUnits := lockAadPrefix ++ bar :: (tag ++ bar :: (a ++ bar :: b))

variable {aad : CodeUnits}

theorem recordAad_some {slot id : CodeUnits} (h : recordAad slot id = some aad) :
    aad = joined (units "rec") slot id ∧ (slot ≠ [] ∧ bar ∉ slot) ∧ id ≠ [] ∧ bar ∉ id := by
  unfold recordAad at h
  split at h
  · rename_i slot' id' hslot hid
    obtain ⟨rfl, hslot⟩ := field_some hslot
    obtain ⟨rfl, hid⟩ := field_some hid
    cases h
    refine ⟨?_, hslot, hid⟩
    have htag : units "|rec|" = bar :: (units "rec" ++ [bar]) := by decide
    simp [joined, htag]
  · cases h

theorem wrapAad_some {kind id : CodeUnits} (h : wrapAad kind id = some aad) :
    aad = joined (units "wrap") kind id ∧ (kind ≠ [] ∧ bar ∉ kind) ∧ id ≠ [] ∧ bar ∉ id := by
  unfold wrapAad at h
  split at h
  · rename_i kind' id' hkind hid
    obtain ⟨rfl, hkind⟩ := field_some hkind
    obtain ⟨rfl, hid⟩ := field_some hid
    cases h
    refine ⟨?_, hkind, hid⟩
    have htag : units "|wrap|" = bar :: (units "wrap" ++ [bar]) := by decide
    simp [joined, htag]
  · cases h

variable {a b : CodeUnits}

theorem joined_inj {tag tag' a' b' : CodeUnits} (htag : bar ∉ tag) (htag' : bar ∉ tag') (ha : bar ∉ a)
    (ha' : bar ∉ a') (h : joined tag a b = joined tag' a' b') : tag = tag' ∧ a = a' ∧ b = b' := by
  have hprefix : bar ∉ lockAadPrefix := by decide
  obtain ⟨-, htags⟩ := Separator.split_inj hprefix hprefix h
  obtain ⟨hsame, hfields⟩ := Separator.split_inj htag htag' htags
  obtain ⟨hfirst, hsecond⟩ := Separator.split_inj ha ha' hfields
  exact ⟨hsame, hfirst, hsecond⟩

theorem codePoints_bar (a b : CodeUnits) : codePoints (a ++ bar :: b) = codePoints a ++ '|' :: codePoints b :=
  codePoints_append (by decide) (by decide) a b

theorem codePoints_joined (tag a b : CodeUnits) : codePoints (joined tag a b) =
    codePoints lockAadPrefix ++ '|' :: (codePoints tag ++ '|' :: (codePoints a ++ '|' :: codePoints b)) := by
  rw [joined, codePoints_bar, codePoints_bar, codePoints_bar]

theorem textEncode_inj : textEncode a = textEncode b ↔ codePoints a = codePoints b := by
  constructor
  · intro h
    exact String.ofList_inj.1 (utf8ToBytes_inj h)
  · intro h
    rw [textEncode, textEncode, h]

theorem textEncode_joined {tag tag' a' b' : CodeUnits} (htag : bar ∉ tag) (htag' : bar ∉ tag')
    (ha : bar ∉ a) (ha' : bar ∉ a') : textEncode (joined tag a b) = textEncode (joined tag' a' b') ↔
      codePoints tag = codePoints tag' ∧ codePoints a = codePoints a' ∧ codePoints b = codePoints b' := by
  rw [textEncode_inj, codePoints_joined, codePoints_joined]
  constructor
  · intro h
    have hprefix : '|' ∉ codePoints lockAadPrefix := by decide
    obtain ⟨-, hrest⟩ := Separator.split_inj hprefix hprefix h
    obtain ⟨hsame, hrest⟩ := Separator.split_inj (fun hmem => htag (mem_codePoints.1 hmem))
      (fun hmem => htag' (mem_codePoints.1 hmem)) hrest
    obtain ⟨hsame', hrest⟩ := Separator.split_inj (fun hmem => ha (mem_codePoints.1 hmem))
      (fun hmem => ha' (mem_codePoints.1 hmem)) hrest
    exact ⟨hsame, hsame', hrest⟩
  · rintro ⟨htags, hfirst, hsecond⟩
    rw [htags, hfirst, hsecond]

/-- No two places have the same associated data. -/
theorem aad_inj {p q : Place} (hp : p.aad = some aad) (hq : q.aad = some aad) : p = q := by
  have hrec : bar ∉ units "rec" := by decide
  have hwrap : bar ∉ units "wrap" := by decide
  cases p with
  | record slot id =>
    obtain ⟨rfl, hslot, -⟩ := recordAad_some hp
    cases q with
    | record slot' id' =>
      obtain ⟨hsame, hslot', -⟩ := recordAad_some hq
      obtain ⟨-, rfl, rfl⟩ := joined_inj hrec hrec hslot.2 hslot'.2 hsame
      rfl
    | factor kind id' =>
      obtain ⟨hsame, hkind, -⟩ := wrapAad_some hq
      obtain ⟨htag, -⟩ := joined_inj hrec hwrap hslot.2 hkind.2 hsame
      exact absurd htag (by decide)
  | factor kind id =>
    obtain ⟨rfl, hkind, -⟩ := wrapAad_some hp
    cases q with
    | record slot' id' =>
      obtain ⟨hsame, hslot', -⟩ := recordAad_some hq
      obtain ⟨htag, -⟩ := joined_inj hwrap hrec hkind.2 hslot'.2 hsame
      exact absurd htag (by decide)
    | factor kind' id' =>
      obtain ⟨hsame, hkind', -⟩ := wrapAad_some hq
      obtain ⟨-, rfl, rfl⟩ := joined_inj hwrap hwrap hkind.2 hkind'.2 hsame
      rfl

/-- The data of two places are the same bytes when their names are the same text. -/
theorem aad_text {p q : Place} (hp : p.aad = some a) (hq : q.aad = some b) :
    textEncode a = textEncode b ↔ SameText p q := by
  have hrec : bar ∉ units "rec" := by decide
  have hwrap : bar ∉ units "wrap" := by decide
  have hapart : ¬ codePoints (units "rec") = codePoints (units "wrap") := by decide
  cases p with
  | record slot id =>
    obtain ⟨rfl, hslot, -⟩ := recordAad_some hp
    cases q with
    | record slot' id' =>
      obtain ⟨rfl, hslot', -⟩ := recordAad_some hq
      rw [textEncode_joined hrec hrec hslot.2 hslot'.2]
      simp [SameText]
    | factor kind id' =>
      obtain ⟨rfl, hkind, -⟩ := wrapAad_some hq
      rw [textEncode_joined hrec hwrap hslot.2 hkind.2]
      simp [SameText, hapart]
  | factor kind id =>
    obtain ⟨rfl, hkind, -⟩ := wrapAad_some hp
    cases q with
    | record slot' id' =>
      obtain ⟨rfl, hslot', -⟩ := recordAad_some hq
      rw [textEncode_joined hwrap hrec hkind.2 hslot'.2]
      simp [SameText, Ne.symm hapart]
    | factor kind' id' =>
      obtain ⟨rfl, hkind', -⟩ := wrapAad_some hq
      rw [textEncode_joined hwrap hwrap hkind.2 hkind'.2]
      simp [SameText]

theorem units_inj {s t : String} (h : codePoints (units s) = codePoints (units t)) : s = t := by
  rw [codePoints_units, codePoints_units] at h
  exact String.toList_inj.1 h

/-- Two slots of the stores have the same data only if they are one. -/
theorem slot_aad_inj {p q : Slot} (hp : p.place.aad = some a) (hq : q.place.aad = some b)
    (h : textEncode a = textEncode b) : p = q := by
  have hsame := (aad_text hp hq).1 h
  have hslots : codePoints (units "session-keys") ≠ codePoints (units "local-token") := by decide
  cases p with
  | keys serverId =>
    cases q with
    | keys serverId' => rw [units_inj hsame.2]
    | localToken => exact absurd hsame.1 hslots
    | factor kind id => exact hsame.elim
  | localToken =>
    cases q with
    | keys serverId => exact absurd hsame.1.symm hslots
    | localToken => rfl
    | factor kind id => exact hsame.elim
  | factor kind id =>
    cases q with
    | keys _ | localToken => exact hsame.elim
    | factor kind' id' =>
      have hkind : kind = kind' := by
        have htext := units_inj hsame.1
        cases kind <;> cases kind' <;> first | rfl | exact absurd htext (by decide)
      rw [hkind, units_inj hsame.2]

end Mtmux.Browser
