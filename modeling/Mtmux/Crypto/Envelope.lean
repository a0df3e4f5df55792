import Mtmux.Base.Text
import Mtmux.Crypto.Bytes

/-! The device-lock envelope: records sealed under the master key, and the master key wrapped for a factor,
each bound to its place by associated data. -/
namespace Mtmux.Crypto
open List

/-- A string as the platform has it: its 16-bit code units. -/
abbrev CodeUnits : Type := List UInt16

/-- A character beyond the basic plane is a pair of surrogates. -/
def charUnits (c : Char) : CodeUnits :=
  if c.toNat < 0x10000 then [UInt16.ofNat c.toNat]
  else [UInt16.ofNat (0xD800 + (c.toNat - 0x10000) / 0x400), UInt16.ofNat (0xDC00 + (c.toNat - 0x10000) % 0x400)]

def units (text : String) : CodeUnits := text.toList.flatMap charUnits

def isHigh (u : UInt16) : Bool := 0xD800 ≤ u.toNat && u.toNat < 0xDC00
def isLow (u : UInt16) : Bool := 0xDC00 ≤ u.toNat && u.toNat < 0xE000

/-- A surrogate that is not one of a pair is replaced. -/
def scalar (u : UInt16) : Char := if isHigh u || isLow u then Char.ofNat 0xFFFD else Char.ofNat u.toNat

def codePoints : CodeUnits → List Char
  | [] => []
  | [u] => [scalar u]
  | u :: v :: rest =>
    if isHigh u && isLow v then
      Char.ofNat (0x10000 + (u.toNat - 0xD800) * 0x400 + (v.toNat - 0xDC00)) :: codePoints rest
    else scalar u :: codePoints (v :: rest)

def textEncode (text : CodeUnits) : Bytes := utf8ToBytes (String.ofList (codePoints text))

/-- AES-256-GCM with associated data. -/
structure Aead where
  encrypt : (key nonce aad data : Bytes) → Bytes
  decrypt : (key nonce aad data : Bytes) → Option Bytes

def tagLength : Nat := 16

structure Aead.Ideal (A : Aead) : Prop where
  decrypts : ∀ key nonce aad data, A.decrypt key nonce aad (A.encrypt key nonce aad data) = some data
  only : ∀ key nonce aad data key' nonce' aad' data',
    A.decrypt key' nonce' aad' (A.encrypt key nonce aad data) = some data' →
      key' = key ∧ aad' = aad ∧ data' = data
  length : ∀ key nonce aad data, tagLength ≤ (A.encrypt key nonce aad data).length

structure SealedRecord where
  v : Nat
  nonce : Bytes
  ct : Bytes

def lockAadPrefix : CodeUnits := units "mtmux/lock/v1"
def masterKeyBytes : Nat := 32
def nonceBytes : Nat := 12

/-- The separator. -/
def bar : UInt16 := 0x7C

/-- A field that is empty or contains the separator is refused. -/
def field (value : CodeUnits) : Option CodeUnits :=
  if value = [] ∨ bar ∈ value then none else some value

/-- Binds a ciphertext to one slot on one machine. -/
def recordAad (slot id : CodeUnits) : Option CodeUnits :=
  match field slot, field id with
  | some slot, some id => some (lockAadPrefix ++ units "|rec|" ++ slot ++ bar :: id)
  | _, _ => none

/-- Binds a wrapped master key to one factor. -/
def wrapAad (kind id : CodeUnits) : Option CodeUnits :=
  match field kind, field id with
  | some kind, some id => some (lockAadPrefix ++ units "|wrap|" ++ kind ++ bar :: id)
  | _, _ => none

section
variable (A : Aead) (hkdf : (ikm info : Bytes) → Bytes)

/-- `nonce` is drawn afresh. -/
def sealRecord (mk plaintext : Bytes) (aad : CodeUnits) (nonce : Bytes) : Option SealedRecord :=
  if mk.length ≠ masterKeyBytes then none
  else if aad = [] then none
  else some ⟨1, nonce, A.encrypt mk nonce (textEncode aad) plaintext⟩

def openRecord (mk : Bytes) (record : SealedRecord) (aad : CodeUnits) : Option Bytes :=
  if mk.length ≠ masterKeyBytes then none
  else if aad = [] then none
  else if record.v ≠ 1 then none
  else if record.nonce.length ≠ nonceBytes then none
  else if record.ct.length < tagLength then none
  else A.decrypt mk record.nonce (textEncode aad) record.ct

def wrappingKey (factorKey : Bytes) (kind id : CodeUnits) : Option Bytes :=
  match field kind, field id with
  | some kind, some id =>
    some (hkdf factorKey (textEncode (lockAadPrefix ++ units " wrap|" ++ kind ++ bar :: id)))
  | _, _ => none

def wrapMasterKey (factorKey mk : Bytes) (kind id : CodeUnits) (nonce : Bytes) : Option SealedRecord :=
  if mk.length ≠ masterKeyBytes then none
  else
    match wrappingKey hkdf factorKey kind id, wrapAad kind id with
    | some wk, some aad => sealRecord A wk mk aad nonce
    | _, _ => none

def unwrapMasterKey (factorKey : Bytes) (wrapped : SealedRecord) (kind id : CodeUnits) : Option Bytes :=
  match wrappingKey hkdf factorKey kind id, wrapAad kind id with
  | some wk, some aad =>
    match openRecord A wk wrapped aad with
    | some mk => if mk.length ≠ masterKeyBytes then none else some mk
    | none => none
  | _, _ => none

end

theorem field_some {value field' : CodeUnits} (h : field value = some field') :
    field' = value ∧ value ≠ [] ∧ bar ∉ value := by
  unfold field at h
  split at h
  · cases h
  · rename_i hnot
    cases h
    exact ⟨rfl, fun he => hnot (Or.inl he), fun hmem => hnot (Or.inr hmem)⟩

variable {u : UInt16}

theorem codePoints_cons (hhigh : isHigh u = false) (rest : CodeUnits) :
    codePoints (u :: rest) = scalar u :: codePoints rest := by
  cases rest with
  | nil => rfl
  | cons v rest => simp [codePoints, hhigh]

theorem codePoints_append (hhigh : isHigh u = false) (hlow : isLow u = false)
    (a b : CodeUnits) : codePoints (a ++ u :: b) = codePoints a ++ scalar u :: codePoints b := by
  induction a using codePoints.induct with
  | case1 => exact codePoints_cons hhigh b
  | case2 x =>
    change codePoints (x :: u :: b) = _
    simp [codePoints, hlow, codePoints_cons hhigh]
  | case3 x y rest hpair ih =>
    simp only [cons_append, codePoints, hpair, if_true, ih]
  | case4 x y rest hpair ih =>
    simp only [cons_append, codePoints, hpair, if_false, Bool.false_eq_true] at ih ⊢
    rw [ih]

theorem toNat_char {n : Nat} (h : n.isValidChar) : (Char.ofNat n).toNat = n := by
  rw [Char.ofNat, dif_pos h]
  rfl

theorem toNat_pair {v : UInt16} (h : (isHigh u && isLow v) = true) :
    (Char.ofNat (0x10000 + (u.toNat - 0xD800) * 0x400 + (v.toNat - 0xDC00))).toNat =
      0x10000 + (u.toNat - 0xD800) * 0x400 + (v.toNat - 0xDC00) := by
  simp only [isHigh, isLow, Bool.and_eq_true, decide_eq_true_eq] at h
  apply toNat_char
  right
  omega

theorem scalar_bar : '|' = scalar u ↔ bar = u := by
  constructor
  · intro h
    unfold scalar at h
    split at h
    · cases h
    · rename_i hnot
      have hvalid : u.toNat.isValidChar := by
        simp only [isHigh, isLow, Bool.or_eq_true, Bool.and_eq_true, decide_eq_true_eq] at hnot
        have hlt := u.toNat_lt
        unfold Nat.isValidChar
        omega
      have hnat := congrArg Char.toNat h
      rw [toNat_char hvalid] at hnat
      exact UInt16.toNat_inj.1 hnat
  · rintro rfl
    decide

/-- The separator is read where it was written. -/
theorem mem_codePoints {a : CodeUnits} : '|' ∈ codePoints a ↔ bar ∈ a := by
  induction a using codePoints.induct with
  | case1 => simp [codePoints]
  | case2 u => simp [codePoints, scalar_bar]
  | case3 u v rest hpair ih =>
    have hbar : isHigh bar = false ∧ isLow bar = false := by decide
    have hu : ¬ bar = u := by
      rintro rfl
      simp [hbar.1] at hpair
    have hv : ¬ bar = v := by
      rintro rfl
      simp [hbar.2] at hpair
    have hchar : ¬ '|' = Char.ofNat (0x10000 + (u.toNat - 0xD800) * 0x400 + (v.toNat - 0xDC00)) := by
      intro h
      have hnat := congrArg Char.toNat h
      rw [toNat_pair hpair] at hnat
      have hcode : '|'.toNat = 124 := rfl
      omega
    simp only [codePoints, hpair, if_true, mem_cons, ih, hu, hv, hchar, false_or]
  | case4 u v rest hpair ih =>
    simp only [codePoints, hpair, if_false, Bool.false_eq_true]
    rw [mem_cons, mem_cons, ih, scalar_bar]

theorem codePoints_charUnits (c : Char) (rest : CodeUnits) : codePoints (charUnits c ++ rest) = c :: codePoints rest := by
  have hvalid : c.toNat.isValidChar := c.valid
  unfold charUnits
  split
  · rename_i hbasic
    have hnat : (UInt16.ofNat c.toNat).toNat = c.toNat := by simp [UInt16.toNat_ofNat', Nat.mod_eq_of_lt hbasic]
    have hhigh : isHigh (UInt16.ofNat c.toNat) = false := by
      unfold isHigh
      rw [hnat]
      unfold Nat.isValidChar at hvalid
      simp
      omega
    have hlow : isLow (UInt16.ofNat c.toNat) = false := by
      unfold isLow
      rw [hnat]
      unfold Nat.isValidChar at hvalid
      simp
      omega
    rw [singleton_append, codePoints_cons hhigh, scalar, hhigh, hlow, hnat]
    simp
  · rename_i hbeyond
    have hmax : c.toNat < 0x110000 := by
      unfold Nat.isValidChar at hvalid
      omega
    have hfirst : (UInt16.ofNat (0xD800 + (c.toNat - 0x10000) / 0x400)).toNat = 0xD800 + (c.toNat - 0x10000) / 0x400 := by
      rw [UInt16.toNat_ofNat']
      omega
    have hsecond : (UInt16.ofNat (0xDC00 + (c.toNat - 0x10000) % 0x400)).toNat = 0xDC00 + (c.toNat - 0x10000) % 0x400 := by
      rw [UInt16.toNat_ofNat']
      omega
    have hpair : (isHigh (UInt16.ofNat (0xD800 + (c.toNat - 0x10000) / 0x400)) &&
        isLow (UInt16.ofNat (0xDC00 + (c.toNat - 0x10000) % 0x400))) = true := by
      unfold isHigh isLow
      rw [hfirst, hsecond]
      simp
      omega
    have hnat : 0x10000 + (0xD800 + (c.toNat - 0x10000) / 0x400 - 0xD800) * 0x400 +
        (0xDC00 + (c.toNat - 0x10000) % 0x400 - 0xDC00) = c.toNat := by omega
    simp only [cons_append, nil_append, codePoints, hpair, if_true, hfirst, hsecond, hnat, Char.ofNat_toNat]

/-- The encoder keeps a text. -/
theorem codePoints_units (text : String) : codePoints (units text) = text.toList := by
  unfold units
  induction text.toList with
  | nil => rfl
  | cons c l ih => rw [flatMap_cons, codePoints_charUnits, ih]

end Mtmux.Crypto
