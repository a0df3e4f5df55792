import Mathlib.Algebra.Ring.Nat
import Mathlib.Data.List.DropRight

/-! Byte strings as the pairing code builds them: length-prefixed concatenation, which
no two tuples share, and the hex and base64url of the wire. -/
namespace Mtmux.Crypto
open List

abbrev Bytes : Type := List UInt8

def utf8ToBytes (s : String) : Bytes := s.toUTF8.toList

/-- Seven bits a byte, least significant first, high bit set while more follow. -/
def leb128 (n : Nat) : Bytes :=
  if n < 128 then [UInt8.ofNat n] else UInt8.ofNat (n % 128 + 128) :: leb128 (n / 128)

def prependLen (value : Bytes) : Bytes := leb128 value.length ++ value

def lvCat (values : List Bytes) : Bytes := (values.map prependLen).flatten

theorem toList_loop (bs : ByteArray) (i : Nat) (r : List UInt8) :
    ByteArray.toList.loop bs i r = r.reverse ++ bs.data.toList.drop i := by
  fun_induction ByteArray.toList.loop bs i r with
  | case1 i r h ih =>
    have hlt : i < bs.data.toList.length := h
    have hget : bs.get! i = bs.data.toList[i] := by
      obtain ⟨data⟩ := bs
      have hi : i < data.size := h
      show data[i]! = _
      rw [getElem!_pos data i hi]
      rfl
    rw [ih, reverse_cons, append_assoc, drop_eq_getElem_cons hlt, hget]
    rfl
  | case2 i r h =>
    have hle : bs.data.toList.length ≤ i := Nat.le_of_not_lt h
    rw [drop_eq_nil_of_le hle, append_nil]

theorem utf8ToBytes_inj {s t : String} (h : utf8ToBytes s = utf8ToBytes t) : s = t := by
  simp only [utf8ToBytes, ByteArray.toList, toList_loop, reverse_nil, nil_append,
    drop_zero] at h
  apply String.toByteArray_inj.1
  apply ByteArray.ext
  exact Array.ext' h

/-- The two differ in nothing but the time they take. -/
def constantTimeEqual (a b : Bytes) : Bool := a = b

variable {n : Nat}

theorem leb128_small (h : n < 128) : leb128 n = [UInt8.ofNat n] := by
  rw [leb128, if_pos h]

theorem leb128_large (h : ¬ n < 128) : leb128 n = UInt8.ofNat (n % 128 + 128) :: leb128 (n / 128) := by
  rw [leb128, if_neg h]

theorem ofNat_inj {a b : Nat} (ha : a < 256) (hb : b < 256) (h : UInt8.ofNat a = UInt8.ofNat b) : a = b := by
  have hn := congrArg UInt8.toNat h
  rw [UInt8.toNat_ofNat', UInt8.toNat_ofNat'] at hn
  omega

theorem leb128_append {m : Nat} {a b : Bytes} (h : leb128 n ++ a = leb128 m ++ b) : n = m ∧ a = b := by
  induction n using Nat.strongRecOn generalizing m with
  | ind n ih =>
    by_cases hn : n < 128
    · by_cases hm : m < 128
      · rw [leb128_small hn, leb128_small hm] at h
        obtain ⟨he, hab⟩ := List.cons.inj h
        exact ⟨ofNat_inj (by omega) (by omega) he, hab⟩
      · rw [leb128_small hn, leb128_large hm] at h
        have he := ofNat_inj (by omega) (by omega) (List.cons.inj h).1
        omega
    · by_cases hm : m < 128
      · rw [leb128_large hn, leb128_small hm] at h
        have he := ofNat_inj (by omega) (by omega) (List.cons.inj h).1
        omega
      · rw [leb128_large hn, leb128_large hm] at h
        obtain ⟨he, hrest⟩ := List.cons.inj h
        have hlow := ofNat_inj (by omega) (by omega) he
        obtain ⟨hhigh, hab⟩ := ih (n / 128) (by omega) hrest
        exact ⟨by omega, hab⟩

theorem prependLen_append {x y a b : Bytes} (h : prependLen x ++ a = prependLen y ++ b) : x = y ∧ a = b := by
  unfold prependLen at h
  rw [append_assoc, append_assoc] at h
  obtain ⟨hlen, hrest⟩ := leb128_append h
  exact append_inj hrest hlen

theorem lvCat_append {xs ys : List Bytes} {a b : Bytes} (hlen : xs.length = ys.length)
    (h : lvCat xs ++ a = lvCat ys ++ b) : xs = ys ∧ a = b := by
  induction xs generalizing ys with
  | nil =>
    cases ys with
    | nil => exact ⟨rfl, h⟩
    | cons y ys => cases hlen
  | cons x xs ih =>
    cases ys with
    | nil => cases hlen
    | cons y ys =>
      have h' : prependLen x ++ (lvCat xs ++ a) = prependLen y ++ (lvCat ys ++ b) := by
        simpa [lvCat] using h
      obtain ⟨rfl, hrest⟩ := prependLen_append h'
      obtain ⟨rfl, hab⟩ := ih (Nat.succ.inj hlen) hrest
      exact ⟨rfl, hab⟩

theorem lvCat_inj {xs ys : List Bytes} (hlen : xs.length = ys.length) (h : lvCat xs = lvCat ys) : xs = ys := by
  refine (lvCat_append (a := []) (b := []) hlen ?_).1
  rw [h]

def hexDigit (n : Nat) : Char := if n < 10 then Char.ofNat (48 + n) else Char.ofNat (87 + n)

def hexValue (c : Char) : Option Nat :=
  if 48 ≤ c.toNat ∧ c.toNat ≤ 57 then some (c.toNat - 48)
  else if 97 ≤ c.toNat ∧ c.toNat ≤ 102 then some (c.toNat - 87)
  else if 65 ≤ c.toNat ∧ c.toNat ≤ 70 then some (c.toNat - 55)
  else none

def bytesToHex (bytes : Bytes) : String :=
  String.ofList (bytes.flatMap fun b => [hexDigit (b.toNat / 16), hexDigit (b.toNat % 16)])

def hexPairs : List Char → Option Bytes
  | [] => some []
  | hi :: lo :: rest => do
    let high ← hexValue hi
    let low ← hexValue lo
    let bytes ← hexPairs rest
    return UInt8.ofNat (high * 16 + low) :: bytes
  | [_] => none

/-- Throws on an odd length and on anything that is not a digit. -/
def hexToBytes (hex : String) : Option Bytes := hexPairs hex.toList

theorem hexValue_hexDigit (h : n < 16) : hexValue (hexDigit n) = some n := by
  have hall : ∀ n < 16, hexValue (hexDigit n) = some n := by decide
  exact hall n h

theorem hexToBytes_bytesToHex (bytes : Bytes) : hexToBytes (bytesToHex bytes) = some bytes := by
  unfold hexToBytes bytesToHex
  rw [String.toList_ofList]
  induction bytes with
  | nil => rfl
  | cons b bytes ih =>
    have hlt : b.toNat < 256 := b.toNat_lt
    rw [flatMap_cons, cons_append, cons_append, nil_append, hexPairs,
      hexValue_hexDigit (by omega), hexValue_hexDigit (by omega), ih]
    have hb : UInt8.ofNat (b.toNat / 16 * 16 + b.toNat % 16) = b := by
      rw [Nat.div_add_mod']
      exact UInt8.ofNat_toNat
    exact congrArg (fun b => some (b :: bytes)) hb

/- base64url without padding. -/

def b64UrlAlphabet : List Char :=
  "ABCDEFGHIJKLMNOPQRSTUVWXYZabcdefghijklmnopqrstuvwxyz0123456789-_".toList

def b64UrlChar (n : Nat) : Char := b64UrlAlphabet.getD n 'A'

/-- Three bytes give four digits, a last one two and a last two three. -/
def b64UrlDigits : Bytes → List Nat
  | b0 :: b1 :: b2 :: rest =>
    [b0.toNat / 4, b0.toNat % 4 * 16 + b1.toNat / 16, b1.toNat % 16 * 4 + b2.toNat / 64,
      b2.toNat % 64] ++ b64UrlDigits rest
  | [b0, b1] => [b0.toNat / 4, b0.toNat % 4 * 16 + b1.toNat / 16, b1.toNat % 16 * 4]
  | [b0] => [b0.toNat / 4, b0.toNat % 4 * 16]
  | [] => []

def bytesToBase64Url (bytes : Bytes) : String :=
  String.ofList ((b64UrlDigits bytes).map b64UrlChar)

/-- Six bits a character into `acc`, a byte out whenever eight are there. -/
def b64UrlLoop : (chars : List Char) → (acc bits : Nat) → Option Bytes
  | [], _, _ => some []
  | char :: chars, acc, bits =>
    match b64UrlAlphabet.idxOf? char with
    | none => none
    | some index =>
      if 8 ≤ bits + 6 then
        (b64UrlLoop chars (acc * 64 + index) (bits + 6 - 8)).map
          (UInt8.ofNat ((acc * 64 + index) / 2 ^ (bits + 6 - 8) % 256) :: ·)
      else b64UrlLoop chars (acc * 64 + index) (bits + 6)

/-- Throws on a character outside the alphabet; trailing padding is ignored. -/
def base64UrlToBytes (text : String) : Option Bytes :=
  b64UrlLoop (text.toList.rdropWhile (· = '=')) 0 0

theorem idxOf_b64UrlChar (h : n < 64) : b64UrlAlphabet.idxOf? (b64UrlChar n) = some n := by
  have hall : ∀ n < 64, b64UrlAlphabet.idxOf? (b64UrlChar n) = some n := by decide +kernel
  exact hall n h

theorem b64UrlChar_ne_pad (h : n < 64) : b64UrlChar n ≠ '=' := by
  have hall : ∀ n < 64, b64UrlChar n ≠ '=' := by decide +kernel
  exact hall n h

theorem b64UrlDigits_lt (bytes : Bytes) : ∀ n ∈ b64UrlDigits bytes, n < 64 := by
  induction bytes using b64UrlDigits.induct with
  | case1 b0 b1 b2 rest ih =>
    have h0 := b0.toNat_lt
    have h1 := b1.toNat_lt
    have h2 := b2.toNat_lt
    simp only [b64UrlDigits, cons_append, nil_append, forall_mem_cons]
    exact ⟨by omega, by omega, by omega, by omega, ih⟩
  | case2 b0 b1 =>
    have h0 := b0.toNat_lt
    have h1 := b1.toNat_lt
    simp only [b64UrlDigits, forall_mem_cons]
    exact ⟨by omega, by omega, by omega, by simp⟩
  | case3 b0 =>
    have h0 := b0.toNat_lt
    simp only [b64UrlDigits, forall_mem_cons]
    exact ⟨by omega, by omega, by simp⟩
  | case4 => simp [b64UrlDigits]

theorem ofNat_eq {b : UInt8} (h : n = b.toNat) : UInt8.ofNat n = b := by
  rw [h]
  exact UInt8.ofNat_toNat

/-- Between groups of four nothing is left over, so what `acc` holds does not matter. -/
theorem b64UrlLoop_digits (bytes : Bytes) (acc : Nat) :
    b64UrlLoop ((b64UrlDigits bytes).map b64UrlChar) acc 0 = some bytes := by
  induction bytes using b64UrlDigits.induct generalizing acc with
  | case1 b0 b1 b2 rest ih =>
    have h0 := b0.toNat_lt
    have h1 := b1.toNat_lt
    have h2 := b2.toNat_lt
    simp only [b64UrlDigits, cons_append, nil_append, map_cons, b64UrlLoop]
    rw [idxOf_b64UrlChar (by omega), idxOf_b64UrlChar (by omega), idxOf_b64UrlChar (by omega),
      idxOf_b64UrlChar (by omega)]
    simp only [Nat.reduceAdd, Nat.reduceLeDiff, Nat.reduceSub, Nat.reducePow, if_true, if_false, ih,
      Option.map_some, Option.some.injEq, List.cons.injEq, and_true]
    exact ⟨ofNat_eq (by omega), ofNat_eq (by omega), ofNat_eq (by omega)⟩
  | case2 b0 b1 =>
    have h0 := b0.toNat_lt
    have h1 := b1.toNat_lt
    simp only [b64UrlDigits, map_cons, map_nil, b64UrlLoop]
    rw [idxOf_b64UrlChar (by omega), idxOf_b64UrlChar (by omega), idxOf_b64UrlChar (by omega)]
    simp only [Nat.reduceAdd, Nat.reduceLeDiff, Nat.reduceSub, Nat.reducePow, if_true, if_false,
      Option.map_some, Option.some.injEq, List.cons.injEq, and_true]
    exact ⟨ofNat_eq (by omega), ofNat_eq (by omega)⟩
  | case3 b0 =>
    have h0 := b0.toNat_lt
    simp only [b64UrlDigits, map_cons, map_nil, b64UrlLoop]
    rw [idxOf_b64UrlChar (by omega), idxOf_b64UrlChar (by omega)]
    simp only [Nat.reduceAdd, Nat.reduceLeDiff, Nat.reduceSub, Nat.reducePow, if_true, if_false,
      Option.map_some, Option.some.injEq, List.cons.injEq, and_true]
    exact ofNat_eq (by omega)
  | case4 => rfl

theorem base64UrlToBytes_bytesToBase64Url (bytes : Bytes) : base64UrlToBytes (bytesToBase64Url bytes) = some bytes := by
  unfold base64UrlToBytes bytesToBase64Url
  rw [String.toList_ofList]
  have hpad : ((b64UrlDigits bytes).map b64UrlChar).rdropWhile (· = '=') =
      (b64UrlDigits bytes).map b64UrlChar := by
    rw [rdropWhile_eq_self_iff]
    intro hne hlast
    obtain ⟨n, hn, he⟩ := mem_map.1 (getLast_mem hne)
    rw [← he] at hlast
    exact b64UrlChar_ne_pad (b64UrlDigits_lt bytes n hn) (by simpa using hlast)
  rw [hpad]
  exact b64UrlLoop_digits bytes 0

end Mtmux.Crypto
