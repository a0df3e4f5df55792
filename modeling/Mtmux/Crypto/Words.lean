import Mtmux.Crypto.CPace

/-! The two encodings of the wire in the 32-bit arithmetic they are computed in: lengths
seven bits at a time, and base64url with an accumulator that is never reset. -/
namespace Mtmux.Crypto
open List Option

/-- `n & 0x7f`, then `n >>>= 7`, until nothing is left. -/
def leb128Loop (n : UInt32) : Bytes :=
  if h : (0 : UInt32) < n >>> 7 then ((n &&& 0x7f) ||| 0x80).toUInt8 :: leb128Loop (n >>> 7) else [(n &&& 0x7f).toUInt8]
termination_by n.toNat
decreasing_by
  have hlt : 0 < (n >>> 7).toNat := by simpa [UInt32.lt_iff_toNat_lt] using h
  rw [UInt32.toNat_shiftRight] at hlt ⊢
  simp only [UInt32.reduceToNat, Nat.reduceMod, Nat.shiftRight_eq_div_pow, Nat.reducePow] at hlt ⊢
  omega

def leb128Words (value : Nat) : Bytes := leb128Loop (UInt32.ofNat value)

def prependLenWords (value : Bytes) : Bytes := leb128Words value.length ++ value

def lvCatWords (values : List Bytes) : Bytes := (values.map prependLenWords).flatten

theorem toNat_shift (n : UInt32) : (n >>> 7).toNat = n.toNat / 128 := by
  rw [UInt32.toNat_shiftRight]
  exact Nat.shiftRight_eq_div_pow _ 7

theorem toNat_low (n : UInt32) : (n &&& 0x7f).toNat = n.toNat % 128 := by
  rw [UInt32.toNat_and]
  exact Nat.and_two_pow_sub_one_eq_mod _ 7

theorem toNat_more (n : UInt32) : ((n &&& 0x7f) ||| 0x80).toNat = n.toNat % 128 + 128 := by
  have hlow : n.toNat % 128 < 2 ^ 7 := Nat.mod_lt _ (by decide)
  have hsum := Nat.two_pow_add_eq_or_of_lt hlow 1
  rw [UInt32.toNat_or, toNat_low, Nat.or_comm]
  show 2 ^ 7 * 1 ||| n.toNat % 128 = _
  rw [← hsum]
  omega

theorem leb128Loop_eq (n : UInt32) : leb128Loop n = leb128 n.toNat := by
  induction n using leb128Loop.induct with
  | case1 n h ih =>
    have hpos : 0 < (n >>> 7).toNat := by simpa [UInt32.lt_iff_toNat_lt] using h
    rw [toNat_shift] at hpos
    rw [leb128Loop, dif_pos h, ih, toNat_shift, leb128_large (n := n.toNat) (by omega)]
    congr 1
    apply UInt8.toNat_inj.1
    rw [UInt32.toNat_toUInt8, toNat_more, UInt8.toNat_ofNat']
  | case2 n h =>
    have hzero : ¬ 0 < (n >>> 7).toNat := by simpa [UInt32.lt_iff_toNat_lt] using h
    rw [toNat_shift] at hzero
    rw [leb128Loop, dif_neg h, leb128_small (by omega)]
    congr 1
    apply UInt8.toNat_inj.1
    rw [UInt32.toNat_toUInt8, toNat_low, UInt8.toNat_ofNat']
    omega

/-- The lengths that fit into a word. -/
def Short (value : Bytes) : Prop := value.length < 2 ^ 32

theorem leb128Words_eq {n : Nat} (h : n < 2 ^ 32) : leb128Words n = leb128 n := by
  rw [leb128Words, leb128Loop_eq, UInt32.toNat_ofNat_of_lt' h]

theorem lvCatWords_eq {values : List Bytes} (h : ∀ value ∈ values, Short value) : lvCatWords values = lvCat values := by
  unfold lvCatWords lvCat
  congr 1
  refine map_congr_left fun value hvalue => ?_
  rw [prependLenWords, leb128Words_eq (h value hvalue)]
  rfl

theorem leb128_ne_nil (n : Nat) : leb128 n ≠ [] := by
  rw [leb128]
  split <;> simp

theorem leb128_begins {m n : Nat} (h : leb128 m <+: leb128 n) : m = n := by
  obtain ⟨rest, hrest⟩ := h
  rw [← append_nil (leb128 n)] at hrest
  exact (leb128_append hrest).1

theorem prependLen_ne_nil (value : Bytes) : prependLen value ≠ [] := by
  simp [prependLen, leb128_ne_nil]

/-- No list of fields is another one's beginning: each field says where it ends. -/
theorem lvCat_injective {xs ys : List Bytes} (h : lvCat xs = lvCat ys) : xs = ys := by
  induction xs generalizing ys with
  | nil =>
    cases ys with
    | nil => rfl
    | cons y ys => exact absurd h.symm (by simp [lvCat, prependLen_ne_nil])
  | cons x xs ih =>
    cases ys with
    | nil => exact absurd h (by simp [lvCat, prependLen_ne_nil])
    | cons y ys =>
      have hfields : prependLen x ++ lvCat xs = prependLen y ++ lvCat ys := by simpa [lvCat] using h
      obtain ⟨rfl, hrest⟩ := prependLen_append hfields
      rw [ih hrest]

theorem sasTranscript_inj {id id' : String} {c c' b b' k k' : Bytes}
    (h : sasTranscript id c b k = sasTranscript id' c' b' k') : id = id' ∧ c = c' ∧ b = b' ∧ k = k' := by
  have hlists := lvCat_injective h
  simp only [List.cons.injEq, and_true] at hlists
  exact ⟨utf8ToBytes_inj hlists.1, hlists.2⟩

theorem transcriptIr_inj {ya ada yb adb ya' ada' yb' adb' : Bytes}
    (h : transcriptIr ya ada yb adb = transcriptIr ya' ada' yb' adb') :
    ya = ya' ∧ ada = ada' ∧ yb = yb' ∧ adb = adb' := by
  obtain ⟨hfirst, hrest⟩ := lvCat_append (by rfl) h
  have hsecond := lvCat_injective hrest
  simp only [List.cons.injEq, and_true] at hfirst hsecond
  exact ⟨hfirst.1, hfirst.2, hsecond.1, hsecond.2⟩

/-- Fields that were put together are told apart again, and so are the transcripts. -/
theorem fields_unambiguous :
    (∀ xs ys : List Bytes, (∀ x ∈ xs, Short x) → (∀ y ∈ ys, Short y) → lvCatWords xs = lvCatWords ys → xs = ys) ∧
    (∀ m n, m < 2 ^ 32 → n < 2 ^ 32 → m ≠ n →
      leb128Words m ≠ leb128Words n ∧ ¬ leb128Words m <+: leb128Words n) ∧
    (∀ values : List Bytes, (∀ value ∈ values, Short value) → lvCatWords values = lvCat values) ∧
    (∀ id c b k id' c' b' k', sasTranscript id c b k = sasTranscript id' c' b' k' →
      id = id' ∧ c = c' ∧ b = b' ∧ k = k') ∧
    (∀ ya ada yb adb ya' ada' yb' adb', transcriptIr ya ada yb adb = transcriptIr ya' ada' yb' adb' →
      ya = ya' ∧ ada = ada' ∧ yb = yb' ∧ adb = adb') ∧
    ∀ prs ci sid prs' ci' sid', generatorString prs ci sid = generatorString prs' ci' sid' →
      prs = prs' ∧ ci = ci' ∧ sid = sid' := by
  refine ⟨?_, ?_, fun _ => lvCatWords_eq, fun _ _ _ _ _ _ _ _ => sasTranscript_inj,
    fun _ _ _ _ _ _ _ _ => transcriptIr_inj, fun _ _ _ _ _ _ => generatorString_inj⟩
  · intro xs ys hxs hys h
    rw [lvCatWords_eq hxs, lvCatWords_eq hys] at h
    exact lvCat_injective h
  · intro m n hm hn hne
    rw [leb128Words_eq hm, leb128Words_eq hn]
    exact ⟨fun h => hne (leb128_begins ⟨[], by rw [append_nil, h]⟩), fun h => hne (leb128_begins h)⟩

/-- `acc` is a signed word, shifted on for as long as there are characters. -/
def b64UrlWords : (chars : List Char) → (acc : BitVec 32) → (bits : Nat) → Option Bytes
  | [], _, _ => some []
  | char :: chars, acc, bits =>
    match b64UrlAlphabet.idxOf? char with
    | none => none
    | some index =>
      if 8 ≤ bits + 6 then
        (b64UrlWords chars (acc <<< 6 ||| BitVec.ofNat 32 index) (bits + 6 - 8)).map
          (UInt8.ofNat (BitVec.sshiftRight (acc <<< 6 ||| BitVec.ofNat 32 index) (bits + 6 - 8) &&& 0xff).toNat :: ·)
      else b64UrlWords chars (acc <<< 6 ||| BitVec.ofNat 32 index) (bits + 6)

/-- `text.replace(/=+$/, "")`. -/
def clean (text : String) : List Char := text.toList.rdropWhile (· = '=')

def base64UrlWords (text : String) : Option Bytes := b64UrlWords (clean text) 0 0

theorem idxOf_some {char : Char} {index : Nat} (h : b64UrlAlphabet.idxOf? char = some index) :
    index < 64 ∧ b64UrlChar index = char := by
  have hlen : b64UrlAlphabet.length = 64 := by decide
  obtain ⟨hlt, hget, -⟩ := List.idxOf?_eq_some_iff.1 h
  rw [hlen] at hlt
  refine ⟨hlt, ?_⟩
  rw [b64UrlChar, getD_eq_getElem?_getD, getElem?_eq_getElem, getD_some]
  exact hget

theorem word_shift {acc index : Nat} (h : index < 64) :
    BitVec.ofNat 32 acc <<< 6 ||| BitVec.ofNat 32 index = BitVec.ofNat 32 (acc * 64 + index) := by
  have hor := Nat.two_pow_add_eq_or_of_lt (i := 6) h acc
  have hshift : BitVec.ofNat 32 acc <<< 6 = BitVec.ofNat 32 (2 ^ 6 * acc) := by
    apply BitVec.eq_of_toNat_eq
    rw [BitVec.toNat_shiftLeft, BitVec.toNat_ofNat, BitVec.toNat_ofNat, Nat.shiftLeft_eq]
    omega
  rw [hshift, ← BitVec.ofNat_or, ← hor, Nat.mul_comm]

variable {acc bits : Nat}

/-- Of the accumulator only the low thirteen bits are ever read. -/
theorem word_byte (h : bits < 8) :
    (BitVec.sshiftRight (BitVec.ofNat 32 acc) bits &&& 0xff).toNat = acc / 2 ^ bits % 256 := by
  apply Nat.eq_of_testBit_eq
  intro i
  have hmask : (0xff : BitVec 32).getLsbD i = decide (i < 8) := by
    rw [← BitVec.testBit_toNat]
    exact Nat.testBit_two_pow_sub_one 8 i
  rw [BitVec.testBit_toNat, BitVec.getLsbD_and, hmask, BitVec.getLsbD_sshiftRight, show 256 = 2 ^ 8 from rfl,
    Nat.testBit_mod_two_pow, Nat.testBit_div_two_pow, Bool.and_comm]
  by_cases hi : i < 8
  · have hlow : ¬ 32 ≤ i := by omega
    have hin : bits + i < 32 := by omega
    rw [if_pos hin, BitVec.getLsbD_ofNat]
    simp [hi, hlow, hin, Nat.add_comm]
  · simp [hi]

variable {chars : List Char}

theorem b64UrlWords_eq (h : bits < 8) :
    b64UrlWords chars (BitVec.ofNat 32 acc) bits = b64UrlLoop chars acc bits := by
  induction chars generalizing acc bits with
  | nil => rfl
  | cons char chars ih =>
    unfold b64UrlWords b64UrlLoop
    cases hindex : b64UrlAlphabet.idxOf? char with
    | none => rfl
    | some index =>
      simp only [word_shift (idxOf_some hindex).1]
      split
      · rw [ih (by omega), word_byte (by omega)]
      · exact ih (by omega)

theorem base64UrlWords_eq (text : String) : base64UrlWords text = base64UrlToBytes text := b64UrlWords_eq (by decide)

/-- A byte for every eight bits: what was set aside for them is never too little. -/
theorem length_b64UrlLoop {bytes : Bytes} (hbits : bits < 8)
    (h : b64UrlLoop chars acc bits = some bytes) : bytes.length = (bits + 6 * chars.length) / 8 := by
  induction chars generalizing acc bits bytes with
  | nil =>
    cases h
    simp
    omega
  | cons char chars ih =>
    unfold b64UrlLoop at h
    cases hindex : b64UrlAlphabet.idxOf? char with
    | none =>
      rw [hindex] at h
      cases h
    | some index =>
      rw [hindex] at h
      dsimp only at h
      rw [length_cons]
      split at h
      · obtain ⟨rest, hrest, rfl⟩ := map_eq_some_iff.1 h
        rw [length_cons, ih (by omega) hrest]
        omega
      · rw [ih (by omega) h]
        omega

theorem digits_of_loop {bytes : Bytes} (h : b64UrlLoop chars acc bits = some bytes) :
    ∃ digits : List Nat, (∀ n ∈ digits, n < 64) ∧ chars = digits.map b64UrlChar := by
  induction chars generalizing acc bits bytes with
  | nil => exact ⟨[], by simp, rfl⟩
  | cons char chars ih =>
    unfold b64UrlLoop at h
    cases hindex : b64UrlAlphabet.idxOf? char with
    | none =>
      rw [hindex] at h
      cases h
    | some index =>
      rw [hindex] at h
      obtain ⟨hlt, rfl⟩ := idxOf_some hindex
      have hrest : ∃ acc bits bytes, b64UrlLoop chars acc bits = some bytes := by
        dsimp only at h
        split at h
        · obtain ⟨rest, hrest, -⟩ := map_eq_some_iff.1 h
          exact ⟨_, _, _, hrest⟩
        · exact ⟨_, _, _, h⟩
      obtain ⟨acc, bits, bytes, hrest⟩ := hrest
      obtain ⟨digits, hdigits, rfl⟩ := ih hrest
      exact ⟨index :: digits, forall_mem_cons.2 ⟨hlt, hdigits⟩, rfl⟩

/-- The bits of the last character that no byte took. -/
def SpareZero (chars : List Char) : Prop :=
  ∀ last ∈ chars.getLast?, ∀ index ∈ b64UrlAlphabet.idxOf? last, index % 2 ^ (6 * chars.length % 8) = 0

theorem digits_of_bytes : ∀ {digits : List Nat} {acc : Nat} {bytes : Bytes}, (∀ n ∈ digits, n < 64) →
    b64UrlLoop (digits.map b64UrlChar) acc 0 = some bytes → digits.length % 4 ≠ 1 →
    (∀ last ∈ digits.getLast?, last % 2 ^ (6 * digits.length % 8) = 0) → b64UrlDigits bytes = digits
  | [], _, _, _, h, _, _ => by
    cases h
    rfl
  | [_], _, _, _, _, hlen, _ => absurd rfl hlen
  | [d0, d1], acc, bytes, hdigits, h, _, hspare => by
    simp only [forall_mem_cons] at hdigits
    obtain ⟨h0, h1, -⟩ := hdigits
    have hzero := hspare d1 rfl
    simp only [length_cons, length_nil, Nat.reduceAdd, Nat.reduceMul, Nat.reduceMod, Nat.reducePow] at hzero
    simp only [map_cons, map_nil, b64UrlLoop, idxOf_b64UrlChar h0, idxOf_b64UrlChar h1] at h
    simp only [Nat.reduceAdd, Nat.reduceLeDiff, Nat.reduceSub, Nat.reducePow, if_true, if_false, map_some,
      Option.some.injEq] at h
    subst h
    simp only [b64UrlDigits, UInt8.toNat_ofNat', List.cons.injEq, and_true]
    omega
  | [d0, d1, d2], acc, bytes, hdigits, h, _, hspare => by
    simp only [forall_mem_cons] at hdigits
    obtain ⟨h0, h1, h2, -⟩ := hdigits
    have hzero := hspare d2 rfl
    simp only [length_cons, length_nil, Nat.reduceAdd, Nat.reduceMul, Nat.reduceMod, Nat.reducePow] at hzero
    simp only [map_cons, map_nil, b64UrlLoop, idxOf_b64UrlChar h0, idxOf_b64UrlChar h1, idxOf_b64UrlChar h2] at h
    simp only [Nat.reduceAdd, Nat.reduceLeDiff, Nat.reduceSub, Nat.reducePow, if_true, if_false, map_some,
      Option.some.injEq] at h
    subst h
    simp only [b64UrlDigits, UInt8.toNat_ofNat', List.cons.injEq, and_true]
    omega
  | d0 :: d1 :: d2 :: d3 :: rest, acc, bytes, hdigits, h, hlen, hspare => by
    simp only [forall_mem_cons] at hdigits
    obtain ⟨h0, h1, h2, h3, hrest⟩ := hdigits
    simp only [map_cons, b64UrlLoop, idxOf_b64UrlChar h0, idxOf_b64UrlChar h1, idxOf_b64UrlChar h2,
      idxOf_b64UrlChar h3] at h
    simp only [Nat.reduceAdd, Nat.reduceLeDiff, Nat.reduceSub, Nat.reducePow, if_true, if_false,
      Option.map_map] at h
    obtain ⟨tail, htail, rfl⟩ := map_eq_some_iff.1 h
    have hspareRest : ∀ last ∈ rest.getLast?, last % 2 ^ (6 * rest.length % 8) = 0 := by
      intro last hlast
      have hin : last ∈ (d0 :: d1 :: d2 :: d3 :: rest).getLast? := by
        cases rest with
        | nil => cases hlast
        | cons d rest => simpa [getLast?_cons_cons] using hlast
      have hzero := hspare last hin
      rwa [show 6 * (d0 :: d1 :: d2 :: d3 :: rest).length % 8 = 6 * rest.length % 8 by
        simp only [length_cons]; omega] at hzero
    have hback := digits_of_bytes hrest htail (by simp only [length_cons] at hlen; omega) hspareRest
    simp only [Function.comp, b64UrlDigits, hback, UInt8.toNat_ofNat', cons_append, nil_append, List.cons.injEq,
      and_true]
    omega

/-- What is sent is read back, and what was read is what would be sent for it. -/
theorem base64Url_roundTrip :
    (∀ bytes, base64UrlWords (bytesToBase64Url bytes) = some bytes) ∧
    ∀ text bytes, base64UrlWords text = some bytes →
      bytes.length = (clean text).length * 3 / 4 ∧
      ((clean text).length % 4 ≠ 1 → SpareZero (clean text) → bytesToBase64Url bytes = String.ofList (clean text)) := by
  refine ⟨fun bytes => ?_, fun text bytes h => ?_⟩
  · rw [base64UrlWords_eq]
    exact base64UrlToBytes_bytesToBase64Url bytes
  · have hloop : b64UrlLoop (clean text) 0 0 = some bytes := by
      rw [base64UrlWords_eq] at h
      exact h
    have hfits := length_b64UrlLoop (by decide) hloop
    obtain ⟨digits, hdigits, hclean⟩ := digits_of_loop hloop
    refine ⟨by omega, fun hlen hspare => ?_⟩
    rw [hclean] at hloop hlen hspare
    rw [length_map] at hlen
    have hlast : ∀ last ∈ digits.getLast?, last % 2 ^ (6 * digits.length % 8) = 0 := by
      intro last hin
      have hback := hspare (b64UrlChar last) (by rw [getLast?_map, hin]; rfl) last
        (idxOf_b64UrlChar (hdigits last (mem_of_getLast? hin)))
      rwa [length_map] at hback
    rw [bytesToBase64Url, digits_of_bytes hdigits hloop hlen hlast, hclean]

end Mtmux.Crypto
