import Mathlib.Analysis.SpecialFunctions.Log.Base
import Mathlib.Data.Set.Finite.List
import Mtmux.Crypto.Frames
import Mtmux.Crypto.PairingCode

/-! The numbers that codes are made of, drawn by rejection from random bytes. Each draw of
the source is one byte string of a list. -/
namespace Mtmux.Crypto
open List

/-- `Math.ceil(Math.log2(bound) / 8)`, with the logarithm taken exactly. -/
def width (bound : Nat) : Nat := (Nat.clog 2 bound + 7) / 8

def span (bound : Nat) : Nat := 2 ^ (width bound * 8)

def limit (bound : Nat) : Nat := span bound / bound * bound

/-- What one draw gives, if it is not rejected. -/
def accept (bound : Nat) (bytes : Bytes) : Option Nat :=
  if bigEndian bytes < limit bound then some (bigEndian bytes % bound) else none

/-- The first draw that is accepted; `none` while there was none. -/
def uniformBelow (bound : Nat) (draws : List Bytes) : Except String (Option Nat) :=
  if bound = 0 ∨ 2 ^ 32 < bound then .error "uniformBelow supports integer bounds in (0, 2^32]"
  else .ok (draws.findSome? (accept bound))

/-- `String(value).padStart(digits, "0")`. -/
def pad (value digits : Nat) : String :=
  String.ofList (replicate (digits - (Nat.toDigits 10 value).length) '0' ++ Nat.toDigits 10 value)

def slotDigits : Nat := 3
def secretDigits : Nat := 6

def generateCode (digits : Nat) (draws : List Bytes) : Except String (Option String) :=
  (uniformBelow (10 ^ digits) draws).map (·.map (pad · digits))

def generateSecret : (draws : List Bytes) → Except String (Option String) := generateCode secretDigits
def generateSlot : (draws : List Bytes) → Except String (Option String) := generateCode slotDigits
def generateQrSlot : (draws : List Bytes) → Except String (Option String) := generateCode qrSlotDigits

variable {bound value : Nat}

theorem width_eq_ceil (bound : Nat) : width bound = ⌈Real.logb 2 bound / 8⌉₊ := by
  have hlog : ⌈Real.logb 2 bound⌉₊ = Nat.clog 2 bound := Real.natCeil_logb_natCast 2 bound
  apply eq_of_forall_ge_iff
  intro w
  have hle : Real.logb 2 bound ≤ (8 * w : ℕ) ↔ Nat.clog 2 bound ≤ 8 * w := by rw [← hlog, Nat.ceil_le]
  rw [Nat.ceil_le, div_le_iff₀ (by norm_num), width, mul_comm]
  push_cast at hle
  rw [hle]
  omega

theorem span_eq (bound : Nat) : span bound = 256 ^ width bound := by
  rw [span, Nat.mul_comm, Nat.pow_mul]

/-- There are enough bytes, also for a power of 256, and for 1, which needs none. -/
theorem bound_le_span (bound : Nat) : bound ≤ 256 ^ width bound := by
  calc bound ≤ 2 ^ Nat.clog 2 bound := Nat.le_pow_clog (by decide) _
    _ ≤ span bound := Nat.pow_le_pow_right (by decide) (by unfold width; omega)
    _ = 256 ^ width bound := span_eq bound

theorem limit_le (bound : Nat) : limit bound ≤ 256 ^ width bound := by
  rw [← span_eq]
  exact Nat.div_mul_le_self _ _

theorem limit_pos (h : 0 < bound) : 0 < limit bound := by
  have hquotient : 0 < span bound / bound := Nat.div_pos (by rw [span_eq]; exact bound_le_span bound) h
  exact Nat.mul_pos hquotient h

variable {bytes : Bytes}

theorem accept_some : accept bound bytes = some value ↔
    bigEndian bytes < limit bound ∧ bigEndian bytes % bound = value := by
  simp [accept]

theorem accept_lt (h : 0 < bound) (ha : accept bound bytes = some value) : value < bound := by
  rw [← (accept_some.1 ha).2]
  exact Nat.mod_lt _ h

theorem block_lt {k : Nat} (hk : k < span bound / bound) (hv : value < bound) : k * bound + value < limit bound := by
  calc k * bound + value < (k + 1) * bound := by rw [Nat.add_mul]; omega
    _ ≤ limit bound := Nat.mul_le_mul_right _ hk

theorem div_lt_blocks {n : Nat} (h : n < limit bound) : n / bound < span bound / bound :=
  Nat.div_lt_of_lt_mul (by rwa [Nat.mul_comm])

/-- The byte string that `block` and `value` stand for. -/
theorem bigEndian_block {k : Nat} (hk : k < span bound / bound) (hv : value < bound) :
    bigEndian (bigEndianBytes (width bound) (k * bound + value)) = k * bound + value :=
  bigEndian_bigEndianBytes ((block_lt hk hv).trans_le (limit_le bound))

theorem block_div {k : Nat} (hv : value < bound) : (k * bound + value) / bound = k := by
  rw [Nat.mul_comm, Nat.mul_add_div (by omega), Nat.div_eq_of_lt hv, Nat.add_zero]

theorem block_mod {k : Nat} (hv : value < bound) : (k * bound + value) % bound = value := by
  rw [Nat.mul_add_mod_self_right, Nat.mod_eq_of_lt hv]

theorem bytes_of_block (hlen : bytes.length = width bound) :
    bigEndianBytes (width bound) (bigEndian bytes / bound * bound + bigEndian bytes % bound) = bytes := by
  rw [Nat.div_add_mod', ← hlen]
  exact bigEndianBytes_bigEndian bytes

/-- The draws that are read as `value`, one in each block of `bound` below the limit. -/
def blocks (hv : value < bound) :
    {bytes : Bytes // bytes.length = width bound ∧ accept bound bytes = some value} ≃ Fin (span bound / bound) where
  toFun bytes := ⟨bigEndian bytes.1 / bound, div_lt_blocks (accept_some.1 bytes.2.2).1⟩
  invFun k := ⟨bigEndianBytes (width bound) (k * bound + value), length_bigEndianBytes _ _, by
    rw [accept_some, bigEndian_block k.2 hv]
    exact ⟨block_lt k.2 hv, block_mod hv⟩⟩
  left_inv bytes := by
    obtain ⟨bytes, hlen, ha⟩ := bytes
    obtain ⟨-, rfl⟩ := accept_some.1 ha
    exact Subtype.ext (bytes_of_block hlen)
  right_inv k := Fin.ext ((congrArg (· / bound) (bigEndian_block k.2 hv)).trans (block_div hv))

theorem card_accept (hv : value < bound) :
    Nat.card {bytes : Bytes // bytes.length = width bound ∧ accept bound bytes = some value} = span bound / bound := by
  rw [Nat.card_congr (blocks hv), Nat.card_fin]

/- Calls: the draws up to the first that is accepted. -/

/-- What `randomBytes` can give in `n` draws. -/
def Drawn (bound n : Nat) (draws : List Bytes) : Prop :=
  draws.length = n ∧ ∀ bytes ∈ draws, bytes.length = width bound

theorem finite_drawn (bound n : Nat) : {draws | Drawn bound n draws}.Finite := by
  have hbyte : Finite UInt8 := Finite.of_injective UInt8.toFin fun _ _ h => UInt8.toFin_inj.1 h
  induction n with
  | zero =>
    refine (Set.finite_singleton []).subset fun draws hdraws => ?_
    exact length_eq_zero_iff.1 hdraws.1
  | succ n ih =>
    refine ((finite_length_eq UInt8 (width bound)).image2 List.cons ih).subset fun draws hdraws => ?_
    obtain ⟨hlen, hall⟩ := hdraws
    cases draws with
    | nil => cases hlen
    | cons bytes draws =>
      obtain ⟨hbytes, hrest⟩ := forall_mem_cons.1 hall
      exact ⟨bytes, hbytes, draws, ⟨Nat.succ.inj hlen, hrest⟩, rfl⟩

variable {v v' : Nat}

/-- The draw read as `v'` in place of `v`, and the other way round. -/
def relabel (bound v v' : Nat) (bytes : Bytes) : Bytes :=
  if bytes.length = width bound ∧ bigEndian bytes < limit bound then
    bigEndianBytes (width bound) (bigEndian bytes / bound * bound + Equiv.swap v v' (bigEndian bytes % bound))
  else bytes

theorem swap_lt (hv : v < bound) (hv' : v' < bound) {r : Nat} (hr : r < bound) : Equiv.swap v v' r < bound := by
  rw [Equiv.swap_apply_def]
  split
  · exact hv'
  · split
    · exact hv
    · exact hr

theorem length_relabel (bytes : Bytes) : (relabel bound v v' bytes).length = bytes.length := by
  unfold relabel
  split
  · rename_i h
    rw [length_bigEndianBytes, h.1]
  · rfl

theorem bigEndian_relabel (hv : v < bound) (hv' : v' < bound) (hlen : bytes.length = width bound)
    (hlt : bigEndian bytes < limit bound) :
    bigEndian (relabel bound v v' bytes) = bigEndian bytes / bound * bound + Equiv.swap v v' (bigEndian bytes % bound) := by
  rw [relabel, if_pos ⟨hlen, hlt⟩]
  exact bigEndian_block (div_lt_blocks hlt) (swap_lt hv hv' (Nat.mod_lt _ (by omega)))

theorem relabel_relabel (hv : v < bound) (hv' : v' < bound) (bytes : Bytes) :
    relabel bound v v' (relabel bound v v' bytes) = bytes := by
  by_cases h : bytes.length = width bound ∧ bigEndian bytes < limit bound
  · have hr : Equiv.swap v v' (bigEndian bytes % bound) < bound := swap_lt hv hv' (Nat.mod_lt _ (by omega))
    have hbig := bigEndian_relabel hv hv' h.1 h.2
    have hguard : (relabel bound v v' bytes).length = width bound ∧ bigEndian (relabel bound v v' bytes) < limit bound := by
      rw [length_relabel, hbig]
      exact ⟨h.1, block_lt (div_lt_blocks h.2) hr⟩
    rw [relabel, if_pos hguard, hbig, block_div hr, block_mod hr, Equiv.swap_apply_self, bytes_of_block h.1]
  · rw [relabel, relabel, if_neg h, if_neg h]

theorem accept_relabel (hv : v < bound) (hv' : v' < bound) (hlen : bytes.length = width bound) :
    accept bound (relabel bound v v' bytes) = (accept bound bytes).map (Equiv.swap v v') := by
  by_cases hlt : bigEndian bytes < limit bound
  · have hr : Equiv.swap v v' (bigEndian bytes % bound) < bound := swap_lt hv hv' (Nat.mod_lt _ (by omega))
    have hbig := bigEndian_relabel hv hv' hlen hlt
    rw [accept, accept, if_pos hlt, hbig, if_pos (block_lt (div_lt_blocks hlt) hr), block_mod hr]
    rfl
  · have hsame : relabel bound v v' bytes = bytes := if_neg fun h => hlt h.2
    rw [hsame, accept, if_neg hlt]
    rfl

theorem findSome_relabel (hv : v < bound) (hv' : v' < bound) {draws : List Bytes}
    (h : ∀ bytes ∈ draws, bytes.length = width bound) :
    (draws.map (relabel bound v v')).findSome? (accept bound) =
      (draws.findSome? (accept bound)).map (Equiv.swap v v') := by
  induction draws with
  | nil => rfl
  | cons bytes draws ih =>
    obtain ⟨hbytes, hrest⟩ := forall_mem_cons.1 h
    rw [map_cons, findSome?_cons, findSome?_cons, accept_relabel hv hv' hbytes]
    cases accept bound bytes with
    | none => exact ih hrest
    | some value => rfl

/-- As many runs of draws end with the one value as with the other. -/
theorem card_runs (n : Nat) (hv : v < bound) (hv' : v' < bound) :
    Nat.card {draws // Drawn bound n draws ∧ draws.findSome? (accept bound) = some v} =
      Nat.card {draws // Drawn bound n draws ∧ draws.findSome? (accept bound) = some v'} := by
  have hinvolutive : Function.Involutive (List.map (relabel bound v v')) := by
    intro draws
    rw [map_map]
    exact map_id'' (relabel_relabel hv hv') draws
  refine Nat.card_congr (hinvolutive.toPerm.subtypeEquiv fun draws => ?_)
  have hdrawn : Drawn bound n (draws.map (relabel bound v v')) ↔ Drawn bound n draws := by
    simp [Drawn, length_relabel]
  show _ ↔ Drawn bound n (draws.map (relabel bound v v')) ∧
    (draws.map (relabel bound v v')).findSome? (accept bound) = some v'
  rw [hdrawn]
  refine and_congr_right fun h => ?_
  rw [findSome_relabel hv hv' h.2]
  cases draws.findSome? (accept bound) with
  | none => simp
  | some value => simp [Equiv.swap_apply_eq_iff]

/- The digits of a code. -/

def IsCode (digits : Nat) (code : String) : Prop := code.length = digits ∧ allDigits code = true

def numberOf (code : String) : Nat := Nat.ofDigitChars 10 code.toList 0

theorem isDigit_sub {c : Char} (h : c.isDigit = true) : c.toNat - '0'.toNat < 10 ∧ '0'.toNat ≤ c.toNat := by
  simp only [Char.isDigit, Bool.and_eq_true, decide_eq_true_eq, UInt32.le_iff_toNat_le] at h
  have hzero : '0'.toNat = 48 := rfl
  have hlow : 48 ≤ c.val.toNat := h.1
  have hhigh : c.val.toNat ≤ 57 := h.2
  have hval : c.toNat = c.val.toNat := rfl
  omega

theorem ofDigitChars_snoc (l : List Char) (c : Char) :
    Nat.ofDigitChars 10 (l ++ [c]) 0 = 10 * Nat.ofDigitChars 10 l 0 + (c.toNat - '0'.toNat) := by
  rw [Nat.ofDigitChars_append, Nat.ofDigitChars_cons, Nat.ofDigitChars_nil]

theorem ofDigitChars_lt {l : List Char} (h : ∀ c ∈ l, c.isDigit = true) : Nat.ofDigitChars 10 l 0 < 10 ^ l.length := by
  induction l using List.reverseRecOn with
  | nil => decide
  | append_singleton l c ih =>
    have hl := ih fun d hd => h d (mem_append_left _ hd)
    have hc := isDigit_sub (h c (mem_append_right _ mem_cons_self))
    rw [ofDigitChars_snoc, length_append, length_singleton, Nat.pow_succ]
    omega

theorem ofDigitChars_inj {l m : List Char} (hl : ∀ c ∈ l, c.isDigit = true) (hm : ∀ c ∈ m, c.isDigit = true)
    (hlen : l.length = m.length) (h : Nat.ofDigitChars 10 l 0 = Nat.ofDigitChars 10 m 0) : l = m := by
  induction l using List.reverseRecOn generalizing m with
  | nil => exact (length_eq_zero_iff.1 hlen.symm).symm
  | append_singleton l c ih =>
    cases eq_nil_or_concat m with
    | inl hnil => simp [hnil] at hlen
    | inr hconcat =>
      obtain ⟨m, d, rfl⟩ := hconcat
      rw [concat_eq_append] at hm hlen h ⊢
      have hc := isDigit_sub (hl c (mem_append_right _ mem_cons_self))
      have hd := isDigit_sub (hm d (mem_append_right _ mem_cons_self))
      rw [ofDigitChars_snoc, ofDigitChars_snoc] at h
      rw [length_append, length_append, length_singleton, length_singleton] at hlen
      have hlist : l = m := ih (fun x hx => hl x (mem_append_left _ hx)) (fun x hx => hm x (mem_append_left _ hx))
        (by omega) (by omega)
      have hchar : c = d := by
        apply Char.toNat_inj.1
        omega
      rw [hlist, hchar]

theorem numberOf_pad (value digits : Nat) : numberOf (pad value digits) = value := by
  rw [numberOf, pad, String.toList_ofList, Nat.ofDigitChars_append, Nat.ofDigitChars_replicate_zero, Nat.mul_zero,
    Nat.ofDigitChars_ten_toDigits]

variable {digits : Nat}

theorem isCode_pad (hpos : 0 < digits) (h : value < 10 ^ digits) : IsCode digits (pad value digits) := by
  have hlen : (Nat.toDigits 10 value).length ≤ digits := (Nat.length_toDigits_le_iff (by decide) hpos).2 h
  refine ⟨?_, ?_⟩
  · rw [pad, String.length_ofList, length_append, length_replicate]
    omega
  · rw [allDigits, pad, String.toList_ofList, Bool.and_eq_true, decide_eq_true_eq, all_append, Bool.and_eq_true]
    refine ⟨by simp [Nat.toDigits_ne_nil], by simp [all_replicate], ?_⟩
    exact all_eq_true.2 fun c hc => Nat.isDigit_of_mem_toDigits (by decide) (by decide) hc

/-- Every code is the number it reads as, with zeros in front. -/
theorem pad_numberOf {code : String} (hpos : 0 < digits) (h : IsCode digits code) :
    numberOf code < 10 ^ digits ∧ pad (numberOf code) digits = code := by
  obtain ⟨hlen, hall⟩ := h
  simp only [allDigits, Bool.and_eq_true, all_eq_true] at hall
  have hlt : numberOf code < 10 ^ digits := by
    rw [← hlen]
    exact ofDigitChars_lt hall.2
  obtain ⟨hpad, hpadDigits⟩ := isCode_pad hpos hlt
  simp only [allDigits, Bool.and_eq_true, all_eq_true] at hpadDigits
  refine ⟨hlt, String.toList_inj.1 (ofDigitChars_inj hpadDigits.2 hall.2 ?_ (numberOf_pad _ _))⟩
  exact hpad.trans hlen.symm

theorem generateCode_eq (h : 10 ^ digits ≤ 2 ^ 32) (draws : List Bytes) :
    generateCode digits draws = .ok ((draws.findSome? (accept (10 ^ digits))).map (pad · digits)) := by
  have hpos : 0 < 10 ^ digits := Nat.pow_pos (by decide)
  rw [generateCode, uniformBelow, if_neg (by omega)]
  rfl

/-- A code comes of the draws that its number comes of. -/
theorem generates_iff {code : String} (hpos : 0 < digits) (hbound : 10 ^ digits ≤ 2 ^ 32)
    (h : IsCode digits code) (draws : List Bytes) : generateCode digits draws = .ok (some code) ↔
      draws.findSome? (accept (10 ^ digits)) = some (numberOf code) := by
  rw [generateCode_eq hbound, Except.ok.injEq]
  constructor
  · intro hcode
    obtain ⟨value, hvalue, rfl⟩ := Option.map_eq_some_iff.1 hcode
    rw [hvalue, numberOf_pad]
  · intro hvalue
    rw [hvalue, Option.map_some, (pad_numberOf hpos h).2]

/-- Every value below the bound has its equal share of the draws, a code is the digits of the first that is accepted, and
every code has its equal share of the runs of draws. -/
theorem codes_uniform :
    (∀ bound, 0 < bound → bound ≤ 2 ^ 32 →
      width bound = ⌈Real.logb 2 bound / 8⌉₊ ∧ bound ≤ 256 ^ width bound ∧
      (∀ draws, uniformBelow bound draws = .ok (draws.findSome? (accept bound))) ∧
      (∃ bytes value, bytes.length = width bound ∧ accept bound bytes = some value) ∧
      (∀ bytes value, accept bound bytes = some value → value < bound) ∧
      (∀ value < bound, Nat.card {bytes : Bytes // bytes.length = width bound ∧ accept bound bytes = some value} =
        span bound / bound) ∧
      ∀ n, {draws | Drawn bound n draws}.Finite ∧ ∀ v < bound, ∀ v' < bound,
        Nat.card {draws // Drawn bound n draws ∧ uniformBelow bound draws = .ok (some v)} =
          Nat.card {draws // Drawn bound n draws ∧ uniformBelow bound draws = .ok (some v')}) ∧
    ∀ generate digits, (generate, digits) ∈
        [(generateSecret, secretDigits), (generateSlot, slotDigits), (generateQrSlot, qrSlotDigits)] →
      (∀ draws, generate draws = .ok ((draws.findSome? (accept (10 ^ digits))).map (pad · digits)) ∧
        ∀ code, generate draws = .ok (some code) → IsCode digits code) ∧
      ∀ n code code', IsCode digits code → IsCode digits code' →
        Nat.card {draws // Drawn (10 ^ digits) n draws ∧ generate draws = .ok (some code)} =
          Nat.card {draws // Drawn (10 ^ digits) n draws ∧ generate draws = .ok (some code')} := by
  refine ⟨fun bound hpos hle => ?_, fun generate digits hin => ?_⟩
  · have hbelow : ∀ draws, uniformBelow bound draws = .ok (draws.findSome? (accept bound)) := by
      intro draws
      rw [uniformBelow, if_neg (by omega)]
    refine ⟨width_eq_ceil bound, bound_le_span bound, hbelow, ?_, fun _ _ => accept_lt hpos, fun _ => card_accept, ?_⟩
    · refine ⟨bigEndianBytes (width bound) 0, 0, length_bigEndianBytes _ _, accept_some.2 ?_⟩
      rw [bigEndian_bigEndianBytes (Nat.pow_pos (by decide))]
      exact ⟨limit_pos hpos, Nat.zero_mod _⟩
    · refine fun n => ⟨finite_drawn bound n, fun v hv v' hv' => ?_⟩
      simp only [hbelow, Except.ok.injEq]
      exact card_runs n hv hv'
  · have hform : generate = generateCode digits ∧ 0 < digits ∧ 10 ^ digits ≤ 2 ^ 32 := by
      simp only [mem_cons, not_mem_nil, or_false, Prod.mk.injEq] at hin
      rcases hin with ⟨rfl, rfl⟩ | ⟨rfl, rfl⟩ | ⟨rfl, rfl⟩ <;> exact ⟨rfl, by decide, by decide⟩
    obtain ⟨rfl, hpos, hbound⟩ := hform
    have hten : 0 < 10 ^ digits := Nat.pow_pos (by decide)
    refine ⟨fun draws => ⟨generateCode_eq hbound draws, fun code hcode => ?_⟩, fun n code code' hcode hcode' => ?_⟩
    · rw [generateCode_eq hbound, Except.ok.injEq] at hcode
      obtain ⟨value, hvalue, rfl⟩ := Option.map_eq_some_iff.1 hcode
      obtain ⟨bytes, -, haccept⟩ := exists_of_findSome?_eq_some hvalue
      exact isCode_pad hpos (accept_lt hten haccept)
    · simp only [generates_iff hpos hbound hcode, generates_iff hpos hbound hcode']
      exact card_runs n (pad_numberOf hpos hcode).1 (pad_numberOf hpos hcode').1

end Mtmux.Crypto
