import Mtmux.Base.Text

/-! Pairing codes: a slot that the broker routes by, and a secret. A typed code is all digits, a scanned one has a
base64url secret; a code is told to be the one or the other by its length. -/
namespace Mtmux.Crypto
open List

structure TypedForm where
  slotDigits : Nat
  secretDigits : Nat
  total : Nat
  groups : List Nat

/-- A form a scanner reads: digits, then a base64url secret. -/
structure LongForm where
  slotDigits : Nat
  secretChars : Nat
  total : Nat

def qrSlotDigits : Nat := 4
def longSecretChars : Nat := 22

def typedForms : List TypedForm := [⟨3, 6, 9, [3, 3, 3]⟩]
def longForms : List LongForm := [⟨qrSlotDigits, longSecretChars, qrSlotDigits + longSecretChars⟩]

def slotWidths : List Nat := typedForms.map TypedForm.slotDigits ++ longForms.map LongForm.slotDigits
def secretWidths : List Nat := typedForms.map TypedForm.secretDigits

/-- `/^\d+$/`. -/
def allDigits (text : String) : Bool := text.toList ≠ [] && text.toList.all Char.isDigit

def isUrlSafe (c : Char) : Bool := c.isAlphanum || c = '_' || c = '-'

def isValidSlot (slot : String) : Bool := allDigits slot && slotWidths.contains slot.length

def isValidSecret (secret : String) : Bool := allDigits secret && secretWidths.contains secret.length

def isValidLongSecret (secret : String) : Bool :=
  secret.toList.all isUrlSafe && secret.length = longSecretChars

/-- What `[\s-]` matches. -/
def isFiller (c : Char) : Bool := isSpace c || c = '-'

def normalizeCode (input : String) : Option String :=
  let digits := String.ofList (input.toList.filter fun c => !isFiller c)
  if allDigits digits && typedForms.any fun form => form.total = digits.length then some digits else none

def formatCode (slot secret : String) : Except String String :=
  if !isValidSlot slot then .error "Invalid pairing slot"
  else if !isValidSecret secret then .error "Invalid pairing secret"
  else .ok (slot ++ secret)

/-- What the QR encodes. -/
def formatLongCode (slot secret : String) : Except String String :=
  if !isValidSlot slot then .error "Invalid pairing slot"
  else if !isValidLongSecret secret then .error "Invalid pairing secret"
  else .ok (slot ++ secret)

structure ParsedCode where
  slot : String
  secret : String
  deriving DecidableEq

/-- How long a text is in UTF-16. -/
def unitCount (chars : List Char) : Nat := (chars.map unitsOf).sum

def splitCode (chars : List Char) (slotDigits : Nat) : ParsedCode :=
  ⟨String.ofList (chars.take slotDigits), String.ofList (chars.drop slotDigits)⟩

def parseCode (input : String) : Option ParsedCode :=
  match normalizeCode input with
  | some digits =>
    (typedForms.find? fun form => form.total = digits.length).map fun form => splitCode digits.toList form.slotDigits
  | none =>
    match longForms.find? fun form => form.total = unitCount (trimChars input.toList) with
    | none => none
    | some form =>
      let code := splitCode (trimChars input.toList) form.slotDigits
      if allDigits code.slot && isValidLongSecret code.secret then some code else none

def Spaced (code text : String) : Prop := (text.toList.filter fun c => !isFiller c) = code.toList

instance (code text : String) : Decidable (Spaced code text) := inferInstanceAs (Decidable (_ = _))

def FiveDigits (secret : String) : Prop :=
  ((secret.toList.filter fun c => c ≠ '-').all Char.isDigit) = true ∧
    (secret.toList.filter fun c => c ≠ '-').length = 5

instance (secret : String) : Decidable (FiveDigits secret) := inferInstanceAs (Decidable (_ ∧ _))

variable {c : Char}

theorem urlSafe_range (h : isUrlSafe c = true) : 33 ≤ c.toNat ∧ c.toNat < 128 := by
  delta isUrlSafe Char.isAlphanum Char.isAlpha Char.isUpper Char.isLower Char.isDigit at h
  simp only [Bool.or_eq_true, Bool.and_eq_true, decide_eq_true_eq, UInt32.le_iff_toNat_le, ge_iff_le] at h
  obtain ((hletter | hdigit) | rfl) | rfl := h
  · simp at hletter
    omega
  · simp at hdigit
    omega
  · decide
  · decide

theorem isSpace_not_urlSafe (h : isUrlSafe c = true) : isSpace c = false := by
  have hrange := urlSafe_range h
  have hne : c ≠ ' ' := by
    intro he
    rw [he] at hrange
    exact absurd hrange (by decide)
  simp [isSpace, hne, UInt32.le_iff_toNat_le, ← UInt32.toNat_inj]
  omega

theorem urlSafe_of_isDigit (h : c.isDigit = true) : isUrlSafe c = true := by
  simp [isUrlSafe, Char.isAlphanum, h]

theorem isDigit_not_filler (h : c.isDigit = true) : isFiller c = false := by
  have hspace := isSpace_not_urlSafe (urlSafe_of_isDigit h)
  have hhyphen : c ≠ '-' := by
    intro he
    rw [he] at h
    exact absurd h (by decide)
  simp [isFiller, hspace, hhyphen]

variable {l : List Char}

theorem filter_digits (h : l.all Char.isDigit = true) : (l.filter fun c => !isFiller c) = l := by
  refine filter_eq_self.2 fun c hc => ?_
  rw [isDigit_not_filler (all_eq_true.1 h c hc)]
  rfl

theorem filter_urlSafe (h : l.all isUrlSafe = true) : (l.filter fun c => !isFiller c) = l.filter fun c => c ≠ '-' := by
  refine filter_congr fun c hc => ?_
  have hspace := isSpace_not_urlSafe (all_eq_true.1 h c hc)
  simp [isFiller, hspace]

theorem trimChars_id (h : ∀ c ∈ l, isSpace c = false) : trimChars l = l := by
  have hdrop : ∀ l' : List Char, (∀ c ∈ l', isSpace c = false) → l'.dropWhile isSpace = l' := by
    intro l' h'
    cases l' with
    | nil => rfl
    | cons c l' => rw [dropWhile_cons, h' c mem_cons_self]; rfl
  rw [trimChars, hdrop l h, hdrop _ fun c hc => h c (mem_reverse.1 hc), reverse_reverse]

theorem unitCount_urlSafe (h : ∀ c ∈ l, isUrlSafe c = true) : unitCount l = l.length := by
  induction l with
  | nil => rfl
  | cons c l ih =>
    have hc := (urlSafe_range (h c mem_cons_self)).2
    have hunit : unitsOf c = 1 := by
      rw [unitsOf, if_pos]
      rw [UInt32.lt_iff_toNat_lt]
      exact Nat.lt_of_lt_of_le hc (by decide)
    have hrest := ih fun d hd => h d (mem_cons_of_mem _ hd)
    rw [unitCount, map_cons, sum_cons, hunit, ← unitCount, hrest, length_cons, Nat.add_comm]

theorem isValidSlot_iff (slot : String) :
    isValidSlot slot = true ↔ slot.toList.all Char.isDigit = true ∧ (slot.length = 3 ∨ slot.length = 4) := by
  have hlength : slot.length = slot.toList.length := rfl
  simp only [isValidSlot, allDigits, slotWidths, typedForms, longForms, qrSlotDigits, longSecretChars, map_cons,
    map_nil, cons_append, nil_append, Bool.and_eq_true, decide_eq_true_eq, contains_iff_mem,
    mem_cons, not_mem_nil, or_false]
  constructor
  · intro h
    exact ⟨h.1.2, h.2⟩
  · intro h
    refine ⟨⟨fun hnil => ?_, h.1⟩, h.2⟩
    rw [hlength, hnil, length_nil] at h
    omega

theorem isValidSecret_iff (secret : String) :
    isValidSecret secret = true ↔ secret.toList.all Char.isDigit = true ∧ secret.length = 6 := by
  have hlength : secret.length = secret.toList.length := rfl
  simp only [isValidSecret, allDigits, secretWidths, typedForms, map_cons, map_nil, Bool.and_eq_true,
    decide_eq_true_eq, contains_iff_mem, mem_cons, not_mem_nil, or_false]
  constructor
  · intro h
    exact ⟨h.1.2, h.2⟩
  · intro h
    refine ⟨⟨fun hnil => ?_, h.1⟩, h.2⟩
    rw [hlength, hnil, length_nil] at h
    omega

variable {digits : List Char}

theorem normalizeCode_eq (input : String)
    (h : (input.toList.filter fun c => !isFiller c) = digits) :
    normalizeCode input = if digits.all Char.isDigit = true ∧ digits.length = 9 then some (String.ofList digits) else none := by
  rw [normalizeCode, h]
  have hlength : (String.ofList digits).length = digits.length := String.length_ofList
  simp only [allDigits, String.toList_ofList, typedForms, any_cons, any_nil, Bool.or_false, hlength,
    Bool.and_eq_true, decide_eq_true_eq]
  split
  · rename_i hsome
    rw [if_pos ⟨hsome.1.2, hsome.2.symm⟩]
  · rename_i hnone
    refine (if_neg fun hsome => hnone ⟨⟨fun hnil => ?_, hsome.1⟩, hsome.2.symm⟩).symm
    rw [hnil, length_nil] at hsome
    omega

theorem parseCode_typed (input : String)
    (h : (input.toList.filter fun c => !isFiller c) = digits) (hdigits : digits.all Char.isDigit = true)
    (hlength : digits.length = 9) : parseCode input = some (splitCode digits 3) := by
  have hnormal := normalizeCode_eq input h
  rw [if_pos ⟨hdigits, hlength⟩] at hnormal
  simp [parseCode, hnormal, typedForms, String.length_ofList, hlength]

/-- Anything else is read as it stands. -/
theorem parseCode_long (input : String)
    (h : (input.toList.filter fun c => !isFiller c) = digits)
    (hnot : ¬ (digits.all Char.isDigit = true ∧ digits.length = 9)) (hsafe : ∀ c ∈ input.toList, isUrlSafe c = true) :
    parseCode input =
      if input.length = 26 ∧ allDigits (splitCode input.toList 4).slot = true ∧
          isValidLongSecret (splitCode input.toList 4).secret = true then some (splitCode input.toList 4)
      else none := by
  have hnormal := normalizeCode_eq input h
  rw [if_neg hnot] at hnormal
  have htrim : trimChars input.toList = input.toList := trimChars_id fun c hc => isSpace_not_urlSafe (hsafe c hc)
  have hlength : input.length = input.toList.length := rfl
  rw [parseCode, hnormal, htrim, unitCount_urlSafe hsafe, hlength]
  by_cases htotal : input.toList.length = 26
  · have hfind : longForms.find? (fun form => form.total = 26) = some ⟨4, 22, 26⟩ := rfl
    simp only [htotal, hfind, true_and, Bool.and_eq_true]
  · have hfind : longForms.find? (fun form => form.total = input.toList.length) = none := by
      rw [List.find?_eq_none]
      intro form hform
      rw [mem_singleton.1 hform]
      exact fun he => htotal (of_decide_eq_true he).symm
    simp only [hfind, htotal, false_and, if_false]

theorem splitCode_append {a b : String} {n : Nat} (h : a.length = n) : splitCode (a ++ b).toList n = ⟨a, b⟩ := by
  have hlength : a.toList.length = n := h
  rw [splitCode, String.toList_append, take_left' hlength, drop_left' hlength, String.ofList_toList,
    String.ofList_toList]

theorem typed_parses {slot secret code : String} (h : formatCode slot secret = .ok code) :
    (∀ text, Spaced code text → parseCode text = some ⟨slot, secret⟩) ↔ slot.length = 3 := by
  unfold formatCode at h
  split at h
  · cases h
  rename_i hslot
  split at h
  · cases h
  rename_i hsecret
  cases h
  obtain ⟨hslotDigits, hwidth⟩ := (isValidSlot_iff slot).1 (by simpa using hslot)
  obtain ⟨hsecretDigits, hsix⟩ := (isValidSecret_iff secret).1 (by simpa using hsecret)
  have hdigits : (slot ++ secret).toList.all Char.isDigit = true := by
    rw [String.toList_append, all_append, hslotDigits, hsecretDigits]
    rfl
  have hlength : (slot ++ secret).toList.length = slot.length + secret.length := by
    rw [String.toList_append, length_append]
    rfl
  constructor
  · intro hparses
    have hself := hparses (slot ++ secret) (filter_digits hdigits)
    cases hwidth with
    | inl hthree => exact hthree
    | inr hfour =>
      rw [parseCode_long _ (filter_digits hdigits) (by omega) fun c hc =>
        urlSafe_of_isDigit (all_eq_true.1 hdigits c hc), if_neg] at hself
      · cases hself
      · intro hlong
        have htotal : (slot ++ secret).toList.length = 26 := hlong.1
        omega
  · intro hthree text htext
    rw [parseCode_typed text htext hdigits (by omega), splitCode_append hthree]

theorem scanned_parses {slot secret code : String} (h : formatLongCode slot secret = .ok code) :
    parseCode code = some ⟨slot, secret⟩ ↔ slot.length = 4 ∧ ¬ FiveDigits secret := by
  unfold formatLongCode at h
  split at h
  · cases h
  rename_i hslot
  split at h
  · cases h
  rename_i hsecret
  cases h
  obtain ⟨hslotDigits, hwidth⟩ := (isValidSlot_iff slot).1 (by simpa using hslot)
  have hvalid : isValidLongSecret secret = true := by simpa using hsecret
  obtain ⟨hsafe, hchars⟩ : secret.toList.all isUrlSafe = true ∧ secret.length = 22 := by
    rw [isValidLongSecret, Bool.and_eq_true, decide_eq_true_eq] at hvalid
    exact hvalid
  have hfilter : ((slot ++ secret).toList.filter fun c => !isFiller c) =
      slot.toList ++ secret.toList.filter fun c => c ≠ '-' := by
    rw [String.toList_append, filter_append, filter_digits hslotDigits, filter_urlSafe hsafe]
  have hsafeAll : ∀ c ∈ (slot ++ secret).toList, isUrlSafe c = true := by
    intro c hc
    rw [String.toList_append] at hc
    cases mem_append.1 hc with
    | inl hin => exact urlSafe_of_isDigit (all_eq_true.1 hslotDigits c hin)
    | inr hin => exact all_eq_true.1 hsafe c hin
  have hslotLength : slot.toList.length = slot.length := rfl
  by_cases htyped : (slot.toList ++ secret.toList.filter fun c => c ≠ '-').all Char.isDigit = true ∧
      (slot.toList ++ secret.toList.filter fun c => c ≠ '-').length = 9
  · -- Nine digits are left: the code is taken for a typed one.
    rw [parseCode_typed _ hfilter htyped.1 htyped.2]
    refine iff_of_false (fun hsame => ?_) fun hgood => hgood.2 ?_
    · have hsecretSame : String.ofList ((slot.toList ++ secret.toList.filter fun c => c ≠ '-').drop 3) = secret :=
        congrArg ParsedCode.secret (Option.some.inj hsame)
      have hlong := congrArg String.length hsecretSame
      rw [String.length_ofList, length_drop, htyped.2, hchars] at hlong
      omega
    · obtain ⟨hall, hnine⟩ := htyped
      rw [all_append, Bool.and_eq_true] at hall
      rw [length_append, hslotLength, hgood.1] at hnine
      exact ⟨hall.2, by omega⟩
  · rw [parseCode_long _ hfilter htyped hsafeAll]
    have hlength : (slot ++ secret).length = slot.length + 22 := by rw [String.length_append, hchars]
    cases hwidth with
    | inl hthree =>
      rw [if_neg fun hlong => by omega]
      refine iff_of_false (fun hnone => by cases hnone) fun hgood => ?_
      omega
    | inr hfour =>
      have hdigits : allDigits slot = true := by
        have hvalidSlot : isValidSlot slot = true := by simpa using hslot
        rw [isValidSlot, Bool.and_eq_true] at hvalidSlot
        exact hvalidSlot.1
      rw [splitCode_append hfour, if_pos ⟨by omega, hdigits, hvalid⟩]
      refine iff_of_true rfl ⟨hfour, fun hfive => htyped ⟨?_, ?_⟩⟩
      · rw [all_append, hslotDigits, hfive.1]
        rfl
      · rw [length_append, hslotLength, hfour, hfive.2]

/-- When the codes that the two formatters make are read back. -/
theorem codes_parse (slot secret : String) : (∀ code, formatCode slot secret = .ok code →
      ((∀ text, Spaced code text → parseCode text = some ⟨slot, secret⟩) ↔ slot.length = 3)) ∧
    ∀ code, formatLongCode slot secret = .ok code →
      (parseCode code = some ⟨slot, secret⟩ ↔ slot.length = 4 ∧ ¬ FiveDigits secret) :=
  ⟨fun _ => typed_parses, fun _ => scanned_parses⟩

theorem shown_codes_parse : parseCode "492 716-384" = some ⟨"492", "716384"⟩ ∧
      parseCode "0492A1-_efghijklmnopqrstuv" = some ⟨"0492", "A1-_efghijklmnopqrstuv"⟩ :=
  ⟨((codes_parse "492" "716384").1 "492716384" rfl).2 rfl _ (by decide +kernel),
    ((codes_parse "0492" "A1-_efghijklmnopqrstuv").2 _ (by decide +kernel)).2 ⟨rfl, by decide +kernel⟩⟩

/-- A scanned code that is read as a typed one, with slot 049. -/
theorem scanned_read_as_typed :
    formatLongCode "0492" "71638-----------------" = .ok "049271638-----------------" ∧
      parseCode "049271638-----------------" = some ⟨"049", "271638"⟩ := by
  decide +kernel

end Mtmux.Crypto
