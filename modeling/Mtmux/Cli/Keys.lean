import Mathlib.Data.List.TakeWhile

/-! The keys of the panel: a chunk of the terminal's input, in UTF-16 code units, split into keys. -/
namespace Mtmux.Cli.Keys
open List

def esc : Nat := 0x1b

def isParameter (c : Nat) : Bool := (0x30 ≤ c && c ≤ 0x39) || c == 0x3b || c == 0x3f

def isIntermediate (c : Nat) : Bool := 0x20 ≤ c && c ≤ 0x2f

def isFinal (c : Nat) : Bool := 0x40 ≤ c && c ≤ 0x7e

def isLetter (c : Nat) : Bool := (0x41 ≤ c && c ≤ 0x5a) || (0x61 ≤ c && c ≤ 0x7a)

def isLineTerminator (c : Nat) : Bool := c == 0x0a || c == 0x0d || c == 0x2028 || c == 0x2029

/-- What the pattern of a CSI takes after its bracket: the three classes are apart, so that no match is taken back. -/
def csiLength (text : List Nat) : Option Nat :=
  match (text.dropWhile isParameter).dropWhile isIntermediate with
  | [] => none
  | c :: _ =>
    if isFinal c then
      some ((text.takeWhile isParameter).length + ((text.dropWhile isParameter).takeWhile isIntermediate).length + 1)
    else none

/-- What the key takes after its ESC: a CSI, an SS3, any character of the line, or nothing. -/
def escLength : List Nat → Nat
  | [] => 0
  | c :: text =>
    if c = 0x5b then (csiLength text).elim 1 (· + 1)
    else if c = 0x4f ∧ text.head?.any isLetter then 2
    else if isLineTerminator c then 0
    else 1

def keyLength : List Nat → Nat
  | [] => 0
  | c :: text =>
    if c = esc then escLength text + 1
    else if 0xd800 ≤ c ∧ c < 0xdc00 ∧ text.head?.any (fun d => 0xdc00 ≤ d && d < 0xe000) then 2
    else 1

/-- A sequence that the pattern takes whole. -/
structure Taken (text params inters : List Nat) (final : Nat) (rest : List Nat) : Prop where
  text : text = params ++ (inters ++ final :: rest)
  params : ∀ c ∈ params, isParameter c = true
  inters : ∀ c ∈ inters, isIntermediate c = true
  final : isFinal final = true

variable {text : List Nat}

theorem csiLength_some {n : Nat} (h : csiLength text = some n) :
    ∃ params inters final rest, Taken text params inters final rest ∧ n = params.length + inters.length + 1 := by
  unfold csiLength at h
  split at h
  · cases h
  · rename_i c rest hrest
    split at h
    · rename_i hfinal
      refine ⟨_, _, c, rest, ⟨?_, fun c hc => mem_takeWhile_imp hc, fun c hc => mem_takeWhile_imp hc, hfinal⟩,
        (Option.some.inj h).symm⟩
      rw [← hrest, takeWhile_append_dropWhile, takeWhile_append_dropWhile]
    · cases h

theorem csiLength_le {n : Nat} (h : csiLength text = some n) : n ≤ text.length := by
  obtain ⟨params, inters, final, rest, htaken, rfl⟩ := csiLength_some h
  rw [htaken.text]
  simp only [length_append, length_cons]
  omega

theorem escLength_le (text : List Nat) : escLength text ≤ text.length := by
  unfold escLength
  cases text with
  | nil => simp
  | cons c text =>
    cases hcsi : csiLength text with
    | none => cases text <;> grind
    | some n =>
      have hle := csiLength_le hcsi
      cases text <;> grind

theorem keyLength_le (text : List Nat) : keyLength text ≤ text.length := by
  cases text with
  | nil => simp [keyLength]
  | cons c text =>
    have hle := escLength_le text
    unfold keyLength
    cases text <;> grind

theorem keyLength_pos (h : text ≠ []) : 0 < keyLength text := by
  cases text with
  | nil => exact absurd rfl h
  | cons c text =>
    unfold keyLength
    grind

def splitKeys (text : List Nat) : List (List Nat) :=
  if _h : text = [] then [] else text.take (keyLength text) :: splitKeys (text.drop (keyLength text))
termination_by text.length
decreasing_by
  have hpos := keyLength_pos _h
  have hne : text.length ≠ 0 := by simpa using _h
  rw [length_drop]
  omega

inductive KeyCall where
  | handler (key : List Nat)
  | onInterrupt

/-- Ctrl+C and Ctrl+D. -/
def interrupt (c : Nat) : Bool := c == 3 || c == 4

def passOn : List (List Nat) → List KeyCall
  | [] => []
  | key :: keys => if key = [3] ∨ key = [4] then [.onInterrupt] else .handler key :: passOn keys

def onData (text : List Nat) : List KeyCall := passOn (splitKeys text)

/-- A complete control sequence, with all the parameter bytes there are, or a single shift and its letter. -/
def Complete (seq : List Nat) : Prop :=
  (∃ params inters final, seq = esc :: 0x5b :: (params ++ (inters ++ [final])) ∧ (∀ c ∈ params, 0x30 ≤ c ∧ c ≤ 0x3f) ∧
    (∀ c ∈ inters, isIntermediate c = true) ∧ isFinal final = true) ∨ ∃ c, isLetter c = true ∧ seq = [esc, 0x4f, c]

/-- No byte is lost, a complete sequence is one key, and what comes after an interrupt is dropped. -/
structure Kept (text : List Nat) : Prop where
  whole : (splitKeys text).flatten = text
  sequences : ∀ before after, splitKeys text = before ++ after → ∀ seq, Complete seq → seq <+: after.flatten →
    after.head? = some seq
  interrupts : ∀ before c after, text = before ++ c :: after → interrupt c = true → (∀ x ∈ before, interrupt x = false) →
    onData text = (splitKeys before).map .handler ++ [.onInterrupt]

/-- The text ends with an ESC that is not the second one of two: an odd number of them. -/
def Armed (text : List Nat) : Bool := text.foldl (fun armed c => c == esc && !armed) false

/-- No ESC takes the first interrupt with it, and no control sequence has a parameter byte that the pattern leaves out. -/
structure Meets (text : List Nat) : Prop where
  interrupts : ∀ before c after, text = before ++ c :: after → interrupt c = true → (∀ x ∈ before, interrupt x = false) →
    Armed before = false
  sequences : ∀ before seq after, text = before ++ (seq ++ after) → Armed before = false → Complete seq →
    ∀ c ∈ seq, c ≠ 0x3a ∧ c ≠ 0x3c ∧ c ≠ 0x3d ∧ c ≠ 0x3e

section Split
variable {text before after rest : List Nat} {c : Nat}

@[simp] theorem splitKeys_nil : splitKeys [] = [] := by
  rw [splitKeys]
  rfl

theorem splitKeys_cons (h : text ≠ []) :
    splitKeys text = text.take (keyLength text) :: splitKeys (text.drop (keyLength text)) := by
  rw [splitKeys, dif_neg h]

theorem splitKeys_flatten (text : List Nat) : (splitKeys text).flatten = text := by
  induction text using splitKeys.induct with
  | case1 => simp
  | case2 text hne ih => rw [splitKeys_cons hne, flatten_cons, ih, take_append_drop]

/-- The keys that are left are those of the text that is left. -/
theorem splitKeys_after {before after : List (List Nat)} (h : splitKeys text = before ++ after) :
    splitKeys after.flatten = after := by
  induction before generalizing text with
  | nil =>
    rw [nil_append] at h
    rw [← h, splitKeys_flatten]
  | cons key before ih =>
    by_cases hne : text = []
    · simp [hne] at h
    · rw [splitKeys_cons hne, cons_append, List.cons.injEq] at h
      exact ih h.2

def live (c : Nat) : Bool := c == esc || interrupt c

theorem takeWhile_stop {p : Nat → Bool} (hc : p c = false) (text rest : List Nat) :
    (text ++ c :: rest).takeWhile p = text.takeWhile p := by
  induction text with
  | nil => simp [hc]
  | cons d text ih => simp [takeWhile_cons, ih]

theorem dropWhile_stop {p : Nat → Bool} (hc : p c = false) (text rest : List Nat) :
    (text ++ c :: rest).dropWhile p = text.dropWhile p ++ c :: rest := by
  induction text with
  | nil => simp [hc]
  | cons d text ih =>
    simp only [cons_append, dropWhile_cons, ih]
    split <;> simp

theorem csiLength_append (hc : live c = true) (text rest : List Nat) : csiLength (text ++ c :: rest) = csiLength text := by
  have hparam : isParameter c = false := by grind [live, interrupt, isParameter, esc]
  have hinter : isIntermediate c = false := by grind [live, interrupt, isIntermediate, esc]
  have hfinal : isFinal c = false := by grind [live, interrupt, isFinal, esc]
  simp only [csiLength, dropWhile_stop hparam, dropWhile_stop hinter, takeWhile_stop hparam, takeWhile_stop hinter]
  cases (text.dropWhile isParameter).dropWhile isIntermediate with
  | nil => simp [hfinal]
  | cons d rest => rfl

theorem keyLength_append (hc : live c = true) (hne : text ≠ []) (hesc : text ≠ [esc]) (rest : List Nat) :
    keyLength (text ++ c :: rest) = keyLength text := by
  have hletter : isLetter c = false := by grind [live, interrupt, isLetter, esc]
  have hlow : ¬ 0xdc00 ≤ c := by grind [live, interrupt, esc]
  have hhead {p : Nat → Bool} (hp : p c = false) (l : List Nat) : (l ++ c :: rest).head?.any p = l.head?.any p := by
    cases l <;> simp [hp]
  cases text with
  | nil => exact absurd rfl hne
  | cons a text =>
    simp only [cons_append, keyLength]
    rw [hhead (by simp [hlow])]
    cases text with
    | nil =>
      have ha : a ≠ esc := fun ha => hesc (by rw [ha])
      simp [ha]
    | cons d text => simp only [cons_append, escLength, csiLength_append hc, hhead hletter]

theorem keyLength_esc (hc : live c = true) (rest : List Nat) : keyLength (esc :: c :: rest) = 2 := by
  simp only [live, interrupt, esc, Bool.or_eq_true, beq_iff_eq] at hc
  obtain rfl | rfl | rfl := hc <;> simp [keyLength, escLength, esc, isLineTerminator]

theorem armed_cons (h : c ≠ esc) (text : List Nat) : Armed (c :: text) = Armed text := by
  simp [Armed, beq_false_of_ne h]

theorem armed_plain {plain : List Nat} (h : ∀ c ∈ plain, c ≠ esc) (text : List Nat) : Armed (plain ++ text) = Armed text := by
  induction plain with
  | nil => rfl
  | cons c plain ih =>
    rw [cons_append, armed_cons (h c (by simp)), ih fun d hd => h d (by simp [hd])]

theorem armed_esc (c : Nat) (text : List Nat) : Armed (esc :: c :: text) = Armed text := by
  simp [Armed]

theorem armed_drop (hesc : text ≠ [esc]) : Armed (text.drop (keyLength text)) = Armed text := by
  cases text with
  | nil => rfl
  | cons a text =>
    by_cases ha : a = esc
    · subst ha
      cases text with
      | nil => exact absurd rfl hesc
      | cons d text =>
        rw [armed_esc]
        simp only [keyLength, escLength, if_true, drop_succ_cons]
        by_cases hd : d = 0x5b
        · rw [if_pos hd]
          cases hcsi : csiLength text with
          | none => simp
          | some n =>
            obtain ⟨params, inters, final, rest, htaken, rfl⟩ := csiLength_some hcsi
            have hplain : ∀ c ∈ params ++ (inters ++ [final]), c ≠ esc := by
              have hparams := htaken.params
              have hinters := htaken.inters
              have hfinal := htaken.final
              intro c hc
              simp only [mem_append, mem_singleton] at hc
              grind [isParameter, isIntermediate, isFinal, esc]
            have htext : text = (params ++ (inters ++ [final])) ++ rest := by simp [htaken.text]
            have hlen : params.length + inters.length + 1 = (params ++ (inters ++ [final])).length := by simp; omega
            rw [htext, armed_plain hplain, hlen]
            simp
        · rw [if_neg hd]
          cases text with
          | nil => grind [Armed, isLineTerminator, esc]
          | cons e text =>
            split
            · rename_i hss3
              have he : e ≠ esc := by grind [isLetter, esc]
              rw [armed_cons he]
              simp
            · split
              · rename_i hline
                exact armed_cons (by grind [isLineTerminator, esc]) _
              · simp
    · simp only [keyLength, if_neg ha]
      split
      · rename_i hlow
        cases text with
        | nil => simp at hlow
        | cons d text =>
          have hd : d ≠ esc := by grind [esc]
          simp [armed_cons ha, armed_cons hd]
      · simp [armed_cons ha]

/-- Where a key ends, no ESC is waiting for the character it takes. -/
theorem armed_of_split {before after : List (List Nat)} (h : splitKeys text = before ++ after) (hc : live c = true)
    (hafter : after.flatten = c :: rest) : Armed before.flatten = false := by
  induction before generalizing text with
  | nil => rfl
  | cons key before ih =>
    by_cases hne : text = []
    · simp [hne] at h
    · have htext : text = (key ++ before.flatten) ++ c :: rest := by
        rw [← splitKeys_flatten text, h, ← hafter]
        simp
      rw [splitKeys_cons hne, cons_append, List.cons.injEq] at h
      have hlen : key.length = keyLength text := by simp [← h.1, keyLength_le]
      have hpos := keyLength_pos hne
      have hesc : key ++ before.flatten ≠ [esc] := by
        intro hlone
        have hlen' := congrArg List.length hlone
        have htwo : keyLength text = 2 := by
          rw [htext, hlone]
          exact keyLength_esc hc rest
        simp only [length_append, length_singleton] at hlen'
        omega
      have hwhole : key ++ before.flatten ≠ [] := by
        intro hnil
        have hlen' := congrArg List.length hnil
        simp only [length_append, length_nil] at hlen'
        omega
      rw [flatten_cons, ← armed_drop hesc, ← keyLength_append hc hwhole hesc rest, ← htext, ← hlen, drop_left]
      exact ih h.2

theorem splitKeys_append (hc : live c = true) (h : Armed before = false) :
    splitKeys (before ++ c :: rest) = splitKeys before ++ splitKeys (c :: rest) := by
  induction hlen : before.length using Nat.strong_induction_on generalizing before with
  | _ n ih =>
    by_cases hne : before = []
    · simp [hne]
    · have hesc : before ≠ [esc] := by
        rintro rfl
        simp [Armed] at h
      have hkey := keyLength_append hc hne hesc rest
      have hle := keyLength_le before
      have hpos := keyLength_pos hne
      rw [splitKeys_cons hne, splitKeys_cons (by simp), hkey, take_append_of_le_length hle,
        drop_append_of_le_length hle, cons_append]
      rw [ih _ (by rw [length_drop]; omega) ((armed_drop hesc).trans h) rfl]

theorem splitKeys_armed (hc : live c = true) (h : Armed before = true) :
    ∃ keys, splitKeys (before ++ c :: rest) = keys ++ [esc, c] :: splitKeys rest ∧ keys.flatten ++ [esc] = before := by
  induction hlen : before.length using Nat.strong_induction_on generalizing before with
  | _ n ih =>
    have hne : before ≠ [] := by
      rintro rfl
      simp [Armed] at h
    by_cases hesc : before = [esc]
    · subst hesc
      refine ⟨[], ?_, rfl⟩
      rw [cons_append, nil_append, splitKeys_cons (by simp), keyLength_esc hc]
      rfl
    · have hkey := keyLength_append hc hne hesc rest
      have hle := keyLength_le before
      have hpos := keyLength_pos hne
      obtain ⟨keys, hkeys, hflat⟩ := ih _ (by rw [length_drop]; omega) ((armed_drop hesc).trans h) rfl
      refine ⟨before.take (keyLength before) :: keys, ?_, ?_⟩
      · rw [splitKeys_cons (by simp), hkey, take_append_of_le_length hle, drop_append_of_le_length hle, hkeys]
        rfl
      · rw [flatten_cons, append_assoc, hflat, take_append_drop]

theorem splitKeys_interrupt (hc : interrupt c = true) (rest : List Nat) :
    splitKeys (c :: rest) = [c] :: splitKeys rest := by
  have hone : keyLength (c :: rest) = 1 := by grind [keyLength, interrupt, esc]
  rw [splitKeys_cons (by simp), hone]
  rfl

theorem passOn_append {keys : List (List Nat)} (h : ∀ key ∈ keys, key ≠ [3] ∧ key ≠ [4]) (more : List (List Nat)) :
    passOn (keys ++ more) = keys.map .handler ++ passOn more := by
  induction keys with
  | nil => rfl
  | cons key keys ih =>
    have hkey := h key (by simp)
    simp [passOn, hkey.1, hkey.2, ih fun k hk => h k (by simp [hk])]

theorem plain_keys {keys : List (List Nat)} (h : ∀ x ∈ keys.flatten, interrupt x = false) :
    ∀ key ∈ keys, key ≠ [3] ∧ key ≠ [4] := by
  intro key hkey
  have hsub : ∀ x ∈ key, interrupt x = false := fun x hx => h x (mem_flatten_of_mem hkey hx)
  constructor
  · rintro rfl
    simpa [interrupt] using hsub 3
  · rintro rfl
    simpa [interrupt] using hsub 4

theorem csiLength_taken {params inters : List Nat} {final : Nat} (h : Taken text params inters final rest) :
    csiLength text = some (params.length + inters.length + 1) := by
  have hstop : (inters ++ final :: rest).takeWhile isParameter = [] ∧
      (inters ++ final :: rest).dropWhile isParameter = inters ++ final :: rest := by
    have hfinal := h.final
    cases inters with
    | nil => simp [takeWhile_cons, dropWhile_cons]; grind [isParameter, isFinal]
    | cons c inters =>
      have hc := h.inters c (by simp)
      simp [takeWhile_cons, dropWhile_cons]
      grind [isParameter, isIntermediate]
  have hlast : isIntermediate final = false := by
    have hfinal := h.final
    grind [isIntermediate, isFinal]
  rw [csiLength, h.text, dropWhile_append_of_pos h.params, takeWhile_append_of_pos h.params, hstop.1, hstop.2,
    dropWhile_append_of_pos h.inters, takeWhile_append_of_pos h.inters]
  simp [hlast, h.final]

/-- A complete sequence is one key exactly when the pattern has its parameter bytes. -/
theorem complete_key {seq : List Nat} (h : Complete seq) (rest : List Nat) :
    keyLength (seq ++ rest) = seq.length ↔ ∀ c ∈ seq, c ≠ 0x3a ∧ c ≠ 0x3c ∧ c ≠ 0x3d ∧ c ≠ 0x3e := by
  obtain ⟨params, inters, final, rfl, hparams, hinters, hfinal⟩ | ⟨c, hletter, rfl⟩ := h
  · have hkey : keyLength (esc :: 0x5b :: (params ++ (inters ++ [final])) ++ rest) =
        (csiLength (params ++ (inters ++ [final]) ++ rest)).elim 1 (· + 1) + 1 := by
      simp [keyLength, escLength]
    rw [hkey]
    constructor
    · intro hlen
      cases hcsi : csiLength (params ++ (inters ++ [final]) ++ rest) with
      | none =>
        simp [-append_assoc, hcsi] at hlen
      | some n =>
        obtain ⟨params', inters', final', rest', htaken, rfl⟩ := csiLength_some hcsi
        have heq : params ++ (inters ++ [final]) ++ rest = (params' ++ (inters' ++ [final'])) ++ rest' := by
          simp [htaken.text]
        have hsame := append_inj_left heq (by simp [-append_assoc, hcsi] at hlen ⊢; omega)
        have hparams' := htaken.params
        have hinters' := htaken.inters
        have hfinal' := htaken.final
        rw [hsame]
        intro c hc
        simp only [mem_cons, mem_append, not_mem_nil, or_false] at hc
        grind [isParameter, isIntermediate, isFinal, esc]
    · intro hplain
      have hparams' : ∀ c ∈ params, isParameter c = true := by
        intro c hc
        have hrange := hparams c hc
        have hc' := hplain c (by simp [hc])
        grind [isParameter]
      have htext : params ++ (inters ++ [final]) ++ rest = params ++ (inters ++ final :: rest) := by simp
      rw [csiLength_taken ⟨htext, hparams', hinters, hfinal⟩]
      simp
      omega
  · have htwo : keyLength ([esc, 0x4f, c] ++ rest) = 3 := by simp [keyLength, escLength, hletter]
    simp only [htwo, length_cons, length_nil, mem_cons, not_mem_nil, or_false, true_iff]
    grind [isLetter, esc]

theorem complete_esc {seq : List Nat} (h : Complete seq) : ∃ more, seq = esc :: more := by
  obtain ⟨params, inters, final, rfl, -⟩ | ⟨c, -, rfl⟩ := h
  · exact ⟨_, rfl⟩
  · exact ⟨_, rfl⟩

end Split

/-- A text is split into whole keys if and only if it meets the two conditions. -/
theorem kept_iff (text : List Nat) : Kept text ↔ Meets text := by
  constructor
  · intro h
    refine ⟨fun before c after htext hc hfirst => ?_, fun before seq after htext harmed hseq => ?_⟩
    · by_contra harmed
      have hlive : live c = true := by simp [live, hc]
      obtain ⟨keys, hkeys, hflat⟩ : ∃ keys, splitKeys (before ++ c :: after) = keys ++ [esc, c] :: splitKeys after ∧
          keys.flatten ++ [esc] = before := splitKeys_armed hlive (by simpa using harmed)
      have hplain : ∀ x ∈ keys.flatten, interrupt x = false := fun x hx => hfirst x (by simp [← hflat, hx])
      have hcalls := h.interrupts before c after htext hc hfirst
      rw [onData, htext, hkeys, passOn_append (plain_keys hplain)] at hcalls
      have hmem : KeyCall.handler [esc, c] ∈ (splitKeys before).map .handler ++ [.onInterrupt] := by
        rw [← hcalls]
        simp [passOn]
      have hkey : [esc, c] ∈ splitKeys before := by simpa using hmem
      have hin : c ∈ before := by
        rw [← splitKeys_flatten before]
        exact mem_flatten_of_mem hkey (by simp)
      simp [hfirst c hin] at hc
    · obtain ⟨more, rfl⟩ := complete_esc hseq
      have hsplit : splitKeys text = splitKeys before ++ splitKeys (esc :: more ++ after) := by
        rw [htext]
        exact splitKeys_append rfl harmed
      have hhead := h.sequences _ _ hsplit _ hseq (by simp [splitKeys_flatten])
      rw [splitKeys_cons (by simp), List.head?_cons, Option.some.injEq] at hhead
      refine (complete_key hseq after).1 ?_
      rw [← congrArg List.length hhead, length_take, Nat.min_eq_left (keyLength_le _)]
  · intro h
    refine ⟨splitKeys_flatten text, fun before after hsplit seq hseq hprefix => ?_, fun before c after htext hc hfirst => ?_⟩
    · obtain ⟨rest, hrest⟩ := hprefix
      obtain ⟨more, rfl⟩ := complete_esc hseq
      have harmed := armed_of_split hsplit (c := esc) rfl hrest.symm
      have htext : text = before.flatten ++ (esc :: more ++ rest) := by
        rw [hrest, ← flatten_append, ← hsplit, splitKeys_flatten]
      have hkey := (complete_key hseq rest).2 (h.sequences _ _ _ htext harmed hseq)
      rw [← splitKeys_after hsplit, ← hrest, splitKeys_cons (by simp), hkey, take_left]
      rfl
    · have harmed := h.interrupts before c after htext hc hfirst
      have hplain : ∀ x ∈ (splitKeys before).flatten, interrupt x = false := by
        rwa [splitKeys_flatten]
      have hkey : [c] = [3] ∨ [c] = [4] := by simpa [interrupt] using hc
      rw [onData, htext, splitKeys_append (by simp [live, hc]) harmed, passOn_append (plain_keys hplain),
        splitKeys_interrupt hc, passOn, if_pos hkey]

/-- Ctrl+C right after an ESC is a key like another. -/
theorem interrupt_swallowed : ¬ Kept [esc, 3] := by
  intro h
  have hcalls := h.interrupts [esc] 3 [] rfl rfl (by decide)
  revert hcalls
  simp [onData, splitKeys_cons, keyLength, escLength, esc, isLineTerminator, passOn]

end Mtmux.Cli.Keys
