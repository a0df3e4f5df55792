import Mathlib.Data.List.Nodup
import Mtmux.Crypto.Frames

/-! Every sealer there is, with overlapping calls of `seal` on each, and the encryptions
they make. A counter is allotted when `seal` is called; the encryption waits for the key. -/
namespace Mtmux.Crypto
open List Option

variable (P : Primitives)

/-- HKDF takes no two keys, salts or labels to one subkey. -/
structure Primitives.Separating (P : Primitives) : Prop where
  subkey : ∀ {key key' salt salt' subkey : Bytes} {label label' : String},
    deriveSubkey P key salt label = some subkey → deriveSubkey P key' salt' label' = some subkey →
    key = key' ∧ salt = salt' ∧ label = label'

structure Encryption where
  sealer : Nat
  key : Bytes
  direction : Direction
  counter : Nat
  data : Bytes

def Encryption.iv (e : Encryption) : Bytes := nonceFor e.direction e.counter

structure SealCall where
  counter : Nat
  plaintext : Bytes

/-- A sealer, what it was made from, what it was given to seal and the calls under way. -/
structure Sealing where
  sessionKey : Bytes
  purpose : SubkeyPurpose
  sealer : FrameSealer
  plaintexts : List Bytes
  pending : List SealCall

namespace Sealing

def create (key : Bytes) (direction : Direction) (salt : Bytes) (purpose : SubkeyPurpose) :
    Option Sealing :=
  (FrameSealer.create P key direction salt purpose).map fun sealer => ⟨key, purpose, sealer, [], []⟩

/-- `seal` as far as its first `await`. -/
def call (g : Sealing) (plaintext : Bytes) : Sealing :=
  if maxCounter < g.sealer.counter then g
  else
    { g with
      sealer := { g.sealer with counter := g.sealer.counter + 1 }
      plaintexts := g.plaintexts ++ [plaintext]
      pending := g.pending ++ [⟨g.sealer.counter, plaintext⟩] }

def finish (i counter : Nat) (g : Sealing) : Option (Sealing × Encryption) :=
  (g.pending.find? (·.counter = counter)).map fun c =>
    ({ g with pending := g.pending.filter (·.counter ≠ counter) },
      ⟨i, g.sealer.key, g.sealer.direction, c.counter, c.plaintext⟩)

end Sealing

structure Sealers where
  sealings : List Sealing
  encryptions : List Encryption

inductive SealEvent where
  | create (key : Bytes) (direction : Direction) (salt : Bytes) (purpose : SubkeyPurpose)
  | call (i : Nat) (plaintext : Bytes)
  | encrypt (i counter : Nat)
  | once (key : Bytes) (direction : Direction) (salt plaintext : Bytes) (purpose : SubkeyPurpose)

/-- The salt a constructor draws. -/
def SealEvent.salt? : SealEvent → Option Bytes
  | .create _ _ salt _ | .once _ _ salt _ _ => some salt
  | .call _ _ | .encrypt _ _ => none

namespace Sealers

def empty : Sealers := ⟨[], []⟩

def update (w : Sealers) (i : Nat) (g : Sealing) : Sealers :=
  { w with sealings := w.sealings.set i g }

def create (w : Sealers) (key : Bytes) (direction : Direction) (salt : Bytes)
    (purpose : SubkeyPurpose) : Sealers :=
  match Sealing.create P key direction salt purpose with
  | none => w
  | some g => { w with sealings := w.sealings ++ [g] }

def call (w : Sealers) (i : Nat) (plaintext : Bytes) : Sealers :=
  match w.sealings[i]? with
  | none => w
  | some g => w.update i (g.call plaintext)

def encrypt (w : Sealers) (i counter : Nat) : Sealers :=
  match w.sealings[i]?.bind (·.finish i counter) with
  | none => w
  | some (g, e) => { w.update i g with encryptions := w.encryptions ++ [e] }

def step (w : Sealers) : SealEvent → Sealers
  | .create key direction salt purpose => w.create P key direction salt purpose
  | .call i plaintext => w.call i plaintext
  | .encrypt i counter => w.encrypt i counter
  | .once key direction salt plaintext purpose =>
    (w.create P key direction salt purpose).call w.sealings.length plaintext

def run (events : List SealEvent) : Sealers := events.foldl (step P) empty

end Sealers

def saltsOf (events : List SealEvent) : List Bytes := events.filterMap SealEvent.salt?

/-- What was called is numbered from 0 in order, and a call under way is one of these. -/
structure Sealing.Sound (P : Primitives) (g : Sealing) : Prop where
  subkey : deriveSubkey P g.sessionKey g.sealer.salt (subkeyLabel g.purpose g.sealer.direction) =
    some g.sealer.key
  counted : g.sealer.counter = g.plaintexts.length
  within : g.plaintexts.length ≤ maxCounter + 1
  given : ∀ c ∈ g.pending, g.plaintexts[c.counter]? = some c.plaintext

structure Sealing.Made (g : Sealing) (e : Encryption) : Prop where
  key : e.key = g.sealer.key
  direction : e.direction = g.sealer.direction
  given : g.plaintexts[e.counter]? = some e.data
  done : e.counter ∉ g.pending.map SealCall.counter

/-- `salts` are those drawn so far. -/
structure Sealers.Sound (P : Primitives) (salts : List Bytes) (w : Sealers) : Prop where
  each : ∀ {i : Nat} {g : Sealing}, w.sealings[i]? = some g → g.Sound P
  drawn : ∀ {i : Nat} {g : Sealing}, w.sealings[i]? = some g → g.sealer.salt ∈ salts
  apart : ∀ {i j : Nat} {g h : Sealing}, w.sealings[i]? = some g → w.sealings[j]? = some h →
    g.sealer.salt = h.sealer.salt → i = j
  made : ∀ e ∈ w.encryptions, ∃ g, w.sealings[e.sealer]? = some g ∧ g.Made e
  once : (w.encryptions.map fun e => (e.sealer, e.counter)).Nodup

variable {P}

theorem nonceFor_inj {direction direction' : Direction} {counter counter' : Nat}
    (hmax : counter ≤ maxCounter) (hmax' : counter' ≤ maxCounter)
    (h : nonceFor direction counter = nonceFor direction' counter') : direction = direction' ∧ counter = counter' := by
  have htag : directionTag direction = directionTag direction' ∧
      bigEndianBytes counterBytes counter = bigEndianBytes counterBytes counter' := by
    apply append_inj h
    cases direction <;> cases direction' <;> rfl
  constructor
  · have hd := htag.1
    cases direction <;> cases direction' <;> first | rfl | exact absurd hd (by decide)
  · have hread := readCounter_append hmax []
    rw [htag.2, readCounter_append hmax' []] at hread
    exact hread.symm

theorem length_nonceFor (direction : Direction) (counter : Nat) : (nonceFor direction counter).length = 12 := by
  rw [nonceFor, length_append, length_bigEndianBytes]
  cases direction <;> rfl

theorem subkeyLabel_inj {p p' : SubkeyPurpose} {d d' : Direction}
    (h : subkeyLabel p d = subkeyLabel p' d') : p = p' ∧ d = d' := by
  cases p <;> cases d <;> cases p' <;> cases d' <;>
    first | exact ⟨rfl, rfl⟩ | exact absurd h (by decide)

theorem Sealing.create_sound {key salt : Bytes} {direction : Direction} {purpose : SubkeyPurpose}
    {g : Sealing} (h : create P key direction salt purpose = some g) : g.Sound P ∧ g.sealer.salt = salt := by
  obtain ⟨sealer, hsealer, rfl⟩ := map_eq_some_iff.1 h
  obtain ⟨subkey, hsub, rfl⟩ := map_eq_some_iff.1 hsealer
  exact ⟨⟨hsub, rfl, Nat.zero_le _, fun c hc => absurd hc not_mem_nil⟩, rfl⟩

namespace Sealing

variable {g : Sealing}

theorem call_salt (plaintext : Bytes) : (g.call plaintext).sealer.salt = g.sealer.salt := by
  unfold call
  split <;> rfl

theorem Sound.pending_lt (h : g.Sound P) {c : SealCall} (hc : c ∈ g.pending) : c.counter < g.plaintexts.length :=
  (List.getElem?_eq_some_iff.1 (h.given c hc)).1

theorem Sound.call (h : g.Sound P) (plaintext : Bytes) : (g.call plaintext).Sound P := by
  unfold Sealing.call
  split
  · exact h
  · rename_i hmax
    have hcounted := h.counted
    refine ⟨h.subkey, ?_, ?_, ?_⟩
    · rw [length_append, length_singleton, hcounted]
    · rw [length_append, length_singleton]
      omega
    · intro c hc
      cases mem_append.1 hc with
      | inl hold =>
        rw [List.getElem?_append_left (h.pending_lt hold)]
        exact h.given c hold
      | inr hnew =>
        rw [mem_singleton.1 hnew, hcounted]
        exact List.getElem?_concat_length

theorem Made.call (h : g.Sound P) {e : Encryption} (he : g.Made e) (plaintext : Bytes) : (g.call plaintext).Made e := by
  have hlt := (List.getElem?_eq_some_iff.1 he.given).1
  have hcounted := h.counted
  unfold Sealing.call
  split
  · exact he
  · refine ⟨he.key, he.direction, ?_, ?_⟩
    · rw [List.getElem?_append_left hlt]
      exact he.given
    · rw [map_append, mem_append, not_or]
      refine ⟨he.done, ?_⟩
      intro hmem
      have heq := mem_singleton.1 hmem
      simp only at heq
      omega

variable {g' : Sealing} {e : Encryption} {i counter : Nat}

theorem finish_cases (h : g.finish i counter = some (g', e)) :
    ∃ c ∈ g.pending, c.counter = counter ∧
      g' = { g with pending := g.pending.filter (·.counter ≠ counter) } ∧
      e = ⟨i, g.sealer.key, g.sealer.direction, c.counter, c.plaintext⟩ := by
  obtain ⟨c, hc, heq⟩ := map_eq_some_iff.1 h
  have hcounter : c.counter = counter := by simpa using List.find?_some hc
  exact ⟨c, mem_of_find?_eq_some hc, hcounter, (Prod.mk.inj heq).1.symm,
    (Prod.mk.inj heq).2.symm⟩

theorem finish_sealer (hf : g.finish i counter = some (g', e)) : g'.sealer = g.sealer := by
  obtain ⟨c, -, -, rfl, -⟩ := finish_cases hf
  rfl

theorem Sound.finish (h : g.Sound P) (hf : g.finish i counter = some (g', e)) : g'.Sound P := by
  obtain ⟨c, -, -, rfl, -⟩ := finish_cases hf
  exact { h with given := fun c hc => h.given c (mem_filter.1 hc).1 }

theorem Made.finish (hf : g.finish i counter = some (g', e)) {e' : Encryption} (he : g.Made e') : g'.Made e' := by
  obtain ⟨c, -, -, rfl, -⟩ := finish_cases hf
  refine { he with done := ?_ }
  intro hmem
  exact he.done ((filter_sublist.map SealCall.counter).subset hmem)

theorem made_finish (h : g.Sound P) (hf : g.finish i counter = some (g', e)) :
    e.sealer = i ∧ e.counter ∈ g.pending.map SealCall.counter ∧ g'.Made e := by
  obtain ⟨c, hc, hcounter, rfl, rfl⟩ := finish_cases hf
  refine ⟨rfl, mem_map_of_mem hc, rfl, rfl, h.given c hc, ?_⟩
  intro hmem
  obtain ⟨c', hc', heq⟩ := mem_map.1 hmem
  have hne : c'.counter ≠ counter := by simpa using (mem_filter.1 hc').2
  exact hne (heq.trans hcounter)

end Sealing

namespace Sealers

variable {salts : List Bytes} {w : Sealers}

theorem sound_empty : Sound P salts empty :=
  ⟨fun h => by simp [empty] at h, fun h => by simp [empty] at h, fun h => by simp [empty] at h,
    fun e he => absurd he not_mem_nil, nodup_nil⟩

theorem Sound.mono (h : w.Sound P salts) (more : List Bytes) : w.Sound P (more ++ salts) :=
  { h with drawn := fun hg => mem_append_right _ (h.drawn hg) }

variable {i : Nat} {g g' : Sealing}

theorem update_cases {j : Nat} {h : Sealing} (hg : w.sealings[i]? = some g)
    (hh : (w.update i g').sealings[j]? = some h) : i = j ∧ h = g' ∨ i ≠ j ∧ w.sealings[j]? = some h := by
  have hi := (List.getElem?_eq_some_iff.1 hg).1
  simp only [update, List.getElem?_set, hi, if_true] at hh
  split at hh
  · rename_i hij
    exact Or.inl ⟨hij, (Option.some.inj hh).symm⟩
  · rename_i hij
    exact Or.inr ⟨hij, hh⟩

theorem update_self (g' : Sealing) (hg : w.sealings[i]? = some g) : (w.update i g').sealings[i]? = some g' :=
  List.getElem?_set_self (List.getElem?_eq_some_iff.1 hg).1

theorem update_other {j : Nat} (g' : Sealing) (h : i ≠ j) : (w.update i g').sealings[j]? = w.sealings[j]? :=
  List.getElem?_set_ne h

section
variable (h : w.Sound P salts)
include h

/-- A sealer replaced by one of its salt that keeps to its encryptions. -/
theorem Sound.update
    (hg : w.sealings[i]? = some g) (hsound : g'.Sound P) (hsalt : g'.sealer.salt = g.sealer.salt)
    (hmade : ∀ {e}, g.Made e → g'.Made e) : (w.update i g').Sound P salts := by
  -- every sealer has the salt it had
  have hback : ∀ {j : Nat} {f : Sealing}, (w.update i g').sealings[j]? = some f →
      ∃ f', w.sealings[j]? = some f' ∧ f.sealer.salt = f'.sealer.salt := by
    intro j f hf
    cases update_cases hg hf with
    | inl hself => exact ⟨g, hself.1 ▸ hg, by rw [hself.2, hsalt]⟩
    | inr hother => exact ⟨f, hother.2, rfl⟩
  refine ⟨?_, ?_, ?_, ?_, h.once⟩
  · intro j f hf
    cases update_cases hg hf with
    | inl hself => exact hself.2 ▸ hsound
    | inr hother => exact h.each hother.2
  · intro j f hf
    obtain ⟨f', hf', heq⟩ := hback hf
    exact heq ▸ h.drawn hf'
  · intro j k f f' hf hf' heq
    obtain ⟨a, ha, hfa⟩ := hback hf
    obtain ⟨b, hb, hfb⟩ := hback hf'
    exact h.apart ha hb (by rw [← hfa, heq, hfb])
  · intro e he
    obtain ⟨f, hf, hmf⟩ := h.made e he
    by_cases hi : i = e.sealer
    · subst hi
      rw [hg] at hf
      cases hf
      exact ⟨g', update_self g' hg, hmade hmf⟩
    · exact ⟨f, (update_other g' hi).trans hf, hmf⟩

/-- A constructor that drew a salt of its own. -/
theorem Sound.create {key salt : Bytes} {direction : Direction}
    {purpose : SubkeyPurpose} (hnew : salt ∉ salts) :
    (w.create P key direction salt purpose).Sound P (salt :: salts) := by
  have hold : w.Sound P (salt :: salts) := h.mono [salt]
  unfold Sealers.create
  split
  · exact hold
  · rename_i g hg
    obtain ⟨hsound, hsalt⟩ := Sealing.create_sound hg
    have hcases : ∀ {j : Nat} {f : Sealing}, (w.sealings ++ [g])[j]? = some f →
        w.sealings[j]? = some f ∨ j = w.sealings.length ∧ f = g := by
      intro j f hf
      by_cases hj : j < w.sealings.length
      · exact Or.inl (by rwa [List.getElem?_append_left hj] at hf)
      · rw [List.getElem?_append_right (Nat.le_of_not_lt hj)] at hf
        obtain ⟨hlt, hget⟩ := List.getElem?_eq_some_iff.1 hf
        rw [length_singleton] at hlt
        rw [getElem_singleton] at hget
        exact Or.inr ⟨by omega, hget.symm⟩
    have hfresh : ∀ {j : Nat} {f : Sealing}, w.sealings[j]? = some f → f.sealer.salt ≠ salt :=
      fun hf heq => hnew (heq ▸ h.drawn hf)
    refine ⟨?_, ?_, ?_, ?_, h.once⟩
    · intro j f hf
      cases hcases hf with
      | inl hw => exact h.each hw
      | inr hg' => exact hg'.2 ▸ hsound
    · intro j f hf
      cases hcases hf with
      | inl hw => exact hold.drawn hw
      | inr hg' => exact mem_cons.2 (Or.inl (hg'.2 ▸ hsalt))
    · intro j k f f' hf hf' heq
      cases hcases hf with
      | inl hw =>
        cases hcases hf' with
        | inl hw' => exact h.apart hw hw' heq
        | inr hg' => exact absurd (heq.trans (hg'.2 ▸ hsalt)) (hfresh hw)
      | inr hg' =>
        cases hcases hf' with
        | inl hw' => exact absurd (heq.symm.trans (hg'.2 ▸ hsalt)) (hfresh hw')
        | inr hg'' => exact hg'.1.trans hg''.1.symm
    · intro e he
      obtain ⟨f, hf, hmade⟩ := h.made e he
      have hlt := (List.getElem?_eq_some_iff.1 hf).1
      exact ⟨f, (List.getElem?_append_left hlt).trans hf, hmade⟩

theorem Sound.call (i : Nat) (plaintext : Bytes) : (w.call i plaintext).Sound P salts := by
  unfold Sealers.call
  split
  · exact h
  · rename_i g hg
    have hsound := h.each hg
    exact h.update hg (hsound.call plaintext) (Sealing.call_salt plaintext)
      fun he => he.call hsound plaintext

theorem Sound.encrypt (i counter : Nat) : (w.encrypt i counter).Sound P salts := by
  unfold Sealers.encrypt
  split
  · exact h
  · rename_i g' e hf
    obtain ⟨g, hg, hfin⟩ := bind_eq_some_iff.1 hf
    have hupdate := h.update hg ((h.each hg).finish hfin)
      (congrArg FrameSealer.salt (Sealing.finish_sealer hfin)) (Sealing.Made.finish hfin)
    obtain ⟨hsealer, hpending, hmade⟩ := Sealing.made_finish (h.each hg) hfin
    refine { hupdate with made := ?_, once := ?_ }
    · intro e' he'
      cases mem_append.1 he' with
      | inl hold => exact hupdate.made e' hold
      | inr hnew =>
        rw [mem_singleton.1 hnew, hsealer]
        exact ⟨g', update_self g' hg, hmade⟩
    · -- its counter was still under way, so no encryption of the sealer has had it
      rw [map_append, map_singleton]
      apply nodup_append.2
      refine ⟨h.once, nodup_singleton _, ?_⟩
      intro a ha b hb hab
      obtain ⟨e', he', rfl⟩ := mem_map.1 ha
      rw [mem_singleton.1 hb] at hab
      obtain ⟨f, hf', hmade'⟩ := h.made e' he'
      rw [(Prod.mk.inj hab).1, hsealer, hg] at hf'
      cases hf'
      apply hmade'.done
      rw [(Prod.mk.inj hab).2]
      exact hpending

theorem Sound.step (event : SealEvent) (hnew : ∀ salt ∈ event.salt?, salt ∉ salts) :
    (w.step P event).Sound P (event.salt?.toList ++ salts) := by
  cases event with
  | create key direction salt purpose => exact h.create (hnew salt rfl)
  | call i plaintext => exact h.call i plaintext
  | encrypt i counter => exact h.encrypt i counter
  | once key direction salt plaintext purpose => exact (h.create (hnew salt rfl)).call _ plaintext

end

theorem run_snoc (events : List SealEvent) (event : SealEvent) :
    run P (events ++ [event]) = (run P events).step P event := by
  rw [run, foldl_append]
  rfl

theorem saltsOf_snoc (events : List SealEvent) (event : SealEvent) :
    saltsOf (events ++ [event]) = saltsOf events ++ event.salt?.toList := by
  rw [saltsOf, filterMap_append]
  cases event <;> rfl

theorem fresh_last {events : List SealEvent} {event : SealEvent} (hsalts : (saltsOf (events ++ [event])).Nodup) :
    (saltsOf events).Nodup ∧ ∀ salt ∈ event.salt?, salt ∉ (saltsOf events).reverse := by
  rw [saltsOf_snoc] at hsalts
  obtain ⟨hbefore, -, hapart⟩ := nodup_append.1 hsalts
  refine ⟨hbefore, ?_⟩
  intro salt hsalt hmem
  exact hapart salt (mem_reverse.1 hmem) salt (mem_toList.2 hsalt) rfl

theorem sound_run (events : List SealEvent) (hsalts : (saltsOf events).Nodup) :
    (run P events).Sound P (saltsOf events).reverse := by
  induction events using List.reverseRecOn with
  | nil => exact sound_empty
  | append_singleton events event ih =>
    obtain ⟨hbefore, hnew⟩ := fresh_last hsalts
    have hrev : event.salt?.toList.reverse = event.salt?.toList := by
      cases event.salt? <;> rfl
    rw [run_snoc, saltsOf_snoc, reverse_append, hrev]
    exact (ih hbefore).step event hnew

def Accounted (w : Sealers) : Prop :=
  ∀ {i : Nat} {g : Sealing}, w.sealings[i]? = some g →
    ∀ {counter : Nat} {plaintext : Bytes}, g.plaintexts[counter]? = some plaintext →
      counter ∈ g.pending.map SealCall.counter ∨
        ∃ e ∈ w.encryptions, e.sealer = i ∧ e.counter = counter ∧ e.data = plaintext

theorem Accounted.create (h : w.Accounted) (key : Bytes) (direction : Direction) (salt : Bytes)
    (purpose : SubkeyPurpose) : (w.create P key direction salt purpose).Accounted := by
  unfold Sealers.create
  split
  · exact h
  · rename_i g hg
    intro i f hf counter plaintext hgiven
    by_cases hi : i < w.sealings.length
    · rw [List.getElem?_append_left hi] at hf
      exact h hf hgiven
    · rw [List.getElem?_append_right (Nat.le_of_not_lt hi)] at hf
      have hmem := mem_of_getElem? hf
      obtain ⟨sealer, -, rfl⟩ := map_eq_some_iff.1 hg
      rw [mem_singleton.1 hmem] at hgiven
      simp at hgiven

theorem Accounted.call (h : w.Accounted) (hw : w.Sound P salts) (i : Nat) (plaintext : Bytes) :
    (w.call i plaintext).Accounted := by
  unfold Sealers.call
  split
  · exact h
  · rename_i g hg
    intro j f hf counter given hgiven
    cases update_cases hg hf with
    | inr hother => exact h hother.2 hgiven
    | inl hself =>
      obtain ⟨rfl, rfl⟩ := hself
      have hcounted := (hw.each hg).counted
      unfold Sealing.call at hgiven ⊢
      split at hgiven
      · rename_i hmax
        rw [if_pos hmax]
        exact h hg hgiven
      · rename_i hmax
        rw [if_neg hmax]
        simp only [map_append, mem_append, map_singleton, mem_singleton]
        by_cases hlt : counter < g.plaintexts.length
        · rw [List.getElem?_append_left hlt] at hgiven
          exact (h hg hgiven).imp_left Or.inl
        · have hlast := (List.getElem?_eq_some_iff.1 hgiven).1
          rw [length_append, length_singleton] at hlast
          exact Or.inl (Or.inr (by omega))

theorem Accounted.encrypt (h : w.Accounted) (hw : w.Sound P salts) (i counter : Nat) :
    (w.encrypt i counter).Accounted := by
  unfold Sealers.encrypt
  split
  · exact h
  · rename_i g' e hf
    obtain ⟨g, hg, hfin⟩ := bind_eq_some_iff.1 hf
    obtain ⟨c, hc, hcounter, rfl, rfl⟩ := Sealing.finish_cases hfin
    have hgrow : ∀ {e' : Encryption}, e' ∈ w.encryptions →
        e' ∈ w.encryptions ++ [⟨i, g.sealer.key, g.sealer.direction, c.counter, c.plaintext⟩] :=
      fun he' => mem_append_left _ he'
    intro j f hf' n plaintext hgiven
    cases update_cases hg hf' with
    | inr hother =>
      refine (h hother.2 hgiven).imp_right ?_
      rintro ⟨e', he', hrest⟩
      exact ⟨e', hgrow he', hrest⟩
    | inl hself =>
      obtain ⟨rfl, rfl⟩ := hself
      cases h hg hgiven with
      | inr hdone =>
        obtain ⟨e', he', hrest⟩ := hdone
        exact Or.inr ⟨e', hgrow he', hrest⟩
      | inl hpending =>
        by_cases hn : n = counter
        · -- the call that encrypts is this one
          have hsame := (hw.each hg).given c hc
          rw [hcounter, ← hn, hgiven] at hsame
          exact Or.inr ⟨_, mem_append_right _ (mem_singleton.2 rfl), rfl,
            hcounter.trans hn.symm, (Option.some.inj hsame).symm⟩
        · obtain ⟨d, hd, hdn⟩ := mem_map.1 hpending
          refine Or.inl (mem_map.2 ⟨d, mem_filter.2 ⟨hd, ?_⟩, hdn⟩)
          simpa [hdn] using hn

theorem Accounted.step (h : w.Accounted) (hw : w.Sound P salts) (event : SealEvent)
    (hnew : ∀ salt ∈ event.salt?, salt ∉ salts) : (w.step P event).Accounted := by
  cases event with
  | create key direction salt purpose => exact Accounted.create h key direction salt purpose
  | call i plaintext => exact Accounted.call h hw i plaintext
  | encrypt i counter => exact Accounted.encrypt h hw i counter
  | once key direction salt plaintext purpose =>
    exact Accounted.call (Accounted.create h key direction salt purpose)
      (hw.create (hnew salt rfl)) w.sealings.length plaintext

theorem accounted_run (events : List SealEvent) (hsalts : (saltsOf events).Nodup) : (run P events).Accounted := by
  induction events using List.reverseRecOn with
  | nil => exact fun h => by simp [run, empty] at h
  | append_singleton events event ih =>
    obtain ⟨hbefore, hnew⟩ := fresh_last hsalts
    rw [run_snoc]
    exact Accounted.step (ih hbefore) (sound_run events hbefore) event hnew

theorem Sound.sealer_unique (h : w.Sound P salts) (hP : P.Separating) {j : Nat}
    (hi : w.sealings[i]? = some g) (hj : w.sealings[j]? = some g') (hkey : g.sealer.key = g'.sealer.key) : i = j := by
  have hsub := (h.each hi).subkey
  rw [hkey] at hsub
  exact h.apart hi hj (hP.subkey hsub (h.each hj).subkey).2.1

theorem Sound.counter_le (h : w.Sound P salts) {e : Encryption} (he : e ∈ w.encryptions) : e.counter ≤ maxCounter := by
  obtain ⟨g, hg, hmade⟩ := h.made e he
  have hlt := (List.getElem?_eq_some_iff.1 hmade.given).1
  have hwithin := (h.each hg).within
  omega

theorem Sound.sealer_of_nonce (h : w.Sound P salts) (hP : P.Separating) {e e' : Encryption}
    (he : e ∈ w.encryptions) (he' : e' ∈ w.encryptions) (heq : (e.key, e.iv) = (e'.key, e'.iv)) :
    (e.sealer, e.counter) = (e'.sealer, e'.counter) := by
  obtain ⟨hkey, hiv⟩ := Prod.mk.inj heq
  obtain ⟨g, hg, hmade⟩ := h.made e he
  obtain ⟨g', hg', hmade'⟩ := h.made e' he'
  have hsealer := h.sealer_unique hP hg hg' (by rw [← hmade.key, hkey, hmade'.key])
  have hcounter := (nonceFor_inj (h.counter_le he) (h.counter_le he') hiv).2
  rw [hsealer, hcounter]

/-- No subkey meets a nonce twice, whatever calls overlap. -/
theorem nonces_apart (hP : P.Separating) (events : List SealEvent) (hsalts : (saltsOf events).Nodup) :
    ((run P events).encryptions.map fun e => (e.key, e.iv)).Nodup ∧
      ∀ e ∈ (run P events).encryptions, e.iv.length = 12 ∧ e.counter ≤ maxCounter := by
  have hsound := sound_run (P := P) events hsalts
  constructor
  · have hnodup := List.Nodup.of_map _ hsound.once
    apply List.Nodup.map_on _ hnodup
    intro e he e' he' heq
    exact inj_on_of_nodup_map hsound.once he he' (hsound.sealer_of_nonce hP he he' heq)
  · intro e he
    exact ⟨length_nonceFor e.direction e.counter, hsound.counter_le he⟩

/-- A derivation that writes out what it is given. -/
def plainPrimitives : Primitives where
  sha256 := id
  sha512 := id
  hmac key message := key ++ message
  hkdf ikm salt info _ := ikm ++ salt ++ info
  publicKey := id
  sharedSecret secret publicKey := some (secret ++ publicKey)

theorem plainPrimitives_separating : plainPrimitives.Separating := by
  have hparts : ∀ {key salt subkey : Bytes} {label : String},
      deriveSubkey plainPrimitives key salt label = some subkey →
      key.length = keyBytes ∧ salt.length = subkeySaltBytes ∧
        key ++ salt ++ utf8ToBytes label = subkey := by
    intro key salt subkey label h
    unfold deriveSubkey at h
    split at h
    · cases h
    · rename_i hkey
      split at h
      · cases h
      · rename_i hsalt
        exact ⟨not_not.1 hkey, not_not.1 hsalt, Option.some.inj h⟩
  refine ⟨fun h h' => ?_⟩
  obtain ⟨hkey, hsalt, rfl⟩ := hparts h
  obtain ⟨hkey', hsalt', heq⟩ := hparts h'
  rw [append_assoc, append_assoc] at heq
  obtain ⟨hk, hrest⟩ := append_inj heq (by rw [hkey, hkey'])
  obtain ⟨hs, hl⟩ := append_inj hrest (by rw [hsalt, hsalt'])
  exact ⟨hk.symm, hs.symm, (utf8ToBytes_inj hl).symm⟩

/-- Two sealers of one session key and a descriptor, the calls of the first overlapping. -/
def reconnected : List SealEvent :=
  [.create (List.replicate 32 7) .c2s (List.replicate 16 1) .frame,
   .call 0 [10], .call 0 [11],
   .create (List.replicate 32 7) .c2s (List.replicate 16 2) .frame,
   .call 1 [12], .encrypt 0 1, .encrypt 1 0, .encrypt 0 0,
   .once (List.replicate 32 7) .s2c (List.replicate 16 3) [13] .descriptor, .encrypt 2 0]

theorem reconnected_nonces_apart : ((run plainPrimitives reconnected).encryptions.map fun e => (e.sealer, e.counter)) =
        [(0, 1), (1, 0), (0, 0), (2, 0)] ∧
      ((run plainPrimitives reconnected).encryptions.map fun e => (e.key, e.iv)).Nodup :=
  ⟨by decide +kernel, (nonces_apart plainPrimitives_separating reconnected (by decide)).1⟩

end Sealers
end Mtmux.Crypto
