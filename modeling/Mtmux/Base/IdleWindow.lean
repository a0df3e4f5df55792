import Mtmux.Base.Machine

/-! One idle period kept twice: by a record of when something was last seen, which is written at
most once in an interval, and by a window in a table that slides with every use. The table is lost on
a restart and made anew of what the record has left. -/

/-- `noted` is when the record was last written since the restart; a use moves the end of the window
to `renewal` after it. -/
structure IdleWindow where
  expiresAt : Nat
  renewal : Nat

structure IdleClocks where
  seen : Nat
  noted : Option Nat
  window : Option IdleWindow

/-- Time passes, and then there is a use or a restart. -/
inductive IdleEvent where
  | uses (after : Nat)
  | restarts (after : Nat)

structure IdleMoment where
  now : Nat
  clocks : IdleClocks

namespace IdleClocks
variable (period interval : Nat) (lasts : Nat → Bool)

/-- What the record has left; the subtraction stops at zero. -/
def remaining (c : IdleClocks) (now : Nat) : Nat := period + c.seen - now

/-- `lasts` is what else the table looks at. -/
def accepts (c : IdleClocks) (now : Nat) : Bool :=
  c.window.any (fun w => decide (now < w.expiresAt)) && lasts now

def due (c : IdleClocks) (now : Nat) : Bool := !c.noted.any fun noted => decide (now < noted + interval)

def uses (c : IdleClocks) (now : Nat) : IdleClocks :=
  match c.window with
  | none => c
  | some w =>
    if c.accepts lasts now then
      let window := some ⟨now + w.renewal, w.renewal⟩
      if c.due interval now then ⟨now, some now, window⟩ else { c with window := window }
    else { c with window := none }

def restarts (c : IdleClocks) (now : Nat) : IdleClocks where
  seen := c.seen
  noted := none
  window :=
    if c.remaining period now = 0 ∨ lasts now = false then none
    else some ⟨now + c.remaining period now, c.remaining period now⟩

/-- While the record has something left the table accepts, and it does not accept for longer than an
interval more. -/
def Agrees (c : IdleClocks) (now : Nat) : Prop :=
  ∀ t, now ≤ t → (0 < c.remaining period t → c.accepts lasts t = true) ∧
    (c.accepts lasts t = true → t ≤ c.seen + period + interval)

/-- A use that is accepted renews by the whole period; where it is written down nothing else ends
before that. -/
def Whole (c : IdleClocks) (now : Nat) : Prop :=
  c.accepts lasts now = true → (∀ w, c.window = some w → w.renewal = period) ∧
    (c.due interval now = true → ∀ t, now ≤ t → t < now + period → lasts t = true)

/-- What every step keeps as long as the uses renew by the whole period. -/
structure Sync (c : IdleClocks) (now : Nat) : Prop where
  seen : c.seen ≤ now
  noted : ∀ noted, c.noted = some noted → noted = c.seen
  covered : now < c.seen + period → (∃ w, c.window = some w ∧ c.seen + period ≤ w.expiresAt) ∧
    ∀ t, now ≤ t → t < c.seen + period → lasts t = true
  bounded : ∀ w, c.window = some w → w.expiresAt ≤ c.seen + period + interval
  renewal : ∀ w, c.window = some w → w.renewal ≤ period
  renewed : ∀ w, c.window = some w → c.noted ≠ none → w.renewal = period

variable {period interval lasts} {c : IdleClocks} {now : Nat}

theorem accepts_iff {t : Nat} : c.accepts lasts t = true ↔
    (∃ w, c.window = some w ∧ t < w.expiresAt) ∧ lasts t = true := by
  rw [accepts, Bool.and_eq_true]
  cases c.window with
  | none | some _ => simp

theorem due_eq_false {t : Nat} : c.due interval t = false ↔ ∃ noted, c.noted = some noted ∧ t < noted + interval := by
  rw [due]
  cases c.noted with
  | none | some _ => simp

theorem due_iff {t : Nat} : c.due interval t = true ↔ ∀ noted, c.noted = some noted → noted + interval ≤ t := by
  rw [due]
  cases c.noted with
  | none | some _ => simp

theorem uses_accepted {w : IdleWindow} (hw : c.window = some w) (ha : c.accepts lasts now = true) :
    c.uses interval lasts now =
      if c.due interval now then ⟨now, some now, some ⟨now + w.renewal, w.renewal⟩⟩
      else { c with window := some ⟨now + w.renewal, w.renewal⟩ } := by
  unfold uses
  rw [hw]
  simp [ha]

theorem uses_refused (ha : c.accepts lasts now = false) : c.uses interval lasts now = { c with window := none } := by
  unfold uses
  cases hw : c.window with
  | none =>
    obtain ⟨seen, noted, window⟩ := c
    cases hw
    rfl
  | some w => simp [ha]

namespace Sync

section
variable (h : Sync period interval lasts c now)
include h

theorem later {t : Nat} (ht : now ≤ t) : Sync period interval lasts c t where
  seen := Nat.le_trans h.seen ht
  __ := h
  covered := by
    intro hlt
    obtain ⟨hw, hlasts⟩ := h.covered (by omega)
    exact ⟨hw, fun u hu hlt => hlasts u (by omega) hlt⟩

theorem agrees : Agrees period interval lasts c now := by
  intro t ht
  constructor
  · intro hleft
    have hlt : t < c.seen + period := by
      unfold remaining at hleft
      omega
    obtain ⟨⟨w, hw, hexpires⟩, hlasts⟩ := h.covered (by omega)
    exact accepts_iff.2 ⟨⟨w, hw, by omega⟩, hlasts t ht hlt⟩
  · intro ha
    obtain ⟨⟨w, hw, hlt⟩, -⟩ := accepts_iff.1 ha
    have hbound := h.bounded w hw
    omega

theorem uses (hwhole : Whole period interval lasts c now) :
    Sync period interval lasts (c.uses interval lasts now) now := by
  cases ha : c.accepts lasts now with
  | false =>
    rw [uses_refused ha]
    refine ⟨h.seen, h.noted, ?_, by simp, by simp, by simp⟩
    intro hlt
    change now < c.seen + period at hlt
    obtain ⟨⟨w, hw, hexpires⟩, hlasts⟩ := h.covered hlt
    have hyes : c.accepts lasts now = true :=
      accepts_iff.2 ⟨⟨w, hw, by omega⟩, hlasts now (Nat.le_refl now) hlt⟩
    rw [ha] at hyes
    cases hyes
  | true =>
    obtain ⟨⟨w, hw, hlt⟩, -⟩ := accepts_iff.1 ha
    obtain ⟨hrenewal, hends⟩ := hwhole ha
    have hw' := hrenewal w hw
    rw [uses_accepted hw ha]
    cases hdue : c.due interval now with
    | true =>
      rw [if_pos rfl]
      refine ⟨Nat.le_refl now, by simp, ?_, ?_, ?_, ?_⟩
      · intro _
        exact ⟨⟨_, rfl, by dsimp only; omega⟩, hends hdue⟩
      · rintro w' ⟨⟩
        dsimp only
        omega
      · rintro w' ⟨⟩
        exact h.renewal w hw
      · rintro w' ⟨⟩ -
        exact hw'
    | false =>
      rw [if_neg (by simp)]
      obtain ⟨noted, hnoted, hrecent⟩ := due_eq_false.1 hdue
      have hseen := h.noted noted hnoted
      have hle := h.seen
      refine ⟨h.seen, h.noted, ?_, ?_, ?_, ?_⟩
      · intro hlt
        exact ⟨⟨_, rfl, by dsimp only; omega⟩, (h.covered hlt).2⟩
      · rintro w' ⟨⟩
        dsimp only
        omega
      · rintro w' ⟨⟩
        exact h.renewal w hw
      · rintro w' ⟨⟩ -
        exact hw'

theorem restarts :
    Sync period interval lasts (c.restarts period lasts now) now := by
  have hseen := h.seen
  by_cases hgone : c.remaining period now = 0 ∨ lasts now = false
  · refine ⟨h.seen, by simp [IdleClocks.restarts], ?_, ?_, ?_, ?_⟩
    · intro hlt
      obtain ⟨-, hlasts⟩ := h.covered hlt
      cases hgone with
      | inl hgone =>
        unfold remaining at hgone
        change now < c.seen + period at hlt
        omega
      | inr hgone =>
        rw [hlasts now (Nat.le_refl now) hlt] at hgone
        cases hgone
    all_goals simp [IdleClocks.restarts, hgone]
  · have hwindow : (c.restarts period lasts now).window =
        some ⟨now + c.remaining period now, c.remaining period now⟩ := if_neg hgone
    refine ⟨h.seen, by simp [IdleClocks.restarts], ?_, ?_, ?_, ?_⟩
    · intro hlt
      change now < c.seen + period at hlt
      refine ⟨⟨_, hwindow, ?_⟩, (h.covered hlt).2⟩
      change c.seen + period ≤ now + (period + c.seen - now)
      omega
    · intro w hw
      rw [hwindow] at hw
      cases hw
      change now + (period + c.seen - now) ≤ c.seen + period + interval
      simp only [not_or, remaining] at hgone
      omega
    · intro w hw
      rw [hwindow] at hw
      cases hw
      change period + c.seen - now ≤ period
      omega
    · intro w _ hnoted
      exact absurd rfl hnoted

/-- The first use that renews by less is written down, and the record has more left than the window. -/
theorem whole
    (hagrees : Agrees period interval lasts (c.uses interval lasts now) now) : Whole period interval lasts c now := by
  intro ha
  obtain ⟨⟨w, hw, hlt⟩, -⟩ := accepts_iff.1 ha
  rw [uses_accepted hw ha] at hagrees
  constructor
  · intro w' hw'
    rw [hw] at hw'
    cases hw'
    by_contra hne
    have hnoted : c.noted = none := by
      by_contra hsome
      exact hne (h.renewed w hw hsome)
    have hdue : c.due interval now = true := by simp [due, hnoted]
    have hless := h.renewal w hw
    rw [if_pos hdue] at hagrees
    have hyes := (hagrees (now + w.renewal) (by omega)).1 (by
      change 0 < period + now - (now + w.renewal)
      omega)
    obtain ⟨⟨w', hw', hlt'⟩, -⟩ := accepts_iff.1 hyes
    cases hw'
    exact Nat.lt_irrefl _ hlt'
  · intro hdue t ht hend
    rw [if_pos hdue] at hagrees
    have hyes := (hagrees t ht).1 (by
      change 0 < period + now - t
      omega)
    exact (accepts_iff.1 hyes).2

end

end Sync
end IdleClocks

namespace IdleMoment
variable (period interval : Nat) (lasts : Nat → Bool)

def step (m : IdleMoment) : IdleEvent → IdleMoment × List Bool
  | .uses after =>
    (⟨m.now + after, m.clocks.uses interval lasts (m.now + after)⟩,
      [m.clocks.accepts lasts (m.now + after)])
  | .restarts after => (⟨m.now + after, m.clocks.restarts period lasts (m.now + after)⟩, [])

def Agrees (m : IdleMoment) : Prop := m.clocks.Agrees period interval lasts m.now

def Whole (m : IdleMoment) : IdleEvent → Prop
  | .uses after => m.clocks.Whole period interval lasts (m.now + after)
  | .restarts _ => True

def Sync (m : IdleMoment) : Prop := m.clocks.Sync period interval lasts m.now

/-- The last use was `since` ago, and the record is from an interval before it at most. -/
def Since (since : Nat) (m : IdleMoment) : Prop := m.now < since + m.clocks.seen + interval

variable {period interval lasts} {m : IdleMoment}

variable {after : Nat}

theorem whole_uses {now : Nat} {c : IdleClocks} :
    Whole period interval lasts ⟨now, c⟩ (.uses after) ↔
      c.Whole period interval lasts (now + after) := Iff.rfl

section
variable (h : Sync period interval lasts m)
include h

theorem Sync.step (e : IdleEvent) (hwhole : Whole period interval lasts m e) :
    Sync period interval lasts (m.step period interval lasts e).1 := by
  cases e with
  | uses after => exact (IdleClocks.Sync.later h (Nat.le_add_right _ _)).uses hwhole
  | restarts after => exact (IdleClocks.Sync.later h (Nat.le_add_right _ _)).restarts

theorem Sync.agrees_step_iff (e : IdleEvent) :
    Agrees period interval lasts (m.step period interval lasts e).1 ↔ Whole period interval lasts m e := by
  constructor
  · intro hagrees
    cases e with
    | uses after => exact (IdleClocks.Sync.later h (Nat.le_add_right _ _)).whole hagrees
    | restarts after => trivial
  · intro hwhole
    exact (h.step e hwhole).agrees

theorem Sync.use_accepted {since : Nat}
    (hsince : Since interval since m) (htime : since + after + interval ≤ period) :
    m.clocks.accepts lasts (m.now + after) = true := by
  refine (h.agrees (m.now + after) (Nat.le_add_right _ _)).1 ?_
  unfold Since at hsince
  unfold IdleClocks.remaining
  omega

theorem Sync.since_uses (hinterval : 0 < interval)
    (ha : m.clocks.accepts lasts (m.now + after) = true) :
    Since interval 0 (m.step period interval lasts (.uses after)).1 := by
  obtain ⟨⟨w, hw, -⟩, -⟩ := IdleClocks.accepts_iff.1 ha
  change m.now + after < 0 + (m.clocks.uses interval lasts (m.now + after)).seen + interval
  rw [IdleClocks.uses_accepted hw ha]
  cases hdue : m.clocks.due interval (m.now + after) with
  | true =>
    rw [if_pos rfl]
    dsimp only
    omega
  | false =>
    rw [if_neg (by simp)]
    obtain ⟨noted, hnoted, hrecent⟩ := IdleClocks.due_eq_false.1 hdue
    have hseen := IdleClocks.Sync.noted h noted hnoted
    dsimp only
    omega

end

theorem since_restarts {since : Nat} (hsince : Since interval since m) :
    Since interval (since + after) (m.step period interval lasts (.restarts after)).1 := by
  unfold Since at hsince ⊢
  change m.now + after < since + after + m.clocks.seen + interval
  omega

end IdleMoment

/-- No use comes later than this after the one before it. -/
def KeptUp (period interval : Nat) : (since : Nat) → List IdleEvent → Prop
  | _, [] => True
  | since, .uses after :: es => since + after + interval ≤ period ∧ KeptUp period interval 0 es
  | since, .restarts after :: es => KeptUp period interval (since + after) es
