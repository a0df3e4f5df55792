import Mathlib.Data.List.Infix
import Mtmux.Browser.TouchGestures

/-! How a drag becomes lines: a locked scroll leg by leg, from one turn of the finger to the next. -/
namespace Mtmux.Browser.Touch

/-- A scroll since it was locked or last turned round: where that was, where the finger is, which way it goes and
the lines it gave. -/
structure Leg where
  origin : ℚ
  y : ℚ
  direction : Int := 0
  lines : List Int := []

def Leg.move (leg : Leg) (y : ℚ) (lines : List Int) : Leg :=
  let moved := signOf (y - leg.y)
  if moved ≠ 0 ∧ leg.direction ≠ 0 ∧ moved ≠ leg.direction then ⟨leg.y, y, moved, lines⟩
  else { leg with
    y := y
    direction := if moved ≠ 0 then moved else leg.direction
    lines := leg.lines ++ lines }

def Leg.travelled (leg : Leg) : ℚ := leg.y - leg.origin

def linesOf (effects : List GestureEffect) : List Int :=
  effects.filterMap fun
    | .scroll lines => some lines
    | _ => none

/-- Where an input says the followed finger is. -/
def GestureState.followed (state : GestureState) : GestureInput → Option ℚ
  | .move touches _ => (state.primary touches).map (·.y)
  | _ => none

theorem trunc_nonneg {v : ℚ} (h : 0 ≤ v) : trunc v = ⌊v⌋ := if_pos h

theorem trunc_neg (v : ℚ) : trunc (-v) = -trunc v := by
  rcases lt_trichotomy v 0 with h | rfl | h
  · rw [trunc_nonneg (neg_nonneg.2 h.le), trunc, if_neg (not_le.2 h), Int.floor_neg]
  · simp [trunc]
  · rw [trunc_nonneg h.le, trunc, if_neg (by linarith), Int.ceil_neg]

theorem abs_carry (v : ℚ) : |v - trunc v| < 1 := by
  rw [abs_lt, trunc]
  split
  · have hle := Int.floor_le v
    have hlt := Int.lt_floor_add_one v
    constructor <;> linarith
  · have hle := Int.le_ceil v
    have hlt := Int.ceil_lt_add_one v
    constructor <;> linarith

theorem signOf_of_pos {v : ℚ} (h : 0 < v) : signOf v = 1 := if_pos h

theorem signOf_neg (v : ℚ) : signOf (-v) = -signOf v := by
  rcases lt_trichotomy v 0 with h | rfl | h
  · rw [signOf_of_pos (neg_pos.2 h), signOf, if_neg (not_lt.2 h.le), if_pos h, neg_neg]
  · simp [signOf]
  · rw [signOf_of_pos h, signOf, if_neg (by linarith), if_pos (by linarith)]

theorem signOf_div (v : ℚ) {h : ℚ} (hh : 0 < h) : signOf (v / h) = signOf v := by
  simp only [signOf, div_pos_iff_of_pos_right hh, div_lt_iff₀ hh, zero_mul]

/-- What is carried over does not change what a further movement the same way adds. -/
theorem trunc_carry_nonneg {v delta : ℚ} (hv : 0 ≤ v) (hdelta : 0 ≤ delta) :
    trunc (delta + (v - trunc v)) = trunc (v + delta) - trunc v ∧
      (trunc (delta + (v - trunc v)) ≠ 0 → (trunc (delta + (v - trunc v))).sign = signOf (v + delta)) := by
  have hfloor : (0 : ℚ) ≤ v - ⌊v⌋ := sub_nonneg.2 (Int.floor_le v)
  have hsum : delta + (v - ⌊v⌋) = v + delta - ⌊v⌋ := by ring
  rw [trunc_nonneg hv, trunc_nonneg (add_nonneg hdelta hfloor), trunc_nonneg (add_nonneg hv hdelta), hsum,
    Int.floor_sub_intCast]
  refine ⟨rfl, fun hne => ?_⟩
  have hmono : ⌊v⌋ ≤ ⌊v + delta⌋ := Int.floor_mono (le_add_of_nonneg_right hdelta)
  have hpos : 0 < ⌊v + delta⌋ := by
    have hv' : 0 ≤ ⌊v⌋ := Int.floor_nonneg.2 hv
    omega
  have hsum' : 0 < v + delta := lt_of_lt_of_le (by exact_mod_cast hpos) (Int.floor_le _)
  rw [signOf_of_pos hsum', Int.sign_eq_one_of_pos (by omega)]

theorem trunc_carry {v delta : ℚ} (h : 0 ≤ v ∧ 0 ≤ delta ∨ v ≤ 0 ∧ delta ≤ 0) :
    trunc (delta + (v - trunc v)) = trunc (v + delta) - trunc v ∧
      (trunc (delta + (v - trunc v)) ≠ 0 → (trunc (delta + (v - trunc v))).sign = signOf (v + delta)) := by
  rcases h with ⟨hv, hdelta⟩ | ⟨hv, hdelta⟩
  · exact trunc_carry_nonneg hv hdelta
  · have hneg := trunc_carry_nonneg (neg_nonneg.2 hv) (neg_nonneg.2 hdelta)
    have hraw : -delta + (-v - (-trunc v : Int)) = -(delta + (v - trunc v)) := by push_cast; ring
    rw [trunc_neg v, hraw, ← neg_add, trunc_neg, trunc_neg, signOf_neg, Int.sign_neg] at hneg
    exact ⟨by omega, fun hne => by have := hneg.2 (by omega); omega⟩

theorem same_way {a b : ℚ} (h : ¬(signOf b ≠ 0 ∧ signOf a ≠ 0 ∧ signOf b ≠ signOf a)) :
    (0 ≤ a ∧ 0 ≤ b ∨ a ≤ 0 ∧ b ≤ 0) ∧ signOf (a + b) = if signOf b ≠ 0 then signOf b else signOf a := by
  rcases lt_trichotomy a 0 with ha | rfl | ha
  · rcases lt_trichotomy b 0 with hb | rfl | hb
    · have hsum : ¬0 < a + b := by linarith
      simp [signOf, ha.le, hb, hb.le, not_lt.2 hb.le, hsum, add_neg ha hb]
    · simp [signOf, ha.le]
    · simp [signOf, ha, hb, not_lt.2 ha.le] at h
  · rcases le_total 0 b with hb | hb
    · exact ⟨.inl ⟨le_rfl, hb⟩, by simp [signOf]⟩
    · exact ⟨.inr ⟨le_rfl, hb⟩, by simp [signOf]⟩
  · rcases lt_trichotomy b 0 with hb | rfl | hb
    · simp [signOf, ha, hb, not_lt.2 hb.le] at h
    · simp [signOf, ha.le]
    · simp [signOf, ha.le, hb, hb.le, add_pos ha hb]

/-- A locked scroll and its leg agree: what the leg travelled is its lines and what is carried over. -/
structure Carries (config : GestureConfig) (state : GestureState) (leg : Leg) : Prop where
  phase : state.phase = .scroll
  configured : state.config = some config
  y : leg.y = state.lastY
  direction : leg.direction = state.scrollDirection
  heading : signOf leg.travelled = leg.direction
  remainder : state.scrollRemainder =
    leg.travelled / config.cellHeightPx - trunc (leg.travelled / config.cellHeightPx)
  sum : leg.lines.sum = trunc (leg.travelled / config.cellHeightPx)
  sign : ∀ n ∈ leg.lines, n ≠ 0 ∧ n.sign = leg.direction

theorem linesOf_scroll (lines : Int) :
    linesOf (if lines = 0 then [] else [.scroll lines]) = if lines = 0 then [] else [lines] := by
  split <;> rfl

/-- The same in pixels: from `d` travelled to `d + e`. -/
theorem carry_further {h d e : ℚ} (hh : 0 < h) (hway : 0 ≤ d ∧ 0 ≤ e ∨ d ≤ 0 ∧ e ≤ 0) :
    ∃ n, trunc (e / h + (d / h - trunc (d / h))) = n ∧ n = trunc ((d + e) / h) - trunc (d / h) ∧
      (n ≠ 0 → n.sign = signOf (d + e)) := by
  have hway' : 0 ≤ d / h ∧ 0 ≤ e / h ∨ d / h ≤ 0 ∧ e / h ≤ 0 := by
    simpa only [le_div_iff₀ hh, div_le_iff₀ hh, zero_mul] using hway
  have hcarry := trunc_carry hway'
  rw [← add_div, signOf_div _ hh] at hcarry
  exact ⟨_, rfl, hcarry⟩

section Run
variable {config : GestureConfig} {state : GestureState} {leg : Leg}

theorem scrollMove_carries (hcell : 0 < config.cellHeightPx) (h : Carries config state leg) (touch : GestureTouch)
    (samples : List Sample) :
    Carries config (scrollMove state touch samples config).state
      (leg.move touch.y (linesOf (scrollMove state touch samples config).effects)) := by
  have hsplit : touch.y - leg.origin = leg.travelled + (touch.y - leg.y) := by rw [Leg.travelled]; ring
  simp only [scrollMove, if_pos hcell, linesOf_scroll, ← h.y, ← h.direction, Leg.move, signOf_div _ hcell]
  by_cases hrev : signOf (touch.y - leg.y) ≠ 0 ∧ leg.direction ≠ 0 ∧ signOf (touch.y - leg.y) ≠ leg.direction
  · -- a turn: the new leg begins where the finger was, with nothing carried
    obtain ⟨n, hn, hsum, hsign⟩ := carry_further (d := 0) (e := touch.y - leg.y) hcell
      ((le_total 0 _).imp (⟨le_rfl, ·⟩) (⟨le_rfl, ·⟩))
    simp only [zero_div, trunc_nonneg le_rfl, Int.floor_zero, Int.cast_zero, sub_zero, zero_add, add_zero] at hn hsum hsign
    rw [if_pos hrev, if_pos hrev, if_pos hrev.1, add_zero, hn]
    refine ⟨h.phase, h.configured, rfl, rfl, rfl, by rw [hsum]; rfl, ?_, by grind⟩
    exact .trans (by grind) hsum
  · obtain ⟨hway, hheading⟩ := same_way (h.heading.symm ▸ hrev)
    obtain ⟨n, hn, hsum, hsign⟩ := carry_further hcell hway
    rw [if_neg hrev, if_neg hrev, h.remainder, hn]
    rw [h.heading] at hheading
    rw [← hsplit] at hheading hsum hsign
    have hlines := h.sum
    have hsigns := h.sign
    refine ⟨h.phase, h.configured, rfl, rfl, hheading, ?_, ?_, ?_⟩
    · change _ = (touch.y - leg.origin) / config.cellHeightPx - trunc ((touch.y - leg.origin) / config.cellHeightPx)
      rw [hsum, hsplit, add_div]
      push_cast
      ring
    · refine .trans (b := trunc (leg.travelled / config.cellHeightPx) + n) ?_ (by rw [hsum]; exact add_sub_cancel _ _)
      grind
    · intro m hm
      by_cases hold : m ∈ leg.lines
      · have hm' := hsigns m hold
        have hzero := Int.sign_eq_zero_iff_zero.not.2 hm'.1
        grind
      · grind

variable (hypot : ℚ → ℚ → ℚ)

/-- An input to a locked scroll that stays locked either moves it or changes nothing. -/
theorem reduce_scroll (hphase : state.phase = .scroll) (hconfig : state.config = some config) (input : GestureInput)
    (hstay : (reduceGesture hypot state input).state.phase = .scroll) :
    (∃ touch samples, state.followed input = some touch.y ∧
      reduceGesture hypot state input = scrollMove state touch samples config) ∨
    state.followed input = none ∧ (reduceGesture hypot state input).state = state ∧
      (reduceGesture hypot state input).effects = [] := by
  cases input with
  | start touches now passthrough config' =>
    refine .inr ⟨rfl, ?_⟩
    have hpinch (h : 2 ≤ touches.length) := enterPinch_pinches hypot state h now true
    simp only [reduceGesture, onStart, hphase, claimedPhase] at hstay ⊢
    grind
  | move touches now =>
    simp only [reduceGesture, onMove, hphase, hconfig, claimedPhase, reduceCtorEq, or_self, if_false] at hstay ⊢
    by_cases hpinch : 2 ≤ touches.length ∧ config.pinchToZoom
    · obtain ⟨s, hs, heq⟩ := enterPinch_pinches hypot state hpinch.1 now true
      rw [if_pos hpinch, heq] at hstay
      cases hs.symm.trans hstay
    · cases hprimary : state.primary touches with
      | none => simp [GestureState.followed, hprimary, hpinch]
      | some touch =>
        rw [if_neg hpinch]
        exact .inl ⟨touch, _, by simp [GestureState.followed, hprimary], rfl⟩
  | hold now => exact .inr ⟨rfl, by simp [reduceGesture, onHold, hphase], by simp [reduceGesture, onHold, hphase]⟩
  | ends touches changed now =>
    refine .inr ⟨rfl, ?_⟩
    simp only [reduceGesture, onEnd, hphase, restingState, initialGestureState] at hstay ⊢
    grind
  | cancel now => cases hstay

/-- One input, and what it adds to the leg. -/
def follow (w : GestureState × Leg) (input : GestureInput) : GestureState × Leg :=
  let result := reduceGesture hypot w.1 input
  (result.state, w.2.move ((w.1.followed input).getD w.2.y) (linesOf result.effects))

theorem follow_carries {w : GestureState × Leg} (hcell : 0 < config.cellHeightPx) (h : Carries config w.1 w.2)
    (input : GestureInput) (hstay : (follow hypot w input).1.phase = .scroll) :
    Carries config (follow hypot w input).1 (follow hypot w input).2 := by
  rcases reduce_scroll hypot h.phase h.configured input hstay with
    ⟨touch, samples, hfollowed, hresult⟩ | ⟨hfollowed, hstate, heffects⟩
  · simp only [follow, hfollowed, hresult]
    exact scrollMove_carries hcell h touch samples
  · have hleg : w.2.move w.2.y [] = w.2 := by simp [Leg.move, signOf]
    simp only [follow, hfollowed, hstate, heffects]
    exact hleg.symm ▸ h

theorem followed_carries {w : GestureState × Leg} (hcell : 0 < config.cellHeightPx) (h : Carries config w.1 w.2)
    (inputs : List GestureInput)
    (hstay : ∀ before, before <+: inputs → (before.foldl (follow hypot) w).1.phase = .scroll) :
    Carries config (inputs.foldl (follow hypot) w).1 (inputs.foldl (follow hypot) w).2 := by
  induction inputs generalizing w with
  | nil => exact h
  | cons input inputs ih =>
    have hfirst := follow_carries hypot hcell h input (hstay [input] (by simp))
    exact ih hfirst fun before hbefore => hstay (input :: before) (by simpa using hbefore)

theorem reduce_unscrolled (input : GestureInput) (h : state.phase = .pending → state.Unscrolled)
    (hafter : (reduceGesture hypot state input).state.phase = .pending ∨
      (reduceGesture hypot state input).state.phase = .scroll ∧ state.phase ≠ .scroll) :
    (reduceGesture hypot state input).state.Unscrolled := by
  have hturn := reduceGesture_turn hypot state input
  generalize reduceGesture hypot state input = result at hturn hafter ⊢
  cases hturn with
  | same hasks => exact h (hafter.resolve_right fun hscroll => hscroll.2 hscroll.1)
  | drags hclaimed hsame => grind [claimedPhase]
  | pends hfrom hto hrest => exact hrest h
  | swipes hfrom hto => simp [hto] at hafter
  | scrolls hfrom hto hrest => exact hrest (h hfrom)
  | pinches hfrom hto => simp [hto] at hafter
  | holds now hinput hfrom hto => simp [hto] at hafter
  | leaves hclosing hto => rcases hto with hto | hto <;> simp [hto] at hafter
  | steals hinput htouches hfrom hto => simp [hto] at hafter

/-- The state after the inputs. -/
def gestureRun (inputs : List GestureInput) : GestureState :=
  inputs.foldl (fun state input => (reduceGesture hypot state input).state) initialGestureState

theorem gestureRun_snoc (inputs : List GestureInput) (input : GestureInput) :
    gestureRun hypot (inputs ++ [input]) = (reduceGesture hypot (gestureRun hypot inputs) input).state := by
  rw [gestureRun, List.foldl_append]
  rfl

theorem gestureRun_unscrolled (inputs : List GestureInput) :
    (gestureRun hypot inputs).phase = .pending → (gestureRun hypot inputs).Unscrolled := by
  induction inputs using List.reverseRecOn with
  | nil => exact nofun
  | append_singleton inputs input ih =>
    intro hpending
    rw [gestureRun_snoc] at hpending ⊢
    exact reduce_unscrolled hypot input ih (.inl hpending)

/-- A drag from where it was locked. -/
def drag (locked : GestureState) (inputs : List GestureInput) : GestureState × Leg :=
  inputs.foldl (follow hypot) (locked, ⟨locked.lastY, locked.lastY, 0, []⟩)

/-- From any lock on, however the drag is sampled and whatever comes in between: what is carried is below a line, and
a leg's lines all go its way and make up what it travelled. -/
theorem drag_lines (inputs : List GestureInput) (lock : GestureInput) (moves : List GestureInput)
    {locked : GestureState} {cell : ℚ} (hlocked : locked = (reduceGesture hypot (gestureRun hypot inputs) lock).state)
    (hfrom : (gestureRun hypot inputs).phase ≠ .scroll) (hscroll : locked.phase = .scroll)
    (hconfig : locked.config.map (·.cellHeightPx) = some cell) (hcell : 0 < cell)
    (hstay : ∀ before ∈ moves.inits, (drag hypot locked before).1.phase = .scroll) :
    |(drag hypot locked moves).1.scrollRemainder| < 1 ∧
      signOf (drag hypot locked moves).2.travelled = (drag hypot locked moves).2.direction ∧
      (∀ n ∈ (drag hypot locked moves).2.lines, n ≠ 0 ∧ n.sign = (drag hypot locked moves).2.direction) ∧
      (drag hypot locked moves).2.lines.sum = trunc ((drag hypot locked moves).2.travelled / cell) := by
  obtain ⟨config, hconfig', rfl⟩ := Option.map_eq_some_iff.1 hconfig
  obtain ⟨hremainder, hdirection⟩ : locked.Unscrolled := by
    rw [hlocked] at hscroll ⊢
    exact reduce_unscrolled hypot lock (gestureRun_unscrolled hypot inputs) (.inr ⟨hscroll, hfrom⟩)
  have hstart : Carries config locked ⟨locked.lastY, locked.lastY, 0, []⟩ := by
    refine ⟨hscroll, hconfig', rfl, hdirection.symm, ?_, ?_, ?_, nofun⟩ <;>
      simp [Leg.travelled, signOf, trunc, hremainder]
  have hcarries := followed_carries hypot hcell hstart moves fun before hbefore =>
    hstay before ((List.mem_inits _ _).2 hbefore)
  exact ⟨hcarries.remainder ▸ abs_carry _, hcarries.heading, hcarries.sign, hcarries.sum⟩

end Run

/-- A press that has just been locked, with ten pixels a line. -/
def lockedAt20 : GestureState :=
  (reduceGesture axisHypot (gestureRun axisHypot [.start (fingerAt 0) 0 false ⟨true, false, false, true, 10⟩])
    (.move (fingerAt 20) 10)).state

def downAndBack : List GestureInput :=
  [.move (fingerAt 36) 20, .hold 25, .move (fingerAt 61) 30, .move (fingerAt 44) 40]

theorem drag_lines_downAndBack : (drag axisHypot lockedAt20 downAndBack).2.lines.sum =
    trunc ((drag axisHypot lockedAt20 downAndBack).2.travelled / 10) :=
  (drag_lines axisHypot _ _ downAndBack rfl (by decide +kernel) (by decide +kernel) (by decide +kernel)
    (by decide +kernel) (by decide +kernel)).2.2.2

end Mtmux.Browser.Touch
