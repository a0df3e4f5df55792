import Mathlib.Data.List.Induction
import Mtmux.Browser.TouchGestures

/-! Whole gestures: what one emits from the moment a finger is down until none is. -/
namespace Mtmux.Browser.Touch
open List

/-- A drag from its claim on, while it scrolls. -/
def scrolled (lines : List Int) : List GestureEffect := .claim :: .scrollStart :: lines.map .scroll

/-- What comes before the zooms of a pinch: its own claim, or a drag that is over. -/
inductive Opens : List GestureEffect → Prop
  | claims : Opens [.claim]
  | scrolls (lines : List Int) : Opens (scrolled lines ++ [.scrollEnd])

/-- What a gesture that is over has emitted. -/
inductive Over : List GestureEffect → Prop
  | nothing : Over []
  | pressed (x y : ℚ) : Over [.longPress x y]
  | givenUp : Over [.claim]
  | committed (direction : Direction) : Over [.claim, .swipeCommit direction]
  | scrolled (lines : List Int) : Over (scrolled lines ++ [.scrollEnd])
  | flung (lines : List Int) (velocity : ℚ) : Over (scrolled lines ++ [.scrollEnd, .fling velocity])
  | pinched {before : List GestureEffect} (scales : List ℚ) (h : Opens before) :
      Over (before ++ scales.map .zoom ++ [.zoomEnd])

/-- What a gesture has emitted by the phase it is in. -/
def Shape : GesturePhase → List GestureEffect → Prop
  | .pending, effects => effects = []
  | .held, effects => ∃ x y, effects = [.longPress x y]
  | .swipe, effects => effects = [.claim]
  | .scroll, effects => ∃ lines, effects = scrolled lines
  | .pinch, effects => ∃ before, ∃ scales : List ℚ, Opens before ∧ effects = before ++ scales.map .zoom
  | .idle, effects | .passthrough, effects => Over effects

/-- The inputs between two idle states: all they emitted, whether one asked for `preventDefault`, and whether they
came to a phase that has claimed, or to any but idle and pending. -/
structure Gesture where
  effects : List GestureEffect := []
  asked : Bool := false
  claimed : Bool := false
  left : Bool := false

def Gesture.add (g : Gesture) (result : GestureResult) : Gesture where
  effects := g.effects ++ result.effects
  asked := g.asked || result.preventDefault
  claimed := g.claimed || claimedPhase result.state.phase
  left := g.left || !decide (result.state.phase = .idle ∨ result.state.phase = .pending)

structure Touched where
  state : GestureState := initialGestureState
  /-- How many fingers the last touch event had down. -/
  fingers : Nat := 0
  gesture : Gesture := {}
  /-- A long press has fired with more than one of them down. -/
  crowded : Bool := false

def GestureInput.fingers : GestureInput → Option Nat
  | .start touches _ _ _ | .move touches _ | .ends touches _ _ => some touches.length
  | .hold _ | .cancel _ => none

def GestureEffect.isLongPress : GestureEffect → Bool
  | .longPress _ _ => true
  | _ => false

/-- A new gesture begins with the input that finds the last one over. -/
def Touched.ongoing (w : Touched) : Gesture := if w.state.phase = .idle then {} else w.gesture

section Hypot
variable (hypot : ℚ → ℚ → ℚ)

def Touched.next (w : Touched) (input : GestureInput) : Touched :=
  let result := reduceGesture hypot w.state input
  { state := result.state
    fingers := input.fingers.getD w.fingers
    gesture := w.ongoing.add result
    crowded := w.crowded || decide (1 < w.fingers) && result.effects.any (·.isLongPress) }

def touchedRun (inputs : List GestureInput) : Touched := inputs.foldl (Touched.next hypot) {}

/-- Neither does a finger land on something excluded while a scroll is locked, nor does the timer fire on a press that
answers it while a second finger is down. -/
def Touched.Plain (w : Touched) : GestureInput → Prop
  | .start touches _ passthrough _ => ¬(w.state.phase = .scroll ∧ passthrough = true ∧ touches ≠ [])
  | .hold _ => ¬(w.state.AnswersHold hypot ∧ 1 < w.fingers)
  | _ => True

structure Gesture.Sound (g : Gesture) (phase : GesturePhase) : Prop where
  shape : Shape phase g.effects
  pending : phase = .pending → g = {}
  quiet : g.left = false → (phase = .idle ∨ phase = .pending) ∧ g.effects = [] ∧ g.asked = false

theorem Touched.ongoing_sound {w : Touched} (h : w.gesture.Sound w.state.phase) :
    w.ongoing.Sound w.state.phase ∧ (w.state.phase = .idle → w.ongoing = {}) := by
  rw [Touched.ongoing]
  split
  case isTrue hidle =>
    rw [hidle]
    exact ⟨⟨Over.nothing, nofun, fun _ => ⟨.inl rfl, rfl, rfl⟩⟩, fun _ => rfl⟩
  case isFalse hidle => exact ⟨h, fun h => absurd h hidle⟩

variable {phase : GesturePhase}

theorem Shape.closes {es effects : List GestureEffect} (h : Shape phase es)
    (hclosing : Closing phase effects) : Over (es ++ effects) := by
  cases phase with
  | idle => rwa [hclosing, append_nil]
  | pending => rw [h, hclosing]; exact .nothing
  | scroll =>
    obtain ⟨lines, rfl⟩ := h
    rcases hclosing with rfl | ⟨velocity, rfl⟩
    · exact .scrolled lines
    · exact .flung lines velocity
  | swipe =>
    rw [h]
    rcases hclosing with rfl | ⟨direction, rfl⟩
    · exact .givenUp
    · exact .committed direction
  | pinch =>
    obtain ⟨before, scales, hbefore, rfl⟩ := h
    rw [hclosing]
    exact .pinched scales hbefore
  | held =>
    obtain ⟨x, y, rfl⟩ := h
    rw [hclosing]
    exact .pressed x y
  | passthrough => rwa [hclosing, append_nil]

theorem Shape.drags {es effects : List GestureEffect} (h : Shape phase es)
    (heffects : effects = [] ∨ (phase = .scroll ∧ ∃ lines, effects = [.scroll lines]) ∨
      phase = .pinch ∧ ∃ scale, effects = [.zoom scale]) : Shape phase (es ++ effects) := by
  rcases heffects with rfl | ⟨rfl, n, rfl⟩ | ⟨rfl, scale, rfl⟩
  · rwa [append_nil]
  · obtain ⟨lines, rfl⟩ := h
    exact ⟨lines ++ [n], by simp [scrolled]⟩
  · obtain ⟨before, scales, hbefore, rfl⟩ := h
    exact ⟨before, scales ++ [scale], hbefore, by simp⟩

theorem Shape.pinches {es : List GestureEffect} (h : Shape phase es)
    (hfrom : phase ≠ .pinch ∧ phase ≠ .held ∧ phase ≠ .passthrough) (hidle : phase = .idle → es = []) :
    Shape .pinch
      (es ++ ((if claimedPhase phase then [] else [.claim]) ++ if phase = .scroll then [.scrollEnd] else [])) := by
  cases phase with
  | idle => exact ⟨_, [], .claims, by rw [hidle rfl]; rfl⟩
  | pending => exact ⟨_, [], .claims, by rw [h]; rfl⟩
  | scroll =>
    obtain ⟨lines, rfl⟩ := h
    exact ⟨_, [], .scrolls lines, by simp [claimedPhase]⟩
  | swipe => exact ⟨_, [], .claims, by rw [h]; rfl⟩
  | pinch => exact absurd rfl hfrom.1
  | held => exact absurd rfl hfrom.2.1
  | passthrough => exact absurd rfl hfrom.2.2

/-- A phase that is neither idle nor pending marks the gesture as having left pending. -/
theorem Gesture.Sound.of_left {g : Gesture} {result : GestureResult} (hshape : Shape result.state.phase (g.effects ++ result.effects))
    (hleft : ¬(result.state.phase = .idle ∨ result.state.phase = .pending)) : (g.add result).Sound result.state.phase :=
  ⟨hshape, fun h => absurd (.inr h) hleft, by simp [Gesture.add, hleft]⟩

theorem Gesture.Sound.add {g : Gesture} {state : GestureState} {input : GestureInput} {result : GestureResult}
    (h : g.Sound state.phase) (hidle : state.phase = .idle → g = {}) (hturn : Turn hypot state input result)
    (hplain : ∀ touches now config, input = .start touches now true config → touches ≠ [] → state.phase ≠ .scroll) :
    (g.add result).Sound result.state.phase := by
  have hfresh (hphase : state.phase = .idle ∨ state.phase = .pending) : g = {} := hphase.elim hidle h.pending
  cases hturn with
  | @same asks hasks =>
    have hshape : Shape state.phase (g.effects ++ []) := (append_nil _).symm ▸ h.shape
    by_cases hphase : state.phase = .idle ∨ state.phase = .pending
    · have hasks' : asks = false := by grind [claimedPhase]
      refine ⟨hshape, ?_, ?_⟩ <;> simp [Gesture.add, hfresh hphase, hasks', hphase]
      grind [claimedPhase]
    · exact .of_left hshape hphase
  | drags hclaimed hphase heffects => exact .of_left (hphase ▸ h.shape.drags heffects) (by grind [claimedPhase])
  | pends hfrom hphase => refine ⟨?_, ?_, ?_⟩ <;> simp [Gesture.add, hfresh hfrom, hphase, Shape, claimedPhase]
  | swipes hfrom hphase =>
    refine .of_left ?_ (by simp [hphase])
    rw [hphase, hfresh (.inr hfrom)]
    rfl
  | scrolls hfrom hphase =>
    refine .of_left ?_ (by simp [hphase])
    rw [hphase, hfresh (.inr hfrom)]
    exact ⟨[], rfl⟩
  | pinches hfrom hphase =>
    refine .of_left ?_ (by simp [hphase])
    exact hphase ▸ h.shape.pinches hfrom fun hphase => by rw [hidle hphase]
  | holds now hinput hfrom hphase =>
    refine .of_left ?_ (by simp [hphase])
    rw [hphase, hfresh (.inr hfrom.1)]
    exact ⟨_, _, rfl⟩
  | @leaves s effects asks hclosing hphase hasks =>
    have hshape : Shape s.phase (g.effects ++ effects) := by
      rcases hphase with hphase | hphase <;> exact hphase ▸ h.shape.closes hclosing
    refine ⟨hshape, by rcases hphase with hphase | hphase <;> simp [hphase], fun hleft => ?_⟩
    obtain ⟨hg, hto⟩ : g.left = false ∧ (s.phase = .idle ∨ s.phase = .pending) := by
      simpa [Gesture.add, or_iff_not_imp_left] using hleft
    obtain ⟨hfrom, heffects, hasked⟩ := h.quiet hg
    have hnone : effects = [] ∧ asks = false := by rcases hfrom with hfrom | hfrom <;> grind [Closing, claimedPhase]
    refine ⟨hto, ?_, ?_⟩ <;> simp [Gesture.add, heffects, hasked, hnone]
  | steals hinput htouches hfrom => exact absurd hfrom (hplain _ _ _ hinput htouches)

/-- The rules of a gesture, at each point of it. -/
structure Touched.Orderly (w : Touched) : Prop where
  shape : Shape w.state.phase w.gesture.effects
  keeps_claim : w.gesture.claimed = true → w.state.phase ≠ .pending
  alone : w.crowded = false
  quiet : w.gesture.left = false → w.gesture.effects = [] ∧ w.gesture.asked = false
  silent : w.state.phase = .passthrough ∨ w.state.phase = .held → ∀ input, (reduceGesture hypot w.state input).effects = []

theorem Closing.no_press {effects : List GestureEffect} (h : Closing phase effects) :
    effects.any (·.isLongPress) = false := by
  cases phase with
  | scroll | swipe => rcases h with rfl | ⟨_, rfl⟩ <;> rfl
  | pinch | idle | pending | held | passthrough => rw [h]; rfl

theorem next_alone {w : Touched} (h : w.crowded = false) {input : GestureInput} (hplain : w.Plain hypot input) :
    (w.next hypot input).crowded = false := by
  have hturn := reduceGesture_turn hypot w.state input
  simp only [Touched.next, h, Bool.false_or]
  generalize reduceGesture hypot w.state input = result at hturn ⊢
  cases hturn with
  | holds now hinput hfrom =>
    subst hinput
    have hone : ¬1 < w.fingers := fun hmany => hplain ⟨hfrom, hmany⟩
    simp [hone]
  | drags hclaimed hphase heffects => rcases heffects with rfl | ⟨-, n, rfl⟩ | ⟨-, scale, rfl⟩ <;> simp [GestureEffect.isLongPress]
  | swipes _ _ | scrolls _ _ => simp [GestureEffect.isLongPress]
  | pinches hfrom hphase => split_ifs <;> simp [GestureEffect.isLongPress]
  | leaves hclosing hphase hasks => rw [hclosing.no_press, Bool.and_false]
  | _ => simp

theorem silent_of_phase {state : GestureState} (h : state.phase = .passthrough ∨ state.phase = .held) (input : GestureInput) :
    (reduceGesture hypot state input).effects = [] := by
  have hturn := reduceGesture_turn hypot state input
  generalize reduceGesture hypot state input = result at hturn ⊢
  cases hturn with
  | same hasks => rfl
  | drags hclaimed hphase heffects => rcases h with h | h <;> simp [h, claimedPhase] at hclaimed
  | pends hfrom hphase => rfl
  | swipes hfrom hphase => simp [hfrom] at h
  | scrolls hfrom hphase => simp [hfrom] at h
  | pinches hfrom hphase => exact absurd h (not_or.2 ⟨hfrom.2.2, hfrom.2.1⟩)
  | holds now hinput hfrom => simp [hfrom.1] at h
  | leaves hclosing hphase hasks => rcases h with h | h <;> (rw [h] at hclosing; exact hclosing)
  | steals hinput htouches hfrom => simp [hfrom] at h

theorem touchedRun_inv (inputs : List GestureInput)
    (hplain : ∀ before input, before ++ [input] <+: inputs → (touchedRun hypot before).Plain hypot input) :
    (touchedRun hypot inputs).gesture.Sound (touchedRun hypot inputs).state.phase ∧
      (touchedRun hypot inputs).crowded = false := by
  induction inputs using List.reverseRecOn with
  | nil => exact ⟨⟨Over.nothing, nofun, fun _ => ⟨.inl rfl, rfl, rfl⟩⟩, rfl⟩
  | append_singleton inputs input ih =>
    obtain ⟨hsound, halone⟩ := ih fun before i h => hplain before i (h.trans (prefix_append _ _))
    have hlast := hplain inputs input prefix_rfl
    have hrun : touchedRun hypot (inputs ++ [input]) = (touchedRun hypot inputs).next hypot input := by
      rw [touchedRun, foldl_append]
      rfl
    obtain ⟨hongoing, hidle⟩ := Touched.ongoing_sound hsound
    rw [hrun]
    refine ⟨hongoing.add hypot hidle (reduceGesture_turn hypot _ input) ?_, next_alone hypot halone hlast⟩
    rintro touches now config rfl htouches hscroll
    exact hlast ⟨hscroll, rfl, htouches⟩

/-- Every gesture keeps the rules, in every run of plain inputs. -/
theorem gestures_orderly (inputs : List GestureInput)
    (hplain : ∀ before input, before ++ [input] <+: inputs → (touchedRun hypot before).Plain hypot input) :
    (touchedRun hypot inputs).Orderly hypot := by
  obtain ⟨hsound, halone⟩ := touchedRun_inv hypot inputs hplain
  refine ⟨hsound.shape, fun hclaimed hpending => ?_, halone, fun hleft => (hsound.quiet hleft).2, silent_of_phase hypot⟩
  rw [hsound.pending hpending] at hclaimed
  cases hclaimed

end Hypot

theorem gestures_orderly_scrolled : (touchedRun axisHypot [.start (fingerAt 0) 0 false ⟨true, false, false, true, 10⟩,
    .move (fingerAt 20) 10, .move (fingerAt 50) 20, .ends [] (fingerAt 50) 400]).Orderly axisHypot := by
  refine gestures_orderly axisHypot _ fun before input hbefore => ?_
  have hinput := hbefore.subset (mem_append_right _ (mem_singleton_self input))
  simp only [mem_cons, not_mem_nil, or_false] at hinput
  rcases hinput with rfl | rfl | rfl | rfl <;> simp [Touched.Plain]

/-- A finger comes down on the bar while the terminal scrolls: it stays in its scroll when the gesture is over. -/
def barTouched : List GestureInput := [.start (fingerAt 0) 0 false ⟨true, false, false, true, 10⟩,
  .move (fingerAt 20) 10, .start (fingerAt 20) 15 true ⟨true, false, false, true, 10⟩, .ends [] (fingerAt 20) 20]

theorem not_gestures_orderly : ¬∀ hypot inputs, (touchedRun hypot inputs).Orderly hypot := by
  intro h
  have hphase : (touchedRun axisHypot barTouched).state.phase = .idle := by decide +kernel
  have heffects : (touchedRun axisHypot barTouched).gesture.effects = [.claim, .scrollStart] := by decide +kernel
  have hover : Over [.claim, .scrollStart] := by
    have hshape := (h axisHypot barTouched).shape
    rwa [hphase, heffects] at hshape
  generalize hes : [GestureEffect.claim, .scrollStart] = es at hover
  cases hover <;> simpa using congrArg List.getLast? hes

end Mtmux.Browser.Touch
