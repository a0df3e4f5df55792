import Mathlib.Data.Rat.Floor

/-! The terminal's touch recognizer: one machine that sees all the fingers, and what a locked drag scrolls. -/
namespace Mtmux.Browser.Touch

structure GestureTouch where
  id : Int
  x : ℚ
  y : ℚ

structure GestureConfig where
  dragToScroll : Bool
  pinchToZoom : Bool
  swipeToSwitch : Bool
  longPressPaneMenu : Bool
  cellHeightPx : ℚ

inductive GestureInput where
  | start (touches : List GestureTouch) (now : ℚ) (passthrough : Bool) (config : GestureConfig)
  | move (touches : List GestureTouch) (now : ℚ)
  | hold (now : ℚ)
  | ends (touches changed : List GestureTouch) (now : ℚ)
  | cancel (now : ℚ)

inductive Direction where
  | left | right
  deriving DecidableEq

inductive GestureEffect where
  | claim
  | scrollStart
  | scroll (lines : Int)
  | scrollEnd
  | fling (velocity : ℚ)
  | zoom (scale : ℚ)
  | zoomEnd
  | swipeCommit (direction : Direction)
  | longPress (x y : ℚ)
  deriving DecidableEq

inductive GesturePhase where
  | idle | pending | scroll | swipe | pinch | held | passthrough
  deriving DecidableEq

structure Sample where
  x : ℚ
  y : ℚ
  at' : ℚ

/-- What `initialGestureState` gives is each field's default. -/
structure GestureState where
  phase : GesturePhase := .idle
  config : Option GestureConfig := none
  primaryId : Option Int := none
  originX : ℚ := 0
  originY : ℚ := 0
  startedAt : ℚ := 0
  lockedAt : ℚ := 0
  lastX : ℚ := 0
  lastY : ℚ := 0
  scrollRemainder : ℚ := 0
  scrollDirection : Int := 0
  samples : List Sample := []
  pinchBase : Option ℚ := none
  pinchMoved : Bool := false

structure GestureResult where
  state : GestureState
  effects : List GestureEffect := []
  preventDefault : Bool

def axisLockPx : ℚ := 12
def horizontalRatio : ℚ := 13 / 10
def swipeFarPx : ℚ := 120
def swipeMinPx : ℚ := 64
def swipeMinVelocity : ℚ := 3 / 10
def swipeVelocityWindowMs : ℚ := 100
def swipeMaxMs : ℚ := 800
def longPressSlopPx : ℚ := 10
def pinchSlop : ℚ := 8 / 100
def flingMinVelocity : ℚ := 35 / 100
def sampleKeepMs : ℚ := 300

def initialGestureState : GestureState := {}

def GestureState.primary (state : GestureState) (touches : List GestureTouch) : Option GestureTouch :=
  touches.find? fun t => some t.id = state.primaryId

def pushSample (samples : List Sample) (x y now : ℚ) : List Sample :=
  (samples ++ [Sample.mk x y now]).filter fun s => now - s.at' ≤ sampleKeepMs

def velocityOf (axis : Sample → ℚ) (samples : List Sample) (v now : ℚ) : ℚ :=
  match samples.find? fun s => now - s.at' ≤ swipeVelocityWindowMs with
  | none => 0
  | some oldest => if now - oldest.at' ≤ 0 then 0 else (v - axis oldest) / (now - oldest.at')

def releaseVelocity : List Sample → ℚ → ℚ → ℚ := velocityOf Sample.x

def releaseVelocityY : List Sample → ℚ → ℚ → ℚ := velocityOf Sample.y

/-- `Math.sign`. -/
def signOf (v : ℚ) : Int := if 0 < v then 1 else if v < 0 then -1 else 0

/-- `Math.trunc`. -/
def trunc (v : ℚ) : Int := if 0 ≤ v then ⌊v⌋ else ⌈v⌉

def swipeCommits (state : GestureState) (x now : ℚ) : Option Direction :=
  let dx := x - state.originX
  let velocity := releaseVelocity state.samples x now
  let far := decide (swipeFarPx ≤ |dx|)
  let flick := decide (swipeMinPx ≤ |dx| ∧ swipeMinVelocity ≤ |velocity| ∧ signOf velocity = signOf dx)
  if now - state.lockedAt > swipeMaxMs then none
  else if !far && !flick then none
  else some (if dx > 0 then .right else .left)

def claimedPhase : GesturePhase → Bool
  | .scroll | .swipe | .pinch => true
  | _ => false

/-- Where a gesture goes when the finger it followed has left. -/
def restingState (remaining : List GestureTouch) : GestureState :=
  if remaining.length > 0 then { initialGestureState with phase := .passthrough } else initialGestureState

section Hypot
variable (hypot : ℚ → ℚ → ℚ)

def distance (a b : GestureTouch) : ℚ := hypot (a.x - b.x) (a.y - b.y)

def enterPinch (state : GestureState) (touches : List GestureTouch) (now : ℚ) (claimed : Bool) : GestureResult :=
  match touches with
  | a :: b :: _ => {
      state := { state with
        phase := .pinch
        lockedAt := if state.phase = .pending then now else state.lockedAt
        pinchBase := some (distance hypot a b)
        pinchMoved := false
        scrollRemainder := 0
        scrollDirection := 0 }
      effects := (if claimed then [] else [.claim]) ++ if state.phase = .scroll then [.scrollEnd] else []
      preventDefault := true }
  | _ => { state := state, preventDefault := true }

theorem enterPinch_pinches (state : GestureState) {touches : List GestureTouch} (h : 2 ≤ touches.length) (now : ℚ)
    (claimed : Bool) : ∃ s, s.phase = .pinch ∧ enterPinch hypot state touches now claimed =
      ⟨s, (if claimed then [] else [.claim]) ++ if state.phase = .scroll then [.scrollEnd] else [], true⟩ := by
  match touches, h with
  | _ :: _ :: _, _ => exact ⟨_, rfl, rfl⟩

def onHold (state : GestureState) : GestureResult :=
  if state.phase ≠ .pending ∨ !state.config.any (·.longPressPaneMenu) then { state := state, preventDefault := false }
  else if hypot (state.lastX - state.originX) (state.lastY - state.originY) > longPressSlopPx then
    { state := state, preventDefault := false }
  else {
    state := { state with phase := .held }
    effects := [.longPress state.originX state.originY]
    preventDefault := false }

def freshState (first : GestureTouch) (now : ℚ) (config : GestureConfig) : GestureState :=
  { initialGestureState with
    phase := .pending
    config := some config
    primaryId := some first.id
    originX := first.x
    originY := first.y
    startedAt := now
    lastX := first.x
    lastY := first.y
    samples := [⟨first.x, first.y, now⟩] }

def onStart (state : GestureState) (touches : List GestureTouch) (now : ℚ) (passthrough : Bool)
    (config : GestureConfig) : GestureResult :=
  if state.phase = .pinch ∨ state.phase = .passthrough then
    { state := state, preventDefault := claimedPhase state.phase }
  else if state.phase = .held then { state := state, preventDefault := true }
  else match touches.head? with
  | none => { state := state, preventDefault := false }
  | some first =>
    if passthrough then { state := { initialGestureState with phase := .passthrough }, preventDefault := false }
    else if claimedPhase state.phase then
      if 2 ≤ touches.length ∧ state.config.any (·.pinchToZoom) then enterPinch hypot state touches now true
      else { state := state, preventDefault := true }
    else if 2 ≤ touches.length ∧ config.pinchToZoom then
      enterPinch hypot (freshState first now config) touches now false
    else { state := freshState first now config, preventDefault := false }

def pendingMove (state : GestureState) (touch : GestureTouch) (now : ℚ) (samples : List Sample)
    (config : GestureConfig) : GestureResult :=
  let dx := touch.x - state.originX
  let dy := touch.y - state.originY
  let horizontal := decide (|dy| * horizontalRatio ≤ |dx|)
  if hypot dx dy < axisLockPx then
    { state := { state with lastX := touch.x, lastY := touch.y, samples := samples }, preventDefault := false }
  else if !(if horizontal then config.swipeToSwitch else config.dragToScroll) then
    { state := { state with phase := .passthrough }, preventDefault := false }
  else {
    state := { state with
      phase := if horizontal then .swipe else .scroll
      lockedAt := now
      lastX := touch.x
      lastY := touch.y
      samples := samples }
    effects := .claim :: if horizontal then [] else [.scrollStart]
    preventDefault := true }

def scrollMove (state : GestureState) (touch : GestureTouch) (samples : List Sample) (config : GestureConfig) :
    GestureResult :=
  let cell := if 0 < config.cellHeightPx then config.cellHeightPx else 17
  let delta := (touch.y - state.lastY) / cell
  let moved := signOf delta
  let reversed := moved ≠ 0 ∧ state.scrollDirection ≠ 0 ∧ moved ≠ state.scrollDirection
  let raw := delta + if reversed then 0 else state.scrollRemainder
  let lines := trunc raw
  { state := { state with
      lastX := touch.x
      lastY := touch.y
      scrollRemainder := raw - lines
      scrollDirection := if moved ≠ 0 then moved else state.scrollDirection
      samples := samples }
    effects := if lines = 0 then [] else [.scroll lines]
    preventDefault := true }

def pinchMove (state : GestureState) (touches : List GestureTouch) : GestureResult :=
  match touches, state.pinchBase with
  | a :: b :: _, some pinchBase =>
    let scale := distance hypot a b / pinchBase
    if pinchBase ≤ 0 then { state := { state with pinchBase := some (distance hypot a b) }, preventDefault := true }
    else if !state.pinchMoved ∧ |scale - 1| < pinchSlop then { state := state, preventDefault := true }
    else { state := { state with pinchMoved := true }, effects := [.zoom scale], preventDefault := true }
  | _, _ => { state := state, preventDefault := true }

def onMove (state : GestureState) (touches : List GestureTouch) (now : ℚ) : GestureResult :=
  if state.phase = .idle ∨ state.phase = .passthrough then { state := state, preventDefault := false }
  else if state.phase = .held then { state := state, preventDefault := true }
  else match state.config with
  | none => { state := state, preventDefault := false }
  | some config =>
    if state.phase = .pinch then pinchMove hypot state touches
    else if 2 ≤ touches.length ∧ config.pinchToZoom then
      enterPinch hypot state touches now (claimedPhase state.phase)
    else match state.primary touches with
    | none => { state := state, preventDefault := claimedPhase state.phase }
    | some touch =>
      let samples := pushSample state.samples touch.x touch.y now
      if state.phase = .pending then pendingMove hypot state touch now samples config
      else if state.phase = .swipe then
        { state := { state with lastX := touch.x, lastY := touch.y, samples := samples }, preventDefault := true }
      else scrollMove state touch samples config

/-- `changed` is empty where the event does not say which fingers left. -/
def onEnd (state : GestureState) (touches changed : List GestureTouch) (now : ℚ) : GestureResult :=
  let lifted := state.primary changed
  let samples := match lifted with
    | some t => pushSample state.samples t.x t.y now
    | none => state.samples
  match state.phase with
  | .passthrough =>
    { state := if touches.length > 0 then state else initialGestureState, preventDefault := false }
  | .held => { state := if touches.length > 0 then state else initialGestureState, preventDefault := true }
  | .idle => { state := state, preventDefault := false }
  | .pinch => { state := restingState touches, effects := [.zoomEnd], preventDefault := true }
  | .pending =>
    match touches with
    | [] => { state := initialGestureState, preventDefault := false }
    | next :: _ =>
      if touches.any fun t => some t.id = state.primaryId then { state := state, preventDefault := false }
      else {
        state := { state with
          primaryId := some next.id
          originX := next.x
          originY := next.y
          startedAt := now
          lastX := next.x
          lastY := next.y
          scrollRemainder := 0
          scrollDirection := 0
          samples := [⟨next.x, next.y, now⟩] }
        preventDefault := false }
  | .scroll =>
    let velocity := releaseVelocityY samples ((lifted.map (·.y)).getD state.lastY) now
    if touches.any fun t => some t.id = state.primaryId then { state := state, preventDefault := true }
    else {
      state := restingState touches
      effects := .scrollEnd :: if flingMinVelocity ≤ |velocity| then [.fling velocity] else []
      preventDefault := true }
  | .swipe =>
    if touches.any fun t => some t.id = state.primaryId then { state := state, preventDefault := true }
    else {
      state := restingState touches
      effects := match swipeCommits { state with samples := samples } ((lifted.map (·.x)).getD state.lastX) now with
        | some direction => [.swipeCommit direction]
        | none => []
      preventDefault := true }

def onCancel (state : GestureState) : GestureResult where
  state := initialGestureState
  effects := (if state.phase = .scroll then [.scrollEnd] else []) ++ if state.phase = .pinch then [.zoomEnd] else []
  preventDefault := claimedPhase state.phase

def reduceGesture (state : GestureState) : GestureInput → GestureResult
  | .start touches now passthrough config => onStart hypot state touches now passthrough config
  | .move touches now => onMove hypot state touches now
  | .ends touches changed now => onEnd state touches changed now
  | .hold _ => onHold hypot state
  | .cancel _ => onCancel state

/-- Nothing is carried into a scroll. -/
def GestureState.Unscrolled (state : GestureState) : Prop := state.scrollRemainder = 0 ∧ state.scrollDirection = 0

/-- What ends a gesture, or hands the rest of it to the page, emits. -/
def Closing : GesturePhase → List GestureEffect → Prop
  | .scroll, effects => effects = [.scrollEnd] ∨ ∃ velocity, effects = [.scrollEnd, .fling velocity]
  | .swipe, effects => effects = [] ∨ ∃ direction, effects = [.swipeCommit direction]
  | .pinch, effects => effects = [.zoomEnd]
  | _, effects => effects = []

/-- The press has a menu and is still where it began. -/
def GestureState.AnswersHold (state : GestureState) : Prop :=
  state.phase = .pending ∧ state.config.any (·.longPressPaneMenu) = true ∧
    hypot (state.lastX - state.originX) (state.lastY - state.originY) ≤ longPressSlopPx

/-- All that one input can do. -/
inductive Turn (state : GestureState) (input : GestureInput) : GestureResult → Prop
  | same {asks : Bool} (hasks : asks = true → claimedPhase state.phase = true ∨ state.phase = .held) :
      Turn state input ⟨state, [], asks⟩
  | drags {s effects} (hclaimed : claimedPhase state.phase = true) (hphase : s.phase = state.phase)
      (heffects : effects = [] ∨ (state.phase = .scroll ∧ ∃ lines, effects = [.scroll lines]) ∨
        state.phase = .pinch ∧ ∃ scale, effects = [.zoom scale]) : Turn state input ⟨s, effects, true⟩
  | pends {s} (hfrom : state.phase = .idle ∨ state.phase = .pending) (hphase : s.phase = .pending)
      (hrest : (state.phase = .pending → state.Unscrolled) → s.Unscrolled) : Turn state input ⟨s, [], false⟩
  | swipes {s} (hfrom : state.phase = .pending) (hphase : s.phase = .swipe) : Turn state input ⟨s, [.claim], true⟩
  | scrolls {s} (hfrom : state.phase = .pending) (hphase : s.phase = .scroll) (hrest : state.Unscrolled → s.Unscrolled) :
      Turn state input ⟨s, [.claim, .scrollStart], true⟩
  | pinches {s} (hfrom : state.phase ≠ .pinch ∧ state.phase ≠ .held ∧ state.phase ≠ .passthrough)
      (hphase : s.phase = .pinch) : Turn state input
        ⟨s, (if claimedPhase state.phase then [] else [.claim]) ++ if state.phase = .scroll then [.scrollEnd] else [], true⟩
  | holds {s x y} (now : ℚ) (hinput : input = .hold now) (hfrom : state.AnswersHold hypot) (hphase : s.phase = .held) :
      Turn state input ⟨s, [.longPress x y], false⟩
  | leaves {s effects} {asks : Bool} (hclosing : Closing state.phase effects)
      (hphase : s.phase = .idle ∨ s.phase = .passthrough)
      (hasks : asks = true → claimedPhase state.phase = true ∨ state.phase = .held) : Turn state input ⟨s, effects, asks⟩
  | steals {s touches now config} (hinput : input = .start touches now true config) (htouches : touches ≠ [])
      (hfrom : state.phase = .scroll) (hphase : s.phase = .passthrough) : Turn state input ⟨s, [], false⟩

theorem onStart_turn (state : GestureState) (touches : List GestureTouch) (now : ℚ) (passthrough : Bool)
    (config : GestureConfig) : Turn hypot state (.start touches now passthrough config)
      (onStart hypot state touches now passthrough config) := by
  rw [onStart]
  cases htouches : touches.head? with
  | none =>
    dsimp only
    split_ifs with hgiven hheld
    · exact .same .inl
    · exact .same fun _ => .inr hheld
    · exact .same nofun
  | some first =>
    dsimp only
    split_ifs with hgiven hheld hpass hclaimed hpinch hpinch
    · exact .same .inl
    · exact .same fun _ => .inr hheld
    · by_cases hscroll : state.phase = .scroll
      · rw [hpass]
        exact .steals rfl (fun hnil => by rw [hnil] at htouches; cases htouches) hscroll rfl
      · refine .leaves ?_ (.inr rfl) nofun
        cases hphase : state.phase <;> simp_all [Closing]
    · obtain ⟨s, hs, heq⟩ := enterPinch_pinches hypot state hpinch.1 now true
      have hturn : Turn hypot state (.start touches now passthrough config) ⟨s, _, true⟩ :=
        .pinches ⟨mt .inl hgiven, hheld, mt .inr hgiven⟩ hs
      rwa [hclaimed, ← heq] at hturn
    · exact .same fun _ => .inl hclaimed
    · obtain ⟨s, hs, heq⟩ := enterPinch_pinches hypot (freshState first now config) hpinch.1 now false
      have hturn : Turn hypot state (.start touches now passthrough config) ⟨s, _, true⟩ :=
        .pinches ⟨mt .inl hgiven, hheld, mt .inr hgiven⟩ hs
      have hscroll : state.phase ≠ .scroll := fun hscroll => hclaimed (hscroll ▸ rfl)
      rw [heq]
      rwa [if_neg hclaimed, if_neg hscroll] at hturn
    · refine .pends ?_ rfl fun _ => ⟨rfl, rfl⟩
      cases hphase : state.phase <;> simp_all [claimedPhase]

variable {state : GestureState}

theorem pinchMove_turn (h : state.phase = .pinch) (touches : List GestureTouch)
    (input : GestureInput) : Turn hypot state input (pinchMove hypot state touches) := by
  have hclaimed : claimedPhase state.phase = true := h ▸ rfl
  unfold pinchMove
  split
  · dsimp only
    split_ifs
    · exact .drags hclaimed rfl (.inl rfl)
    · exact .same fun _ => .inl hclaimed
    · exact .drags hclaimed rfl (.inr (.inr ⟨h, _, rfl⟩))
  · exact .same fun _ => .inl hclaimed

theorem pendingMove_turn (h : state.phase = .pending) (touch : GestureTouch) (now : ℚ)
    (samples : List Sample) (config : GestureConfig) (input : GestureInput) :
    Turn hypot state input (pendingMove hypot state touch now samples config) := by
  rw [pendingMove]
  generalize decide (|touch.y - state.originY| * horizontalRatio ≤ |touch.x - state.originX|) = horizontal
  cases horizontal with
  | true =>
    simp only [if_true]
    split_ifs
    · exact .pends (.inr h) h fun hrest => hrest h
    · exact .leaves (h ▸ rfl) (.inr rfl) nofun
    · exact .swipes h rfl
  | false =>
    simp only [Bool.false_eq_true, if_false]
    split_ifs
    · exact .pends (.inr h) h fun hrest => hrest h
    · exact .leaves (h ▸ rfl) (.inr rfl) nofun
    · exact .scrolls h rfl id

theorem scrollMove_turn (h : state.phase = .scroll) (touch : GestureTouch)
    (samples : List Sample) (config : GestureConfig) (input : GestureInput) :
    Turn hypot state input (scrollMove state touch samples config) :=
  .drags (h ▸ rfl) rfl ((ite_eq_or_eq _ _ _).imp_right fun hlines => .inl ⟨h, _, hlines⟩)

theorem onMove_turn (state : GestureState) (touches : List GestureTouch) (now : ℚ) :
    Turn hypot state (.move touches now) (onMove hypot state touches now) := by
  rw [onMove]
  cases hconfig : state.config with
  | none =>
    dsimp only
    split_ifs with hgiven hheld
    · exact .same nofun
    · exact .same fun _ => .inr hheld
    · exact .same nofun
  | some config =>
    cases hprimary : state.primary touches with
    | none =>
      dsimp only
      split_ifs with hgiven hheld hpinch hpinches
      · exact .same nofun
      · exact .same fun _ => .inr hheld
      · exact pinchMove_turn hypot hpinch touches _
      · obtain ⟨s, hs, heq⟩ := enterPinch_pinches hypot state hpinches.1 now (claimedPhase state.phase)
        exact heq ▸ .pinches ⟨hpinch, hheld, mt .inr hgiven⟩ hs
      · exact .same .inl
    | some touch =>
      dsimp only
      split_ifs with hgiven hheld hpinch hpinches hpending hswipe
      · exact .same nofun
      · exact .same fun _ => .inr hheld
      · exact pinchMove_turn hypot hpinch touches _
      · obtain ⟨s, hs, heq⟩ := enterPinch_pinches hypot state hpinches.1 now (claimedPhase state.phase)
        exact heq ▸ .pinches ⟨hpinch, hheld, mt .inr hgiven⟩ hs
      · exact pendingMove_turn hypot hpending touch now _ config _
      · exact .drags (hswipe ▸ rfl) rfl (.inl rfl)
      · have hscroll : state.phase = .scroll := by cases hphase : state.phase <;> simp_all
        exact scrollMove_turn hypot hscroll touch _ config _

theorem restingState_rests (touches : List GestureTouch) :
    (restingState touches).phase = .idle ∨ (restingState touches).phase = .passthrough := by
  rw [restingState]
  split
  · exact .inr rfl
  · exact .inl rfl

theorem onEnd_turn (state : GestureState) (touches changed : List GestureTouch) (now : ℚ) :
    Turn hypot state (.ends touches changed now) (onEnd state touches changed now) := by
  unfold onEnd
  dsimp only
  split <;> rename_i hphase
  · split_ifs
    · exact .same nofun
    · exact .leaves (hphase ▸ rfl) (.inl rfl) nofun
  · split_ifs
    · exact .same fun _ => .inr hphase
    · exact .leaves (hphase ▸ rfl) (.inl rfl) fun _ => .inr hphase
  · exact .same nofun
  · exact .leaves (hphase ▸ rfl) (restingState_rests _) fun _ => .inl (hphase ▸ rfl)
  · split
    · exact .leaves (hphase ▸ rfl) (.inl rfl) nofun
    · split_ifs
      · exact .same nofun
      · exact .pends (.inr hphase) hphase fun _ => ⟨rfl, rfl⟩
  · have hasks (h : true = true) : claimedPhase state.phase = true ∨ state.phase = .held := .inl (hphase ▸ h)
    split_ifs
    · exact .same hasks
    · exact .leaves (hphase ▸ .inr ⟨_, rfl⟩) (restingState_rests _) hasks
    · exact .leaves (hphase ▸ .inl rfl) (restingState_rests _) hasks
  · have hasks (h : true = true) : claimedPhase state.phase = true ∨ state.phase = .held := .inl (hphase ▸ h)
    split_ifs
    · exact .same hasks
    · refine .leaves (hphase ▸ ?_) (restingState_rests _) hasks
      split
      · exact .inr ⟨_, rfl⟩
      · exact .inl rfl

theorem reduceGesture_turn (state : GestureState) (input : GestureInput) :
    Turn hypot state input (reduceGesture hypot state input) := by
  cases input with
  | start touches now passthrough config => exact onStart_turn hypot state touches now passthrough config
  | move touches now => exact onMove_turn hypot state touches now
  | ends touches changed now => exact onEnd_turn hypot state touches changed now
  | hold now =>
    rw [reduceGesture, onHold]
    split_ifs
    · exact .same nofun
    · exact .same nofun
    · exact .holds now rfl (by simp_all [GestureState.AnswersHold]) rfl
  | cancel now =>
    refine .leaves ?_ (.inl rfl) .inl
    cases hphase : state.phase <;> simp [Closing]

end Hypot

/-- `Math.hypot` along an axis. -/
def axisHypot (a b : ℚ) : ℚ := if a = 0 then |b| else |a|

def fingerAt (y : ℚ) : List GestureTouch := [⟨1, 0, y⟩]

end Mtmux.Browser.Touch
