import Mtmux.Cli.DevicePanel

/-! Every question of the panel is answered, or taken back. -/
namespace Mtmux.Cli
open List

def PanelMode.Idle (mode : PanelMode) : Prop := ∀ call req expiresAt, mode ≠ .approval call req expiresAt

namespace DevicePanel
variable {deps : PanelDeps} {s t u : DevicePanel}

def Shows (s : DevicePanel) (call : Nat) : Prop := ∃ req expiresAt, s.screen = some (.approval call req expiresAt)

/-- What is on the screen, what keys answer and what is waited for are one question. -/
structure Poised (s : DevicePanel) : Prop where
  asks : ∀ call, s.answering = some call → (∃ req expiresAt, s.mode = .approval call req expiresAt) ∧ call < s.asked ∧
    call ∉ s.aborted
  shows : ∀ call req expiresAt, s.mode = .approval call req expiresAt → s.stopped = false →
    s.answering = some call ∧ s.screen = some s.mode ∧ s.tick = true
  drawn : ∀ call req expiresAt, s.screen = some (.approval call req expiresAt) → s.mode = .approval call req expiresAt
  stopped : s.stopped = true → s.answering = none ∧ s.screen = none
  aborted : ∀ call ∈ s.aborted, call < s.asked

/-! ### Steps that leave the question alone -/

/-- No question comes or goes. -/
structure Quiet (s t : DevicePanel) : Prop where
  answering : t.answering = s.answering
  asked : t.asked = s.asked
  aborted : t.aborted = s.aborted
  stopped : t.stopped = s.stopped
  mode : t.mode = s.mode ∨ s.mode.Idle ∧ t.mode.Idle
  screen : t.screen = s.screen ∨
    s.stopped = false ∧ ∃ mode, t.screen = some mode ∧ (mode = t.mode ∨ mode.Idle ∧ t.mode.Idle)
  tick : t.tick = s.tick ∨ t.tick = true ∨ t.mode.Idle

theorem quiet_refl (s : DevicePanel) : Quiet s s := ⟨rfl, rfl, rfl, rfl, .inl rfl, .inl rfl, .inl rfl⟩

theorem Quiet.trans (h : Quiet s t) (h' : Quiet t u) : Quiet s u where
  answering := h'.answering.trans h.answering
  asked := h'.asked.trans h.asked
  aborted := h'.aborted.trans h.aborted
  stopped := h'.stopped.trans h.stopped
  mode := by
    cases h'.mode with
    | inl hsame =>
      rw [hsame]
      exact h.mode
    | inr hidle =>
      cases h.mode with
      | inl hsame => exact .inr ⟨hsame ▸ hidle.1, hidle.2⟩
      | inr hfirst => exact .inr ⟨hfirst.1, hidle.2⟩
  screen := by
    cases h'.screen with
    | inr hdrawn => exact .inr ⟨h.stopped ▸ hdrawn.1, hdrawn.2⟩
    | inl hsame =>
      rw [hsame]
      cases h.screen with
      | inl hfirst => exact .inl hfirst
      | inr hdrawn =>
        obtain ⟨hruns, mode, hscreen, hmode⟩ := hdrawn
        refine .inr ⟨hruns, mode, hscreen, ?_⟩
        cases h'.mode with
        | inl hkept =>
          rw [hkept]
          exact hmode
        | inr hidle =>
          cases hmode with
          | inl hthis => exact .inr ⟨hthis ▸ hidle.1, hidle.2⟩
          | inr hboth => exact .inr ⟨hboth.1, hidle.2⟩
  tick := by
    cases h'.mode with
    | inr hidle => exact .inr (.inr hidle.2)
    | inl hkept =>
      cases h'.tick with
      | inr hnew => exact .inr hnew
      | inl hsame =>
        cases h.tick with
        | inl hfirst => exact .inl (hsame.trans hfirst)
        | inr hrest => exact .inr (hrest.imp (fun htrue => hsame.trans htrue) fun hidle => hkept ▸ hidle)

theorem Poised.quiet (h : Poised s) (hquiet : Quiet s t) : Poised t where
  asks call hcall := by
    rw [hquiet.answering] at hcall
    obtain ⟨⟨req, expiresAt, hmode⟩, hasked, haborted⟩ := h.asks call hcall
    rw [hquiet.asked, hquiet.aborted]
    refine ⟨⟨req, expiresAt, ?_⟩, hasked, haborted⟩
    cases hquiet.mode with
    | inl hsame => rw [hsame, hmode]
    | inr hidle => exact absurd hmode (hidle.1 _ _ _)
  shows call req expiresAt hmode hruns := by
    rw [hquiet.stopped] at hruns
    have hsame : t.mode = s.mode := by
      cases hquiet.mode with
      | inl hsame => exact hsame
      | inr hidle => exact absurd hmode (hidle.2 _ _ _)
    obtain ⟨hanswering, hscreen, htick⟩ := h.shows call req expiresAt (hsame ▸ hmode) hruns
    refine ⟨hquiet.answering.trans hanswering, ?_, ?_⟩
    · cases hquiet.screen with
      | inl hold => rw [hold, hscreen, hsame]
      | inr hnew =>
        obtain ⟨-, mode, hdrawn, hthis⟩ := hnew
        cases hthis with
        | inl heq => rw [hdrawn, heq]
        | inr hidle => exact absurd hmode (hidle.2 _ _ _)
    · cases hquiet.tick with
      | inl hold => exact hold.trans htick
      | inr hnew => exact hnew.resolve_right fun hidle => hidle _ _ _ hmode
  drawn call req expiresAt hscreen := by
    cases hquiet.screen with
    | inl hold =>
      have hmode := h.drawn call req expiresAt (hold ▸ hscreen)
      cases hquiet.mode with
      | inl hsame => rw [hsame, hmode]
      | inr hidle => exact absurd hmode (hidle.1 _ _ _)
    | inr hnew =>
      obtain ⟨-, mode, hdrawn, hthis⟩ := hnew
      have hmode : mode = .approval call req expiresAt := Option.some.inj (hdrawn.symm.trans hscreen)
      cases hthis with
      | inl heq => rw [← heq, hmode]
      | inr hidle => exact absurd hmode (hidle.1 _ _ _)
  stopped hstopped := by
    rw [hquiet.stopped] at hstopped
    obtain ⟨hanswering, hscreen⟩ := h.stopped hstopped
    refine ⟨hquiet.answering.trans hanswering, ?_⟩
    cases hquiet.screen with
    | inl hold => exact hold.trans hscreen
    | inr hnew =>
      rw [hnew.1] at hstopped
      cases hstopped
  aborted := by
    rw [hquiet.aborted, hquiet.asked]
    exact h.aborted

theorem quiet_same (hanswering : t.answering = s.answering) (hasked : t.asked = s.asked)
    (haborted : t.aborted = s.aborted) (hstopped : t.stopped = s.stopped) (hmode : t.mode = s.mode)
    (hscreen : t.screen = s.screen) (htick : t.tick = s.tick) : Quiet s t :=
  ⟨hanswering, hasked, haborted, hstopped, .inl hmode, .inl hscreen, .inl htick⟩

theorem needsTick_or (s : DevicePanel) : s.needsTick = true ∨ s.mode.Idle := by
  unfold needsTick
  cases hmode : s.mode with
  | approval call req expiresAt => exact .inl rfl
  | _ => exact .inr fun _ _ _ h => by cases h

theorem quiet_paint (s : DevicePanel) : Quiet s s.paint := by
  unfold paint
  split
  · exact quiet_refl s
  · rename_i hruns
    exact ⟨rfl, rfl, rfl, rfl, .inl rfl, .inr ⟨by simpa using hruns, _, rfl, .inl rfl⟩, .inr s.needsTick_or⟩

theorem quiet_mode {mode : PanelMode} (hs : s.mode.Idle) (hmode : mode.Idle) : Quiet s { s with mode := mode } :=
  ⟨rfl, rfl, rfl, rfl, .inr ⟨hs, hmode⟩, .inl rfl, .inl rfl⟩

theorem quiet_setMode {mode : PanelMode} (hs : s.mode.Idle) (hmode : mode.Idle) : Quiet s (s.setMode mode) :=
  (quiet_mode hs hmode).trans (quiet_paint _)

theorem quiet_setFlash (s : DevicePanel) (flash : PanelFlash) : Quiet s (s.setFlash flash) := by
  have hflash : Quiet s { s with flash := some flash } := quiet_same rfl rfl rfl rfl rfl rfl rfl
  exact hflash.trans (quiet_paint _)

theorem quiet_clearFlash (s : DevicePanel) : Quiet s s.clearFlash := by
  have hflash : Quiet s { s with flash := none } := quiet_same rfl rfl rfl rfl rfl rfl rfl
  exact hflash.trans (quiet_paint _)

theorem quiet_begin (s : DevicePanel) (operation : PanelOperation) : Quiet s (s.begin operation) :=
  quiet_same rfl rfl rfl rfl rfl rfl rfl

theorem idle_list : PanelMode.list.Idle := fun _ _ _ h => by cases h
theorem idle_help : PanelMode.help.Idle := fun _ _ _ h => by cases h
theorem idle_details (key : String) : (PanelMode.details key).Idle := fun _ _ _ h => by cases h

theorem idle_confirm (action : RemoveAction) (deviceId connectionId : Option String) (label : String) (count : Nat) :
    (PanelMode.confirm action deviceId connectionId label count).Idle := fun _ _ _ h => by cases h

theorem idle_rename (deviceId label draft : String) : (PanelMode.rename deviceId label draft).Idle :=
  fun _ _ _ h => by cases h

/-! ### Keys -/

theorem quiet_doOpenTunnel : Quiet s (s.doOpenTunnel deps) := by
  unfold doOpenTunnel
  split
  · exact quiet_refl s
  · have hopening : Quiet s { s with opening := true } := quiet_same rfl rfl rfl rfl rfl rfl rfl
    exact (hopening.trans (quiet_setFlash _ _)).trans (quiet_begin _ _)

theorem quiet_toggleAsk : Quiet s (s.toggleAsk deps) := by
  unfold toggleAsk
  split
  · exact quiet_begin _ _
  · exact quiet_refl s

section Keys
variable (hidle : s.mode.Idle)
include hidle

theorem quiet_openDetails : Quiet s s.openDetails := by
  unfold openDetails
  split
  · exact quiet_refl s
  · exact quiet_setMode hidle (idle_details _)

theorem quiet_openRename : Quiet s (s.openRename deps) := by
  unfold openRename
  split
  · exact quiet_refl s
  · split
    · exact quiet_setMode hidle (idle_rename _ _ _)
    · exact quiet_refl s

theorem quiet_askRemove : Quiet s (s.askRemove deps) := by
  have hconfirm : ∀ action deviceId connectionId label count,
      Quiet s (s.setMode (.confirm action deviceId connectionId label count)) :=
    fun action deviceId connectionId label count => quiet_setMode hidle (idle_confirm _ _ _ _ _)
  unfold askRemove
  split
  · exact quiet_refl s
  · split
    · split
      · exact hconfirm _ _ _ _ _
      · split
        · exact quiet_refl s
        · split
          · exact hconfirm _ _ _ _ _
          · exact quiet_refl s
    · split
      · exact hconfirm _ _ _ _ _
      · exact quiet_refl s
    · exact quiet_refl s

theorem quiet_askRemoveAll : Quiet s (s.askRemoveAll deps) := by
  unfold askRemoveAll
  split
  · exact quiet_refl s
  · exact quiet_setMode hidle (idle_confirm _ _ _ _ _)

theorem quiet_onRenameKey (raw deviceId label draft : String) : Quiet s (s.onRenameKey raw deviceId label draft) := by
  unfold onRenameKey
  split
  · exact quiet_setMode hidle idle_list
  · split
    · exact (quiet_mode hidle idle_list).trans (quiet_begin _ _)
    · split
      · exact quiet_setMode hidle (idle_rename _ _ _)
      · split
        · exact quiet_refl s
        · split
          · exact quiet_refl s
          · exact quiet_setMode hidle (idle_rename _ _ _)

theorem quiet_onDetailsKey (raw key : String) : Quiet s (s.onDetailsKey deps raw key) := by
  unfold onDetailsKey
  split
  · have hclosed : Quiet s { s with mode := .list } := quiet_mode hidle idle_list
    dsimp only
    split
    · exact hclosed.trans (quiet_askRemove idle_list)
    · exact hclosed.trans (quiet_paint _)
  · have hclosed : Quiet s { s with mode := .list, cursor := -1 } :=
      (quiet_mode hidle idle_list).trans (quiet_same rfl rfl rfl rfl rfl rfl rfl)
    dsimp only
    split
    · exact hclosed.trans (quiet_askRemove idle_list)
    · split
      · exact hclosed.trans (quiet_openRename idle_list)
      · exact hclosed.trans (quiet_paint _)

theorem onListKey_quiet (raw : String) : (∃ t, s.onListKey deps raw = (t, []) ∧ Quiet s t) ∨
    s.onListKey deps raw = s.stop := by
  have hcursor : ∀ cursor : Int, Quiet s { s with cursor := cursor }.paint := by
    intro cursor
    have hmoved : Quiet s { s with cursor := cursor } := quiet_same rfl rfl rfl rfl rfl rfl rfl
    exact hmoved.trans (quiet_paint _)
  unfold onListKey
  dsimp only
  split
  · exact .inl ⟨_, rfl, hcursor _⟩
  · split
    · exact .inl ⟨_, rfl, hcursor _⟩
    · split
      · exact .inl ⟨_, rfl, quiet_openDetails hidle⟩
      · split
        · exact .inl ⟨_, rfl, quiet_setMode hidle idle_help⟩
        · exact .inl ⟨_, rfl, quiet_setMode hidle idle_help⟩
        · exact .inr rfl
        · exact .inl ⟨_, rfl, quiet_paint s⟩
        · refine .inl ⟨_, rfl, ?_⟩
          split
          · exact quiet_setFlash s .arming
          · exact quiet_refl s
        · exact .inl ⟨_, rfl, quiet_toggleAsk⟩
        · exact .inl ⟨_, rfl, quiet_doOpenTunnel⟩
        · exact .inl ⟨_, rfl, quiet_openDetails hidle⟩
        · exact .inl ⟨_, rfl, quiet_openRename hidle⟩
        · exact .inl ⟨_, rfl, quiet_askRemove hidle⟩
        · exact .inl ⟨_, rfl, quiet_askRemove hidle⟩
        · exact .inl ⟨_, rfl, quiet_askRemoveAll hidle⟩
        · exact .inl ⟨_, rfl, quiet_refl s⟩

end Keys

theorem quiet_finish (s : DevicePanel) (result : PanelResult) (operation : PanelOperation) :
    Quiet s (s.finish result operation) := by
  have hopening : Quiet s { s with opening := false } := quiet_same rfl rfl rfl rfl rfl rfl rfl
  have hcursor : Quiet s { s with cursor := 0 } := quiet_same rfl rfl rfl rfl rfl rfl rfl
  cases operation with
  | toggleAsk _ | rename _ => exact quiet_setFlash s _
  | openTunnel =>
    unfold finish
    dsimp only
    split
    · exact hopening.trans (quiet_clearFlash _)
    · split
      · exact hopening.trans (quiet_clearFlash _)
      · exact hopening.trans (quiet_setFlash _ _)
  | remove action label =>
    cases action with
    | removeAll => exact hcursor.trans (quiet_setFlash _ _)
    | disconnect | remove => exact quiet_setFlash s _

/-! ### Steps -/

/-- What a step that asks nothing does to the question that is waited for, and which promises it settles. -/
inductive Turned (s : DevicePanel) : Stepped → Prop
  | quiet {t : DevicePanel} (hanswering : t.answering = s.answering) (hasked : t.asked = s.asked)
      (hmode : t.mode = s.mode ∨ s.mode.Idle) : Turned s (t, [])
  | answered {t : DevicePanel} {call : Nat} (result : AccessPromptResult) (hwaits : s.answering = some call)
      (hanswering : t.answering = none) (hasked : t.asked = s.asked) : Turned s (t, [⟨call, result⟩])
  | stopped {t : DevicePanel} (hnone : s.answering = none) (hanswering : t.answering = none)
      (hasked : t.asked = s.asked) : Turned s (t, [])

/-- What a new call does: its question stands, or its promise is settled at once. -/
inductive Asked (s : DevicePanel) : Stepped → Prop
  | stands {t : DevicePanel} (hanswering : t.answering = some s.asked) (hasked : t.asked = s.asked + 1) : Asked s (t, [])
  | passes {t : DevicePanel} (result : AccessPromptResult) (hanswering : t.answering = none)
      (hasked : t.asked = s.asked + 1) : Asked s (t, [⟨s.asked, result⟩])

theorem Quiet.turned (h : Quiet s t) : Turned s (t, []) :=
  .quiet h.answering h.asked (h.mode.imp (fun hsame => hsame) fun hidle => hidle.1)

theorem turned_refl (s : DevicePanel) : Turned s (s, []) := (quiet_refl s).turned

theorem answer_answering (s : DevicePanel) (result : AccessPromptResult) : (s.answer result).1.answering = none :=
  (quiet_paint _).answering

theorem answer_asked (s : DevicePanel) (result : AccessPromptResult) : (s.answer result).1.asked = s.asked :=
  (quiet_paint _).asked

theorem answer_eq (hruns : s.stopped = false) (result : AccessPromptResult) : s.answer result =
    ({ s with
        answering := none
        mode := .list
        screen := some .list
        tick := decide (0 < s.view.connected) }, settle result s.answering) := by
  unfold answer setMode paint
  rw [if_neg (by simpa using hruns)]
  rfl

theorem poised_answer (hruns : s.stopped = false) (haborted : ∀ call ∈ s.aborted, call < s.asked)
    (result : AccessPromptResult) : Poised (s.answer result).1 := by
  rw [answer_eq hruns]
  refine ⟨fun _ h => ?_, fun _ _ _ h => ?_, fun _ _ _ h => ?_, fun h => ?_, haborted⟩
  · cases h
  · cases h
  · cases h
  · have hstopped : s.stopped = true := h
    rw [hruns] at hstopped
    cases hstopped

variable {call : Nat}

theorem turned_answer (hruns : s.stopped = false) (hwaits : s.answering = some call)
    (result : AccessPromptResult) : Turned s (s.answer result) := by
  rw [answer_eq hruns, hwaits]
  exact .answered result hwaits rfl rfl

theorem Poised.stop (h : Poised s) : Poised s.stop.1 ∧ Turned s s.stop := by
  unfold DevicePanel.stop
  split
  · exact ⟨h, turned_refl s⟩
  · refine ⟨⟨fun _ h => ?_, fun _ _ _ _ h => ?_, fun _ _ _ h => ?_, fun _ => ⟨rfl, rfl⟩, h.aborted⟩, ?_⟩
    · cases h
    · cases h
    · cases h
    · cases hwaits : s.answering with
      | none => exact .stopped hwaits rfl rfl
      | some call => exact .answered .noTty hwaits rfl rfl

theorem Poised.key (h : Poised s) (raw : String) : Poised (s.onKey deps raw).1 ∧ Turned s (s.onKey deps raw) := by
  have hquiet : ∀ {t : DevicePanel}, Quiet s t → Poised t ∧ Turned s (t, []) := fun hq => ⟨h.quiet hq, hq.turned⟩
  unfold onKey
  split
  · exact hquiet (quiet_refl s)
  · rename_i hruns
    have hruns : s.stopped = false := by simpa using hruns
    cases hmode : s.mode with
    | approval call req expiresAt =>
      obtain ⟨hwaits, -⟩ := h.shows call req expiresAt hmode hruns
      dsimp only
      split
      · exact ⟨poised_answer hruns h.aborted _, turned_answer hruns hwaits _⟩
      · split
        · exact ⟨poised_answer hruns h.aborted _, turned_answer hruns hwaits _⟩
        · exact hquiet (quiet_refl s)
    | help => exact hquiet (quiet_setMode (hmode ▸ idle_help) idle_list)
    | rename deviceId label draft => exact hquiet (quiet_onRenameKey (hmode ▸ idle_rename _ _ _) _ _ _ _)
    | details key => exact hquiet (quiet_onDetailsKey (hmode ▸ idle_details _) _ _)
    | confirm action deviceId connectionId label count =>
      have hidle : s.mode.Idle := hmode ▸ idle_confirm _ _ _ _ _
      dsimp only
      split
      · exact hquiet ((quiet_mode hidle idle_list).trans (quiet_begin _ _))
      · split
        · exact hquiet (quiet_setMode hidle idle_list)
        · exact hquiet (quiet_refl s)
    | list =>
      have hkeyed : (∃ t, s.onListKey deps raw = (t, []) ∧ Quiet s t) ∨ s.onListKey deps raw = s.stop :=
        onListKey_quiet (hmode ▸ idle_list) raw
      dsimp only
      cases hkeyed with
      | inl hmoved =>
        obtain ⟨t, heq, hq⟩ := hmoved
        rw [heq]
        exact hquiet hq
      | inr hstops =>
        rw [hstops]
        exact h.stop

theorem Poised.prompt (h : Poised s) (req : AccessPromptInput) (aborted : Bool) :
    Poised (s.promptForAccess req aborted).1 ∧ Asked s (s.promptForAccess req aborted) := by
  unfold promptForAccess
  split
  · rename_i hstopped
    obtain ⟨hnone, hscreen⟩ := h.stopped hstopped
    refine ⟨⟨fun call hcall => ?_, fun call req' expiresAt hmode hruns => ?_, fun call req' expiresAt hdrawn => ?_,
      fun _ => ⟨hnone, hscreen⟩, fun call hcall => Nat.lt_succ_of_lt (h.aborted call hcall)⟩, .passes _ hnone rfl⟩
    · have hwaits : s.answering = some call := hcall
      rw [hnone] at hwaits
      cases hwaits
    · have hno : s.stopped = false := hruns
      rw [hstopped] at hno
      cases hno
    · have hdrawn : s.screen = some (.approval call req' expiresAt) := hdrawn
      rw [hscreen] at hdrawn
      cases hdrawn
  · rename_i hruns
    have hruns : s.stopped = false := by simpa using hruns
    dsimp only
    split
    · have hbelow : ∀ call ∈ s.asked :: s.aborted, call < s.asked + 1 := by
        intro call hcall
        cases mem_cons.1 hcall with
        | inl hthis => omega
        | inr hold => exact Nat.lt_succ_of_lt (h.aborted call hold)
      have hanswered := poised_answer (s := { s with
        asked := s.asked + 1
        answering := some s.asked
        mode := .approval s.asked req (s.now + approvalWindowMs)
        aborted := s.asked :: s.aborted }) hruns hbelow .noTty
      refine ⟨hanswered.quiet (quiet_paint _), .passes .noTty ?_ ?_⟩
      · exact (quiet_paint _).answering.trans (answer_answering _ _)
      · exact (quiet_paint _).asked.trans (answer_asked _ _)
    · have hpaint : DevicePanel.paint
          { s with
            asked := s.asked + 1
            answering := some s.asked
            mode := .approval s.asked req (s.now + approvalWindowMs) } =
          { s with
            asked := s.asked + 1
            answering := some s.asked
            mode := .approval s.asked req (s.now + approvalWindowMs)
            screen := some (.approval s.asked req (s.now + approvalWindowMs))
            tick := true } := by
        unfold paint
        rw [if_neg (by simpa using hruns)]
        rfl
      rw [hpaint]
      refine ⟨⟨fun call hcall => ?_, fun call req' expiresAt hmode _ => ?_, fun call req' expiresAt hdrawn => ?_,
        fun hstopped => ?_, fun call hcall => Nat.lt_succ_of_lt (h.aborted call hcall)⟩, .stands rfl rfl⟩
      · cases hcall
        exact ⟨⟨req, _, rfl⟩, Nat.lt_succ_self _, fun hmem => Nat.lt_irrefl _ (h.aborted _ hmem)⟩
      · cases hmode
        exact ⟨rfl, rfl, rfl⟩
      · cases hdrawn
        rfl
      · have hno : s.stopped = true := hstopped
        rw [hruns] at hno
        cases hno

theorem Poised.abort (h : Poised s) (call : Nat) : Poised (s.abort call).1 ∧ Turned s (s.abort call) := by
  unfold DevicePanel.abort
  split
  · exact ⟨h, turned_refl s⟩
  · rename_i hlive
    simp only [not_or, Nat.not_le] at hlive
    have hbelow : ∀ other ∈ call :: s.aborted, other < s.asked := by
      intro other hother
      cases mem_cons.1 hother with
      | inl hthis => exact hthis ▸ hlive.1
      | inr hold => exact h.aborted other hold
    split
    · rename_i hwaits
      have hruns : s.stopped = false := by
        refine Bool.eq_false_iff.2 fun hstopped => ?_
        rw [(h.stopped hstopped).1] at hwaits
        cases hwaits
      have hanswered := poised_answer (s := { s with aborted := call :: s.aborted }) hruns hbelow .noTty
      refine ⟨hanswered, ?_⟩
      have hout : settle .noTty s.answering = [⟨call, .noTty⟩] := by
        rw [hwaits]
        rfl
      change Turned s (_, settle .noTty s.answering)
      rw [hout]
      exact .answered .noTty hwaits (answer_answering _ .noTty) (answer_asked _ .noTty)
    · rename_i hother
      refine ⟨{ h with asks := fun other hwaits => ?_, aborted := hbelow }, .quiet rfl rfl (.inl rfl)⟩
      obtain ⟨hmode, hasked, hnot⟩ := h.asks other hwaits
      refine ⟨hmode, hasked, fun hmem => ?_⟩
      cases mem_cons.1 hmem with
      | inl hthis => exact hother (hthis ▸ hwaits)
      | inr hold => exact hnot hold

theorem quiet_drawn (hruns : s.stopped = false) : Quiet s { s with screen := some s.mode } :=
  ⟨rfl, rfl, rfl, rfl, .inl rfl, .inr ⟨hruns, _, rfl, .inl rfl⟩, .inl rfl⟩

theorem Poised.tick (h : Poised s) : Poised s.onTick.1 ∧ Turned s s.onTick := by
  have hquiet : ∀ {t : DevicePanel}, Quiet s t → Poised t ∧ Turned s (t, []) := fun hq => ⟨h.quiet hq, hq.turned⟩
  unfold onTick
  split
  · exact hquiet (quiet_refl s)
  · rename_i hlive
    simp only [Bool.or_eq_true, Bool.not_eq_true', not_or, Bool.not_eq_false, Bool.not_eq_true] at hlive
    split
    · rename_i call req expiresAt hmode
      split
      · obtain ⟨hwaits, -⟩ := h.shows call req expiresAt hmode hlive.2
        exact ⟨poised_answer hlive.2 h.aborted _, turned_answer hlive.2 hwaits _⟩
      · exact hquiet (quiet_drawn hlive.2)
    · exact hquiet (quiet_drawn hlive.2)

theorem poised_step (deps : PanelDeps) (h : Poised s) (e : PanelEvent) : Poised (s.step deps e).1 ∧
    (Turned s (s.step deps e) ∨ (∃ req aborted, e = .prompt req aborted) ∧ Asked s (s.step deps e)) := by
  have hturned : ∀ {r : Stepped}, Poised r.1 ∧ Turned s r → Poised r.1 ∧
      (Turned s r ∨ (∃ req aborted, e = .prompt req aborted) ∧ Asked s r) := fun hr => ⟨hr.1, .inl hr.2⟩
  have hquiet : ∀ {t : DevicePanel}, Quiet s t → Poised t ∧
      (Turned s (t, []) ∨ (∃ req aborted, e = .prompt req aborted) ∧ Asked s (t, [])) :=
    fun hq => ⟨h.quiet hq, .inl hq.turned⟩
  cases e with
  | prompt req aborted =>
    obtain ⟨hpoised, hasked⟩ := h.prompt req aborted
    exact ⟨hpoised, .inr ⟨⟨req, aborted, rfl⟩, hasked⟩⟩
  | abort call => exact hturned (h.abort call)
  | key raw => exact hturned (h.key raw)
  | interrupt | stop => exact hturned h.stop
  | tick => exact hturned h.tick
  | flashOver =>
    simp only [step]
    split
    · exact hquiet (quiet_refl s)
    · exact hquiet (quiet_clearFlash s)
  | changed view announced =>
    have hview : Quiet s { s with view := view } := quiet_same rfl rfl rfl rfl rfl rfl rfl
    simp only [step]
    split
    · exact hquiet (hview.trans (quiet_paint _))
    · exact hquiet hview
  | finish n result =>
    simp only [step]
    split
    · exact hquiet (quiet_refl s)
    · have hgone : Quiet s { s with operations := s.operations.eraseIdx n } := quiet_same rfl rfl rfl rfl rfl rfl rfl
      exact hquiet (hgone.trans (quiet_finish _ _ _))
  | redraw =>
    simp only [step]
    split
    · exact hquiet (quiet_refl s)
    · rename_i hruns
      exact hquiet (quiet_drawn (by simpa using hruns))
  | wait ms => exact hquiet (quiet_same rfl rfl rfl rfl rfl rfl rfl)

theorem poised_start (view : PanelView) : Poised (start view) := by
  refine Poised.quiet ⟨fun _ h => ?_, fun _ _ _ h => ?_, fun _ _ _ h => ?_, fun h => ?_, fun _ h => ?_⟩ (quiet_paint _)
  · cases h
  · cases h
  · cases h
  · cases h
  · cases h

theorem poised_run (deps : PanelDeps) (view : PanelView) (es : List PanelEvent) :
    Poised ((devicePanel deps view).run es) :=
  (devicePanel deps view).run_invariant (poised_start view) (fun _ e h => (poised_step deps h e).1) es

/-! ### Runs -/

/-- Each promise is settled once at most, and that of the question that is waited for is open. -/
structure Recorded (s : DevicePanel) (settled : List Nat) : Prop where
  once : settled.Nodup
  asked : ∀ call ∈ settled, call < s.asked
  opened : ∀ call, s.answering = some call → call ∉ settled

variable {settled : List Nat}

theorem Recorded.snoc (h : Recorded s settled) (hnew : call ∉ settled) : (settled ++ [call]).Nodup := by
  refine nodup_append.2 ⟨h.once, nodup_singleton _, fun other hold this hthis heq => ?_⟩
  have hcall : this = call := mem_singleton.1 hthis
  rw [heq, hcall] at hold
  exact hnew hold

variable {r : Stepped}

theorem recorded_turned (h : Poised s) (hrecorded : Recorded s settled)
    (hturned : Turned s r) : Recorded r.1 (settled ++ r.2.map Settled.call) := by
  cases hturned with
  | quiet hanswering hasked hmode =>
    rw [map_nil, append_nil]
    exact ⟨hrecorded.once, by rw [hasked]; exact hrecorded.asked, by rw [hanswering]; exact hrecorded.opened⟩
  | @answered t call result hwaits hanswering hasked =>
    refine ⟨hrecorded.snoc (hrecorded.opened call hwaits), ?_, ?_⟩
    · intro other hother
      rw [hasked]
      cases mem_append.1 hother with
      | inl hold => exact hrecorded.asked other hold
      | inr hthis =>
        cases mem_singleton.1 hthis
        exact (h.asks call hwaits).2.1
    · intro other hwaits'
      rw [hanswering] at hwaits'
      cases hwaits'
  | stopped hnone hanswering hasked =>
    rw [map_nil, append_nil]
    refine ⟨hrecorded.once, by rw [hasked]; exact hrecorded.asked, fun other hwaits => ?_⟩
    rw [hanswering] at hwaits
    cases hwaits

theorem recorded_asked (hrecorded : Recorded s settled) (hasks : Asked s r) :
    Recorded r.1 (settled ++ r.2.map Settled.call) := by
  have hnew : s.asked ∉ settled := fun hmem => Nat.lt_irrefl _ (hrecorded.asked _ hmem)
  cases hasks with
  | stands hanswering hasked =>
    rw [map_nil, append_nil]
    refine ⟨hrecorded.once, fun other hother => ?_, fun other hwaits hmem => ?_⟩
    · rw [hasked]
      exact Nat.lt_succ_of_lt (hrecorded.asked other hother)
    · rw [hanswering] at hwaits
      cases hwaits
      exact hnew hmem
  | passes result hanswering hasked =>
    refine ⟨hrecorded.snoc hnew, fun other hother => ?_, fun other hwaits => ?_⟩
    · rw [hasked]
      cases mem_append.1 hother with
      | inl hold => exact Nat.lt_succ_of_lt (hrecorded.asked other hold)
      | inr hthis =>
        cases mem_singleton.1 hthis
        exact Nat.lt_succ_self _
    · rw [hanswering] at hwaits
      cases hwaits

def settledIn (deps : PanelDeps) (view : PanelView) (es : List PanelEvent) : List Nat :=
  ((devicePanel deps view).outputs es).map Settled.call

theorem settledIn_snoc (deps : PanelDeps) (view : PanelView) (es : List PanelEvent) (e : PanelEvent) :
    settledIn deps view (es ++ [e]) =
      settledIn deps view es ++ ((((devicePanel deps view).run es).step deps e).2).map Settled.call := by
  unfold settledIn
  rw [(devicePanel deps view).outputs_snoc, map_append]
  rfl

theorem recorded_run (deps : PanelDeps) (view : PanelView) (es : List PanelEvent) :
    Recorded ((devicePanel deps view).run es) (settledIn deps view es) := by
  induction es using List.reverseRecOn with
  | nil => exact ⟨nodup_nil, fun _ h => (by cases h), fun _ _ h => (by cases h)⟩
  | append_singleton es e ih =>
    have hpoised := poised_run deps view es
    rw [settledIn_snoc, (devicePanel deps view).run_snoc]
    cases (poised_step deps hpoised e).2 with
    | inl hturned => exact recorded_turned hpoised ih hturned
    | inr hasks => exact recorded_asked ih hasks.2

/-! ### One question at a time -/

/-- No call comes while the question of another one is on the screen. -/
def OneAtATime (x : Machine.Entry DevicePanel PanelEvent Settled) : Prop :=
  ∀ req aborted, x.event = .prompt req aborted → ∀ call, ¬x.pre.Shows call

/-- Whatever is not settled is waited for. -/
def Awaited (s : DevicePanel) (settled : List Nat) : Prop :=
  ∀ call < s.asked, call ∉ settled → s.answering = some call

theorem awaited_turned (h : Awaited s settled) (hturned : Turned s r) :
    Awaited r.1 (settled ++ r.2.map Settled.call) := by
  intro call hcall hopen
  have hold : call ∉ settled := fun hmem => hopen (mem_append_left _ hmem)
  cases hturned with
  | quiet hanswering hasked hmode =>
    rw [hanswering]
    exact h call (hasked ▸ hcall) hold
  | answered result hwaits hanswering hasked =>
    have hthis := h call (hasked ▸ hcall) hold
    rw [hwaits] at hthis
    cases hthis
    exact absurd (mem_append_right _ (mem_singleton.2 rfl)) hopen
  | stopped hnone hanswering hasked =>
    rw [hanswering, ← hnone]
    exact h call (hasked ▸ hcall) hold

theorem awaited_asked (h : Awaited s settled) (hnone : s.answering = none)
    (hasks : Asked s r) : Awaited r.1 (settled ++ r.2.map Settled.call) := by
  intro call hcall hopen
  have hold : call ∉ settled := fun hmem => hopen (mem_append_left _ hmem)
  have hthis : call < s.asked + 1 → call = s.asked := by
    intro hlt
    by_cases hbelow : call < s.asked
    · have hwaits := h call hbelow hold
      rw [hnone] at hwaits
      cases hwaits
    · omega
  cases hasks with
  | stands hanswering hasked =>
    rw [hanswering, hthis (hasked ▸ hcall)]
  | passes result hanswering hasked =>
    rw [hthis (hasked ▸ hcall)] at hopen
    exact absurd (mem_append_right _ (mem_singleton.2 rfl)) hopen

theorem Poised.shown (h : Poised s) {call : Nat} (hwaits : s.answering = some call) : s.Shows call ∧ s.tick = true := by
  obtain ⟨⟨req, expiresAt, hmode⟩, -⟩ := h.asks call hwaits
  have hruns : s.stopped = false := by
    refine Bool.eq_false_iff.2 fun hstopped => ?_
    rw [(h.stopped hstopped).1] at hwaits
    cases hwaits
  obtain ⟨-, hscreen, htick⟩ := h.shows call req expiresAt hmode hruns
  exact ⟨⟨req, expiresAt, hscreen.trans (congrArg some hmode)⟩, htick⟩

variable {req : AccessPromptInput} {expiresAt : Nat}

theorem Poised.waits (h : Poised s) (hscreen : s.screen = some (.approval call req expiresAt)) :
    s.answering = some call ∧ s.mode = .approval call req expiresAt ∧ s.stopped = false ∧ s.tick = true := by
  have hmode := h.drawn call req expiresAt hscreen
  have hruns : s.stopped = false := by
    refine Bool.eq_false_iff.2 fun hstopped => ?_
    rw [(h.stopped hstopped).2] at hscreen
    cases hscreen
  obtain ⟨hwaits, -, htick⟩ := h.shows call req expiresAt hmode hruns
  exact ⟨hwaits, hmode, hruns, htick⟩

theorem Poised.unshown (h : Poised s) : (∀ call, ¬s.Shows call) ↔ s.answering = none := by
  constructor
  · intro hnone
    cases hwaits : s.answering with
    | none => rfl
    | some call => exact absurd (h.shown hwaits).1 (hnone call)
  · rintro hnone call ⟨req, expiresAt, hscreen⟩
    rw [(h.waits hscreen).1] at hnone
    cases hnone

def question (s : DevicePanel) : Option Nat :=
  match s.screen with
  | some (.approval call _ _) => some call
  | _ => none

theorem Poised.question_eq (h : Poised s) : s.question = s.answering := by
  cases hwaits : s.answering with
  | some call =>
    obtain ⟨⟨req, expiresAt, hscreen⟩, -⟩ := h.shown hwaits
    unfold question
    rw [hscreen]
  | none =>
    have hnone := h.unshown.2 hwaits
    unfold question
    split
    · rename_i call req expiresAt hscreen
      exact absurd ⟨req, expiresAt, hscreen⟩ (hnone call)
    · rfl

variable {raw : String}

theorem onListKey_silent (hraw : lowered raw ≠ "q") : (s.onListKey deps raw).2 = [] := by
  unfold onListKey
  dsimp only
  split
  · rfl
  · split
    · rfl
    · split
      · rfl
      · split <;> first | rfl | skip
        rename_i hquit
        exact absurd hquit hraw

theorem onKey_silent (hidle : s.mode.Idle) (hraw : lowered raw ≠ "q") : (s.onKey deps raw).2 = [] := by
  unfold onKey
  split
  · rfl
  · cases hmode : s.mode with
    | approval call req expiresAt => exact absurd hmode (hidle _ _ _)
    | list => exact onListKey_silent hraw
    | _ => rfl

/-- A y or an n settles the question on the screen, and nothing else. -/
theorem Poised.key_out (h : Poised s) : (lowered raw = "y" → (s.onKey deps raw).2 = settle .approved s.question) ∧
    (lowered raw = "n" → (s.onKey deps raw).2 = settle .refused s.question) := by
  rw [h.question_eq]
  cases hwaits : s.answering with
  | some call =>
    obtain ⟨⟨req, expiresAt, hscreen⟩, -⟩ := h.shown hwaits
    obtain ⟨-, hmode, hruns, -⟩ := h.waits hscreen
    unfold onKey
    rw [if_neg (by simp [hruns]), hmode]
    dsimp only
    constructor
    · intro hyes
      rw [if_pos hyes, answer_eq hruns, hwaits]
    · intro hno
      rw [if_neg (by rw [hno]; decide), if_pos hno, answer_eq hruns, hwaits]
  | none =>
    have hsilent : lowered raw ≠ "q" → (s.onKey deps raw).2 = [] := by
      intro hraw
      by_cases hstopped : s.stopped = true
      · unfold onKey
        rw [if_pos hstopped]
      · refine onKey_silent (fun call req expiresAt hmode => ?_) hraw
        rw [(h.shows call req expiresAt hmode (by simpa using hstopped)).1] at hwaits
        cases hwaits
    exact ⟨fun hyes => hsilent (by rw [hyes]; decide), fun hno => hsilent (by rw [hno]; decide)⟩

theorem Poised.tick_out (h : Poised s)
    (hscreen : s.screen = some (.approval call req expiresAt)) (hover : expiresAt ≤ s.now) :
    s.onTick.2 = [⟨call, .timeout⟩] := by
  obtain ⟨hwaits, hmode, hruns, htick⟩ := h.waits hscreen
  unfold onTick
  rw [if_neg (by simp [hruns, htick]), hmode]
  dsimp only
  rw [if_pos hover, answer_eq hruns, hwaits]
  rfl

theorem prompt_screen (hruns : s.stopped = false) (req : AccessPromptInput) :
    (s.promptForAccess req false).1.screen = some (.approval s.asked req (s.now + approvalWindowMs)) := by
  unfold promptForAccess paint
  rw [if_neg (by simp [hruns])]
  dsimp only
  rw [if_neg (by simp), if_neg (by simp [hruns])]

/-- The question on the screen stays as it is, or is settled, unless another one is asked. -/
theorem Poised.stays (h : Poised s)
    (hscreen : s.screen = some (.approval call req expiresAt)) (hpost : Poised r.1) (hturned : Turned s r) :
    r.1.screen = s.screen ∨ call ∈ r.2.map Settled.call := by
  obtain ⟨hwaits, hmode, -⟩ := h.waits hscreen
  cases hturned with
  | quiet hanswering hasked hkept =>
    refine .inl ?_
    rename_i t
    have hsame : t.mode = .approval call req expiresAt := by
      cases hkept with
      | inl hsame => exact hsame.trans hmode
      | inr hidle => exact absurd hmode (hidle _ _ _)
    obtain ⟨⟨req', expiresAt', hdrawn⟩, -⟩ := hpost.shown (hanswering.trans hwaits)
    obtain ⟨-, hmode', -⟩ := hpost.waits hdrawn
    have hdrawn : t.screen = some (.approval call req' expiresAt') := hdrawn
    have hmode' : t.mode = .approval call req' expiresAt' := hmode'
    change t.screen = s.screen
    rw [hdrawn, hscreen, ← hmode', hsame]
  | answered result hwaits' hanswering hasked =>
    rw [hwaits] at hwaits'
    cases hwaits'
    exact .inr (mem_singleton.2 rfl)
  | stopped hnone hanswering hasked =>
    rw [hnone] at hwaits
    cases hwaits

theorem Poised.replaced (h : Poised s)
    (hscreen : s.screen = some (.approval call req expiresAt)) (hpost : Poised r.1) (hasks : Asked s r) :
    ¬(r.1.screen = s.screen ∨ call ∈ r.2.map Settled.call) := by
  obtain ⟨hwaits, -⟩ := h.waits hscreen
  have hbelow := (h.asks call hwaits).2.1
  rintro (hsame | hmem)
  · obtain ⟨hpostWaits, -⟩ := hpost.waits (hsame.trans hscreen)
    cases hasks with
    | stands hanswering hasked =>
      have hcall : s.asked = call := Option.some.inj (hanswering.symm.trans hpostWaits)
      omega
    | passes result hanswering hasked =>
      rw [hanswering] at hpostWaits
      cases hpostWaits
  · cases hasks with
    | stands hanswering hasked => cases hmem
    | passes result hanswering hasked =>
      have hcall : call = s.asked := mem_singleton.1 hmem
      omega

/-! ### Whole runs -/

structure Answered (deps : PanelDeps) (view : PanelView) (es : List PanelEvent) : Prop where
  once : (settledIn deps view es).Nodup ∧ ∀ call ∈ settledIn deps view es, call < ((devicePanel deps view).run es).asked
  due : ∀ call < ((devicePanel deps view).run es).asked, call ∉ settledIn deps view es →
    call ∉ ((devicePanel deps view).run es).aborted ∧ ((devicePanel deps view).run es).stopped = false ∧
      ((devicePanel deps view).run es).tick = true ∧ ((devicePanel deps view).run es).Shows call
  opens : ∀ x ∈ (devicePanel deps view).trace es, ∀ req, x.event = .prompt req false → x.pre.stopped = false →
    x.post.screen = some (.approval x.pre.asked req (x.pre.now + approvalWindowMs))
  stays : ∀ x ∈ (devicePanel deps view).trace es, ∀ call req expiresAt,
    x.pre.screen = some (.approval call req expiresAt) →
      x.post.screen = x.pre.screen ∨ call ∈ x.out.map Settled.call
  timely : ∀ x ∈ (devicePanel deps view).trace es, ∀ call req expiresAt,
    x.pre.screen = some (.approval call req expiresAt) → x.event = .tick → expiresAt ≤ x.pre.now →
      x.out = [⟨call, .timeout⟩]
  keys : ∀ x ∈ (devicePanel deps view).trace es, ∀ raw, x.event = .key raw →
    (lowered raw = "y" → x.out = settle .approved x.pre.question) ∧
    (lowered raw = "n" → x.out = settle .refused x.pre.question)

theorem awaited_run (deps : PanelDeps) (view : PanelView) (es : List PanelEvent)
    (hone : ∀ x ∈ (devicePanel deps view).trace es, OneAtATime x) :
    Awaited ((devicePanel deps view).run es) (settledIn deps view es) := by
  induction es using List.reverseRecOn with
  | nil => exact fun call hcall _ => absurd hcall (Nat.not_lt_zero _)
  | append_singleton es e ih =>
    obtain ⟨hpast, hthis⟩ := Machine.forall_trace_snoc hone
    have hpoised := poised_run deps view es
    have hbefore := ih hpast
    rw [settledIn_snoc, (devicePanel deps view).run_snoc]
    cases (poised_step deps hpoised e).2 with
    | inl hturned => exact awaited_turned hbefore hturned
    | inr hasks =>
      obtain ⟨⟨req, aborted, hevent⟩, hasks⟩ := hasks
      exact awaited_asked hbefore (hpoised.unshown.1 (hthis req aborted hevent)) hasks

/-- The one place where an answer may be lost is a call that comes while another question is on the screen. -/
theorem answered_iff_one_at_a_time (deps : PanelDeps) (view : PanelView) (es : List PanelEvent) :
    Answered deps view es ↔ ∀ x ∈ (devicePanel deps view).trace es, OneAtATime x := by
  constructor
  · intro hanswered x hx req aborted hevent call hshows
    obtain ⟨before, e, after, -, rfl⟩ := ((devicePanel deps view).mem_trace es x).1 hx
    have hpoised := poised_run deps view before
    obtain ⟨req', expiresAt, hscreen⟩ := hshows
    have hevent : e = .prompt req aborted := hevent
    subst hevent
    obtain ⟨hpost, hasks⟩ := hpoised.prompt req aborted
    exact hpoised.replaced hscreen hpost hasks (hanswered.stays _ hx call req' expiresAt hscreen)
  · intro hone
    have hpoised := poised_run deps view es
    have hrecorded := recorded_run deps view es
    refine ⟨⟨hrecorded.once, hrecorded.asked⟩, ?_, ?_, ?_, ?_, ?_⟩
    · intro call hcall hopen
      have hwaits := awaited_run deps view es hone call hcall hopen
      obtain ⟨⟨req, expiresAt, hscreen⟩, htick⟩ := hpoised.shown hwaits
      exact ⟨(hpoised.asks call hwaits).2.2, (hpoised.waits hscreen).2.2.1, htick, req, expiresAt, hscreen⟩
    · intro x hx req hevent hruns
      obtain ⟨before, e, after, -, rfl⟩ := ((devicePanel deps view).mem_trace es x).1 hx
      have hevent : e = .prompt req false := hevent
      subst hevent
      exact prompt_screen hruns req
    · intro x hx call req expiresAt hscreen
      obtain ⟨before, e, after, -, rfl⟩ := ((devicePanel deps view).mem_trace es x).1 hx
      have hbefore := poised_run deps view before
      obtain ⟨hpost, hstep⟩ := poised_step deps hbefore e
      cases hstep with
      | inl hturned => exact hbefore.stays hscreen hpost hturned
      | inr hasks =>
        obtain ⟨⟨req', aborted, hevent⟩, -⟩ := hasks
        exact absurd ⟨req, expiresAt, hscreen⟩ (hone _ hx req' aborted hevent call)
    · intro x hx call req expiresAt hscreen hevent hover
      obtain ⟨before, e, after, -, rfl⟩ := ((devicePanel deps view).mem_trace es x).1 hx
      have hevent : e = .tick := hevent
      subst hevent
      exact (poised_run deps view before).tick_out hscreen hover
    · intro x hx raw hevent
      obtain ⟨before, e, after, -, rfl⟩ := ((devicePanel deps view).mem_trace es x).1 hx
      have hevent : e = .key raw := hevent
      subst hevent
      exact (poised_run deps view before).key_out

/-! ### Two pairings at once -/

def allDeps : PanelDeps := ⟨true, true, true, true, true, true, true⟩

def emptyView : PanelView := ⟨[], 0, false, true⟩

def asksFor (label : String) : PanelEvent := .prompt ⟨some "olive", label, "you@example.org", some .code⟩ false

/-- Two devices ask, y is pressed, the first one is answered elsewhere, time passes and the panel stops. -/
def twoQuestions : List PanelEvent :=
  [asksFor "Pixel 8", asksFor "iPad", .key "y", .abort 0, .wait approvalWindowMs, .tick, .stop]

theorem first_question_left_open : ((devicePanel allDeps emptyView).run twoQuestions).asked = 2 ∧
    settledIn allDeps emptyView twoQuestions = [1] ∧ ¬Answered allDeps emptyView twoQuestions := by
  have hasked : ((devicePanel allDeps emptyView).run twoQuestions).asked = 2 := by decide +kernel
  have hsettled : settledIn allDeps emptyView twoQuestions = [1] := by decide +kernel
  have hstopped : ((devicePanel allDeps emptyView).run twoQuestions).stopped = true := by decide +kernel
  refine ⟨hasked, hsettled, fun hanswered => ?_⟩
  have hdue := hanswered.due 0 (by rw [hasked]; decide) (by rw [hsettled]; decide)
  rw [hstopped] at hdue
  cases hdue.2.1

end DevicePanel

end Mtmux.Cli
