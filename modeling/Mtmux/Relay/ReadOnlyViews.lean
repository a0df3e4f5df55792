import Mtmux.Relay.ExactNames
import Mtmux.Relay.Screen

/-! What a connection that may only read does to the sessions of the machine. -/
namespace Mtmux.Relay
open Protocol Async Machine List

def Viewer (grant : GrantRecord) : Prop := grant.readOnly = true ∧ grant.files ≠ .write

def ViewerCall (conn : String) (c : Call) : Prop :=
  reading c = true ∨ ∃ name, IsCloneOf conn name ∧
    ((∃ target, c = .tmux (.groupSession target name)) ∨ c = .tmux (.killSession name) ∨
      ∃ option value, c = .tmux (.on (.session name) (.setOption option value)))

def LeavesCopyMode (c : Call) : Prop := ∃ session, c = .tmux (.on (.session session) (.sendKeys ["-X", "cancel"]))

def ViewerAsks (conn : String) (msg : ClientMessage) (c : Call) : Prop :=
  ViewerCall conn c ∨ msg = .tmuxExitCopyMode ∧ LeavesCopyMode c

/-- It types nothing, and looks only through its own clone. -/
def ViewerTell (conn : String) : Out → Prop
  | .write .. | .spawn (.announcePanes _) => False
  | .spawn (.attach _ target _ readOnly) => readOnly = true ∧ IsCloneOf conn target
  | _ => True

/-- The view is where the message would put it, as far as the pane in front has answered. -/
def Still (state : ScrollState) : ClientMessage → Prop
  | .tmuxScroll lines => lines = 0
  | .tmuxScrollTo position => min position state.historySize = if state.inMode then state.position else 0
  | .tmuxExitCopyMode => state.inMode = false
  | _ => True

def StillReply (msg : ClientMessage) : (c : Call) → Except Failure c.Output → Prop
  | .tmux (.on _ .scrollState), .ok state => Still state msg
  | _, _ => True

def viewerTerms (host : Host) (grants : String → GrantRecord) (conn : String) (msg : ClientMessage) : RelayTerms :=
  relayTerms host (some conn) (announcesSessions msg) (fun id grant => grants id = grant) (ViewerAsks conn msg)
    (ViewerTell conn) fun c r => msg ≠ .tmuxExitCopyMode → StillReply msg c r

section Viewer
variable {host : Host} {grants : String → GrantRecord} {conn : String} {grant : GrantRecord} {msg : ClientMessage}

theorem viewer_clones (hgrant : grant.readOnly = true) : Clones conn grant (ViewerAsks conn msg) (ViewerTell conn) where
  reads _ hc := .inl (.inl hc)
  groups target name _ hname := .inl (.inr ⟨name, hname, .inl ⟨target, rfl⟩⟩)
  locks name option value hname := .inl (.inr ⟨name, hname, .inr (.inr ⟨option, value, rfl⟩)⟩)
  kills name hname := .inl (.inr ⟨name, hname, .inr (.inl rfl)⟩)
  sends _ := trivial
  ends _ := trivial
  resizes _ _ := trivial
  opens _ _ htarget := ⟨hgrant, htarget hgrant⟩

theorem viewer_permits : Permits (viewerTerms host grants conn msg) conn where
  reads _ hc := .inl (.inl hc)
  sends _ _ _ := ⟨.inl rfl, trivial⟩
  updates _ hf s _ := may_update (fun c => (hf c).1) (fun c => (hf c).2.1) (fun c => .inl (hf c).2.2.2.2.1) s
  probes _ _ _ := may_aside rfl rfl rfl rfl
  approvals _ _ _ := may_aside rfl rfl rfl rfl

theorem scroll_still (lines : Int) (session : String) :
    (scrollHistory session lines).Kept (viewerTerms host grants conn (.tmuxScroll lines)) := by
  unfold scrollHistory
  split
  · exact readScrollState_kept viewer_permits session
  · rename_i hlines
    intro s hs
    refine within_bind.2 (within_call (.inl (.inl rfl)) fun s' hs' state hstill => ?_)
    exact absurd (hstill (by simp)) hlines

theorem scrollTo_still (position : Nat) (session : String) :
    (scrollToPosition session position).Kept (viewerTerms host grants conn (.tmuxScrollTo position)) := by
  intro s hs
  refine within_bind.2 (within_call (.inl (.inl rfl)) fun s' hs' state hstill => ?_)
  have hplace : min position state.historySize = if state.inMode then state.position else 0 := hstill (by simp)
  have hzero : ((min position state.historySize : Nat) : Int) -
      ((if state.inMode then state.position else 0 : Nat) : Int) = 0 := by omega
  dsimp only
  rw [if_pos hzero]
  trivial

theorem exit_still (session : String) :
    (Router.exitCopyMode conn session).Kept (viewerTerms host grants conn .tmuxExitCopyMode) := by
  have hexit : (exitCopyMode session).Kept (viewerTerms host grants conn .tmuxExitCopyMode) := by
    refine (readScrollState_kept viewer_permits _).bind fun state => ?_
    split
    · exact kept_pure _
    · exact kept_call (.inr ⟨rfl, session, rfl⟩)
  refine hexit.bind fun _ => attachedNow_kept.bind fun _ => ?_
  exact (readScrollState_kept viewer_permits _).bind fun _ => sendScrollState_kept viewer_permits _

theorem viewer_handled (hgrant : Viewer grant) (hown : ∃ n, conn = connectionName n) (hpolicy : (policy msg).write = false)
    (hcopy : msg ≠ .tmuxCopyMode) : (handle conn grant msg).Kept (viewerTerms host grants conn msg) := by
  cases hscroll : scrolls msg with
  | false => exact look_handled (viewer_clones hgrant.1) hown msg hpolicy hscroll
  | true =>
    cases msg with
    | tmuxCopyMode => exact absurd rfl hcopy
    | tmuxScroll lines =>
      refine attached_kept viewer_permits fun session => ?_
      exact (scroll_still lines session).bind fun _ => sendScrollState_kept viewer_permits _
    | tmuxScrollTo position =>
      refine attached_kept viewer_permits fun session => ?_
      exact (scrollTo_still position session).bind fun _ => sendScrollState_kept viewer_permits _
    | tmuxExitCopyMode => exact attached_kept viewer_permits exit_still
    | _ => cases hscroll

theorem rights_viewer (ctx : EnforceContext) {now : Nat} (hgrant : Viewer ctx.grant)
    (h : Enforce.rights ctx msg now = .ok) : (policy msg).write = false := by
  unfold Enforce.rights at h
  split at h
  · cases h
  · split at h
    · cases h
    · split at h
      · cases h
      · rename_i hwrite
        simpa [hgrant.1] using hwrite

theorem enforce_copyMode (ctx : EnforceContext) (hmsg : msg = .tmuxCopyMode ∨ msg = .tmuxExitCopyMode) :
    enforce ctx msg = Async.read fun s => Async.done (Enforce.rights ctx msg s.now) := by
  refine congrArg Async.read (funext fun s => ?_)
  change Enforce.andThen (pure (Enforce.rights ctx msg s.now)) _ = _
  cases Enforce.rights ctx msg s.now with
  | ok => cases hmsg <;> subst msg <;> rfl
  | deny code message => rfl

theorem within_look {T : RelayTerms} {Q : RelayState → Unit → Prop} {s : RelayState}
    {look : ConnectionState → Option α} {f : Option α → Io Unit} :
    (Io.look conn look >>= f).Within T Q s ↔ (f ((s.connection conn).bind look)).Within T Q s := Iff.rfl

theorem copyMode_still {s : RelayState} (hs : (viewerTerms host grants conn .tmuxCopyMode).inv s)
    (hfree : ∀ c, s.connection conn = some c →
      Enforce.rights ⟨c.grant, c.attachedSession, none⟩ .tmuxCopyMode s.now = .ok →
      c.attachedSession.filter (· ≠ "") = none) :
    (routeMessage conn .tmuxCopyMode).Within (viewerTerms host grants conn .tmuxCopyMode) (fun _ _ => True) s := by
  have herror : ∀ code message,
      (Io.sendError conn code message).Kept (viewerTerms host grants conn .tmuxCopyMode) :=
    fun _ _ => sendError_kept viewer_permits _ _
  unfold routeMessage
  rw [within_get]
  cases hc : s.connection conn with
  | none => trivial
  | some c =>
    dsimp only
    rw [enforce_copyMode _ (.inl rfl), within_read]
    cases hrights : Enforce.rights ⟨c.grant, c.attachedSession, none⟩ .tmuxCopyMode s.now with
    | deny code message => exact herror code message s hs
    | ok =>
      have hnone := hfree c hc hrights
      refine Within.catching ?_ hs fun s' hs' e => herror _ _ s' hs'
      change (Router.attached conn enterCopyMode).Within _ _ s
      unfold Router.attached
      rw [within_look, hc, Option.bind_some, hnone]
      exact herror _ _ s hs

theorem viewer_route {s : RelayState} (hs : (viewerTerms host grants conn msg).inv s) (hgrant : Viewer (grants conn))
    (hfree : msg = .tmuxCopyMode → ∀ c, s.connection conn = some c →
      Enforce.rights ⟨c.grant, c.attachedSession, none⟩ .tmuxCopyMode s.now = .ok →
      c.attachedSession.filter (· ≠ "") = none) :
    (routeMessage conn msg).Within (viewerTerms host grants conn msg) (fun _ _ => True) s := by
  by_cases hcopy : msg = .tmuxCopyMode
  · subst hcopy
    exact copyMode_still hs (hfree rfl)
  · refine route_within viewer_permits hs fun c hc hrights => ?_
    have hheld : grants conn = c.grant := hs.2 conn c hc
    have hviewer : Viewer c.grant := hheld ▸ hgrant
    have hown := hs.1.numbered conn c hc
    have hpolicy := rights_viewer ⟨c.grant, c.attachedSession, none⟩ hviewer hrights
    exact viewer_handled hviewer hown hpolicy hcopy

end Viewer

/-! ### Runs -/

namespace Task

def IsViewer (grants : String → GrantRecord) (task : Task) (conn : String) (msg : ClientMessage) : Prop :=
  task = .message conn msg ∧ Viewer (grants conn)

def viewTerms (host : Host) (grants : String → GrantRecord) (task : Task) : RelayTerms :=
  relayTerms host task.own task.announces (fun id grant => grants id = grant)
    (fun c => ∀ conn msg, task.IsViewer grants conn msg → ViewerAsks conn msg c)
    (fun o => ∀ conn msg, task.IsViewer grants conn msg → ViewerTell conn o)
    (fun c r => ∀ conn msg, task.IsViewer grants conn msg → msg ≠ .tmuxExitCopyMode → StillReply msg c r)

section ViewTerms
variable {host : Host} {grants : String → GrantRecord} {s : RelayState}

section
variable (hs : OwnClones host s ∧ Held (fun id grant => grants id = grant) s)
include hs

theorem view_inv :
    OwnClones host s ∧ Held (fun _ _ => True) s := ⟨hs.1, fun _ _ _ => trivial⟩

theorem other_within {task : Task}
    (hother : ∀ conn msg, ¬ task.IsViewer grants conn msg) :
    task.program.Within (task.viewTerms host grants) (fun _ _ => True) s := by
  refine (task.program_kept s (view_inv hs)).weaken hs (fun _ h => view_inv h) (fun _ _ h => h) ?_ ?_ ?_
  · intro r o _ htells
    exact ⟨htells.1, fun conn msg hviewer => absurd hviewer (hother conn msg)⟩
  · intro c _ conn msg hviewer
    exact absurd hviewer (hother conn msg)
  · intro c r _
    trivial

variable {conn : String}

theorem viewer_within {msg : ClientMessage}
    (hgrant : Viewer (grants conn))
    (hfree : msg = .tmuxCopyMode → ∀ c, s.connection conn = some c →
      Enforce.rights ⟨c.grant, c.attachedSession, none⟩ .tmuxCopyMode s.now = .ok →
      c.attachedSession.filter (· ≠ "") = none) :
    (Task.message conn msg).program.Within ((Task.message conn msg).viewTerms host grants) (fun _ _ => True) s := by
  have hroute : (routeMessage conn msg).Within (viewerTerms host grants conn msg) (fun _ _ => True) s :=
    viewer_route hs hgrant hfree
  refine hroute.weaken hs (fun _ h => h) (fun _ _ h => h) ?_ ?_ ?_
  · intro r o _ htells
    refine ⟨htells.1, fun conn' msg' hviewer => ?_⟩
    cases hviewer.1
    exact htells.2
  · intro c hcall conn' msg' hviewer
    cases hviewer.1
    exact hcall
  · intro c r hreply
    exact hreply conn msg ⟨rfl, hgrant⟩

end

end ViewTerms

end Task

section Views
variable (matchesPattern : String → String → Bool)

def Finds (sessions : List String) (c : TmuxCommand) (hit : String) : Prop :=
  ∀ name, c.target.bind Target.sessionName = some name → resolve matchesPattern sessions name = some hit

def HandlesFor (s : System) (e : SystemEvent) (conn : String) : Prop :=
  e = .next conn ∨ ∃ id log rest msg, e = .resume id ∧
    s.world.tasks.get id = some ⟨.message conn msg, log, .answered rest⟩

structure TouchesNothing (x : Machine.Entry System SystemEvent SystemOutput) (conn : String) : Prop where
  commands : ∀ msg c sessions, Carries x.pre x.event (.message conn msg) c sessions → ∀ screen turn hit,
    screen.sessions = sessions → Finds matchesPattern sessions c hit →
      Untouched (IsCloneOf conn) screen (screen.after hit turn c)
  input : HandlesFor x.pre x.event conn → ∀ bridge data, .pty (.write bridge data) ∉ x.out
  views : HandlesFor x.pre x.event conn → ∀ job ∈ x.post.jobs, job ∈ x.pre.jobs ∨
    ∃ grant name size, job = .attach grant name size true ∧ IsCloneOf conn name ∧ ∀ screen turn hit,
      Untouched (IsCloneOf conn) screen (screen.after hit turn (.on (.session name) (.attachSession size true)))

def ReadsOnly (x : Machine.Entry System SystemEvent SystemOutput) : Prop :=
  ∀ conn c, x.pre.relay.connection conn = some c → Viewer c.grant → TouchesNothing matchesPattern x conn

/-- In the step the viewer asks for no copy mode while attached, a scroll finds the view where it is to be, copy mode is
left, by its first look at the pane, only where it is over, and the name of its own clone is not taken for another's. -/
structure StaysPut (x : Machine.Entry System SystemEvent SystemOutput) (conn : String) (c : ConnectionState) :
    Prop where
  copyMode : x.event = .next conn → x.pre.busy conn = false → c.queue.head? = some .tmuxCopyMode →
    Enforce.rights ⟨c.grant, c.attachedSession, none⟩ .tmuxCopyMode x.pre.relay.now = .ok →
    c.attachedSession.filter (· ≠ "") = none
  scrolls : ∀ id a msg log call next, x.event = .exec id a →
    x.pre.world.tasks.get id = some ⟨.message conn msg, log, .asking call next⟩ →
    (msg = .tmuxExitCopyMode → log = []) → StillReply msg call (a.reply call)
  clone : ∀ msg name sessions, Carries x.pre x.event (.message conn msg) (.killSession name) sessions →
    Unambiguous matchesPattern sessions name

def ViewersStayPut (x : Machine.Entry System SystemEvent SystemOutput) : Prop :=
  ∀ conn c, x.pre.relay.connection conn = some c → Viewer c.grant → StaysPut matchesPattern x conn c

end Views

namespace System
variable {host : Host}

variable {s : System}

/-- Nothing but a new connection changes what grants there are. -/
theorem grants_step (h : Sound host s) {e : SystemEvent} (hnew : ∀ grant token, e ≠ .connect grant token)
    (conn : String) : ((s.step e).1.relay.connections.get conn).map ConnectionState.grant =
      (s.relay.connections.get conn).map ConnectionState.grant := by
  have hrunning : ∀ {t : System} {r : RelayState} (e' : Happening Task Answer Empty), Harmless s.relay r →
      Beside s r t → ((t.run e').1.relay.connections.get conn).map ConnectionState.grant =
        (s.relay.connections.get conn).map ConnectionState.grant := by
    intro t r e' hharmless hbeside
    have hkeeps := hbeside.keeps h.keeps ⟨hharmless.keeps host h.keeps.inv.1, hharmless.held h.keeps.inv.2⟩
    have hrun : Harmless t.relay (t.run e').1.relay :=
      run_harmless hkeeps (fun _ => rfl) terms_harmless fun task _ => task.program_kept _ hkeeps.inv
    rw [hrun.grants conn]
    have hrelay : t.relay = r := congrArg World.shared hbeside.world
    rw [hrelay]
    exact hharmless.grants conn
  have hmoves := s.step_moves e
  generalize s.step e = after at hmoves
  cases hmoves with
  | @aside e r t out hharmless hbeside =>
    have hrelay : t.relay = r := congrArg World.shared hbeside.world
    exact hrelay ▸ hharmless.grants conn
  | connect grant token => exact absurd rfl (hnew grant token)
  | revoke _ | tick _ => rfl
  | start hcause hharmless hbeside => exact hrunning _ hharmless hbeside
  | exec _ _ | resume _ => exact hrunning _ (harmless_refl _) s.beside_same

variable {c : ConnectionState}

theorem grant_step (h : Sound host s) (e : SystemEvent)
    (hc : s.relay.connection conn = some c) :
    ∃ c', (s.step e).1.relay.connection conn = some c' ∧ c'.grant = c.grant := by
  have hget : s.relay.connections.get conn = some c := hc
  by_cases hnew : ∃ grant token, e = .connect grant token
  · obtain ⟨grant, token, he⟩ := hnew
    subst he
    refine ⟨c, ?_, rfl⟩
    change (s.connect grant token).1.relay.connections.get conn = some c
    rw [get_connect, if_neg]
    · exact hc
    · intro hfresh
      have hnone := h.numbered.fresh
      rw [← hfresh] at hnone
      exact absurd (hnone.symm.trans hc) (by simp)
  · have hsame := grants_step h (fun grant token he => hnew ⟨grant, token, he⟩) conn
    rw [hget] at hsame
    exact Option.map_eq_some_iff.1 hsame

theorem grant_run {before : List SystemEvent}
    (hc : ((systemMachine host).run before).relay.connection conn = some c) (later : List SystemEvent) :
    ∃ c', ((systemMachine host).run (before ++ later)).relay.connection conn = some c' ∧ c'.grant = c.grant := by
  induction later using List.reverseRecOn with
  | nil =>
    rw [append_nil]
    exact ⟨c, hc, rfl⟩
  | append_singleton later e ih =>
    obtain ⟨c', hc', hgrant⟩ := ih
    rw [← append_assoc, run_snoc]
    obtain ⟨c'', hc'', hgrant'⟩ := grant_step (sound_run host (before ++ later)) e hc'
    exact ⟨c'', hc'', hgrant'.trans hgrant⟩

def grantsOf (s : System) (conn : String) : GrantRecord := ((s.relay.connection conn).map ConnectionState.grant).getD fullGrant

theorem held_before (host : Host) (before later : List SystemEvent) :
    Held (fun id grant => ((systemMachine host).run (before ++ later)).grantsOf id = grant)
      ((systemMachine host).run before).relay := by
  intro id c hc
  obtain ⟨c', hc', hgrant⟩ := grant_run hc later
  unfold grantsOf
  rw [hc']
  exact hgrant

section Runs
variable {matchesPattern : String → String → Bool} {grants : String → GrantRecord} {s : System} {e : SystemEvent}

theorem view_starts {task : Task} {r : RelayState} (hs : OwnClones host r ∧ Held (fun id grant => grants id = grant) r)
    (hheld : Held (fun id grant => grants id = grant) s.relay) (hstart : Starts s e task r)
    (hput : ViewersStayPut matchesPattern ((systemMachine host).entry s e)) :
    task.program.Within (task.viewTerms host grants) (fun _ _ => True) r := by
  by_cases hviewer : ∃ conn msg, task.IsViewer grants conn msg
  · obtain ⟨conn, msg, htask, hgrant⟩ := hviewer
    subst htask
    obtain ⟨he, hbusy, c, rest, hc, hqueue, hr⟩ := hstart.message_from
    have hcgrant : grants conn = c.grant := hheld conn c hc
    have hstays := hput conn c hc (hcgrant ▸ hgrant)
    refine Task.viewer_within hs hgrant fun hcopy c' hc' hrights => ?_
    obtain ⟨-, hnow, -⟩ := updateConnection_rest (fun c => { c with queue := rest }) s.relay conn
    have hget : r.connections.get conn = some { c with queue := rest } := by
      have hold : s.relay.connections.get conn = some c := hc
      rw [hr, get_updateConnection, if_pos rfl, hold]
      rfl
    have hsame : c' = { c with queue := rest } := Option.some.inj (hc'.symm.trans hget)
    subst hsame
    rw [hr, hnow] at hrights
    refine hstays.copyMode he hbusy ?_ hrights
    rw [hqueue, hcopy]
    rfl
  · exact Task.other_within hs fun conn msg hmsg => hviewer ⟨conn, msg, hmsg⟩

theorem view_replies {id : Nat} {a : Answer} {task : Task} {log : List (Exchange Failure Call.Output)} {c : Call}
    {next : Except Failure c.Output → Io Unit} (hsound : Sound host s)
    (hheld : Held (fun id grant => grants id = grant) s.relay)
    (hput : ViewersStayPut matchesPattern ((systemMachine host).entry s e)) (he : e = .exec id a)
    (hget : s.world.tasks.get id = some ⟨task, log, .asking c next⟩) :
    (task.viewTerms host grants).replies c (a.reply c) := by
  intro conn msg hviewer hother
  obtain ⟨htask, hgrant⟩ := hviewer
  subst htask
  obtain ⟨state, hstate⟩ := hsound.tended id _ conn msg hget rfl
  have hcgrant : grants conn = state.grant := hheld conn state hstate
  exact (hput conn state hstate (hcgrant ▸ hgrant)).scrolls id a msg log c next he hget fun hexit =>
    absurd hexit hother

theorem views_kept {es : List SystemEvent}
    (hput : ∀ x ∈ (systemMachine host).trace es, ViewersStayPut matchesPattern x) :
    ∀ before later, es = before ++ later → ((systemMachine host).run before).world.Keeps
        (Task.viewTerms host ((systemMachine host).run es).grantsOf)
        fun r => OwnClones host r ∧ Held (fun id grant => ((systemMachine host).run es).grantsOf id = grant) r := by
  intro before
  induction before using List.reverseRecOn with
  | nil =>
    intro later _
    refine ⟨⟨(sound_start host).keeps.inv.1, ?_⟩, ?_⟩
    · intro id c hc
      cases hc
    · intro id r hr
      cases hr
  | append_singleton before e ih =>
    intro later hes
    have hsplit : es = before ++ e :: later := by rw [hes, append_assoc]; rfl
    have hkeeps := ih (e :: later) hsplit
    have hsound := sound_run host before
    have hentry : ViewersStayPut matchesPattern ((systemMachine host).entry ((systemMachine host).run before) e) :=
      hput _ (((systemMachine host).mem_trace es _).2 ⟨before, e, later, hsplit, rfl⟩)
    have hnext : Held (fun id grant => ((systemMachine host).run es).grantsOf id = grant)
        ((systemMachine host).run (before ++ [e])).relay := by
      rw [hes]
      exact held_before host (before ++ [e]) later
    rw [run_snoc] at hnext ⊢
    have hsafe : ∀ r, Harmless ((systemMachine host).run before).relay r → OwnClones host r ∧
        Held (fun id grant => ((systemMachine host).run es).grantsOf id = grant) r :=
      fun r hr => ⟨hr.keeps host hkeeps.inv.1, hr.held hkeeps.inv.2⟩
    refine keeps_step (((systemMachine host).run before).step_moves e) hkeeps (fun _ => rfl) hsafe ?_
      (fun ms => ⟨hkeeps.inv.1.ticks ms, hkeeps.inv.2⟩) ?_ ?_
    · intro grant token he
      subst he
      exact ⟨ownClones_connect hkeeps.inv.1 grant token, hnext⟩
    · intro id a task log c next he hget
      exact view_replies hsound hkeeps.inv.2 hentry he hget
    · intro task r hstart hharmless
      exact view_starts (hsafe r hharmless) hkeeps.inv.2 hstart hentry

/-- Copy mode is left only if the first look says that the pane is in it. -/
theorem exit_asks (conn : String) : (routeMessage conn .tmuxExitCopyMode).CallsAfter
    (StillReply .tmuxExitCopyMode) fun c => ¬ LeavesCopyMode c := by
  have hread (session : String) : ¬ LeavesCopyMode (.tmux (.on (.session session) .scrollState)) := by
    rintro ⟨_, hcall⟩
    cases hcall
  intro s
  dsimp only [Async.bind]
  cases s.connection conn with
  | none => trivial
  | some c =>
    dsimp only
    rw [enforce_copyMode _ (.inr rfl)]
    intro s
    dsimp only [Async.bind]
    cases Enforce.rights ⟨c.grant, c.attachedSession, none⟩ .tmuxExitCopyMode s.now with
    | deny code text => trivial
    | ok =>
      intro s
      dsimp only [Async.bind, Pure.pure]
      cases (s.connection conn).bind fun c => c.attachedSession.filter (· ≠ "") with
      | none => trivial
      | some session =>
        refine ⟨hread session, fun reply hreply => ?_⟩
        cases reply with
        | error e => trivial
        | ok state =>
          have hout : state.inMode = false := hreply
          refine catching_calls (then_calls ?_ fun _ => then_calls (attachedNow_calls conn) fun now => ?_) fun e => trivial
          · change Calls _ _ (if !state.inMode then return else _ : Io Unit)
            rw [hout]
            trivial
          · have hlook : (readScrollState now).Calls (fun c => ¬ LeavesCopyMode c) fun _ => True := by
              unfold readScrollState
              exact tmux_calls (P := fun c => ¬ LeavesCopyMode c) (hread now)
            exact then_calls hlook fun _ => send_calls _ _

/-- A viewer leaves copy mode. -/
def Leaves (grants : String → GrantRecord) (task : Task) : Prop :=
  ∃ conn, task = .message conn .tmuxExitCopyMode ∧ Viewer (grants conn)

theorem exits_kept {es : List SystemEvent} (hput : ∀ x ∈ (systemMachine host).trace es, ViewersStayPut matchesPattern x) :
    ∀ before later, es = before ++ later → ∀ id r, ((systemMachine host).run before).world.tasks.get id = some r →
      Leaves ((systemMachine host).run es).grantsOf r.job → r.stage.CallsAfter (StillReply .tmuxExitCopyMode) (fun c => ¬ LeavesCopyMode c) r.log := by
  intro before
  induction before using List.reverseRecOn with
  | nil =>
    intro later _ id r hr
    cases hr
  | append_singleton before e ih =>
    intro later hes
    have hsplit : es = before ++ e :: later := by rw [hes, append_assoc]; rfl
    have hkept := ih (e :: later) hsplit
    have hentry : ViewersStayPut matchesPattern ((systemMachine host).entry ((systemMachine host).run before) e) :=
      hput _ (((systemMachine host).mem_trace es _).2 ⟨before, e, later, hsplit, rfl⟩)
    have hheld := held_before host before (e :: later)
    rw [← hsplit] at hheld
    have hsound := sound_run host before
    rw [run_snoc]
    change ∀ id r, (((systemMachine host).run before).step e).1.world.tasks.get id = some r → _
    generalize (systemMachine host).run before = s at hkept hentry hheld hsound ⊢
    have hrun {t : System} (e' : Happening Task Answer Empty) (htasks : t.world.tasks = s.world.tasks)
        (hexec : ∀ id a, e' = .exec id a → e = .exec id a) : ∀ id r, (t.run e').1.world.tasks.get id = some r →
        Leaves ((systemMachine host).run es).grantsOf r.job → r.stage.CallsAfter (StillReply .tmuxExitCopyMode) (fun c => ¬ LeavesCopyMode c) r.log := by
      refine callsAfter_moves (I := Leaves _) (t.run_moves e') (fun id r hr => hkept id r (htasks ▸ hr)) ?_ ?_
      · rintro job ⟨conn, hjob, -⟩
        rw [hjob]
        exact exit_asks conn
      · rintro id a job c next he ⟨conn, hjob, hviewer⟩ hget
        subst hjob
        rw [htasks] at hget
        obtain ⟨state, hstate⟩ := hsound.tended id _ conn _ hget rfl
        have hgrant : _ = state.grant := hheld conn state hstate
        exact (hentry conn state hstate (hgrant ▸ hviewer)).scrolls id a _ [] c next (hexec id a he) hget fun _ => rfl
    have hmoves := s.step_moves e
    generalize s.step e = after at hmoves
    cases hmoves with
    | aside hharmless hbeside hopen hquiet =>
      intro id r hr
      exact hkept id r (by rw [hbeside.world] at hr; exact hr)
    | start hstart hharmless hbeside => exact hrun _ (by rw [hbeside.world]) (by simp)
    | exec id a => exact hrun _ rfl fun id' a' he => by cases he; rfl
    | resume task => exact hrun _ rfl (by simp)
    | _ => exact hkept

theorem next_step (s : System) (conn : String) : s.step (.next conn) = (s, []) ∨
    ∃ msg r t, Starts s (.next conn) (.message conn msg) r ∧ Harmless s.relay r ∧ Beside s r t ∧
      s.step (.next conn) = t.run (.start (.message conn msg)) := by
  simp only [step, onConnection]
  split
  · exact .inl rfl
  · rename_i c hc
    unfold System.next
    split
    · exact .inl rfl
    · rename_i hbusy
      split
      · exact .inl rfl
      · rename_i msg rest hqueue
        refine .inr ⟨msg, _, _, .message hc hqueue (by simpa using hbusy), ?_, s.beside_withRelay _, rfl⟩
        exact harmless_update (f := fun c => { c with queue := rest }) (fun _ => rfl) (fun _ => rfl) (fun _ => rfl)
          s.relay conn

theorem viewer_tells (hkeeps : s.world.Keeps (Task.viewTerms host grants)
      fun r => OwnClones host r ∧ Held (fun id grant => grants id = grant) r)
    (hput : ViewersStayPut matchesPattern ((systemMachine host).entry s e)) (hgrant : Viewer (grants conn))
    (hfor : HandlesFor s e conn) : s.step e = (s, []) ∨
      ∃ (t : System) (e' : Happening Task Answer Empty), s.step e = t.run e' ∧ (∀ job ∈ t.jobs, job ∈ s.jobs) ∧
        ∀ o ∈ (relayHost.step t.world e').2.map Prod.snd, ViewerTell conn o := by
  cases hfor with
  | inl hnext =>
    subst hnext
    cases s.next_step conn with
    | inl hidle => exact .inl hidle
    | inr hstep =>
      obtain ⟨msg, r, t, hstart, hharmless, hbeside, hrun⟩ := hstep
      refine .inr ⟨t, _, hrun, hbeside.jobs, fun o ho => ?_⟩
      have hr : OwnClones host r ∧ Held (fun id grant => grants id = grant) r :=
        ⟨hharmless.keeps host hkeeps.inv.1, hharmless.held hkeeps.inv.2⟩
      have hrelay : t.relay = r := congrArg World.shared hbeside.world
      have hwithin : ∀ task, (.start (.message conn msg) : Happening Task Answer Empty) = .start task →
          task.program.Within (task.viewTerms host grants) (fun _ _ => True) t.relay := by
        intro task htask
        cases htask
        rw [hrelay]
        exact view_starts hr hkeeps.inv.2 hstart hput
      obtain ⟨task, hgoes, r', -, htells⟩ := run_tells (hbeside.keeps hkeeps hr) (fun _ => rfl) hwithin ho
      cases hgoes with
      | inl hstarted =>
        cases hstarted
        exact htells.2 conn msg ⟨rfl, hgrant⟩
      | inr hresumed =>
        obtain ⟨id, log, rest, he, -⟩ := hresumed
        cases he
  | inr hresume =>
    obtain ⟨id, log, rest, msg, he, hget⟩ := hresume
    subst he
    refine .inr ⟨s, .resume id, rfl, fun _ hjob => hjob, fun o ho => ?_⟩
    obtain ⟨task, hgoes, r', -, htells⟩ := run_tells hkeeps (fun _ => rfl) (fun _ he => by cases he) ho
    cases hgoes with
    | inl hstarted => cases hstarted
    | inr hresumed =>
      obtain ⟨id', log', rest', he, hget'⟩ := hresumed
      cases he
      have hsame := Option.some.inj (hget.symm.trans hget')
      cases hsame
      exact htells.2 conn msg ⟨rfl, hgrant⟩

end Runs

end System

theorem viewer_untouched {matchesPattern : String → String → Bool} {conn hit : String} {sessions : List String}
    {c : TmuxCommand} (h : ViewerCall conn (.tmux c))
    (hkill : ∀ name, c = .killSession name → Unambiguous matchesPattern sessions name)
    (hfinds : Finds matchesPattern sessions c hit) (screen : Screen) (turn : Turn) :
    Untouched (IsCloneOf conn) screen (screen.after hit turn c) := by
  cases h with
  | inl hreading =>
    rw [after_reading hreading]
    exact untouched_refl screen
  | inr hown =>
    obtain ⟨name, hname, hcases⟩ := hown
    obtain ⟨target, hgroup⟩ | hend | ⟨option, value, hoption⟩ := hcases
    · cases hgroup
      exact untouched_opened hname _
    · cases hend
      have hhit := resolve_exact.2 (hkill name rfl) hit (hfinds name rfl)
      exact untouched_killed (hhit ▸ hname)
    · cases hoption
      exact untouched_refl screen

/-- In every run viewers leave the sessions of the machine as they are, as long as they stay put. -/
theorem viewers_touch_nothing (host : Host) (matchesPattern : String → String → Bool) (es : List SystemEvent)
    (hput : ∀ x ∈ (systemMachine host).trace es, ViewersStayPut matchesPattern x) :
    ∀ x ∈ (systemMachine host).trace es, ReadsOnly matchesPattern x := by
  intro x hx
  obtain ⟨before, e, later, hes, hentry⟩ := ((systemMachine host).mem_trace es x).1 hx
  have hthis := hput x hx
  subst hentry
  have hkeeps := System.views_kept hput before (e :: later) hes
  intro conn c hc hviewer
  have hgrant : ((systemMachine host).run es).grantsOf conn = c.grant := hkeeps.inv.2 conn c hc
  have hviews : Viewer (((systemMachine host).run es).grantsOf conn) := hgrant ▸ hviewer
  refine ⟨?_, ?_, ?_⟩
  · intro msg command sessions hcarries screen turn hit _ hfinds
    obtain ⟨id, a, log, next, he, hget, hsessions⟩ := hcarries
    have hcall : ViewerCall conn (.tmux command) := by
      obtain hcall | ⟨hexit, hleaves⟩ := hkeeps.asks hget conn msg ⟨rfl, hviews⟩
      · exact hcall
      · have hstays := System.exits_kept hput before (e :: later) hes id _ hget ⟨conn, by rw [hexit], hviews⟩
        exact absurd hleaves hstays.1
    refine viewer_untouched hcall (fun name hname => ?_) hfinds screen turn
    subst hname
    exact (hthis conn c hc hviewer).clone msg name sessions ⟨id, a, log, next, he, hget, hsessions⟩
  · intro hfor bridge data hout
    change SystemOutput.pty (.write bridge data) ∈ (System.step _ e).2 at hout
    cases System.viewer_tells hkeeps hthis hviews hfor with
    | inl hidle =>
      rw [hidle] at hout
      cases hout
    | inr hrun =>
      obtain ⟨t, e', hstep, -, htells⟩ := hrun
      rw [hstep] at hout
      obtain ⟨o, ho, hvisible⟩ := mem_flatMap.1 hout
      have hwrite : o = .write bridge data := by
        cases o with
        | send conn' m =>
          change _ ∈ System.tell _ _ _ at hvisible
          unfold System.tell at hvisible
          split at hvisible
          · cases hvisible
          · cases mem_singleton.1 hvisible
        | spawn job => cases hvisible
        | write bridge' data' =>
          cases mem_singleton.1 hvisible
          rfl
        | resize | kill => cases mem_singleton.1 hvisible
      subst hwrite
      exact htells _ ho
  · intro hfor job hjob
    change job ∈ (System.step _ e).1.jobs at hjob
    cases System.viewer_tells hkeeps hthis hviews hfor with
    | inl hidle =>
      rw [hidle] at hjob
      exact .inl hjob
    | inr hrun =>
      obtain ⟨t, e', hstep, hjobs, htells⟩ := hrun
      rw [hstep] at hjob
      cases System.run_jobs hjob with
      | inl hold => exact .inl (hjobs job hold)
      | inr hnew =>
        have hjobTell := htells _ hnew
        cases job with
        | announcePanes name => exact hjobTell.elim
        | attach grant name size readOnly =>
          obtain ⟨hreadOnly, hclone⟩ := hjobTell
          subst hreadOnly
          exact .inr ⟨grant, name, size, rfl, hclone, fun screen _ _ => untouched_refl screen⟩

/-- tmux sees the viewer's clone, and shows the pane as it is. -/
def showsPane (inMode : Bool) : Answer where
  sessions := ["work", "__mtmux_grn_view_conn-1"]
  reply
    | .tmux .listSessions => .ok [⟨"work", "$1"⟩, ⟨"__mtmux_grn_view_conn-1", "$2"⟩]
    | .tmux (.on _ .scrollState) => .ok ⟨0, 100, 24, inMode⟩
    | c => (agreed []).reply c

/-- A viewer attaches, lists the sessions, leaves a copy mode that the pane is not in, and detaches. The owner enters copy
mode after the viewer's first look at the pane. -/
def viewerLooksOn : List SystemEvent :=
  [.connect viewerGrant none, .connect fullGrant none] ++ attaches "conn-1" 0 ++ attaches "conn-2" 1 ++
    [.message "conn-1" .sessionList, .next "conn-1"] ++ answered 2 (showsPane false) 1 ++
    [.message "conn-1" .tmuxExitCopyMode, .next "conn-1", .exec 3 (showsPane false),
      .message "conn-2" .tmuxCopyMode, .next "conn-2", .exec 4 (showsPane true),
      .resume 3, .exec 3 (showsPane true), .resume 3] ++
    [.message "conn-1" .sessionDetach, .next "conn-1"] ++ answered 5 (showsPane true) 1

def asksStill (msg : ClientMessage) (log : List (Exchange Failure Call.Output)) (a : Answer) : Call → Bool
  | .tmux (.on target .scrollState) => match msg, log, a.reply (.tmux (.on target .scrollState)) with
    | .tmuxScroll _, _, _ | .tmuxScrollTo _, _, _ => false
    | .tmuxExitCopyMode, [], .ok state => !state.inMode
    | _, _, _ => true
  | .tmux (.killSession name) => name ∈ a.sessions
  | _ => true

def unmoved (x : Machine.Entry System SystemEvent SystemOutput) : Bool :=
  match x.event with
  | .next conn => (x.pre.relay.connection conn).all fun c => !c.grant.readOnly || match c.queue with
    | .tmuxCopyMode :: _ => false
    | _ => true
  | .exec id a => match x.pre.world.tasks.get id with
    | some ⟨.message _ msg, log, .asking call _⟩ => asksStill msg log a call
    | _ => true
  | _ => true

theorem asksStill_scroll {msg : ClientMessage} {log : List (Exchange Failure Call.Output)} {a : Answer} {call : Call}
    (h : asksStill msg log a call = true) (hfirst : msg = .tmuxExitCopyMode → log = []) :
    StillReply msg call (a.reply call) := by
  unfold StillReply
  split
  · rename_i target state hreply
    simp only [asksStill] at h
    rw [hreply] at h
    cases msg with
    | tmuxScroll _ | tmuxScrollTo _ => cases h
    | tmuxExitCopyMode =>
      rw [hfirst rfl] at h
      simpa [Still] using h
    | _ => trivial
  · trivial

theorem staysPut_of_unmoved {x : Machine.Entry System SystemEvent SystemOutput} (h : unmoved x = true)
    (matchesPattern : String → String → Bool) : ViewersStayPut matchesPattern x := by
  intro conn c hc hviewer
  refine ⟨fun he _ hqueue _ => ?_, fun id a msg log call next he hget hfirst => ?_, ?_⟩
  · obtain ⟨rest, hrest⟩ := head?_eq_some_iff.1 hqueue
    simp [unmoved, he, hc, hviewer.1, hrest] at h
  · simp only [unmoved, he, hget] at h
    exact asksStill_scroll h hfirst
  · intro msg name sessions hcarries
    obtain ⟨id, a, log, next, he, hget, hsessions⟩ := hcarries
    simp only [unmoved, he, hget, asksStill, decide_eq_true_eq] at h
    exact .inl (hsessions ▸ h)

theorem viewer_looks_on_touches_nothing :
    viewerLooksOn ≠ [] ∧ ∀ x ∈ (systemMachine sampleHost).trace viewerLooksOn, ReadsOnly (fun _ _ => false) x := by
  have hall : ((systemMachine sampleHost).trace viewerLooksOn).all unmoved = true := by decide +kernel
  exact ⟨cons_ne_nil _ _, viewers_touch_nothing sampleHost _ viewerLooksOn fun x hx =>
    staysPut_of_unmoved (all_eq_true.1 hall x hx) _⟩

def viewerAsksForCopyMode : List SystemEvent :=
  [.connect viewerGrant none] ++ attaches "conn-1" 0 ++ [.message "conn-1" .tmuxCopyMode, .next "conn-1"]

def enteringCopyMode (s : System) (id : Nat) : Option (String × String) :=
  match s.world.tasks.get id with
  | some ⟨.message conn .tmuxCopyMode, _, .asking (.tmux (.on (.session name) (.copyMode false))) _⟩ => some (conn, name)
  | _ => none

theorem carries_of_enteringCopyMode {id : Nat} {conn name : String}
    (h : enteringCopyMode s id = some (conn, name)) (x : Answer) :
    Carries s (.exec id x) (.message conn .tmuxCopyMode) (.on (.session name) (.copyMode false)) x.sessions := by
  unfold enteringCopyMode at h
  split at h
  · rename_i conn' log name' next hget
    cases h
    exact ⟨id, x, log, next, rfl, hget, rfl⟩
  · cases h

/-- The owner looks at the shell in `%0`. -/
def ownersScreen : Screen where
  sessions := ["work"]
  group _ := "work"
  windows _ := []
  panes _ := []
  window _ := "@0"
  front _ := "%0"
  mode _ := none
  typed _ := []

theorem not_readsOnly {host : Host}
    (hasks : enteringCopyMode s 1 = some ("conn-1", "work")) (hc : s.relay.connection "conn-1" = some c)
    (hgrant : c.grant = viewerGrant) (matchesPattern : String → String → Bool) :
    ¬ ReadsOnly matchesPattern ((systemMachine host).entry s (.exec 1 (agreed ["work"]))) := by
  intro hreads
  have hviewer : Viewer c.grant := by
    rw [hgrant]
    exact ⟨rfl, by decide⟩
  have hfinds : Finds matchesPattern ["work"] (.on (.session "work") (.copyMode false)) "work" := by
    intro name hname
    cases hname
    unfold resolve
    rw [if_pos (by decide)]
  have huntouched := (hreads "conn-1" c hc hviewer).commands _ _ _ (carries_of_enteringCopyMode hasks (agreed ["work"]))
    ownersScreen ⟨"", [], [], "@0", "%0", some 0⟩ "work" rfl hfinds
  have hmode := congrFun huntouched.mode "%0"
  exact absurd hmode (by simp [Screen.after, Screen.acted, Screen.scrolled, ownersScreen])

/-- It is the owner's pane that enters copy mode. -/
theorem viewer_moves_the_owner : ∃ x ∈ (systemMachine sampleHost).trace
    (viewerAsksForCopyMode ++ [.exec 1 (agreed ["work"])]), ∀ matchesPattern, ¬ ReadsOnly matchesPattern x := by
  refine ⟨(systemMachine sampleHost).entry ((systemMachine sampleHost).run viewerAsksForCopyMode)
    (.exec 1 (agreed ["work"])), ?_, fun matchesPattern => ?_⟩
  · rw [trace_snoc]
    exact mem_append_right _ mem_cons_self
  · have hasks : enteringCopyMode ((systemMachine sampleHost).run viewerAsksForCopyMode) 1 =
        some ("conn-1", "work") := by decide +kernel
    have hgrant : (((systemMachine sampleHost).run viewerAsksForCopyMode).relay.connection "conn-1").map
        ConnectionState.grant = some viewerGrant := by decide +kernel
    obtain ⟨c, hc, hheld⟩ := Option.map_eq_some_iff.1 hgrant
    exact not_readsOnly hasks hc hheld matchesPattern

end Mtmux.Relay
