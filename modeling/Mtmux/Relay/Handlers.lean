import Mtmux.Relay.System

/-! What each handler does at most: which calls it makes, whom it tells something and which part of the relay's state
it changes. -/
namespace Mtmux.Relay
open Protocol Async List

abbrev RelayTerms : Type := Terms RelayState Out Failure Call.Output

/-- Listings and the like: nothing is changed by them. -/
def reading : Call → Bool
  | .tmux .listSessions | .tmux .listCommands => true
  | .tmux (.on _ action) =>
    match action with
    | .hasSession | .capturePane .. | .listWindows | .listPanes | .currentWindow | .zoomFlags | .scrollState
    | .panePipe => true
    | _ => false
  | .tmux _ => false
  | .file _ | .recording _ => true

/-- Everything but the end of a session, the making of a clone and what a pty runs. -/
def plain : Call → Bool
  | .tmux (.killSession _) | .tmux (.groupSession ..) | .tmux (.on _ (.attachSession ..)) => false
  | _ => true

theorem plain_of_reading {c : Call} (h : reading c = true) : plain c = true := by
  cases c with
  | tmux command =>
    cases command with
    | killSession | groupSession => cases h
    | on target action =>
      cases action with
      | attachSession => cases h
      | _ => rfl
    | _ => rfl
  | file | recording => rfl

/-- A change to a connection that leaves alone who it is and what it looks through. -/
def Modest (f : ConnectionState → ConnectionState) : Prop :=
  ∀ c, (f c).id = c.id ∧ (f c).grant = c.grant ∧ (f c).pty = c.pty ∧ (f c).attachedSession = c.attachedSession ∧
    (f c).cloneSession = c.cloneSession ∧ (f c).removed = c.removed

/-- What the handlers of one connection may rely on being allowed. -/
structure Permits (T : RelayTerms) (own : String) : Prop where
  reads : ∀ c, reading c = true → T.calls c
  sends : ∀ s m, T.inv s → T.tells s (.send own m)
  updates : ∀ f, Modest f → ∀ s, T.inv s → T.may s (s.updateConnection f own)
  probes : ∀ known s, T.inv s → T.may s { s with selectPaneSupportsZ := known }
  approvals : ∀ (f : List String → List String) s, T.inv s → T.may s { s with pendingApprovals := f s.pendingApprovals }

/-- Those that may change something are allowed more, and to tell everybody attached what they have changed. -/
structure Changes (T : RelayTerms) (own : String) : Prop extends Permits T own where
  plains : ∀ c, plain c = true → T.calls c
  types : ∀ s bridge data, T.inv s → T.tells s (.write bridge data)

/-- Whoever is attached may be told. -/
def Attended (T : RelayTerms) : Prop :=
  ∀ s c m, T.inv s → c ∈ s.others none → c.attachedSession.isSome = true → T.tells s (.send c.id m)

section Kept
variable {T : RelayTerms} {own : String}

theorem tmux_kept {command : TmuxCommand} (h : T.calls (.tmux command)) : (Io.tmux command).Kept T := kept_call h

theorem file_kept {call : FileCall} (h : T.calls (.file call)) : (Io.file call).Kept T := kept_call h

theorem recording_kept {call : RecordingCall} (h : T.calls (.recording call)) : (Io.recording call).Kept T :=
  kept_call h

theorem look_kept {α : Type} (conn : String) (f : ConnectionState → Option α) : (Io.look conn f).Kept T :=
  kept_get.bind fun _ => kept_pure _

variable {exclude : Option String}

theorem mem_others {s : RelayState} {conn : ConnectionState} (h : conn ∈ s.others exclude) : conn ∈ s.others none := by
  unfold RelayState.others at h ⊢
  rw [mem_filter] at h ⊢
  refine ⟨h.1, ?_⟩
  simp only [Bool.and_eq_true] at h
  simpa using h.2.1

theorem broadcastWhere_kept {build : ConnectionState → Option ServerMessage}
    (h : ∀ s, T.inv s → ∀ conn ∈ s.others none, ∀ m, build conn = some m → T.tells s (.send conn.id m)) :
    (Io.broadcastWhere build exclude).Kept T := by
  intro s hs
  have hall : ∀ messages : List (String × ServerMessage), (∀ m ∈ messages, T.tells s (.send m.1 m.2)) →
      (Io.sendAll messages).Within T (fun _ _ => True) s := by
    intro messages hmessages
    induction messages with
    | nil => trivial
    | cons m messages ih =>
      exact ⟨hmessages m mem_cons_self, ih fun m' hm' => hmessages m' (mem_cons_of_mem _ hm')⟩
  refine hall _ ?_
  intro m hm
  obtain ⟨conn, hconn, hbuild⟩ := mem_filterMap.1 hm
  cases hmessage : build conn with
  | none =>
    rw [hmessage] at hbuild
    cases hbuild
  | some message =>
    rw [hmessage] at hbuild
    cases hbuild
    exact h s hs conn (mem_others hconn) message hmessage

section
variable (hcalls : ∀ c, reading c = true → T.calls c)
include hcalls

theorem listWindows_kept (session : String) :
    (listWindows session).Kept T := tmux_kept (hcalls _ rfl)

theorem listPanes_kept (session : String)
    (windowId : Option String) : (listPanes session windowId).Kept T := by
  unfold listPanes
  split
  · exact tmux_kept (hcalls _ rfl)
  · split
    · exact tmux_kept (hcalls _ rfl)
    · exact tmux_kept (hcalls _ rfl)

theorem listSessions_kept : listSessions.Kept T := by
  refine (tmux_kept (hcalls _ rfl)).catching fun e => ?_
  split
  · exact kept_pure _
  · exact kept_throw _

theorem sessionExists_kept (name : String) : (sessionExists name).Kept T :=
  ((tmux_kept (hcalls _ rfl)).bind fun _ => kept_pure _).catching fun _ => kept_pure _

theorem currentWindowPanes_kept (session : String) :
    (currentWindowPanes session).Kept T :=
  (tmux_kept (hcalls _ rfl)).bind fun _ => (listPanes_kept hcalls _ _).bind fun _ => kept_pure _

end

theorem maybe_kept {α : Type} {t : Io α} (h : t.Kept T) : (Router.maybe t).Kept T :=
  (h.bind fun _ => kept_pure _).catching fun _ => kept_pure _

end Kept

/-! ### The gate -/

section Gate
variable {T : RelayTerms} (hcalls : ∀ c, reading c = true → T.calls c)
include hcalls

theorem sessionInScope_kept (ctx : EnforceContext) (name : String) : (sessionInScope ctx name).Kept T := by
  unfold sessionInScope
  split
  · exact kept_pure _
  · refine ((listSessions_kept hcalls).bind fun sessions => ?_).catching fun _ => kept_pure _
    split
    · exact kept_pure _
    · exact kept_pure _

theorem paneBelongs_kept (session id : String) : (paneBelongs session id).Kept T :=
  ((listPanes_kept hcalls _ _).bind fun _ => kept_pure _).catching fun _ => kept_pure _

theorem windowBelongs_kept (session id : String) : (windowBelongs session id).Kept T :=
  ((listWindows_kept hcalls _).bind fun _ => kept_pure _).catching fun _ => kept_pure _

omit hcalls in
theorem asked_kept {question : Io Bool} (h : question.Kept T) (yes no : EnforceResult) :
    (do if ← question then return yes else return no : Io EnforceResult).Kept T := by
  refine h.bind fun answer => ?_
  cases answer with
  | true | false => exact kept_pure _

omit hcalls in
theorem andThen_kept {first next : Io EnforceResult} (h : first.Kept T) (hnext : next.Kept T) :
    (Enforce.andThen first next).Kept T := by
  refine h.bind fun result => ?_
  cases result with
  | ok => exact hnext
  | deny code message => exact kept_pure _

theorem recordingTarget_kept (ctx : EnforceContext) (msg : ClientMessage) :
    (Enforce.recordingTarget ctx msg).Kept T := by
  unfold Enforce.recordingTarget
  split
  · split
    · exact kept_pure _
    · rename_i target _
      refine andThen_kept (asked_kept (sessionInScope_kept hcalls _ _) _ _) ?_
      cases target with
      | session name => exact kept_pure _
      | pane name paneId =>
        unfold Enforce.recordingPane
        dsimp only
        split
        · exact kept_pure _
        · split
          · exact kept_pure _
          · exact asked_kept (paneBelongs_kept hcalls _ _) _ _
  · exact kept_pure _

theorem sessionArg_kept (ctx : EnforceContext) (msg : ClientMessage) : (Enforce.sessionArg ctx msg).Kept T := by
  unfold Enforce.sessionArg
  split
  · exact kept_pure _
  · dsimp only
    split
    · exact kept_pure _
    · exact asked_kept (sessionInScope_kept hcalls _ _) _ _

theorem objectId_kept (ctx : EnforceContext) (msg : ClientMessage) : (Enforce.objectId ctx msg).Kept T := by
  unfold Enforce.objectId
  split
  · split
    · exact kept_pure _
    · split
      · exact kept_pure _
      · split
        · exact asked_kept (paneBelongs_kept hcalls _ _) _ _
        · exact asked_kept (windowBelongs_kept hcalls _ _) _ _
  · exact kept_pure _

theorem checks_kept (ctx : EnforceContext) (msg : ClientMessage) : (Enforce.andThen (Enforce.recordingTarget ctx msg)
      (Enforce.andThen (Enforce.sessionArg ctx msg) (Enforce.objectId ctx msg))).Kept T :=
  andThen_kept (recordingTarget_kept hcalls ctx msg)
    (andThen_kept (sessionArg_kept hcalls ctx msg) (objectId_kept hcalls ctx msg))

theorem enforce_within {s : RelayState} (hs : T.inv s) (ctx : EnforceContext) (msg : ClientMessage) :
    (enforce ctx msg).Within T (fun _ result => result = .ok → Enforce.rights ctx msg s.now = .ok) s := by
  change (Enforce.andThen (pure (Enforce.rights ctx msg s.now)) _).Within T _ s
  cases hrights : Enforce.rights ctx msg s.now with
  | deny code message =>
    intro hok
    cases hok
  | ok =>
    refine (checks_kept hcalls ctx msg s hs).mono hs ?_
    intro s' result _ _ _
    rfl

end Gate

/-! ### Handlers that only look -/

section Looking
variable {T : RelayTerms} {own : String} (P : Permits T own)
include P

theorem send_kept (m : ServerMessage) : (Io.send own m).Kept T := kept_say fun s hs => P.sends s m hs

theorem sendError_kept (code message : String) : (Io.sendError own code message).Kept T := send_kept P _

theorem update_kept {f : ConnectionState → ConnectionState} (h : Modest f) : (Io.update own f).Kept T :=
  kept_modify fun s hs => P.updates f h s hs

theorem attached_kept {f : String → Io Unit} (h : ∀ session, (f session).Kept T) : (Router.attached own f).Kept T := by
  refine (look_kept own _).bind fun session => ?_
  cases session with
  | none => exact sendError_kept P _ _
  | some session => exact h session

omit P in
theorem attachedNow_kept : (Router.attachedNow own).Kept T := by
  refine (look_kept own _).bind fun session => ?_
  cases session with
  | none => exact kept_throw _
  | some session => exact kept_pure _

theorem sessionsVisibleTo_kept (grant : GrantRecord) : (sessionsVisibleTo grant).Kept T :=
  (listSessions_kept P.reads).bind fun _ => kept_pure _

theorem windows_kept (name : String) : (Router.windows own name).Kept T :=
  (listWindows_kept P.reads _).bind fun _ => (listPanes_kept P.reads _ _).bind fun _ => send_kept P _

theorem paneList_kept (session : String) : (Router.paneList own session).Kept T :=
  (currentWindowPanes_kept P.reads _).bind fun _ => send_kept P _

theorem windowList_kept (session : String) : (Router.windowList own session).Kept T :=
  (listWindows_kept P.reads _).bind fun _ => (look_kept own _).bind fun _ => send_kept P _

theorem paneCapture_kept (id : String) : (Router.paneCapture own id).Kept T :=
  (tmux_kept (P.reads _ rfl)).bind fun _ => send_kept P _

theorem readScrollState_kept (session : String) : (readScrollState session).Kept T := tmux_kept (P.reads _ rfl)

theorem sendScrollState_kept (state : ScrollState) : (sendScrollState own state).Kept T := send_kept P _

theorem allowed_kept (paths : List String) {f : Io Unit} (h : f.Kept T) : (Router.allowed own paths f).Kept T := by
  refine kept_get.bind fun s => ?_
  split
  · exact h
  · exact sendError_kept P _ _

theorem fileOp_kept (op : FileOp) (path : String) (call : FileCall) : (Router.fileOp own op path call).Kept T :=
  ((file_kept (P.reads _ rfl)).bind fun _ => send_kept P _).catching fun _ => send_kept P _

theorem fileRead_kept (path : String) : (Router.fileRead own path).Kept T :=
  (file_kept (P.reads _ rfl)).bind fun _ => send_kept P _

theorem fileWrite_kept (path content : String) : (Router.fileWrite own path content).Kept T :=
  ((file_kept (P.reads _ rfl)).bind fun _ => send_kept P _).catching fun _ => send_kept P _

theorem fileUpload_kept (path content : String) (final : Bool) : (Router.fileUpload own path content final).Kept T := by
  refine ((file_kept (P.reads _ rfl)).bind fun _ => ?_).catching fun _ => send_kept P _
  split
  · exact send_kept P _
  · exact kept_pure _

theorem fileWatch_kept (path : String) : (Router.fileWatch own path).Kept T := by
  refine kept_get.bind fun s => ?_
  split
  · exact kept_pure _
  · split
    · exact sendError_kept P _ _
    · exact update_kept P fun _ => ⟨rfl, rfl, rfl, rfl, rfl, rfl⟩

theorem fileUnwatch_kept (path : String) : (Router.fileUnwatch own path).Kept T :=
  update_kept P fun _ => ⟨rfl, rfl, rfl, rfl, rfl, rfl⟩

theorem visibleRecordings_kept (grant : GrantRecord) : (visibleRecordings grant).Kept T :=
  (recording_kept (P.reads _ rfl)).bind fun _ => kept_get.bind fun _ => kept_pure _

theorem visibleRecording_kept (grant : GrantRecord) (id : String) : (visibleRecording grant id).Kept T := by
  unfold visibleRecording
  split
  · exact recording_kept (P.reads _ rfl)
  · exact kept_pure _

theorem sendSlices_kept (recording : RecordingInfo) (slices : List RecordingSlice) :
    (sendSlices own recording slices).Kept T := by
  induction slices with
  | nil => exact kept_pure _
  | cons slice slices ih =>
    exact (recording_kept (P.reads _ rfl)).bind fun _ => (send_kept P _).bind fun _ => ih

theorem recordingFetch_kept (grant : GrantRecord) (id : String) (offset : Nat) :
    (Router.recordingFetch own grant id offset).Kept T := by
  refine (visibleRecording_kept P _ _).bind fun recording => ?_
  cases recording with
  | none => exact sendError_kept P _ _
  | some recording =>
    refine (recording_kept (P.reads _ rfl)).bind fun slices => ?_
    cases slices with
    | none => exact sendError_kept P _ _
    | some slices => exact sendSlices_kept P _ _

theorem announceLayout_kept (hlayout : Attended T) (session : String) : (announceLayout own session).Kept T := by
  have hattached : ∀ message, ∀ s, T.inv s → ∀ conn ∈ s.others none, ∀ m,
      attachedTo session message conn = some m → T.tells s (.send conn.id m) := by
    intro message s hs conn hconn m hm
    unfold attachedTo at hm
    split at hm
    · rename_i hsame
      exact hlayout s conn m hs hconn (by rw [hsame]; rfl)
    · cases hm
  refine (listWindows_kept P.reads _).bind fun windows => (currentWindowPanes_kept P.reads _).bind fun layout => ?_
  refine (send_kept P _).bind fun _ => (send_kept P _).bind fun _ => ?_
  exact (broadcastWhere_kept (hattached _)).bind fun _ => (broadcastWhere_kept (hattached _)).bind fun _ => kept_pure _

variable {command : Io Unit}

theorem thenAnnounce_kept (hlayout : Attended T) (h : command.Kept T) : (Router.thenAnnounce own command).Kept T :=
  h.bind fun _ => attachedNow_kept.bind fun _ => announceLayout_kept P hlayout _

theorem announced_kept (hlayout : Attended T) (h : command.Kept T) : (Router.announced own command).Kept T :=
  (thenAnnounce_kept P hlayout h).bind fun _ => kept_pure _

theorem announcedWindow_kept (hlayout : Attended T) (h : command.Kept T) :
    (Router.announcedWindow own command).Kept T :=
  (thenAnnounce_kept P hlayout h).bind fun _ => update_kept P fun _ => ⟨rfl, rfl, rfl, rfl, rfl, rfl⟩

end Looking

/-! ### Handlers that change something -/

section Changing
variable {T : RelayTerms} {own : String} (P : Changes T own)
include P

theorem plain_kept {command : TmuxCommand} (h : plain (.tmux command) = true) : (Io.tmux command).Kept T :=
  tmux_kept (P.plains _ h)

theorem toPty_kept (data : String) : (Router.toPty own data).Kept T := by
  refine (look_kept own _).bind fun bridge => ?_
  cases bridge with
  | none => exact kept_pure _
  | some bridge => exact kept_say fun s hs => P.types s bridge data hs

theorem write_kept (data : String) :
    (Router.toAttachedPty own fun bridge => Async.say (.write bridge data)).Kept T := by
  refine (look_kept own _).bind fun bridge => ?_
  cases bridge with
  | none => exact sendError_kept P.toPermits _ _
  | some bridge => exact kept_say fun s hs => P.types s bridge data hs

theorem interrupt_kept : (do
    match ← Io.look own fun c => c.attachedSession.filter (· ≠ "") with
    | none => return
    | some session => sendInterrupt session : Io Unit).Kept T := by
  refine (look_kept own _).bind fun session => ?_
  cases session with
  | none => exact kept_pure _
  | some session => exact plain_kept P rfl

theorem supportsSelectPaneZ_kept : supportsSelectPaneZ.Kept T := by
  refine kept_get.bind fun s => ?_
  split
  · exact kept_pure _
  · refine ((plain_kept P rfl).catching fun _ => kept_pure _).bind fun supported => ?_
    exact (kept_modify fun s hs => P.probes (some supported) s hs).bind fun _ => kept_pure _

theorem selectPane_kept (paneId : String) : (selectPane paneId).Kept T :=
  (supportsSelectPaneZ_kept P).bind fun _ => plain_kept P rfl

theorem stepPane_kept (session : String) (delta : Int) : (stepPane session delta).Kept T :=
  (supportsSelectPaneZ_kept P).bind fun _ => plain_kept P rfl

theorem stepWindow_kept (session : String) (delta : Int) : (stepWindow session delta).Kept T := by
  unfold stepWindow
  split
  · exact plain_kept P rfl
  · exact plain_kept P rfl

theorem zoomPane_kept (session : String) (paneId : Option String) (desired : Option Bool) :
    (zoomPane session paneId desired).Kept T := by
  unfold zoomPane
  dsimp only
  split
  · exact plain_kept P rfl
  · refine (plain_kept P rfl).bind fun flags => ?_
    split
    · exact kept_pure _
    · split
      · exact plain_kept P rfl
      · exact plain_kept P rfl

theorem scrollHistory_kept (session : String) (lines : Int) : (scrollHistory session lines).Kept T := by
  unfold scrollHistory
  split
  · exact readScrollState_kept P.toPermits _
  · refine (readScrollState_kept P.toPermits _).bind fun before => ?_
    have hrest : ∀ t : Io Unit, t.Kept T → (t >>= fun _ => (do
        Io.tmux (.on (.session session) (.sendKeys ["-X", "-N", lines.natAbs.repr,
          if 0 < lines then "scroll-up" else "scroll-down"]))
        readScrollState session)).Kept T :=
      fun t ht => ht.bind fun _ => (plain_kept P rfl).bind fun _ => readScrollState_kept P.toPermits _
    dsimp only
    split
    · exact hrest _ (plain_kept P rfl)
    · exact hrest (pure ()) (kept_pure ())

theorem scrollToPosition_kept (session : String) (position : Nat) : (scrollToPosition session position).Kept T := by
  refine (readScrollState_kept P.toPermits _).bind fun state => ?_
  have hrest : ∀ delta : Int, (if delta = 0 then return state else scrollHistory session delta : Io ScrollState).Kept T := by
    intro delta
    split
    · exact kept_pure _
    · exact scrollHistory_kept P _ _
  exact hrest _

theorem exitCopyMode_kept (session : String) : (Router.exitCopyMode own session).Kept T := by
  have hexit : (Relay.exitCopyMode session).Kept T := by
    refine (readScrollState_kept P.toPermits _).bind fun state => ?_
    split
    · exact kept_pure _
    · exact plain_kept P rfl
  refine hexit.bind fun _ => attachedNow_kept.bind fun _ => ?_
  exact (readScrollState_kept P.toPermits _).bind fun _ => sendScrollState_kept P.toPermits _

theorem windowSelect_kept (hlayout : Attended T) (id : String) : (Router.windowSelect own id).Kept T := by
  have hshown : (Io.update own fun c => { c with activeWindowId := some id }).Kept T :=
    update_kept P.toPermits fun _ => ⟨rfl, rfl, rfl, rfl, rfl, rfl⟩
  refine (plain_kept P rfl).bind fun _ => hshown.bind fun _ => ?_
  exact attachedNow_kept.bind fun _ => (announceLayout_kept P.toPermits hlayout _).bind fun _ => kept_pure _

theorem windowKill_kept (hlayout : Attended T) (id : String) : (Router.windowKill own id).Kept T := by
  refine (thenAnnounce_kept P.toPermits hlayout (plain_kept P rfl)).bind fun windowId => ?_
  refine update_kept P.toPermits fun c => ?_
  split
  · exact ⟨rfl, rfl, rfl, rfl, rfl, rfl⟩
  · exact ⟨rfl, rfl, rfl, rfl, rfl, rfl⟩

theorem deviceApprove_kept (id : String) : (Router.deviceApprove own id).Kept T := by
  refine kept_get.bind fun s => ?_
  split
  · exact kept_modify fun s hs => P.approvals (fun ids => ids.filter (· ≠ id)) s hs
  · exact sendError_kept P.toPermits _ _

end Changing

end Mtmux.Relay
