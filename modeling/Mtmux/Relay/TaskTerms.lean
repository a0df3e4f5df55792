import Mtmux.Relay.OwnClones

/-! The tasks of the relay keep to terms: which sessions they may end, and whom they may tell something. -/
namespace Mtmux.Relay
open Protocol Async List

/-! ### Recordings -/

section Recordings
variable {host : Host} {own : Option String} {announces : Bool} {grants : String → GrantRecord → Prop} {calls : Call → Prop}
  {extra : Out → Prop} {replies : (c : Call) → Except Failure c.Output → Prop}

theorem quietly_kept {T : RelayTerms} {α : Type} {t : Io α} (h : t.Kept T) : (Recorder.quietly t).Kept T :=
  (h.bind fun _ => kept_pure _).catching fun _ => kept_pure _

theorem forget_kept (id : String) :
    (Recorder.forget id).Kept (relayTerms host own announces grants calls extra replies) := by
  refine kept_modify fun s _ => may_active rfl rfl rfl (fun r hr => .inl ?_) fun r hr => .inl ?_
  · exact ⟨r, (mem_filter.1 hr).1, rfl⟩
  · exact ⟨r, (mem_filter.1 hr).1, rfl, rfl⟩

theorem change_recording_kept {f : ActiveRecording → ActiveRecording} (grant : GrantRecord) (id : String)
    (hid : ∀ r, (f r).info = r.info)
    (hcapture : ∀ r, (f r).capture = r.capture ∨ ∀ name bridge, (f r).capture = .session (some name) bridge →
      name = recordingCloneNameFor id) :
    (Recorder.change grant id f).Kept (relayTerms host own announces grants calls extra replies) := by
  refine kept_modify fun s _ => may_active rfl rfl rfl (fun r' hr' => .inl ?_) fun r' hr' => ?_
  · obtain ⟨r, hr, hsame⟩ := mem_map.1 hr'
    refine ⟨r, hr, ?_⟩
    split at hsame
    · rw [← hsame, hid]
    · rw [← hsame]
  · obtain ⟨r, hr, hsame⟩ := mem_map.1 hr'
    split at hsame
    · rename_i hthis
      subst hsame
      cases hcapture r with
      | inl hsame => exact .inl ⟨r, hr, by rw [hid], hsame⟩
      | inr hnew =>
        refine .inr fun name bridge hname => ?_
        rw [hid, hthis.1]
        exact hnew name bridge hname
    · subst hsame
      exact .inl ⟨r, hr, rfl, rfl⟩

theorem teardown_kept (r : ActiveRecording) (hreads : ∀ c, reading c = true → calls c)
    (hpipe : ∀ pane, calls (.tmux (.on (.pane pane) (.pipePane none)))) (hends : ∀ bridge, extra (.kill bridge))
    (hkill : ∀ name bridge, r.capture = .session (some name) bridge → calls (.tmux (.killSession name))) :
    (Recorder.teardown r).Kept (relayTerms host own announces grants calls extra replies) := by
  unfold Recorder.teardown
  split
  · rename_i paneId fifoPath _
    refine (quietly_kept (tmux_kept (hpipe _))).bind fun _ => ?_
    cases fifoPath with
    | none => exact kept_pure _
    | some path => exact quietly_kept (recording_kept (hreads _ rfl))
  · rename_i cloneName bridge hcapture
    cases cloneName with
    | none =>
      cases bridge with
      | none => exact kept_pure _
      | some bridge => exact (killBridge_kept hends bridge).bind fun _ => kept_pure _
    | some name =>
      have hdestroy : (destroyClone name).Kept (relayTerms host own announces grants calls extra replies) :=
        destroyClone_kept fun _ => hkill name bridge hcapture
      cases bridge with
      | none => exact hdestroy
      | some bridge => exact (killBridge_kept hends bridge).bind fun _ => hdestroy

theorem stop_kept (id : String) (reason : RecordingStopReason) (hreads : ∀ c, reading c = true → calls c)
    (hpipe : ∀ pane, calls (.tmux (.on (.pane pane) (.pipePane none)))) (hends : ∀ bridge, extra (.kill bridge))
    (hkill : calls (.tmux (.killSession (recordingCloneNameFor id)))) :
    (Recorder.stop id reason).Kept (relayTerms host own announces grants calls extra replies) := by
  intro s hs
  unfold Recorder.stop
  rw [within_get]
  cases hfind : Recorder.find s id with
  | none => exact recording_kept (hreads _ rfl) s hs
  | some r =>
    have hmem : r ∈ s.active := mem_of_find?_eq_some hfind
    have hid : r.info.id = id := by simpa using List.find?_some hfind
    have hown : ∀ name bridge, r.capture = .session (some name) bridge → calls (.tmux (.killSession name)) := by
      intro name bridge hcapture
      rw [hs.1.recorders r hmem name bridge hcapture, hid]
      exact hkill
    have hend : (do
        let stopReason ← Io.recording (.stopWriter id reason)
        Io.recording (.patch id stopReason) : Io (Option RecordingInfo)).Kept
        (relayTerms host own announces grants calls extra replies) :=
      (recording_kept (hreads _ rfl)).bind fun _ => recording_kept (hreads _ rfl)
    exact ((forget_kept id).bind fun _ =>
      (teardown_kept r hreads hpipe hends hown).bind fun _ => hend) s hs

/-- What it takes to make recordings. -/
structure Records (calls : Call → Prop) (extra : Out → Prop) : Prop where
  plains : ∀ c, plain c = true → calls c
  groups : ∀ target id, calls (.tmux (.groupSession target (recordingCloneNameFor id)))
  kills : ∀ id, calls (.tmux (.killSession (recordingCloneNameFor id)))
  ends : ∀ bridge, extra (.kill bridge)
  opens : ∀ grant id size, extra (.spawn (.attach grant (recordingCloneNameFor id) (some size) true))

variable (h : Records calls extra)
include h

theorem sessionSize_kept (session : String) :
    (sessionSize session).Kept (relayTerms host own announces grants calls extra replies) := by
  refine ((tmux_kept (h.plains _ rfl)).bind fun windows => ?_).catching fun _ => kept_pure _
  split
  · exact kept_pure _
  · exact kept_pure _

theorem startSessionCapture_kept (grant : GrantRecord) (id session : String) (size : TerminalSize) :
    (Recorder.startSessionCapture grant id session size).Kept
      (relayTerms host own announces grants calls extra replies) := by
  intro s hs
  have hmade : (createRecordingClone session id).Within (relayTerms host own announces grants calls extra replies)
      (fun _ made => made = recordingCloneNameFor id) s :=
    createClone_within _ (h.groups session id) (fun _ _ => h.plains _ rfl) (h.kills id) s hs
  refine hmade.then hs fun s' cloneName hs' hname => ?_
  subst hname
  have hclone : ∀ bridge, (Recorder.change grant id fun r =>
      { r with capture := .session (some (recordingCloneNameFor id)) bridge }).Kept
      (relayTerms host own announces grants calls extra replies) := by
    intro bridge
    refine change_recording_kept grant id (fun _ => rfl) fun r => .inr fun name bridge' hname => ?_
    cases hname
    rfl
  have hcount : (Async.modify fun s : RelayState => { s with nextBridge := s.nextBridge + 1 }).Kept
      (relayTerms host own announces grants calls extra replies) := kept_modify fun s _ => may_aside rfl rfl rfl rfl
  refine ((hclone none).bind fun _ => kept_get.bind fun t => ?_) s' hs'
  split
  · refine hcount.bind fun _ => (destroyClone_kept fun _ => h.kills id).bind fun _ => ?_
    exact kept_throw _
  · have hbridge : (Async.modify fun s : RelayState =>
        { s with
          bridges := s.bridges.set s.nextBridge ⟨.recorder id, false, false, false⟩
          nextBridge := s.nextBridge + 1 }).Kept (relayTerms host own announces grants calls extra replies) :=
      kept_modify fun s _ => may_aside rfl rfl rfl rfl
    refine hbridge.bind fun _ => (hclone (some t.nextBridge)).bind fun _ => kept_say fun s' _ => ⟨⟨?_, ?_⟩, ?_⟩
    · exact fun _ => ⟨rfl, .inr ⟨id, rfl⟩⟩
    · exact fun _ => ⟨rfl, recordingClone_clone id⟩
    · exact h.opens grant id size

theorem startPaneCapture_kept (grant : GrantRecord) (id paneId filename : String) :
    (Recorder.startPaneCapture grant id paneId filename).Kept
      (relayTerms host own announces grants calls extra replies) := by
  unfold Recorder.startPaneCapture
  refine (tmux_kept (h.plains _ rfl)).bind fun piped => ?_
  split
  · exact kept_throw _
  · refine kept_get.bind fun s => ?_
    dsimp only
    split
    · have hpipe : ∀ fifoPath, (Recorder.change grant id fun r => { r with capture := .pane paneId fifoPath }).Kept
          (relayTerms host own announces grants calls extra replies) := by
        intro fifoPath
        refine change_recording_kept grant id (fun _ => rfl) fun r => .inr fun name bridge hname => ?_
        cases hname
      refine ((recording_kept (h.plains _ rfl)).catching fun _ => kept_throw _).bind fun _ => (hpipe _).bind fun _ => ?_
      refine ((tmux_kept (h.plains _ rfl)).catching fun _ => kept_pure _).bind fun _ => ?_
      refine (tmux_kept (h.plains _ rfl)).catching fun e => ?_
      exact ((recording_kept (h.plains _ rfl)).catching fun _ => kept_pure _).bind fun _ => kept_throw _
    · exact kept_throw _

theorem capture_kept (grant : GrantRecord) (id filename : String) (size : TerminalSize) (target : RecordingTarget) :
    (Recorder.capture grant id filename size target).Kept (relayTerms host own announces grants calls extra replies) := by
  cases target with
  | session session => exact startSessionCapture_kept h grant id session size
  | pane session paneId => exact startPaneCapture_kept h grant id paneId filename

theorem abandon_kept {α : Type} (id : String) (e : Failure) :
    (Recorder.abandon id e : Io α).Kept (relayTerms host own announces grants calls extra replies) := by
  refine (forget_kept id).bind fun _ => (recording_kept (h.plains _ rfl)).bind fun _ => ?_
  exact ((recording_kept (h.plains _ rfl)).catching fun _ => kept_pure _).bind fun _ => kept_throw _

theorem start_kept (grant : GrantRecord) (target : RecordingTarget) (title : Option String) :
    (Recorder.start grant target title).Kept (relayTerms host own announces grants calls extra replies) := by
  have hreads : ∀ c, reading c = true → calls c := fun c hc => h.plains c (plain_of_reading hc)
  refine kept_get.bind fun s => ?_
  split
  · exact kept_throw _
  · refine (sessionExists_kept hreads _).bind fun found => ?_
    split
    · refine kept_get_bind fun s' hs' => ?_
      have hdrawn : (Async.modify fun s : RelayState => { s with drawn := s.drawn + 1 }).Kept
          (relayTerms host own announces grants calls extra replies) := kept_modify fun s _ => may_aside rfl rfl rfl rfl
      refine hdrawn.bind fun _ => (sessionSize_kept h _).bind fun size => ?_
      refine (recording_kept (h.plains _ rfl)).bind fun _ => ?_
      have hfresh : ∀ info : RecordingInfo, info.id = host.recordingId s'.drawn → (Async.modify fun s : RelayState =>
          { s with active := s.active ++ [Recorder.fresh grant info] }).Kept
          (relayTerms host own announces grants calls extra replies) := by
        intro info hid
        refine kept_modify fun s hs => may_active rfl rfl rfl (fun r hr => ?_) fun r hr => ?_
        · cases mem_append.1 hr with
          | inl hold => exact .inl ⟨r, hold, rfl⟩
          | inr hnew =>
            refine .inr ⟨s'.drawn, ?_⟩
            rw [mem_singleton.1 hnew, hs.1.hosted]
            exact hid
        cases mem_append.1 hr with
        | inl hold => exact .inl ⟨r, hold, rfl, rfl⟩
        | inr hnew =>
          refine .inr fun name bridge hname => ?_
          rw [mem_singleton.1 hnew] at hname
          unfold Recorder.fresh at hname
          cases hinfo : info.target with
          | session session =>
            rw [hinfo] at hname
            cases hname
          | pane session paneId =>
            rw [hinfo] at hname
            cases hname
      refine (hfresh _ (by rw [← hs'.1.hosted])).bind fun _ => ?_
      refine ((capture_kept h grant _ _ size target).catching fun e => abandon_kept h _ e).bind fun _ => ?_
      refine (recording_kept (h.plains _ rfl)).bind fun _ => ?_
      have hpolling : ∀ id, (Recorder.change grant id fun r => { r with polling := true }).Kept
          (relayTerms host own announces grants calls extra replies) :=
        fun id => change_recording_kept grant id (fun _ => rfl) fun _ => .inl rfl
      exact (hpolling _).bind fun _ => kept_pure _
    · exact kept_throw _

end Recordings

/-! ### Messages -/

/-- After these everybody is told what sessions there are. -/
def announcesSessions : ClientMessage → Bool
  | .sessionCreate .. | .sessionKill _ | .sessionRename .. => true
  | _ => false

/-- After these everybody attached is told what windows and panes there are. -/
def announcesLayout : ClientMessage → Bool
  | .paneSplit _ | .paneSelect _ | .paneZoom .. | .paneStep _ | .paneResize .. | .paneKill _ | .paneSwap ..
  | .windowCreate _ | .windowSelect _ | .windowStep _ | .windowKill _ | .windowRename .. | .windowLayout _
  | .layoutRotate => true
  | _ => false

/-- The gate takes these for reading. -/
def scrolls : ClientMessage → Bool
  | .tmuxCopyMode | .tmuxScroll _ | .tmuxScrollTo _ | .tmuxExitCopyMode => true
  | _ => false

/-- What it takes to handle a message that changes something. -/
structure Writes (msg : ClientMessage) (announces : Bool) (calls : Call → Prop) (extra : Out → Prop) : Prop
    extends Records calls extra where
  types : ∀ bridge data, extra (.write bridge data)
  killing : ∀ name, msg = .sessionKill name → calls (.tmux (.killSession name))
  telling : announcesLayout msg = true ∨ announcesSessions msg = true → ∀ conn m, extra (.send conn m)
  loud : announcesSessions msg = true → announces = true

section Messages
variable {host : Host} {own : String} {held : GrantRecord} {announces : Bool} {grants : String → GrantRecord → Prop} {calls : Call → Prop}
  {extra : Out → Prop} {replies : (c : Call) → Except Failure c.Output → Prop}

variable {msg : ClientMessage}

theorem changes (h : Clones own held calls extra) (hwrite : Writes msg announces calls extra) :
    Changes (relayTerms host (some own) announces grants calls extra replies) own where
  toPermits := permits h
  plains := hwrite.plains
  types _ bridge data _ := ⟨trivial, hwrite.types bridge data⟩

theorem attended (h : ∀ conn m, extra (.send conn m)) :
    Attended (relayTerms host (some own) announces grants calls extra replies) :=
  fun _ c m _ hc hattached => ⟨.inr (.inr ⟨c, hc, rfl, hattached⟩), h c.id m⟩

theorem announced_all_kept (hloud : announces = true) (h : ∀ conn m, extra (.send conn m))
    (build : ConnectionState → Option ServerMessage) (exclude own : Option String) :
    (Io.broadcastWhere build exclude).Kept (relayTerms host own announces grants calls extra replies) :=
  broadcastWhere_kept fun _ _ conn _ m _ => ⟨.inr (.inl hloud), h conn.id m⟩

section
variable (h : Clones own held calls extra)
include h

theorem create_kept (hwrite : Writes msg announces calls extra)
    (hmsg : announcesSessions msg = true) (name cwd command : Option String) :
    (Router.create own name cwd command).Kept (relayTerms host (some own) announces grants calls extra replies) := by
  refine (tmux_kept (hwrite.plains _ rfl)).bind fun session => ?_
  refine (send_kept (permits h) _).bind fun _ => ?_
  exact announced_all_kept (hwrite.loud hmsg) (hwrite.telling (.inr hmsg)) _ _ _

theorem kill_kept (hwrite : Writes msg announces calls extra)
    {name : String} (hmsg : msg = .sessionKill name) :
    (Router.kill own name).Kept (relayTerms host (some own) announces grants calls extra replies) := by
  have hannounces : announcesSessions msg = true := by rw [hmsg]; rfl
  refine (tmux_kept (hwrite.killing name hmsg)).bind fun _ => ?_
  refine (send_kept (permits h) _).bind fun _ => ?_
  exact announced_all_kept (hwrite.loud hannounces) (hwrite.telling (.inr hannounces)) _ _ _

theorem rename_kept (hwrite : Writes msg announces calls extra)
    (hmsg : announcesSessions msg = true) (grant : GrantRecord) (oldName newName : String) :
    (Router.rename own grant oldName newName).Kept
      (relayTerms host (some own) announces grants calls extra replies) := by
  refine (sessionExists_kept h.reads oldName).bind fun found => ?_
  split
  · refine (tmux_kept (hwrite.plains _ rfl)).bind fun _ => ?_
    refine (sessionsVisibleTo_kept (permits h) grant).bind fun _ => (send_kept (permits h) _).bind fun _ => ?_
    refine (listSessions_kept h.reads).bind fun sessions => kept_get.bind fun s => ?_
    exact announced_all_kept (hwrite.loud hmsg) (hwrite.telling (.inr hmsg)) _ _ _
  · exact sendError_kept (permits h) _ _

theorem resize_kept (size : TerminalSize) (bridge : Nat) :
    (Router.resize own size bridge).Kept (relayTerms host (some own) announces grants calls extra replies) := by
  refine (look_kept own _).bind fun lastSize => ?_
  split
  · exact kept_pure _
  · have hsize : (Io.update own fun c => { c with lastSize := some size }).Kept
        (relayTerms host (some own) announces grants calls extra replies) :=
      change_kept (fun _ => rfl) (fun _ => rfl) fun _ => .inl rfl
    exact hsize.bind fun _ => kept_say fun s _ => ⟨trivial, h.resizes bridge size⟩

theorem recordingStart_kept
    (hwrite : Writes msg announces calls extra) (grant : GrantRecord) (target : RecordingTarget)
    (title : Option String) : (Router.recordingStart own grant target title).Kept
      (relayTerms host (some own) announces grants calls extra replies) := by
  refine ((start_kept hwrite.toRecords grant target title).bind fun _ => send_kept (permits h) _).catching fun e => ?_
  split
  · exact sendError_kept (permits h) _ _
  · exact kept_throw _

theorem end_kept (hwrite : Writes msg announces calls extra)
    (id : String) (reason : RecordingStopReason) : (Recorder.stop id reason).Kept
      (relayTerms host (some own) announces grants calls extra replies) :=
  stop_kept id reason h.reads (fun _ => hwrite.plains _ rfl) hwrite.ends (hwrite.kills id)

theorem recordingStop_kept
    (hwrite : Writes msg announces calls extra) (grant : GrantRecord) (id : String) :
    (Router.recordingStop own grant id).Kept (relayTerms host (some own) announces grants calls extra replies) := by
  refine (visibleRecording_kept (permits h) _ _).bind fun recording => ?_
  cases recording with
  | none => exact sendError_kept (permits h) _ _
  | some recording =>
    refine (end_kept h hwrite id .requested).bind fun stopped => ?_
    cases stopped with
    | none => exact sendError_kept (permits h) _ _
    | some stopped => exact send_kept (permits h) _

theorem recordingDelete_kept
    (hwrite : Writes msg announces calls extra) (grant : GrantRecord) (id : String) :
    (Router.recordingDelete own grant id).Kept (relayTerms host (some own) announces grants calls extra replies) := by
  refine (visibleRecording_kept (permits h) _ _).bind fun recording => ?_
  cases recording with
  | none => exact sendError_kept (permits h) _ _
  | some recording =>
    have hrest : (do
        Io.recording (.remove id)
        Io.send own (.recordingDeleted id) : Io Unit).Kept
        (relayTerms host (some own) announces grants calls extra replies) :=
      (recording_kept (h.reads _ rfl)).bind fun _ => send_kept (permits h) _
    refine kept_get.bind fun s => ?_
    dsimp only
    split
    · exact hrest
    · exact (end_kept h hwrite id .requested).bind fun _ => hrest

end

/-- What the handlers do that change nothing. -/
theorem look_handled {grant : GrantRecord} (h : Clones own grant calls extra) (hown : ∃ n, own = connectionName n)
    (msg : ClientMessage) (hwrite : (policy msg).write = false) (hscroll : scrolls msg = false) :
    (handle own grant msg).Kept (relayTerms host (some own) announces grants calls extra replies) := by
  have hP : Permits (relayTerms host (some own) announces grants calls extra replies) own := permits h
  cases msg with
  | ping timestamp => exact send_kept hP _
  | sessionList => exact (sessionsVisibleTo_kept hP grant).bind fun _ => send_kept hP _
  | sessionAttach name size capture attachId => exact attach_kept h hown name size capture attachId
  | sessionDetach => exact dropSession_kept h.ends h.kills
  | sessionWindows name => exact windows_kept hP name
  | terminalResize size =>
    refine (look_kept own _).bind fun bridge => ?_
    cases bridge with
    | none => exact sendError_kept hP _ _
    | some bridge => exact resize_kept h size bridge
  | fileList path => exact allowed_kept hP _ ((file_kept (h.reads _ rfl)).bind fun _ => send_kept hP _)
  | fileRead path => exact allowed_kept hP _ (fileRead_kept hP path)
  | fileStat path => exact allowed_kept hP _ ((file_kept (h.reads _ rfl)).bind fun _ => send_kept hP _)
  | fileWatch path => exact allowed_kept hP _ (fileWatch_kept hP path)
  | fileUnwatch path => exact fileUnwatch_kept hP path
  | fileWrite path content => exact allowed_kept hP _ (fileWrite_kept hP path content)
  | fileUpload path content final => exact allowed_kept hP _ (fileUpload_kept hP path content final)
  | paneList => exact attached_kept hP (paneList_kept hP)
  | paneCapture id => exact attached_kept hP fun _ => paneCapture_kept hP id
  | windowList => exact attached_kept hP (windowList_kept hP)
  | tmuxScrollState =>
    refine attached_kept hP fun session => ?_
    exact (readScrollState_kept hP session).bind fun _ => sendScrollState_kept hP _
  | recordingList => exact (visibleRecordings_kept hP grant).bind fun _ => send_kept hP _
  | recordingFetch id offset => exact recordingFetch_kept hP grant id offset
  | auth token => exact sendError_kept hP _ _
  | tmuxCopyMode | tmuxScroll | tmuxScrollTo | tmuxExitCopyMode => cases hscroll
  | sessionCreate | sessionKill | sessionRename | terminalInput | commandSend | commandInterrupt | commandEof
  | commandClear | commandSuspend | paneSplit | paneSelect | paneZoom | paneStep | paneResize | paneKill | paneSwap
  | windowCreate | windowSelect | windowStep | windowKill | windowRename | windowLayout | layoutRotate | tmuxPrefix
  | recordingStart | recordingStop | recordingDelete | deviceApprove => cases hwrite
  | _ => exact allowed_kept hP _ (fileOp_kept hP _ _ _)

theorem scroll_handled {T : RelayTerms} (P : Changes T own) (grant : GrantRecord) (msg : ClientMessage)
    (hscroll : scrolls msg = true) : (handle own grant msg).Kept T := by
  cases msg with
  | tmuxCopyMode => exact attached_kept P.toPermits fun _ => plain_kept P rfl
  | tmuxScroll lines =>
    refine attached_kept P.toPermits fun session => ?_
    exact (scrollHistory_kept P session lines).bind fun _ => sendScrollState_kept P.toPermits _
  | tmuxScrollTo position =>
    refine attached_kept P.toPermits fun session => ?_
    exact (scrollToPosition_kept P session position).bind fun _ => sendScrollState_kept P.toPermits _
  | tmuxExitCopyMode => exact attached_kept P.toPermits (exitCopyMode_kept P)
  | _ => cases hscroll

theorem change_handled (h : Clones own held calls extra) (grant : GrantRecord) (msg : ClientMessage)
    (hwrite : Writes msg announces calls extra) (hpolicy : (policy msg).write = true) :
    (handle own grant msg).Kept (relayTerms host (some own) announces grants calls extra replies) := by
  have P : Changes (relayTerms host (some own) announces grants calls extra replies) own := changes h hwrite
  have hP := P.toPermits
  have hlayout : announcesLayout msg = true →
      Attended (relayTerms host (some own) announces grants calls extra replies) :=
    fun hmsg => attended (hwrite.telling (.inl hmsg))
  cases msg with
  | sessionCreate name cwd command => exact create_kept h hwrite rfl name cwd command
  | sessionKill name => exact kill_kept h hwrite rfl
  | sessionRename oldName newName => exact rename_kept h hwrite rfl grant oldName newName
  | terminalInput data => exact write_kept P data
  | commandSend command => exact write_kept P _
  | commandInterrupt => exact interrupt_kept P
  | commandEof | commandClear | commandSuspend => exact toPty_kept P _
  | paneSelect id => exact attached_kept hP fun _ => announcedWindow_kept hP (hlayout rfl) (selectPane_kept P id)
  | paneZoom id zoomed => exact attached_kept hP fun _ => announced_kept hP (hlayout rfl) (zoomPane_kept P _ _ _)
  | paneStep delta => exact attached_kept hP fun _ => announced_kept hP (hlayout rfl) (stepPane_kept P _ _)
  | paneResize id direction amount =>
    exact attached_kept hP fun _ => announced_kept hP (hlayout rfl) (plain_kept P rfl)
  | windowCreate name => exact attached_kept hP fun _ => announcedWindow_kept hP (hlayout rfl) (plain_kept P rfl)
  | windowSelect id => exact attached_kept hP fun _ => windowSelect_kept P (hlayout rfl) id
  | windowStep delta => exact attached_kept hP fun _ => announcedWindow_kept hP (hlayout rfl) (stepWindow_kept P _ _)
  | windowKill id => exact attached_kept hP fun _ => windowKill_kept P (hlayout rfl) id
  | tmuxPrefix => exact attached_kept hP fun _ => plain_kept P rfl
  | recordingStart target title => exact recordingStart_kept h hwrite grant target title
  | recordingStop id => exact recordingStop_kept h hwrite grant id
  | recordingDelete id => exact recordingDelete_kept h hwrite grant id
  | deviceApprove id approved => exact deviceApprove_kept P id
  | auth | ping | sessionList | sessionAttach | sessionDetach | sessionWindows | terminalResize | fileList | fileRead
  | fileStat | fileWatch | fileUnwatch | fileWrite | fileCreate | fileMkdir | fileDelete | fileRename | fileUpload
  | paneList | paneCapture | windowList | tmuxCopyMode | tmuxScroll | tmuxScrollTo | tmuxScrollState
  | tmuxExitCopyMode | recordingList | recordingFetch => cases hpolicy
  | _ => exact attached_kept hP fun _ => announced_kept hP (hlayout rfl) (plain_kept P rfl)

theorem route_within {T : RelayTerms} (P : Permits T own) {s : RelayState} (hs : T.inv s)
    (hhandle : ∀ c, s.connection own = some c → Enforce.rights ⟨c.grant, c.attachedSession, none⟩ msg s.now = .ok →
      (handle own c.grant msg).Kept T) : (routeMessage own msg).Within T (fun _ _ => True) s := by
  unfold routeMessage
  rw [within_get]
  cases hc : s.connection own with
  | none => trivial
  | some c =>
    refine (enforce_within P.reads hs ⟨c.grant, c.attachedSession, none⟩ msg).then hs fun s' result hs' hresult => ?_
    cases result with
    | deny code message => exact sendError_kept P _ _ s' hs'
    | ok => exact ((hhandle c hc (hresult rfl)).catching fun _ => sendError_kept P _ _) s' hs'

theorem handle_kept {grant : GrantRecord} (h : Clones own grant calls extra)
    (P : Changes (relayTerms host (some own) announces grants calls extra replies) own)
    (hwrite : (policy msg).write = true → Writes msg announces calls extra) (hown : ∃ n, own = connectionName n) :
    (handle own grant msg).Kept (relayTerms host (some own) announces grants calls extra replies) := by
  cases hpolicy : (policy msg).write with
  | true => exact change_handled h grant msg (hwrite hpolicy) hpolicy
  | false =>
    cases hscroll : scrolls msg with
    | true => exact scroll_handled P grant msg hscroll
    | false => exact look_handled h hown msg hpolicy hscroll

end Messages

/-! ### All tasks -/

namespace Task

/-- The connection whose task it is. -/
def own : Task → Option String
  | .message conn _ | .removal conn => some conn
  | _ => none

def announces : Task → Bool
  | .message _ msg => announcesSessions msg
  | .poll => true
  | _ => false

def Speaks : Task → String → Prop
  | .message own msg, conn => conn = own ∨ announcesLayout msg = true ∨ announcesSessions msg = true
  | .poll, _ | .job (.announcePanes _), _ => True
  | _, _ => False

def Kills : Task → String → Prop
  | .message conn msg, name => IsCloneOf conn name ∨ (∃ id, name = recordingCloneNameFor id) ∨ msg = .sessionKill name
  | .removal conn, name => IsCloneOf conn name
  | .recordingOver id _, name => name = recordingCloneNameFor id
  | .sweep, name => isCloneSession name = true
  | _, _ => False

variable {host : Host}

def Copies (task : Task) (target : String) : Prop :=
  isCloneSession target = false ∨ ∀ conn msg, task = .message conn msg → (policy msg).write = true

/-- Only a pty attaches, as it was told. -/
def Attaches (task : Task) (target : Target) (size : Option TerminalSize) (readOnly : Bool) : Prop :=
  ∃ grant name, task = .job (.attach grant name size readOnly) ∧ target = .session name

structure MayCall (task : Task) (c : Call) : Prop where
  kills : ∀ name, c = .tmux (.killSession name) → task.Kills name
  copies : ∀ target name, c = .tmux (.groupSession target name) → task.Copies target
  attaches : ∀ target size readOnly, c = .tmux (.on target (.attachSession size readOnly)) →
    task.Attaches target size readOnly

def MayTell (task : Task) : Out → Prop
  | .send conn _ => task.Speaks conn
  | _ => True

def terms (host : Host) (task : Task) : RelayTerms :=
  relayTerms host task.own task.announces (fun _ _ => True) task.MayCall task.MayTell fun _ _ => True

section Calls
variable {task : Task}

theorem plain_call {c : Call} (h : plain c = true) : task.MayCall c := by
  refine ⟨fun name hkill => ?_, fun target name hgroup => ?_, fun target size readOnly hattach => ?_⟩
  · rw [hkill] at h
    cases h
  · rw [hgroup] at h
    cases h
  · rw [hattach] at h
    cases h

theorem mayCall_kill {name : String} (h : task.Kills name) : task.MayCall (.tmux (.killSession name)) := by
  refine ⟨fun name' hkill => ?_, fun target name' hgroup => ?_, fun target size readOnly hattach => ?_⟩
  · cases hkill
    exact h
  · cases hgroup
  · cases hattach

theorem mayCall_group {target name : String} (h : task.Copies target) :
    task.MayCall (.tmux (.groupSession target name)) := by
  refine ⟨fun name' hkill => ?_, fun target' name' hgroup => ?_, fun target' size readOnly hattach => ?_⟩
  · cases hkill
  · cases hgroup
    exact h
  · cases hattach

theorem mayCall_attach (grant : GrantRecord) (name : String) (size : Option TerminalSize) (readOnly : Bool) :
    (Task.job (.attach grant name size readOnly)).MayCall
      (.tmux (.on (.session name) (.attachSession size readOnly))) := by
  refine ⟨fun name' hkill => ?_, fun target name' hgroup => ?_, fun target size' readOnly' hattach => ?_⟩
  · cases hkill
  · cases hgroup
  · cases hattach
    exact ⟨grant, name, rfl, rfl⟩

theorem reading_call : ∀ c, reading c = true → task.MayCall c :=
  fun _ hc => plain_call (plain_of_reading hc)

end Calls

theorem clones (conn : String) (grant : GrantRecord) (msg : ClientMessage) :
    Clones conn grant (Task.message conn msg).MayCall (Task.message conn msg).MayTell where
  reads := reading_call
  groups _ _ htarget _ := mayCall_group (.inl htarget)
  locks _ _ _ _ := plain_call rfl
  kills _ hname := mayCall_kill (.inl hname)
  sends _ := .inl rfl
  ends _ := trivial
  resizes _ _ := trivial
  opens _ _ _ := trivial

theorem writes (conn : String) {msg : ClientMessage} (h : (policy msg).write = true) :
    Writes msg (announcesSessions msg) (Task.message conn msg).MayCall (Task.message conn msg).MayTell where
  plains _ hc := plain_call hc
  groups _ _ := by
    refine mayCall_group (.inr fun conn msg hmsg => ?_)
    cases hmsg
    exact h
  kills id := mayCall_kill (.inr (.inl ⟨id, rfl⟩))
  ends _ := trivial
  opens _ _ _ := trivial
  types _ _ := trivial
  killing _ hmsg := mayCall_kill (.inr (.inr hmsg))
  telling hmsg _ _ := .inr hmsg
  loud hmsg := hmsg

theorem message_kept (conn : String) (msg : ClientMessage) :
    (routeMessage conn msg).Kept ((Task.message conn msg).terms host) := by
  intro s hs
  have hpermits : Permits ((Task.message conn msg).terms host) conn := permits (clones conn fullGrant msg)
  refine route_within hpermits hs fun c hc _ => ?_
  have P : Changes ((Task.message conn msg).terms host) conn :=
    ⟨hpermits, fun _ hplain => plain_call hplain, fun _ _ _ _ => ⟨trivial, trivial⟩⟩
  exact handle_kept (clones conn c.grant msg) P (writes conn) (hs.1.numbered conn c hc)

theorem removal_kept (conn : String) : (removeConnection conn).Kept ((Task.removal conn).terms host) := by
  have hlast : (Io.update conn fun c => { c with watchers := [], removed := true }).Kept ((Task.removal conn).terms host) :=
    change_kept (fun _ => rfl) (fun _ => rfl) fun _ => .inl rfl
  have hrest := ((file_kept (reading_call (.file (.release conn)) rfl)).catching fun _ => kept_pure ()).bind
    fun _ => hlast
  have hkill : ∀ name, IsCloneOf conn name → (Task.removal conn).MayCall (.tmux (.killSession name)) :=
    fun name hname => mayCall_kill hname
  have hleave := leaveClone_kept hkill hrest
  have hpty : (Io.update conn fun c => { c with pty := none }).Kept ((Task.removal conn).terms host) :=
    change_kept (fun _ => rfl) (fun _ => rfl) fun _ => .inl rfl
  refine (look_kept conn _).bind fun bridge => ?_
  cases bridge with
  | none => exact hleave
  | some bridge => exact (killBridge_kept (fun _ => trivial) bridge).bind fun _ => hpty.bind fun _ => hleave

theorem announcePanes_kept (name : String) :
    (SessionMonitor.announcePanes name).Kept ((Task.job (.announcePanes name)).terms host) := by
  refine ((currentWindowPanes_kept reading_call name).bind fun layout => ?_).catching fun _ => kept_pure _
  refine broadcastWhere_kept fun s _ conn hconn m hm => ⟨.inr (.inr ⟨conn, hconn, rfl, ?_⟩), trivial⟩
  unfold attachedTo at hm
  split at hm
  · rename_i hsame
    rw [hsame]
    rfl
  · cases hm

theorem aside_kept {f : RelayState → RelayState} {task : Task} (hconnections : ∀ s, (f s).connections = s.connections)
    (hactive : ∀ s, (f s).active = s.active) (hnow : ∀ s, (f s).now = s.now) (hhost : ∀ s, (f s).host = s.host) :
    (Async.modify f : Io Unit).Kept (task.terms host) :=
  kept_modify fun s _ => may_aside (hconnections s) (hactive s) (hnow s) (hhost s)

theorem poll_broadcast_kept (build : ConnectionState → Option ServerMessage) (exclude : Option String) :
    (Io.broadcastWhere build exclude).Kept (Task.poll.terms host) :=
  announced_all_kept rfl (fun _ _ => trivial) build exclude none

theorem exited_kept (names : List String) : (SessionMonitor.exited names).Kept (Task.poll.terms host) := by
  induction names with
  | nil => exact kept_pure _
  | cons name names ih =>
    have hexit : (SessionMonitor.onSessionExit name).Kept (Task.poll.terms host) := by
      unfold SessionMonitor.onSessionExit
      split
      · exact kept_pure _
      · exact poll_broadcast_kept _ _
    have hgone : (Async.modify fun s : RelayState =>
        { s with knownSessions := s.knownSessions.filter (· ≠ name) }).Kept (Task.poll.terms host) :=
      aside_kept (fun _ => rfl) (fun _ => rfl) (fun _ => rfl) fun _ => rfl
    exact hexit.bind fun _ => hgone.bind fun _ => ih

theorem created_kept (sessions : List SessionInfo) : (SessionMonitor.created sessions).Kept (Task.poll.terms host) := by
  induction sessions with
  | nil => exact kept_pure _
  | cons session sessions ih =>
    have hnew : (SessionMonitor.onSessionCreated session).Kept (Task.poll.terms host) := by
      unfold SessionMonitor.onSessionCreated
      split
      · exact kept_pure _
      · exact poll_broadcast_kept _ _
    have hknown : (Async.modify fun s : RelayState =>
        { s with knownSessions := s.knownSessions ++ [session.name] }).Kept (Task.poll.terms host) :=
      aside_kept (fun _ => rfl) (fun _ => rfl) (fun _ => rfl) fun _ => rfl
    refine kept_get.bind fun s => ?_
    split
    · exact ih
    · exact hknown.bind fun _ => hnew.bind fun _ => ih

theorem pollWindow_kept (name : String) : (SessionMonitor.pollWindow name).Kept (Task.poll.terms host) := by
  have hset : ∀ signature, (SessionMonitor.setSignature name signature).Kept (Task.poll.terms host) :=
    fun signature => aside_kept (fun _ => rfl) (fun _ => rfl) (fun _ => rfl) fun _ => rfl
  have hchanged : ∀ windows, (SessionMonitor.onWindowsChanged name windows).Kept (Task.poll.terms host) := by
    intro windows
    unfold SessionMonitor.onWindowsChanged
    split
    · exact kept_pure _
    · exact (poll_broadcast_kept _ _).bind fun _ => kept_say fun _ _ => ⟨trivial, trivial⟩
  have hforget : (SessionMonitor.forgetSignature name).Kept (Task.poll.terms host) :=
    aside_kept (fun _ => rfl) (fun _ => rfl) (fun _ => rfl) fun _ => rfl
  refine Kept.catching ?_ fun _ => hforget
  refine (listWindows_kept reading_call name).bind fun windows => kept_get.bind fun s => ?_
  refine (hset _).bind fun _ => ?_
  split
  · exact kept_pure _
  · exact hchanged windows

theorem pollEach_kept (names : List String) : (SessionMonitor.pollEach names).Kept (Task.poll.terms host) := by
  induction names with
  | nil => exact kept_pure _
  | cons name names ih => exact (pollWindow_kept name).bind fun _ => ih

theorem poll_kept : SessionMonitor.poll.Kept (Task.poll.terms host) := by
  have hsessions : SessionMonitor.pollSessions.Kept (Task.poll.terms host) :=
    (listSessions_kept reading_call).bind fun sessions => kept_get.bind fun s =>
      (exited_kept _).bind fun _ => created_kept sessions
  have hfilter : ∀ watching : List String, (Async.modify fun s : RelayState =>
      { s with windowSignatures := s.windowSignatures.filter fun name _ => watching.contains name }).Kept
      (Task.poll.terms host) :=
    fun watching => aside_kept (fun _ => rfl) (fun _ => rfl) (fun _ => rfl) fun _ => rfl
  have hwindows : SessionMonitor.pollWindows.Kept (Task.poll.terms host) :=
    kept_get.bind fun s => (hfilter _).bind fun _ => pollEach_kept _
  exact (hsessions.catching fun _ => kept_pure _).bind fun _ => hwindows.catching fun _ => kept_pure _

theorem destroyAll_kept {names : List String} : (destroyAll names).Kept (Task.sweep.terms host) := by
  induction names with
  | nil => exact kept_pure _
  | cons name names ih =>
    have hkill : isCloneSession name = true → Task.sweep.MayCall (.tmux (.killSession name)) :=
      fun hclone => mayCall_kill hclone
    exact (destroyClone_kept hkill).bind fun _ => ih

/-- Whatever the relay runs keeps to its terms. -/
theorem program_kept (task : Task) : task.program.Kept (task.terms host) := by
  cases task with
  | message conn msg => exact message_kept conn msg
  | removal conn => exact removal_kept conn
  | job job =>
    cases job with
    | attach grant target size readOnly => exact tmux_kept (mayCall_attach grant target size readOnly)
    | announcePanes name => exact announcePanes_kept name
  | poll => exact poll_kept
  | sweep =>
    exact ((tmux_kept (plain_call rfl)).catching fun _ => kept_pure _).bind fun _ => destroyAll_kept
  | sessionListing => exact (listSessions_kept reading_call).bind fun _ => kept_pure _
  | recordingSize session =>
    refine Kept.bind ?_ fun _ => kept_pure _
    refine ((tmux_kept (plain_call rfl)).bind fun windows => ?_).catching fun _ => kept_pure _
    split
    · exact kept_pure _
    · exact kept_pure _
  | recordingOver id reason =>
    have hstop : (Recorder.stop id reason).Kept ((Task.recordingOver id reason).terms host) :=
      stop_kept id reason reading_call (fun _ => plain_call rfl) (fun _ => trivial) (mayCall_kill rfl)
    exact hstop.bind fun _ => kept_pure _

end Task

end Mtmux.Relay
