import Mtmux.Relay.Router

/-! The gate and the router agree on the ids a message carries: what the router hands to tmux
is what the gate looked up. -/
namespace Mtmux.Relay
open Protocol Async List

def object : ClientMessage → Option Target
  | .paneSelect id | .paneResize id _ _ | .paneKill id | .paneSwap id _ | .paneCapture id =>
    some (.pane id)
  | .paneZoom id _ => (id.filter (· ≠ "")).map Target.pane
  | .windowSelect id | .windowKill id | .windowRename id _ => some (.window id)
  | .recordingStart (.pane _ paneId) _ => some (.pane paneId)
  | _ => none

def Addresses (own : Target) (c : Call) : Prop :=
  ∀ target, c.target = some target → target.objectId = none ∨ target = own

def UsesObject (msg : ClientMessage) (c : Call) : Prop :=
  ∀ target id, c.target = some target → target.objectId = some id →
    (object msg).bind Target.objectId = some id → object msg = some target

def Against (ctx : EnforceContext) (msg : ClientMessage) (session : String) : Prop :=
  match msg.target with
  | none => ctx.attachedSession = some session
  | some target => target.sessionName = session

def ListedIn (log : List (Async.Exchange Failure Call.Output)) (session : String) (target : Target) :
    Prop :=
  (∃ panes id, target = .pane id ∧ id ∈ panes.map PaneInfo.id ∧
    ⟨.tmux (.on (.session session) .listPanes), .ok panes⟩ ∈ log) ∨
  ∃ windows id, target = .window id ∧ id ∈ windows.map WindowInfo.id ∧
    ⟨.tmux (.on (.session session) .listWindows), .ok windows⟩ ∈ log

section Addresses
variable {own : Target}

theorem addresses_session (name : String) (action : Action) : Addresses own (.tmux (.on (.session name) action)) := by
  intro target h
  cases h
  exact .inl rfl

theorem addresses_own (action : Action) : Addresses own (.tmux (.on own action)) := by
  intro target h
  cases h
  exact .inr rfl

theorem listPanes_addresses (session : String) (windowId : Option String) :
    (listPanes session windowId).Calls (Addresses own) fun _ => True := by
  unfold listPanes
  split
  · exact tmux_calls (addresses_session _ _)
  · split
    · exact tmux_calls (addresses_session _ _)
    · refine tmux_calls ?_
      intro target h
      cases h
      exact .inl rfl

theorem announceLayout_addresses (conn session : String) :
    (announceLayout conn session).Calls (Addresses own) fun _ => True := by
  refine then_calls (tmux_calls (addresses_session _ _)) fun windows => ?_
  refine then_calls ?_ fun layout => ?_
  · exact then_calls (tmux_calls (addresses_session _ _)) fun windowId =>
      then_calls (listPanes_addresses _ _) fun _ => trivial
  · refine then_calls (send_calls _ _) fun _ => then_calls (send_calls _ _) fun _ => ?_
    refine then_calls (broadcastWhere_calls _ _) fun _ => ?_
    exact then_calls (broadcastWhere_calls _ _) fun _ => trivial

theorem attachedNow_calls {P : Call → Prop} (conn : String) : (Router.attachedNow conn).Calls P fun _ => True := by
  refine then_calls (look_calls _ _) fun session => ?_
  cases session <;> trivial

variable {conn : String} {command : Io Unit}

section
variable (h : command.Calls (Addresses own) fun _ => True)
include h

theorem thenAnnounce_addresses :
    (Router.thenAnnounce conn command).Calls (Addresses own) fun _ => True :=
  then_calls h fun _ => then_calls (attachedNow_calls _) fun _ => announceLayout_addresses _ _

theorem announced_addresses :
    (Router.announced conn command).Calls (Addresses own) fun _ => True :=
  then_calls (thenAnnounce_addresses h) fun _ => trivial

theorem announcedWindow_addresses :
    (Router.announcedWindow conn command).Calls (Addresses own) fun _ => True :=
  then_calls (thenAnnounce_addresses h) fun _ => trivial

end

theorem attached_calls {P : Call → Prop} {f : String → Io Unit} (h : ∀ session, (f session).Calls P fun _ => True) :
    (Router.attached conn f).Calls P fun _ => True := by
  refine then_calls (look_calls _ _) fun session => ?_
  cases session with
  | none => trivial
  | some session => exact h session

theorem supportsSelectPaneZ_addresses : supportsSelectPaneZ.Calls (Addresses own) fun _ => True := by
  refine then_calls get_calls fun s => ?_
  cases s.selectPaneSupportsZ with
  | some known => trivial
  | none =>
    refine then_calls (catching_calls (tmux_calls ?_) fun _ => trivial) fun _ => trivial
    intro target h
    cases h

theorem selectPane_addresses (id : String) : (selectPane id).Calls (Addresses (.pane id)) fun _ => True :=
  then_calls supportsSelectPaneZ_addresses fun _ => tmux_calls (addresses_own _)

theorem zoomPane_addresses (session : String) {paneId : Option String} (desired : Option Bool)
    (h : ∀ id, paneId = some id → own = .pane id) :
    (zoomPane session paneId desired).Calls (Addresses own) fun _ => True := by
  have haction (action : Action) : Addresses own (.tmux (.on (zoomTarget session paneId) action)) := by
    cases paneId with
    | none => exact addresses_session _ _
    | some id =>
      rw [h id rfl]
      exact addresses_own _
  cases desired with
  | none => exact tmux_calls (haction _)
  | some desired =>
    refine then_calls (tmux_calls (haction _)) fun flags => ?_
    split
    · trivial
    · split
      · exact tmux_calls (haction _)
      · exact tmux_calls (haction _)

theorem recording_addresses (call : RecordingCall) : (Io.recording call).Calls (Addresses own) fun _ => True := by
  refine calls_call.2 ⟨?_, fun _ => trivial⟩
  intro target h
  cases h

theorem sessionExists_addresses (name : String) : (sessionExists name).Calls (Addresses own) fun _ => True :=
  catching_calls (then_calls (tmux_calls (addresses_session _ _)) fun _ => trivial)
    fun _ => trivial

theorem sessionSize_addresses (session : String) : (sessionSize session).Calls (Addresses own) fun _ => True := by
  refine catching_calls (then_calls (tmux_calls (addresses_session _ _)) fun windows => ?_)
    fun _ => trivial
  split
  · trivial
  · trivial

theorem startPaneCapture_addresses (grant : GrantRecord) (id paneId filename : String) :
    (Recorder.startPaneCapture grant id paneId filename).Calls (Addresses (.pane paneId)) fun _ => True := by
  refine then_calls (tmux_calls (addresses_own _)) fun piped => ?_
  split
  · trivial
  · refine then_calls get_calls fun s => ?_
    dsimp only
    split
    · refine then_calls (catching_calls (recording_addresses _) fun _ => trivial) fun _ => ?_
      refine then_calls (modify_calls _) fun _ => ?_
      refine then_calls (catching_calls (tmux_calls (addresses_own _)) fun _ => trivial) fun _ => ?_
      refine catching_calls (tmux_calls (addresses_own _)) fun e => ?_
      exact then_calls (catching_calls (recording_addresses _) fun _ => trivial) fun _ => trivial
    · trivial

theorem recordingStart_addresses (conn : String) (grant : GrantRecord) (session paneId : String)
    (title : Option String) : (Router.recordingStart conn grant (.pane session paneId) title).Calls
      (Addresses (.pane paneId)) fun _ => True := by
  refine catching_calls (then_calls ?_ fun _ => trivial) fun e => ?_
  · refine then_calls get_calls fun s => ?_
    split
    · trivial
    · refine then_calls (sessionExists_addresses _) fun found => ?_
      split
      · refine then_calls get_calls fun s => then_calls (modify_calls _) fun _ => ?_
        refine then_calls (sessionSize_addresses _) fun size => ?_
        refine then_calls (recording_addresses _) fun _ => then_calls (modify_calls _) fun _ => ?_
        refine then_calls (catching_calls (startPaneCapture_addresses _ _ _ _) fun e => ?_) fun _ => ?_
        · refine then_calls (modify_calls _) fun _ => then_calls (recording_addresses _) fun _ => ?_
          exact then_calls (catching_calls (recording_addresses _) fun _ => trivial)
            fun _ => trivial
        · exact then_calls (recording_addresses _) fun _ => then_calls (modify_calls _)
            fun _ => trivial
      · trivial
  · cases e.code <;> trivial

end Addresses

theorem handle_addresses (conn : String) (grant : GrantRecord) {msg : ClientMessage} {own : Target}
    (h : object msg = some own) : (handle conn grant msg).Calls (Addresses own) fun _ => True := by
  cases msg with
  | paneSelect id =>
    cases h
    exact attached_calls fun _ => announcedWindow_addresses (selectPane_addresses id)
  | paneZoom id zoomed =>
    refine attached_calls fun session => announced_addresses (zoomPane_addresses _ _ ?_)
    intro id' hid
    rw [object, hid] at h
    cases h
    rfl
  | paneResize _ _ _ | paneKill _ | paneSwap _ _ =>
    cases h
    exact attached_calls fun _ => announced_addresses (tmux_calls (addresses_own _))
  | paneCapture id =>
    cases h
    exact attached_calls fun _ => then_calls (tmux_calls (addresses_own _)) fun _ => trivial
  | windowSelect id =>
    cases h
    refine attached_calls fun _ => then_calls (tmux_calls (addresses_own _)) fun _ => ?_
    refine then_calls (modify_calls _) fun _ => then_calls (attachedNow_calls _) fun session => ?_
    exact then_calls (announceLayout_addresses _ _) fun _ => trivial
  | windowKill id =>
    cases h
    refine attached_calls fun _ => then_calls ?_ fun _ => trivial
    exact thenAnnounce_addresses (tmux_calls (addresses_own _))
  | windowRename id name =>
    cases h
    exact attached_calls fun _ => announced_addresses (tmux_calls (addresses_own _))
  | recordingStart target title =>
    cases target with
    | session session => cases h
    | pane session paneId =>
      cases h
      exact recordingStart_addresses conn grant session paneId title
  | _ => cases h

theorem handle_uses (conn : String) (grant : GrantRecord) (msg : ClientMessage) :
    (handle conn grant msg).Calls (UsesObject msg) fun _ => True := by
  cases hobject : object msg with
  | none =>
    refine calls_of_forall (fun c target id _ _ hid => ?_) (fun _ => trivial) _
    rw [hobject] at hid
    cases hid
  | some own =>
    refine (handle_addresses conn grant hobject).mono (fun c haddresses target id htarget hid _ => ?_)
      fun _ h => h
    rcases haddresses target htarget with hnone | hown
    · rw [hnone] at hid
      cases hid
    · rw [hobject, hown]

section Listed
variable {log : List (Async.Exchange Failure Call.Output)} {session : String}

theorem ListedIn.append {before after : List (Async.Exchange Failure Call.Output)} {target : Target}
    (h : ListedIn before session target ∨ ListedIn after session target) :
    ListedIn (before ++ after) session target := by
  rcases h with (⟨panes, id, ht, hid, hlog⟩ | ⟨windows, id, ht, hid, hlog⟩) |
    (⟨panes, id, ht, hid, hlog⟩ | ⟨windows, id, ht, hid, hlog⟩)
  · exact .inl ⟨panes, id, ht, hid, mem_append_left _ hlog⟩
  · exact .inr ⟨windows, id, ht, hid, mem_append_left _ hlog⟩
  · exact .inl ⟨panes, id, ht, hid, mem_append_right _ hlog⟩
  · exact .inr ⟨windows, id, ht, hid, mem_append_right _ hlog⟩

theorem paneBelongs_listed {paneId : String} (h : (paneBelongs session paneId).Reaches log (.done true)) :
    ListedIn log session (.pane paneId) := by
  rcases reaches_catching_done h with hlist | ⟨e, after, hfalse⟩
  · obtain ⟨before, after, panes, rfl, hcall, hpure⟩ := reaches_bind_done hlist
    have hlog := reaches_call_done hcall
    obtain ⟨hany, rfl⟩ := reaches_pure_done hpure
    obtain ⟨p, hp, hid⟩ := any_eq_true.1 hany
    refine .inl ⟨panes, paneId, rfl, mem_map.2 ⟨p, hp, by simpa using hid⟩, ?_⟩
    rw [hlog]
    exact mem_cons_self
  · exact absurd (reaches_pure_done hfalse).1 (by decide)

theorem windowBelongs_listed {windowId : String} (h : (windowBelongs session windowId).Reaches log (.done true)) :
    ListedIn log session (.window windowId) := by
  rcases reaches_catching_done h with hlist | ⟨e, after, hfalse⟩
  · obtain ⟨before, after, windows, rfl, hcall, hpure⟩ := reaches_bind_done hlist
    have hlog := reaches_call_done hcall
    obtain ⟨hany, rfl⟩ := reaches_pure_done hpure
    obtain ⟨w, hw, hid⟩ := any_eq_true.1 hany
    refine .inr ⟨windows, windowId, rfl, mem_map.2 ⟨w, hw, by simpa using hid⟩, ?_⟩
    rw [hlog]
    exact mem_cons_self
  · exact absurd (reaches_pure_done hfalse).1 (by decide)

theorem asked_ok {question : Io Bool} {code message : String}
    (h : (do if ← question then return .ok else return .deny code message : Io EnforceResult).Reaches
      log (.done .ok)) : ∃ before after, log = before ++ after ∧ question.Reaches before (.done true) := by
  obtain ⟨before, after, answer, rfl, hquestion, hrest⟩ := reaches_bind_done h
  cases answer with
  | true => exact ⟨before, after, rfl, hquestion⟩
  | false => cases hrest

theorem andThen_ok {first next : Io EnforceResult}
    (h : (Enforce.andThen first next).Reaches log (.done .ok)) : ∃ before after,
      log = before ++ after ∧ first.Reaches before (.done .ok) ∧ next.Reaches after (.done .ok) := by
  obtain ⟨before, after, verdict, rfl, hfirst, hnext⟩ := reaches_bind_done h
  cases verdict with
  | ok => exact ⟨before, after, rfl, hfirst, hnext⟩
  | deny code message => cases hnext

variable {ctx : EnforceContext} {msg : ClientMessage}

theorem enforce_ok (h : (enforce ctx msg).Reaches log (.done .ok)) : ∃ target named object,
    log = target ++ (named ++ object) ∧ (Enforce.recordingTarget ctx msg).Reaches target (.done .ok) ∧
      (Enforce.sessionArg ctx msg).Reaches named (.done .ok) ∧
      (Enforce.objectId ctx msg).Reaches object (.done .ok) := by
  obtain ⟨before, after, s, rfl, hread, hrest⟩ := reaches_bind_done h
  cases hread with
  | read _ hread =>
    cases hread
    obtain ⟨rights, asked, rfl, hrights, hasked⟩ := andThen_ok hrest
    obtain ⟨-, rfl⟩ := reaches_pure_done hrights
    obtain ⟨target, others, rfl, htarget, hothers⟩ := andThen_ok hasked
    obtain ⟨named, object, rfl, hnamed, hobject⟩ := andThen_ok hothers
    exact ⟨target, named, object, rfl, htarget, hnamed, hobject⟩

theorem objectId_listed {id : String} (hpolicy : (policy msg).paneId || (policy msg).windowId)
    (hid : msg.id = some id) (h : (Enforce.objectId ctx msg).Reaches log (.done .ok)) :
    ∃ session, ctx.attachedSession = some session ∧ ListedIn log session
      (if (policy msg).paneId then .pane id else .window id) := by
  rw [Enforce.objectId, if_pos hpolicy, hid] at h
  dsimp only at h
  cases hattached : ctx.attachedSession.filter (· ≠ "") with
  | none =>
    rw [hattached] at h
    cases h
  | some session =>
    rw [hattached] at h
    refine ⟨session, (Option.filter_eq_some_iff.1 hattached).1, ?_⟩
    dsimp only at h
    split at h
    · rename_i hpane
      obtain ⟨before, after, rfl, hasked⟩ := asked_ok h
      rw [if_pos hpane]
      exact .append (.inl (paneBelongs_listed hasked))
    · rename_i hpane
      obtain ⟨before, after, rfl, hasked⟩ := asked_ok h
      rw [if_neg hpane]
      exact .append (.inl (windowBelongs_listed hasked))

theorem recordingTarget_listed {name paneId : String} {title : Option String} (hfull : isFullGrant ctx.grant = false)
    (h : (Enforce.recordingTarget ctx (.recordingStart (.pane name paneId) title)).Reaches log
      (.done .ok)) : ListedIn log name (.pane paneId) := by
  obtain ⟨before, after, rfl, -, hpane⟩ := andThen_ok h
  simp only [Enforce.recordingPane, hfull, Bool.false_eq_true, if_false] at hpane
  split at hpane
  · cases hpane
  · obtain ⟨asked, rest, rfl, hasked⟩ := asked_ok hpane
    exact .append (.inr (.append (.inl (paneBelongs_listed hasked))))

/-- The object of an accepted message is in the listing that the gate made, but for the two
messages the table does not have it for. -/
theorem enforce_listed {own : Target} (hobject : object msg = some own)
    (hzoom : ∀ id zoomed, id ≠ "" → msg ≠ .paneZoom (some id) zoomed) (hrecording : isFullGrant ctx.grant = true →
      ∀ name paneId title, msg ≠ .recordingStart (.pane name paneId) title)
    (h : (enforce ctx msg).Reaches log (.done .ok)) :
    ∃ session, Against ctx msg session ∧ ListedIn log session own := by
  obtain ⟨target, named, checked, rfl, htarget, -, hchecked⟩ := enforce_ok h
  have byId {id : String} (hpolicy : (policy msg).paneId || (policy msg).windowId)
      (hid : msg.id = some id) (hnone : msg.target = none)
      (hown : (if (policy msg).paneId then .pane id else .window id) = own) :
      ∃ session, Against ctx msg session ∧ ListedIn (target ++ (named ++ checked)) session own := by
    obtain ⟨session, hsession, hlisted⟩ := objectId_listed hpolicy hid hchecked
    rw [hown] at hlisted
    refine ⟨session, ?_, .append (.inr (.append (.inr hlisted)))⟩
    rw [Against, hnone]
    exact hsession
  cases msg with
  | paneSelect id | paneResize id _ _ | paneKill id | paneSwap id _ | paneCapture id
  | windowSelect id | windowKill id | windowRename id _ =>
    cases hobject
    exact byId rfl rfl rfl rfl
  | paneZoom id zoomed =>
    cases hfilter : id.filter (· ≠ "") with
    | none =>
      rw [object, hfilter] at hobject
      cases hobject
    | some id' =>
      obtain ⟨rfl, hne⟩ := Option.filter_eq_some_iff.1 hfilter
      exact absurd rfl (hzoom id' zoomed (by simpa using hne))
  | recordingStart recorded title =>
    cases recorded with
    | session name => cases hobject
    | pane name paneId =>
      cases hobject
      refine ⟨name, rfl, .append (.inl (recordingTarget_listed ?_ htarget))⟩
      cases hfull : isFullGrant ctx.grant with
      | true => exact absurd rfl (hrecording hfull name paneId title)
      | false => rfl
  | _ => cases hobject

/-- Every pane and window id of an accepted message that reaches tmux is in the listing the
gate made of the attached session, or of the session a recording target names. -/
theorem accepted_ids_listed (ctx : EnforceContext) (msg : ClientMessage)
    (log : List (Async.Exchange Failure Call.Output)) (haccepted : (enforce ctx msg).Reaches log (.done .ok))
    (hzoom : ∀ id zoomed, id ≠ "" → msg ≠ .paneZoom (some id) zoomed) (hrecording : isFullGrant ctx.grant = true →
      ∀ name paneId title, msg ≠ .recordingStart (.pane name paneId) title)
    (conn : String) (done : List (Async.Exchange Failure Call.Output)) (c : Call)
    (next : Except Failure c.Output → Io Unit) (hissued : (handle conn ctx.grant msg).Reaches done (.await c next))
    (target : Target) (id : String) (htarget : c.target = some target)
    (hid : target.objectId = some id) (htaken : (object msg).bind Target.objectId = some id) :
    ∃ session, Against ctx msg session ∧ ListedIn log session target := by
  have huses := hissued.call_of_calls (handle_uses conn ctx.grant msg)
  have hobject := huses target id htarget hid htaken
  exact enforce_listed hobject hzoom hrecording haccepted

end Listed

def sampleConnection : ConnectionState where
  id := "conn-1"
  grant := fullGrant
  pty := none
  attachedSession := some "work"
  lastSize := none
  cloneSession := none
  activeWindowId := none
  watchers := []
  queue := []
  draining := true
  closing := false
  removed := false

def sampleHost : Host where
  isPathAllowed _ := true
  watchFailure _ := none
  spawnFailure _ := none
  recordingId _ := "rec_aaaaaaaaaaaaaaaa"
  recordingFilename id session := session ++ "-" ++ id ++ ".cast"
  recordingPath filename := "/recordings/" ++ filename

def sampleRelay : RelayState :=
  { RelayState.start sampleHost with
    connections := OrderedMap.empty.set "conn-1" sampleConnection
    selectPaneSupportsZ := some true }

def samplePane (id : String) : PaneInfo := ⟨id, 0, "@1", true, false, ⟨80, 24⟩⟩

theorem accepted_ids_listed_selected : ∃ session, Against ⟨fullGrant, some "work", none⟩ (.paneSelect "%1") session ∧
      ListedIn [⟨.tmux (.on (.session "work") .listPanes), .ok [samplePane "%1"]⟩] session (.pane "%1") :=
  accepted_ids_listed ⟨fullGrant, some "work", none⟩ (.paneSelect "%1") _
    (.read sampleRelay (.await (.ok [samplePane "%1"]) (.here _))) (by simp) (by simp) "conn-1" []
    (.tmux (.on (.pane "%1") (.selectPane true))) _
    (.read sampleRelay (.read sampleRelay (.here _))) (.pane "%1") "%1" rfl rfl rfl

/-- A share of `$1`, which is called `work`. -/
def sampleGrant : GrantRecord := { fullGrant with id := "grn_work", scope := .sessions [⟨"$1", "work"⟩] }

/-- A pane of any session is zoomed for a share of one, and recorded for a full grant, without
a look at any listing. -/
theorem unlisted_panes_reached : ((enforce ⟨sampleGrant, some "work", none⟩ (.paneZoom (some "%7") none)).Reaches []
        (.done .ok) ∧ ∃ next, (handle "conn-1" sampleGrant (.paneZoom (some "%7") none)).Reaches []
        (.await (.tmux (.on (.pane "%7") .resizeZoom)) next)) ∧
    ((enforce ⟨fullGrant, some "work", none⟩ (.recordingStart (.pane "work" "%7") none)).Reaches [] (.done .ok) ∧
      ∃ done next, (handle "conn-1" fullGrant (.recordingStart (.pane "work" "%7") none)).Reaches
        done (.await (.tmux (.on (.pane "%7") .panePipe)) next)) ∧ ∀ session, ¬ ListedIn [] session (.pane "%7") := by
  refine ⟨⟨.read sampleRelay (.here _), _, .read sampleRelay (.here _)⟩,
    ⟨.read sampleRelay (.here _),
      [⟨.tmux (.on (.session "work") .hasSession), .ok ()⟩,
        ⟨.tmux (.on (.session "work") .listWindows), .ok []⟩,
        ⟨.recording (.createWriter "rec_aaaaaaaaaaaaaaaa"), .ok ()⟩], _,
      .read sampleRelay (.await _ (.read sampleRelay (.write (.await _ (.await _ (.write
        (.here _)))))))⟩, ?_⟩
  intro session h
  rcases h with ⟨panes, id, -, -, hlog⟩ | ⟨windows, id, -, -, hlog⟩
  · simp at hlog
  · simp at hlog

end Mtmux.Relay
