import Mtmux.Relay.Handlers

/-! Every connection looks through a clone of its own, and every recording through one of its own; nobody but the
sweep at the start, and whoever asks for it by name, destroys another's. -/
namespace Mtmux.Relay
open Protocol Async

def IsCloneOf (conn name : String) : Prop :=
  (∃ n, conn = connectionName n) ∧ ∃ grantId, name = cloneNameFor grantId conn

theorem isCloneSession_append (rest : String) : isCloneSession (clonePrefix ++ rest) = true := by
  unfold isCloneSession
  rw [String.startsWith_string_iff, String.toList_append]
  exact List.prefix_append _ _

theorem IsCloneOf.clone {conn name : String} (h : IsCloneOf conn name) : isCloneSession name = true := by
  obtain ⟨-, grantId, rfl⟩ := h
  unfold cloneNameFor
  rw [String.append_assoc, String.append_assoc]
  exact isCloneSession_append _

theorem recordingClone_clone (id : String) : isCloneSession (recordingCloneNameFor id) = true := by
  unfold recordingCloneNameFor
  rw [String.append_assoc]
  exact isCloneSession_append _

structure OwnClones (host : Host) (s : RelayState) : Prop where
  hosted : s.host = host
  named : ∀ id c, s.connections.get id = some c → c.id = id
  numbered : ∀ id c, s.connections.get id = some c → ∃ n, id = connectionName n
  clones : ∀ id c name, s.connections.get id = some c → c.cloneSession = some name → IsCloneOf id name
  recorders : ∀ r ∈ s.active, ∀ name bridge, r.capture = .session (some name) bridge →
    name = recordingCloneNameFor r.info.id
  drawn : ∀ r ∈ s.active, ∃ n, r.info.id = host.recordingId n

structure May (own : Option String) (s s' : RelayState) : Prop where
  now : s'.now = s.now
  others : ∀ id, some id ≠ own → s'.connections.get id = s.connections.get id
  grants : ∀ id, (s'.connections.get id).map ConnectionState.grant = (s.connections.get id).map ConnectionState.grant
  keeps : ∀ host, OwnClones host s → OwnClones host s'

def Held (grants : String → GrantRecord → Prop) (s : RelayState) : Prop :=
  ∀ id c, s.connections.get id = some c → grants id c.grant

theorem held_of_grants {s s' : RelayState} {grants : String → GrantRecord → Prop} (h : ∀ id,
    (s'.connections.get id).map ConnectionState.grant = (s.connections.get id).map ConnectionState.grant)
    (hheld : Held grants s) : Held grants s' := by
  intro id c hc
  have hsame := h id
  rw [hc] at hsame
  obtain ⟨c', hc', hgrant⟩ := Option.map_eq_some_iff.1 hsame.symm
  rw [← hgrant]
  exact hheld id c' hc'

theorem May.held {own : Option String} {s s' : RelayState} (h : May own s s') {grants : String → GrantRecord → Prop}
    (hheld : Held grants s) : Held grants s' := held_of_grants h.grants hheld

def Opens (own : Option String) : Job → Prop
  | .attach grant target _ readOnly =>
    (isCloneSession target = true → readOnly = true ∧
      ((∃ conn, own = some conn ∧ IsCloneOf conn target) ∨ ∃ id, target = recordingCloneNameFor id)) ∧
    (grant.readOnly = true → readOnly = true ∧ isCloneSession target = true)
  | .announcePanes _ => True

/-- Only whoever is attached is told anything by the tasks of others, unless it is an announcement. -/
def Tells (own : Option String) (announces : Bool) (s : RelayState) : Out → Prop
  | .send conn _ => own = some conn ∨ announces = true ∨
      ∃ c ∈ s.others none, c.id = conn ∧ c.attachedSession.isSome = true
  | .spawn job => Opens own job
  | _ => True

/-- The terms of a task, with the grants it counts on, and the calls and outputs it may make. -/
def relayTerms (host : Host) (own : Option String) (announces : Bool) (grants : String → GrantRecord → Prop)
    (calls : Call → Prop) (extra : Out → Prop) (replies : (c : Call) → Except Failure c.Output → Prop) :
    RelayTerms where
  inv s := OwnClones host s ∧ Held grants s
  may := May own
  tells s o := Tells own announces s o ∧ extra o
  calls := calls
  replies := replies
  keeps h hmay := ⟨hmay.keeps host h.1, hmay.held h.2⟩
  may_refl _ := ⟨rfl, fun _ _ => rfl, fun _ => rfl, fun _ => id⟩
  may_trans := by
    intro s s' s'' h h'
    refine ⟨h'.now.trans h.now, ?_, fun id => (h'.grants id).trans (h.grants id), ?_⟩
    · intro id hid
      rw [h'.others id hid, h.others id hid]
    · exact fun host hs => h'.keeps host (h.keeps host hs)

section May
variable {s : RelayState} {own : String}

theorem get_updateConnection (f : ConnectionState → ConnectionState) (s : RelayState) (conn id : String) :
    (s.updateConnection f conn).connections.get id =
      if id = conn then (s.connections.get id).map f else s.connections.get id := by
  unfold RelayState.updateConnection
  split
  · rename_i hnone
    split
    · rename_i hid
      rw [hid, hnone]
      rfl
    · rfl
  · rename_i c hsome
    dsimp only
    rw [OrderedMap.get_set]
    split
    · rename_i hid
      rw [hid, hsome]
      rfl
    · rfl

theorem updateConnection_rest (f : ConnectionState → ConnectionState) (s : RelayState) (conn : String) :
    (s.updateConnection f conn).active = s.active ∧ (s.updateConnection f conn).now = s.now ∧
      (s.updateConnection f conn).host = s.host := by
  unfold RelayState.updateConnection
  split
  · exact ⟨rfl, rfl, rfl⟩
  · exact ⟨rfl, rfl, rfl⟩

/-- A connection may change what it likes about itself, but not who it is, and its clone stays its own. -/
theorem may_update {f : ConnectionState → ConnectionState} (hid : ∀ c, (f c).id = c.id)
    (hgrant : ∀ c, (f c).grant = c.grant)
    (hclone : ∀ c, (f c).cloneSession = c.cloneSession ∨ ∀ name, (f c).cloneSession = some name → IsCloneOf own name)
    (s : RelayState) : May (some own) s (s.updateConnection f own) := by
  obtain ⟨hactive, hnow, hhost⟩ := updateConnection_rest f s own
  refine ⟨hnow, ?_, ?_, ?_⟩
  · intro id hid
    rw [get_updateConnection, if_neg]
    rintro rfl
    exact hid rfl
  · intro id
    rw [get_updateConnection]
    split
    · cases s.connections.get id with
      | none => rfl
      | some c => exact congrArg some (hgrant c)
    · rfl
  · intro host h
    refine ⟨hhost.trans h.hosted, ?_, ?_, ?_, by rw [hactive]; exact h.recorders, by rw [hactive]; exact h.drawn⟩
    · intro id c hc
      rw [get_updateConnection] at hc
      split at hc
      · obtain ⟨c₀, hc₀, rfl⟩ := Option.map_eq_some_iff.1 hc
        rw [hid]
        exact h.named id c₀ hc₀
      · exact h.named id c hc
    · intro id c hc
      rw [get_updateConnection] at hc
      split at hc
      · obtain ⟨c₀, hc₀, rfl⟩ := Option.map_eq_some_iff.1 hc
        exact h.numbered id c₀ hc₀
      · exact h.numbered id c hc
    · intro id c name hc hname
      rw [get_updateConnection] at hc
      split at hc
      · rename_i hown
        obtain ⟨c₀, hc₀, rfl⟩ := Option.map_eq_some_iff.1 hc
        cases hclone c₀ with
        | inl hsame =>
          rw [hsame] at hname
          exact h.clones id c₀ name hc₀ hname
        | inr hnew => exact hown ▸ hnew name hname
      · exact h.clones id c name hc hname

/-- A recording that there was, or a new one, looks through nothing but its own clone. -/
theorem may_active {own : Option String} {s s' : RelayState} (hconnections : s'.connections = s.connections)
    (hnow : s'.now = s.now) (hhost : s'.host = s.host)
    (hid : ∀ r' ∈ s'.active, (∃ r ∈ s.active, r'.info.id = r.info.id) ∨ ∃ n, r'.info.id = s.host.recordingId n)
    (hactive : ∀ r' ∈ s'.active, (∃ r ∈ s.active, r'.info.id = r.info.id ∧
      r'.capture = r.capture) ∨ ∀ name bridge, r'.capture = .session (some name) bridge →
        name = recordingCloneNameFor r'.info.id) : May own s s' := by
  refine ⟨hnow, fun id _ => by rw [hconnections], fun id => by rw [hconnections], ?_⟩
  intro host h
  refine ⟨hhost.trans h.hosted, ?_, ?_, ?_, ?_, ?_⟩
  · rw [hconnections]
    exact h.named
  · rw [hconnections]
    exact h.numbered
  · rw [hconnections]
    exact h.clones
  · intro r' hr' name bridge hcapture
    cases hactive r' hr' with
    | inl hold =>
      obtain ⟨r, hr, hsameId, hsame⟩ := hold
      rw [hsameId]
      exact h.recorders r hr name bridge (hsame ▸ hcapture)
    | inr hnew => exact hnew name bridge hcapture
  · intro r' hr'
    cases hid r' hr' with
    | inl hold =>
      obtain ⟨r, hr, hsameId⟩ := hold
      rw [hsameId]
      exact h.drawn r hr
    | inr hnew =>
      rw [h.hosted] at hnew
      exact hnew

theorem may_aside {own : Option String} {s s' : RelayState} (hconnections : s'.connections = s.connections)
    (hactive : s'.active = s.active) (hnow : s'.now = s.now) (hhost : s'.host = s.host) : May own s s' := by
  refine may_active hconnections hnow hhost ?_ ?_
  · exact fun r hr => .inl ⟨r, hactive ▸ hr, rfl⟩
  · exact fun r hr => .inl ⟨r, hactive ▸ hr, rfl, rfl⟩

theorem updateBridge_rest (f : Bridge → Bridge) (bridge : Nat) (s : RelayState) :
    (s.updateBridge f bridge).connections = s.connections ∧ (s.updateBridge f bridge).active = s.active ∧
      (s.updateBridge f bridge).now = s.now ∧ (s.updateBridge f bridge).host = s.host := by
  unfold RelayState.updateBridge
  split
  · exact ⟨rfl, rfl, rfl, rfl⟩
  · exact ⟨rfl, rfl, rfl, rfl⟩

end May

section Terms
variable {host : Host} {own : String} {announces : Bool} {grants : String → GrantRecord → Prop} {calls : Call → Prop}
  {extra : Out → Prop} {replies : (c : Call) → Except Failure c.Output → Prop}

/-- What the handlers of a connection may do to clones. -/
structure Clones (own : String) (grant : GrantRecord) (calls : Call → Prop) (extra : Out → Prop) : Prop where
  reads : ∀ c, reading c = true → calls c
  groups : ∀ target name, isCloneSession target = false → IsCloneOf own name → calls (.tmux (.groupSession target name))
  locks : ∀ name option value, IsCloneOf own name → calls (.tmux (.on (.session name) (.setOption option value)))
  kills : ∀ name, IsCloneOf own name → calls (.tmux (.killSession name))
  sends : ∀ m, extra (.send own m)
  ends : ∀ bridge, extra (.kill bridge)
  resizes : ∀ bridge size, extra (.resize bridge size)
  opens : ∀ target size, (grant.readOnly = true → IsCloneOf own target) →
    extra (.spawn (.attach grant target size grant.readOnly))

theorem permits {grant : GrantRecord} (h : Clones own grant calls extra) :
    Permits (relayTerms host (some own) announces grants calls extra replies) own where
  reads := h.reads
  sends _ m _ := ⟨.inl rfl, h.sends m⟩
  updates _ hf s _ := may_update (fun c => (hf c).1) (fun c => (hf c).2.1) (fun c => .inl (hf c).2.2.2.2.1) s
  probes _ _ _ := may_aside rfl rfl rfl rfl
  approvals _ _ _ := may_aside rfl rfl rfl rfl

end Terms

/-! ### Clones -/

section Clones
variable {host : Host} {own : String} {announces : Bool} {grants : String → GrantRecord → Prop} {calls : Call → Prop}
  {extra : Out → Prop} {replies : (c : Call) → Except Failure c.Output → Prop}

variable {T : RelayTerms} {name : String}

theorem destroyClone_kept
    (h : isCloneSession name = true → T.calls (.tmux (.killSession name))) : (destroyClone name).Kept T := by
  unfold destroyClone
  split
  · rename_i hclone
    exact (tmux_kept (h hclone)).catching fun _ => kept_pure _
  · exact kept_pure _

theorem look_then {α β : Type} {f : ConnectionState → Option α} {g : Option α → Io β}
    (h : ∀ s, T.inv s → (g ((s.connection own).bind f)).Within T (fun _ _ => True) s) :
    (Io.look own f >>= g).Kept T := h

theorem killBridge_kept {own : Option String} (hextra : ∀ bridge, extra (.kill bridge)) (bridge : Nat) :
    (Io.killBridge bridge).Kept (relayTerms host own announces grants calls extra replies) := by
  refine (kept_modify fun s _ => ?_).bind fun _ => kept_say fun s _ => ⟨trivial, hextra bridge⟩
  obtain ⟨hconnections, hactive, hnow, hhost⟩ := updateBridge_rest (fun b => { b with detaching := true }) bridge s
  exact may_aside hconnections hactive hnow hhost

theorem change_kept {f : ConnectionState → ConnectionState} (hid : ∀ c, (f c).id = c.id)
    (hgrant : ∀ c, (f c).grant = c.grant)
    (hclone : ∀ c, (f c).cloneSession = c.cloneSession ∨ (f c).cloneSession = none) :
    (Io.update own f).Kept (relayTerms host (some own) announces grants calls extra replies) := by
  refine kept_modify fun s _ => may_update hid hgrant (fun c => ?_) s
  cases hclone c with
  | inl hsame => exact .inl hsame
  | inr hnone =>
    refine .inr fun name hname => ?_
    rw [hnone] at hname
    cases hname

theorem ownClone {s : RelayState} (h : OwnClones host s)
    (hname : (s.connection own).bind ConnectionState.cloneSession = some name) : IsCloneOf own name := by
  unfold RelayState.connection at hname
  cases hget : s.connections.get own with
  | none =>
    rw [hget] at hname
    cases hname
  | some c =>
    rw [hget] at hname
    exact h.clones own c name hget hname

theorem leaveClone_kept {rest : Io Unit} (hkill : ∀ name, IsCloneOf own name → calls (.tmux (.killSession name)))
    (hrest : rest.Kept (relayTerms host (some own) announces grants calls extra replies)) :
    (do
      match ← Io.look own ConnectionState.cloneSession with
      | none => rest
      | some name =>
        destroyClone name
        Io.update own fun c => { c with cloneSession := none }
        rest : Io Unit).Kept (relayTerms host (some own) announces grants calls extra replies) := by
  refine look_then fun s hs => ?_
  cases hclone : (s.connection own).bind ConnectionState.cloneSession with
  | none => exact hrest s hs
  | some name =>
    have hdestroy : (destroyClone name).Kept (relayTerms host (some own) announces grants calls extra replies) :=
      destroyClone_kept fun _ => hkill name (ownClone hs.1 hclone)
    have hforget : (Io.update own fun c => { c with cloneSession := none }).Kept
        (relayTerms host (some own) announces grants calls extra replies) :=
      change_kept (fun _ => rfl) (fun _ => rfl) fun _ => .inr rfl
    exact hdestroy.bind (fun _ => hforget.bind fun _ => hrest) s hs

theorem dropSession_kept (hextra : ∀ bridge, extra (.kill bridge))
    (hkill : ∀ name, IsCloneOf own name → calls (.tmux (.killSession name))) :
    (Router.dropSession own).Kept (relayTerms host (some own) announces grants calls extra replies) := by
  unfold Router.dropSession
  refine (look_kept own _).bind fun bridge => ?_
  have hleave : (Io.update own fun c => { c with attachedSession := none, lastSize := none }).Kept
      (relayTerms host (some own) announces grants calls extra replies) :=
    change_kept (fun _ => rfl) (fun _ => rfl) fun _ => .inl rfl
  have hpty : (Io.update own fun c => { c with pty := none }).Kept
      (relayTerms host (some own) announces grants calls extra replies) :=
    change_kept (fun _ => rfl) (fun _ => rfl) fun _ => .inl rfl
  have hrest := hleave.bind fun _ => leaveClone_kept hkill (kept_pure ())
  cases bridge with
  | none => exact hrest
  | some bridge => exact (killBridge_kept hextra bridge).bind fun _ => hpty.bind fun _ => hrest

theorem setOptions_kept (h : ∀ option value, T.calls (.tmux (.on (.session name) (.setOption option value))))
    (options : List (String × String)) : (setOptions name options).Kept T := by
  induction options with
  | nil => exact kept_pure _
  | cons option options ih => exact (tmux_kept (h _ _)).bind fun _ => ih

theorem createClone_within {target : String} (options : List (String × String))
    (hgroup : T.calls (.tmux (.groupSession target name)))
    (hlock : ∀ option value, T.calls (.tmux (.on (.session name) (.setOption option value))))
    (hkill : T.calls (.tmux (.killSession name))) :
    ∀ s, T.inv s → (createClone target name options).Within T (fun _ made => made = name) s := by
  intro s hs
  have hmake : (Io.tmux (.groupSession target name)).Kept T := tmux_kept hgroup
  have hoptions : (Async.catching (setOptions name options) fun e => do
      destroyClone name
      Async.throw e : Io Unit).Kept T :=
    (setOptions_kept hlock options).catching fun e => (destroyClone_kept fun _ => hkill).bind fun _ => kept_throw e
  refine (hmake s hs).then hs fun s' _ hs' _ => ?_
  exact (hoptions s' hs').then hs' fun _ _ _ _ => rfl

variable {grant : GrantRecord}

theorem spawnPty_kept (h : Clones own grant calls extra) (name target : String)
    (size : Option TerminalSize) (attachId captured : Option String)
    (htarget : isCloneSession target = false ∧ grant.readOnly = false ∨ IsCloneOf own target ∧ grant.readOnly = true) :
    (Router.spawnPty own grant name target size attachId captured).Kept
      (relayTerms host (some own) announces grants calls extra replies) := by
  have hP : Permits (relayTerms host (some own) announces grants calls extra replies) own := permits h
  unfold Router.spawnPty
  refine kept_get.bind fun s => ?_
  have hcount : (Async.modify fun s : RelayState => { s with nextBridge := s.nextBridge + 1 }).Kept
      (relayTerms host (some own) announces grants calls extra replies) := kept_modify fun s _ => may_aside rfl rfl rfl rfl
  split
  · rename_i message _
    exact hcount.bind fun _ => leaveClone_kept h.kills (sendError_kept hP "PTY_SPAWN_FAILED" message)
  · have hbridge : (Async.modify fun s : RelayState =>
        { s with
          bridges := s.bridges.set s.nextBridge ⟨.browser own name attachId captured, false, false, false⟩
          nextBridge := s.nextBridge + 1 }).Kept (relayTerms host (some own) announces grants calls extra replies) :=
      kept_modify fun s _ => may_aside rfl rfl rfl rfl
    have hattach : (Io.update own fun c =>
        { c with pty := some s.nextBridge, attachedSession := some name, lastSize := size }).Kept
        (relayTerms host (some own) announces grants calls extra replies) :=
      change_kept (fun _ => rfl) (fun _ => rfl) fun _ => .inl rfl
    refine hbridge.bind fun _ => hattach.bind fun _ => kept_say fun s' _ => ⟨⟨?_, ?_⟩, ?_⟩
    · intro hclone
      cases htarget with
      | inl hsession =>
        rw [hsession.1] at hclone
        cases hclone
      | inr hown => exact ⟨hown.2, .inl ⟨own, rfl, hown.1⟩⟩
    · intro hreadOnly
      cases htarget with
      | inl hsession =>
        rw [hsession.2] at hreadOnly
        cases hreadOnly
      | inr hown => exact ⟨hown.2, hown.1.clone⟩
    · refine h.opens target size fun hreadOnly => ?_
      cases htarget with
      | inl hsession =>
        rw [hsession.2] at hreadOnly
        cases hreadOnly
      | inr hown => exact hown.1

theorem view_kept (h : Clones own grant calls extra) (hown : ∃ n, own = connectionName n)
    (hreadOnly : grant.readOnly = true) (name : String) (hname : isCloneSession name = false)
    (size : Option TerminalSize) (attachId captured : Option String) :
    (do
      match ← Router.maybe (createReadOnlyClone name grant.id own) with
      | none => Io.sendError own "ATTACH_FAILED" "Could not open a read-only view."
      | some clone =>
        Io.update own fun c => { c with cloneSession := some clone }
        Router.spawnPty own grant name clone size attachId captured : Io Unit).Kept
      (relayTerms host (some own) announces grants calls extra replies) := by
  intro s hs
  have hP : Permits (relayTerms host (some own) announces grants calls extra replies) own := permits h
  have hmine : IsCloneOf own (cloneNameFor grant.id own) := ⟨hown, grant.id, rfl⟩
  have hmade : (createReadOnlyClone name grant.id own).Within
      (relayTerms host (some own) announces grants calls extra replies) (fun _ made => IsCloneOf own made) s := by
    refine (createClone_within lockedOptions (h.groups name _ hname hmine) ?_ (h.kills _ hmine) s hs).mono hs ?_
    · intro option value
      exact h.locks _ option value hmine
    · intro s' made _ hname
      exact hname ▸ hmine
  have hmaybe : (Router.maybe (createReadOnlyClone name grant.id own)).Within
      (relayTerms host (some own) announces grants calls extra replies)
      (fun _ made => ∀ clone, made = some clone → IsCloneOf own clone) s := by
    refine (hmade.then hs fun s' made _ hname => ?_).catching hs fun s' _ e => ?_
    · intro clone hclone
      cases hclone
      exact hname
    · intro clone hclone
      cases hclone
  refine hmaybe.then hs fun s' made hs' hname => ?_
  cases made with
  | none => exact sendError_kept hP _ _ s' hs'
  | some clone =>
    have hclone : IsCloneOf own clone := hname clone rfl
    have hset : (Io.update own fun c => { c with cloneSession := some clone }).Kept
        (relayTerms host (some own) announces grants calls extra replies) := by
      have hmay : ∀ s, May (some own) s (s.updateConnection (fun c => { c with cloneSession := some clone }) own) := by
        intro s
        refine may_update (f := fun c => { c with cloneSession := some clone }) (fun _ => rfl) (fun _ => rfl)
          (fun c => .inr fun name hsome => ?_) s
        cases hsome
        exact hclone
      exact kept_modify fun s _ => hmay s
    exact hset.bind (fun _ => spawnPty_kept h name clone size attachId captured (.inr ⟨hclone, hreadOnly⟩)) s' hs'

theorem attach_kept (h : Clones own grant calls extra) (hown : ∃ n, own = connectionName n)
    (name : String) (size : Option TerminalSize) (capture : Option Bool) (attachId : Option String) :
    (Router.attach own grant name size capture attachId).Kept
      (relayTerms host (some own) announces grants calls extra replies) := by
  have hP : Permits (relayTerms host (some own) announces grants calls extra replies) own := permits h
  unfold Router.attach
  refine (dropSession_kept h.ends h.kills).bind fun _ => ?_
  dsimp only
  split
  · exact sendError_kept hP _ _
  · rename_i hclone
    have hnot : isCloneSession name = false := by simpa using hclone
    refine (sessionExists_kept h.reads name).bind fun found => ?_
    have hopen : ∀ captured, (if grant.readOnly = true then do
          match ← Router.maybe (createReadOnlyClone name grant.id own) with
          | none => Io.sendError own "ATTACH_FAILED" "Could not open a read-only view."
          | some clone =>
            Io.update own fun c => { c with cloneSession := some clone }
            Router.spawnPty own grant name clone size attachId captured
        else Router.spawnPty own grant name name size attachId captured : Io Unit).Kept
        (relayTerms host (some own) announces grants calls extra replies) := by
      intro captured
      split
      · rename_i hreadOnly
        exact view_kept h hown hreadOnly name hnot size attachId captured
      · rename_i hreadOnly
        exact spawnPty_kept h name name size attachId captured (.inl ⟨hnot, by simpa using hreadOnly⟩)
    split
    · split
      · exact (maybe_kept (tmux_kept (h.reads _ rfl))).bind hopen
      · exact hopen none
    · exact sendError_kept hP _ _

end Clones

end Mtmux.Relay
