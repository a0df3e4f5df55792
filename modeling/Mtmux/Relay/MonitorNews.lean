import Mtmux.Base.RelyGuarantee
import Mtmux.Relay.SessionMonitor

/-! Whom the monitor tells something: only a connection to which its last listing is news. -/
namespace Mtmux.Relay
open Protocol Async List SessionMonitor

/-- What the monitor is told is news to the connection: a session that it knew of is gone, or one is there that it
did not know of; or the windows of the session that the connection is attached to are not what they were. -/
def News (s : RelayState) (c : ConnectionState) : Exchange Failure Call.Output → Prop
  | ⟨.tmux .listSessions, reply⟩ => ∃ sessions, listSessions.Reaches [⟨.tmux .listSessions, reply⟩] (.done sessions) ∧
      ((∃ name ∈ s.knownSessions, name ∉ sessions.map SessionInfo.name ∧ isCloneSession name = false ∧
          (exitSeenBy name c).isSome = true) ∨
        ∃ session ∈ sessions, session.name ∉ s.knownSessions ∧ isCloneSession session.name = false ∧
          (createdSeenBy session c).isSome = true)
  | ⟨.tmux (.on (.session name) .listWindows), .ok windows⟩ => isCloneSession name = false ∧
      c.attachedSession = some name ∧ ∃ previous, s.windowSignatures.get name = some previous ∧
        previous ≠ windowSignature windows
  | _ => False

/-- What the monitor tells is told to a connection that it is news to. -/
def ToldNews (call : Call) (reply : Except Failure call.Output) (s : RelayState) (o : Out) : Prop :=
  ∀ conn m, o = .send conn m → ∃ c ∈ s.others none, c.id = conn ∧ News s c ⟨call, reply⟩

variable {Q : (Out → Prop) → RelayState → Unit → Prop} {P : Out → Prop} {s : RelayState}

theorem says_sendAll {messages : List (String × ServerMessage)} (h : ∀ m ∈ messages, P (.send m.1 m.2)) (hq : Q P s ()) :
    (Io.sendAll messages).Says ToldNews Q P s := by
  induction messages with
  | nil => exact hq
  | cons m rest ih =>
    obtain ⟨hfirst, hrest⟩ := forall_mem_cons.1 h
    exact ⟨hfirst, ih hrest⟩

theorem says_broadcast {build : ConnectionState → Option ServerMessage} {exclude : Option String}
    (h : ∀ c ∈ s.others exclude, ∀ m, build c = some m → P (.send c.id m)) (hq : Q P s ()) :
    (Io.broadcastWhere build exclude).Says ToldNews Q P s := by
  refine says_sendAll ?_ hq
  intro m hm
  obtain ⟨c, hc, hbuilt⟩ := mem_filterMap.1 hm
  obtain ⟨message, hmessage, rfl⟩ := Option.map_eq_some_iff.1 hbuilt
  exact h c hc message hmessage

theorem says_pollWindow (name : String) (hq : ∀ P s, Q P s ()) : (pollWindow name).Says ToldNews Q P s := by
  refine Says.catching (says_bind.2 fun s reply => ?_) fun P s e => hq P _
  cases reply with
  | error e => trivial
  | ok windows =>
    change (if s.windowSignatures.get name = none ∨ s.windowSignatures.get name = some (windowSignature windows) then
      return else onWindowsChanged name windows : Io Unit).Says ToldNews Q _
        { s with windowSignatures := s.windowSignatures.set name (windowSignature windows) }
    split
    · exact hq _ _
    · rename_i hother
      obtain ⟨hseen, hother⟩ := not_or.1 hother
      obtain ⟨previous, hprevious⟩ := Option.ne_none_iff_exists'.1 hseen
      unfold onWindowsChanged
      split
      · exact hq _ _
      · rename_i hclone
        refine says_bind.2 (says_broadcast ?_ ⟨fun conn m ho => (by cases ho), hq _ _⟩)
        intro c hc m hm conn m' ho
        cases ho
        unfold attachedTo at hm
        split at hm
        · rename_i hattached
          refine ⟨c, hc, rfl, by simpa using hclone, hattached, previous, hprevious, ?_⟩
          intro hsame
          exact hother (hsame ▸ hprevious)
        · cases hm

theorem says_pollEach (names : List String) : ∀ P s, (pollEach names).Says ToldNews (fun _ _ _ => True) P s := by
  induction names with
  | nil => exact fun _ _ => trivial
  | cons name rest ih => exact fun _ _ => says_bind.2 (says_pollWindow name ih)

theorem says_exited (names : List String)
    (hgone : ∀ name ∈ names, isCloneSession name = false → ∀ c ∈ s.others none, ∀ m, exitSeenBy name c = some m →
      P (.send c.id m))
    (hq : ∀ t, t.connections = s.connections → (∀ name ∈ s.knownSessions, name ∉ names → name ∈ t.knownSessions) →
      Q P t ()) : (exited names).Says ToldNews Q P s := by
  induction names generalizing s with
  | nil => exact hq s rfl fun _ h _ => h
  | cons name rest ih =>
    have hrest : (exited rest).Says ToldNews Q P { s with knownSessions := s.knownSessions.filter (· ≠ name) } := by
      refine ih (fun other hother => hgone other (mem_cons_of_mem _ hother)) fun t hsame hkept => hq t hsame ?_
      intro other hother hnot
      obtain ⟨hne, hrest⟩ := not_or.1 (mt mem_cons.2 hnot)
      exact hkept other (mem_filter.2 ⟨hother, by simpa using hne⟩) hrest
    refine says_bind.2 ?_
    unfold onSessionExit
    split
    · exact hrest
    · rename_i hclone
      exact says_broadcast (fun c hc m hm => hgone name mem_cons_self (by simpa using hclone) c hc m hm) hrest

theorem says_created (sessions : List SessionInfo)
    (hnew : ∀ session ∈ sessions, session.name ∉ s.knownSessions → isCloneSession session.name = false →
      ∀ c ∈ s.others none, ∀ m, createdSeenBy session c = some m → P (.send c.id m))
    (hq : ∀ t, Q P t ()) : (created sessions).Says ToldNews Q P s := by
  induction sessions generalizing s with
  | nil => exact hq s
  | cons session rest ih =>
    change (if s.knownSessions.contains session.name then created rest else _ : Io Unit).Says ToldNews Q P s
    split
    · exact ih fun other hother => hnew other (mem_cons_of_mem _ hother)
    · rename_i hunknown
      have hrest : (created rest).Says ToldNews Q P
          { s with knownSessions := s.knownSessions ++ [session.name] } := by
        refine ih fun other hother hnot => hnew other (mem_cons_of_mem _ hother) fun hknown => hnot ?_
        exact mem_append_left _ hknown
      change (onSessionCreated session >>= fun _ => created rest).Says ToldNews Q P
        { s with knownSessions := s.knownSessions ++ [session.name] }
      refine says_bind.2 ?_
      unfold onSessionCreated
      split
      · exact hrest
      · rename_i hclone
        exact says_broadcast (fun c hc m hm => hnew session mem_cons_self (by simpa using hunknown)
          (by simpa using hclone) c hc m hm) hrest

theorem says_pollSessions (hq : ∀ P t, Q P t ()) : pollSessions.Says ToldNews Q P s := by
  have hheard (reply : Except Failure (List SessionInfo)) (sessions : List SessionInfo) (s : RelayState)
      (hreply : listSessions.Reaches [⟨.tmux .listSessions, reply⟩] (.done sessions)) :
      (exited (s.knownSessions.filter fun name => !(sessions.map SessionInfo.name).contains name) >>= fun _ =>
        created sessions).Says ToldNews Q (ToldNews (.tmux .listSessions) reply s) s := by
    refine says_bind.2 (says_exited _ ?_ fun t hsame hkept => says_created _ ?_ fun t => hq _ t)
    · intro name hname hclone c hc m hm conn m' ho
      cases ho
      obtain ⟨hknown, hgone⟩ := mem_filter.1 hname
      exact ⟨c, hc, rfl, sessions, hreply, .inl ⟨name, hknown, by simpa using hgone, hclone, by simp [hm]⟩⟩
    · intro session hsession hunknown hclone c hc m hm conn m' ho
      cases ho
      have hother : t.others none = s.others none := by rw [RelayState.others, hsame, RelayState.others]
      refine ⟨c, hother ▸ hc, rfl, sessions, hreply, .inr ⟨session, hsession, fun hknown => hunknown ?_, hclone, by simp [hm]⟩⟩
      refine hkept session.name hknown fun hfiltered => ?_
      have hlisted := (mem_filter.1 hfiltered).2
      simp only [Bool.not_eq_true', contains_eq_mem, decide_eq_false_iff_not] at hlisted
      exact hlisted (mem_map_of_mem hsession)
  refine says_bind.2 fun s reply => ?_
  cases reply with
  | ok sessions => exact hheard _ sessions s (.await _ (.here _))
  | error e =>
    change (if includes e.message "no server running" || includes e.message "no sessions" then return []
      else Async.throw e : Io (List SessionInfo)).Says ToldNews _ _ s
    split
    · rename_i hnone
      refine hheard _ [] s (.await _ ?_)
      change (if includes e.message "no server running" || includes e.message "no sessions" then return []
        else Async.throw e : Io (List SessionInfo)).Reaches [] (.done [])
      rw [if_pos hnone]
      exact .here _
    · trivial

theorem poll_tells (s : RelayState) : poll.Says ToldNews (fun _ _ _ => True) (fun _ => False) s := by
  have hwindows : ∀ P s, (Async.catching pollWindows fun _ => return).Says ToldNews (fun _ _ _ => True) P s :=
    fun P s => Says.catching (says_pollEach _ P _) fun _ _ _ => trivial
  exact says_bind.2 (Says.catching (says_pollSessions hwindows) fun P s _ => hwindows P s)

end Mtmux.Relay
