import Mtmux.Relay.MonitorNews
import Mtmux.Relay.ReadOnlyViews

/-! What is sent to a connection whose grant has run out, or whose token has been taken back. -/
namespace Mtmux.Relay
open Protocol Async Machine List SessionMonitor

def Expired (s : System) (conn : String) : Prop :=
  ∃ c, s.relay.connection conn = some c ∧ isGrantActive c.grant s.relay.now = false

def TakenBack (s : System) (conn : String) : Prop := ∃ token, (conn, token) ∈ s.credentials ∧ token ∈ s.revoked

/-- Whatever the step sends to such a connection is an error. -/
def EndsShares (x : Machine.Entry System SystemEvent SystemOutput) : Prop :=
  ∀ conn message, .sent conn message ∈ x.out → Expired x.post conn ∨ TakenBack x.post conn →
    ∃ code text, message = .message (.error code text)

/-- The task has something to tell the connection when it goes on after these answers. -/
def TaskPushes (r : RelayState) (conn : String) (c : ConnectionState) (log : List (Exchange Failure Call.Output)) :
    Task → Prop
  | .message other msg => other = conn ∨ announcesSessions msg = true ∨
      announcesLayout msg = true ∧ c.attachedSession.isSome = true
  | .poll => ∃ x ∈ log.getLast?, News r c x
  | .job (.announcePanes _) => c.attachedSession.isSome = true
  | _ => False

def Pushes (s : System) (conn : String) (c : ConnectionState) : SystemEvent → Prop
  | .next other => other ≠ conn ∧ ∃ o msg rest, s.relay.connection other = some o ∧ o.queue = msg :: rest ∧
      TaskPushes s.relay conn c [] (.message other msg)
  | .resume id => ∃ task log rest, s.world.tasks.get id = some ⟨task, log, .answered rest⟩ ∧
      TaskPushes s.relay conn c log task
  | .begin n => ∃ job, s.jobs[n]? = some job ∧ TaskPushes s.relay conn c [] (.job job)
  | .errand errand => TaskPushes s.relay conn c [] errand.task
  | .ptyReady bridge => ∃ b name attachId captured, s.relay.bridges.get bridge = some b ∧
      b.owner = .browser conn name attachId captured ∧ b.exited = false ∧ b.detaching = false ∧ b.ready = false
  | .ptyData bridge _ => ∃ b name attachId captured, s.relay.bridges.get bridge = some b ∧
      b.owner = .browser conn name attachId captured ∧ b.exited = false ∧ (b.ready = false ∨ c.pty = some bridge)
  | .ptyExit bridge _ => ∃ b name attachId captured, s.relay.bridges.get bridge = some b ∧
      b.owner = .browser conn name attachId captured ∧ b.exited = false ∧ b.detaching = false ∧ b.ready = true
  | .fileChanged other path _ => other = conn ∧ path ∈ c.watchers
  | .paired _ => c.removed = false
  | _ => False

/-- Nobody is let in with a grant that has run out or a token that has been taken back, and nothing is pushed to an
open connection once its grant has run out. -/
structure PushesToActive (x : Machine.Entry System SystemEvent SystemOutput) : Prop where
  admits : ∀ grant token, x.event = .connect grant token → isGrantActive grant x.pre.relay.now = true ∧
    ∀ t, token = some t → t ∉ x.pre.revoked
  pushes : ∀ conn c, x.pre.relay.connection conn = some c → isGrantActive c.grant x.pre.relay.now = false →
    conn ∉ x.pre.shut → ¬ Pushes x.pre conn c x.event

theorem mem_others_get {host : Host} {s : RelayState} {exclude : Option String} {c : ConnectionState}
    (hs : OwnClones host s) (h : c ∈ s.others exclude) : s.connection c.id = some c ∧ c.removed = false := by
  unfold RelayState.others at h
  rw [mem_filter] at h
  obtain ⟨hvalue, hkept⟩ := h
  obtain ⟨⟨id, c'⟩, hentry, hsnd⟩ := mem_map.1 hvalue
  subst hsnd
  have hget := (s.connections.get_eq_some id c').2 hentry
  have hid := hs.named id c' hget
  simp only [Bool.and_eq_true, Bool.not_eq_true'] at hkept
  exact ⟨by rw [hid]; exact hget, hkept.1⟩

/-! ### Ptys -/

namespace RelayState
variable {s : RelayState} {bridge : Nat} {conn : String} {m : ServerMessage}

theorem mem_fireReady {b : Bridge} (h : (conn, m) ∈ (s.fireReady bridge b).2) :
    b.ready = false ∧ ∃ name attachId captured, b.owner = .browser conn name attachId captured := by
  unfold fireReady at h
  split at h
  · cases h
  · rename_i hready
    refine ⟨by simpa using hready, ?_⟩
    dsimp only at h
    split at h
    · cases h
    · rename_i conn' name attachId captured howner
      obtain ⟨m', -, hpair⟩ := mem_map.1 h
      cases hpair
      exact ⟨name, attachId, captured, howner⟩

theorem mem_ptyReady (h : (conn, m) ∈ (s.ptyReady bridge).2) : ∃ b name attachId captured,
    s.bridges.get bridge = some b ∧ b.owner = .browser conn name attachId captured ∧ b.exited = false ∧
      b.detaching = false ∧ b.ready = false := by
  unfold ptyReady withBridge at h
  split at h
  · cases h
  · rename_i b hget
    beta_reduce at h
    split at h
    · cases h
    · rename_i hlive
      obtain ⟨hready, name, attachId, captured, howner⟩ := mem_fireReady h
      simp only [Bool.or_eq_true, not_or, Bool.not_eq_true] at hlive
      exact ⟨b, name, attachId, captured, hget, howner, hlive.1, hlive.2, hready⟩

theorem fireReady_connections (b : Bridge) : (s.fireReady bridge b).1.connections = s.connections := by
  unfold fireReady
  split
  · rfl
  · exact (updateBridge_rest _ bridge s).1

theorem mem_ptyData {data : String} (h : (conn, m) ∈ (s.ptyData bridge data).2) : ∃ b name attachId captured,
    s.bridges.get bridge = some b ∧ b.owner = .browser conn name attachId captured ∧ b.exited = false ∧
      (b.ready = false ∨ (s.connection conn).bind ConnectionState.pty = some bridge) := by
  unfold ptyData withBridge at h
  split at h
  · cases h
  · rename_i b hget
    beta_reduce at h
    split at h
    · cases h
    · rename_i hlive
      have hexited : b.exited = false := by simpa using hlive
      dsimp only at h
      cases mem_append.1 h with
      | inl hfirst =>
        obtain ⟨hready, name, attachId, captured, howner⟩ := mem_fireReady hfirst
        exact ⟨b, name, attachId, captured, hget, howner, hexited, .inl hready⟩
      | inr hshown =>
        split at hshown
        · cases hshown
        · rename_i conn' name attachId captured howner
          split at hshown
          · rename_i hpty
            cases mem_singleton.1 hshown
            refine ⟨b, name, attachId, captured, hget, howner, hexited, .inr ?_⟩
            unfold connection at hpty ⊢
            rw [fireReady_connections] at hpty
            exact hpty
          · cases hshown

theorem mem_ptyExit {exitCode : Int} (h : (conn, m) ∈ (s.ptyExit bridge exitCode).2) :
    (∃ code text, m = .error code text) ∨ ∃ b name attachId captured, s.bridges.get bridge = some b ∧
      b.owner = .browser conn name attachId captured ∧ b.exited = false ∧ b.detaching = false ∧ b.ready = true := by
  unfold ptyExit withBridge at h
  split at h
  · cases h
  · rename_i b hget
    beta_reduce at h
    split at h
    · cases h
    · rename_i hlive
      dsimp only at h
      split at h
      · cases h
      · rename_i hdetaching
        split at h
        · cases h
        · rename_i conn' name attachId captured howner
          cases mem_singleton.1 h
          split
          · rename_i hready
            exact .inr ⟨b, name, attachId, captured, hget, howner, by simpa using hlive, by simpa using hdetaching, hready⟩
          · exact .inl ⟨_, _, rfl⟩

end RelayState

namespace System
variable {host : Host} {s t : System} {conn : String} {message : Pushed}

/-! ### Sockets -/

theorem mem_tellAll {messages : List (String × ServerMessage)} (h : .sent conn message ∈ s.tellAll messages) :
    ∃ m, (conn, m) ∈ messages ∧ message = .message m := by
  obtain ⟨m, hm, htold⟩ := mem_flatMap.1 h
  obtain ⟨hconn, hmessage, -⟩ := mem_tell htold
  exact ⟨m.2, hconn ▸ hm, hmessage⟩

theorem mem_broadcast {build : ConnectionState → Option Pushed} (hs : OwnClones host s.relay)
    (h : .sent conn message ∈ s.broadcast build) :
    ∃ c, s.relay.connection conn = some c ∧ c.removed = false ∧ build c = some message := by
  obtain ⟨c, hc, htold⟩ := mem_flatMap.1 h
  cases hbuild : build c with
  | none =>
    rw [hbuild] at htold
    cases htold
  | some m =>
    rw [hbuild] at htold
    obtain ⟨hconn, hmessage, -⟩ := mem_tell htold
    obtain ⟨hget, hstays⟩ := mem_others_get hs hc
    exact ⟨c, hconn ▸ hget, hstays, by rw [hmessage, hbuild]⟩

/-! ### Tasks -/

variable {e : Happening Task Answer Empty}

theorem mem_run (h : .sent conn message ∈ (t.run e).2) :
    ∃ m, .send conn m ∈ (relayHost.step t.world e).2.map Prod.snd ∧ message = .message m := by
  obtain ⟨o, ho, hvisible⟩ := mem_flatMap.1 h
  cases o with
  | send conn' m =>
    obtain ⟨hconn, hmessage, -⟩ := mem_tell hvisible
    subst hconn
    exact ⟨m, ho, hmessage⟩
  | spawn job => cases hvisible
  | _ => cases mem_singleton.1 hvisible

theorem start_outputs (s : System) (task : Task) :
    (relayHost.step s.world (.start task)).2.map Prod.snd = (task.program.advance s.relay).2.1 := by
  change ((task.program.advance s.world.shared).2.1.map (Prod.mk s.world.next)).map Prod.snd = _
  rw [map_map]
  exact map_id _

/-- The terms of a task that says nothing but an error. -/
def errorTerms (host : Host) (conn : String) : RelayTerms :=
  relayTerms host (some conn) false (fun _ _ => True) (fun _ => False)
    (fun o => ∃ code text, o = .send conn (.error code text)) fun _ _ => True

variable {r : RelayState} {c : ConnectionState} {msg : ClientMessage}

theorem expired_route (hc : r.connection conn = some c)
    (hexpired : isGrantActive c.grant r.now = false) :
    (routeMessage conn msg).Within (errorTerms host conn) (fun _ _ => True) r := by
  have hrights : Enforce.rights ⟨c.grant, c.attachedSession, none⟩ msg r.now =
      .deny "ACCESS_DENIED" "This share has expired." := by
    unfold Enforce.rights
    rw [if_pos (by rw [hexpired]; rfl)]
  unfold routeMessage
  rw [within_get, hc]
  refine within_bind.2 ?_
  change (Enforce.andThen (pure (Enforce.rights ⟨c.grant, c.attachedSession, none⟩ msg r.now)) _).Within _ _ r
  rw [hrights]
  exact ⟨⟨.inl rfl, _, _, rfl⟩, trivial⟩

theorem expired_tells {m : ServerMessage}
    (hs : OwnClones host r) (hc : r.connection conn = some c) (hexpired : isGrantActive c.grant r.now = false)
    (ho : .send conn m ∈ ((Task.message conn msg).program.advance r).2.1) : ∃ code text, m = .error code text := by
  have hwithin : (routeMessage conn msg).Within (errorTerms host conn) (fun _ _ => True) r :=
    expired_route hc hexpired
  obtain ⟨-, -, hout, -⟩ := hwithin.advance ⟨hs, fun _ _ _ => trivial⟩
  obtain ⟨r', -, -, -, code, text, hpolls⟩ := hout _ ho
  cases hpolls
  exact ⟨code, text, rfl⟩

theorem told_others {task : Task} {r' : RelayState} {m : ServerMessage}
    {log : List (Exchange Failure Call.Output)} (hother : task ≠ .poll) (hnamed : OwnClones host r) (hc : r.connection conn = some c) (hmay : (task.terms host).may r r')
    (htells : (task.terms host).tells r' (.send conn m)) : TaskPushes r conn c log task := by
  obtain ⟨htold, hspeaks⟩ := htells
  have hattached : task.own ≠ some conn → task.announces = false → c.attachedSession.isSome = true := by
    intro hown hquiet
    cases htold with
    | inl hmine => exact absurd hmine hown
    | inr hrest =>
      cases hrest with
      | inl hloud =>
        rw [hquiet] at hloud
        cases hloud
      | inr hother =>
        obtain ⟨c', hmem, hid, hattached⟩ := hother
        have hget := (mem_others_get (hmay.keeps host hnamed) hmem).1
        have hsame : r'.connections.get conn = r.connections.get conn := hmay.others conn (Ne.symm hown)
        have heq : some c' = some c := by
          rw [← hc, ← hget, hid]
          exact hsame
        cases heq
        exact hattached
  cases task with
  | message other msg =>
    by_cases hother : other = conn
    · exact .inl hother
    · refine .inr ?_
      cases hannounces : announcesSessions msg with
      | true => exact .inl rfl
      | false =>
        refine .inr ⟨?_, hattached (fun h => hother (Option.some.inj h)) hannounces⟩
        obtain hmine | hlayout | hsessions := hspeaks
        · exact absurd hmine.symm hother
        · exact hlayout
        · rw [hannounces] at hsessions
          cases hsessions
  | job job =>
    cases job with
    | attach => exact hspeaks.elim
    | announcePanes name => exact hattached (by simp [Task.own]) rfl
  | poll => exact absurd rfl hother
  | _ => exact hspeaks.elim

/-! ### Steps -/

theorem greets {grant : GrantRecord} {token : Option String} (h : .sent conn message ∈ (s.connect grant token).2) :
    conn = connectionName s.nextConn := by
  cases mem_append.1 h with
  | inl hgreeting => exact (mem_tell hgreeting).1
  | inr happrovals =>
    split at happrovals
    · obtain ⟨request, -, htold⟩ := mem_flatMap.1 happrovals
      exact (mem_tell htold).1
    · cases happrovals

/-- What leaves a step goes to a socket that is open after it. -/
theorem open_step (s : System) (e : SystemEvent) : (s.step e).1.ToOpen (s.step e).2 := by
  have hmoves := s.step_moves e
  generalize s.step e = after at hmoves
  cases hmoves with
  | aside hharmless hbeside hopen => exact hopen
  | connect grant token => exact s.connect_toOpen grant token
  | revoke _ | tick _ => exact nothing_toOpen _
  | start hstart hharmless hbeside => exact run_toOpen _ _
  | exec _ _ | resume _ => exact s.run_toOpen _

theorem run_now (h : Sound host s) (hharmless : Harmless s.relay r)
    (hbeside : Beside s r t) : (t.run e).1.relay.now = r.now := by
  have hkeeps := hbeside.keeps h.keeps ⟨hharmless.keeps host h.keeps.inv.1, hharmless.held h.keeps.inv.2⟩
  have hrelay : t.relay = r := congrArg World.shared hbeside.world
  rw [← hrelay]
  cases may_moves (t.run_moves e) hkeeps (fun _ => rfl) (fun _ _ _ => rfl) (fun _ e' => e'.elim)
      (fun task _ => task.program_kept _ hkeeps.inv) with
  | inl hsame => exact congrArg RelayState.now hsame
  | inr hchanged =>
    obtain ⟨task, hmay⟩ := hchanged
    exact May.now hmay

variable {e : SystemEvent}

theorem now_step (h : Sound host s) (htick : ∀ ms, e ≠ .tick ms) : (s.step e).1.relay.now = s.relay.now := by
  have hmoves := s.step_moves e
  generalize s.step e = after at hmoves
  cases hmoves with
  | @aside e r t out hharmless hbeside => exact (congrArg (RelayState.now ∘ World.shared) hbeside.world).trans hharmless.now
  | connect _ _ | revoke _ => rfl
  | tick ms => exact absurd rfl (htick ms)
  | start hstart hharmless hbeside => exact (run_now h hharmless hbeside).trans hharmless.now
  | exec _ _ | resume _ => exact run_now h (harmless_refl _) s.beside_same

theorem expired_step (h : Sound host s) (htick : ∀ ms, e ≠ .tick ms)
    (hnew : ∀ grant token, e ≠ .connect grant token) (hexpired : Expired (s.step e).1 conn) : Expired s conn := by
  obtain ⟨c', hc', hinactive⟩ := hexpired
  have hsame := grants_step h hnew conn
  have hget : (s.step e).1.relay.connections.get conn = some c' := hc'
  rw [hget] at hsame
  obtain ⟨c, hc, hgrant⟩ := Option.map_eq_some_iff.1 hsame.symm
  refine ⟨c, hc, ?_⟩
  rw [hgrant, ← now_step h htick]
  exact hinactive

variable {c : ConnectionState}

section
variable (h : Sound host s)
include h

variable {r : RelayState}

variable (hpolls : s.world.Says ToldNews .poll)
include hpolls

theorem run_pushes {e : Happening Task Answer Empty} (hharmless : Harmless s.relay r) (hbeside : Beside s r t) (hc : r.connection conn = some c)
    (hsent : .sent conn message ∈ (t.run e).2) : (∃ task, e = .start task ∧ TaskPushes r conn c [] task) ∨
      ∃ id task log rest, e = .resume id ∧ s.world.tasks.get id = some ⟨task, log, .answered rest⟩ ∧
        TaskPushes r conn c log task := by
  have hkeeps := hbeside.keeps h.keeps ⟨hharmless.keeps host h.keeps.inv.1, hharmless.held h.keeps.inv.2⟩
  have hrelay : t.relay = r := congrArg World.shared hbeside.world
  have htasks : t.world.tasks = s.world.tasks := by rw [hbeside.world]
  subst hrelay
  obtain ⟨m, hm, -⟩ := mem_run hsent
  obtain ⟨task, hgoes, r', hmay, htells⟩ :=
    run_tells hkeeps (fun _ => rfl) (fun task _ => task.program_kept _ hkeeps.inv) hm
  obtain he | ⟨id, log, rest, he, hget⟩ := hgoes
  · refine .inl ⟨task, he, ?_⟩
    subst he
    by_cases hpoll : task = .poll
    · subst hpoll
      rw [start_outputs] at hm
      exact ((poll_tells t.relay).advance.1 _ hm).elim
    · exact told_others hpoll hkeeps.inv.1 hc hmay htells
  · subst he
    refine .inr ⟨id, task, log, rest, rfl, htasks ▸ hget, ?_⟩
    by_cases hpoll : task = .poll
    · subst hpoll
      have htold : t.world.Says ToldNews .poll := fun id log stage hget => hpolls id log stage (htasks ▸ hget)
      obtain ⟨x, hx, hnews⟩ := htold.resumes hget
      have hout : (relayHost.step t.world (.resume id)).2.map Prod.snd = (rest.advance t.relay).2.1 := by
        simp [Host.step, hget, World.goOn, relay, Function.comp_def]
      rw [hout] at hm
      obtain ⟨c', hmem, hid, hnew⟩ := hnews _ hm conn m rfl
      have hget' : t.relay.connection c'.id = some c' := (mem_others_get hkeeps.inv.1 hmem).1
      rw [hid, hc] at hget'
      cases hget'
      exact ⟨x, hx, hnew⟩
    · exact told_others hpoll hkeeps.inv.1 hc hmay htells

theorem start_pushes {task : Task} (hharmless : Harmless s.relay r) (hbeside : Beside s r t) (hc : r.connection conn = some c)
    (hsent : .sent conn message ∈ (t.run (.start task)).2) : TaskPushes r conn c [] task := by
  obtain ⟨task', hstart, hpushes⟩ | ⟨id, task', log, rest, he, -⟩ := run_pushes h hpolls hharmless hbeside hc hsent
  · cases hstart
    exact hpushes
  · cases he

/-- Another one's message is pushed, one's own is turned down. -/
theorem message_sends {other : String} {o : ConnectionState} {rest : List ClientMessage}
    (hc : s.relay.connection conn = some c)
    (hexpired : isGrantActive c.grant s.relay.now = false) (ho : s.relay.connection other = some o)
    (hqueue : o.queue = msg :: rest) (hr : r = s.relay.updateConnection (fun c => { c with queue := rest }) other)
    (hharmless : Harmless s.relay r) (hbeside : Beside s r t)
    (hsent : .sent conn message ∈ (t.run (.start (.message other msg))).2) :
    (∃ code text, message = .message (.error code text)) ∨ Pushes s conn c (.next other) := by
  have hget : s.relay.connections.get conn = some c := hc
  by_cases hown : other = conn
  · subst hown
    have hrelay : t.relay = r := congrArg World.shared hbeside.world
    have hmine : r.connection other = some { c with queue := rest } := by
      change r.connections.get other = _
      rw [hr, get_updateConnection, if_pos rfl, hget]
      rfl
    obtain ⟨m, hm, hmessage⟩ := mem_run hsent
    have hout : .send other m ∈ ((Task.message other msg).program.advance t.relay).2.1 := by
      rw [start_outputs] at hm
      exact hm
    rw [hrelay] at hout
    obtain ⟨code, text, hpolls⟩ := expired_tells (hharmless.keeps host h.keeps.inv.1) hmine
      (by rw [hharmless.now]; exact hexpired) hout
    exact .inl ⟨code, text, by rw [hmessage, hpolls]⟩
  · have hsame : r.connection conn = some c := by
      change r.connections.get conn = _
      rw [hr, get_updateConnection, if_neg (Ne.symm hown)]
      exact hget
    have hpushes : TaskPushes r conn c [] (.message other msg) :=
      start_pushes h hpolls hharmless hbeside hsame hsent
    exact .inr ⟨hown, o, msg, rest, ho, hqueue, hpushes⟩

theorem reports_send (hc : s.relay.connection conn = some c)
    (hexpired : isGrantActive c.grant s.relay.now = false) (hreports : Reports e = true)
    (hsent : .sent conn message ∈ (s.step e).2) :
    (∃ code text, message = .message (.error code text)) ∨ Pushes s conn c e := by
  cases e with
  | ptyReady bridge =>
    obtain ⟨m, hm, -⟩ := mem_tellAll hsent
    exact .inr (RelayState.mem_ptyReady hm)
  | ptyData bridge data =>
    obtain ⟨m, hm, -⟩ := mem_tellAll hsent
    obtain ⟨b, name, attachId, captured, hget, howner, hexited, hshows⟩ := RelayState.mem_ptyData hm
    refine .inr ⟨b, name, attachId, captured, hget, howner, hexited, ?_⟩
    rw [hc] at hshows
    exact hshows
  | ptyExit bridge exitCode =>
    simp only [step] at hsent
    split at hsent
    · have hharmless := s.relay.ptyExit_harmless bridge exitCode
      obtain ⟨c', hc'⟩ := stays ⟨c, hc⟩ (hharmless.grants conn)
      exact (start_pushes h hpolls hharmless (s.beside_withRelay _) hc' hsent).elim
    · obtain ⟨m, hm, hmessage⟩ := mem_tellAll hsent
      cases RelayState.mem_ptyExit hm with
      | inl herror =>
        obtain ⟨code, text, htext⟩ := herror
        exact .inl ⟨code, text, by rw [hmessage, htext]⟩
      | inr hexit => exact .inr hexit
  | fileChanged other path changed =>
    simp only [step, onConnection] at hsent
    split at hsent
    · cases hsent
    · rename_i o ho
      dsimp only at hsent
      split at hsent
      · rename_i hwatched
        have hown := (mem_tell hsent).1
        subst hown
        cases hc.symm.trans ho
        exact .inr ⟨rfl, by simpa using hwatched⟩
      · cases hsent
  | paired label =>
    obtain ⟨c', hc', hstays, -⟩ := mem_broadcast h.keeps.inv.1 hsent
    cases hc.symm.trans hc'
    exact .inr hstays
  | approvalRequest id =>
    simp only [step] at hsent
    split at hsent
    · obtain ⟨c', hc', -, hbuild⟩ := mem_broadcast h.keeps.inv.1 hsent
      cases hc.symm.trans hc'
      split at hbuild
      · rename_i hmay
        simp [mayApprove, hexpired] at hmay
      · cases hbuild
    · cases hsent
  | approvalResolved id =>
    obtain ⟨c', hc', -, hbuild⟩ := mem_broadcast h.keeps.inv.1 hsent
    cases hc.symm.trans hc'
    split at hbuild
    · rename_i hmay
      simp [mayApprove, hexpired] at hmay
    · cases hbuild
  | _ => cases hreports

theorem sent_step (hc : s.relay.connection conn = some c)
    (hexpired : isGrantActive c.grant s.relay.now = false) (hsent : .sent conn message ∈ (s.step e).2) :
    (∃ code text, message = .message (.error code text)) ∨ Pushes s conn c e := by
  cases hreports : Reports e with
  | true => exact reports_send h hpolls hc hexpired hreports hsent
  | false =>
    have hmoves := s.step_moves e
    generalize s.step e = after at hmoves hsent
    cases hmoves with
    | aside hharmless hbeside hopen hquiet =>
      rw [hquiet hreports] at hsent
      cases hsent
    | connect grant token =>
      have hnone := h.numbered.fresh
      rw [← greets hsent] at hnone
      exact absurd (hnone.symm.trans hc) (by simp)
    | revoke _ | tick _ => cases hsent
    | start hstart hharmless hbeside =>
      cases hstart with
      | message ho hqueue => exact message_sends h hpolls hc hexpired ho hqueue rfl hharmless hbeside hsent
      | job hjob => exact .inr ⟨_, hjob, start_pushes h hpolls hharmless hbeside hc hsent⟩
      | errand errand => exact .inr (start_pushes h hpolls hharmless hbeside hc hsent)
      | teardown | hangUp => exact (start_pushes h hpolls hharmless hbeside hc hsent).elim
      | ended => cases hreports
    | exec id x =>
      obtain ⟨task, he, -⟩ | ⟨id', task, log, rest, he, -⟩ :=
        run_pushes h hpolls (harmless_refl _) s.beside_same hc hsent
      · cases he
      · cases he
    | resume id =>
      obtain ⟨task, he, -⟩ | ⟨id', task, log, rest, he, hget, hpushes⟩ :=
        run_pushes h hpolls (harmless_refl _) s.beside_same hc hsent
      · cases he
      · cases he
        exact .inr ⟨task, log, rest, hget, hpushes⟩

end

/-! ### Runs -/

/-- What the monitor tells next is news, wherever it stands. -/
theorem says_run (host : Host) (es : List SystemEvent) :
    ((systemMachine host).run es).world.Says ToldNews .poll := by
  induction es using List.reverseRecOn with
  | nil =>
    intro id log stage hget
    cases hget
  | append_singleton es e ih =>
    rw [run_snoc]
    change World.Says ToldNews .poll (((systemMachine host).run es).step e).1.world
    generalize (systemMachine host).run es = s at ih ⊢
    have hrun {t : System} (e : Happening Task Answer Empty) (htasks : t.world.tasks = s.world.tasks) :
        (t.run e).1.world.Says ToldNews .poll := by
      have ht : t.world.Says ToldNews .poll := fun id log stage hget => ih id log stage (htasks ▸ hget)
      exact ht.moves (t.run_moves e) poll_tells
    have hmoves := s.step_moves e
    generalize s.step e = after at hmoves
    cases hmoves with
    | aside hharmless hbeside hopen hquiet =>
      intro id log stage hget
      exact ih id log stage (by rw [hbeside.world] at hget; exact hget)
    | start hstart hharmless hbeside => exact hrun _ (by rw [hbeside.world])
    | exec _ _ | resume _ => exact hrun _ rfl
    | _ => exact ih

/-- A socket that is shut stays so, and tokens come with connections and go when they are taken back. -/
structure KeepsTokens (s t : System) : Prop where
  credentials : t.credentials = s.credentials
  revoked : t.revoked = s.revoked
  shut : s.shut ⊆ t.shut

theorem Beside.keepsTokens (h : Beside s r t) : KeepsTokens s t := ⟨h.credentials, h.revoked, h.shut⟩

theorem keepsTokens_step (s : System) (hnew : ∀ grant token, e ≠ .connect grant token)
    (hrevoke : ∀ tokens, e ≠ .revoke tokens) : KeepsTokens s (s.step e).1 := by
  have hsame : KeepsTokens s s := s.beside_same.keepsTokens
  have hmoves := s.step_moves e
  generalize s.step e = after at hmoves
  cases hmoves with
  | aside hharmless hbeside => exact hbeside.keepsTokens
  | connect grant token => exact absurd rfl (hnew grant token)
  | revoke tokens => exact absurd rfl (hrevoke tokens)
  | tick ms => exact (s.beside_withRelay _).keepsTokens
  | start hstart hharmless hbeside => exact ⟨hbeside.credentials, hbeside.revoked, hbeside.shut⟩
  | exec _ _ | resume _ => exact ⟨rfl, rfl, hsame.shut⟩

theorem shut_step (s : System) (e : SystemEvent) : s.shut ⊆ (s.step e).1.shut := by
  by_cases hnew : ∃ grant token, e = .connect grant token
  · obtain ⟨grant, token, he⟩ := hnew
    subst he
    exact List.Subset.refl _
  · by_cases hrevoke : ∃ tokens, e = .revoke tokens
    · obtain ⟨tokens, he⟩ := hrevoke
      subst he
      exact subset_append_right _ _
    · exact (keepsTokens_step s (fun grant token he => hnew ⟨grant, token, he⟩)
        fun tokens he => hrevoke ⟨tokens, he⟩).shut

theorem takenBack_step (h : ∀ conn, TakenBack s conn → conn ∈ s.shut)
    (hlets : PushesToActive ((systemMachine host).entry s e)) :
    ∀ conn, TakenBack (s.step e).1 conn → conn ∈ (s.step e).1.shut := by
  intro conn htaken
  obtain ⟨t, hcredential, htoken⟩ := htaken
  by_cases hnew : ∃ grant token, e = .connect grant token
  · obtain ⟨grant, token, he⟩ := hnew
    subst he
    cases mem_append.1 hcredential with
    | inl hcame =>
      obtain ⟨t', ht', hpair⟩ := mem_map.1 hcame
      cases hpair
      exact absurd htoken ((hlets.admits grant token rfl).2 t (by simpa using ht'))
    | inr hold => exact h conn ⟨t, hold, htoken⟩
  · by_cases hrevoke : ∃ tokens, e = .revoke tokens
    · obtain ⟨tokens, he⟩ := hrevoke
      subst he
      cases mem_append.1 htoken with
      | inl hnow =>
        refine mem_append_left _ (mem_map.2 ⟨(conn, t), ?_, rfl⟩)
        exact mem_filter.2 ⟨hcredential, by simpa using hnow⟩
      | inr hold => exact mem_append_right _ (h conn ⟨t, hcredential, hold⟩)
    · have hkept := keepsTokens_step s (fun grant token he => hnew ⟨grant, token, he⟩)
        fun tokens he => hrevoke ⟨tokens, he⟩
      rw [hkept.credentials] at hcredential
      rw [hkept.revoked] at htoken
      exact hkept.shut (h conn ⟨t, hcredential, htoken⟩)

theorem takenBack_run {host : Host} {es : List SystemEvent}
    (hlets : ∀ x ∈ (systemMachine host).trace es, PushesToActive x) :
    ∀ conn, TakenBack ((systemMachine host).run es) conn → conn ∈ ((systemMachine host).run es).shut := by
  refine trace_invariant _ (fun s _ => ∀ conn, TakenBack s conn → conn ∈ s.shut) ?_ ?_ hlets
  · intro conn htaken
    obtain ⟨token, hcredential, -⟩ := htaken
    cases hcredential
  · exact fun es e hbefore hlast => takenBack_step hbefore hlast

end System

/-- As long as nothing is pushed to a share that has run out, it gets nothing but errors. -/
theorem shares_end (host : Host) (es : List SystemEvent) (h : ∀ x ∈ (systemMachine host).trace es, PushesToActive x) :
    ∀ x ∈ (systemMachine host).trace es, EndsShares x := by
  intro x hx
  have hpushes := (h x hx).pushes
  have hadmits := (h x hx).admits
  obtain ⟨before, e, later, hes, hentry⟩ := ((systemMachine host).mem_trace es x).1 hx
  subst hentry
  have hsound := System.sound_run host before
  have hshut : ∀ conn, TakenBack ((systemMachine host).run (before ++ [e])) conn →
      conn ∈ ((systemMachine host).run (before ++ [e])).shut := by
    exact System.takenBack_run (forall_trace_before h (by rw [hes, append_cons]))
  rw [run_snoc] at hshut
  intro conn message hsent hended
  change SystemOutput.sent conn message ∈ (((systemMachine host).run before).step e).2 at hsent
  have hopen := System.open_step _ _ _ _ hsent
  cases hended with
  | inr htaken => exact absurd (hshut conn htaken) hopen
  | inl hexpired =>
    change Expired (((systemMachine host).run before).step e).1 conn at hexpired
    by_cases hnew : ∃ grant token, e = .connect grant token
    · obtain ⟨grant, token, he⟩ := hnew
      subst he
      obtain ⟨c, hc, hinactive⟩ := hexpired
      change (System.connect _ grant token).1.relay.connections.get conn = some c at hc
      rw [System.get_connect, if_pos (System.greets hsent)] at hc
      cases hc
      have hboth : true = false := (hadmits grant token rfl).1.symm.trans hinactive
      cases hboth
    · by_cases htick : ∃ ms, e = .tick ms
      · obtain ⟨ms, he⟩ := htick
        subst he
        cases hsent
      · obtain ⟨c, hc, hinactive⟩ := System.expired_step hsound (fun ms he => htick ⟨ms, he⟩)
          (fun grant token he => hnew ⟨grant, token, he⟩) hexpired
        cases System.sent_step hsound (System.says_run host before) hc hinactive hsent with
        | inl herror => exact herror
        | inr hpush =>
          exact absurd hpush (hpushes conn c hc hinactive fun hshut => hopen (System.shut_step _ e hshut))

/-- A share of ten milliseconds. -/
def briefGrant : GrantRecord := { viewerGrant with expiresAt := some 10 }

/-- The machine lists one session without windows. -/
def lists : Answer where
  sessions := ["work"]
  reply
    | .tmux .listSessions => .ok [⟨"work", "$1"⟩]
    | .tmux (.on _ .listWindows) => .ok []
    | _ => .error ⟨none, "no such session"⟩

/-- A viewer and the owner are attached to `work`, and the monitor has looked. The viewer's share runs out; it asks for
something, the owner's pty shows something, and the monitor looks again. -/
def asksTooLate : List SystemEvent :=
  [.connect briefGrant none, .connect fullGrant none] ++ attaches "conn-1" 0 ++ attaches "conn-2" 1 ++
    .errand .poll :: answered 2 lists 2 ++ [.tick 20, .message "conn-1" (.ping 5), .next "conn-1", .ptyData 1 "ls"] ++
    .errand .poll :: answered 4 lists 2

def oldNews (r : RelayState) : Exchange Failure Call.Output → Bool
  | ⟨.tmux .listSessions, .ok sessions⟩ => r.knownSessions = sessions.map SessionInfo.name
  | ⟨.tmux (.on (.session name) .listWindows), .ok windows⟩ =>
    (r.windowSignatures.get name).all fun previous => previous = windowSignature windows
  | _ => false

theorem not_news {r : RelayState} {c : ConnectionState} {x : Exchange Failure Call.Output} (h : oldNews r x = true) :
    ¬ News r c x := by
  unfold oldNews at h
  split at h
  · rename_i sessions
    rintro ⟨heard, hheard, hnews⟩
    have hsame : heard = sessions := by
      cases hheard with
      | await reply hheard =>
        cases hheard
        rfl
    have hknown : r.knownSessions = sessions.map SessionInfo.name := by simpa using h
    rw [hsame, hknown] at hnews
    obtain ⟨name, hname, hgone, -⟩ | ⟨session, hsession, hnew, -⟩ := hnews
    · exact hgone hname
    · exact hnew (mem_map_of_mem hsession)
  · rintro ⟨-, -, previous, hprevious, hother⟩
    exact hother (by simpa [hprevious] using h)
  · cases h

/-- The step has nothing to tell the connection. -/
def still (s : System) (conn : String) : SystemEvent → Bool
  | .message .. | .tick _ | .exec .. | .errand .poll => true
  | .next other => other = conn
  | .ptyData bridge _ => (s.relay.bridges.get bridge).all fun b =>
    match b.owner with
    | .browser other .. => other ≠ conn
    | .recorder _ => true
  | .resume id =>
    match s.world.tasks.get id with
    | some ⟨.poll, log, _⟩ => log.getLast?.all (oldNews s.relay)
    | _ => false
  | _ => false

theorem not_pushes {s : System} {conn : String} {c : ConnectionState} {e : SystemEvent} (h : still s conn e = true) :
    ¬ Pushes s conn c e := by
  unfold still at h
  split at h
  · exact id
  · exact id
  · exact id
  · rintro ⟨x, hx, -⟩
    cases hx
  · rintro ⟨hother, -⟩
    exact hother (by simpa using h)
  · rintro ⟨b, name, attachId, captured, hget, howner, -⟩
    simp [hget, howner] at h
  · rintro ⟨task, log, rest, hget, hpushes⟩
    rw [hget] at h
    cases task with
    | poll =>
      obtain ⟨x, hx, hnews⟩ := hpushes
      change log.getLast?.all (oldNews s.relay) = true at h
      exact not_news ((Option.all_eq_true _ _).1 h x hx) hnews
    | _ => cases h
  · cases h

def pushesNothing (x : Machine.Entry System SystemEvent SystemOutput) : Bool :=
  (match x.event with
    | .connect grant token => isGrantActive grant x.pre.relay.now && token.isNone
    | _ => true) &&
  x.pre.relay.connections.entries.all fun c =>
    isGrantActive c.2.grant x.pre.relay.now || still x.pre c.1 x.event

theorem pushesToActive {x : Machine.Entry System SystemEvent SystemOutput} (h : pushesNothing x = true) :
    PushesToActive x := by
  simp only [pushesNothing, Bool.and_eq_true, all_eq_true] at h
  obtain ⟨hadmits, hstill⟩ := h
  refine ⟨fun grant token he => ?_, fun conn c hc hexpired _ => ?_⟩
  · simp only [he, Bool.and_eq_true, Option.isNone_iff_eq_none] at hadmits
    refine ⟨hadmits.1, fun t ht => ?_⟩
    rw [hadmits.2] at ht
    cases ht
  · have hmem := (OrderedMap.get_eq_some _ conn c).1 hc
    have hsilent := hstill (conn, c) hmem
    rw [hexpired, Bool.false_or] at hsilent
    exact not_pushes hsilent

theorem asks_too_late_ends : asksTooLate ≠ [] ∧ ∀ x ∈ (systemMachine sampleHost).trace asksTooLate, EndsShares x := by
  have hall : ((systemMachine sampleHost).trace asksTooLate).all pushesNothing = true := by decide +kernel
  exact ⟨cons_ne_nil _ _, shares_end sampleHost asksTooLate fun x hx => pushesToActive (all_eq_true.1 hall x hx)⟩

/-- A viewer of `work` only looks on. -/
def looksOn : List SystemEvent := .connect briefGrant none :: attaches "conn-1" 0 ++ [.tick 20]

def shows (s : System) (conn : String) (bridge : Nat) (data : String) : Bool :=
  (s.step (.ptyData bridge data)).2.any fun
    | .sent other (.message (.terminalOutput text)) => other = conn && text = data
    | _ => false

def isOver (s : System) (conn : String) : Bool :=
  (s.relay.connection conn).any fun c => !isGrantActive c.grant s.relay.now

theorem not_endsShares {host : Host} {s : System} {conn data : String} {bridge : Nat}
    (hshows : shows s conn bridge data = true) (hover : isOver (s.step (.ptyData bridge data)).1 conn = true) :
    ¬ EndsShares ((systemMachine host).entry s (.ptyData bridge data)) := by
  intro hends
  obtain ⟨o, ho, hshown⟩ := any_eq_true.1 hshows
  have hexpired : Expired (s.step (.ptyData bridge data)).1 conn := by
    obtain ⟨c, hc, hinactive⟩ := (Option.any_eq_true _ _).1 hover
    exact ⟨c, hc, by simpa using hinactive⟩
  split at hshown
  · rename_i other text
    simp only [Bool.and_eq_true, decide_eq_true_eq] at hshown
    obtain ⟨hother, -⟩ := hshown
    subst hother
    obtain ⟨code, text', hmessage⟩ := hends _ _ ho (.inl hexpired)
    cases hmessage
  · cases hshown

theorem silent_viewer_sees_on : ∃ x ∈ (systemMachine sampleHost).trace (looksOn ++ [.ptyData 0 "secret"]),
    ¬ EndsShares x := by
  refine ⟨(systemMachine sampleHost).entry ((systemMachine sampleHost).run looksOn) (.ptyData 0 "secret"), ?_, ?_⟩
  · rw [trace_snoc]
    exact mem_append_right _ mem_cons_self
  · have hshows : shows ((systemMachine sampleHost).run looksOn) "conn-1" 0 "secret" = true := by decide +kernel
    exact not_endsShares hshows (by decide +kernel)

end Mtmux.Relay
