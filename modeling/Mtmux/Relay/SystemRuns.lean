import Mtmux.Relay.TaskTerms

/-! Runs of the whole relay. A step starts a task, goes on with one, or changes the relay's state from outside; in
every run all tasks keep to their terms. -/
namespace Mtmux.Relay
open Protocol Async List

/-- What happens outside of tasks takes nobody's grant or clone. -/
structure Harmless (s s' : RelayState) : Prop where
  now : s'.now = s.now
  grants : ∀ id, (s'.connections.get id).map ConnectionState.grant = (s.connections.get id).map ConnectionState.grant
  keeps : ∀ host, OwnClones host s → OwnClones host s'

section Harmless
variable {s s' : RelayState}

theorem harmless_refl (s : RelayState) : Harmless s s := ⟨rfl, fun _ => rfl, fun _ => id⟩

theorem Harmless.trans {s'' : RelayState} (h : Harmless s s') (h' : Harmless s' s'') : Harmless s s'' :=
  ⟨h'.now.trans h.now, fun id => (h'.grants id).trans (h.grants id), fun host hs => h'.keeps host (h.keeps host hs)⟩

theorem May.harmless {own : Option String} (h : May own s s') : Harmless s s' := ⟨h.now, h.grants, h.keeps⟩

theorem Harmless.held {grants : String → GrantRecord → Prop} (h : Harmless s s') (hheld : Held grants s) :
    Held grants s' := held_of_grants h.grants hheld

theorem harmless_aside (hconnections : s'.connections = s.connections) (hactive : s'.active = s.active)
    (hnow : s'.now = s.now) (hhost : s'.host = s.host) : Harmless s s' :=
  (show May none s s' from may_aside hconnections hactive hnow hhost).harmless

/-- The clock goes on. -/
theorem OwnClones.ticks {host : Host} (h : OwnClones host s) (ms : Nat) : OwnClones host { s with now := s.now + ms } :=
  { h with }

theorem harmless_approvals (s : RelayState) (ids : List String) : Harmless s { s with pendingApprovals := ids } :=
  harmless_aside rfl rfl rfl rfl

theorem harmless_update {f : ConnectionState → ConnectionState} (hid : ∀ c, (f c).id = c.id)
    (hgrant : ∀ c, (f c).grant = c.grant) (hclone : ∀ c, (f c).cloneSession = c.cloneSession) (s : RelayState)
    (conn : String) : Harmless s (s.updateConnection f conn) :=
  (may_update hid hgrant (fun c => .inl (hclone c)) s).harmless

theorem harmless_bridge (f : Bridge → Bridge) (bridge : Nat) (s : RelayState) : Harmless s (s.updateBridge f bridge) :=
  have hrest := updateBridge_rest f bridge s
  harmless_aside hrest.1 hrest.2.1 hrest.2.2.1 hrest.2.2.2

end Harmless

/-! ### Ptys -/

namespace RelayState

theorem withBridge_harmless (s : RelayState) (bridge : Nat) {f : Bridge → PtyStep}
    (h : ∀ b, Harmless s (f b).1) : Harmless s (s.withBridge bridge f).1 := by
  unfold withBridge
  split
  · exact harmless_refl s
  · exact h _

theorem fireReady_harmless (s : RelayState) (bridge : Nat) (b : Bridge) : Harmless s (s.fireReady bridge b).1 := by
  unfold fireReady
  split
  · exact harmless_refl s
  · exact harmless_bridge _ bridge s

theorem ptyReady_harmless (s : RelayState) (bridge : Nat) : Harmless s (s.ptyReady bridge).1 := by
  refine s.withBridge_harmless bridge fun b => ?_
  split
  · exact harmless_refl s
  · exact s.fireReady_harmless bridge b

theorem ptyData_harmless (s : RelayState) (bridge : Nat) (data : String) : Harmless s (s.ptyData bridge data).1 := by
  refine s.withBridge_harmless bridge fun b => ?_
  split
  · exact harmless_refl s
  · exact s.fireReady_harmless bridge b

theorem forgetPty_harmless (s : RelayState) (bridge : Nat) (conn : String) : Harmless s (s.forgetPty bridge conn) := by
  refine harmless_update (fun c => ?_) (fun c => ?_) (fun c => ?_) s conn
  · split
    · rfl
    · rfl
  · split
    · rfl
    · rfl
  · split
    · rfl
    · rfl

theorem ptyExit_harmless (s : RelayState) (bridge : Nat) (exitCode : Int) :
    Harmless s (s.ptyExit bridge exitCode).1 := by
  refine s.withBridge_harmless bridge fun b => ?_
  have hgone : Harmless s (s.updateBridge (fun b => { b with exited := true }) bridge) := harmless_bridge _ bridge s
  split
  · exact harmless_refl s
  · dsimp only
    split
    · exact hgone
    · split
      · exact hgone
      · exact hgone.trans (forgetPty_harmless _ bridge _)

end RelayState

/-! ### Steps -/

namespace System

inductive Starts (s : System) : SystemEvent → Task → RelayState → Prop
  | message {conn : String} {c : ConnectionState} {msg : ClientMessage} {rest : List ClientMessage}
      (hc : s.relay.connection conn = some c) (hqueue : c.queue = msg :: rest) (hbusy : s.busy conn = false) :
      Starts s (.next conn) (.message conn msg)
        (s.relay.updateConnection (fun c => { c with queue := rest }) conn)
  | job {n : Nat} {job : Job} (hjob : s.jobs[n]? = some job) : Starts s (.begin n) (.job job) s.relay
  | errand (errand : Errand) : Starts s (.errand errand) errand.task s.relay
  | teardown {conn : String} {c : ConnectionState} (hc : s.relay.connection conn = some c) :
      Starts s (.teardown conn) (.removal conn) s.relay
  | hangUp {conn : String} {c : ConnectionState} (hc : s.relay.connection conn = some c) :
      Starts s (.hangUp conn) (.removal conn) s.relay
  | ended {bridge : Nat} {exitCode : Int} {id : String} (hended : s.relay.endedRecording bridge = some id) :
      Starts s (.ptyExit bridge exitCode) (.recordingOver id .ended) (s.relay.ptyExit bridge exitCode).1

/-- Another state of the relay, with the same tasks and tokens; a socket that is shut stays so. -/
structure Beside (s : System) (r : RelayState) (t : System) : Prop where
  world : t.world = { s.world with shared := r }
  jobs : ∀ job ∈ t.jobs, job ∈ s.jobs
  next : t.nextConn = s.nextConn
  credentials : t.credentials = s.credentials
  revoked : t.revoked = s.revoked
  shut : s.shut ⊆ t.shut

theorem beside_withRelay (s : System) (r : RelayState) : Beside s r (s.withRelay r) :=
  ⟨rfl, fun _ h => h, rfl, rfl, rfl, fun _ h => h⟩

theorem beside_same (s : System) : Beside s s.relay s := s.beside_withRelay s.relay

theorem beside_shut (s : System) (conn : String) : Beside s s.relay (s.shutSocket conn) :=
  ⟨rfl, fun _ h => h, rfl, rfl, rfl, subset_cons_self _ _⟩

/-- All that is sent goes to open sockets. -/
def ToOpen (s : System) (out : List SystemOutput) : Prop := ∀ conn message, .sent conn message ∈ out → conn ∉ s.shut

theorem mem_tell {s : System} {conn other : String} {message m : Pushed} (h : .sent conn message ∈ s.tell other m) :
    conn = other ∧ message = m ∧ conn ∉ s.shut := by
  unfold tell at h
  split at h
  · cases h
  · rename_i hopen
    cases mem_singleton.1 h
    exact ⟨rfl, rfl, by simpa using hopen⟩

theorem tell_toOpen (s : System) (conn : String) (m : Pushed) : s.ToOpen (s.tell conn m) :=
  fun _ _ h => (mem_tell h).2.2

theorem nothing_toOpen (s : System) : s.ToOpen [] := nofun

theorem flatMap_toOpen {α : Type} {s : System} {f : α → List SystemOutput} (l : List α) (h : ∀ a, s.ToOpen (f a)) :
    s.ToOpen (l.flatMap f) := by
  intro conn message hsent
  obtain ⟨a, -, ha⟩ := mem_flatMap.1 hsent
  exact h a conn message ha

theorem tellAll_toOpen (s : System) (messages : List (String × ServerMessage)) : s.ToOpen (s.tellAll messages) :=
  flatMap_toOpen messages fun _ => s.tell_toOpen _ _

theorem broadcast_toOpen (s : System) (build : ConnectionState → Option Pushed) : s.ToOpen (s.broadcast build) := by
  refine flatMap_toOpen _ fun c => ?_
  cases build c with
  | none => exact s.nothing_toOpen
  | some m => exact s.tell_toOpen _ m

theorem connect_toOpen (s : System) (grant : GrantRecord) (token : Option String) :
    (s.connect grant token).1.ToOpen (s.connect grant token).2 := by
  intro conn message hsent
  cases mem_append.1 hsent with
  | inl hgreeting => exact s.tell_toOpen _ _ _ _ hgreeting
  | inr happrovals =>
    split at happrovals
    · exact flatMap_toOpen _ (fun _ => s.tell_toOpen _ _) _ _ happrovals
    · cases happrovals

theorem run_toOpen (s : System) (e : Happening Task Answer Empty) : (s.run e).1.ToOpen (s.run e).2 :=
  flatMap_toOpen (s := s) _ fun o => match o with
    | .send conn m => s.tell_toOpen conn (.message m)
    | .spawn _ => s.nothing_toOpen
    | .write .. | .resize .. | .kill .. => by simp [ToOpen, visible]

/-- The events that tell browsers something without a task. -/
def Reports : SystemEvent → Bool
  | .ptyReady _ | .ptyData .. | .ptyExit .. | .fileChanged .. | .paired _ | .approvalRequest _ | .approvalResolved _ =>
    true
  | _ => false

/-- What one step does. -/
inductive Moves (s : System) : SystemEvent → System × List SystemOutput → Prop
  | aside {e : SystemEvent} {r : RelayState} {t : System} {out : List SystemOutput} (h : Harmless s.relay r)
      (hbeside : Beside s r t) (hopen : t.ToOpen out) (hquiet : Reports e = false → out = []) : Moves s e (t, out)
  | connect (grant : GrantRecord) (token : Option String) : Moves s (.connect grant token) (s.connect grant token)
  | revoke (tokens : List String) : Moves s (.revoke tokens) (s.revoke tokens, [])
  | tick (ms : Nat) : Moves s (.tick ms) (s.withRelay { s.relay with now := s.relay.now + ms }, [])
  | start {e : SystemEvent} {task : Task} {r : RelayState} {t : System} (hstart : Starts s e task r)
      (h : Harmless s.relay r) (hbeside : Beside s r t) : Moves s e (t.run (.start task))
  | exec (task : Nat) (x : Answer) : Moves s (.exec task x) (s.run (.exec task x))
  | resume (task : Nat) : Moves s (.resume task) (s.run (.resume task))

theorem aside_same (s : System) (e : SystemEvent) : Moves s e (s, []) :=
  .aside (harmless_refl _) s.beside_same s.nothing_toOpen fun _ => rfl

theorem step_moves (s : System) (e : SystemEvent) : Moves s e (s.step e) := by
  have hrelay : ∀ {e : SystemEvent} {r : RelayState}, Harmless s.relay r → Moves s e (s.withRelay r, []) :=
    fun h => .aside h (s.beside_withRelay _) (nothing_toOpen _) fun _ => rfl
  cases e with
  | connect grant token => exact .connect grant token
  | message conn msg =>
    refine hrelay (harmless_update (fun c => ?_) (fun c => ?_) (fun c => ?_) s.relay conn)
    · unfold RelayState.enqueue
      split
      · rfl
      · rfl
    · unfold RelayState.enqueue
      split
      · rfl
      · rfl
    · unfold RelayState.enqueue
      split
      · rfl
      · rfl
  | next conn =>
    simp only [step, onConnection]
    split
    · exact s.aside_same _
    · rename_i c hc
      unfold System.next
      split
      · exact s.aside_same _
      · rename_i hbusy
        split
        · exact s.aside_same _
        · rename_i msg rest hqueue
          refine .start (.message hc hqueue (by simpa using hbusy)) ?_ (s.beside_withRelay _)
          exact harmless_update (f := fun c => { c with queue := rest }) (fun _ => rfl) (fun _ => rfl) (fun _ => rfl)
            s.relay conn
  | exec task x => exact .exec task x
  | resume task => exact .resume task
  | begin job =>
    simp only [step]
    split
    · exact s.aside_same _
    · rename_i begun hjob
      exact .start (.job hjob) (harmless_refl _)
        ⟨rfl, fun _ h => mem_of_mem_eraseIdx h, rfl, rfl, rfl, fun _ h => h⟩
  | errand errand => exact .start (.errand errand) (harmless_refl _) s.beside_same
  | shut conn => exact .aside (harmless_refl s.relay) (s.beside_shut conn) (nothing_toOpen _) fun _ => rfl
  | close conn =>
    refine .aside (harmless_update (f := fun c => { c with closing := true }) (fun _ => rfl) (fun _ => rfl)
      (fun _ => rfl) s.relay conn) ?_ (nothing_toOpen _) fun _ => rfl
    exact ⟨rfl, fun _ h => h, rfl, rfl, rfl, (s.beside_shut conn).shut⟩
  | teardown conn =>
    simp only [step, onConnection]
    split
    · exact s.aside_same _
    · rename_i c hc
      split
      · exact .start (.teardown hc) (harmless_refl _) s.beside_same
      · exact s.aside_same _
  | hangUp conn =>
    simp only [step, onConnection]
    split
    · exact s.aside_same _
    · rename_i c hc
      split
      · exact s.aside_same _
      · exact .start (.hangUp hc) (harmless_refl _) (s.beside_shut conn)
  | revoke tokens => exact .revoke tokens
  | ptyReady bridge =>
    exact .aside (s.relay.ptyReady_harmless bridge) (s.beside_withRelay _) (tellAll_toOpen _ _) nofun
  | ptyData bridge data =>
    exact .aside (s.relay.ptyData_harmless bridge data) (s.beside_withRelay _) (tellAll_toOpen _ _) nofun
  | ptyExit bridge exitCode =>
    have hexit := s.relay.ptyExit_harmless bridge exitCode
    simp only [step]
    split
    · rename_i id hended
      exact .start (.ended hended) hexit (s.beside_withRelay _)
    · exact .aside hexit (s.beside_withRelay _) (tellAll_toOpen _ _) nofun
  | fileChanged conn path changed =>
    simp only [step, onConnection]
    split
    · exact s.aside_same _
    · refine .aside (harmless_refl _) s.beside_same ?_ nofun
      split
      · exact s.tell_toOpen _ _
      · exact s.nothing_toOpen
  | paired label => exact .aside (harmless_refl _) s.beside_same (s.broadcast_toOpen _) nofun
  | approvalRequest id =>
    simp only [step]
    split
    · exact .aside (harmless_approvals _ _) (s.beside_withRelay _) (s.broadcast_toOpen _) nofun
    · exact s.aside_same _
  | approvalResolved id => exact .aside (harmless_approvals _ _) (s.beside_withRelay _) (s.broadcast_toOpen _) nofun
  | tick ms => exact .tick ms

/-! ### What holds of all tasks -/

section Keeps
variable {T : Task → RelayTerms} {I : RelayState → Prop} {s : System}

theorem Beside.keeps {r : RelayState} {t : System} (h : Beside s r t) (hkeeps : s.world.Keeps T I) (hr : I r) :
    t.world.Keeps T I := by
  rw [h.world]
  exact hkeeps.withShared hr

theorem run_moves (s : System) (e : Happening Task Answer Empty) :
    Host.Moves relayHost s.world e (s.run e).1.world (relayHost.step s.world e).2 :=
  relayHost.step_moves s.world e

theorem keeps_step {e : SystemEvent} {after : System × List SystemOutput} (hmoves : Moves s e after)
    (h : s.world.Keeps T I) (hI : ∀ task, (T task).inv = I) (hsafe : ∀ r, Harmless s.relay r → I r)
    (hconnect : ∀ grant token, e = .connect grant token → I (s.connect grant token).1.relay)
    (htick : ∀ ms, I { s.relay with now := s.relay.now + ms })
    (hexec : ∀ id x task log c next, e = .exec id x → s.world.tasks.get id = some ⟨task, log, .asking c next⟩ →
      (T task).replies c (x.reply c)) (hstart : ∀ task r, Starts s e task r → Harmless s.relay r →
      task.program.Within (T task) (fun _ _ => True) r) : after.1.world.Keeps T I := by
  have hrun : ∀ {t : System} (e' : Happening Task Answer Empty), t.world.Keeps T I →
      (∀ id x task log c next, e' = .exec id x → t.world.tasks.get id = some ⟨task, log, .asking c next⟩ →
        (T task).replies c (x.reply c)) →
      (∀ task, e' = .start task → task.program.Within (T task) (fun _ _ => True) t.world.shared) →
      (t.run e').1.world.Keeps T I := by
    intro t e' ht hreply hwithin
    refine keeps_moves (t.run_moves e') ht hI (fun id x task log c next he hget => ?_) (fun e'' _ => e''.elim) hwithin
    exact ⟨ht.inv, hreply id x task log c next he hget⟩
  cases hmoves with
  | aside hharmless hbeside => exact hbeside.keeps h (hsafe _ hharmless)
  | connect grant token => exact h.withShared (hconnect grant token rfl)
  | revoke tokens => exact h
  | tick ms => exact h.withShared (htick ms)
  | start hcause hharmless hbeside =>
    refine hrun _ (hbeside.keeps h (hsafe _ hharmless)) (fun _ _ _ _ _ _ he => by cases he) fun task htask => ?_
    cases htask
    rw [hbeside.world]
    exact hstart _ _ hcause hharmless
  | exec id x =>
    refine hrun _ h (fun id' x' task log c next he hget => ?_) fun _ he => by cases he
    cases he
    exact hexec id x task log c next rfl hget
  | resume id => exact hrun _ h (fun _ _ _ _ _ _ he => by cases he) fun _ he => by cases he

end Keeps

variable {s : System} {e : Happening Task Answer Empty} {T : Task → RelayTerms} {I : RelayState → Prop}

theorem run_harmless (h : s.world.Keeps T I) (hI : ∀ task, (T task).inv = I)
    (hmay : ∀ task r r', (T task).may r r' → Harmless r r')
    (hstart : ∀ task, e = .start task → task.program.Within (T task) (fun _ _ => True) s.relay) :
    Harmless s.relay (s.run e).1.relay := by
  cases may_moves (s.run_moves e) h hI (fun _ _ _ => rfl) (fun _ e' => e'.elim) hstart with
  | inl hsame =>
    change Harmless s.relay (s.run e).1.world.shared
    rw [hsame]
    exact harmless_refl _
  | inr hchanged =>
    obtain ⟨task, htask⟩ := hchanged
    exact hmay task _ _ htask

def GoesOn (s : System) (e : Happening Task Answer Empty) (task : Task) : Prop :=
  e = .start task ∨ ∃ id log rest, e = .resume id ∧ s.world.tasks.get id = some ⟨task, log, .answered rest⟩

theorem run_tells (h : s.world.Keeps T I) (hI : ∀ task, (T task).inv = I)
    (hstart : ∀ task, e = .start task → task.program.Within (T task) (fun _ _ => True) s.relay) {o : Out}
    (ho : o ∈ (relayHost.step s.world e).2.map Prod.snd) :
    ∃ task, s.GoesOn e task ∧ ∃ r, (T task).may s.relay r ∧ (T task).tells r o := by
  obtain ⟨⟨id, o'⟩, hmem, hsnd⟩ := mem_map.1 ho
  subst hsnd
  obtain ⟨task, hgoes, r, hmay, -, htells⟩ := tells_moves (s.run_moves e) h hI hstart id o' hmem
  refine ⟨task, ?_, r, hmay, htells⟩
  cases hgoes with
  | inl hstarted => exact .inl hstarted
  | inr hresumed =>
    obtain ⟨log, rest, he, hget⟩ := hresumed
    exact .inr ⟨id, log, rest, he, hget⟩

theorem run_jobs {job : Job} (hjob : job ∈ (s.run e).1.jobs) :
    job ∈ s.jobs ∨ .spawn job ∈ (relayHost.step s.world e).2.map Prod.snd := by
  cases mem_append.1 hjob with
  | inl hold => exact .inl hold
  | inr hnew =>
    obtain ⟨o, ho, hspawned⟩ := mem_filterMap.1 hnew
    refine .inr ?_
    cases o with
    | spawn job' =>
      cases hspawned
      exact ho
    | _ => cases hspawned

/-- The ids of connections are given out one after another. -/
def Numbered (s : System) : Prop :=
  ∀ id c, s.relay.connections.get id = some c → ∃ n < s.nextConn, id = connectionName n

theorem numbered_of_grants {t : System} (h : Numbered s) (hnext : s.nextConn ≤ t.nextConn)
    (hsame : ∀ id, (t.relay.connections.get id).map ConnectionState.grant =
      (s.relay.connections.get id).map ConnectionState.grant) : Numbered t := by
  intro id c hc
  have hid := hsame id
  rw [hc] at hid
  obtain ⟨c', hc', -⟩ := Option.map_eq_some_iff.1 hid.symm
  obtain ⟨n, hn, hname⟩ := h id c' hc'
  exact ⟨n, by omega, hname⟩

theorem connectionName_inj {m n : Nat} (h : connectionName m = connectionName n) : m = n := by
  have hrepr : m.repr = n.repr := (String.append_right_inj "conn-").1 h
  have hid : sessionId m = sessionId n := congrArg ("$" ++ ·) hrepr
  exact sessionId_inj hid

theorem Numbered.fresh (h : Numbered s) : s.relay.connections.get (connectionName s.nextConn) = none := by
  cases hget : s.relay.connections.get (connectionName s.nextConn) with
  | none => rfl
  | some c =>
    obtain ⟨n, hn, hname⟩ := h _ c hget
    have hsame := connectionName_inj hname
    omega

theorem get_connect (s : System) (grant : GrantRecord) (token : Option String) (id : String) :
    (s.connect grant token).1.relay.connections.get id =
      if id = connectionName s.nextConn then some (freshConnection id grant) else s.relay.connections.get id := by
  change (s.relay.connections.set _ _).get id = _
  rw [OrderedMap.get_set]
  split
  · rename_i hid
    rw [hid]
  · rfl

/-- A new connection looks through no clone yet. -/
theorem ownClones_connect {host : Host} (h : OwnClones host s.relay) (grant : GrantRecord)
    (token : Option String) : OwnClones host (s.connect grant token).1.relay := by
  refine ⟨h.hosted, ?_, ?_, ?_, h.recorders, h.drawn⟩
  · intro id c hc
    rw [get_connect] at hc
    split at hc
    · cases hc
      rfl
    · exact h.named id c hc
  · intro id c hc
    rw [get_connect] at hc
    split at hc
    · rename_i hid
      exact ⟨s.nextConn, hid⟩
    · exact h.numbered id c hc
  · intro id c name hc hname
    rw [get_connect] at hc
    split at hc
    · cases hc
      cases hname
    · exact h.clones id c name hc hname

/-- What is run and what waits to be run attaches to no clone but for reading. -/
structure Sound (host : Host) (s : System) : Prop where
  keeps : s.world.Keeps (Task.terms host) fun r => OwnClones host r ∧ Held (fun _ _ => True) r
  numbered : Numbered s
  jobs : ∀ job ∈ s.jobs, ∃ own, Opens own job
  begun : ∀ id r job, s.world.tasks.get id = some r → r.job = .job job → ∃ own, Opens own job
  tended : ∀ id r conn msg, s.world.tasks.get id = some r → r.job = .message conn msg →
    ∃ c, s.relay.connections.get conn = some c

theorem sound_start (host : Host) : Sound host (.start host) where
  keeps := by
    refine ⟨⟨⟨rfl, ?_, ?_, ?_, ?_, ?_⟩, ?_⟩, ?_⟩
    · intro id c hc
      cases hc
    · intro id c hc
      cases hc
    · intro id c name hc
      cases hc
    · intro r hr
      cases hr
    · intro r hr
      cases hr
    · intro id c hc
      cases hc
    · intro id r hr
      cases hr
  numbered := by
    intro id c hc
    cases hc
  jobs := by
    intro job hjob
    cases hjob
  begun := by
    intro id r job hr
    cases hr
  tended := by
    intro id r conn msg hr
    cases hr

section Sound
variable {host : Host}

theorem terms_harmless (task : Task) (r r' : RelayState) (h : (task.terms host).may r r') : Harmless r r' :=
  May.harmless h

theorem terms_opens (task : Task) (r : RelayState) (job : Job) (h : (task.terms host).tells r (.spawn job)) :
    ∃ own, Opens own job := ⟨task.own, h.1⟩

theorem stays {s s' : RelayState} {conn : String} (h : ∃ c, s.connections.get conn = some c)
    (hsame : (s'.connections.get conn).map ConnectionState.grant = (s.connections.get conn).map ConnectionState.grant) :
    ∃ c, s'.connections.get conn = some c := by
  obtain ⟨c, hc⟩ := h
  rw [hc] at hsame
  obtain ⟨c', hc', -⟩ := Option.map_eq_some_iff.1 hsame
  exact ⟨c', hc'⟩

variable {s : System} {r : RelayState}

theorem Sound.run {t : System} {e : Happening Task Answer Empty} (h : Sound host s)
    (hharmless : Harmless s.relay r) (hbeside : Beside s r t)
    (hjob : ∀ job, e = .start (.job job) → ∃ own, Opens own job)
    (hmessage : ∀ conn msg, e = .start (.message conn msg) → ∃ c, s.relay.connections.get conn = some c) :
    Sound host (t.run e).1 := by
  have hkeeps := hbeside.keeps h.keeps ⟨hharmless.keeps host h.keeps.inv.1, hharmless.held h.keeps.inv.2⟩
  have hrelay : t.relay = r := congrArg World.shared hbeside.world
  have hwithin : ∀ task, e = .start task → task.program.Within (task.terms host) (fun _ _ => True) t.relay :=
    fun task _ => task.program_kept _ hkeeps.inv
  have hrun := run_harmless hkeeps (fun _ => rfl) terms_harmless hwithin
  have hsame : ∀ id, ((t.run e).1.relay.connections.get id).map ConnectionState.grant =
      (s.relay.connections.get id).map ConnectionState.grant := by
    intro id
    rw [hrun.grants id, hrelay]
    exact hharmless.grants id
  refine ⟨?_, ?_, ?_, ?_, ?_⟩
  · refine keeps_moves (t.run_moves e) hkeeps (fun _ => rfl) ?_ (fun e' _ => e'.elim) hwithin
    exact fun _ _ _ _ _ _ _ _ => ⟨hkeeps.inv, trivial⟩
  · exact numbered_of_grants h.numbered (Nat.le_of_eq hbeside.next.symm) hsame
  · intro job hmem
    cases run_jobs hmem with
    | inl hold => exact h.jobs job (hbeside.jobs job hold)
    | inr hnew =>
      obtain ⟨task, -, r', -, hsays⟩ := run_tells hkeeps (fun _ => rfl) hwithin hnew
      exact terms_opens task r' job hsays
  · intro id running job hget hrunning
    cases job_moves (t.run_moves e) hget with
    | inl hold =>
      obtain ⟨old, hold, hsame⟩ := hold
      rw [hbeside.world] at hold
      exact h.begun id old job hold (hsame.trans hrunning)
    | inr hnew => exact hjob job (by rw [hnew, hrunning])
  · intro id running conn msg hget hrunning
    refine stays ?_ (hsame conn)
    cases job_moves (t.run_moves e) hget with
    | inl hold =>
      obtain ⟨old, hold, hjobs⟩ := hold
      rw [hbeside.world] at hold
      exact h.tended id old conn msg hold (hjobs.trans hrunning)
    | inr hnew => exact hmessage conn msg (by rw [hnew, hrunning])

theorem Starts.job_pending {e : SystemEvent} {job : Job} (h : Starts s e (.job job) r)
    (hjobs : ∀ job ∈ s.jobs, ∃ own, Opens own job) : ∃ own, Opens own job := by
  generalize htask : Task.job job = task at h
  cases h with
  | job hget =>
    cases htask
    exact hjobs job (mem_of_getElem? hget)
  | errand errand =>
    cases errand with
    | poll | sweep | sessionListing | recordingSize _ | recordingOver _ _ => cases htask
  | _ => cases htask

theorem Starts.message_from {e : SystemEvent} {conn : String} {msg : ClientMessage}
    (h : Starts s e (.message conn msg) r) : e = .next conn ∧ s.busy conn = false ∧
      ∃ c rest, s.relay.connection conn = some c ∧ c.queue = msg :: rest ∧
        r = s.relay.updateConnection (fun c => { c with queue := rest }) conn := by
  generalize htask : Task.message conn msg = task at h
  cases h with
  | message hc hqueue hbusy =>
    cases htask
    exact ⟨rfl, hbusy, _, _, hc, hqueue, rfl⟩
  | errand errand =>
    cases errand with
    | poll | sweep | sessionListing | recordingSize _ | recordingOver _ _ => cases htask
  | _ => cases htask

theorem Sound.beside {t : System} (h : Sound host s) (hbeside : Beside s r t)
    (hr : OwnClones host r ∧ Held (fun _ _ => True) r)
    (hgrants : ∀ id, (r.connections.get id).map ConnectionState.grant =
      (s.relay.connections.get id).map ConnectionState.grant) : Sound host t := by
  have hrelay : t.relay = r := congrArg World.shared hbeside.world
  refine ⟨hbeside.keeps h.keeps hr, ?_, fun job hjob => h.jobs job (hbeside.jobs job hjob), ?_, ?_⟩
  · refine numbered_of_grants h.numbered (Nat.le_of_eq hbeside.next.symm) fun id => ?_
    rw [hrelay]
    exact hgrants id
  · intro id running job hget
    rw [hbeside.world] at hget
    exact h.begun id running job hget
  · intro id running conn msg hget hrunning
    rw [hbeside.world] at hget
    rw [hrelay]
    exact stays (h.tended id running conn msg hget hrunning) (hgrants conn)

theorem sound_step (h : Sound host s) (e : SystemEvent) : Sound host (s.step e).1 := by
  have hmoves := s.step_moves e
  generalize s.step e = after at hmoves
  cases hmoves with
  | aside hharmless hbeside =>
    exact h.beside hbeside ⟨hharmless.keeps host h.keeps.inv.1, hharmless.held h.keeps.inv.2⟩ hharmless.grants
  | revoke tokens => exact { h with }
  | tick ms => exact h.beside (s.beside_withRelay _) ⟨h.keeps.inv.1.ticks ms, h.keeps.inv.2⟩ fun _ => rfl
  | connect grant token =>
    refine ⟨?_, ?_, h.jobs, h.begun, ?_⟩
    · exact h.keeps.withShared ⟨ownClones_connect h.keeps.inv.1 grant token, fun _ _ _ => trivial⟩
    · intro id c hc
      rw [get_connect] at hc
      split at hc
      · rename_i hid
        exact ⟨s.nextConn, Nat.lt_succ_self _, hid⟩
      · obtain ⟨n, hn, hname⟩ := h.numbered id c hc
        exact ⟨n, Nat.lt_succ_of_lt hn, hname⟩
    · intro id running conn msg hget hrunning
      obtain ⟨c, hc⟩ := h.tended id running conn msg hget hrunning
      rw [get_connect]
      split
      · exact ⟨_, rfl⟩
      · exact ⟨c, hc⟩
  | start hcause hharmless hbeside =>
    refine h.run hharmless hbeside (fun job hjob => ?_) fun conn msg hmessage => ?_
    · cases hjob
      exact hcause.job_pending h.jobs
    · cases hmessage
      obtain ⟨-, -, c, rest, hc, -⟩ := hcause.message_from
      exact ⟨c, hc⟩
  | exec id x =>
    exact h.run (harmless_refl _) s.beside_same (fun _ he => by cases he) fun _ _ he => by cases he
  | resume id =>
    exact h.run (harmless_refl _) s.beside_same (fun _ he => by cases he) fun _ _ he => by cases he

theorem sound_run (host : Host) (es : List SystemEvent) : Sound host ((systemMachine host).run es) :=
  (systemMachine host).run_invariant (sound_start host) (fun _ e h => sound_step h e) es

end Sound

end System

end Mtmux.Relay
