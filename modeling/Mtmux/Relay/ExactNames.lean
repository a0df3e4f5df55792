import Mtmux.Relay.CloneNames
import Mtmux.Relay.MessageIds
import Mtmux.Relay.SystemRuns

/-! A command that names a session by `-t` acts on whatever tmux makes of the name. -/
namespace Mtmux.Relay
open Protocol List

def TmuxCommand.named : TmuxCommand → Option String
  | .killSession name | .renameSession name _ | .groupSession name _ => some name
  | .on (.session name) action =>
    match action with
    | .hasSession | .attachSession .. | .listWindows | .listPanes => some name
    | _ => none
  | .on (.windowOf name _) .listPanes => some name
  | _ => none

def Carries (s : System) (e : SystemEvent) (task : Task) (c : TmuxCommand) (sessions : List String) : Prop :=
  ∃ id x log next, e = .exec id x ∧ s.world.tasks.get id = some ⟨task, log, .asking (.tmux c) next⟩ ∧
    x.sessions = sessions

section Carries
variable {host : Host} {s : System} {e : SystemEvent} {task : Task} {c : TmuxCommand} {sessions : List String}

theorem Carries.mayCall (h : Carries s e task c sessions) (hs : System.Sound host s) : task.MayCall (.tmux c) := by
  obtain ⟨id, x, log, next, -, hget, -⟩ := h
  exact hs.keeps.asks hget

theorem Carries.attaches {size : Option TerminalSize} {readOnly : Bool} {name : String}
    (h : Carries s e task (.on (.session name) (.attachSession size readOnly)) sessions) (hs : System.Sound host s)
    (hclone : isCloneSession name = true) :
    readOnly = true ∧ ((∃ conn, IsCloneOf conn name) ∨ ∃ id, name = recordingCloneNameFor id) := by
  obtain ⟨grant, name', htask, htarget⟩ := (h.mayCall hs).attaches _ size readOnly rfl
  cases htarget
  obtain ⟨id, x, log, next, -, hget, -⟩ := h
  obtain ⟨own, hopens, -⟩ := hs.begun id _ _ hget htask
  obtain ⟨hreadOnly, hwhose⟩ := hopens hclone
  refine ⟨hreadOnly, ?_⟩
  cases hwhose with
  | inl hown => exact .inl ⟨hown.choose, hown.choose_spec.2⟩
  | inr hrecording => exact .inr hrecording

end Carries

section Aimed
variable (matchesPattern : String → String → Bool)

/-- The command of a step acts on the session of just the name it has, or on none. -/
def Exact (x : Machine.Entry System SystemEvent SystemOutput) : Prop :=
  ∀ task c sessions name hit, Carries x.pre x.event task c sessions → c.named = some name →
    resolve matchesPattern sessions name = some hit → hit = name

/-- The end of one connection's clone is not the end of another's, or of a recording's. -/
def Apart (x : Machine.Entry System SystemEvent SystemOutput) : Prop :=
  ∀ task sessions conn name hit, Carries x.pre x.event task (.killSession name) sessions → IsCloneOf conn name →
    resolve matchesPattern sessions name = some hit →
      (∀ other c, x.pre.relay.connection other = some c → c.cloneSession = some hit → other = conn) ∧
      ∀ r ∈ x.pre.relay.active, ∀ bridge, r.capture ≠ .session (some hit) bridge

def OwnEnd (x : Machine.Entry System SystemEvent SystemOutput) : Prop :=
  ∀ conn sessions name hit, Carries x.pre x.event (.removal conn) (.killSession name) sessions →
    resolve matchesPattern sessions name = some hit → IsCloneOf conn hit

/-- A pty on a clone only reads, and a view is made of no clone: nobody who asks for a clone comes to one. -/
def NoCloneAttached (x : Machine.Entry System SystemEvent SystemOutput) : Prop :=
  (∀ task size sessions name hit, Carries x.pre x.event task (.on (.session name) (.attachSession size false)) sessions →
    resolve matchesPattern sessions name = some hit → isCloneSession hit = false) ∧
  ∀ conn msg sessions target name hit, Carries x.pre x.event (.message conn msg) (.groupSession target name) sessions →
    (policy msg).write = false → resolve matchesPattern sessions target = some hit → isCloneSession hit = false

structure Aimed (x : Machine.Entry System SystemEvent SystemOutput) : Prop where
  exact : Exact matchesPattern x
  apart : Apart matchesPattern x
  ownEnd : OwnEnd matchesPattern x
  noCloneAttached : NoCloneAttached matchesPattern x

/-- Each name that a command of the step has is unambiguous among the sessions of that moment. -/
def ClearNames (x : Machine.Entry System SystemEvent SystemOutput) : Prop :=
  ∀ task c sessions name, Carries x.pre x.event task c sessions → c.named = some name →
    Unambiguous matchesPattern sessions name

variable {matchesPattern}

variable {x : Machine.Entry System SystemEvent SystemOutput}

theorem exact_iff : Exact matchesPattern x ↔ ClearNames matchesPattern x := by
  constructor
  · intro h task c sessions name hcarries hname
    exact resolve_exact.1 fun hit hhit => h task c sessions name hit hcarries hname hhit
  · intro h task c sessions name hit hcarries hname hhit
    exact resolve_exact.2 (h task c sessions name hcarries hname) hit hhit

/-- Where commands hit what they name, they leave the clones of others alone. -/
theorem aimed_of_exact {host : Host} (hids : ∀ n, isRecordingId (host.recordingId n) = true)
    (hs : System.Sound host x.pre) (h : Exact matchesPattern x) : Aimed matchesPattern x := by
  refine ⟨h, ?_, ?_, ?_, ?_⟩
  · intro task sessions conn name hit hcarries hclone hhit
    have hsame := h task _ sessions name hit hcarries rfl hhit
    subst hsame
    constructor
    · intro other c hc hother
      exact (hs.keeps.inv.1.clones other c hit hc hother).unique hclone
    · intro r hr bridge hcapture
      obtain ⟨n, hid⟩ := hs.keeps.inv.1.drawn r hr
      have hname := hs.keeps.inv.1.recorders r hr hit bridge hcapture
      rw [hid] at hname
      exact hclone.not_recording (hids n) hname
  · intro conn sessions name hit hcarries hhit
    have hsame := h _ _ sessions name hit hcarries rfl hhit
    subst hsame
    exact (hcarries.mayCall hs).kills hit rfl
  · intro task size sessions name hit hcarries hhit
    have hsame := h task _ sessions name hit hcarries rfl hhit
    subst hsame
    cases hclone : isCloneSession hit with
    | false => rfl
    | true =>
      obtain ⟨hreadOnly, -⟩ := hcarries.attaches hs hclone
      cases hreadOnly
  · intro conn msg sessions target name hit hcarries hpolicy hhit
    have hsame := h _ _ sessions target hit hcarries rfl hhit
    subst hsame
    cases (hcarries.mayCall hs).copies hit name rfl with
    | inl hsession => exact hsession
    | inr hwrites =>
      have hwrite := hwrites conn msg rfl
      rw [hpolicy] at hwrite
      cases hwrite

end Aimed

/-- In every run commands hit the sessions they name, and clones stay apart, just when each name is unambiguous at
the moment its command is carried out. -/
theorem commands_hit_their_names (host : Host) (hids : ∀ n, isRecordingId (host.recordingId n) = true)
    (matchesPattern : String → String → Bool) (es : List SystemEvent) :
    (∀ x ∈ (systemMachine host).trace es, Aimed matchesPattern x) ↔
      ∀ x ∈ (systemMachine host).trace es, ClearNames matchesPattern x := by
  constructor
  · intro h x hx
    exact exact_iff.1 (h x hx).exact
  · intro h x hx
    obtain ⟨before, e, after, -, hentry⟩ := ((systemMachine host).mem_trace es x).1 hx
    have hs : System.Sound host x.pre := by
      rw [hentry]
      exact System.sound_run host before
    exact aimed_of_exact hids hs (exact_iff.2 (h x hx))

/-- tmux does what it is told, with these sessions. -/
def agreed (sessions : List String) : Answer where
  sessions := sessions
  reply
    | .tmux (.killSession _) => .ok ()
    | .tmux (.groupSession ..) => .ok ()
    | .tmux (.on _ .hasSession) => .ok ()
    | .tmux (.on _ (.setOption ..)) => .ok ()
    | _ => .error ⟨none, "no such session"⟩

/-- The owner ends a session by its name. -/
def ownersKill : List SystemEvent :=
  [.connect fullGrant none, .message "conn-1" (.sessionKill "work"), .next "conn-1", .exec 0 (agreed ["work"])]

theorem owners_kill_aimed :
    ownersKill ≠ [] ∧ ∀ x ∈ (systemMachine sampleHost).trace ownersKill, Aimed (fun _ _ => false) x := by
  refine ⟨cons_ne_nil _ _, ?_⟩
  have hids : isRecordingId "rec_aaaaaaaaaaaaaaaa" = true := by decide +kernel
  refine (commands_hit_their_names sampleHost (fun _ => hids) (fun _ _ => false) ownersKill).2 ?_
  intro x hx task c sessions name hcarries hname
  obtain ⟨id, a, log, next, hevent, hget, hsessions⟩ := hcarries
  have hlast : ∀ y ∈ (systemMachine sampleHost).trace (ownersKill.take 3), ∀ id a, y.event ≠ .exec id a := by
    intro y hy id a
    have hcases : y.event = .connect fullGrant none ∨ y.event = .message "conn-1" (.sessionKill "work") ∨
        y.event = .next "conn-1" := by
      change y ∈ [_, _, _] at hy
      simp only [mem_cons, not_mem_nil, or_false] at hy
      exact hy.imp (fun h => by rw [h]; rfl) fun h => h.imp (fun h => by rw [h]; rfl) fun h => by rw [h]; rfl
    intro he
    rw [he] at hcases
    simp at hcases
  have htrace : (systemMachine sampleHost).trace ownersKill =
      (systemMachine sampleHost).trace (ownersKill.take 3) ++
        [(systemMachine sampleHost).entry ((systemMachine sampleHost).run (ownersKill.take 3))
          (.exec 0 (agreed ["work"]))] := (systemMachine sampleHost).trace_snoc (ownersKill.take 3) _
  rw [htrace] at hx
  cases mem_append.1 hx with
  | inl hearly => exact absurd hevent (hlast x hearly id a)
  | inr hkill =>
    rw [mem_singleton.1 hkill] at hevent hget
    cases hevent
    have hasked : ((systemMachine sampleHost).run (ownersKill.take 3)).world.tasks.get 0 =
        some ⟨.message "conn-1" (.sessionKill "work"), [], .asking (.tmux (.killSession "work")) _⟩ := rfl
    have hsame := hasked.symm.trans hget
    injection hsame with hsame
    injection hsame with htask hlog hstage
    injection hstage with hcall
    cases hcall
    cases hname
    rw [← hsessions]
    exact .inl (by decide +kernel)

/-- A share that may only look. -/
def viewerGrant : GrantRecord := { fullGrant with id := "grn_view", readOnly := true, files := .none }

def answered (task : Nat) (a : Answer) (calls : Nat) : List SystemEvent :=
  (List.replicate calls [.exec task a, .resume task]).flatten

def attaches (conn : String) (task : Nat) : List SystemEvent :=
  [.message conn (.sessionAttach "work" none none none), .next conn] ++ answered task (agreed ["work"]) 6

/-- The tenth and the first of ten viewers look at a session. The first one's clone is ended on the machine, and the
first one leaves. -/
def firstViewerLeaves : List SystemEvent :=
  List.replicate 10 (.connect viewerGrant none) ++ attaches "conn-10" 0 ++ attaches "conn-1" 1 ++ [.hangUp "conn-1"]

def removing (s : System) (id : Nat) : Option (String × String) :=
  match s.world.tasks.get id with
  | some ⟨.removal conn, _, .asking (.tmux (.killSession name)) _⟩ => some (conn, name)
  | _ => none

theorem carries_of_removing {s : System} {id : Nat} {conn name : String} (h : removing s id = some (conn, name))
    (x : Answer) : Carries s (.exec id x) (.removal conn) (.killSession name) x.sessions := by
  unfold removing at h
  split at h
  · rename_i conn' log name' next hget
    cases h
    exact ⟨id, x, log, next, rfl, hget, rfl⟩
  · cases h

theorem not_apart {host : Host} {s : System} {c : ConnectionState} (hremoving : removing s 2 =
      some ("conn-1", "__mtmux_grn_view_conn-1")) (hc : s.relay.connection "conn-10" = some c)
    (hclone : c.cloneSession = some "__mtmux_grn_view_conn-10") (matchesPattern : String → String → Bool) :
    ¬ Apart matchesPattern ((systemMachine host).entry s (.exec 2 (agreed ["work", "__mtmux_grn_view_conn-10"]))) := by
  intro hapart
  have hcarries := carries_of_removing hremoving (agreed ["work", "__mtmux_grn_view_conn-10"])
  have hown : IsCloneOf "conn-1" "__mtmux_grn_view_conn-1" := ⟨⟨1, by decide +kernel⟩, "grn_view", by decide +kernel⟩
  have hbegins : only (["work", "__mtmux_grn_view_conn-10"].filter fun name =>
      name.startsWith "__mtmux_grn_view_conn-1") = some "__mtmux_grn_view_conn-10" := by decide +kernel
  have hhit : resolve matchesPattern ["work", "__mtmux_grn_view_conn-10"] "__mtmux_grn_view_conn-1" =
      some "__mtmux_grn_view_conn-10" := by
    unfold resolve
    rw [if_neg (by decide +kernel), hbegins]
    rfl
  have hsame := (hapart _ _ _ _ _ hcarries hown hhit).1 "conn-10" c hc hclone
  exact absurd hsame (by decide +kernel)

/-- The first viewer's clone is gone, and the tenth viewer's is ended in its stead. -/
theorem ends_another_clone : isRecordingId (sampleHost.recordingId 0) = true ∧
    ∃ x ∈ (systemMachine sampleHost).trace (firstViewerLeaves ++ [.exec 2 (agreed ["work", "__mtmux_grn_view_conn-10"])]),
      ∀ matchesPattern, ¬ Apart matchesPattern x := by
  refine ⟨by decide +kernel, (systemMachine sampleHost).entry ((systemMachine sampleHost).run firstViewerLeaves)
    (.exec 2 (agreed ["work", "__mtmux_grn_view_conn-10"])), ?_, fun matchesPattern => ?_⟩
  · rw [Machine.trace_snoc]
    exact mem_append_right _ mem_cons_self
  · have hremoving : removing ((systemMachine sampleHost).run firstViewerLeaves) 2 =
        some ("conn-1", "__mtmux_grn_view_conn-1") := by decide +kernel
    have hother : (((systemMachine sampleHost).run firstViewerLeaves).relay.connection "conn-10").bind
        ConnectionState.cloneSession = some "__mtmux_grn_view_conn-10" := by decide +kernel
    obtain ⟨c, hc, hclone⟩ := Option.bind_eq_some_iff.1 hother
    exact not_apart hremoving hc hclone matchesPattern

end Mtmux.Relay
