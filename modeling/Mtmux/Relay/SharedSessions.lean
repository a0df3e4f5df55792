import Mtmux.Relay.Grant
import Mtmux.Relay.Tmux

/-! Shares of tmux sessions over the life of the tmux server: which sessions a share made at one
moment opens at every later one. -/
namespace Mtmux.Relay
open Protocol List

/-- What the share commands choose beside the sessions. -/
structure ShareOptions where
  id : String
  label : String
  readOnly : Bool
  files : GrantFiles
  createdAt : Nat
  expiresAt : Option Nat
  tokenHash : String
  peerDeviceId : Option String

/-- `mtmux share` and `mtmux start --share` both leave the pid out. -/
def shareGrant (opts : ShareOptions) (sessions : List GrantSession) : GrantRecord where
  id := opts.id
  label := opts.label
  scope := .sessions sessions
  readOnly := opts.readOnly
  files := opts.files
  createdAt := opts.createdAt
  expiresAt := opts.expiresAt
  revokedAt := none
  tmuxServerPid := none
  tokenHash := opts.tokenHash
  peerDeviceId := opts.peerDeviceId

/-- The relay's answer to the share commands: every session but its own clones. -/
def handleSessionListing (t : TmuxServer) : List GrantSession :=
  (t.sessions.filter fun s => !isCloneSession s.name).map fun s => ⟨s.id, s.name⟩

/-- `wanted` is what the `--session` argument splits into. -/
def resolveShareSessions (live : List GrantSession) (wanted : List String) :
    Except String (List GrantSession) :=
  if wanted = [] then .error "Name at least one tmux session to share."
  else wanted.mapM fun name =>
    match live.find? fun s => s.name = name with
    | none => .error ("No tmux session called \"" ++ name ++
        "\". Run \x60mtmux status\x60 to see what is running.")
    | some found => .ok ⟨found.id, found.name⟩

/-- Every session the router's calls of `allowsSession` permit is the one that was shared, or,
after a restart, one whose name the grant lists. -/
def Follows (g : GrantRecord) (made now : TmuxServer) : Prop :=
  ∀ s ∈ now.sessions, allowsSession g ⟨some s.id, s.name⟩ none = true →
    (now.lifetime = made.lifetime ∧ ∃ s₀ ∈ made.sessions, s₀.id = s.id ∧ s₀.name ∈ g.scope.names) ∨
    (now.lifetime ≠ made.lifetime ∧ s.name ∈ g.scope.names)

def Repinned (g : GrantRecord) (made : TmuxServer) (x : Machine.Entry TmuxServer ServerEvent Empty) :
    Prop :=
  ∀ s, x.pre.given x.event = some s → x.pre.lifetime ≠ made.lifetime → s.id ∈ g.scope.ids →
    s.name ∈ g.scope.names

theorem mapM_except_mem {α β ε : Type} {f : α → Except ε β} {l : List α} {r : List β}
    (h : l.mapM f = .ok r) {b : β} (hb : b ∈ r) : ∃ a ∈ l, f a = .ok b := by
  induction l generalizing r with
  | nil =>
    cases h
    simp at hb
  | cons a l ih =>
    rw [mapM_cons] at h
    cases ha : f a with
    | error e =>
      rw [ha] at h
      cases h
    | ok b' =>
      cases hl : l.mapM f with
      | error e =>
        rw [ha, hl] at h
        cases h
      | ok r' =>
        rw [ha, hl] at h
        cases h
        simp only [mem_cons] at hb
        by_cases heq : b = b'
        · exact ⟨a, by simp, by rw [ha, heq]⟩
        · obtain ⟨a', ha', hf⟩ := ih hl (hb.resolve_left heq)
          exact ⟨a', mem_cons_of_mem a ha', hf⟩

variable {sessions : List GrantSession}

theorem shared_live {t : TmuxServer} {wanted : List String}
    (h : resolveShareSessions (handleSessionListing t) wanted = .ok sessions) {g : GrantSession}
    (hg : g ∈ sessions) : ∃ s ∈ t.sessions, s.id = g.id ∧ s.name = g.name := by
  unfold resolveShareSessions at h
  split at h
  · cases h
  · obtain ⟨name, -, hname⟩ := mapM_except_mem h hg
    split at hname
    · cases hname
    · rename_i found hfind
      cases hname
      have hmem := mem_of_find?_eq_some hfind
      simp only [handleSessionListing, mem_map, mem_filter] at hmem
      obtain ⟨s, ⟨hs, -⟩, rfl⟩ := hmem
      exact ⟨s, hs, rfl, rfl⟩

theorem follows_share {opts : ShareOptions} {made now : TmuxServer} {wanted : List String}
    (h : resolveShareSessions (handleSessionListing made) wanted = .ok sessions)
    (hlater : now.lifetime ≠ made.lifetime → ∀ s ∈ now.sessions,
      s.id ∈ (shareGrant opts sessions).scope.ids → s.name ∈ (shareGrant opts sessions).scope.names) :
    Follows (shareGrant opts sessions) made now := by
  intro s hs hallowed
  have hlisted : s.id ∈ (shareGrant opts sessions).scope.ids := by
    rcases (allowsSession_without_pid _ _ _).1 hallowed with hfull | hids
    · simp [isFullGrant, shareGrant] at hfull
    · exact hids.2
  by_cases hlife : now.lifetime = made.lifetime
  · left
    obtain ⟨shared, hshared, hid⟩ := mem_map.1 hlisted
    obtain ⟨s₀, hs₀, hid₀, hname₀⟩ := shared_live h hshared
    exact ⟨hlife, s₀, hs₀, hid₀.trans hid, mem_map.2 ⟨shared, hshared, hname₀.symm⟩⟩
  · exact .inr ⟨hlife, hlater hlife s hs hlisted⟩

theorem pinned_step {g : GrantRecord} {made t : TmuxServer} {e : ServerEvent}
    (hstep : Repinned g made (serverMachine.entry t e)) (hlife : made.lifetime ≤ t.lifetime)
    (h : t.lifetime ≠ made.lifetime → ∀ s ∈ t.sessions, s.id ∈ g.scope.ids → s.name ∈ g.scope.names) :
    made.lifetime ≤ (t.step e).lifetime ∧ ((t.step e).lifetime ≠ made.lifetime →
      ∀ s ∈ (t.step e).sessions, s.id ∈ g.scope.ids → s.name ∈ g.scope.names) := by
  rcases t.step_sessions e with ⟨hnone, hnext⟩ | ⟨hsame, hkept⟩
  · exact ⟨by omega, fun _ s hs => by simp [hnone] at hs⟩
  · refine ⟨by omega, fun hne s hs hid => ?_⟩
    rw [hsame] at hne
    rcases hkept s hs with hold | hgiven
    · exact h hne s hold hid
    · exact hstep s hgiven hne hid

theorem pinned_run {g : GrantRecord} {es fs : List ServerEvent} (hsteps : ∀ ks e, ks ++ [e] <+: fs →
      Repinned g (serverMachine.run es) (serverMachine.entry (serverMachine.run (es ++ ks)) e))
    (ks : List ServerEvent) (hks : ks <+: fs) :
    (serverMachine.run es).lifetime ≤ (serverMachine.run (es ++ ks)).lifetime ∧
      ((serverMachine.run (es ++ ks)).lifetime ≠ (serverMachine.run es).lifetime →
        ∀ s ∈ (serverMachine.run (es ++ ks)).sessions, s.id ∈ g.scope.ids → s.name ∈ g.scope.names) := by
  induction ks using List.reverseRecOn with
  | nil => simp
  | append_singleton ks e ih =>
    obtain ⟨hlife, hpinned⟩ := ih ((prefix_append ks [e]).trans hks)
    rw [← append_assoc, serverMachine.run_snoc]
    exact pinned_step (hsteps ks e hks) hlife hpinned

/-- A share follows its session over a whole run exactly when, once the server was restarted,
the ids of the grant only ever go with names of the grant. -/
theorem share_follows_iff (opts : ShareOptions) (es fs : List ServerEvent) (wanted : List String)
    (sessions : List GrantSession) (h : resolveShareSessions (handleSessionListing (serverMachine.run es)) wanted =
      .ok sessions) : (∀ ks, ks <+: fs →
      Follows (shareGrant opts sessions) (serverMachine.run es) (serverMachine.run (es ++ ks))) ↔
    ∀ ks e, ks ++ [e] <+: fs → Repinned (shareGrant opts sessions) (serverMachine.run es)
      (serverMachine.entry (serverMachine.run (es ++ ks)) e) := by
  constructor
  · intro hfollows ks e hks s hgiven hne hid
    have hmem : s ∈ (serverMachine.run (es ++ (ks ++ [e]))).sessions := by
      rw [← append_assoc, serverMachine.run_snoc]
      exact TmuxServer.given_mem hgiven
    have hlife : (serverMachine.run (es ++ (ks ++ [e]))).lifetime =
        (serverMachine.run (es ++ ks)).lifetime := by
      rw [← append_assoc, serverMachine.run_snoc] at hmem ⊢
      rcases (serverMachine.run (es ++ ks)).step_sessions e with ⟨hnone, -⟩ | ⟨hsame, -⟩
      · exact absurd (hnone ▸ hmem) (by simp)
      · exact hsame
    have hallowed : allowsSession (shareGrant opts sessions) ⟨some s.id, s.name⟩ none = true :=
      (allowsSession_without_pid _ _ _).2 (.inr ⟨TmuxServer.id_ne_empty hmem, hid⟩)
    rcases hfollows _ hks s hmem hallowed with ⟨hsame, -⟩ | ⟨-, hname⟩
    · exact absurd (hlife ▸ hsame) hne
    · exact hname
  · intro hsteps ks hks
    exact follows_share h (pinned_run hsteps ks hks).2

def sampleShare : ShareOptions where
  id := "grn_sample"
  label := "Share of work"
  readOnly := true
  files := .none
  createdAt := 0
  expiresAt := none
  tokenHash := ""
  peerDeviceId := none

/-- The shared session is `$0`; the server is restarted and another session becomes `$0`. -/
theorem share_follows_iff_rebooted : (∀ ks, ks <+: [.restart, .create "secrets"] →
      Follows (shareGrant sampleShare [⟨"$0", "work"⟩]) (serverMachine.run [.create "work"])
        (serverMachine.run ([.create "work"] ++ ks))) ↔ ∀ ks e, ks ++ [e] <+: [.restart, .create "secrets"] →
      Repinned (shareGrant sampleShare [⟨"$0", "work"⟩]) (serverMachine.run [.create "work"])
        (serverMachine.entry (serverMachine.run ([.create "work"] ++ ks)) e) :=
  share_follows_iff sampleShare [.create "work"] [.restart, .create "secrets"] ["work"]
    [⟨"$0", "work"⟩] (by decide +kernel)

theorem recycled_id_opens_another :
    resolveShareSessions (handleSessionListing (serverMachine.run [.create "work"])) ["work"] = .ok [⟨"$0", "work"⟩] ∧
    ¬ Follows (shareGrant sampleShare [⟨"$0", "work"⟩]) (serverMachine.run [.create "work"])
      (serverMachine.run [.create "work", .restart, .create "secrets"]) := by
  refine ⟨by decide +kernel, fun hfollows => ?_⟩
  have hmem : (⟨"$0", "secrets", "$0"⟩ : TmuxSession) ∈
      (serverMachine.run [.create "work", .restart, .create "secrets"]).sessions := by
    decide +kernel
  rcases hfollows _ hmem (by decide +kernel) with ⟨hlife, -⟩ | ⟨-, hname⟩
  · exact absurd hlife (by decide +kernel)
  · exact absurd hname (by decide +kernel)

end Mtmux.Relay
