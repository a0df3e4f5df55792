import Mathlib.Algebra.Order.BigOperators.Group.List
import Mathlib.Algebra.Order.Ring.Nat
import Mtmux.Relay.Policy

/-! What the narrower of two grants permits, beside what each of them does. -/
namespace Mtmux.Relay
open Protocol List

/-- A thing that a grant is asked for. -/
inductive Ask where
  | session (id name : String) (tmuxServerPid : Option Nat)
  | recording (id : String)
  | files (access : FileAccess)
  | writing
  | active (now : Nat)

def allowsAsk (grant : GrantRecord) : Ask → Bool
  | .session id name pid => allowsSession grant ⟨some id, name⟩ pid
  | .recording id => allowsRecording grant id
  | .files access => filesEnough (some access) grant.files
  | .writing => !grant.readOnly
  | .active now => isGrantActive grant now

def NeverWidens (a b : GrantRecord) : Prop :=
  ∀ ask, allowsAsk (narrower a b) ask = true → allowsAsk a ask = true ∧ allowsAsk b ask = true

def sharedSessions (a b : GrantRecord) : List GrantSession :=
  match a.scope, b.scope with
  | .all, .sessions other => other
  | .sessions listed, .sessions other => listed.filter fun s => (other.map GrantSession.id).contains s.id
  | _, _ => []

/-- The names that the narrower grant has are not taken for those of another server than `b` means. -/
def NamesAgree (a b : GrantRecord) : Prop :=
  a.tmuxServerPid = none ∨ sharedSessions a b = [] ∨
    a.tmuxServerPid = b.tmuxServerPid ∧ ∀ s ∈ sharedSessions a b, s.name ∈ b.scope.names

/-- The server that runs is another one than the grant was pinned against. -/
def ServerChanged (grant : GrantRecord) (pid : Option Nat) : Prop :=
  ∃ p q, grant.tmuxServerPid = some p ∧ pid = some q ∧ p ≠ q

theorem allowsSession_sessions {grant : GrantRecord} {listed : List GrantSession} (h : grant.scope = .sessions listed)
    (id name : String) (pid : Option Nat) : allowsSession grant ⟨some id, name⟩ pid = true ↔
      (id ≠ "" ∧ ∃ s ∈ listed, s.id = id) ∨ (ServerChanged grant pid ∧ ∃ s ∈ listed, s.name = name) := by
  have hchanged : (grant.tmuxServerPid.isSome && pid.isSome && decide (grant.tmuxServerPid ≠ pid)) = true ↔
      ServerChanged grant pid := by
    unfold ServerChanged
    cases grant.tmuxServerPid with
    | none => simp
    | some p =>
      cases pid with
      | none | some _ => simp
  simp only [allowsSession, h, Bool.or_eq_true, Bool.and_eq_true, any_eq_true, decide_eq_true_eq] at hchanged ⊢
  rw [hchanged]

theorem minNullable_none {a b : Option Nat} : minNullable a b = none ↔ a = none ∧ b = none := by
  cases a <;> cases b <;> simp [minNullable]

theorem minNullable_all {a b : Option Nat} {now : Nat} (h : (minNullable a b).all (fun t => decide (now < t)) = true) :
    a.all (fun t => decide (now < t)) = true ∧ b.all (fun t => decide (now < t)) = true := by
  cases a with
  | none => exact ⟨rfl, h⟩
  | some a =>
    cases b with
    | none => exact ⟨h, rfl⟩
    | some b =>
      simp only [minNullable, Option.all_some, decide_eq_true_eq] at h ⊢
      omega

variable {a b : GrantRecord}

theorem permits_active {now : Nat} (h : allowsAsk (narrower a b) (.active now) = true) :
    allowsAsk a (.active now) = true ∧ allowsAsk b (.active now) = true := by
  simp only [allowsAsk, isGrantActive, narrower, Bool.and_eq_true, Option.isNone_iff_eq_none, minNullable_none] at h ⊢
  obtain ⟨⟨hrevoked, hrevoked'⟩, hexpires⟩ := h
  obtain ⟨hlater, hlater'⟩ := minNullable_all hexpires
  exact ⟨⟨hrevoked, hlater⟩, hrevoked', hlater'⟩

theorem permits_files {access : FileAccess} (h : allowsAsk (narrower a b) (.files access) = true) :
    allowsAsk a (.files access) = true ∧ allowsAsk b (.files access) = true := by
  revert h
  simp only [allowsAsk, narrower]
  cases a.files <;> cases b.files <;> cases access <;> decide

theorem permits_recording {id : String} (h : allowsAsk (narrower a b) (.recording id) = true) :
    allowsAsk a (.recording id) = true ∧ allowsAsk b (.recording id) = true := by
  revert h
  simp only [allowsAsk, allowsRecording, narrower]
  cases a.scope <;> cases b.scope <;> simp

theorem permits_writing (h : allowsAsk (narrower a b) .writing = true) :
    allowsAsk a .writing = true ∧ allowsAsk b .writing = true := by
  simpa [allowsAsk, narrower] using h

/-- An id that none of these is. -/
def freshId (ids : List String) : String := String.ofList (List.replicate ((ids.map String.length).sum + 1) 'x')

theorem freshId_length (ids : List String) : (freshId ids).length = (ids.map String.length).sum + 1 := by
  rw [freshId, String.length_ofList, length_replicate]

theorem freshId_not_mem (ids : List String) : freshId ids ∉ ids := by
  intro hmem
  have hle := single_le_sum (fun _ _ => Nat.zero_le _) _ (mem_map_of_mem (f := String.length) hmem)
  rw [freshId_length] at hle
  omega

section sessions
variable {a b : GrantRecord} {other : List GrantSession}

variable {s : GrantSession}

theorem shared_ids (hb : b.scope = .sessions other) (hs : s ∈ sharedSessions a b) : ∃ s' ∈ other, s'.id = s.id := by
  unfold sharedSessions at hs
  rw [hb] at hs
  cases ha : a.scope with
  | all =>
    rw [ha] at hs
    exact ⟨s, hs, rfl⟩
  | sessions listed =>
    rw [ha] at hs
    have hlisted := (mem_filter.1 hs).2
    exact mem_map.1 (contains_iff_mem.1 hlisted)
  | recordings listed =>
    rw [ha] at hs
    cases hs

theorem narrower_session (hb : b.scope = .sessions other) (id name : String) (pid : Option Nat) :
    allowsAsk (narrower a b) (.session id name pid) = true ↔ (id ≠ "" ∧ ∃ s ∈ sharedSessions a b, s.id = id) ∨
        (ServerChanged a pid ∧ ∃ s ∈ sharedSessions a b, s.name = name) := by
  cases ha : a.scope with
  | all | sessions _ =>
    have hscope : (narrower a b).scope = .sessions (sharedSessions a b) := by
      simp only [narrower, sharedSessions, ha, hb]
    exact allowsSession_sessions hscope id name pid
  | recordings listed =>
    simp [allowsAsk, allowsSession, narrower, sharedSessions, ha, hb]

variable {pid : Option Nat}

section
variable (hb : b.scope = .sessions other)
include hb

theorem narrower_session_a {id name : String}
    (h : allowsAsk (narrower a b) (.session id name pid) = true) : allowsAsk a (.session id name pid) = true := by
  rw [narrower_session hb] at h
  cases ha : a.scope with
  | all => simp only [allowsAsk, allowsSession, ha]
  | sessions listed =>
    have hsub : ∀ s ∈ sharedSessions a b, s ∈ listed := by
      intro s hs
      simp only [sharedSessions, ha, hb] at hs
      exact (mem_filter.1 hs).1
    refine (allowsSession_sessions ha id name pid).2 ?_
    cases h with
    | inl hid =>
      obtain ⟨hne, s, hs, hsid⟩ := hid
      exact .inl ⟨hne, s, hsub s hs, hsid⟩
    | inr hname =>
      obtain ⟨hchanged, s, hs, hsname⟩ := hname
      exact .inr ⟨hchanged, s, hsub s hs, hsname⟩
  | recordings listed => simp [sharedSessions, ha] at h

theorem widened (hs : s ∈ sharedSessions a b)
    (hchanged : ServerChanged a pid) (hb' : ¬ (ServerChanged b pid ∧ ∃ s' ∈ other, s'.name = s.name)) :
    ¬ NeverWidens a b := by
  intro hnever
  have hpermitted := (hnever (.session (freshId (other.map GrantSession.id)) s.name pid)
    ((narrower_session hb _ _ _).2 (.inr ⟨hchanged, s, hs, rfl⟩))).2
  cases (allowsSession_sessions hb _ _ _).1 hpermitted with
  | inl hid =>
    obtain ⟨-, s', hs', hid⟩ := hid
    exact freshId_not_mem (other.map GrantSession.id) (hid ▸ mem_map_of_mem hs')
  | inr hname => exact hb' hname

theorem names_mem : s.name ∈ b.scope.names ↔ ∃ s' ∈ other, s'.name = s.name := by
  rw [hb]
  exact mem_map

theorem namesAgree_of_never (h : NeverWidens a b) : NamesAgree a b := by
  cases hpid : a.tmuxServerPid with
  | none => exact .inl hpid
  | some p =>
    refine .inr ?_
    by_cases hnone : sharedSessions a b = []
    · exact .inl hnone
    refine .inr ?_
    obtain ⟨s, hs⟩ := exists_mem_of_ne_nil _ hnone
    have hnext : ServerChanged a (some (p + 1)) := ⟨p, p + 1, hpid, rfl, Nat.ne_of_lt (Nat.lt_succ_self p)⟩
    have hsame : b.tmuxServerPid = some p := by
      cases hother : b.tmuxServerPid with
      | none =>
        refine absurd h (widened hb hs hnext fun hchanged => ?_)
        obtain ⟨⟨q, r, hq, -, -⟩, -⟩ := hchanged
        rw [hother] at hq
        cases hq
      | some q =>
        by_cases hpq : q = p
        · rw [hpq]
        · refine absurd h (widened hb hs ⟨p, q, hpid, rfl, fun e => hpq e.symm⟩ fun hchanged => ?_)
          obtain ⟨⟨q', r, hq, hr, hne⟩, -⟩ := hchanged
          rw [hother] at hq
          cases hq
          cases hr
          exact hne rfl
    refine ⟨hpid.trans hsame.symm, fun s' hs' => ?_⟩
    by_contra hname
    exact widened hb hs' hnext (fun hchanged => hname ((names_mem hb).2 hchanged.2)) h

theorem session_of_namesAgree (h : NamesAgree a b) {id name : String}
    (hpermits : allowsAsk (narrower a b) (.session id name pid) = true) :
    allowsAsk b (.session id name pid) = true := by
  refine (allowsSession_sessions hb id name pid).2 ?_
  cases (narrower_session hb id name pid).1 hpermits with
  | inl hid =>
    obtain ⟨hne, s, hs, rfl⟩ := hid
    exact .inl ⟨hne, shared_ids hb hs⟩
  | inr hname =>
    obtain ⟨⟨p, q, hp, hq, hne⟩, s, hs, rfl⟩ := hname
    refine .inr ?_
    obtain hnone | hempty | ⟨hsame, hnames⟩ := h
    · rw [hnone] at hp
      cases hp
    · rw [hempty] at hs
      cases hs
    · exact ⟨⟨p, q, hsame.symm.trans hp, hq, hne⟩, (names_mem hb).1 (hnames s hs)⟩

end

end sessions

theorem session_unlisted (hb : ∀ other, b.scope ≠ .sessions other) {id name : String}
    {pid : Option Nat} (h : allowsAsk (narrower a b) (.session id name pid) = true) :
    allowsAsk a (.session id name pid) = true ∧ allowsAsk b (.session id name pid) = true := by
  cases hscope : b.scope with
  | all =>
    have hsame : (narrower a b).scope = a.scope := by
      simp only [narrower, hscope]
      cases a.scope <;> rfl
    have ha : allowsAsk (narrower a b) (.session id name pid) = allowsAsk a (.session id name pid) := by
      simp only [allowsAsk, allowsSession, hsame]
      rfl
    exact ⟨ha ▸ h, by simp only [allowsAsk, allowsSession, hscope]⟩
  | sessions other => exact absurd hscope (hb other)
  | recordings listed =>
    exfalso
    revert h
    cases ha : a.scope <;> simp [allowsAsk, allowsSession, narrower, ha, hscope]

/-- The narrower of two grants widens neither, exactly when the names it lists are those of `b`'s own server. -/
theorem narrower_iff (a b : GrantRecord) : NeverWidens a b ↔ NamesAgree a b := by
  by_cases hlists : ∃ other, b.scope = .sessions other
  · obtain ⟨other, hb⟩ := hlists
    refine ⟨namesAgree_of_never hb, fun hagree ask hpermits => ?_⟩
    cases ask with
    | session id name pid => exact ⟨narrower_session_a hb hpermits, session_of_namesAgree hb hagree hpermits⟩
    | recording id => exact permits_recording hpermits
    | files access => exact permits_files hpermits
    | writing => exact permits_writing hpermits
    | active now => exact permits_active hpermits
  · have hb : ∀ other, b.scope ≠ .sessions other := fun other he => hlists ⟨other, he⟩
    refine iff_of_true (fun ask hpermits => ?_) (.inr (.inl ?_))
    · cases ask with
      | session id name pid => exact session_unlisted hb hpermits
      | recording id => exact permits_recording hpermits
      | files access => exact permits_files hpermits
      | writing => exact permits_writing hpermits
      | active now => exact permits_active hpermits
    · unfold sharedSessions
      cases ha : a.scope <;> cases hscope : b.scope <;> simp_all

/-- Session `$1` was called `work` when it was shared from one server, and `play` when another share listed it. -/
def workGrant : GrantRecord := { fullGrant with scope := .sessions [⟨"$1", "work"⟩], tmuxServerPid := some 100 }
def playGrant : GrantRecord := { fullGrant with scope := .sessions [⟨"$1", "play"⟩], tmuxServerPid := some 200 }

/-- On a third server the narrower grant lets in a session called `work`, which the second does not. -/
theorem work_is_not_play : allowsAsk (narrower workGrant playGrant) (.session "$9" "work" (some 300)) = true ∧
      allowsAsk playGrant (.session "$9" "work" (some 300)) = false := by
  decide

end Mtmux.Relay
