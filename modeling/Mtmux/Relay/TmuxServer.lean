import Mtmux.Base.Machine
import Mtmux.Base.OrderedMap
import Mtmux.Base.Text
import Mtmux.Protocol.Messages

/-! The tmux server under the relay. Ids are fresh within one lifetime of the server and start
again at `$0` with the next. -/
namespace Mtmux.Relay
open Protocol List

/-- `group` is the session whose windows this one shows: itself, or the one it was cloned from. -/
structure TmuxSession where
  id : String
  name : String
  group : String
  deriving DecidableEq

def sessionId (n : Nat) : String := "$" ++ n.repr

theorem sessionId_inj {m n : Nat} (h : sessionId m = sessionId n) : m = n :=
  repr_inj ((String.append_right_inj "$").1 h)

theorem sessionId_ne_empty (n : Nat) : sessionId n ≠ "" := by
  intro h
  have hlist := congrArg String.toList h
  simp [sessionId] at hlist

structure TmuxServer where
  lifetime : Nat
  nextId : Nat
  sessions : List TmuxSession
  groups : List (String × String)
  windows : String → List WindowInfo
  panes : String → List PaneInfo
  born : List (String × String)
  ids_nodup : (sessions.map TmuxSession.id).Nodup
  names_nodup : (sessions.map TmuxSession.name).Nodup
  issued : ∀ s ∈ sessions, ∃ n < nextId, s.id = sessionId n
  grouped : ∀ s ∈ sessions, (s.id, s.group) ∈ groups
  windows_born : ∀ group, ∀ w ∈ windows group, (w.id, group) ∈ born
  panes_born : ∀ group, ∀ p ∈ panes group, (p.id, group) ∈ born
  born_once : ∀ id group group', (id, group) ∈ born → (id, group') ∈ born → group = group'

/-- What happens on the server: sessions come, are cloned, are renamed and go, their windows
change, and the server itself is restarted. -/
inductive ServerEvent where
  | create (name : String)
  | clone (id name : String)
  | rename (id newName : String)
  | kill (id : String)
  | relayout (group : String) (windows : List WindowInfo) (panes : List PaneInfo)
  | restart

namespace TmuxServer

def start (lifetime : Nat) : TmuxServer where
  lifetime := lifetime
  nextId := 0
  sessions := []
  groups := []
  windows _ := []
  panes _ := []
  born := []
  ids_nodup := nodup_nil
  names_nodup := nodup_nil
  issued := by simp
  grouped := by simp
  windows_born := by simp
  panes_born := by simp
  born_once := by simp

def session (t : TmuxServer) (id : String) : Option TmuxSession :=
  t.sessions.find? fun s => s.id = id

def Free (t : TmuxServer) (name : String) : Prop := ∀ s ∈ t.sessions, s.name ≠ name

instance (t : TmuxServer) (name : String) : Decidable (t.Free name) :=
  inferInstanceAs (Decidable (∀ s ∈ t.sessions, s.name ≠ name))

variable {s : TmuxSession}

theorem eq_of_id (t : TmuxServer) {s' : TmuxSession} (hs : s ∈ t.sessions)
    (hs' : s' ∈ t.sessions) (h : s.id = s'.id) : s = s' :=
  inj_on_of_nodup_map t.ids_nodup hs hs' h

theorem eq_of_name (t : TmuxServer) {s' : TmuxSession} (hs : s ∈ t.sessions)
    (hs' : s' ∈ t.sessions) (h : s.name = s'.name) : s = s' :=
  inj_on_of_nodup_map t.names_nodup hs hs' h

variable {t : TmuxServer}

theorem id_ne_empty (hs : s ∈ t.sessions) : s.id ≠ "" := by
  obtain ⟨n, -, hid⟩ := t.issued s hs
  rw [hid]
  exact sessionId_ne_empty n

theorem session_eq_some {id : String} : t.session id = some s ↔ s ∈ t.sessions ∧ s.id = id :=
  find_field t.ids_nodup

def add (t : TmuxServer) (name group : String) (h : t.Free name) : TmuxServer :=
  { t with
    nextId := t.nextId + 1
    sessions := t.sessions ++ [⟨sessionId t.nextId, name, group⟩]
    groups := (sessionId t.nextId, group) :: t.groups
    ids_nodup := by
      rw [map_append, nodup_append]
      refine ⟨t.ids_nodup, by simp, fun a ha b hb => ?_⟩
      obtain ⟨s, hs, rfl⟩ := mem_map.1 ha
      obtain ⟨n, hn, hid⟩ := t.issued s hs
      have hb : b = sessionId t.nextId := by simpa using hb
      rw [hid, hb]
      intro heq
      have := sessionId_inj heq
      omega
    names_nodup := by
      rw [map_append, nodup_append]
      refine ⟨t.names_nodup, by simp, fun a ha b hb => ?_⟩
      obtain ⟨s, hs, rfl⟩ := mem_map.1 ha
      have hb : b = name := by simpa using hb
      rw [hb]
      exact h s hs
    issued := by
      intro s hs
      rcases mem_append.1 hs with hs | hs
      · obtain ⟨n, hn, hid⟩ := t.issued s hs
        exact ⟨n, by omega, hid⟩
      · exact ⟨t.nextId, by omega, by rw [mem_singleton.1 hs]⟩
    grouped := by
      intro s hs
      rcases mem_append.1 hs with hs | hs
      · exact mem_cons_of_mem _ (t.grouped s hs)
      · rw [mem_singleton.1 hs]
        exact mem_cons_self }

def relabelled (id newName : String) (s : TmuxSession) : TmuxSession :=
  if s.id = id then { s with name := newName } else s

theorem relabelled_id (id newName : String) (s : TmuxSession) : (relabelled id newName s).id = s.id := by
  unfold relabelled
  split <;> rfl

theorem relabelled_group (id newName : String) (s : TmuxSession) : (relabelled id newName s).group = s.group := by
  unfold relabelled
  split <;> rfl

def relabel (t : TmuxServer) (id newName : String) (h : t.Free newName) : TmuxServer :=
  { t with
    sessions := t.sessions.map (relabelled id newName)
    ids_nodup := by
      rw [map_map]
      have hid : TmuxSession.id ∘ relabelled id newName = TmuxSession.id :=
        funext (relabelled_id id newName)
      rw [hid]
      exact t.ids_nodup
    names_nodup := by
      rw [map_map]
      refine List.Nodup.map_on ?_ (List.Nodup.of_map _ t.ids_nodup)
      intro s hs s' hs' heq
      simp only [Function.comp_apply, relabelled] at heq
      split at heq
      · rename_i hid
        split at heq
        · rename_i hid'
          exact t.eq_of_id hs hs' (hid.trans hid'.symm)
        · exact absurd heq.symm (h s' hs')
      · split at heq
        · exact absurd heq (h s hs)
        · exact t.eq_of_name hs hs' heq
    issued := by
      intro s hs
      obtain ⟨s₀, hs₀, rfl⟩ := mem_map.1 hs
      rw [relabelled_id]
      exact t.issued s₀ hs₀
    grouped := by
      intro s hs
      obtain ⟨s₀, hs₀, rfl⟩ := mem_map.1 hs
      rw [relabelled_id, relabelled_group]
      exact t.grouped s₀ hs₀ }

def remove (t : TmuxServer) (id : String) : TmuxServer :=
  { t with
    sessions := t.sessions.filter fun s => s.id ≠ id
    ids_nodup := (filter_sublist.map _).nodup t.ids_nodup
    names_nodup := (filter_sublist.map _).nodup t.names_nodup
    issued := fun s hs => t.issued s (mem_filter.1 hs).1
    grouped := fun s hs => t.grouped s (mem_filter.1 hs).1 }

/-- No id of another group's windows and panes. -/
def Fresh (t : TmuxServer) (group : String) (ids : List String) : Prop :=
  ∀ p ∈ t.born, p.1 ∈ ids → p.2 = group

instance (t : TmuxServer) (group : String) (ids : List String) : Decidable (t.Fresh group ids) :=
  inferInstanceAs (Decidable (∀ p ∈ t.born, p.1 ∈ ids → p.2 = group))

theorem mem_shown {ids : List String} {born : List (String × String)} {id group group' : String} :
    (id, group') ∈ ids.map (·, group) ++ born ↔ id ∈ ids ∧ group' = group ∨ (id, group') ∈ born := by
  simp [eq_comm]

/-- The group shows other windows and panes from now on. -/
def shown (t : TmuxServer) (group : String) (windows : List WindowInfo) (panes : List PaneInfo)
    (h : t.Fresh group (windows.map WindowInfo.id ++ panes.map PaneInfo.id)) : TmuxServer :=
  { t with
    windows := Function.update t.windows group windows
    panes := Function.update t.panes group panes
    born := (windows.map WindowInfo.id ++ panes.map PaneInfo.id).map (·, group) ++ t.born
    windows_born := by
      intro group' w hw
      rw [mem_shown]
      by_cases hgroup : group' = group
      · subst hgroup
        rw [Function.update_self] at hw
        exact .inl ⟨mem_append_left _ (mem_map_of_mem hw), rfl⟩
      · rw [Function.update_of_ne hgroup] at hw
        exact .inr (t.windows_born group' w hw)
    panes_born := by
      intro group' p hp
      rw [mem_shown]
      by_cases hgroup : group' = group
      · subst hgroup
        rw [Function.update_self] at hp
        exact .inl ⟨mem_append_right _ (mem_map_of_mem hp), rfl⟩
      · rw [Function.update_of_ne hgroup] at hp
        exact .inr (t.panes_born group' p hp)
    born_once := by
      intro id g g' hg hg'
      rw [mem_shown] at hg hg'
      rcases hg with ⟨hid, rfl⟩ | hg
      · rcases hg' with ⟨-, rfl⟩ | hg'
        · rfl
        · exact (h _ hg' hid).symm
      · rcases hg' with ⟨hid, rfl⟩ | hg'
        · exact h _ hg hid
        · exact t.born_once id g g' hg hg' }

def relayout (t : TmuxServer) (group : String) (windows : List WindowInfo)
    (panes : List PaneInfo) : TmuxServer :=
  if h : t.Fresh group (windows.map WindowInfo.id ++ panes.map PaneInfo.id) then
    t.shown group windows panes h
  else t

def step (t : TmuxServer) : ServerEvent → TmuxServer
  | .create name => if h : t.Free name then t.add name (sessionId t.nextId) h else t
  | .clone id name =>
    match t.session id with
    | none => t
    | some s => if h : t.Free name then t.add name s.group h else t
  | .rename id newName =>
    match t.session id with
    | none => t
    | some _ => if h : t.Free newName then t.relabel id newName h else t
  | .kill id => t.remove id
  | .relayout group windows panes => t.relayout group windows panes
  | .restart => start (t.lifetime + 1)

def given (t : TmuxServer) : ServerEvent → Option TmuxSession
  | .create name =>
    if t.Free name then some ⟨sessionId t.nextId, name, sessionId t.nextId⟩ else none
  | .clone id name =>
    match t.session id with
    | none => none
    | some s => if t.Free name then some ⟨sessionId t.nextId, name, s.group⟩ else none
  | .rename id newName =>
    match t.session id with
    | none => none
    | some s => if t.Free newName then some { s with name := newName } else none
  | _ => none

theorem step_sessions (t : TmuxServer) (e : ServerEvent) :
    ((t.step e).sessions = [] ∧ (t.step e).lifetime = t.lifetime + 1) ∨ ((t.step e).lifetime = t.lifetime ∧
        ∀ s ∈ (t.step e).sessions, s ∈ t.sessions ∨ t.given e = some s) := by
  have same (h : t.step e = t) : (t.step e).lifetime = t.lifetime ∧
      ∀ s ∈ (t.step e).sessions, s ∈ t.sessions ∨ t.given e = some s := by
    rw [h]
    exact ⟨rfl, fun s hs => .inl hs⟩
  cases e with
  | create name =>
    by_cases h : t.Free name
    · right
      simp [step, given, h, add, eq_comm]
    · exact .inr (same (by simp [step, h]))
  | clone id name =>
    cases hsession : t.session id with
    | none => exact .inr (same (by simp [step, hsession]))
    | some s₀ =>
      by_cases h : t.Free name
      · right
        simp [step, given, hsession, h, add, eq_comm]
      · exact .inr (same (by simp [step, hsession, h]))
  | rename id newName =>
    cases hsession : t.session id with
    | none => exact .inr (same (by simp [step, hsession]))
    | some s₀ =>
      by_cases h : t.Free newName
      · have hs₀ := session_eq_some.1 hsession
        right
        simp only [step, given, hsession, h, dif_pos, if_pos, relabel, true_and]
        intro s hs
        obtain ⟨s', hs', rfl⟩ := mem_map.1 hs
        by_cases hid : s'.id = id
        · have heq := t.eq_of_id hs' hs₀.1 (hid.trans hs₀.2.symm)
          subst heq
          exact .inr (by simp [relabelled, hid])
        · exact .inl (by simpa [relabelled, hid] using hs')
      · exact .inr (same (by simp [step, hsession, h]))
  | kill id => exact .inr ⟨rfl, fun s hs => .inl (mem_filter.1 hs).1⟩
  | relayout group windows panes =>
    right
    simp only [step, relayout]
    split
    · exact ⟨rfl, fun s hs => .inl hs⟩
    · exact ⟨rfl, fun s hs => .inl hs⟩
  | restart => exact .inl ⟨rfl, rfl⟩

theorem given_mem {e : ServerEvent} (h : t.given e = some s) : s ∈ (t.step e).sessions := by
  cases e with
  | create name =>
    by_cases hfree : t.Free name
    · simp only [given, hfree, if_pos, Option.some.injEq] at h
      simp [step, hfree, add, h]
    · simp [given, hfree] at h
  | clone id name =>
    cases hsession : t.session id with
    | none => simp [given, hsession] at h
    | some s₀ =>
      by_cases hfree : t.Free name
      · simp only [given, hsession, hfree, if_pos, Option.some.injEq] at h
        simp [step, hsession, hfree, add, h]
      · simp [given, hsession, hfree] at h
  | rename id newName =>
    cases hsession : t.session id with
    | none => simp [given, hsession] at h
    | some s₀ =>
      by_cases hfree : t.Free newName
      · simp only [given, hsession, hfree, if_pos, Option.some.injEq] at h
        have hs₀ := session_eq_some.1 hsession
        simp only [step, hsession, hfree, dif_pos, relabel, mem_map]
        exact ⟨s₀, hs₀.1, by rw [← h, relabelled, if_pos hs₀.2]⟩
      · simp [given, hsession, hfree] at h
  | _ => simp [given] at h

end TmuxServer

def serverMachine : Machine TmuxServer ServerEvent Empty where
  init := .start 0
  step t e := (t.step e, [])

end Mtmux.Relay
