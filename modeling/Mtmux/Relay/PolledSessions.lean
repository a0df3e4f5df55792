import Mathlib.Data.List.Nodup

/-! What the session monitor announces while its polls overlap: a listing is taken at one moment and compared with the
known sessions at another. -/
namespace Mtmux.Relay.PolledSessions
open List

inductive Change where
  | created (name : String)
  | exited (name : String)
  deriving DecidableEq

def Change.name : Change → String
  | .created name => name
  | .exited name => name

/-- `lives` has the sessions of each moment so far, `polls` the moments of the listings that wait to be compared, and
`compared` those of the others. The `log` has what was announced and when, the last first. -/
structure Monitor where
  lives : List (List String)
  polls : List Nat
  compared : List Nat
  knownSessions : List String
  log : List (Nat × Change)

inductive Event where
  | create (name : String)
  | kill (name : String)
  | poll
  | fail (n : Nat)
  | compare (n : Nat)

/-- The last that was announced of a session. -/
def last (log : List (Nat × Change)) (name : String) : Option (Nat × Change) := log.find? fun x => x.2.name = name

namespace Monitor

def start (sessions : List String) : Monitor := ⟨[sessions], [], [], [], []⟩

def now (s : Monitor) : Nat := s.lives.length - 1

/-- The sessions at a moment, as `listSessions` read them. -/
def listing (s : Monitor) (t : Nat) : List String := s.lives.getD t []

def change (s : Monitor) (sessions : List String) : Monitor := { s with lives := s.lives ++ [sessions] }

def exit (s : Monitor) (name : String) : Monitor :=
  { s with
    knownSessions := s.knownSessions.filter (· ≠ name)
    log := (s.now, .exited name) :: s.log }

def meet (s : Monitor) (name : String) : Monitor :=
  if name ∈ s.knownSessions then s
  else
    { s with
      knownSessions := s.knownSessions ++ [name]
      log := (s.now, .created name) :: s.log }

/-- First the sessions that exited, then the new ones. -/
def compare (s : Monitor) (sessions : List String) : Monitor :=
  sessions.foldl meet ((s.knownSessions.filter (· ∉ sessions)).foldl exit s)

def step (s : Monitor) : Event → Monitor
  | .create name => if name ∈ s.listing s.now then s else s.change (s.listing s.now ++ [name])
  | .kill name => s.change ((s.listing s.now).filter (· ≠ name))
  | .poll => { s with polls := s.polls ++ [s.now] }
  | .fail n => { s with polls := s.polls.eraseIdx n }
  | .compare n =>
    match s.polls[n]? with
    | none => s
    | some t => { s with polls := s.polls.eraseIdx n, compared := t :: s.compared }.compare (s.listing t)

def run (sessions : List String) (es : List Event) : Monitor := es.foldl step (start sessions)

/-- Sessions come and go in turn, and one that is said to have exited was away since it was announced. -/
structure Announced (s : Monitor) : Prop where
  created : ∀ t name older, (t, .created name) :: older <:+ s.log → ∀ u, last older name ≠ some (u, .created name)
  exited : ∀ t name older, (t, .exited name) :: older <:+ s.log → ∃ u, last older name = some (u, .created name) ∧
    ∃ m sessions, u ≤ m ∧ m ≤ t ∧ s.lives[m]? = some sessions ∧ name ∉ sessions

/-- And what is known when all polls are over is what the latest listing had. -/
structure Truthful (s : Monitor) : Prop extends Announced s where
  known : s.polls = [] → ∀ t ∈ s.compared, (∀ u ∈ s.compared, u ≤ t) →
    ∀ name, name ∈ s.knownSessions ↔ name ∈ s.listing t

/-- The listing that is compared is the known sessions, or it is no older than any that was compared and than the
announcement of a session that it misses. -/
def fresh (s : Monitor) : Event → Bool
  | .compare n => s.polls[n]?.all fun t =>
    (s.knownSessions.all (s.listing t).contains && (s.listing t).all s.knownSessions.contains) ||
      (s.compared.all (· ≤ t) &&
        s.knownSessions.all fun name => (s.listing t).contains name || (last s.log name).all fun x => x.1 ≤ t)
  | _ => true

def freshRun : Monitor → List Event → Bool
  | _, [] => true
  | s, e :: es => s.fresh e && (s.step e).freshRun es

variable {s : Monitor} {name other : String}

/-- The session was away at some moment since it was announced. -/
def Gone (s : Monitor) (name : String) : Prop :=
  ∃ u, last s.log name = some (u, .created name) ∧
    ∃ m sessions, u ≤ m ∧ m ≤ s.now ∧ s.lives[m]? = some sessions ∧ name ∉ sessions

/-- What holds between any two announcements. -/
structure Sound (s : Monitor) : Prop extends Announced s where
  logged : ∀ name, name ∈ s.knownSessions ↔ ∃ u, last s.log name = some (u, .created name)
  nodup : s.knownSessions.Nodup

theorem last_cons (x : Nat × Change) (log : List (Nat × Change)) (name : String) :
    last (x :: log) name = if x.2.name = name then some x else last log name := by
  by_cases h : x.2.name = name <;> simp [last, h]

theorem Sound.exit (h : s.Sound) (hgone : s.Gone name) : (s.exit name).Sound := by
  obtain ⟨u, hlast, hreal⟩ := hgone
  refine ⟨⟨?_, ?_⟩, ?_, h.nodup.filter _⟩
  · intro t other older hin
    obtain heq | hold := suffix_cons_iff.1 hin
    · cases heq
    · exact h.created t other older hold
  · intro t other older hin
    obtain heq | hold := suffix_cons_iff.1 hin
    · cases heq
      exact ⟨u, hlast, hreal⟩
    · exact h.exited t other older hold
  · intro other
    by_cases hname : name = other
    · simp [Monitor.exit, last_cons, Change.name, hname]
    · simp [Monitor.exit, last_cons, Change.name, hname, Ne.symm hname, h.logged]

theorem Gone.exit (h : s.Gone other) (hne : name ≠ other) : (s.exit name).Gone other := by
  obtain ⟨u, hlast, hreal⟩ := h
  exact ⟨u, by simp [Monitor.exit, last_cons, Change.name, hne, hlast], hreal⟩

theorem Sound.exits (names : List String) (h : s.Sound) (hnodup : names.Nodup) (hgone : ∀ name ∈ names, s.Gone name) :
    (names.foldl Monitor.exit s).Sound ∧
      ∀ name, name ∈ (names.foldl Monitor.exit s).knownSessions ↔ name ∈ s.knownSessions ∧ name ∉ names := by
  induction names generalizing s with
  | nil => simpa using h
  | cons name names ih =>
    obtain ⟨hnew, hnodup⟩ := nodup_cons.1 hnodup
    have hexit := h.exit (hgone name mem_cons_self)
    have hrest : ∀ other ∈ names, (s.exit name).Gone other := fun other hother =>
      (hgone other (mem_cons_of_mem name hother)).exit fun heq => hnew (heq ▸ hother)
    obtain ⟨hsound, hknown⟩ := ih hexit hnodup hrest
    refine ⟨hsound, fun other => ?_⟩
    rw [foldl_cons, hknown]
    simp only [Monitor.exit, mem_filter, mem_cons, decide_eq_true_eq]
    tauto

theorem Sound.meet (h : s.Sound) (name : String) : (s.meet name).Sound ∧
    ∀ other, other ∈ (s.meet name).knownSessions ↔ other ∈ s.knownSessions ∨ other = name := by
  unfold Monitor.meet
  split
  · rename_i hknown
    exact ⟨h, fun other => ⟨.inl, fun hother => hother.elim id fun heq => heq ▸ hknown⟩⟩
  · rename_i hnew
    refine ⟨⟨⟨?_, ?_⟩, ?_, ?_⟩, by simp⟩
    · intro t other older hin
      obtain heq | hold := suffix_cons_iff.1 hin
      · cases heq
        exact fun u hlast => hnew ((h.logged name).2 ⟨u, hlast⟩)
      · exact h.created t other older hold
    · intro t other older hin
      obtain heq | hold := suffix_cons_iff.1 hin
      · cases heq
      · exact h.exited t other older hold
    · intro other
      by_cases hname : name = other
      · simp [last_cons, Change.name, hname]
      · simp [last_cons, Change.name, hname, Ne.symm hname, h.logged]
    · refine nodup_append.2 ⟨h.nodup, nodup_singleton _, ?_⟩
      rintro a ha b hb rfl
      exact hnew (mem_singleton.1 hb ▸ ha)

theorem Sound.meets (names : List String) (h : s.Sound) : (names.foldl Monitor.meet s).Sound ∧
    ∀ name, name ∈ (names.foldl Monitor.meet s).knownSessions ↔ name ∈ s.knownSessions ∨ name ∈ names := by
  induction names generalizing s with
  | nil => simpa using h
  | cons name names ih =>
    obtain ⟨hmet, hknown⟩ := h.meet name
    obtain ⟨hsound, hrest⟩ := ih hmet
    refine ⟨hsound, fun other => ?_⟩
    rw [foldl_cons, hrest, hknown, mem_cons, or_assoc]

theorem Sound.compare (h : s.Sound) (sessions : List String)
    (hgone : ∀ name ∈ s.knownSessions, name ∉ sessions → s.Gone name) : (s.compare sessions).Sound ∧
    ∀ name, name ∈ (s.compare sessions).knownSessions ↔ name ∈ sessions := by
  obtain ⟨hexits, hleft⟩ := h.exits (s.knownSessions.filter (· ∉ sessions)) (h.nodup.filter _) fun name hname => by
    simp only [mem_filter, decide_eq_true_eq] at hname
    exact hgone name hname.1 hname.2
  obtain ⟨hsound, hknown⟩ := hexits.meets sessions
  refine ⟨hsound, fun name => ?_⟩
  rw [Monitor.compare, hknown, hleft]
  simp only [mem_filter, decide_eq_true_eq]
  tauto

/-- The rest of the state is as it was. -/
theorem compare_rest (s : Monitor) (sessions : List String) : (s.compare sessions).lives = s.lives ∧
    (s.compare sessions).polls = s.polls ∧ (s.compare sessions).compared = s.compared := by
  have hexits (names : List String) : ∀ s : Monitor, (names.foldl exit s).lives = s.lives ∧
      (names.foldl exit s).polls = s.polls ∧ (names.foldl exit s).compared = s.compared := by
    induction names with
    | nil => exact fun s => ⟨rfl, rfl, rfl⟩
    | cons name names ih => exact fun s => ih (s.exit name)
  have hmeets (names : List String) : ∀ s : Monitor, (names.foldl meet s).lives = s.lives ∧
      (names.foldl meet s).polls = s.polls ∧ (names.foldl meet s).compared = s.compared := by
    induction names with
    | nil => exact fun s => ⟨rfl, rfl, rfl⟩
    | cons name names ih =>
      intro s
      have hmeet : (s.meet name).lives = s.lives ∧ (s.meet name).polls = s.polls ∧
          (s.meet name).compared = s.compared := by
        unfold meet
        split <;> exact ⟨rfl, rfl, rfl⟩
      rw [foldl_cons, (ih _).1, (ih _).2.1, (ih _).2.2]
      exact hmeet
  rw [compare, (hmeets _ _).1, (hmeets _ _).2.1, (hmeets _ _).2.2]
  exact hexits _ s

structure Inv (s : Monitor) : Prop extends Sound s where
  known : ∀ t ∈ s.compared, (∀ u ∈ s.compared, u ≤ t) → ∀ name, name ∈ s.knownSessions ↔ name ∈ s.listing t
  past : ∀ t, t ∈ s.polls ∨ t ∈ s.compared → t < s.lives.length

theorem Inv.change (h : s.Inv) (sessions : List String) : (s.change sessions).Inv := by
  have hold {t : Nat} (ht : t < s.lives.length) : (s.lives ++ [sessions])[t]? = s.lives[t]? :=
    List.getElem?_append_left ht
  refine ⟨⟨⟨h.created, ?_⟩, h.logged, h.nodup⟩, ?_, ?_⟩
  · intro t name older hin
    obtain ⟨u, hlast, m, there, hu, hm, hlives, hno⟩ := h.exited t name older hin
    refine ⟨u, hlast, m, there, hu, hm, ?_, hno⟩
    exact (hold (List.getElem?_eq_some_iff.1 hlives).1).trans hlives
  · intro t ht hmax name
    refine (h.known t ht hmax name).trans ?_
    simp only [listing, Monitor.change, getD_eq_getElem?_getD, hold (h.past t (.inr ht))]
  · intro t ht
    have hlt := h.past t ht
    simp only [Monitor.change, length_append]
    omega

theorem Inv.compare (h : s.Inv) {n t : Nat} (hpoll : s.polls[n]? = some t) (hfresh : s.fresh (.compare n) = true) :
    (s.step (.compare n)).Inv := by
  have hpast : t < s.lives.length := h.past t (.inl (mem_of_getElem? hpoll))
  have hlives : s.lives[t]? = some (s.listing t) := by
    simp [listing, getD_eq_getElem?_getD, List.getElem?_eq_getElem hpast]
  simp only [fresh, hpoll, Option.all_some, Bool.or_eq_true, Bool.and_eq_true, all_eq_true,
    contains_iff_mem, decide_eq_true_eq] at hfresh
  have htaken : Sound { s with polls := s.polls.eraseIdx n, compared := t :: s.compared } :=
    ⟨⟨h.created, h.exited⟩, h.logged, h.nodup⟩
  obtain ⟨hsound, hknown⟩ := htaken.compare (s.listing t) fun name hname hmissing => by
    obtain ⟨hall, -⟩ | ⟨-, hlate⟩ := hfresh
    · exact absurd (hall name hname) hmissing
    · obtain ⟨u, hlast⟩ := (h.logged name).1 hname
      have hle := (hlate name hname).resolve_left hmissing
      rw [hlast, Option.all_some, decide_eq_true_eq] at hle
      exact ⟨u, hlast, t, s.listing t, hle, Nat.le_sub_one_of_lt hpast, hlives, hmissing⟩
  simp only [step, hpoll]
  obtain ⟨hlives', hpolls', hcompared'⟩ := compare_rest
    { s with polls := s.polls.eraseIdx n, compared := t :: s.compared } (s.listing t)
  generalize Monitor.compare _ (s.listing t) = after at *
  refine ⟨hsound, ?_, ?_⟩
  · intro t' ht' hmax name
    have hlisting : after.listing t' = s.listing t' := by rw [listing, hlives', listing]
    rw [hcompared'] at ht' hmax
    rw [hknown name, hlisting]
    obtain rfl | hold := mem_cons.1 ht'
    · rfl
    · obtain ⟨hall, hsome⟩ | ⟨hnewest, -⟩ := hfresh
      · have hthen := h.known t' hold (fun u hu => hmax u (mem_cons_of_mem t hu)) name
        exact Iff.trans ⟨hsome name, hall name⟩ hthen
      · rw [Nat.le_antisymm (hnewest t' hold) (hmax t mem_cons_self)]
  · intro t' ht'
    rw [hlives']
    rw [hpolls', hcompared', mem_cons] at ht'
    obtain hwaits | rfl | hold := ht'
    · exact h.past t' (.inl (mem_of_mem_eraseIdx hwaits))
    · exact hpast
    · exact h.past t' (.inr hold)

theorem Inv.step (h : s.Inv) {e : Event} (hlives : s.lives ≠ []) (hfresh : s.fresh e = true) : (s.step e).Inv := by
  cases e with
  | create name =>
    simp only [Monitor.step]
    split
    · exact h
    · exact h.change _
  | kill name => exact h.change _
  | poll =>
    refine ⟨⟨⟨h.created, h.exited⟩, h.logged, h.nodup⟩, h.known, fun t ht => ?_⟩
    have hpos := length_pos_iff.2 hlives
    simp only [Monitor.step, mem_append, mem_singleton, now] at ht ⊢
    obtain (hold | rfl) | hold := ht
    · exact h.past t (.inl hold)
    · omega
    · exact h.past t (.inr hold)
  | fail n =>
    refine ⟨⟨⟨h.created, h.exited⟩, h.logged, h.nodup⟩, h.known, fun t ht => ?_⟩
    exact h.past t (ht.imp_left mem_of_mem_eraseIdx)
  | compare n =>
    cases hpoll : s.polls[n]? with
    | none => simpa [Monitor.step, hpoll] using h
    | some t => exact h.compare hpoll hfresh

theorem lives_step (h : s.lives ≠ []) (e : Event) : (s.step e).lives ≠ [] := by
  cases e with
  | create name =>
    simp only [step]
    split
    · exact h
    · simp [change]
  | kill name => simp [step, change]
  | compare n =>
    simp only [step]
    split
    · exact h
    · rw [(compare_rest _ _).1]
      exact h
  | _ => exact h

theorem inv_run (es : List Event) (h : s.Inv) (hlives : s.lives ≠ []) (hfresh : s.freshRun es = true) :
    (es.foldl step s).Inv := by
  induction es generalizing s with
  | nil => exact h
  | cons e es ih =>
    rw [freshRun, Bool.and_eq_true] at hfresh
    exact ih (h.step hlives hfresh.1) (lives_step hlives e) hfresh.2

theorem inv_start (sessions : List String) : (start sessions).Inv := by
  refine ⟨⟨⟨?_, ?_⟩, ?_, nodup_nil⟩, ?_, ?_⟩ <;> simp [start, last]

/-- As long as every listing is compared with what was known when it was taken, sessions come and go in turn, none is
said to have exited that was there, and what is known is what the latest listing had. -/
theorem no_false_exit (sessions : List String) (es : List Event) (h : (start sessions).freshRun es = true) :
    (run sessions es).Truthful := by
  have hinv : (run sessions es).Inv := inv_run es (inv_start sessions) (by simp [start]) h
  exact ⟨hinv.toAnnounced, fun _ => hinv.known⟩

theorem no_false_exit_of_killed :
    (run ["main"] [.poll, .create "build", .poll, .compare 0, .compare 0, .kill "main", .poll, .compare 0]).Truthful :=
  no_false_exit _ _ (by decide +kernel)

/-- The listing of the first poll is slow, and a session is created meanwhile. -/
def slowListing : List Event := [.poll, .create "build", .poll, .compare 1, .compare 0]

/-- The session is said to have exited and is there all the time, and nobody knows it after both polls. -/
theorem live_session_exits : (run [] slowListing).log = [(1, .exited "build"), (1, .created "build")] ∧
    (run [] slowListing).lives = [[], ["build"]] ∧ (run [] slowListing).knownSessions = [] ∧
    ¬ (run [] slowListing).Truthful := by
  have hlog : (run [] slowListing).log = [(1, .exited "build"), (1, .created "build")] := by decide +kernel
  have hlives : (run [] slowListing).lives = [[], ["build"]] := by decide +kernel
  refine ⟨hlog, hlives, by decide +kernel, fun h => ?_⟩
  obtain ⟨u, hlast, m, there, hu, hm, hthere, hno⟩ := h.exited 1 "build" [(1, .created "build")] ⟨[], hlog.symm⟩
  have hu' : u = 1 := by
    have hlast' : last [(1, Change.created "build")] "build" = some (1, .created "build") := by decide +kernel
    rw [hlast'] at hlast
    cases hlast
    rfl
  have hm' : m = 1 := by omega
  rw [hlives, hm'] at hthere
  cases hthere
  exact hno (by decide +kernel)

end Monitor
end Mtmux.Relay.PolledSessions
