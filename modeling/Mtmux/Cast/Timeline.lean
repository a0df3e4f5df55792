import Mathlib.Tactic.Linarith

/-! What a player shows of a recording at a time: slices, the size in force, and idle time cut short. -/
namespace Mtmux.Casts
open List

inductive CastEventType where
  | o | r
  deriving DecidableEq

structure CastEvent where
  time : ℚ
  type : CastEventType
  data : List Char

structure CastHeader where
  width : Nat
  height : Nat

structure Cast where
  header : CastHeader
  events : List CastEvent

def number (digits : List Char) : Nat := digits.foldl (fun n c => 10 * n + (c.toNat - 48)) 0

def parseSize (data : List Char) : Option (Nat × Nat) :=
  match data.takeWhile Char.isDigit, data.dropWhile Char.isDigit with
  | c :: cols, 'x' :: r :: rows =>
    if (r :: rows).all Char.isDigit then some (number (c :: cols), number (r :: rows)) else none
  | _, _ => none

/-- `events[mid]` is always there. -/
def indexAt.go (events : List CastEvent) (t : ℚ) (low high found : Int) : Int :=
  if low ≤ high then
    if events[((low + high) / 2).toNat]?.any (·.time ≤ t) then go events t ((low + high) / 2 + 1) high ((low + high) / 2)
    else go events t low ((low + high) / 2 - 1) found
  else found
termination_by (high + 1 - low).toNat

def indexAt (cast : Cast) (t : ℚ) : Int := indexAt.go cast.events t 0 (cast.events.length - 1) (-1)

def slice (events : List CastEvent) (first last : Int) : List CastEvent := (events.take last.toNat).drop first.toNat

def sliceUpTo (cast : Cast) (t : ℚ) : List CastEvent := slice cast.events 0 (indexAt cast t + 1)

def sliceBetween (cast : Cast) (start stop : ℚ) : List CastEvent :=
  if stop ≤ start then [] else slice cast.events (indexAt cast start + 1) (indexAt cast stop + 1)

def sizeAt.go (t : ℚ) (size : Nat × Nat) : List CastEvent → Nat × Nat
  | [] => size
  | event :: events =>
    if t < event.time then size
    else if event.type ≠ .r then go t size events
    else match parseSize event.data with
      | some parsed => go t parsed events
      | none => go t size events

def sizeAt (cast : Cast) (t : ℚ) : Nat × Nat := sizeAt.go t (cast.header.width, cast.header.height) cast.events

def squashIdle.go (limit previousSource shift : ℚ) : List CastEvent → List CastEvent
  | [] => []
  | event :: events =>
    let gap := event.time - previousSource
    let shift := if limit < gap then shift + (gap - limit) else shift
    { event with time := event.time - shift } :: go limit event.time shift events

def squashIdle (events : List CastEvent) (limit : ℚ) : List CastEvent :=
  if limit ≤ 0 then events else squashIdle.go limit 0 0 events

def frames (cast : Cast) : ℚ → List ℚ → List CastEvent
  | _, [] => []
  | start, t :: ts => sliceBetween cast start t ++ frames cast t ts

def gaps : ℚ → List CastEvent → List ℚ
  | _, [] => []
  | start, event :: events => (event.time - start) :: gaps event.time events

def resize (event : CastEvent) : Option (Nat × Nat) := if event.type = .r then parseSize event.data else none

def Sorted (cast : Cast) : Prop := cast.events.Pairwise fun a b => a.time ≤ b.time

structure Timeline (limits : ℚ → Prop) (cast : Cast) : Prop where
  upTo : Sorted cast → ∀ t, sliceUpTo cast t = cast.events.filter (·.time ≤ t)
  size : Sorted cast → ∀ t, sizeAt cast t =
    (((cast.events.filter (·.time ≤ t)).filterMap resize).getLast?).getD (cast.header.width, cast.header.height)
  tiles : ∀ start ts, (start :: ts).Pairwise (· < ·) →
    frames cast start ts = sliceBetween cast start ((start :: ts).getLast (by simp))
  once : ∀ start stop, sliceBetween cast start stop <:+: cast.events
  kept : ∀ limit, limits limit →
    (squashIdle cast.events limit).map (fun event => (event.type, event.data)) =
      cast.events.map fun event => (event.type, event.data)
  squashed : ∀ limit, limits limit → gaps 0 (squashIdle cast.events limit) = (gaps 0 cast.events).map (min · limit)
  idempotent : ∀ limit, limits limit → squashIdle (squashIdle cast.events limit) limit = squashIdle cast.events limit

section Search
variable {cast : Cast} {events : List CastEvent} {t u : ℚ} {low high found : Int}

/-- The search answers with what it had found, or with an index in its range. -/
theorem indexAt.go_mem (events : List CastEvent) (t : ℚ) (low high found : Int) :
    go events t low high found = found ∨ low ≤ go events t low high found ∧ go events t low high found ≤ high := by
  induction low, high, found using indexAt.go.induct events t with
  | case1 low high found hrange hle ih =>
    rw [go, if_pos hrange, if_pos hle]
    omega
  | case2 low high found hrange hgt ih =>
    rw [go, if_pos hrange, if_neg hgt]
    omega
  | case3 low high found hrange =>
    rw [go, if_neg hrange]
    simp

/-- A later time has a later answer, in whatever order the events are: the two searches part where the later goes right. -/
theorem indexAt.go_mono (htu : t ≤ u) (hfound : found < low) : go events t low high found ≤ go events u low high found := by
  induction low, high, found using indexAt.go.induct events t with
  | case1 low high found hrange hle ih =>
    have hle' : events[((low + high) / 2).toNat]?.any (·.time ≤ u) = true := by
      cases hevent : events[((low + high) / 2).toNat]? with
      | none => simp [hevent] at hle
      | some event => simpa using (by simpa [hevent] using hle : event.time ≤ t).trans htu
    rw [go, if_pos hrange, if_pos hle, go.eq_def events u, if_pos hrange, if_pos hle']
    exact ih (by omega)
  | case2 low high found hrange hgt ih =>
    rw [go, if_pos hrange, if_neg hgt, go.eq_def events u, if_pos hrange]
    split
    · have hleft := go_mem events t low ((low + high) / 2 - 1) found
      have hright := go_mem events u ((low + high) / 2 + 1) high ((low + high) / 2)
      omega
    · exact ih hfound
  | case3 low high found hrange =>
    rw [go, if_neg hrange, go, if_neg hrange]

theorem indexAt_mono (cast : Cast) (htu : t ≤ u) : indexAt cast t ≤ indexAt cast u := indexAt.go_mono htu (by omega)

theorem indexAt_ge (cast : Cast) (t : ℚ) : -1 ≤ indexAt cast t := by
  have hmem := indexAt.go_mem cast.events t 0 (cast.events.length - 1) (-1)
  unfold indexAt
  omega

/-- On sorted events the search answers with the last index that is not later. -/
theorem indexAt.go_sorted (hsorted : events.Pairwise fun a b => a.time ≤ b.time) (hlow : 0 ≤ low)
    (hhigh : high < events.length) (hrange : low ≤ high + 1) (hfound : found = low - 1)
    (hleft : ∀ i, (h : i < events.length) → (i : Int) < low → events[i].time ≤ t)
    (hright : ∀ i, (h : i < events.length) → high < i → t < events[i].time) :
    ∀ i, (h : i < events.length) → (events[i].time ≤ t ↔ (i : Int) ≤ go events t low high found) := by
  induction low, high, found using indexAt.go.induct events t with
  | case1 low high found hle htime ih =>
    obtain ⟨mid, hmid⟩ : ∃ mid : Nat, (low + high) / 2 = mid := ⟨((low + high) / 2).toNat, by omega⟩
    have hlt : mid < events.length := by omega
    rw [go, if_pos hle, if_pos htime]
    simp only [hmid] at htime ih ⊢
    have hmidle : events[mid].time ≤ t := by simpa [hlt] using htime
    refine ih (by omega) hhigh (by omega) (by omega) (fun i hi hlow => ?_) hright
    by_cases heq : i = mid
    · simpa [heq] using hmidle
    · exact (pairwise_iff_getElem.1 hsorted i mid hi hlt (by omega)).trans hmidle
  | case2 low high found hle htime ih =>
    obtain ⟨mid, hmid⟩ : ∃ mid : Nat, (low + high) / 2 = mid := ⟨((low + high) / 2).toNat, by omega⟩
    have hlt : mid < events.length := by omega
    rw [go, if_pos hle, if_neg htime]
    simp only [hmid] at htime ih ⊢
    have hmidgt : t < events[mid].time := by simpa [hlt] using htime
    refine ih hlow (by omega) (by omega) hfound hleft fun i hi hhigh => ?_
    by_cases heq : i = mid
    · simpa [heq] using hmidgt
    · exact hmidgt.trans_le (pairwise_iff_getElem.1 hsorted mid i hlt hi (by omega))
  | case3 low high found hle =>
    rw [go, if_neg hle]
    intro i hi
    constructor
    · intro htime
      by_contra hlate
      exact absurd (hright i hi (by omega)) (not_lt.2 htime)
    · intro hearly
      exact hleft i hi (by omega)

theorem indexAt_sorted (hsorted : Sorted cast) (t : ℚ) :
    ∀ i, (h : i < cast.events.length) → (cast.events[i].time ≤ t ↔ (i : Int) ≤ indexAt cast t) :=
  indexAt.go_sorted hsorted le_rfl (by omega) (by omega) (by omega) (by omega) (by omega)

theorem sliceUpTo_eq (cast : Cast) (t : ℚ) : sliceUpTo cast t = cast.events.take (indexAt cast t + 1).toNat := by
  simp [sliceUpTo, slice]

theorem filter_eq_take {α : Type} {p : α → Bool} {l : List α} {n : Nat} (h : ∀ i, (hi : i < l.length) → (p l[i] ↔ i < n)) :
    l.filter p = l.take n := by
  induction l generalizing n with
  | nil => simp
  | cons a l ih =>
    have hhead := h 0 (by simp)
    cases n with
    | zero =>
      have hnone : ∀ x ∈ a :: l, ¬ p x := by
        intro x hx
        obtain ⟨i, hi, rfl⟩ := mem_iff_getElem.1 hx
        simp [h i hi]
      simpa using hnone
    | succ n =>
      rw [filter_cons_of_pos (by simpa using hhead), take_succ_cons, ih fun i hi => ?_]
      simpa using h (i + 1) (Nat.succ_lt_succ hi)

theorem sliceUpTo_sorted (hsorted : Sorted cast) (t : ℚ) : sliceUpTo cast t = cast.events.filter (·.time ≤ t) := by
  rw [sliceUpTo_eq, filter_eq_take fun i hi => ?_]
  have hiff := indexAt_sorted hsorted t i hi
  have hge := indexAt_ge cast t
  simp only [decide_eq_true_eq, hiff]
  omega

end Search

section Slices
variable {cast : Cast} {events : List CastEvent} {t : ℚ}

theorem slice_append {a b c : Int} (hab : a ≤ b) (hbc : b ≤ c) : slice events a b ++ slice events b c = slice events a c := by
  have htake : (events.take c.toNat).take b.toNat = events.take b.toNat := by
    rw [take_take, Nat.min_eq_left (Int.toNat_le_toNat hbc)]
  have hdrop : ((events.take c.toNat).drop a.toNat).drop (b.toNat - a.toNat) = (events.take c.toNat).drop b.toNat := by
    rw [drop_drop, Nat.add_sub_cancel' (Int.toNat_le_toNat hab)]
  unfold slice
  rw [← htake, drop_take, ← hdrop, take_append_drop]

theorem sliceBetween_eq (cast : Cast) {start stop : ℚ} (h : start ≤ stop) :
    sliceBetween cast start stop = slice cast.events (indexAt cast start + 1) (indexAt cast stop + 1) := by
  unfold sliceBetween
  split
  · rw [le_antisymm h ‹_›]
    simp [slice]
  · rfl

theorem sliceBetween_append (cast : Cast) {t u v : ℚ} (htu : t ≤ u) (huv : u ≤ v) :
    sliceBetween cast t u ++ sliceBetween cast u v = sliceBetween cast t v := by
  have hmono := indexAt_mono cast htu
  have hmono' := indexAt_mono cast huv
  rw [sliceBetween_eq cast htu, sliceBetween_eq cast huv, sliceBetween_eq cast (htu.trans huv),
    slice_append (by omega) (by omega)]

theorem sliceBetween_infix (cast : Cast) (start stop : ℚ) : sliceBetween cast start stop <:+: cast.events := by
  unfold sliceBetween slice
  split
  · exact nil_infix
  · exact (drop_suffix _ _).isInfix.trans ( take_prefix _ _).isInfix

theorem frames_eq (cast : Cast) (start : ℚ) (ts : List ℚ) (h : (start :: ts).Pairwise (· < ·)) :
    frames cast start ts = sliceBetween cast start ((start :: ts).getLast (by simp)) := by
  induction ts generalizing start with
  | nil => simp [frames, sliceBetween]
  | cons t ts ih =>
    obtain ⟨hlt, hrest⟩ := pairwise_cons.1 h
    have hlast : t ≤ (t :: ts).getLast (by simp) := by
      have hmem : (t :: ts).getLast (by simp) ∈ t :: ts := getLast_mem _
      obtain heq | htail := mem_cons.1 hmem
      · exact heq.ge
      · exact ((pairwise_cons.1 hrest).1 _ htail).le
    rw [frames, ih t hrest, sliceBetween_append cast (hlt t (by simp)).le hlast]
    simp

theorem sizeAt.go_eq (t : ℚ) (size : Nat × Nat) (hsorted : events.Pairwise fun a b => a.time ≤ b.time) :
    go t size events = (((events.filter (·.time ≤ t)).filterMap resize).getLast?).getD size := by
  induction events generalizing size with
  | nil => rfl
  | cons event events ih =>
    obtain ⟨hhead, hrest⟩ := pairwise_cons.1 hsorted
    unfold go
    split
    · rename_i hlate
      have hnone : (event :: events).filter (·.time ≤ t) = [] := by
        simpa [hlate] using fun e he => hlate.trans_le (hhead e he)
      simp [hnone]
    · rename_i htime
      rw [filter_cons_of_pos (by simpa using htime), filterMap_cons]
      have hlast (x y : Nat × Nat) (l : List (Nat × Nat)) : ((x :: l).getLast?).getD y = (l.getLast?).getD x := by
        cases l <;> simp [List.getLast?_cons]
      by_cases htype : event.type = .r
      · cases hsize : parseSize event.data <;> simp [resize, htype, hsize, ih _ hrest, hlast]
      · simp [resize, htype, ih _ hrest]

end Slices

section Squash
variable {limit previousSource shift : ℚ} {events : List CastEvent}

theorem squashIdle.go_kept (limit previousSource shift : ℚ) (events : List CastEvent) :
    (go limit previousSource shift events).map (fun event => (event.type, event.data)) =
      events.map fun event => (event.type, event.data) := by
  induction events generalizing previousSource shift with
  | nil => rfl
  | cons event events ih => simp [go, ih]

theorem squashIdle.gaps_go (limit previousSource shift : ℚ) (events : List CastEvent) :
    gaps (previousSource - shift) (go limit previousSource shift events) = (gaps previousSource events).map (min · limit) := by
  induction events generalizing previousSource shift with
  | nil => rfl
  | cons event events ih =>
    simp only [go, gaps, ih, map_cons, List.cons.injEq, and_true]
    split <;> grind

theorem squashIdle.go_small (h : ∀ gap ∈ gaps previousSource events, gap ≤ limit) :
    go limit previousSource 0 events = events := by
  induction events generalizing previousSource with
  | nil => rfl
  | cons event events ih =>
    simp only [gaps, mem_cons, forall_eq_or_imp] at h
    simp [go, not_lt.2 h.1, ih h.2]

theorem gaps_squashIdle (hlimit : 0 < limit) (events : List CastEvent) :
    gaps 0 (squashIdle events limit) = (gaps 0 events).map (min · limit) := by
  simpa [squashIdle, not_le.2 hlimit] using squashIdle.gaps_go limit 0 0 events

theorem squashIdle_idempotent (hlimit : 0 < limit) (events : List CastEvent) :
    squashIdle (squashIdle events limit) limit = squashIdle events limit := by
  have hsmall : ∀ gap ∈ gaps 0 (squashIdle events limit), gap ≤ limit := by
    simp [gaps_squashIdle hlimit]
  rw [squashIdle, if_neg (not_le.2 hlimit), squashIdle.go_small hsmall]

end Squash

/-- A positive limit caps every gap of a cast and changes nothing else; without one, idle time stays. -/
theorem timeline_of_cast (cast : Cast) :
    Timeline (0 < ·) cast ∧ ∀ limit ≤ 0, squashIdle cast.events limit = cast.events where
  left := {
    upTo := sliceUpTo_sorted
    size := fun hsorted t => sizeAt.go_eq t _ hsorted
    tiles := frames_eq cast
    once := sliceBetween_infix cast
    kept := fun limit hlimit => by simp [squashIdle, not_le.2 hlimit, squashIdle.go_kept]
    squashed := fun limit hlimit => gaps_squashIdle hlimit cast.events
    idempotent := fun limit hlimit => squashIdle_idempotent hlimit cast.events }
  right := fun limit hlimit => if_pos hlimit

/-- With a limit of zero, the second before the first event stays. -/
theorem idle_not_squashed : ¬ Timeline (fun _ => True) ⟨⟨80, 24⟩, [⟨1, .o, ['a']⟩]⟩ := by
  intro h
  have hgap := h.squashed 0 trivial
  simp [squashIdle, gaps] at hgap

end Mtmux.Casts
