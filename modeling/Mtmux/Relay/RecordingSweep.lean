import Mathlib.Data.List.Sort
import Mtmux.Relay.RecordingsIndex

/-! The sweep of the recordings at the start of the relay: what was left open is closed, and the disk cap is enforced. -/
namespace Mtmux.Relay
open List

/-- The rows of the index and, under its name, the size of each cast file. -/
structure Recordings where
  rows : List RecordingRow
  files : OrderedMap String Nat

namespace Recordings

/-- A row that a previous process left open. -/
def closeOut (row : RecordingRow) : RecordingRow :=
  match row.endedAt with
  | some _ => row
  | none => { row with endedAt := some row.startedAt, truncated := true, stopReason := some .interrupted }

def newestFirst (rows : List RecordingRow) : List RecordingRow :=
  rows.insertionSort fun a b => b.startedAt ≤ a.startedAt

structure Kept where
  total : Nat
  kept : List RecordingRow
  evicted : List RecordingRow

def Kept.next (cap : Nat) (s : Kept) (row : RecordingRow) : Kept :=
  if cap < s.total + row.bytes ∧ s.kept ≠ [] then { s with evicted := s.evicted ++ [row] }
  else { s with total := s.total + row.bytes, kept := s.kept ++ [row] }

def sweepRecordings (s : Recordings) (maxTotalBytes : Nat) : Recordings × Nat × Nat :=
  if s.rows = [] then (s, 0, 0)
  else
    let r := (newestFirst (s.rows.map closeOut)).foldl (Kept.next maxTotalBytes) ⟨0, [], []⟩
    (⟨r.kept.insertionSort fun a b => a.startedAt ≤ b.startedAt,
      r.evicted.foldl (fun files row => files.delete row.filename) s.files⟩,
      s.rows.countP fun row => row.endedAt.isNone, r.evicted.length)

def bytes (rows : List RecordingRow) : Nat := (rows.map RecordingRow.bytes).sum

def sizes (s : Recordings) (rows : List RecordingRow) : Nat :=
  (rows.map fun row => (s.files.get row.filename).getD 0).sum

/-- A sweep from `s` to `t` closes what is kept, and drops the oldest recordings only. -/
structure DropsOldest (cap : Nat) (s t : Recordings) : Prop where
  closed : ∀ row ∈ t.rows, row.endedAt ≠ none ∧ (row ∈ s.rows ∨ row.truncated = true)
  oldest : ∃ kept dropped, newestFirst (s.rows.map closeOut) = kept ++ dropped ∧ t.rows.Perm kept ∧
    (t.sizes kept ≤ cap ∨ kept.length = 1) ∧ (∀ row ∈ kept, t.files.get row.filename = s.files.get row.filename) ∧
    ∀ row ∈ dropped, t.files.get row.filename = none

def RunsOut (cap : Nat) (newer : List RecordingRow) (row : RecordingRow) : Prop :=
  (bytes newer ≤ cap ∨ newer.length = 1) ∧ newer ≠ [] ∧ cap < bytes newer + row.bytes

/-- No older recording fits where the budget runs out, none has the file of one that does, and files are not larger than
their rows say when there are several of them and these say that they fit. -/
structure Meets (cap : Nat) (s : Recordings) : Prop where
  gap : ∀ newer row older, newestFirst (s.rows.map closeOut) = newer ++ row :: older → RunsOut cap newer row →
    ∀ x ∈ older, cap < bytes newer + x.bytes
  apart : ∀ newer row older, newestFirst (s.rows.map closeOut) = newer ++ row :: older → RunsOut cap newer row →
    ∀ x ∈ newer, ∀ y ∈ row :: older, x.filename = y.filename → s.files.get x.filename = none
  sizes : ∀ newer, newer <+: newestFirst (s.rows.map closeOut) → 2 ≤ newer.length → bytes newer ≤ cap → s.sizes newer ≤ cap

section Loop
variable {cap : Nat} {s : Kept} {rows : List RecordingRow}

theorem bytes_append (a b : List RecordingRow) : bytes (a ++ b) = bytes a + bytes b := by simp [bytes]

theorem bytes_cons (row : RecordingRow) (rows : List RecordingRow) : bytes (row :: rows) = row.bytes + bytes rows := by
  simp [bytes]

theorem foldl_fits (h : s.total + bytes rows ≤ cap) :
    rows.foldl (Kept.next cap) s = ⟨s.total + bytes rows, s.kept ++ rows, s.evicted⟩ := by
  induction rows generalizing s with
  | nil => simp [bytes]
  | cons row rows ih =>
    rw [bytes_cons] at h ⊢
    have hstep : s.next cap row = ⟨s.total + row.bytes, s.kept ++ [row], s.evicted⟩ := if_neg (by omega)
    rw [foldl_cons, hstep, ih (by simp only; omega)]
    simp [Nat.add_assoc]

theorem foldl_none (hne : s.kept ≠ []) (h : ∀ x ∈ rows, cap < s.total + x.bytes) :
    rows.foldl (Kept.next cap) s = { s with evicted := s.evicted ++ rows } := by
  induction rows generalizing s with
  | nil => simp
  | cons row rows ih =>
    have hstep : s.next cap row = { s with evicted := s.evicted ++ [row] } := if_pos ⟨h row (by simp), hne⟩
    have hrest := ih (s := s.next cap row)
    simp only [hstep] at hrest
    rw [foldl_cons, hstep, hrest hne fun x hx => h x (by simp [hx])]
    simp

theorem kept_mono (cap : Nat) (rows : List RecordingRow) (s : Kept) :
    s.kept.length ≤ (rows.foldl (Kept.next cap) s).kept.length := by
  induction rows generalizing s with
  | nil => simp
  | cons row rows ih =>
    refine Nat.le_trans ?_ (ih (s.next cap row))
    unfold Kept.next
    split <;> simp

/-- When nothing more is kept, nothing more fits. -/
theorem none_of_kept (h : (rows.foldl (Kept.next cap) s).kept.length = s.kept.length) :
    ∀ x ∈ rows, cap < s.total + x.bytes := by
  induction rows generalizing s with
  | nil => simp
  | cons row rows ih =>
    by_cases hfits : cap < s.total + row.bytes ∧ s.kept ≠ []
    · have hstep : s.next cap row = { s with evicted := s.evicted ++ [row] } := if_pos hfits
      have hrest := ih (s := s.next cap row)
      simp only [hstep] at hrest
      rw [foldl_cons, hstep] at h
      simpa [hfits.1] using hrest h
    · have hstep : s.next cap row = ⟨s.total + row.bytes, s.kept ++ [row], s.evicted⟩ := if_neg hfits
      have hmono := kept_mono cap rows (s.next cap row)
      rw [foldl_cons] at h
      simp only [hstep, length_append, length_singleton] at h hmono
      omega

theorem foldl_counts (htotal : s.total = bytes s.kept) (hfits : s.kept.length ≤ 1 ∨ s.total ≤ cap) :
    bytes (rows.foldl (Kept.next cap) s).kept ≤ cap ∨ (rows.foldl (Kept.next cap) s).kept.length ≤ 1 := by
  induction rows generalizing s with
  | nil =>
    rw [foldl_nil, ← htotal]
    exact hfits.symm
  | cons row rows ih =>
    by_cases hnext : cap < s.total + row.bytes ∧ s.kept ≠ []
    · have hstep : s.next cap row = { s with evicted := s.evicted ++ [row] } := if_pos hnext
      exact ih (by simp [hstep, htotal]) (by simpa [hstep] using hfits)
    · have hstep : s.next cap row = ⟨s.total + row.bytes, s.kept ++ [row], s.evicted⟩ := if_neg hnext
      refine ih (by simp [hstep, htotal, bytes]) ?_
      by_cases hnil : s.kept = []
      · simp [hstep, hnil]
      · exact .inr (by simpa [hstep] using fun hlt => hnext ⟨hlt, hnil⟩)

/-- The newer rows fit, and nobody is dropped before the budget runs out. -/
theorem foldl_newer {newer : List RecordingRow} (h : bytes newer ≤ cap ∨ newer.length = 1) :
    newer.foldl (Kept.next cap) ⟨0, [], []⟩ = ⟨bytes newer, newer, []⟩ := by
  cases h with
  | inl hfits => simpa using foldl_fits (s := ⟨0, [], []⟩) (by simpa using hfits)
  | inr hone =>
    obtain ⟨row, rfl⟩ := length_eq_one_iff.1 hone
    simp [Kept.next, bytes]

/-- Either all rows fit, or the budget runs out at one of them. -/
theorem runs_out (cap : Nat) (rows : List RecordingRow) : (bytes rows ≤ cap ∨ rows.length ≤ 1) ∨
    ∃ newer row older, rows = newer ++ row :: older ∧ RunsOut cap newer row := by
  induction rows using List.reverseRecOn with
  | nil => simp
  | append_singleton rows row ih =>
    by_cases hsplit : ∃ newer row older, rows = newer ++ row :: older ∧ RunsOut cap newer row
    · obtain ⟨newer, late, older, rfl, hout⟩ := hsplit
      exact .inr ⟨newer, late, older ++ [row], by simp, hout⟩
    · have hfits := ih.resolve_right hsplit
      by_cases hmore : bytes rows + row.bytes ≤ cap ∨ rows = []
      · refine .inl (hmore.imp (fun hle => ?_) fun hnil => by simp [hnil])
        simpa [bytes] using hle
      · refine .inr ⟨rows, row, [], rfl, hfits.imp_right fun hone => ?_, fun hnil => hmore (.inr hnil), by omega⟩
        have hne : rows.length ≠ 0 := by simpa using fun hnil => hmore (.inr hnil)
        omega

end Loop

section Sweep
variable {cap : Nat} {s : Recordings} {newer older rows : List RecordingRow} {row : RecordingRow}

theorem get_dropped (rows : List RecordingRow) (files : OrderedMap String Nat) (name : String) :
    (rows.foldl (fun files row => files.delete row.filename) files).get name =
      if ∃ row ∈ rows, row.filename = name then none else files.get name := by
  induction rows generalizing files with
  | nil => simp
  | cons row rows ih =>
    rw [foldl_cons, ih, OrderedMap.get_delete]
    by_cases hrow : row.filename = name
    · simp [hrow]
    · simp [hrow, Ne.symm hrow]

/-- An empty index is left as it is, which makes no difference. -/
theorem sweep_eq {kept evicted : List RecordingRow} {total : Nat}
    (h : (newestFirst (s.rows.map closeOut)).foldl (Kept.next cap) ⟨0, [], []⟩ = ⟨total, kept, evicted⟩) :
    (s.sweepRecordings cap).1.rows.Perm kept ∧ ∀ name, (s.sweepRecordings cap).1.files.get name =
      if ∃ row ∈ evicted, row.filename = name then none else s.files.get name := by
  unfold sweepRecordings
  split
  · rename_i hnil
    rw [hnil] at h
    cases h
    simp [hnil]
  · rw [h]
    exact ⟨perm_insertionSort _ _, get_dropped evicted s.files⟩

/-- What the loop leaves when no older row fits any more. -/
theorem foldl_runsOut (hout : RunsOut cap newer row) (hgap : ∀ x ∈ older, cap < bytes newer + x.bytes) :
    (newer ++ row :: older).foldl (Kept.next cap) ⟨0, [], []⟩ = ⟨bytes newer, newer, row :: older⟩ := by
  rw [foldl_append, foldl_newer hout.1]
  exact foldl_none hout.2.1 (by simpa [hout.2.2] using hgap)

theorem gap_of_prefix (hout : RunsOut cap newer row) {kept dropped : List RecordingRow}
    (hsplit : newer ++ row :: older = kept ++ dropped)
    (hperm : ((newer ++ row :: older).foldl (Kept.next cap) ⟨0, [], []⟩).kept.Perm kept) :
    ∀ x ∈ older, cap < bytes newer + x.bytes := by
  have hcounts : bytes ((newer ++ row :: older).foldl (Kept.next cap) ⟨0, [], []⟩).kept ≤ cap ∨
      ((newer ++ row :: older).foldl (Kept.next cap) ⟨0, [], []⟩).kept.length ≤ 1 :=
    foldl_counts rfl (.inl (by simp))
  have hbytes := (hperm.map RecordingRow.bytes).sum_nat
  change bytes _ = bytes _ at hbytes
  have hlen := hperm.length_eq
  rw [hbytes, hlen] at hcounts
  rw [foldl_append, foldl_newer hout.1] at hlen
  have hmono := kept_mono cap (row :: older) ⟨bytes newer, newer, []⟩
  obtain ⟨hfits, hne, hmore⟩ := hout
  have hpos : newer.length ≠ 0 := by simpa using hne
  by_cases hlong : newer.length < kept.length
  · exfalso
    have hprefix : newer ++ [row] <+: newer ++ row :: older := ⟨older, by simp⟩
    obtain ⟨more, rfl⟩ : newer ++ [row] <+: kept :=
      prefix_of_prefix_length_le hprefix ⟨dropped, hsplit.symm⟩ (by simp; omega)
    simp only [bytes_append, length_append, bytes_cons] at hcounts
    simp at hcounts
    omega
  · have hsame : ((row :: older).foldl (Kept.next cap) ⟨bytes newer, newer, []⟩).kept.length = newer.length := by
      simp only at hmono
      omega
    exact fun x hx => none_of_kept hsame x (mem_cons_of_mem _ hx)

theorem sizes_congr {t : Recordings} (h : ∀ row ∈ rows, t.files.get row.filename = s.files.get row.filename) :
    t.sizes rows = s.sizes rows :=
  congrArg List.sum (map_congr_left fun row hrow => by rw [h row hrow])

theorem sizes_prefix (s : Recordings) (h : newer <+: rows) : s.sizes newer ≤ s.sizes rows := by
  obtain ⟨rest, rfl⟩ := h
  simp [sizes]

/-- The two ways a sweep goes that keeps a prefix. -/
theorem sweep_cases (h : ∀ newer row older, newestFirst (s.rows.map closeOut) = newer ++ row :: older →
    RunsOut cap newer row → ∀ x ∈ older, cap < bytes newer + x.bytes) : ∃ kept dropped, newestFirst (s.rows.map closeOut) = kept ++ dropped ∧
      (newestFirst (s.rows.map closeOut)).foldl (Kept.next cap) ⟨0, [], []⟩ = ⟨bytes kept, kept, dropped⟩ ∧
      (bytes kept ≤ cap ∨ kept.length = 1) ∧ (dropped = [] ∨ ∃ row older, dropped = row :: older ∧ RunsOut cap kept row) := by
  cases runs_out cap (newestFirst (s.rows.map closeOut)) with
  | inl hall =>
    have hfits : bytes (newestFirst (s.rows.map closeOut)) ≤ cap ∨ (newestFirst (s.rows.map closeOut)).length = 1 := by
      cases horder : newestFirst (s.rows.map closeOut) with
      | nil => simp [bytes]
      | cons row rows => simpa [horder] using hall
    exact ⟨_, [], (append_nil _).symm, foldl_newer hfits, hfits, .inl rfl⟩
  | inr hout =>
    obtain ⟨newer, row, older, horder, hout⟩ := hout
    have hfold := foldl_runsOut hout (h newer row older horder hout)
    rw [← horder] at hfold
    exact ⟨newer, row :: older, horder, hfold, hout.1, .inr ⟨row, older, rfl, hout⟩⟩

theorem closed_of_mem (h : row ∈ newestFirst (s.rows.map closeOut)) :
    row.endedAt ≠ none ∧ (row ∈ s.rows ∨ row.truncated = true) := by
  obtain ⟨old, hold, rfl⟩ := mem_map.1 ((perm_insertionSort _ _).mem_iff.1 h)
  unfold closeOut
  split
  · rename_i hended
    simp [hended, hold]
  · simp

end Sweep

/-- A sweep drops the oldest recordings, and no others, exactly when the recordings meet these conditions. -/
theorem drops_oldest_iff (cap : Nat) (s : Recordings) : DropsOldest cap s (s.sweepRecordings cap).1 ↔ Meets cap s := by
  constructor
  · intro h
    obtain ⟨kept', dropped', hsplit, hperm', hsizes, hkept, hgone⟩ := h.oldest
    have hgap (newer : List RecordingRow) (row : RecordingRow) (older : List RecordingRow)
        (horder : newestFirst (s.rows.map closeOut) = newer ++ row :: older) (hout : RunsOut cap newer row) :
        ∀ x ∈ older, cap < bytes newer + x.bytes := by
      refine gap_of_prefix hout (horder ▸ hsplit) ?_
      rw [← horder]
      exact (sweep_eq (rfl : _ = Kept.mk _ _ _)).1.symm.trans hperm'
    obtain ⟨kept, dropped, horder, hfold, hfits, hrest⟩ := sweep_cases hgap
    obtain ⟨hperm, -⟩ := sweep_eq hfold
    have hlen := (hperm.symm.trans hperm').length_eq
    obtain ⟨rfl, rfl⟩ := append_inj (horder.symm.trans hsplit) hlen
    refine ⟨hgap, fun newer row older heq hout x hx y hy hname => ?_, fun newer hnewer hlong hle => ?_⟩
    · have hfold' := foldl_runsOut hout (hgap newer row older heq hout)
      rw [← heq, hfold] at hfold'
      injection hfold' with _ hnewer holder
      subst hnewer holder
      rw [← hkept x hx, hname]
      exact hgone y hy
    · have hprefix : newer <+: kept := by
        obtain rfl | ⟨row, older, rfl, hout⟩ := hrest
        · simpa [horder] using hnewer
        · by_cases hshort : newer.length ≤ kept.length
          · exact prefix_of_prefix_length_le hnewer ⟨row :: older, horder.symm⟩ hshort
          · obtain ⟨more, rfl⟩ : kept ++ [row] <+: newer :=
              prefix_of_prefix_length_le ⟨older, by simp [horder]⟩ hnewer (by simp; omega)
            have hmore := hout.2.2
            simp only [bytes_append, bytes_cons] at hle
            omega
      have hle := sizes_prefix s hprefix
      have hlen := hprefix.length_le
      rw [sizes_congr hkept] at hsizes
      omega
  · intro h
    obtain ⟨kept, dropped, horder, hfold, hfits, hrest⟩ := sweep_cases h.gap
    obtain ⟨hperm, hfiles⟩ := sweep_eq hfold
    have hkept (row : RecordingRow) (hrow : row ∈ kept) :
        (s.sweepRecordings cap).1.files.get row.filename = s.files.get row.filename := by
      rw [hfiles]
      split
      · rename_i hshared
        obtain ⟨y, hy, hname⟩ := hshared
        obtain rfl | ⟨late, older, rfl, hout⟩ := hrest
        · cases hy
        · exact (h.apart kept late older horder hout row hrow y hy hname.symm).symm
      · rfl
    refine ⟨fun row hrow => closed_of_mem (horder ▸ mem_append_left _ (hperm.mem_iff.1 hrow)),
      kept, dropped, horder, hperm, ?_, hkept, fun row hrow => (hfiles _).trans (if_pos ⟨row, hrow, rfl⟩)⟩
    rw [sizes_congr hkept]
    match kept, hfits with
    | [], _ => exact .inl (Nat.zero_le _)
    | [row], _ => exact .inr rfl
    | row :: row' :: rows, hfits => exact .inl (h.sizes _ ⟨dropped, horder.symm⟩ (by simp) (hfits.resolve_right (by simp)))

def recordingOf (id : String) (startedAt bytes : Nat) : RecordingRow :=
  ⟨id, id ++ ".cast", .session "work", "work", 80, 24, startedAt, some (startedAt + 1), bytes, 1, false, some .ended⟩

def recordingsOf (rows : List RecordingRow) : Recordings :=
  ⟨rows, rows.foldl (fun files row => files.set row.filename row.bytes) .empty⟩

/-- The newest recording and the oldest one are kept, and the one between them is dropped. -/
theorem newer_one_dropped : ¬ DropsOldest 100 (recordingsOf [recordingOf "a" 1 30, recordingOf "b" 2 50, recordingOf "c" 3 60])
    ((recordingsOf [recordingOf "a" 1 30, recordingOf "b" 2 50, recordingOf "c" 3 60]).sweepRecordings 100).1 := by
  intro h
  obtain ⟨kept, dropped, hsplit, hperm, -⟩ := h.oldest
  have hlen : kept.length = 2 := hperm.length_eq.symm.trans (by decide)
  have hkept : recordingOf "b" 2 50 ∈ kept := by
    have htake : (kept ++ dropped).take 2 = kept := take_left' hlen
    rw [← htake, ← hsplit]
    decide
  exact absurd (hperm.mem_iff.2 hkept) (by decide)

end Recordings
end Mtmux.Relay
