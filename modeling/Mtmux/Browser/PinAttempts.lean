import Mtmux.Base.SerialOrder
import Mtmux.Browser.LockTurns

/-! Is every PIN that is tried counted? The counter lies in the record that every other call on the lock
writes back too. -/
namespace Mtmux.Browser
open Crypto OrderedMap Machine List

abbrev AttemptEntry : Type := Machine.Entry LockState LockEvent LockOutput

def LockState.atRest (s : LockState) : LockState := { s with calls := .empty }

def UpToDate (x : AttemptEntry) : Prop :=
  match x.event with
  | .goesOn id => ∀ work ∈ x.pre.calls.get id, x.pre.upToDate work = true
  | _ => True

instance (x : AttemptEntry) : Decidable (UpToDate x) :=
  match h : x.event with
  | .goesOn id => decidable_of_iff (∀ work ∈ x.pre.calls.get id, x.pre.upToDate work = true)
      (by simp only [UpToDate, h])
  | .opens | .closes _ | .begins _ _ | .passes _ => isTrue (by simp only [UpToDate, h])

def LockEvent.onRecord : LockEvent → Bool
  | .begins _ call => call.onRecord
  | _ => true

/-- The PINs tried since the last unlock. -/
def LockOutput.tally (guesses : Nat) : LockOutput → Nat
  | .guessed _ => guesses + 1
  | .unlocked _ _ => 0
  | _ => guesses

def guessesSince (out : List LockOutput) : Nat := out.foldl LockOutput.tally 0

/-- The attempt is counted here, and no lockout that is stored lies in the future. -/
def CountedAt (x : AttemptEntry) (id : Nat) : Prop :=
  ∃ work before record, x.event = .goesOn id ∧ x.pre.calls.get id = some work ∧
    work.phase = .counting before record ∧ x.pre.lock = some before ∧
    x.post.lock = some record ∧ ∀ time ∈ before.lockedUntil, time ≤ x.pre.now

/-- What a call that is over has come to: it has wiped the device, was refused in a locked tab, or wrote the record. -/
inductive LockEnd where
  | wiped | locked | wrote | returned

def LockOutput.ended (s : LockState) : LockOutput → Option (Nat × LockCall × LockEnd)
  | .done id => (s.calls.get id).map fun work => (id, work.call, if work.phase.writes then .wrote else .returned)
  | .threw id message => (s.calls.get id).map fun work =>
      (id, work.call, if message = lockedMessage then .locked else .returned)
  | .outcome id result => (s.calls.get id).map fun work =>
      (id, work.call, if result = .wiped then .wiped else .returned)
  | _ => none

def callsOver (entries : List AttemptEntry) : List (Nat × LockCall × LockEnd) :=
  entries.flatMap fun x => x.out.filterMap (LockOutput.ended x.pre)

/-- A call in an order of calls, with the key that its tab holds and the time. -/
structure LockAct where
  id : Nat
  call : LockCall
  come : LockEnd
  masterKey : Bytes
  time : Nat

/-- Only a call that was refused leaves the record as it is. -/
def LockAct.takes (record : Option LockRecord) (act : LockAct) : Option LockRecord :=
  match act.come with
  | .wiped => none
  | .locked => record
  | .wrote | .returned => record.map (act.call.edit act.masterKey act.time)

/-- When the call made its record, its tab held the key. -/
def HadKey (entries : List AttemptEntry) (act : LockAct) : Prop :=
  ∃ x ∈ entries, x.event = .goesOn act.id ∧ ∃ work read, x.pre.calls.get act.id = some work ∧ work.call = act.call ∧
    work.phase = .got read ∧ x.pre.keyOf work = some act.masterKey ∧ x.pre.now = act.time

/-- What the calls leave of a device with a lock. -/
structure AttemptsKept (derive : String → Bytes → Nat → Bytes) (start : LockState)
    (es : List LockEvent) : Prop where
  counted : ∀ record, ((lockMachine derive start.atRest).run es).lock = some record →
    guessesSince ((lockMachine derive start.atRest).outputs es) ≤ record.failedAttempts
  admitted : ∀ before e after id, es = before ++ e :: after →
    .guessed id ∈ (((lockMachine derive start.atRest).run before).step derive e).2 →
    ∃ x ∈ (lockMachine derive start.atRest).trace before, CountedAt x id
  serial : ∃ order : List LockAct,
    (order.map fun act => (act.id, act.call, act.come)).Perm
      (callsOver ((lockMachine derive start.atRest).trace es)) ∧
    (∀ act ∈ order, act.come = .wrote → HadKey ((lockMachine derive start.atRest).trace es) act) ∧
    order.foldl LockAct.takes start.view = ((lockMachine derive start.atRest).run es).view
  removed : ∀ first id factorId between later last,
    (lockMachine derive start.atRest).outputs es =
      first ++ .wrote id (.removeFactor factorId) :: between ++ .unlocked later factorId :: last →
    ∃ added kind factorKey salt iterations label,
      .wrote added (.addFactor kind factorKey factorId salt iterations label) ∈ between

/-- What the running calls carry. -/
def LockState.Known (s : LockState) : Prop :=
  ∀ id work, s.calls.get id = some work → work.Fact s.now ∧ work.Kind

/-- One step: the calls and the record are left alone, or one call takes its next step. -/
inductive Moves (s t : LockState) (e : LockEvent) : List LockOutput → Prop
  | quiet (hlock : t.lock = s.lock) (hnow : s.now ≤ t.now)
      (hcalls : ∀ id work, t.calls.get id = some work →
        s.calls.get id = some work ∨ work.phase = .reading ∧ work.call.onRecord = true) : Moves s t e []
  | turns {id : Nat} {work : LockWork} {out : List LockOutput} (he : e = .goesOn id)
      (hwork : s.calls.get id = some work) (hturns : Turns s id work t out) : Moves s t e out

section Steps
variable {derive : String → Bytes → Nat → Bytes} {s t : LockState} {id : Nat} {work : LockWork}
  {e : LockEvent} {out : List LockOutput}

theorem moves_begins {tabId : Nat} {tab : LockTab} {call : LockCall} (hcall : call.onRecord = true) :
    Moves s (s.begins tabId tab call).1 e (s.begins tabId tab call).2 := by
  have hstart : Moves s
      (LockState.goOn { s with next := s.next + 1 } s.next ⟨tabId, call, .reading⟩ .reading) e [] := by
    refine .quiet rfl le_rfl ?_
    intro id work hget
    change (s.calls.set s.next _).get id = some work at hget
    rw [get_set] at hget
    by_cases hid : id = s.next
    · rw [if_pos hid] at hget
      cases hget
      exact .inr ⟨rfl, hcall⟩
    · rw [if_neg hid] at hget
      exact .inl hget
  cases call with
  | addFactor | removeFactor | unlockWithPin | unlockWithFactorKey | updateLockSettings => exact hstart
  | _ => cases hcall

theorem moves_step {x : AttemptEntry} (hknown : x.pre.Known) (hevent : x.event.onRecord = true) (hdate : UpToDate x) :
    Moves x.pre (x.pre.step derive x.event).1 x.event (x.pre.step derive x.event).2 := by
  cases he : x.event with
  | opens => exact .quiet rfl le_rfl fun _ _ hget => .inl hget
  | closes tabId =>
    refine .quiet rfl le_rfl ?_
    intro id work hget
    exact .inl ((get_filter x.pre.calls _ id work).1 hget).1
  | begins tabId call =>
    rw [he] at hevent
    simp only [LockState.step]
    split
    · exact .quiet rfl le_rfl fun _ _ hget => .inl hget
    · exact moves_begins hevent
  | goesOn id =>
    simp only [UpToDate, he] at hdate
    simp only [LockState.step]
    split
    · exact .quiet rfl le_rfl fun _ _ hget => .inl hget
    · rename_i work hwork
      split
      · exact .quiet rfl le_rfl fun _ _ hget => .inl hget
      · rename_i tab htab
        obtain ⟨hfact, hkind⟩ := hknown id work hwork
        exact .turns rfl hwork (turns_continues hfact hkind (hdate work hwork) htab)
  | passes ms => exact .quiet rfl (Nat.le_add_right _ _) fun _ _ hget => .inl hget

variable {next : Option LockPhase}

theorem get_follows {other : Nat} {w : LockWork} (h : s.Follows t id work next) (hget : t.calls.get other = some w) :
    (other ≠ id ∧ s.calls.get other = some w) ∨
      (other = id ∧ ∃ phase, next = some phase ∧ w = { work with phase := phase }) := by
  have hcalls := h.calls
  cases next with
  | none =>
    rw [hcalls, get_delete] at hget
    by_cases hid : other = id
    · rw [if_pos hid] at hget
      cases hget
    · rw [if_neg hid] at hget
      exact .inl ⟨hid, hget⟩
  | some phase =>
    simp only at hcalls
    rw [hcalls, get_set] at hget
    by_cases hid : other = id
    · rw [if_pos hid] at hget
      exact .inr ⟨hid, phase, rfl, (Option.some.inj hget).symm⟩
    · rw [if_neg hid] at hget
      exact .inl ⟨hid, hget⟩

theorem fact_later {now now' : Nat} (hle : now ≤ now') (h : work.Fact now) : work.Fact now' := by
  unfold LockWork.Fact at h ⊢
  split at h
  all_goals first | exact h | skip
  exact ⟨h.1, fun time htime => Nat.le_trans (h.2 time htime) hle⟩

theorem LockState.Known.follows (h : s.Known) (hnext : s.Follows t id work next)
    (hself : ∀ phase ∈ next, LockWork.Fact { work with phase := phase } s.now ∧
      LockWork.Kind { work with phase := phase }) : t.Known := by
  intro other w hget
  rw [hnext.now]
  cases get_follows hnext hget with
  | inl hold => exact h other w hold.2
  | inr hturned =>
    obtain ⟨-, phase, hphase, hw⟩ := hturned
    subst hw
    exact hself phase hphase

/-- What the calls carry is known after a step too. -/
theorem LockState.Known.moves (h : s.Known) (hmoves : Moves s t e out) : t.Known := by
  cases hmoves with
  | quiet hlock hnow hcalls =>
    intro id work hget
    cases hcalls id work hget with
    | inl hold =>
      obtain ⟨hfact, hkind⟩ := h id work hold
      exact ⟨fact_later hnow hfact, hkind⟩
    | inr hnew =>
      obtain ⟨hphase, hcall⟩ := hnew
      simp only [LockWork.Fact, LockWork.Kind, hphase]
      exact ⟨trivial, hcall⟩
  | @turns id work out he hwork hturns =>
    obtain ⟨hfact, hkind⟩ := h id work hwork
    cases hturns with
    | read hphase hlock hnext =>
      refine h.follows hnext ?_
      intro phase hread
      cases hread
      simp only [LockWork.Kind, hphase] at hkind
      exact ⟨trivial, hkind⟩
    | goes hgot hmade hwaits hfact' hkind' hout hlock hnext =>
      refine h.follows hnext ?_
      intro phase hgoes
      cases hgoes
      exact ⟨hfact', hkind'⟩
    | counts hphase hopen hread hlock hnext =>
      refine h.follows hnext ?_
      intro phase hcounts
      cases hcounts
      simp only [LockWork.Kind, hphase] at hkind
      refine ⟨⟨rfl, ?_⟩, hkind⟩
      intro f hf
      exact (mem_filter.1 hf).1
    | resets hcall hlisted hread hnone hlock hnext =>
      refine h.follows hnext ?_
      intro phase hresets
      cases hresets
      exact ⟨trivial, hcall⟩
    | ends hout hidle hleft hlock hnext | writes hphase hremoved hread hlock hnext | clears hphase hlock hnext =>
      refine h.follows hnext ?_
      intro phase hover
      cases hover

/-- Attempts that are counted, whose PIN is still to be tried, are allowed for in the counter. -/
def LockState.Allowed (s : LockState) (guesses : Nat) : Prop :=
  ∃ waiting : List Nat,
    (∀ id work, s.calls.get id = some work → work.phase.waits = true → id ∈ waiting) ∧
    ∀ record, s.lock = some record → guesses + waiting.length ≤ record.failedAttempts

theorem waits_follows {waiting : List Nat} (hnext : s.Follows t id work next)
    (hself : ∀ phase ∈ next, phase.waits = false)
    (hwaiting : ∀ id work, s.calls.get id = some work → work.phase.waits = true → id ∈ waiting)
    (other : Nat) (w : LockWork) (hget : t.calls.get other = some w) (hwaits : w.phase.waits = true) :
    other ≠ id ∧ other ∈ waiting := by
  cases get_follows hnext hget with
  | inl hold => exact ⟨hold.1, hwaiting other w hold.2 hwaits⟩
  | inr hturned =>
    obtain ⟨-, phase, hphase, hw⟩ := hturned
    subst hw
    have hnot := hself phase hphase
    change phase.waits = true at hwaits
    rw [hnot] at hwaits
    cases hwaits

theorem LockState.Allowed.follows {guesses : Nat} (h : s.Allowed guesses)
    (hnext : s.Follows t id work next) (hself : ∀ phase ∈ next, phase.waits = false)
    (hlock : ∀ record, t.lock = some record →
      ∃ before, s.lock = some before ∧ before.failedAttempts ≤ record.failedAttempts) : t.Allowed guesses := by
  obtain ⟨waiting, hwaiting, hcount⟩ := h
  refine ⟨waiting, ?_, ?_⟩
  · intro other w hget hwaits
    exact (waits_follows hnext hself hwaiting other w hget hwaits).2
  · intro record hrecord
    obtain ⟨before, hbefore, hle⟩ := hlock record hrecord
    exact Nat.le_trans (hcount before hbefore) hle

theorem LockState.Allowed.moves {guesses : Nat} (h : s.Allowed guesses) (hmoves : Moves s t e out) :
    t.Allowed (out.foldl LockOutput.tally guesses) := by
  cases hmoves with
  | quiet hlock hnow hcalls =>
    obtain ⟨waiting, hwaiting, hcount⟩ := h
    refine ⟨waiting, ?_, ?_⟩
    · intro id work hget hwaits
      cases hcalls id work hget with
      | inl hold => exact hwaiting id work hold hwaits
      | inr hnew =>
        rw [hnew.1] at hwaits
        cases hwaits
    · intro record hrecord
      rw [hlock] at hrecord
      exact hcount record hrecord
  | @turns id work out he hwork hturns =>
    have hsame : t.lock = s.lock → ∀ record, t.lock = some record →
        ∃ before, s.lock = some before ∧ before.failedAttempts ≤ record.failedAttempts := by
      intro hlock record hrecord
      exact ⟨record, hlock ▸ hrecord, le_rfl⟩
    cases hturns with
    | read hphase hlock hnext =>
      refine h.follows hnext ?_ (hsame hlock)
      intro phase hread
      cases hread
      rfl
    | goes hgot hmade hwaits hfact' hkind' hout hlock hnext =>
      rename_i phase
      have hself : ∀ p ∈ some phase, LockPhase.waits p = false := by
        intro p hp
        cases hp
        exact hwaits
      cases hout with
      | inl hnone =>
        subst hnone
        exact h.follows hnext hself (hsame hlock)
      | inr hguess =>
        -- The attempt waits no longer, and its PIN is one more that was tried.
        obtain ⟨hout, hwas⟩ := hguess
        subst hout
        obtain ⟨waiting, hwaiting, hcount⟩ := h
        have hmem : id ∈ waiting := hwaiting id work hwork hwas
        refine ⟨waiting.erase id, ?_, ?_⟩
        · intro other w hget hw
          obtain ⟨hne, hold⟩ := waits_follows hnext hself hwaiting other w hget hw
          exact (mem_erase_of_ne hne).2 hold
        · intro record hrecord
          have hle := hcount record (hlock ▸ hrecord)
          have hlength := length_erase_of_mem hmem
          have hpos := length_pos_of_mem hmem
          change guesses + 1 + (waiting.erase id).length ≤ record.failedAttempts
          omega
    | ends hout hidle hleft hlock hnext =>
      rename_i o
      have htally : LockOutput.tally guesses o = guesses := by
        cases o <;> first | rfl | cases hout
      change t.Allowed (LockOutput.tally guesses o)
      rw [htally]
      exact h.follows hnext (by simp) (hsame hlock)
    | @writes before masterKey time hphase hremoved hread hlock hnext =>
      refine h.follows hnext (by simp) ?_
      intro stored hstored
      cases hlock.symm.trans hstored
      exact ⟨before, hread, (edit_attempts work.call masterKey time before).ge⟩
    | @counts before time hphase hopen hread hlock hnext =>
      obtain ⟨waiting, hwaiting, hcount⟩ := h
      refine ⟨id :: waiting, ?_, ?_⟩
      · intro other w hget hwaits
        cases get_follows hnext hget with
        | inl hold => exact mem_cons_of_mem _ (hwaiting other w hold.2 hwaits)
        | inr hturned => exact hturned.1 ▸ mem_cons_self
      · intro stored hstored
        cases hlock.symm.trans hstored
        have hle := hcount before hread
        have hmore : (before.counted time).failedAttempts = before.failedAttempts + 1 := rfl
        rw [foldl_nil, length_cons]
        omega
    | resets hcall hlisted hread hnone hlock hnext =>
      -- No attempt waits, so that the counter starts again with nothing to allow for.
      refine ⟨[], ?_, fun _ _ => Nat.zero_le _⟩
      intro other w hget hwaits
      cases get_follows hnext hget with
      | inl hold =>
        have hmem := (get_eq_some s.calls other w).1 hold.2
        have hnot := hnone (other, w) hmem
        rw [hwaits] at hnot
        cases hnot
      | inr hturned =>
        obtain ⟨-, phase, hopened, hw⟩ := hturned
        cases hopened
        subst hw
        cases hwaits
    | clears hphase hlock hnext =>
      refine h.follows hnext (by simp) ?_
      intro record hrecord
      rw [hlock] at hrecord
      cases hrecord

def LockOutput.away (factorId : String) (gone : Bool) : LockOutput → Bool
  | .wrote _ (.removeFactor id) => gone || decide (id = factorId)
  | .wrote _ (.addFactor _ _ id _ _ _) => gone && decide (id ≠ factorId)
  | _ => gone

def LockState.Lacks (s : LockState) (factorId : String) : Prop :=
  ∀ record, s.lock = some record → ∀ f ∈ record.factors, f.id ≠ factorId

theorem away_ends {o : LockOutput} (h : o.ends id) (factorId : String) (gone : Bool) :
    LockOutput.away factorId gone o = gone := by
  cases o <;> first | rfl | cases h

variable {factorId : String}

theorem added_of_back {out : List LockOutput} (h : out.foldl (LockOutput.away factorId) true = false) :
    ∃ added kind factorKey salt iterations label,
      .wrote added (.addFactor kind factorKey factorId salt iterations label) ∈ out := by
  induction out with
  | nil => cases h
  | cons o out ih =>
    rw [foldl_cons] at h
    cases haway : LockOutput.away factorId true o with
    | true =>
      rw [haway] at h
      obtain ⟨added, kind, factorKey, salt, iterations, label, hmem⟩ := ih h
      exact ⟨added, kind, factorKey, salt, iterations, label, mem_cons_of_mem _ hmem⟩
    | false =>
      unfold LockOutput.away at haway
      split at haway
      · simp at haway
      · rename_i added kind factorKey id salt iterations label
        have hid : id = factorId := by simpa using haway
        subst hid
        exact ⟨added, kind, factorKey, salt, iterations, label, mem_cons_self⟩
      · cases haway

theorem lacks_written {call : LockCall} {gone : Bool} {before : LockRecord}
    {masterKey : Bytes} {time : Nat} (hbefore : gone = true → ∀ f ∈ before.factors, f.id ≠ factorId)
    (hremoved : ∀ id, call = .removeFactor id → ∀ f ∈ (call.edit masterKey time before).factors, f.id ≠ id)
    (haway : LockOutput.away factorId gone (.wrote id call) = true) :
    ∀ f ∈ (call.edit masterKey time before).factors, f.id ≠ factorId := by
  cases call with
  | addFactor kind factorKey added salt iterations label =>
    simp only [LockOutput.away, Bool.and_eq_true, decide_eq_true_eq] at haway
    intro f hf
    cases mem_append.1 hf with
    | inl hold => exact hbefore haway.1 f hold
    | inr hnew =>
      rw [mem_singleton.1 hnew]
      exact haway.2
  | removeFactor removed =>
    simp only [LockOutput.away, Bool.or_eq_true, decide_eq_true_eq] at haway
    cases haway with
    | inl hgone =>
      intro f hf
      apply hbefore hgone f
      simp only [LockCall.edit] at hf
      split at hf
      · exact hf
      · exact (mem_filter.1 hf).1
    | inr heq =>
      subst heq
      exact hremoved removed rfl
  | _ => exact hbefore haway

theorem lacks_moves {gone : Bool}
    (hlacks : gone = true → s.Lacks factorId) (hmoves : Moves s t e out)
    (haway : out.foldl (LockOutput.away factorId) gone = true) : t.Lacks factorId := by
  have hsame : gone = true → t.lock = s.lock → t.Lacks factorId := by
    intro hgone hlock record hrecord
    exact hlacks hgone record (hlock ▸ hrecord)
  cases hmoves with
  | quiet hlock hnow hcalls => exact hsame haway hlock
  | @turns id work out he hwork hturns =>
    cases hturns with
    | read hphase hlock hnext => exact hsame haway hlock
    | goes hgot hmade hwaits hfact' hkind' hout hlock hnext =>
      cases hout with
      | inl hnone =>
        subst hnone
        exact hsame haway hlock
      | inr hguess =>
        obtain ⟨hout, -⟩ := hguess
        subst hout
        exact hsame haway hlock
    | ends hout hidle hleft hlock hnext =>
      rename_i o
      change LockOutput.away factorId gone o = true at haway
      rw [away_ends hout] at haway
      exact hsame haway hlock
    | @writes before masterKey time hphase hremoved hread hlock hnext =>
      intro stored hstored
      cases hlock.symm.trans hstored
      have hwritten : LockOutput.away factorId gone (.wrote id work.call) = true := haway
      refine lacks_written ?_ hremoved hwritten
      intro hgone
      exact hlacks hgone before hread
    | counts hphase hopen hread hlock hnext | resets hcall hlisted hread hnone hlock hnext =>
      intro stored hstored
      cases hlock.symm.trans hstored
      have hold := hlacks haway _ hread
      exact hold
    | clears hphase hlock hnext =>
      intro stored hstored
      rw [hlock] at hstored
      cases hstored

/-- The factor whose success is stored is one that is listed. -/
theorem listed_unlocked {opener : Nat} (hmoves : Moves s t e out)
    (hout : .unlocked opener factorId ∈ out) : out = [.unlocked opener factorId] ∧ ¬ s.Lacks factorId := by
  cases hmoves with
  | quiet hlock hnow hcalls => cases hout
  | @turns id work out he hwork hturns =>
    cases hturns with
    | goes hgot hmade hwaits hfact' hkind' houts hlock hnext =>
      cases houts with
      | inl hnone =>
        subst hnone
        cases hout
      | inr hguess =>
        rw [hguess.1] at hout
        cases mem_singleton.1 hout
    | ends hends hidle hleft hlock hnext =>
      rename_i o
      cases mem_singleton.1 hout
      cases hends
    | @resets before masterKey opened hcall hlisted hread hnone hlock hnext =>
      cases mem_singleton.1 hout
      obtain ⟨f, hf, hid⟩ := hlisted
      refine ⟨rfl, ?_⟩
      intro hlacks
      exact hlacks before hread f hf hid
    | read _ _ _ | counts _ _ _ _ _ => cases hout
    | _ => simp at hout

variable {entries : List AttemptEntry}

theorem HadKey.later {act : LockAct} (h : HadKey entries act) (x : AttemptEntry) : HadKey (entries ++ [x]) act := by
  obtain ⟨y, hy, hheld⟩ := h
  exact ⟨y, mem_append_left _ hy, hheld⟩

/-- An attempt whose PIN is still to be tried was counted on the way, and a record that is still to be written was made
with the key of the tab. -/
def Backed (entries : List AttemptEntry) (id : Nat) (work : LockWork) : Prop :=
  (work.phase.waits = true → ∃ x ∈ entries, CountedAt x id) ∧
    ∀ before record, work.phase = .writing before record → ∃ masterKey time,
      record = work.call.edit masterKey time before ∧ HadKey entries ⟨id, work.call, .wrote, masterKey, time⟩

theorem Backed.later (h : Backed entries id work) (x : AttemptEntry) : Backed (entries ++ [x]) id work := by
  refine ⟨fun hwaits => ?_, fun before record hphase => ?_⟩
  · obtain ⟨y, hy, hcounted⟩ := h.1 hwaits
    exact ⟨y, mem_append_left _ hy, hcounted⟩
  · obtain ⟨masterKey, time, hmade, hkey⟩ := h.2 before record hphase
    exact ⟨masterKey, time, hmade, hkey.later x⟩

def Traced (entries : List AttemptEntry) (s : LockState) : Prop :=
  ∀ id work, s.calls.get id = some work → Backed entries id work

theorem Traced.moves {x : AttemptEntry} (h : Traced entries x.pre)
    (hmoves : Moves x.pre x.post x.event x.out) : Traced (entries ++ [x]) x.post := by
  have hfollows : ∀ {id work next}, x.pre.Follows x.post id work next →
      (∀ phase ∈ next, Backed (entries ++ [x]) id { work with phase := phase }) → Traced (entries ++ [x]) x.post := by
    intro id work next hnext hself other w hget
    cases get_follows hnext hget with
    | inl hold => exact (h other w hold.2).later x
    | inr hturned =>
      obtain ⟨hother, phase, hphase, hw⟩ := hturned
      subst hother hw
      exact hself phase hphase
  generalize hout : x.out = out at hmoves
  cases hmoves with
  | quiet hlock hnow hcalls =>
    intro id work hget
    cases hcalls id work hget with
    | inl hold => exact (h id work hold).later x
    | inr hnew => simp [Backed, hnew.1, LockPhase.waits]
  | @turns id work out he hwork hturns =>
    have hhere : x ∈ entries ++ [x] := mem_append_right _ (mem_singleton_self x)
    cases hturns with
    | ends hends hidle hleft hlock hnext => exact hfollows hnext (by simp)
    | writes hphase hremoved hread hlock hnext => exact hfollows hnext (by simp)
    | clears hphase hlock hnext => exact hfollows hnext (by simp)
    | read hphase hlock hnext => exact hfollows hnext (by simp [Backed, LockPhase.waits])
    | resets hcall hlisted hread hnone hlock hnext => exact hfollows hnext (by simp [Backed, LockPhase.waits])
    | goes hgot hmade hwaits hfact' hkind' houts hlock hnext =>
      refine hfollows hnext fun phase hgoes => ?_
      cases hgoes
      refine ⟨fun hwaiting => by simp [hwaits] at hwaiting, fun before record hphase => ?_⟩
      obtain ⟨read, masterKey, hread, hkey, hsame⟩ := hmade before record hphase
      exact ⟨masterKey, x.pre.now, hsame, x, hhere, he, work, read, hwork, rfl, hread, hkey, rfl⟩
    | counts hphase hopen hread hlock hnext =>
      refine hfollows hnext fun phase hcounts => ?_
      cases hcounts
      exact ⟨fun _ => ⟨x, hhere, work, _, _, he, hwork, hphase, hread, hlock, hopen⟩, by simp⟩

/-- A PIN is tried only by an attempt that waited for it. -/
theorem waits_guessed {guesser : Nat} (hmoves : Moves s t e out) (hout : .guessed guesser ∈ out) :
    ∃ work, s.calls.get guesser = some work ∧ work.phase.waits = true := by
  cases hmoves with
  | quiet hlock hnow hcalls => cases hout
  | @turns id work out he hwork hturns =>
    cases hturns with
    | goes hgot hmade hwaits hfact' hkind' houts hlock hnext =>
      cases houts with
      | inl hnone =>
        subst hnone
        cases hout
      | inr hguess =>
        rw [hguess.1] at hout
        cases mem_singleton.1 hout
        exact ⟨work, hwork, hguess.2⟩
    | ends hends hidle hleft hlock hnext =>
      cases mem_singleton.1 hout
      cases hends
    | read _ _ _ | counts _ _ _ _ _ => cases hout
    | _ => simp at hout

/-- The calls that are over took effect in some order, and each running call read a record that was there
on the way. -/
def Ordered (start : LockState) (entries : List AttemptEntry) (s : LockState) : Prop :=
  ∃ order : List LockAct,
    (order.map fun act => (act.id, act.call, act.come)).Perm (callsOver entries) ∧
    (∀ act ∈ order, act.come = .wrote → HadKey entries act) ∧
    order.foldl LockAct.takes start.view = s.view ∧
    ∀ id work record, s.calls.get id = some work → work.phase = .got record →
      SerialOrder.Passes LockAct.takes start.view order (record.map LockRecord.cleared)

theorem callsOver_append (entries : List AttemptEntry) (x : AttemptEntry) :
    callsOver (entries ++ [x]) = callsOver entries ++ x.out.filterMap (LockOutput.ended x.pre) := by
  simp [callsOver]

theorem got_follows {other : Nat} {w : LockWork} {record : Option LockRecord}
    (hnext : s.Follows t id work next) (hself : ∀ phase ∈ next, phase ≠ .got record)
    (hget : t.calls.get other = some w) (hphase : w.phase = .got record) : s.calls.get other = some w := by
  cases get_follows hnext hget with
  | inl hold => exact hold.2
  | inr hturned =>
    obtain ⟨-, phase, hnow, hw⟩ := hturned
    subst hw
    exact absurd hphase (hself phase hnow)

section Order
variable {start : LockState} {entries : List AttemptEntry} {x : AttemptEntry}

section
variable (h : Ordered start entries x.pre)
include h

theorem Ordered.keeps
    (hover : x.out.filterMap (LockOutput.ended x.pre) = []) (hview : x.post.view = x.pre.view)
    (hcalls : ∀ id work record, x.post.calls.get id = some work → work.phase = .got record →
      x.pre.calls.get id = some work ∨ record.map LockRecord.cleared = x.pre.view) :
    Ordered start (entries ++ [x]) x.post := by
  obtain ⟨order, hperm, hkeys, hfold, hread⟩ := h
  refine ⟨order, ?_, fun act hact hwrote => (hkeys act hact hwrote).later x, hfold.trans hview.symm, ?_⟩
  · rw [callsOver_append, hover, append_nil]
    exact hperm
  · intro id work record hget hphase
    cases hcalls id work record hget hphase with
    | inl hold => exact hread id work record hold hphase
    | inr hnow =>
      rw [hnow, ← hfold]
      exact SerialOrder.passes_last _ _ order

theorem Ordered.takes {act : LockAct}
    (hover : x.out.filterMap (LockOutput.ended x.pre) = [(act.id, act.call, act.come)])
    (hkey : act.come = .wrote → HadKey entries act)
    (hview : x.post.view = act.takes x.pre.view)
    (hcalls : ∀ id work record, x.post.calls.get id = some work → work.phase = .got record →
      x.pre.calls.get id = some work) : Ordered start (entries ++ [x]) x.post := by
  obtain ⟨order, hperm, hkeys, hfold, hread⟩ := h
  refine ⟨order ++ [act], ?_, ?_, ?_, ?_⟩
  · rw [callsOver_append, hover, map_append]
    exact hperm.append_right _
  · intro other hother hwrote
    cases mem_append.1 hother with
    | inl hold => exact (hkeys other hold hwrote).later x
    | inr hnew =>
      cases mem_singleton.1 hnew
      exact (hkey hwrote).later x
  · rw [foldl_append, hfold, hview]
    rfl
  · intro id work record hget hphase
    exact (hread id work record (hcalls id work record hget hphase) hphase).append [act]

/-- A call is over that has changed nothing: it has its place where the record was the one it read. -/
theorem Ordered.stands (act : LockAct) {seen : Option LockRecord}
    (hover : x.out.filterMap (LockOutput.ended x.pre) = [(act.id, act.call, act.come)]) (hcome : act.come ≠ .wrote)
    (hview : x.post.view = x.pre.view)
    (hseen : seen = x.pre.view ∨ ∃ id work record, x.pre.calls.get id = some work ∧
      work.phase = .got record ∧ record.map LockRecord.cleared = seen) (hidle : act.takes seen = seen)
    (hcalls : ∀ id work record, x.post.calls.get id = some work → work.phase = .got record →
      x.pre.calls.get id = some work) : Ordered start (entries ++ [x]) x.post := by
  obtain ⟨order, hperm, hkeys, hfold, hread⟩ := h
  have hpasses : SerialOrder.Passes LockAct.takes start.view order seen := by
    cases hseen with
    | inl hnow =>
      rw [hnow, ← hfold]
      exact SerialOrder.passes_last _ _ order
    | inr hgot =>
      obtain ⟨id, work, record, hget, hphase, heq⟩ := hgot
      rw [← heq]
      exact hread id work record hget hphase
  obtain ⟨wider, hwider, hsame, hkeeps⟩ := hpasses.insert hidle
  refine ⟨wider, ?_, ?_, ?_, ?_⟩
  · rw [callsOver_append, hover]
    refine (hwider.map _).trans ?_
    rw [map_append]
    exact hperm.append_right _
  · intro other hother hwrote
    cases mem_append.1 (hwider.mem_iff.1 hother) with
    | inl hold => exact (hkeys other hold hwrote).later x
    | inr hnew =>
      cases mem_singleton.1 hnew
      exact absurd hwrote hcome
  · rw [hsame, hfold, hview]
  · intro id work record hget hphase
    exact hkeeps _ (hread id work record (hcalls id work record hget hphase) hphase)

theorem Ordered.moves (htraced : Traced entries x.pre) (hmoves : Moves x.pre x.post x.event x.out) :
    Ordered start (entries ++ [x]) x.post := by
  have hview : x.post.lock = x.pre.lock → x.post.view = x.pre.view := fun hlock => by
    rw [LockState.view, hlock]
    rfl
  generalize hout : x.out = out at hmoves
  cases hmoves with
  | quiet hlock hnow hcalls =>
    refine h.keeps (by rw [hout]; rfl) (hview hlock) ?_
    intro id work record hget hphase
    cases hcalls id work hget with
    | inl hold => exact .inl hold
    | inr hnew =>
      rw [hnew.1] at hphase
      cases hphase
  | @turns id work out he hwork hturns =>
    cases hturns with
    | read hphase hlock hnext =>
      refine h.keeps (by rw [hout]; rfl) (hview hlock) ?_
      intro other w record hget hgot
      cases get_follows hnext hget with
      | inl hold => exact .inl hold.2
      | inr hturned =>
        obtain ⟨-, phase, hread, hw⟩ := hturned
        cases hread
        subst hw
        cases hgot
        exact .inr rfl
    | goes hgot hmade hwaits hfact' hkind' houts hlock hnext =>
      refine h.keeps ?_ (hview hlock) ?_
      · rw [hout]
        cases houts with
        | inl hnone => rw [hnone]; rfl
        | inr hguess => rw [hguess.1]; rfl
      · intro other w record hget hphase
        refine .inl (got_follows hnext ?_ hget hphase)
        intro phase hphase'
        cases hphase'
        exact hgot record
    | ends hends hidle hleft hlock hnext =>
      rename_i o
      have hover : x.out.filterMap (LockOutput.ended x.pre) =
          [(id, work.call, if o = .threw id lockedMessage then .locked else .returned)] := by
        rw [hout]
        cases o with
        | done call =>
          cases hends
          simp [LockOutput.ended, hwork, not_writes hidle]
        | threw call message =>
          cases hends
          simp [LockOutput.ended, hwork]
        | outcome call result =>
          obtain ⟨hcall, hnot⟩ := hends
          subst hcall
          simp [LockOutput.ended, hwork, hnot]
        | _ => cases hends
      have hcalls : ∀ other w record, x.post.calls.get other = some w → w.phase = .got record →
          x.pre.calls.get other = some w := fun _ _ _ hget hphase =>
        got_follows hnext (by simp) hget hphase
      by_cases hlocked : o = .threw id lockedMessage
      · rw [if_pos hlocked] at hover
        exact h.stands ⟨id, work.call, .locked, [], 0⟩ hover (by simp) (hview hlock) (.inl rfl) rfl hcalls
      · rw [if_neg hlocked] at hover
        obtain hunlocks | hrefused | ⟨record, masterKey, time, hphase, hsame⟩ := hleft
        · exact h.stands ⟨id, work.call, .returned, [], 0⟩ hover (by simp) (hview hlock) (.inl rfl)
            (map_edit_unlocks hunlocks [] 0 x.pre.view) hcalls
        · exact absurd hrefused hlocked
        · exact h.stands ⟨id, work.call, .returned, masterKey, time⟩ hover (by simp) (hview hlock)
            (.inr ⟨id, work, record, hwork, hphase, rfl⟩) hsame hcalls
    | @writes before masterKey time hphase hremoved hread hlock hnext =>
      obtain ⟨held, heldAt, hsame, hkey⟩ := (htraced id work hwork).2 before _ hphase
      have htakes : x.post.view =
          (⟨id, work.call, .wrote, held, heldAt⟩ : LockAct).takes x.pre.view := by
        rw [LockState.view, LockState.view, hlock, hread, hsame]
        exact congrArg some (edit_cleared work.call held heldAt before).symm
      have hdone : LockOutput.ended x.pre (.done id) = some (id, work.call, .wrote) := by
        simp [LockOutput.ended, hwork, hphase, LockPhase.writes]
      refine h.takes ?_ (fun _ => hkey) htakes fun _ _ _ hget hgot => got_follows hnext (by simp) hget hgot
      rw [hout, filterMap_cons_none rfl, filterMap_cons_some hdone, filterMap_nil]
    | counts hphase hopen hread hlock hnext | resets hcall hlisted hread hnone hlock hnext =>
      refine h.keeps (by rw [hout]; rfl) ?_ fun _ _ _ hget hgot =>
        .inl (got_follows hnext (by simp) hget hgot)
      rw [LockState.view, LockState.view, hlock, hread]
      rfl
    | clears hphase hlock hnext =>
      have htakes : x.post.view = (⟨id, work.call, .wiped, [], 0⟩ : LockAct).takes x.pre.view := by
        rw [LockState.view, hlock]
        rfl
      refine h.takes ?_ (by simp) htakes fun _ _ _ hget hgot => got_follows hnext (by simp) hget hgot
      rw [hout]
      simp [LockOutput.ended, hwork]

end

end Order

end Steps

section Runs
variable {derive : String → Bytes → Nat → Bytes} {start : LockState} {es : List LockEvent}

/-- What a run keeps, step by step. -/
structure Sofar (start s : LockState) (entries : List AttemptEntry) : Prop where
  known : s.Known
  allowed : s.Allowed (guessesSince (entries.flatMap Machine.Entry.out))
  traced : Traced entries s
  ordered : Ordered start entries s
  lacks : ∀ factorId, (entries.flatMap Machine.Entry.out).foldl (LockOutput.away factorId) false = true →
    s.Lacks factorId

theorem sofar_start : Sofar start start.atRest [] where
  known := by
    intro id work hget
    cases hget
  allowed := by
    refine ⟨[], ?_, fun _ _ => Nat.zero_le _⟩
    intro id work hget
    cases hget
  traced := by
    intro id work hget
    cases hget
  ordered := by
    refine ⟨[], List.Perm.refl _, by simp, rfl, ?_⟩
    intro id work record hget
    cases hget
  lacks := by
    intro factorId haway
    cases haway

theorem Sofar.snoc {entries : List AttemptEntry} {x : AttemptEntry} (h : Sofar start x.pre entries)
    (hmoves : Moves x.pre x.post x.event x.out) : Sofar start x.post (entries ++ [x]) where
  known := h.known.moves hmoves
  allowed := by
    rw [flatMap_append, flatMap_singleton, guessesSince, foldl_append]
    exact h.allowed.moves hmoves
  traced := h.traced.moves hmoves
  ordered := h.ordered.moves h.traced hmoves
  lacks := by
    intro factorId haway
    rw [flatMap_append, flatMap_singleton, foldl_append] at haway
    exact lacks_moves (h.lacks factorId) hmoves haway

theorem sofar_run (hkeeps : ∀ x ∈ (lockMachine derive start.atRest).trace es,
      x.event.onRecord = true ∧ UpToDate x) :
    Sofar start ((lockMachine derive start.atRest).run es) ((lockMachine derive start.atRest).trace es) := by
  refine (lockMachine derive start.atRest).traced_invariant
    (I := fun _ s tr => Sofar start s tr) (C := fun _ x => x.event.onRecord = true ∧ UpToDate x)
    sofar_start ?_ ?_
  · intro es s tr e h hx
    exact h.snoc (moves_step h.known hx.1 hx.2)
  · intro before x after htrace
    exact hkeeps x (by simp [htrace])

/-- In every run in which no call writes the lock record over a change that it has not read, every PIN
that is tried is counted, none is tried by an attempt that met a lockout, and the factors and the settings
are what the calls make of them one after another. -/
theorem attempts_kept (derive : String → Bytes → Nat → Bytes) (start : LockState) (es : List LockEvent)
    (hcalls : ∀ e ∈ es, e.onRecord = true) (hdate : ∀ x ∈ (lockMachine derive start.atRest).trace es, UpToDate x) :
    AttemptsKept derive start es := by
  have hkeeps : ∀ x ∈ (lockMachine derive start.atRest).trace es, x.event.onRecord = true ∧ UpToDate x := by
    intro x hx
    obtain ⟨before, e, after, hes, hentry⟩ := ((lockMachine derive start.atRest).mem_trace es x).1 hx
    subst hentry
    exact ⟨hcalls e (by simp [hes]), hdate _ hx⟩
  have hsofar := sofar_run hkeeps
  have hstep : ∀ before e after, es = before ++ e :: after →
      Sofar start ((lockMachine derive start.atRest).run before) ((lockMachine derive start.atRest).trace before) ∧
      Moves ((lockMachine derive start.atRest).run before)
        (((lockMachine derive start.atRest).run before).step derive e).1 e
        (((lockMachine derive start.atRest).run before).step derive e).2 := by
    intro before e after hes
    have hbefore := sofar_run (forall_trace_before hkeeps hes)
    obtain ⟨hcall, hfresh⟩ := hkeeps _
      (((lockMachine derive start.atRest).mem_trace es _).2 ⟨before, e, after, hes, rfl⟩)
    exact ⟨hbefore, moves_step hbefore.known hcall hfresh⟩
  refine ⟨?_, ?_, ?_, ?_⟩
  · intro record hrecord
    obtain ⟨waiting, -, hcount⟩ := hsofar.allowed
    exact Nat.le_of_add_right_le (hcount record hrecord)
  · intro before e after id hes hout
    obtain ⟨hbefore, hmoves⟩ := hstep before e after hes
    obtain ⟨work, hwork, hwaits⟩ := waits_guessed hmoves hout
    exact (hbefore.traced id work hwork).1 hwaits
  · obtain ⟨order, hperm, hkeys, hfold, -⟩ := hsofar.ordered
    exact ⟨order, hperm, hkeys, hfold⟩
  · intro first id factorId between later last hall
    obtain ⟨before, e, after, u, v, hes, hout, hfirst⟩ :=
      (lockMachine derive start.atRest).outputs_split es hall
    obtain ⟨hbefore, hmoves⟩ := hstep before e after hes
    change (LockState.step derive _ e).2 = _ at hout
    obtain ⟨hone, hlisted⟩ := listed_unlocked hmoves (by
      rw [hout]
      exact mem_append_right _ mem_cons_self)
    have hnothing : u = [] := by
      rw [hout] at hone
      cases u with
      | nil => rfl
      | cons o u => simp at hone
    subst hnothing
    rw [append_nil] at hfirst
    -- At the success the factor is listed, so that it was added after it had been removed.
    have hback : (first ++ .wrote id (.removeFactor factorId) :: between).foldl
        (LockOutput.away factorId) false = false := by
      rw [hfirst]
      cases haway : ((lockMachine derive start.atRest).outputs before).foldl
          (LockOutput.away factorId) false with
      | false => rfl
      | true => exact absurd (hbefore.lacks factorId haway) hlisted
    rw [foldl_append, foldl_cons] at hback
    have hgone : LockOutput.away factorId (first.foldl (LockOutput.away factorId) false)
        (.wrote id (.removeFactor factorId)) = true := by simp [LockOutput.away]
    rw [hgone] at hback
    exact added_of_back hback

end Runs

def pinDevice (failedAttempts : Nat) : LockState where
  keys := .empty
  lock := some { LockState.pinFactor "135790" none [7, 7, 7] [1, 6] 600000 "0f3a" 1000
    (saltedPin "135790" [1, 6] 600000) with failedAttempts := failedAttempts }
  tabs := OrderedMap.empty.set 0 .fresh
  calls := .empty
  now := 5000
  next := 1

def changedFactors : List LockEvent :=
  callAlone 0 1 (.unlockWithPin "000000") 5 ++ callAlone 0 2 (.unlockWithPin "135790") 6 ++
    callAlone 0 3 (.addFactor .passkey [9, 9] "77c1" [] 0 none) 3 ++ callAlone 0 4 (.removeFactor "0f3a") 3 ++
    callAlone 0 5 (.unlockWithFactorKey "77c1" [9, 9]) 4

theorem attempts_kept_changed : AttemptsKept saltedPin (pinDevice 0) changedFactors :=
  attempts_kept saltedPin (pinDevice 0) changedFactors (by decide) (by decide +kernel)

/-- The attempt after the free ones, up to where its PIN is tried. -/
def fourthAttempt : List LockEvent := callAlone 0 1 (.unlockWithPin "000000") 3

/-- Two attempts that have both read the counter before either has written it. -/
def bothAttempts : List LockEvent :=
  [.begins 0 (.unlockWithPin "000000"), .begins 0 (.unlockWithPin "000001"), .goesOn 1, .goesOn 2, .goesOn 1,
    .goesOn 2, .goesOn 1, .goesOn 2, .goesOn 1, .goesOn 2]

/-- An attempt tries its PIN while the lockout that it has stored itself lies in the future; and of two
attempts that overlap, one is not counted. -/
theorem not_attempts_kept :
    ((((lockMachine saltedPin (pinDevice 3).atRest).run fourthAttempt).step saltedPin (.goesOn 1)).2 = [.guessed 1] ∧
      ((lockMachine saltedPin (pinDevice 3).atRest).run fourthAttempt).lock.bind (·.lockedUntil) = some 7000 ∧
      ((lockMachine saltedPin (pinDevice 3).atRest).run fourthAttempt).now = 5000) ∧
    (guessesSince ((lockMachine saltedPin (pinDevice 0).atRest).outputs bothAttempts) = 2 ∧
      ((lockMachine saltedPin (pinDevice 0).atRest).run bothAttempts).lock.map (·.failedAttempts) = some 1) := by
  refine ⟨⟨?_, ?_, ?_⟩, ?_, ?_⟩ <;> decide +kernel

end Mtmux.Browser
