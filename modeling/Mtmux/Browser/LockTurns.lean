import Mtmux.Browser.LockStore

/-! What one step of an unlock, or of a change to the factors or the settings, does to the lock record.
Each of these calls reads the whole record, and later writes the whole record. -/
namespace Mtmux.Browser
open Crypto List

namespace LockCall

def unlocks : LockCall → Bool
  | .unlockWithPin _ | .unlockWithFactorKey _ _ => true
  | _ => false

def attempts : LockCall → Bool
  | .unlockWithPin _ => true
  | _ => false

def onRecord : LockCall → Bool
  | .unlockWithPin _ | .unlockWithFactorKey _ _ | .addFactor _ _ _ _ _ _ | .removeFactor _
  | .updateLockSettings _ => true
  | _ => false

def edit (call : LockCall) (masterKey : Bytes) (time : Nat) (record : LockRecord) : LockRecord :=
  match call with
  | .addFactor kind factorKey id salt iterations label =>
    { record with factors := record.factors ++ [⟨kind, id, salt, iterations,
        wrapMasterKey factorKey masterKey kind id, time, label.filter (· ≠ "")⟩] }
  | .removeFactor id =>
    if (record.factors.filter fun f => f.id ≠ id) = [] then record
    else { record with factors := record.factors.filter fun f => f.id ≠ id }
  | .updateLockSettings patch => record.patched patch
  | _ => record

end LockCall

/-- The key that the call's tab holds. -/
def LockState.keyOf (s : LockState) (work : LockWork) : Option Bytes := (s.tabs.get work.tab).bind (·.masterKey)

/-- A record but for its counter: the factors and the settings. -/
def LockState.view (s : LockState) : Option LockRecord := s.lock.map LockRecord.cleared

def LockWork.Fact (work : LockWork) (now : Nat) : Prop :=
  match work.phase with
  | .reading | .got _ => True
  | .writing before record =>
    (∃ masterKey time, record = work.call.edit masterKey time before) ∧
      ∀ id, work.call = .removeFactor id → ∀ f ∈ record.factors, f.id ≠ id
  | .counting before record =>
    (∃ time, record = before.counted time) ∧ ∀ time ∈ before.lockedUntil, time ≤ now
  | .guessing before record rest _ =>
    record.cleared = before.cleared ∧ ∀ f ∈ rest, f ∈ before.factors
  | .resetting before record _ factorId =>
    record = before.cleared ∧ ∃ f ∈ before.factors, f.id = factorId
  | .opened _ | .clearing => True
  | _ => False

def LockWork.Kind (work : LockWork) : Prop :=
  match work.phase with
  | .counting _ _ | .guessing _ _ _ _ => work.call.attempts = true
  | .clearing => work.call.attempts = true
  | .resetting _ _ _ _ | .opened _ => work.call.unlocks = true
  | _ => work.call.onRecord = true

/-- The attempt is counted, and its PIN has not been tried. -/
def LockPhase.waits : LockPhase → Bool
  | .guessing _ _ _ first => first
  | _ => false

def LockPhase.writes : LockPhase → Bool
  | .writing _ _ => true
  | _ => false

theorem not_writes {phase : LockPhase} (h : ∀ before record, phase ≠ .writing before record) :
    phase.writes = false := by
  cases phase with
  | writing before record => exact absurd rfl (h before record)
  | _ => rfl

/-- A call writes the record only while it is as the call has read it, or has written it itself; and no
success is stored while an attempt is counted whose PIN is still to be tried. -/
def LockState.upToDate (s : LockState) (work : LockWork) : Bool :=
  match work.phase with
  | .writing before _ | .counting before _ => decide (s.lock = some before)
  | .resetting before _ _ _ =>
    decide (s.lock = some before) && s.calls.entries.all fun call => !call.2.phase.waits
  | _ => true

structure LockState.Follows (s t : LockState) (id : Nat) (work : LockWork) (next : Option LockPhase) :
    Prop where
  now : t.now = s.now
  calls : t.calls = match next with
    | some phase => s.calls.set id { work with phase := phase }
    | none => s.calls.delete id

/-- The call is over, and has left the record as it was. -/
def LockOutput.ends (id : Nat) : LockOutput → Prop
  | .done call | .threw call _ => call = id
  | .outcome call result => call = id ∧ result ≠ .wiped
  | _ => False

inductive Turns (s : LockState) (id : Nat) (work : LockWork) : LockState → List LockOutput → Prop
  | read {t : LockState} (hphase : work.phase = .reading) (hlock : t.lock = s.lock)
      (hnext : s.Follows t id work (some (.got s.lock))) : Turns s id work t []
  | goes {t : LockState} {phase : LockPhase} {out : List LockOutput} (hgot : ∀ r, phase ≠ .got r)
      (hmade : ∀ before record, phase = .writing before record → ∃ read masterKey, work.phase = .got read ∧
        s.keyOf work = some masterKey ∧ record = work.call.edit masterKey s.now before)
      (hwaits : phase.waits = false) (hfact : LockWork.Fact { work with phase := phase } s.now)
      (hkind : LockWork.Kind { work with phase := phase })
      (hout : out = [] ∨ out = [.guessed id] ∧ work.phase.waits = true) (hlock : t.lock = s.lock)
      (hnext : s.Follows t id work (some phase)) : Turns s id work t out
  | ends {t : LockState} {o : LockOutput} (hout : o.ends id)
      (hidle : ∀ before record, work.phase ≠ .writing before record)
      (hleft : work.call.unlocks = true ∨ o = .threw id lockedMessage ∨
        ∃ record masterKey time, work.phase = .got record ∧
          (record.map LockRecord.cleared).map (work.call.edit masterKey time) = record.map LockRecord.cleared)
      (hlock : t.lock = s.lock) (hnext : s.Follows t id work none) : Turns s id work t [o]
  | writes {t : LockState} {before : LockRecord} {masterKey : Bytes} {time : Nat}
      (hphase : work.phase = .writing before (work.call.edit masterKey time before))
      (hremoved : ∀ id, work.call = .removeFactor id →
        ∀ f ∈ (work.call.edit masterKey time before).factors, f.id ≠ id) (hread : s.lock = some before)
      (hlock : t.lock = some (work.call.edit masterKey time before)) (hnext : s.Follows t id work none) :
      Turns s id work t [.wrote id work.call, .done id]
  | counts {t : LockState} {before : LockRecord} {time : Nat}
      (hphase : work.phase = .counting before (before.counted time))
      (hopen : ∀ time ∈ before.lockedUntil, time ≤ s.now) (hread : s.lock = some before)
      (hlock : t.lock = some (before.counted time))
      (hnext : s.Follows t id work (some (.guessing before (before.counted time)
        (before.factors.filter fun f : FactorRecord => f.kind = FactorKind.pin) true))) :
      Turns s id work t []
  | resets {t : LockState} {before : LockRecord} {masterKey : Bytes} {factorId : String}
      (hcall : work.call.unlocks = true) (hlisted : ∃ f ∈ before.factors, f.id = factorId)
      (hread : s.lock = some before) (hnone : ∀ call ∈ s.calls.entries, call.2.phase.waits = false)
      (hlock : t.lock = some before.cleared) (hnext : s.Follows t id work (some (.opened masterKey))) :
      Turns s id work t [.unlocked id factorId]
  | clears {t : LockState} (hphase : work.phase = .clearing) (hlock : t.lock = none)
      (hnext : s.Follows t id work none) : Turns s id work t [.outcome id .wiped]

section Steps
variable {derive : String → Bytes → Nat → Bytes} {s : LockState} {id : Nat} {work : LockWork}
  {tab : LockTab}

theorem follows_goOn (phase : LockPhase) : s.Follows (s.goOn id work phase) id work (some phase) :=
  ⟨rfl, rfl⟩

theorem follows_finish : s.Follows (s.finish id) id work none := ⟨rfl, rfl⟩

variable {call : LockCall}

theorem unlocks_of_attempts (h : call.attempts = true) : call.unlocks = true := by
  cases call <;> simp_all [LockCall.attempts, LockCall.unlocks]

theorem edit_unlocks (h : call.unlocks = true) (masterKey : Bytes) (time : Nat)
    (record : LockRecord) : call.edit masterKey time record = record := by
  cases call <;> simp_all [LockCall.unlocks, LockCall.edit]

theorem edit_cleared (call : LockCall) (masterKey : Bytes) (time : Nat) (record : LockRecord) :
    call.edit masterKey time record.cleared = (call.edit masterKey time record).cleared := by
  cases call with
  | removeFactor factorId =>
    by_cases hlast : (record.factors.filter fun f => f.id ≠ factorId) = []
    · have hcleared : (record.cleared.factors.filter fun f => f.id ≠ factorId) = [] := hlast
      rw [LockCall.edit, LockCall.edit, if_pos hlast, if_pos hcleared]
    · have hcleared : ¬ (record.cleared.factors.filter fun f => f.id ≠ factorId) = [] := hlast
      rw [LockCall.edit, LockCall.edit, if_neg hlast, if_neg hcleared]
      rfl
  | _ => rfl

theorem edit_attempts (call : LockCall) (masterKey : Bytes) (time : Nat) (record : LockRecord) :
    (call.edit masterKey time record).failedAttempts = record.failedAttempts := by
  cases call with
  | removeFactor factorId =>
    simp only [LockCall.edit]
    split <;> rfl
  | _ => rfl

theorem map_edit_unlocks (h : call.unlocks = true) (masterKey : Bytes) (time : Nat)
    (record : Option LockRecord) : record.map (call.edit masterKey time) = record := by
  cases record with
  | none => rfl
  | some record => exact congrArg some (edit_unlocks h masterKey time record)

theorem turns_goOn {phase : LockPhase} {out : List LockOutput} (hgot : ∀ r, phase ≠ .got r)
    (hwriting : ∀ before record, phase ≠ .writing before record) (hwaits : phase.waits = false)
    (hfact : LockWork.Fact { work with phase := phase } s.now) (hkind : LockWork.Kind { work with phase := phase })
    (hout : out = [] ∨ out = [.guessed id] ∧ work.phase.waits = true) :
    Turns s id work (s.goOn id work phase) out :=
  .goes hgot (fun before record h => absurd h (hwriting before record)) hwaits hfact hkind hout rfl (follows_goOn phase)

theorem past_of_open {lockedUntil : Option Nat} {now : Nat}
    (h : ((lockedUntil.filter (· ≠ 0)).filter fun time => decide (now < time)) = none) :
    ∀ time ∈ lockedUntil, time ≤ now := by
  intro time htime
  cases htime
  by_cases hzero : time = 0
  · omega
  · by_cases hfuture : now < time
    · simp [Option.filter, hzero, hfuture] at h
    · omega

variable {record : Option LockRecord}

theorem turns_finish {o : LockOutput} (hphase : work.phase = .got record) (hout : o.ends id)
    (hidle : record = none ∨ work.call.unlocks = true ∨ o = .threw id lockedMessage) :
    Turns s id work (s.finish id) [o] := by
  refine .ends hout (by simp [hphase]) ?_ rfl follows_finish
  cases hidle with
  | inl hnone =>
    subst hnone
    exact .inr (.inr ⟨none, [], 0, hphase, rfl⟩)
  | inr hidle =>
    cases hidle with
    | inl hunlocks => exact .inl hunlocks
    | inr hlocked => exact .inr (.inl hlocked)

theorem turns_makes {before made : LockRecord} {masterKey : Bytes} (hphase : work.phase = .got record)
    (hcall : work.call.onRecord = true) (htab : s.tabs.get work.tab = some tab) (hkey : tab.masterKey = some masterKey)
    (hmade : made = work.call.edit masterKey s.now before)
    (hremoved : ∀ id, work.call = .removeFactor id → ∀ f ∈ made.factors, f.id ≠ id) :
    Turns s id work (s.goOn id work (.writing before made)) [] := by
  have hfact : LockWork.Fact { work with phase := .writing before made } s.now :=
    ⟨⟨masterKey, s.now, hmade⟩, hremoved⟩
  refine .goes (by simp) ?_ rfl hfact hcall (.inl rfl) rfl (follows_goOn _)
  intro before' made' h
  cases h
  refine ⟨record, masterKey, hphase, ?_, hmade⟩
  rw [LockState.keyOf, htab, Option.bind_some, hkey]

/-- The record has been read: the call writes what it makes of it, or there is nothing to write. -/
theorem turns_got (hphase : work.phase = .got record) (hcall : work.call.onRecord = true)
    (htab : s.tabs.get work.tab = some tab) :
    Turns s id work (s.got derive id work tab record).1 (s.got derive id work tab record).2 := by
  obtain ⟨tabId, call, phase⟩ := work
  cases call with
  | addFactor kind factorKey factorId salt iterations label =>
    cases record with
    | none => exact turns_finish hphase rfl (.inl rfl)
    | some lock =>
      simp only [LockState.got]
      split
      · exact turns_finish hphase rfl (.inr (.inr rfl))
      · rename_i masterKey hkey
        exact turns_makes hphase hcall htab hkey rfl (by simp)
  | removeFactor factorId =>
    cases record with
    | none => exact turns_finish hphase rfl (.inl rfl)
    | some lock =>
      simp only [LockState.got]
      split
      · exact turns_finish hphase rfl (.inr (.inr rfl))
      · rename_i masterKey hkey
        split
        · rename_i hlast
          refine .ends rfl ?_ (.inr (.inr ⟨some lock, masterKey, 0, hphase, ?_⟩)) rfl follows_finish
          · change phase = _ at hphase
            simp [hphase]
          have halone : (LockCall.removeFactor factorId).edit masterKey 0 lock.cleared = lock.cleared := by
            rw [edit_cleared, LockCall.edit, if_pos hlast]
          exact congrArg some halone
        · rename_i hleft
          refine turns_makes hphase hcall htab hkey ?_ ?_
          · rw [LockCall.edit, if_neg hleft]
          · intro removed hremoved f hf
            cases hremoved
            exact of_decide_eq_true (mem_filter.1 hf).2
  | unlockWithPin pin =>
    cases record with
    | none => exact turns_finish hphase ⟨rfl, by simp⟩ (.inl rfl)
    | some lock =>
      simp only [LockState.got]
      split
      · exact turns_finish hphase ⟨rfl, by simp⟩ (.inr (.inl rfl))
      · rename_i hopen
        split
        · exact turns_finish hphase ⟨rfl, by simp⟩ (.inr (.inl rfl))
        · exact turns_goOn (by simp) (by simp) rfl ⟨⟨s.now, rfl⟩, past_of_open hopen⟩ rfl (.inl rfl)
  | unlockWithFactorKey factorId factorKey =>
    cases record with
    | none => exact turns_finish hphase ⟨rfl, by simp⟩ (.inl rfl)
    | some lock =>
      simp only [LockState.got]
      split
      · exact turns_finish hphase ⟨rfl, by simp⟩ (.inr (.inl rfl))
      · rename_i factor hfind
        split
        · exact turns_finish hphase ⟨rfl, by simp⟩ (.inr (.inl rfl))
        · have hmem : factor ∈ lock.factors := mem_of_find?_eq_some hfind
          exact turns_goOn (by simp) (by simp) rfl ⟨rfl, factor, hmem, rfl⟩ rfl (.inl rfl)
  | updateLockSettings patch =>
    cases record with
    | none => exact turns_finish hphase rfl (.inl rfl)
    | some lock =>
      simp only [LockState.got]
      split
      · exact turns_finish hphase rfl (.inr (.inr rfl))
      · rename_i masterKey hkey
        exact turns_makes hphase hcall htab hkey rfl (by simp)
  | _ => cases hcall

/-- A PIN is tried on one factor, or there is none left. -/
theorem turns_guesses {before record : LockRecord} {rest : List FactorRecord} {first : Bool}
    (hphase : work.phase = .guessing before record rest first) (hfact : work.Fact s.now)
    (hkind : work.Kind) (htab : s.tabs.get work.tab = some tab) :
    Turns s id work (s.guesses derive id work before record first rest).1
      (s.guesses derive id work before record first rest).2 := by
  obtain ⟨tabId, call, phase⟩ := work
  change phase = _ at hphase
  subst hphase
  change call.attempts = true at hkind
  obtain ⟨hsame, hrest⟩ := hfact
  have hunlocks := unlocks_of_attempts hkind
  cases rest with
  | nil =>
    simp only [LockState.guesses]
    split
    · rw [htab]
      exact @Turns.goes s id _ _ .clearing [] (by simp) (by simp) rfl trivial hkind (.inl rfl) rfl ⟨rfl, rfl⟩
    · exact .ends ⟨rfl, by simp⟩ (by simp) (.inl hunlocks) rfl follows_finish
  | cons factor rest =>
    cases call with
    | unlockWithPin pin =>
      simp only [LockState.guesses]
      have hout : (if first = true then [LockOutput.guessed id] else []) = [] ∨
          (if first = true then [LockOutput.guessed id] else []) = [.guessed id] ∧ first = true := by
        cases first <;> simp
      split
      · exact .ends rfl (by simp) (.inl rfl) rfl follows_finish
      · split
        · have hfactors : record.cleared.factors = before.cleared.factors := by rw [hsame]
          have hmem : factor ∈ record.cleared.factors := hfactors ▸ hrest factor mem_cons_self
          exact turns_goOn (by simp) (by simp) rfl ⟨hsame.symm, factor, hmem, rfl⟩ rfl hout
        · refine turns_goOn (by simp) (by simp) rfl ⟨hsame, ?_⟩ rfl hout
          intro f hf
          exact hrest f (mem_cons_of_mem _ hf)
    | _ => cases hkind

theorem turns_continues (hfact : work.Fact s.now) (hkind : work.Kind) (hdate : s.upToDate work = true)
    (htab : s.tabs.get work.tab = some tab) :
    Turns s id work (s.continues derive id work tab).1 (s.continues derive id work tab).2 := by
  cases hphase : work.phase with
  | reading =>
    simp only [LockState.continues, hphase]
    exact .read hphase rfl (follows_goOn _)
  | got record =>
    simp only [LockState.continues, hphase]
    simp only [LockWork.Kind, hphase] at hkind
    exact turns_got hphase hkind htab
  | writing before record =>
    simp only [LockState.continues, hphase]
    simp only [LockState.upToDate, hphase, decide_eq_true_eq] at hdate
    simp only [LockWork.Fact, hphase] at hfact
    obtain ⟨⟨masterKey, time, rfl⟩, hremoved⟩ := hfact
    exact .writes hphase hremoved hdate rfl ⟨rfl, rfl⟩
  | counting before record =>
    simp only [LockState.continues, hphase]
    simp only [LockState.upToDate, hphase, decide_eq_true_eq] at hdate
    simp only [LockWork.Fact, hphase] at hfact
    obtain ⟨⟨time, rfl⟩, hopen⟩ := hfact
    exact .counts hphase hopen hdate rfl ⟨rfl, rfl⟩
  | guessing before record rest first =>
    simp only [LockState.continues, hphase]
    exact turns_guesses hphase hfact hkind htab
  | resetting before record masterKey factorId =>
    simp only [LockState.continues, hphase]
    simp only [LockState.upToDate, hphase, Bool.and_eq_true, decide_eq_true_eq, all_eq_true,
      Bool.not_eq_true'] at hdate
    simp only [LockWork.Fact, hphase] at hfact
    simp only [LockWork.Kind, hphase] at hkind
    obtain ⟨rfl, hlisted⟩ := hfact
    exact .resets hkind hlisted hdate.1 hdate.2 rfl ⟨rfl, rfl⟩
  | opened masterKey =>
    simp only [LockState.continues, hphase]
    simp only [LockWork.Kind, hphase] at hkind
    exact .ends ⟨rfl, by simp⟩ (by simp [hphase]) (.inl hkind) rfl ⟨rfl, rfl⟩
  | clearing =>
    simp only [LockWork.Kind, hphase] at hkind
    cases hcall : work.call with
    | unlockWithPin pin =>
      simp only [LockState.continues, hphase, hcall]
      exact .clears hphase rfl ⟨rfl, rfl⟩
    | _ => simp [LockCall.attempts, hcall] at hkind
  | _ => simp [LockWork.Fact, hphase] at hfact

end Steps
end Mtmux.Browser
