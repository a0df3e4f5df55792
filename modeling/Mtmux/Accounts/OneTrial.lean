import Mtmux.Accounts.Trials

/-! An account has one trial, started by whoever has earned it; whether it still runs is a matter of time. -/
namespace Mtmux.Accounts
open Billing OrderedMap Async

abbrev CheckHistory : Type := Nat → Option (Check × DbLog)

def AccountDb.trialEndsAt (db : AccountDb) (userId : String) : Option Nat :=
  (db.subscriptions.get userId).bind (·.trialEndsAt)

structure SameTrial (db db' : AccountDb) (userId : String) : Prop where
  started : db'.trialStartedAt userId = db.trialStartedAt userId
  ends : db'.trialEndsAt userId = db.trialEndsAt userId

theorem sameTrial_of_subscriptions {db db' : AccountDb} (h : db'.subscriptions = db.subscriptions)
    (userId : String) : SameTrial db db' userId := by
  refine ⟨?_, ?_⟩
  · rw [AccountDb.trialStartedAt, h]
    rfl
  · rw [AccountDb.trialEndsAt, h]
    rfl

theorem sameTrial_change (db : AccountDb) (e : AccountChange) (userId : String) :
    SameTrial db (db.change e) userId := by
  cases e with
  | mirrors other data plan =>
    refine ⟨?_, ?_⟩
    · simp only [AccountDb.trialStartedAt, AccountDb.change, get_set]
      by_cases hid : userId = other
      · subst hid
        simp [BillingDb.mirrored]
      · simp [hid]
    · simp only [AccountDb.trialEndsAt, AccountDb.change, get_set]
      by_cases hid : userId = other
      · subst hid
        simp [BillingDb.mirrored]
      · simp [hid]
  | _ => exact ⟨rfl, rfl⟩

theorem startTrial_spec (db : AccountDb) (id userId : String) (startedAt endsAt : Nat) :
    (SameTrial db (db.startTrial id startedAt endsAt).1 userId ∧
      ((db.startTrial id startedAt endsAt).2 = 0 ∧ db.trialStartedAt id ≠ none ∨ userId ≠ id)) ∨
    userId = id ∧ db.trialStartedAt id = none ∧
      (db.startTrial id startedAt endsAt).1.trialStartedAt id = some startedAt ∧
      (db.startTrial id startedAt endsAt).1.trialEndsAt id = some endsAt := by
  have hother : ∀ row : SubscriptionRow, userId ≠ id →
      SameTrial db { db with subscriptions := db.subscriptions.set id row } userId := by
    intro row hne
    refine ⟨?_, ?_⟩
    · simp only [AccountDb.trialStartedAt, get_set, if_neg hne]
    · simp only [AccountDb.trialEndsAt, get_set, if_neg hne]
  unfold AccountDb.startTrial
  cases hget : db.subscriptions.get id with
  | none =>
    by_cases hid : userId = id
    · refine .inr ⟨hid, ?_, ?_, ?_⟩
      · simp [AccountDb.trialStartedAt, hget]
      · simp [AccountDb.trialStartedAt, get_set, AccountDb.trialRow]
      · simp [AccountDb.trialEndsAt, get_set, AccountDb.trialRow]
    · exact .inl ⟨hother _ hid, .inr hid⟩
  | some row =>
    dsimp only
    have hstarted : db.trialStartedAt id = row.trialStartedAt := by
      rw [AccountDb.trialStartedAt, hget]
      rfl
    by_cases hnone : row.trialStartedAt = none
    · rw [if_pos hnone]
      by_cases hid : userId = id
      · refine .inr ⟨hid, hstarted.trans hnone, ?_, ?_⟩
        · simp [AccountDb.trialStartedAt, get_set]
        · simp [AccountDb.trialEndsAt, get_set]
      · exact .inl ⟨hother _ hid, .inr hid⟩
    · rw [if_neg hnone]
      refine .inl ⟨⟨rfl, rfl⟩, .inl ⟨rfl, ?_⟩⟩
      rw [hstarted]
      exact hnone

theorem sameTrial_exec (db : AccountDb) {c : Statement} (hc : Plain c) (fate : Fate) (userId : String) :
    SameTrial db (db.exec c fate).1 userId := by
  cases fate with
  | fails =>
    cases c <;> exact ⟨rfl, rfl⟩
  | works =>
    cases c with
    | startTrial id startedAt endsAt => exact absurd rfl (hc id startedAt endsAt)
    | insertServer row =>
      refine sameTrial_of_subscriptions ?_ userId
      simp only [AccountDb.exec]
      split
      · rfl
      · rfl
    | renameServer id owner name slug =>
      refine sameTrial_of_subscriptions ?_ userId
      simp only [AccountDb.exec]
      split
      · rfl
      · rfl
    | _ => exact ⟨rfl, rfl⟩

theorem trial_exec (db : AccountDb) (c : Statement) (fate : Fate) (userId : String) :
    (SameTrial db (db.exec c fate).1 userId ∧ ∀ startedAt endsAt n, c = .startTrial userId startedAt endsAt →
        (⟨c, (db.exec c fate).2⟩ : Async.Exchange DbError Answer) =
          ⟨.startTrial userId startedAt endsAt, .ok n⟩ → n = (0 : Nat) ∧ db.trialStartedAt userId ≠ none) ∨
    ∃ startedAt endsAt, c = .startTrial userId startedAt endsAt ∧ db.trialStartedAt userId = none ∧
      (db.exec c fate).1.trialStartedAt userId = some startedAt ∧
      (db.exec c fate).1.trialEndsAt userId = some endsAt := by
  by_cases hc : Plain c
  · refine .inl ⟨sameTrial_exec db hc fate userId, ?_⟩
    intro startedAt endsAt n he
    exact absurd he (hc userId startedAt endsAt)
  · obtain ⟨id, startedAt, endsAt, rfl⟩ : ∃ id startedAt endsAt, c = .startTrial id startedAt endsAt := by
      by_contra hnone
      exact hc fun id startedAt endsAt he => hnone ⟨id, startedAt, endsAt, he⟩
    cases fate with
    | fails =>
      refine .inl ⟨⟨rfl, rfl⟩, ?_⟩
      intro startedAt' endsAt' n he hx
      cases he
      cases hx
    | works =>
      cases startTrial_spec db id userId startedAt endsAt with
      | inl hsame =>
        refine .inl ⟨hsame.1, ?_⟩
        intro startedAt' endsAt' n he hx
        cases he
        cases hsame.2 with
        | inl hzero =>
          refine ⟨?_, hzero.2⟩
          simp only [AccountDb.exec, Sigma.mk.injEq, heq_eq_eq, Except.ok.injEq, true_and] at hx
          exact hx.symm.trans hzero.1
        | inr hne => exact absurd rfl hne
      | inr hnew =>
        obtain ⟨rfl, hnone, hstarted, hends⟩ := hnew
        exact .inr ⟨startedAt, endsAt, rfl, hnone, hstarted, hends⟩

/-- The trial over a run: it stays as it was begun, and what the checks have been answered agrees with it. -/
structure TrialKept (db : AccountDb) (userId : String) (s : AccountDb) (h : CheckHistory) : Prop where
  begun : ∀ t, db.trialStartedAt userId = some t → s.trialStartedAt userId = some t
  ends : db.trialStartedAt userId = none → ∀ t, s.trialStartedAt userId = some t →
    s.trialEndsAt userId = some (t + trialMs)
  seen : ∀ {i row}, Heard h ⟨.selectSubscription userId, .ok row⟩ i → row.bind (·.trialStartedAt) = none →
    db.trialStartedAt userId = none
  asked : ∀ {i startedAt endsAt n}, Heard h ⟨.startTrial userId startedAt endsAt, .ok n⟩ i →
    db.trialStartedAt userId = none ∧ s.trialStartedAt userId ≠ none
  one : ∀ {i j a b n a' b' n'}, Heard h ⟨.startTrial userId a b, .ok n⟩ i →
    Heard h ⟨.startTrial userId a' b', .ok n'⟩ j → 0 < n → 0 < n' → i = j

section Runs
variable {db s : AccountDb} {userId : String} {h : CheckHistory} {i : Nat} {check : Check} {log : DbLog}

theorem TrialKept.same {s' : AccountDb} (hkept : TrialKept db userId s h) (hsame : SameTrial s s' userId) :
    TrialKept db userId s' h := by
  refine ⟨?_, ?_, hkept.seen, ?_, hkept.one⟩
  · intro t ht
    rw [hsame.started]
    exact hkept.begun t ht
  · intro hnone t ht
    rw [hsame.started] at ht
    rw [hsame.ends]
    exact hkept.ends hnone t ht
  · intro i startedAt endsAt n hasked
    rw [hsame.started]
    exact hkept.asked hasked

theorem TrialKept.start (hkept : TrialKept db userId s h) (hi : h i = none) :
    TrialKept db userId s (Function.update h i (some (check, []))) where
  begun := hkept.begun
  ends := hkept.ends
  seen hseen := hkept.seen ((heard_start hi).1 hseen)
  asked hasked := hkept.asked ((heard_start hi).1 hasked)
  one hasked hasked' := hkept.one ((heard_start hi).1 hasked) ((heard_start hi).1 hasked')

theorem TrialKept.answer {x : Async.Exchange DbError Answer} (hkept : TrialKept db userId s h)
    (hi : h i = some (check, log))
    (hseen : ∀ row, x = ⟨.selectSubscription userId, .ok row⟩ → row.bind (·.trialStartedAt) = none →
      db.trialStartedAt userId = none) (hasked : ∀ a b n, x = ⟨.startTrial userId a b, .ok n⟩ →
      db.trialStartedAt userId = none ∧ s.trialStartedAt userId ≠ none)
    (hfirst : ∀ a b n, x = ⟨.startTrial userId a b, .ok n⟩ → 0 < n →
      ∀ j a' b' n', Heard h ⟨.startTrial userId a' b', .ok n'⟩ j → 0 < n' → j = i) :
    TrialKept db userId s (Function.update h i (some (check, log ++ [x]))) := by
  refine ⟨hkept.begun, hkept.ends, ?_, ?_, ?_⟩
  · intro j row hheard hnone
    cases (heard_answer hi).1 hheard with
    | inl hold => exact hkept.seen hold hnone
    | inr hnew => exact hseen row hnew.1.symm hnone
  · intro j a b n hheard
    cases (heard_answer hi).1 hheard with
    | inl hold => exact hkept.asked hold
    | inr hnew => exact hasked a b n hnew.1.symm
  · intro j k a b n a' b' n' hheard hheard' hn hn'
    cases (heard_answer hi).1 hheard with
    | inl hold =>
      cases (heard_answer hi).1 hheard' with
      | inl hold' => exact hkept.one hold hold' hn hn'
      | inr hnew =>
        rw [hnew.2]
        exact hfirst a' b' n' hnew.1.symm hn' j a b n hold hn
    | inr hnew =>
      cases (heard_answer hi).1 hheard' with
      | inl hold' =>
        rw [hnew.2]
        exact (hfirst a b n hnew.1.symm hn k a' b' n' hold' hn').symm
      | inr hnew' => rw [hnew.2, hnew'.2]

theorem trialKept_exec {c : Statement} {fate : Fate} {next : Except DbError (Answer c) → DbTask Decision}
    (hkept : TrialKept db userId s h) (hi : h i = some (check, log))
    (hreach : check.program.Reaches log (.await c next)) : TrialKept db userId (s.exec c fate).1
      (Function.update h i (some (check, log ++ [⟨c, (s.exec c fate).2⟩]))) := by
  -- whoever has found no trial has found it so from the start
  have hnone : s.trialStartedAt userId = none → db.trialStartedAt userId = none := by
    intro hs
    cases hdb : db.trialStartedAt userId with
    | none => rfl
    | some t =>
      rw [hkept.begun t hdb] at hs
      cases hs
  have hearned : ∀ a b, c = .startTrial userId a b → db.trialStartedAt userId = none ∧ b = a + trialMs := by
    rintro a b rfl
    obtain ⟨-, hends, hearned⟩ := asks_check hreach
    obtain ⟨first, plan, refusal, d, row, approval, d', hlog, -, -, -, hrow, -⟩ := hearned.steps
    exact ⟨hkept.seen ((holds_here hi).2 (by simp [hlog])) hrow, hends⟩
  have hseen : ∀ row, (⟨c, (s.exec c fate).2⟩ : Async.Exchange DbError Answer) =
      ⟨.selectSubscription userId, .ok row⟩ → row.bind (·.trialStartedAt) = none →
      db.trialStartedAt userId = none := by
    intro row hx hrow
    have hc : c = .selectSubscription userId := congrArg Sigma.fst hx
    subst hc
    cases fate with
    | fails => cases hx
    | works =>
      cases hx
      exact hnone hrow
  cases trial_exec s c fate userId with
  | inl hsame =>
    refine (hkept.same hsame.1).answer hi hseen ?_ ?_
    · intro a b n hx
      have hc : c = .startTrial userId a b := congrArg Sigma.fst hx
      obtain ⟨-, hstarted⟩ := hsame.2 a b n hc hx
      rw [hsame.1.started]
      exact ⟨(hearned a b hc).1, hstarted⟩
    · intro a b n hx hn
      have hc : c = .startTrial userId a b := congrArg Sigma.fst hx
      obtain ⟨rfl, -⟩ := hsame.2 a b n hc hx
      cases hn
  | inr hnew =>
    obtain ⟨a, b, rfl, hs, hstarted, hends⟩ := hnew
    obtain ⟨hdb, rfl⟩ := hearned a b rfl
    have hnobody : ∀ j a' b' n', ¬ Heard h ⟨.startTrial userId a' b', .ok n'⟩ j :=
      fun j a' b' n' hasked => (hkept.asked hasked).2 hs
    have hafter : TrialKept db userId (s.exec (.startTrial userId a (a + trialMs)) fate).1 h := by
      refine ⟨?_, ?_, hkept.seen, ?_, hkept.one⟩
      · intro t ht
        rw [hdb] at ht
        cases ht
      · intro _ t ht
        rw [hstarted] at ht
        cases ht
        exact hends
      · intro j a' b' n' hasked
        exact absurd hasked (hnobody j a' b' n')
    refine hafter.answer hi hseen ?_ ?_
    · intro a' b' n hx
      rw [hstarted]
      exact ⟨hdb, by simp⟩
    · intro a' b' n hx hn j a'' b'' n' hasked
      exact absurd hasked (hnobody j a'' b'' n')

theorem trialKept_run (db : AccountDb) (userId : String) (es : List CheckEvent) :
    TrialKept db userId ((checkMachine db).run es).shared ((checkMachine db).run es).history := by
  induction es using List.reverseRecOn with
  | nil =>
    refine ⟨fun t ht => ht, ?_, ?_, ?_, ?_⟩
    · intro hnone t ht
      change db.trialStartedAt userId = some t at ht
      rw [hnone] at ht
      cases ht
    · rintro i row ⟨_, _, hi, -⟩
      cases hi
    · rintro i a b n ⟨_, _, hi, -⟩
      cases hi
    · rintro i j a b n a' b' n' ⟨_, _, hi, -⟩
      cases hi
  | append_singleton es e ih =>
    rw [Machine.run_snoc]
    refine history_step (I := fun s h => TrialKept db userId s h) program_readOnly
      (stands_run checkHost _ es) (fresh_run checkHost _ es) ih ?_ ?_ ?_
    · exact fun check he hnone => ih.start hnone
    · intro i fate check log c next he hget hreach
      exact trialKept_exec ih (World.history_get hget) hreach
    · intro e' he
      exact ih.same (sameTrial_change _ e' userId)

end Runs

theorem trial_step {w : CheckWorld} (hstands : ∀ i r, w.tasks.get i = some r → r.Stands checkHost)
    (hfresh : ∀ i r, w.tasks.get i = some r → i < w.next) (e : CheckEvent) (userId : String) :
    SameTrial w.shared (checkHost.step w e).1.shared userId ∨
      ∃ i fate check log startedAt endsAt next, e = .exec i fate ∧
        w.tasks.get i = some ⟨check, log, .asking (.startTrial userId startedAt endsAt) next⟩ ∧
        check.program.Reaches log (.await (.startTrial userId startedAt endsAt) next) ∧
        w.shared.trialStartedAt userId = none := by
  refine history_step (I := fun s _ => SameTrial w.shared s userId ∨
      ∃ i fate check log startedAt endsAt next, e = .exec i fate ∧
        w.tasks.get i = some ⟨check, log, .asking (.startTrial userId startedAt endsAt) next⟩ ∧
        check.program.Reaches log (.await (.startTrial userId startedAt endsAt) next) ∧
        w.shared.trialStartedAt userId = none)
    program_readOnly hstands hfresh (.inl ⟨rfl, rfl⟩) ?_ ?_ ?_
  · intro check he hnone
    exact .inl ⟨rfl, rfl⟩
  · intro i fate check log c next he hget hreach
    cases trial_exec w.shared c fate userId with
    | inl hsame => exact .inl hsame.1
    | inr hnew =>
      obtain ⟨startedAt, endsAt, rfl, hnone, -⟩ := hnew
      exact .inr ⟨i, fate, check, log, startedAt, endsAt, next, he, hget, hreach, hnone⟩
  · intro e' he
    exact .inl (sameTrial_change _ e' userId)

theorem resolution_active {s : AccountDb} {userId : String} {t : Nat}
    (hstarted : s.trialStartedAt userId = some t) (hends : s.trialEndsAt userId = some (t + trialMs)) :
    (s.resolution userId).trial.status = .active ↔ s.now < t + trialMs := by
  unfold AccountDb.trialStartedAt at hstarted
  unfold AccountDb.trialEndsAt at hends
  rw [AccountDb.resolution, resolvePlan_trial, hstarted, hends]
  simp only [trialOf]
  split
  · rename_i hin
    exact ⟨fun _ => hin, fun _ => rfl⟩
  · rename_i hnot
    exact ⟨fun h => (nomatch h), fun hin => absurd hin hnot⟩

theorem asksForTrial_mem {log : DbLog} (h : asksForTrial log = true) :
    ∃ userId startedAt endsAt n, ⟨.startTrial userId startedAt endsAt, .ok n⟩ ∈ log := by
  obtain ⟨⟨c, answer⟩, hmem, hc⟩ := List.any_eq_true.1 h
  cases answer with
  | error e => cases c <;> cases hc
  | ok n =>
    cases c with
    | startTrial userId startedAt endsAt => exact ⟨userId, startedAt, endsAt, n, hmem⟩
    | _ => cases hc

/-- An account has one trial, and every answer is given under it, just when answers are given in time. -/
theorem one_trial (db : AccountDb) (userId : String) (es : List CheckEvent) :
    OneTrial db userId es ↔ AnswersInTime db userId es := by
  -- a check that has asked for the trial goes on to its answer
  have hends : ∀ x ∈ (checkMachine db).trace es, ∀ i check log rest, x.event = .resume i →
      x.pre.tasks.get i = some ⟨check, log, .answered rest⟩ → check.account = some userId → asksForTrial log = true →
      (∃ decision, Answers x i check log decision ∧ decision.allowed = true) ∧ ∃ t,
        x.pre.shared.trialStartedAt userId = some t ∧ x.pre.shared.trialEndsAt userId = some (t + trialMs) := by
    intro x hx i check log rest hevent hget haccount hasks
    obtain ⟨before, e, after, -, rfl⟩ := ((checkMachine db).mem_trace es x).1 hx
    obtain rfl : e = .resume i := hevent
    have hkept := trialKept_run db userId before
    have hreach := stands_run checkHost db before i _ hget rest rfl
    have hi : ((checkMachine db).run before).history i = some (check, log) := by
      change (((checkMachine db).run before).tasks.get i).map _ = _
      rw [show ((checkMachine db).run before).tasks.get i = _ from hget]
      rfl
    obtain ⟨id, a, b, n, hmem⟩ := asksForTrial_mem hasks
    obtain ⟨decision, rfl, hallowed, hid⟩ := hreach.returned (program_returns check) (by simp [Plain]) hmem
    cases haccount.symm.trans (hid id a b rfl)
    refine ⟨⟨decision, ⟨rfl, ⟨_, hget⟩, ?_⟩, hallowed⟩, ?_⟩
    · change (checkHost.step ((checkMachine db).run before) (.resume i)).1.tasks.get i = _
      have hget : ((checkMachine db).run before).tasks.get i = _ := hget
      simp [Host.step, hget, World.goOn, advance, Pause.stage]
    · obtain ⟨hdb, hstarted⟩ := hkept.asked ((holds_here hi).2 hmem)
      obtain ⟨t, ht⟩ := Option.ne_none_iff_exists'.1 hstarted
      exact ⟨t, ht, hkept.ends hdb t ht⟩
  have hstep : ∀ x ∈ (checkMachine db).trace es, SameTrial x.pre.shared x.post.shared userId ∨
      ∃ i fate check log startedAt endsAt next, x.event = .exec i fate ∧
        x.pre.tasks.get i = some ⟨check, log, .asking (.startTrial userId startedAt endsAt) next⟩ ∧
        check.program.Reaches log (.await (.startTrial userId startedAt endsAt) next) ∧
        x.pre.shared.trialStartedAt userId = none := by
    intro x hx
    obtain ⟨before, e, after, -, rfl⟩ := ((checkMachine db).mem_trace es x).1 hx
    exact trial_step (stands_run checkHost db before) (fresh_run checkHost db before) e userId
  constructor
  · intro h x hx i check log rest hevent hget haccount hasks
    obtain ⟨⟨decision, hanswers, hallowed⟩, t, ht, hend⟩ := hends x hx i check log rest hevent hget haccount hasks
    cases h.backed x hx i check log decision hanswers haccount hasks hallowed with
    | inr hplan => exact .inr hplan
    | inl hactive =>
      refine .inl ?_
      intro t' ht'
      rw [ht] at ht'
      cases ht'
      exact (resolution_active ht hend).1 hactive
  · intro h
    refine ⟨?_, ?_, ?_, ?_⟩
    · intro x hx t ht
      cases hstep x hx with
      | inl hsame =>
        rw [hsame.started]
        exact ht
      | inr hnew =>
        obtain ⟨-, -, -, -, -, -, -, -, -, -, hnone⟩ := hnew
        rw [hnone] at ht
        cases ht
    · intro i j check check' log log' decision decision' hi hj haccount haccount' hstarted hstarted'
      have hkept := trialKept_run db userId es
      have hreach := stands_run checkHost db es i _ hi _ rfl
      have hreach' := stands_run checkHost db es j _ hj _ rfl
      obtain ⟨a, n, hmem, hn⟩ := check_announces haccount hreach hstarted
      obtain ⟨a', n', hmem', hn'⟩ := check_announces haccount' hreach' hstarted'
      exact hkept.one ((holds_here (World.history_get hi)).2 hmem) ((holds_here (World.history_get hj)).2 hmem') hn hn'
    · intro x hx hnone t ht
      cases hstep x hx with
      | inl hsame =>
        rw [hsame.started, hnone] at ht
        cases ht
      | inr hnew =>
        obtain ⟨i, fate, check, log, startedAt, endsAt, next, he, hget, hreach, -⟩ := hnew
        obtain ⟨haccount, -, hearned⟩ := asks_check hreach
        exact ⟨i, fate, check, log, startedAt, endsAt, next, he, hget, haccount, hearned⟩
    · rintro x hx i check log - ⟨hevent, ⟨rest, hget⟩, -⟩ haccount hasks -
      cases h x hx i check log rest hevent hget haccount hasks with
      | inr hplan => exact .inr hplan
      | inl htime =>
        obtain ⟨-, t, ht, hend⟩ := hends x hx i check log rest hevent hget haccount hasks
        exact .inl ((resolution_active ht hend).2 (htime t ht))

/-- Two machines are renamed at once. Both checks find no trial; one starts it, and a week goes by before the
other asks. -/
def lateRename : List CheckEvent :=
  [.start (.rename "user" .free), .start (.rename "user" .free), .exec 0 .works, .resume 0, .exec 1 .works,
    .resume 1, .exec 0 .works, .resume 0, .other (.passes trialMs), .exec 1 .works]

def freshDb : AccountDb := ⟨.empty, [], [], [], 0⟩

def lateLog : DbLog :=
  [⟨.selectSubscription "user", .ok none⟩, ⟨.startTrial "user" 0 (0 + trialMs), .ok (0 : Nat)⟩]

def lateAnswer : CheckEntry := (checkMachine freshDb).entry ((checkMachine freshDb).run lateRename) (.resume 1)

/-- It is allowed under a trial that is over. -/
theorem not_one_trial : ¬ ∀ db userId es, OneTrial db userId es := by
  intro h
  have hx : lateAnswer ∈ (checkMachine freshDb).trace (lateRename ++ [.resume 1]) :=
    ((checkMachine freshDb).mem_trace _ _).2 ⟨lateRename, .resume 1, [], rfl, rfl⟩
  have hbefore : ∃ rest, ((checkMachine freshDb).run lateRename).tasks.get 1 =
      some ⟨.rename "user" .free, lateLog, .answered rest⟩ := ⟨_, rfl⟩
  have hafter : (checkHost.step ((checkMachine freshDb).run lateRename) (.resume 1)).1.tasks.get 1 =
      some ⟨.rename "user" .free, lateLog, .returned (.ok allowed)⟩ := rfl
  have hover : (((checkMachine freshDb).run lateRename).shared.resolution "user").trial.status = .expired := by
    decide +kernel
  have hplan : ((checkMachine freshDb).run lateRename).shared.allows (.rename "user" .free) "user" = false := by
    decide +kernel
  have hasks : asksForTrial lateLog = true := rfl
  have hbacked := (h freshDb "user" (lateRename ++ [.resume 1])).backed lateAnswer hx 1 _ lateLog allowed
    ⟨rfl, hbefore, hafter⟩ rfl hasks rfl
  cases hbacked with
  | inl hactive =>
    have hactive' := hover.symm.trans hactive
    cases hactive'
  | inr hallows =>
    have hallows' := hplan.symm.trans hallows
    cases hallows'

end Mtmux.Accounts
