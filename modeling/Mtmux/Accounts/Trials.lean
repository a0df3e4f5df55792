import Mtmux.Accounts.Entitlements

/-! Checks that may start a trial, any number of them at once, while usage, machines and plans change. -/
namespace Mtmux.Accounts
open Billing Async

inductive Check where
  | tunnel (userId : Option String)
  | serverLimit (userId : String)
  | device (userId serverId : String) (plan : PlanId)
  | rename (userId : String) (plan : PlanId)

namespace Check

def program : Check → DbTask Decision
  | .tunnel userId => checkTunnel userId
  | .serverLimit userId => checkServerLimit userId
  | .device userId serverId plan => checkDevice userId serverId plan
  | .rename userId plan => checkRename userId plan

def account : Check → Option String
  | .tunnel userId => userId.filter fun id => decide (id ≠ "")
  | .serverLimit userId | .device userId _ _ | .rename userId _ => some userId

def evaluate : Check → PlanId → DbTask Decision
  | .tunnel userId => tunnelUnder (userId.getD "")
  | .serverLimit userId => serversUnder userId
  | .device _ serverId _ => devicesUnder serverId
  | .rename _ _ => renameUnder

def givenPlan : Check → DbTask PlanId
  | .tunnel userId => planFor (userId.getD "")
  | .serverLimit userId => planFor userId
  | .device _ _ plan | .rename _ plan => return plan

end Check

/-- What happens besides: usage, machines and devices change, the payment service writes the mirror, and time
passes. -/
inductive AccountChange where
  | usage (rows : List UsageRow)
  | servers (rows : List ServerRow)
  | devices (rows : List DeviceRow)
  | mirrors (userId : String) (data : SubscriptionData) (plan : PlanId)
  | passes (ms : Nat)

def AccountDb.change (db : AccountDb) : AccountChange → AccountDb
  | .usage rows => { db with tunnelUsage := rows }
  | .servers rows => { db with servers := rows }
  | .devices rows => { db with serverDevices := rows }
  | .mirrors userId data plan =>
    { db with
      subscriptions := db.subscriptions.set userId
        (BillingDb.mirrored (db.subscriptions.get userId) data plan) }
  | .passes ms => { db with now := db.now + ms }

def checkHost : Async.Host AccountDb Empty DbError Answer Decision Check Fate AccountChange where
  program := Check.program
  exec := AccountDb.exec
  other := AccountDb.change

abbrev CheckEvent : Type := Async.Happening Check Fate AccountChange
abbrev CheckWorld : Type := Async.World AccountDb Empty DbError Answer Decision Check
abbrev CheckEntry : Type := Machine.Entry CheckWorld CheckEvent (Nat × Empty)

def checkMachine (db : AccountDb) : Machine CheckWorld CheckEvent (Nat × Empty) := checkHost.machine db

namespace AccountDb

def trialStartedAt (db : AccountDb) (userId : String) : Option Nat :=
  (db.subscriptions.get userId).bind (·.trialStartedAt)

def resolution (db : AccountDb) (userId : String) : PlanResolution :=
  resolvePlan (db.subscriptions.get userId) db.now

/-- The check, carried out at once under the plan in force. -/
def allows (db : AccountDb) (check : Check) (userId : String) : Bool :=
  match (check.evaluate (db.resolution userId).plan).alone (fun db c => db.exec c .works) db with
  | .ok decision => decision.allowed
  | .error _ => false

end AccountDb

def asksForTrial (log : DbLog) : Bool :=
  log.any fun x => match x with
    | ⟨.startTrial _ _ _, .ok _⟩ => true
    | _ => false

def Answers (x : CheckEntry) (i : Nat) (check : Check) (log : DbLog) (decision : Decision) : Prop :=
  x.event = .resume i ∧ (∃ rest, x.pre.tasks.get i = some ⟨check, log, .answered rest⟩) ∧
    x.post.tasks.get i = some ⟨check, log, .returned (.ok decision)⟩

structure Earned (check : Check) (userId : String) (log : DbLog) : Prop where
  steps : ∃ first plan refusal refusedNow row approval grantedThen,
    log = first ++ (refusal ++ ⟨.selectSubscription userId, .ok row⟩ :: approval) ∧
    check.givenPlan.Reaches first (.done plan) ∧
    (check.evaluate plan).Reaches refusal (.done refusedNow) ∧ refusedNow.allowed = false ∧
    row.bind (·.trialStartedAt) = none ∧
    (check.evaluate trialPlan).Reaches approval (.done grantedThen) ∧ grantedThen.allowed = true

structure OneTrial (db : AccountDb) (userId : String) (es : List CheckEvent) : Prop where
  kept : ∀ x ∈ (checkMachine db).trace es, ∀ t, x.pre.shared.trialStartedAt userId = some t →
    x.post.shared.trialStartedAt userId = some t
  announced : ∀ i j check check' log log' decision decision',
    ((checkMachine db).run es).tasks.get i = some ⟨check, log, .returned (.ok decision)⟩ →
    ((checkMachine db).run es).tasks.get j = some ⟨check', log', .returned (.ok decision')⟩ →
    check.account = some userId → check'.account = some userId →
    decision.trialStarted = true → decision'.trialStarted = true → i = j
  earned : ∀ x ∈ (checkMachine db).trace es, x.pre.shared.trialStartedAt userId = none →
    ∀ t, x.post.shared.trialStartedAt userId = some t → ∃ i fate check log startedAt endsAt next,
      x.event = .exec i fate ∧
      x.pre.tasks.get i = some ⟨check, log, .asking (.startTrial userId startedAt endsAt) next⟩ ∧
      check.account = some userId ∧ Earned check userId log
  backed : ∀ x ∈ (checkMachine db).trace es, ∀ i check log decision, Answers x i check log decision →
    check.account = some userId → asksForTrial log = true → decision.allowed = true →
    (x.pre.shared.resolution userId).trial.status = .active ∨ x.pre.shared.allows check userId = true

/-- A check that has asked for the trial goes on less than a trial's length after the call that started it took its
time, or the plan in force allows the check. -/
def AnswersInTime (db : AccountDb) (userId : String) (es : List CheckEvent) : Prop :=
  ∀ x ∈ (checkMachine db).trace es, ∀ i check log rest, x.event = .resume i →
    x.pre.tasks.get i = some ⟨check, log, .answered rest⟩ → check.account = some userId → asksForTrial log = true →
    (∀ t, x.pre.shared.trialStartedAt userId = some t → x.pre.shared.now < t + trialMs) ∨
      x.pre.shared.allows check userId = true

/- What the parts of a check may ask. -/

def Plain (c : Statement) : Prop := ∀ userId startedAt endsAt, c ≠ .startTrial userId startedAt endsAt

theorem resolveFor_calls (userId : String) (now : Nat) {Q : PlanResolution → Prop} (hQ : ∀ r, Q r) :
    (resolveFor userId now).Calls Plain Q :=
  calls_bind.2 (calls_call.2 ⟨by simp [Plain], fun _ => hQ _⟩)

theorem planFor_calls (userId : String) {Q : PlanId → Prop} (hQ : ∀ plan, Q plan) : (planFor userId).Calls Plain Q := by
  refine calls_bind.2 ?_
  intro db
  exact calls_bind.2 (resolveFor_calls userId db.now fun _ => hQ _)

theorem evaluate_calls (check : Check) (plan : PlanId) :
    (check.evaluate plan).Calls Plain fun decision => decision.trialStarted = false := by
  have hquery : ∀ (c : Statement) (Q : Answer c → Prop), Plain c → (∀ r, Q r) → (query c).Calls Plain Q :=
    fun c Q hc hQ => calls_call.2 ⟨hc, hQ⟩
  cases check with
  | tunnel userId =>
    simp only [Check.evaluate, tunnelUnder]
    cases (limitsFor plan).monthlyBytes with
    | none => rfl
    | some limit =>
      have husage : (usageThisMonth (userId.getD "")).Calls Plain fun _ => True := by
        refine calls_bind.2 ?_
        intro db
        refine calls_bind.2 (hquery (.sumUsage _ _) _ (by simp [Plain]) fun sum => ?_)
        exact calls_bind.2 (hquery (.countServers _) _ (by simp [Plain]) fun servers => trivial)
      refine calls_bind.2 (husage.mono (fun c hc => hc) fun used _ => ?_)
      split
      · rfl
      · rfl
  | serverLimit userId =>
    simp only [Check.evaluate, serversUnder]
    cases (limitsFor plan).servers with
    | none => rfl
    | some limit =>
      refine calls_bind.2 (hquery _ _ (by simp [Plain]) fun used => ?_)
      split
      · rfl
      · rfl
  | device userId serverId plan' =>
    simp only [Check.evaluate, devicesUnder]
    cases (limitsFor plan).devicesPerServer with
    | none => rfl
    | some limit =>
      refine calls_bind.2 (hquery _ _ (by simp [Plain]) fun used => ?_)
      split
      · rfl
      · rfl
  | rename userId plan' =>
    simp only [Check.evaluate, renameUnder]
    split
    · rfl
    · rfl

section WithTrial
variable {userId : String} {plan : PlanId} {evaluate : PlanId → DbTask Decision} {log : DbLog}

/-- What has happened before the trial is asked for. -/
structure Refused (userId : String) (plan : PlanId) (evaluate : PlanId → DbTask Decision) (log : DbLog) :
    Prop where
  steps : ∃ refusal refusedNow row approval grantedThen,
    log = refusal ++ ⟨.selectSubscription userId, .ok row⟩ :: approval ∧
    (evaluate plan).Reaches refusal (.done refusedNow) ∧ refusedNow.allowed = false ∧
    row.bind (·.trialStartedAt) = none ∧
    (evaluate trialPlan).Reaches approval (.done grantedThen) ∧ grantedThen.allowed = true

variable {now : Nat}

theorem reaches_dateNow (h : dateNow.Reaches log (.done now)) : log = [] := by
  cases h with
  | read s h =>
    cases h
    rfl

theorem resolveFor_done {resolution : PlanResolution} (h : (resolveFor userId now).Reaches log (.done resolution)) :
    ∃ row, log = [⟨.selectSubscription userId, .ok row⟩] ∧ resolvePlan row now = resolution := by
  obtain ⟨before, after, row, rfl, hbefore, hafter⟩ := reaches_bind_done h
  obtain ⟨hresolution, rfl⟩ := reaches_pure_done hafter
  rw [reaches_call_done hbefore]
  exact ⟨row, rfl, hresolution⟩

theorem resolvePlan_trial (row : Option SubscriptionRow) (now : Nat) : (resolvePlan row now).trial =
    trialOf (row.bind (·.trialStartedAt)) (row.bind (·.trialEndsAt)) now := by
  unfold resolvePlan
  dsimp only
  split
  · rfl
  · split
    · rfl
    · rfl

theorem trial_none {row : Option SubscriptionRow}
    (h : (resolvePlan row now).trial.status = .none) : row.bind (·.trialStartedAt) = none := by
  rw [resolvePlan_trial] at h
  unfold trialOf at h
  split at h
  · assumption
  · split at h
    · cases h
    · split at h
      · cases h
      · cases h

theorem asks_query {c : Statement} {c' : Statement} {next : Except DbError (Answer c') → DbTask (Answer c)}
    (h : (query c).Reaches log (.await c' next)) : log = [] ∧ c' = c := asks_call h

theorem asks_startTrial {c : Statement} {next : Except DbError (Answer c) → DbTask Bool}
    (h : (startTrial userId now).Reaches log (.await c next)) :
    log = [] ∧ c = .startTrial userId now (now + trialMs) := by
  cases asks_bind h with
  | inl hask => exact asks_query hask.choose_spec
  | inr hdone =>
    obtain ⟨_, _, _, -, -, hdone⟩ := hdone
    cases hdone

theorem asks_withTrial (hcalls : ∀ plan, (evaluate plan).Calls Plain fun _ => True) {userId' : String}
    {startedAt endsAt : Nat} {next : Except DbError (Answer (.startTrial userId' startedAt endsAt)) → DbTask Decision}
    (h : (withTrial userId plan evaluate).Reaches log (.await (.startTrial userId' startedAt endsAt) next)) :
    userId' = userId ∧ endsAt = startedAt + trialMs ∧ Refused userId plan evaluate log := by
  have hnever : ∀ {log : DbLog} {plan : PlanId}
      {next : Except DbError (Answer (.startTrial userId' startedAt endsAt)) → DbTask Decision},
      ¬ (evaluate plan).Reaches log (.await (.startTrial userId' startedAt endsAt) next) :=
    fun hask => hask.call_of_calls (hcalls _) _ _ _ rfl
  cases asks_bind h with
  | inl hclock =>
    obtain ⟨next', hclock⟩ := hclock
    cases hclock with
    | read s hclock => cases hclock
  | inr hrest =>
    obtain ⟨before, after, now, rfl, hclock, hrest⟩ := hrest
    rw [reaches_dateNow hclock, List.nil_append]
    cases asks_bind hrest with
    | inl heval => exact absurd heval.choose_spec hnever
    | inr hrest =>
      obtain ⟨refusal, after, decision, rfl, hrefusal, hrest⟩ := hrest
      split at hrest
      · cases hrest
      · rename_i hrefused
        split at hrest
        · cases hrest
        · cases asks_bind hrest with
          | inl hask =>
            obtain ⟨next', hask⟩ := hask
            exact absurd rfl (hask.call_of_calls (resolveFor_calls userId now fun _ => trivial) _ _ _)
          | inr hrest =>
            obtain ⟨lookup, after, resolution, rfl, hlookup, hrest⟩ := hrest
            obtain ⟨row, rfl, rfl⟩ := resolveFor_done hlookup
            split at hrest
            · cases hrest
            · rename_i hnone
              cases asks_bind hrest with
              | inl heval => exact absurd heval.choose_spec hnever
              | inr hrest =>
                obtain ⟨approval, after, underTrial, rfl, happroval, hrest⟩ := hrest
                split at hrest
                · cases hrest
                · rename_i hgranted
                  cases asks_bind hrest with
                  | inl hstart =>
                    obtain ⟨rfl, hc⟩ := asks_startTrial hstart.choose_spec
                    cases hc
                    refine ⟨rfl, rfl, refusal, decision, row, approval, underTrial, by simp, hrefusal,
                      by simpa using hrefused, trial_none (not_not.1 hnone), happroval, by simpa using hgranted⟩
                  | inr hend =>
                    obtain ⟨_, _, started, -, -, hend⟩ := hend
                    split at hend
                    · cases hend
                    · cases hend

theorem withTrial_announces (hcalls : ∀ plan, (evaluate plan).Calls Plain fun d => d.trialStarted = false)
    {decision : Decision} (h : (withTrial userId plan evaluate).Reaches log (.done decision))
    (hstarted : decision.trialStarted = true) :
    ∃ startedAt changes, ⟨.startTrial userId startedAt (startedAt + trialMs), .ok changes⟩ ∈ log ∧ 0 < changes := by
  have hplain : ∀ {log : DbLog} {plan : PlanId} {decision : Decision},
      (evaluate plan).Reaches log (.done decision) → decision.trialStarted = false :=
    fun hdone => hdone.result_of_calls (hcalls _)
  obtain ⟨before, after, now, rfl, -, hrest⟩ := reaches_bind_done h
  obtain ⟨refusal, after, first, rfl, hrefusal, hrest⟩ := reaches_bind_done hrest
  have hfirst : ∀ {log : DbLog}, (pure first : DbTask Decision).Reaches log (.done decision) → False := by
    intro log hpure
    obtain ⟨rfl, -⟩ := reaches_pure_done hpure
    rw [hplain hrefusal] at hstarted
    cases hstarted
  split at hrest
  · exact (hfirst hrest).elim
  · split at hrest
    · exact (hfirst hrest).elim
    · obtain ⟨lookup, after, resolution, rfl, -, hrest⟩ := reaches_bind_done hrest
      split at hrest
      · exact (hfirst hrest).elim
      · obtain ⟨approval, after, underTrial, rfl, -, hrest⟩ := reaches_bind_done hrest
        split at hrest
        · exact (hfirst hrest).elim
        · obtain ⟨start, after, started, rfl, hstart, hlast⟩ := reaches_bind_done hrest
          obtain ⟨insertion, rest, changes, rfl, hinsert, hpure⟩ := reaches_bind_done hstart
          obtain ⟨hresult, rfl⟩ := reaches_pure_done hpure
          split at hlast
          · obtain ⟨rfl, -⟩ := reaches_pure_done hlast
            cases hstarted
          · rename_i htrue
            rw [reaches_call_done hinsert]
            have hpos : 0 < changes := by
              rw [← hresult] at htrue
              exact Nat.pos_of_ne_zero (by simpa using htrue)
            exact ⟨now, changes, by simp, hpos⟩

end WithTrial

theorem filter_some_iff {userId : Option String} {id : String}
    (h : (userId.filter fun id => decide (id ≠ "")) = some id) : userId = some id := by
  cases userId with
  | none => cases h
  | some id' =>
    rw [Option.filter_some] at h
    split at h
    · exact h
    · cases h

variable {userId : String}

theorem program_eq {check : Check} (h : check.account = some userId) :
    check.program = check.givenPlan >>= fun plan => withTrial userId plan check.evaluate := by
  cases check with
  | tunnel id =>
    have hid : id = some userId := filter_some_iff h
    subst hid
    simp only [Check.account] at h
    simp only [Check.program, checkTunnel, h]
    rfl
  | _ =>
    cases h
    rfl

theorem program_anonymous {check : Check} (h : check.account = none) : check.program = pure allowed := by
  cases check with
  | tunnel id =>
    simp only [Check.account] at h
    simp only [Check.program, checkTunnel, h]
  | _ => cases h

theorem givenPlan_calls (check : Check) : check.givenPlan.Calls Plain fun _ => True := by
  cases check with
  | tunnel _ | serverLimit _ => exact planFor_calls _ fun _ => trivial
  | device _ _ _ | rename _ _ => trivial

section Check
variable {check : Check} {log : DbLog}

theorem asks_check {startedAt endsAt : Nat}
    {next : Except DbError (Answer (.startTrial userId startedAt endsAt)) → DbTask Decision}
    (h : check.program.Reaches log (.await (.startTrial userId startedAt endsAt) next)) :
    check.account = some userId ∧ endsAt = startedAt + trialMs ∧ Earned check userId log := by
  cases haccount : check.account with
  | none =>
    rw [program_anonymous haccount] at h
    cases h
  | some id =>
    rw [program_eq haccount] at h
    cases asks_bind h with
    | inl hask =>
      obtain ⟨next', hask⟩ := hask
      exact absurd rfl (hask.call_of_calls (givenPlan_calls check) _ _ _)
    | inr hrest =>
      obtain ⟨first, after, plan, rfl, hgiven, hrest⟩ := hrest
      have hcalls : ∀ plan, (check.evaluate plan).Calls Plain fun _ => True :=
        fun plan => (evaluate_calls check plan).mono (fun _ hc => hc) fun _ _ => trivial
      obtain ⟨rfl, hends, hrefused⟩ := asks_withTrial hcalls hrest
      obtain ⟨refusal, decision, row, approval, granted, rfl, hsteps⟩ := hrefused.steps
      exact ⟨rfl, hends, first, plan, refusal, decision, row, approval, granted, rfl, hgiven, hsteps⟩

/-- A trial is asked for at the end of a check of its account, which is then allowed. -/
theorem program_returns (check : Check) : check.program.ReturnsAfter (fun c => ¬ Plain c)
    fun c decision => decision.allowed = true ∧ ∀ userId startedAt endsAt, c = .startTrial userId startedAt endsAt →
      check.account = some userId := by
  cases haccount : check.account with
  | none =>
    rw [program_anonymous haccount]
    trivial
  | some id =>
    rw [program_eq haccount]
    have heval : ∀ plan, (check.evaluate plan).Calls Plain fun _ => True :=
      fun plan => (evaluate_calls check plan).mono (fun _ hc => hc) fun _ _ => trivial
    refine returnsAfter_bind ((givenPlan_calls check).mono (fun _ => not_not_intro) fun plan _ => ?_)
    refine returnsAfter_bind fun db => ?_
    refine returnsAfter_bind ((heval plan).mono (fun _ => not_not_intro) fun decision _ => ?_)
    split
    · trivial
    · split
      · trivial
      · refine returnsAfter_bind ((resolveFor_calls id db.now fun _ => trivial).mono (fun _ => not_not_intro) fun resolution _ => ?_)
        split
        · trivial
        · refine returnsAfter_bind ((heval trialPlan).mono (fun _ => not_not_intro) fun underTrial _ => ?_)
          split
          · trivial
          · intro r
            cases r with
            | error e => exact ⟨trivial, fun _ _ hanswer => by cases hanswer⟩
            | ok changes =>
              have hdone : ∃ decision, (if !decide (0 < changes) then pure allowed else pure trialStarted : DbTask Decision) =
                  .done decision ∧ decision.allowed = true := by
                split
                · exact ⟨_, rfl, rfl⟩
                · exact ⟨_, rfl, rfl⟩
              obtain ⟨decision, hdone, hallowed⟩ := hdone
              change ReturnsAfter _ _ (if _ then _ else _) ∧ _
              rw [hdone]
              refine ⟨trivial, fun _ _ _ => ⟨decision, hdone, hallowed, ?_⟩⟩
              intro userId startedAt endsAt he
              cases he
              rfl

theorem check_announces (haccount : check.account = some userId) {decision : Decision}
    (h : check.program.Reaches log (.done decision)) (hstarted : decision.trialStarted = true) :
    ∃ startedAt changes, ⟨.startTrial userId startedAt (startedAt + trialMs), .ok changes⟩ ∈ log ∧ 0 < changes := by
  rw [program_eq haccount] at h
  obtain ⟨first, after, plan, rfl, -, hrest⟩ := reaches_bind_done h
  obtain ⟨startedAt, changes, hmem, hpos⟩ := withTrial_announces (evaluate_calls check) hrest hstarted
  exact ⟨startedAt, changes, List.mem_append_right _ hmem, hpos⟩

end Check

theorem planFor_readOnly (userId : String) : (planFor userId).ReadOnly := by
  refine readOnly_bind (fun db => trivial) fun now => ?_
  refine readOnly_bind (readOnly_bind (readOnly_call _) fun _ => trivial) fun _ => trivial

theorem evaluate_readOnly (check : Check) (plan : PlanId) : (check.evaluate plan).ReadOnly := by
  have hif : ∀ (b : Bool) (d d' : Decision),
      ((if b = true then pure d else pure d' : DbTask Decision)).ReadOnly := by
    intro b d d'
    split
    · trivial
    · trivial
  cases check with
  | tunnel userId =>
    simp only [Check.evaluate, tunnelUnder]
    cases (limitsFor plan).monthlyBytes with
    | none => trivial
    | some limit =>
      refine readOnly_bind (readOnly_bind (fun db => trivial) fun now => ?_) fun used => hif _ _ _
      refine readOnly_bind (readOnly_call _) fun sum => ?_
      exact readOnly_bind (readOnly_call _) fun servers => trivial
  | serverLimit userId =>
    simp only [Check.evaluate, serversUnder]
    cases (limitsFor plan).servers with
    | none => trivial
    | some limit => exact readOnly_bind (readOnly_call _) fun used => hif _ _ _
  | device userId serverId plan' =>
    simp only [Check.evaluate, devicesUnder]
    cases (limitsFor plan).devicesPerServer with
    | none => trivial
    | some limit => exact readOnly_bind (readOnly_call _) fun used => hif _ _ _
  | rename userId plan' => exact hif _ _ _

theorem program_readOnly (check : Check) : check.program.ReadOnly := by
  cases haccount : check.account with
  | none =>
    rw [program_anonymous haccount]
    trivial
  | some id =>
    rw [program_eq haccount]
    have hgiven : check.givenPlan.ReadOnly := by
      cases check with
      | tunnel _ | serverLimit _ => exact planFor_readOnly _
      | device _ _ _ | rename _ _ => trivial
    refine readOnly_bind hgiven fun plan => readOnly_bind (fun db => trivial) fun now => ?_
    refine readOnly_bind (evaluate_readOnly check plan) fun decision => ?_
    split
    · trivial
    · split
      · trivial
      · refine readOnly_bind (readOnly_bind (readOnly_call _) fun _ => trivial) fun resolution => ?_
        split
        · trivial
        · refine readOnly_bind (evaluate_readOnly check trialPlan) fun underTrial => ?_
          split
          · trivial
          · refine readOnly_bind (readOnly_bind (readOnly_call _) fun _ => trivial) ?_
            intro started
            split
            · trivial
            · trivial

end Mtmux.Accounts
