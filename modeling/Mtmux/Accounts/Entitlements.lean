import Mtmux.Accounts.Database

/-! What an account is allowed to do, and how a refusal becomes the start of a trial. -/
namespace Mtmux.Accounts
open Billing

/- The day of a time, as text. -/

/-- Year, month and day of a day counted from 1970, in the calendar whose years begin in March. -/
def civil (days : Nat) : Nat × Nat × Nat :=
  let z := days + 719468
  let era := z / 146097
  let doe := z % 146097
  let yoe := (doe - doe / 1460 + doe / 36524 - doe / 146096) / 365
  let doy := doe - (365 * yoe + yoe / 4 - yoe / 100)
  let mp := (5 * doy + 2) / 153
  let month := if mp < 10 then mp + 3 else mp - 9
  (yoe + era * 400 + (if month ≤ 2 then 1 else 0), month, doy - (153 * mp + 2) / 5 + 1)

def padded (width n : Nat) : String :=
  String.ofList (List.replicate (width - (toString n).length) '0' ++ (toString n).toList)

def isoYear (year : Nat) : String := if year ≤ 9999 then padded 4 year else "+" ++ padded 6 year

/-- `YYYY-MM-DD`. -/
def isoDate (now : Nat) : String :=
  let date := civil (now / 86400000)
  isoYear date.1 ++ "-" ++ padded 2 date.2.1 ++ "-" ++ padded 2 date.2.2

def monthKey (now : Nat) : String := String.ofList ((isoDate now).toList.take 7)

/- Decisions. -/

structure Decision where
  allowed : Bool
  reason : Option String
  trialStarted : Bool

def allowed : Decision := ⟨true, none, false⟩
def trialStarted : Decision := ⟨true, none, true⟩
def refused (reason : String) : Decision := ⟨false, some reason, false⟩

structure MonthUsage where
  month : String
  sum : UsageSum
  servers : Nat

/-- For limit messages only, rounded. -/
def formatBytes (bytes : Nat) : String :=
  if gib ≤ bytes then toString ((2 * bytes + gib) / (2 * gib)) ++ " GB"
  else toString ((2 * bytes + 1024 ^ 2) / (2 * 1024 ^ 2)) ++ " MB"

def PlanId.text : PlanId → String
  | .free => "free"
  | .pro => "pro"

/-- The plan as it stands, of the row and the time given. -/
def resolveFor (userId : String) (now : Nat) : DbTask PlanResolution := do
  let row ← query (.selectSubscription userId)
  return resolvePlan row now

def planFor (userId : String) : DbTask PlanId := do
  let now ← dateNow
  let resolution ← resolveFor userId now
  return resolution.plan

/-- The write itself is the check: false where the account has already had one. -/
def startTrial (userId : String) (now : Nat) : DbTask Bool := do
  let changes ← query (.startTrial userId now (now + trialMs))
  return decide (0 < changes)

/-- Turn a refusal into the start of a trial: the check must have refused, the account must never have trialled,
and the check must pass under the trial plan. -/
def withTrial (userId : String) (plan : PlanId) (evaluate : PlanId → DbTask Decision) : DbTask Decision := do
  let now ← dateNow
  let decision ← evaluate plan
  if decision.allowed then return decision
  else if plan = trialPlan then return decision
  else do
    let resolution ← resolveFor userId now
    if resolution.trial.status ≠ .none then return decision
    else do
      let underTrial ← evaluate trialPlan
      if !underTrial.allowed then return decision
      else do
        let started ← startTrial userId now
        if !started then return allowed
        else return trialStarted

def usageThisMonth (userId : String) : DbTask MonthUsage := do
  let now ← dateNow
  let sum ← query (.sumUsage userId (monthKey now))
  let servers ← query (.countServers userId)
  return ⟨monthKey now, sum, servers⟩

/-- The four checks, under a plan. -/
def tunnelUnder (userId : String) (candidate : PlanId) : DbTask Decision := do
  match (limitsFor candidate).monthlyBytes with
  | none => return allowed
  | some limit => do
    let used ← usageThisMonth userId
    if !exceeds used.sum.bytes (some limit) then return allowed
    else return refused ("This account has used its " ++ formatBytes limit ++ " of relayed traffic for " ++
      used.month ++ ". Local and LAN sessions are unaffected — they never touch our infrastructure.")

def serversUnder (userId : String) (candidate : PlanId) : DbTask Decision := do
  match (limitsFor candidate).servers with
  | none => return allowed
  | some limit => do
    let used ← query (.countServers userId)
    if !exceeds used (some limit) then return allowed
    else return refused ("The " ++ PlanId.text candidate ++ " plan covers " ++ toString limit ++ " machine" ++
      (if limit = 1 then "" else "s") ++ ".")

def devicesUnder (serverId : String) (candidate : PlanId) : DbTask Decision := do
  match (limitsFor candidate).devicesPerServer with
  | none => return allowed
  | some limit => do
    let used ← query (.countDevices serverId)
    if !exceeds used (some limit) then return allowed
    else return refused ("The " ++ PlanId.text candidate ++ " plan trusts " ++ toString limit ++
      " browsers per machine.")

def renameUnder (candidate : PlanId) : DbTask Decision := do
  if (limitsFor candidate).namedServers then return allowed
  else return refused "Renaming a machine is a Pro feature."

def checkTunnel (userId : Option String) : DbTask Decision := do
  match userId.filter fun id => decide (id ≠ "") with
  | none => return allowed
  | some userId => do
    let plan ← planFor userId
    withTrial userId plan (tunnelUnder userId)

def checkServerLimit (userId : String) : DbTask Decision := do
  let plan ← planFor userId
  withTrial userId plan (serversUnder userId)

def checkDevice (userId serverId : String) (plan : PlanId) : DbTask Decision :=
  withTrial userId plan (devicesUnder serverId)

def checkRename (userId : String) (plan : PlanId) : DbTask Decision := withTrial userId plan renameUnder

end Mtmux.Accounts
