import Mtmux.Base.Machine
import Mtmux.Base.OrderedMap

/-! What each plan may do, which plan a row of the mirror grants, and the local mirror of the subscriptions: one row an
account, written by whatever event is processed. -/
namespace Mtmux.Billing

inductive PlanId where
  | free
  | pro
  deriving DecidableEq

/-- `none` means unlimited. -/
structure PlanLimits where
  servers : Option Nat
  tunnelMinutes : Option Nat
  monthlyBytes : Option Nat
  devicesPerServer : Option Nat
  namedServers : Bool

def gib : Nat := 1024 ^ 3

def limitsFor : PlanId → PlanLimits
  | .free => ⟨some 1, none, some (5 * gib), some 3, false⟩
  | .pro => ⟨none, none, some (200 * gib), none, true⟩

def defaultPlan : PlanId := .free
def trialDays : Nat := 7
def trialPlan : PlanId := .pro
def trialMs : Nat := trialDays * 24 * 60 * 60 * 1000

def exceeds (used : Nat) : Option Nat → Bool
  | none => false
  | some limit => decide (limit ≤ used)

inductive SubscriptionStatus where
  | pending
  | active
  | onHold
  | cancelled
  | failed
  | expired
  | unknown (status : String)

/-- On hold keeps the plan; pending grants nothing. -/
def planForStatus (status : SubscriptionStatus) : Option PlanId → PlanId
  | none => defaultPlan
  | some productPlan =>
    match status with
    | .active | .onHold => productPlan
    | _ => defaultPlan

/-- The products that are sold. -/
structure BillingConfig where
  dodoProductProMonthly : Option String
  dodoProductProYearly : Option String

def planForProduct (config : BillingConfig) (productId : String) : Option PlanId :=
  if productId = "" then none
  else if some productId = config.dodoProductProMonthly ∨ some productId = config.dodoProductProYearly then
    some .pro
  else none

inductive TrialStatus where
  | none
  | active
  | expired
  deriving DecidableEq

structure TrialState where
  status : TrialStatus
  startedAt : Option Nat
  endsAt : Option Nat
  daysLeft : Nat

inductive PlanSource where
  | free
  | trial
  | paid

structure PlanResolution where
  plan : PlanId
  source : PlanSource
  trial : TrialState

def dayMs : Nat := 24 * 60 * 60 * 1000

/-- A row of the mirror: what the payment service last said of the account, and the account's trial. -/
structure SubscriptionRow where
  status : SubscriptionStatus
  plan : PlanId
  dodoCustomerId : Option String
  dodoSubscriptionId : Option String
  productId : Option String
  currentPeriodEnd : Option Nat
  cancelAtPeriodEnd : Bool
  trialStartedAt : Option Nat
  trialEndsAt : Option Nat

def noTrial : TrialState := ⟨.none, none, none, 0⟩

def trialOf (startedAt endsAt : Option Nat) (now : Nat) : TrialState :=
  match startedAt with
  | none => noTrial
  | some started =>
    match endsAt with
    | none => ⟨.expired, some started, none, 0⟩
    | some ends =>
      if now < ends then ⟨.active, some started, some ends, (ends - now + dayMs - 1) / dayMs⟩
      else ⟨.expired, some started, some ends, 0⟩

def resolvePlan (row : Option SubscriptionRow) (now : Nat) : PlanResolution :=
  let trial := trialOf (row.bind (·.trialStartedAt)) (row.bind (·.trialEndsAt)) now
  if row.map (·.plan) = some .pro then ⟨.pro, .paid, trial⟩
  else if trial.status = .active then ⟨trialPlan, .trial, trial⟩
  else ⟨defaultPlan, .free, trial⟩

structure UserRow where
  id : String
  email : String
  dodoCustomerId : Option String

/-- The mirror is unique on the account. -/
structure BillingDb where
  users : List UserRow
  subscriptions : OrderedMap String SubscriptionRow

/-- What an event says of a subscription. -/
structure SubscriptionData where
  subscriptionId : String
  productId : String
  status : SubscriptionStatus
  cancelAtNextBillingDate : Option Bool
  nextBillingDate : Option Nat
  metadataUserId : Option String
  customerId : String
  email : Option String

namespace BillingDb

/-- The account that has this customer id, in the table of users or in the mirror. -/
def ofCustomer (db : BillingDb) (customerId : String) : Option String :=
  match db.users.find? fun user => decide (user.dodoCustomerId = some customerId) with
  | some user => some user.id
  | none =>
    (db.subscriptions.entries.find? fun row => decide (row.2.dodoCustomerId = some customerId)).map Prod.fst

def ofEmail (db : BillingDb) (email : String) : Option String :=
  (db.users.find? fun user => decide (user.email = email)).map UserRow.id

/-- The account an event is about: what the checkout recorded, then the customer, then the address. -/
def resolveUserId (db : BillingDb) (data : SubscriptionData) : Option String :=
  match data.metadataUserId.filter fun id => decide (id ≠ "") with
  | some id => some id
  | none =>
    match if data.customerId = "" then none else db.ofCustomer data.customerId with
    | some id => some id
    | none => (data.email.filter fun email => decide (email ≠ "")).bind db.ofEmail

def linkCustomer (db : BillingDb) (userId customerId : String) : BillingDb :=
  { db with users := db.users.map fun user =>
      if user.id = userId then { user with dodoCustomerId := some customerId } else user }

def hasUser (db : BillingDb) (userId : String) : Bool := db.users.any fun user => decide (user.id = userId)

/-- A row as it stands after an event; the trial is left alone. -/
def mirrored (old : Option SubscriptionRow) (data : SubscriptionData) (plan : PlanId) : SubscriptionRow where
  status := data.status
  plan := plan
  dodoCustomerId := some data.customerId
  dodoSubscriptionId := some data.subscriptionId
  productId := some data.productId
  currentPeriodEnd := data.nextBillingDate
  cancelAtPeriodEnd := data.cancelAtNextBillingDate.getD false
  trialStartedAt := old.bind (·.trialStartedAt)
  trialEndsAt := old.bind (·.trialEndsAt)

/-- A row of no account is refused. -/
def mirrorSubscription (db : BillingDb) (userId : String) (data : SubscriptionData) (plan : PlanId) :
    Option BillingDb :=
  if db.hasUser userId then
    some { db with
      subscriptions := db.subscriptions.set userId (mirrored (db.subscriptions.get userId) data plan) }
  else none

end BillingDb

def planOf (config : BillingConfig) (data : SubscriptionData) : PlanId :=
  planForStatus data.status (planForProduct config data.productId)

/-- Fold one event into the mirror. One that is not about any account is acknowledged and ignored; one that
throws leaves the mirror as it is. -/
def BillingDb.apply (config : BillingConfig) (db : BillingDb) (data : SubscriptionData) : BillingDb :=
  match db.resolveUserId data with
  | none => db
  | some userId =>
    ((db.linkCustomer userId data.customerId).mirrorSubscription userId data (planOf config data)).getD
      (db.linkCustomer userId data.customerId)

/-- An event, and when what it tells of happened. -/
structure SubscriptionEvent where
  data : SubscriptionData
  occurred : Nat

/-- The events in the order in which they are processed. -/
def mirrorMachine (config : BillingConfig) (db : BillingDb) : Machine BillingDb SubscriptionEvent Unit :=
  ⟨db, fun db e => (db.apply config e.data, [])⟩

end Mtmux.Billing
