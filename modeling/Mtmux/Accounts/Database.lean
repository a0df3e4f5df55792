import Mtmux.Base.AsyncRuns
import Mtmux.Billing.Subscriptions

/-! The tables of the accounts and the statements on them. Each statement is carried out at once. -/
namespace Mtmux.Accounts
open Billing

structure UsageRow where
  userId : String
  day : String
  bytes : Nat
  seconds : Nat
  sessions : Nat

structure ServerRow where
  id : String
  userId : String
  name : String
  slug : String
  publicKey : String
  hostname : Option String
  platform : Option String
  cliVersion : Option String
  lastSeenAt : Option Nat
  deriving DecidableEq

structure DeviceRow where
  id : String
  serverId : String
  revokedAt : Option Nat

/-- The tables, and the time in milliseconds. -/
structure AccountDb where
  subscriptions : OrderedMap String SubscriptionRow
  tunnelUsage : List UsageRow
  servers : List ServerRow
  serverDevices : List DeviceRow
  now : Nat

inductive Statement where
  | selectSubscription (userId : String)
  | sumUsage (userId month : String)
  | countServers (userId : String)
  | countDevices (serverId : String)
  | startTrial (userId : String) (startedAt endsAt : Nat)
  | selectServer (publicKey : String)
  | touchServer (id : String) (hostname platform cliVersion : Option String) (now : Nat)
  | insertServer (row : ServerRow)
  | selectSlugs (userId : String)
  | heartbeatServer (id userId : String) (now : Nat)
  | renameServer (id userId name slug : String)
  | deleteServer (id userId : String)

structure UsageSum where
  bytes : Nat
  seconds : Nat
  sessions : Nat

/-- Where a statement writes, it answers the number of rows it has changed. -/
abbrev Answer : Statement → Type
  | .selectSubscription _ => Option SubscriptionRow
  | .sumUsage _ _ => UsageSum
  | .selectServer _ => Option ServerRow
  | .selectSlugs _ => List (String × String)
  | _ => Nat

inductive DbError where
  | unique
  | failed

/-- A statement may fail for reasons of its own. -/
inductive Fate where
  | works
  | fails

namespace AccountDb

/-- The row of an account that has never touched billing, once it is on trial. -/
def trialRow (startedAt endsAt : Nat) : SubscriptionRow where
  status := .unknown "none"
  plan := .free
  dodoCustomerId := none
  dodoSubscriptionId := none
  productId := none
  currentPeriodEnd := none
  cancelAtPeriodEnd := false
  trialStartedAt := some startedAt
  trialEndsAt := some endsAt

def startTrial (db : AccountDb) (userId : String) (startedAt endsAt : Nat) : AccountDb × Nat :=
  match db.subscriptions.get userId with
  | none =>
    ({ db with subscriptions := db.subscriptions.set userId (trialRow startedAt endsAt) }, 1)
  | some row =>
    if row.trialStartedAt = none then
      let started := { row with trialStartedAt := some startedAt, trialEndsAt := some endsAt }
      ({ db with subscriptions := db.subscriptions.set userId started }, 1)
    else (db, 0)

def sumUsage (db : AccountDb) (userId month : String) : UsageSum :=
  let rows := db.tunnelUsage.filter fun row => row.userId = userId && month.toList.isPrefixOf row.day.toList
  ⟨(rows.map (·.bytes)).sum, (rows.map (·.seconds)).sum, (rows.map (·.sessions)).sum⟩

def countServers (db : AccountDb) (userId : String) : Nat :=
  db.servers.countP fun row => decide (row.userId = userId)

def countDevices (db : AccountDb) (serverId : String) : Nat :=
  db.serverDevices.countP fun row => row.serverId = serverId && row.revokedAt.isNone

def collides (row : ServerRow) (other : ServerRow) : Bool :=
  row.id = other.id || row.publicKey = other.publicKey || (row.userId = other.userId && row.slug = other.slug)

/-- The rows that a statement scoped by id and account is about. -/
def owned (id userId : String) (row : ServerRow) : Bool := row.id = id && row.userId = userId

def changeServers (db : AccountDb) (p : ServerRow → Bool) (f : ServerRow → ServerRow) : AccountDb :=
  { db with servers := db.servers.map fun row => if p row then f row else row }

def renameCollides (db : AccountDb) (id userId slug : String) : Bool :=
  db.servers.any (owned id userId) &&
    db.servers.any fun row => row.userId = userId && row.slug = slug && decide (row.id ≠ id)

def exec (db : AccountDb) : (c : Statement) → Fate → AccountDb × Except DbError (Answer c)
  | _, .fails => (db, .error .failed)
  | .selectSubscription userId, .works => (db, .ok (db.subscriptions.get userId))
  | .sumUsage userId month, .works => (db, .ok (db.sumUsage userId month))
  | .countServers userId, .works => (db, .ok (db.countServers userId))
  | .countDevices serverId, .works => (db, .ok (db.countDevices serverId))
  | .startTrial userId startedAt endsAt, .works =>
    ((db.startTrial userId startedAt endsAt).1, .ok (db.startTrial userId startedAt endsAt).2)
  | .selectServer publicKey, .works =>
    (db, .ok (db.servers.find? fun row => decide (row.publicKey = publicKey)))
  | .touchServer id hostname platform cliVersion now, .works =>
    (db.changeServers (fun row => decide (row.id = id)) (fun row => { row with
        hostname := hostname, platform := platform, cliVersion := cliVersion, lastSeenAt := some now }),
      .ok (db.servers.countP fun row => decide (row.id = id)))
  | .insertServer row, .works =>
    if db.servers.any (collides row) then (db, .error .unique)
    else ({ db with servers := db.servers ++ [row] }, .ok (1 : Nat))
  | .selectSlugs userId, .works =>
    (db, .ok ((db.servers.filter fun row => decide (row.userId = userId)).map fun row => (row.id, row.slug)))
  | .heartbeatServer id userId now, .works =>
    (db.changeServers (owned id userId) (fun row => { row with lastSeenAt := some now }),
      .ok (db.servers.countP (owned id userId)))
  | .renameServer id userId name slug, .works =>
    if db.renameCollides id userId slug then (db, .error .unique)
    else (db.changeServers (owned id userId) (fun row => { row with name := name, slug := slug }),
      .ok (db.servers.countP (owned id userId)))
  | .deleteServer id userId, .works =>
    ({ db with
        servers := db.servers.filter fun row => !owned id userId row
        serverDevices := if db.servers.any (owned id userId) then
          db.serverDevices.filter fun row => decide (row.serverId ≠ id) else db.serverDevices },
      .ok (db.servers.countP (owned id userId)))

end AccountDb

abbrev DbTask (α : Type) : Type := Async AccountDb Empty DbError Answer α
abbrev DbLog : Type := List (Async.Exchange DbError Answer)

def query (c : Statement) : DbTask (Answer c) := Async.call c

/-- The clock. -/
def dateNow : DbTask Nat := .read fun db => .done db.now

end Mtmux.Accounts
