import Mtmux.Accounts.Entitlements

/-! The server registry: a machine is known by its key, and named uniquely within its account. -/
namespace Mtmux.Accounts
open Billing

/- Slugs. -/

def isSlugChar (c : Char) : Bool := ('a' ≤ c && c ≤ 'z') || ('0' ≤ c && c ≤ '9')

/-- Every run of other characters becomes one hyphen. -/
def hyphened : List Char → List Char
  | [] => []
  | c :: rest =>
    if isSlugChar c then c :: hyphened rest
    else
      match hyphened rest with
      | '-' :: more => '-' :: more
      | more => '-' :: more

def trimHyphens (s : List Char) : List Char :=
  ((s.dropWhile (· = '-')).reverse.dropWhile (· = '-')).reverse

def isCombiningMark (c : Char) : Bool := 0x300 ≤ c.toNat && c.toNat ≤ 0x36f

section
variable (normalizeNfkd toLowerCase : List Char → List Char)

def slugify (name : String) : String :=
  let slug := (trimHyphens (hyphened
    (toLowerCase ((normalizeNfkd name.toList).filter fun c => !isCombiningMark c)))).take 48
  if slug = [] then "server" else String.ofList slug

def numbered (base : String) (n : Nat) : String := base ++ "-" ++ toString n

/-- The first of the names that is not taken; when they all are, a random one. -/
def pickSlug (taken : List String) (base randomHex : String) : String :=
  if base ∉ taken then base
  else
    match ((List.range 998).map fun n => numbered base (n + 2)).find? fun candidate => decide (candidate ∉ taken) with
    | some candidate => candidate
    | none => base ++ "-" ++ randomHex

def takenSlugs (rows : List (String × String)) (exceptId : Option String) : List String :=
  (rows.filter fun row => decide (some row.1 ≠ exceptId)).map Prod.snd

def uniqueSlug (userId name : String) (exceptId : Option String) (randomHex : String) : DbTask String := do
  let base := slugify normalizeNfkd toLowerCase name
  let rows ← query (.selectSlugs userId)
  return pickSlug (takenSlugs rows exceptId) base randomHex

structure RegisterInput where
  name : String
  publicKey : String
  hostname : Option String
  platform : Option String
  cliVersion : Option String

inductive RegisterOutcome where
  | ok (serverId : String) (created : Bool)
  | limited (reason : String)
  | conflict (reason : String)

/-- What a call answers. -/
inductive RegistryAnswer where
  | registered (outcome : RegisterOutcome)
  | found (found : Bool)

def conflictReason : String :=
  "This machine is already registered to another account. Remove it there first, or delete ~/.mtmux to give it a new identity."

def register (userId : String) (input : RegisterInput) (canAddServer : DbTask Decision)
    (drawnId randomHex : String) : DbTask RegisterOutcome := do
  let existing ← query (.selectServer input.publicKey)
  match existing with
  | some row => do
    if row.userId ≠ userId then return .conflict conflictReason
    else do
      let now ← dateNow
      let _ ← query (.touchServer row.id (input.hostname <|> row.hostname) (input.platform <|> row.platform)
        (input.cliVersion <|> row.cliVersion) now)
      return .ok row.id false
  | none => do
    let decision ← canAddServer
    if !decision.allowed then return .limited (decision.reason.getD "Plan limit.")
    else do
      let slug ← uniqueSlug normalizeNfkd toLowerCase userId input.name none randomHex
      let now ← dateNow
      let _ ← query (.insertServer ⟨drawnId, userId, input.name, slug, input.publicKey, input.hostname,
        input.platform, input.cliVersion, some now⟩)
      return .ok drawnId true

def heartbeat (userId serverId : String) : DbTask Bool := do
  let now ← dateNow
  let changes ← query (.heartbeatServer serverId userId now)
  return decide (0 < changes)

def rename (userId serverId name randomHex : String) : DbTask Bool := do
  let slug ← uniqueSlug normalizeNfkd toLowerCase userId name (some serverId) randomHex
  let changes ← query (.renameServer serverId userId name slug)
  return decide (0 < changes)

def remove (userId serverId : String) : DbTask Bool := do
  let changes ← query (.deleteServer serverId userId)
  return decide (0 < changes)

end

inductive RegistryCall where
  | register (userId : String) (input : RegisterInput) (drawnId randomHex : String)
  | heartbeat (userId serverId : String)
  | rename (userId serverId name randomHex : String)
  | remove (userId serverId : String)

def RegistryCall.userId : RegistryCall → String
  | .register userId _ _ _ | .heartbeat userId _ | .rename userId _ _ _ | .remove userId _ => userId

/-- What happens besides: the payment service writes the mirror, and time passes. -/
inductive RegistryChange where
  | mirrors (userId : String) (data : SubscriptionData) (plan : PlanId)
  | passes (ms : Nat)

def AccountDb.registryChange (db : AccountDb) : RegistryChange → AccountDb
  | .mirrors userId data plan =>
    { db with
      subscriptions := db.subscriptions.set userId
        (BillingDb.mirrored (db.subscriptions.get userId) data plan) }
  | .passes ms => { db with now := db.now + ms }

section
variable (normalizeNfkd toLowerCase : List Char → List Char)

def RegistryCall.program : RegistryCall → DbTask RegistryAnswer
  | .register userId input drawnId randomHex => do
    let outcome ← Accounts.register normalizeNfkd toLowerCase userId input (checkServerLimit userId) drawnId randomHex
    return .registered outcome
  | .heartbeat userId serverId => do
    let found ← Accounts.heartbeat userId serverId
    return .found found
  | .rename userId serverId name randomHex => do
    let found ← Accounts.rename normalizeNfkd toLowerCase userId serverId name randomHex
    return .found found
  | .remove userId serverId => do
    let found ← Accounts.remove userId serverId
    return .found found

def registryHost : Async.Host AccountDb Empty DbError Answer RegistryAnswer RegistryCall Fate RegistryChange where
  program := RegistryCall.program normalizeNfkd toLowerCase
  exec := AccountDb.exec
  other := AccountDb.registryChange

end

abbrev RegistryEvent : Type := Async.Happening RegistryCall Fate RegistryChange
abbrev RegistryWorld : Type := Async.World AccountDb Empty DbError Answer RegistryAnswer RegistryCall

def registryMachine (normalizeNfkd toLowerCase : List Char → List Char) (db : AccountDb) :
    Machine RegistryWorld RegistryEvent (Nat × Empty) :=
  (registryHost normalizeNfkd toLowerCase).machine db

end Mtmux.Accounts
