import Mtmux.Base.AsyncRuns
import Mtmux.Browser.SealedPlaces

/-! The stores of the browser with what the device lock seals in them, the functions that seal and open it, and somebody
who rearranges the stores between their awaits. -/
namespace Mtmux.Browser.Sealed
open Crypto

/-- What the platform and its packages give. `stringify` and `parse` are JSON with the text encoding. -/
structure Platform where
  A : Aead
  hkdf : (ikm info : Bytes) → Bytes
  derive : String → Bytes → Nat → Bytes
  stringify : StoredKeys → Bytes
  parse : Bytes → Option StoredKeys
  stringifyToken : String → Bytes
  parseToken : Bytes → Option String

abbrev Nonce : Type := { bytes : Bytes // bytes.length = nonceBytes }

/-- A record, and what is sealed in it. -/
structure Sealing where
  record : SealedRecord
  plaintext : Bytes

/-- What was put into a slot. -/
structure Stored where
  slot : Slot
  sealing : Sealing

/-- A record of the stores, named by its place in `stored`, and where it was found. -/
structure Found where
  slot : Slot
  record : Nat

inductive KeyRecord (W : Type) where
  | plain (keys : StoredKeys)
  | sealed (record : W)

structure FactorRecord (W : Type) where
  kind : FactorKind
  id : String
  salt : Bytes
  iterations : Nat
  wrapped : W
  createdAt : Nat
  label : Option String

structure LockRecord where
  factors : List (FactorRecord Nat)
  failedAttempts : Nat
  lockedUntil : Option Nat
  wipeAfter10 : Bool
  pinLength : Nat
  idleMinutes : Nat
  lockOnBackground : Bool
  enrolledAt : Nat

/-- What a tab has in memory. -/
structure Tab where
  enrolled : Bool
  masterKey : Option Nat
  localToken : Option String
  keys : OrderedMap String StoredKeys

/-- `stored` are the records that were ever put into a slot. `arrays` are the master keys in memory: one that is wiped is
wiped for everyone who holds it. `localStorageToken` is the token that no lock has taken yet. -/
structure Stores where
  keys : OrderedMap String (KeyRecord Nat)
  token : Option Nat
  lock : Option LockRecord
  stored : List Stored
  localStorageToken : Option String
  tabs : OrderedMap Nat Tab
  arrays : List Bytes
  now : Nat

inductive DbCall where
  | openDb
  | pause
  | getKeys (serverId : String)
  | getAllKeys
  | getToken
  | getLock
  | putKeys (serverId : String) (record : KeyRecord Sealing)
  | deleteKeys (serverId : String)
  | putLock (record : LockRecord)
  | putFactor (record : LockRecord) (factor : FactorRecord Sealing)
  | enroll (sealedNow : List (String × Sealing)) (token : Option Sealing) (record : LockRecord)
      (factor : FactorRecord Sealing)
  | clear

@[reducible] def DbCall.Output : DbCall → Type
  | .getKeys _ => Option (KeyRecord Found)
  | .getAllKeys => List (String × KeyRecord Found)
  | .getToken => Option Found
  | .getLock => Option LockRecord
  | _ => Unit

def KeyRecord.foundAt (serverId : String) : KeyRecord Nat → KeyRecord Found
  | .plain keys => .plain keys
  | .sealed n => .sealed ⟨.keys serverId, n⟩

namespace Stores

def init : Stores := ⟨.empty, none, none, [], none, .empty, [], 0⟩

def tab (s : Stores) (id : Nat) : Tab := (s.tabs.get id).getD ⟨false, none, none, .empty⟩

def setTab (s : Stores) (id : Nat) (tab : Tab) : Stores := { s with tabs := s.tabs.set id tab }

def wiped (arrays : List Bytes) : Option Nat → List Bytes
  | none => arrays
  | some handle => arrays.modify handle fun bytes => List.replicate bytes.length 0

def setMasterKey (s : Stores) (id : Nat) (mk : Bytes) : Stores :=
  { s with arrays := wiped s.arrays (s.tab id).masterKey ++ [mk] }.setTab id
    { s.tab id with enrolled := true, masterKey := some s.arrays.length }

def forget (s : Stores) (id : Nat) : Stores :=
  { s with arrays := wiped s.arrays (s.tab id).masterKey }.setTab id
    { s.tab id with masterKey := none, localToken := none, keys := .empty }

def putKeys (s : Stores) (serverId : String) : KeyRecord Sealing → Stores
  | .plain keys => { s with keys := s.keys.set serverId (.plain keys) }
  | .sealed x =>
    { s with
      stored := s.stored ++ [⟨.keys serverId, x⟩]
      keys := s.keys.set serverId (.sealed s.stored.length) }

def putToken (s : Stores) (x : Sealing) : Stores :=
  { s with stored := s.stored ++ [⟨.localToken, x⟩], token := some s.stored.length }

def putFactor (s : Stores) (record : LockRecord) (factor : FactorRecord Sealing) : Stores :=
  { s with
    stored := s.stored ++ [⟨.factor factor.kind factor.id, factor.wrapped⟩]
    lock := some { record with factors := record.factors ++ [{ factor with wrapped := s.stored.length }] } }

def enroll (s : Stores) (sealedNow : List (String × Sealing)) (token : Option Sealing) (record : LockRecord)
    (factor : FactorRecord Sealing) : Stores :=
  let s := sealedNow.foldl (fun s x => s.putKeys x.1 (.sealed x.2)) s
  (token.elim s s.putToken).putFactor record factor

def exec (s : Stores) : (c : DbCall) → Stores × c.Output
  | .openDb => (s, ())
  | .pause => (s, ())
  | .getKeys serverId => (s, (s.keys.get serverId).map (KeyRecord.foundAt serverId))
  | .getAllKeys => (s, s.keys.entries.map fun x => (x.1, x.2.foundAt x.1))
  | .getToken => (s, s.token.map fun n => ⟨.localToken, n⟩)
  | .getLock => (s, s.lock)
  | .putKeys serverId record => (s.putKeys serverId record, ())
  | .deleteKeys serverId => ({ s with keys := s.keys.delete serverId }, ())
  | .putLock record => ({ s with lock := some record }, ())
  | .putFactor record factor => (s.putFactor record factor, ())
  | .enroll sealedNow token record factor => (s.enroll sealedNow token record factor, ())
  | .clear => ({ s with keys := .empty, token := none, lock := none }, ())

end Stores

/-- What was opened, and in which slot it was found. -/
inductive Out where
  | opened (slot : Slot) (plaintext : Bytes)
  deriving DecidableEq

abbrev Lock : Type → Type := Async Stores Out String DbCall.Output

section Functions
variable {α : Type} (P : Platform)

def db (c : DbCall) : Lock c.Output := Async.call c

def orThrow (message : String) : Option α → Lock α
  | some a => return a
  | none => Async.throw message

def updateTab (tab : Nat) (f : Tab → Tab) : Lock Unit := Async.modify fun s => s.setTab tab (f (s.tab tab))

/- The envelope. -/

def keysAad (serverId : String) : Lock CodeUnits :=
  orThrow "Lock id must be non-empty and contain no \"|\"" (recordAad (units "session-keys") (units serverId))

def localTokenAad : Lock CodeUnits :=
  orThrow "Lock id must be non-empty and contain no \"|\"" (recordAad (units "local-token") (units "self-hosted"))

def sealJson (mk plaintext : Bytes) (aad : CodeUnits) (nonce : Nonce) : Lock Sealing := do
  let record ← orThrow "The master key must be 32 bytes (AES-256)" (sealRecord P.A mk plaintext aad nonce.1)
  return ⟨record, plaintext⟩

def openAt (slot : Slot) (n : Nat) (unsealed : SealedRecord → Option Bytes) : Lock Bytes := do
  let s ← Async.get
  let plaintext ← orThrow "Sealed record failed authentication"
    ((s.stored[n]?).bind fun x => unsealed x.sealing.record)
  Async.say (.opened slot plaintext)
  return plaintext

def openJson (parse : Bytes → Option α) (mk : Bytes) (found : Found) (aad : CodeUnits) : Lock α := do
  let plaintext ← openAt found.slot found.record fun record => openRecord P.A mk record aad
  orThrow "Unexpected end of JSON input" (parse plaintext)

def wrapMasterKey (factorKey mk : Bytes) (kind : FactorKind) (id : String) (nonce : Nonce) : Lock Sealing := do
  let record ← orThrow "Lock factor id must be non-empty and contain no \"|\""
    (Crypto.wrapMasterKey P.A P.hkdf factorKey mk (units kind.text) (units id) nonce.1)
  return ⟨record, mk⟩

def unwrapMasterKey (factorKey : Bytes) (factor : FactorRecord Nat) : Lock Bytes :=
  openAt (.factor factor.kind factor.id) factor.wrapped fun wrapped =>
    Crypto.unwrapMasterKey P.A P.hkdf factorKey wrapped (units factor.kind.text) (units factor.id)

def derivePinKey (pin : String) (salt : Bytes) (iterations : Nat) : Lock Bytes :=
  match LockState.derivePinKey P.derive pin salt iterations with
  | .error message => Async.throw message
  | .ok factorKey => do
    db .pause
    return factorKey

/- What a tab has in memory. -/

def masterKey (tab : Nat) : Lock (Option Nat) := do return ((← Async.get).tab tab).masterKey

def requireMasterKey (tab : Nat) : Lock Nat := do orThrow lockedMessage (← masterKey tab)

/-- What is in the array by now. -/
def bytesOf (mk : Nat) : Lock Bytes := do return ((← Async.get).arrays[mk]?).getD []

def setMasterKey (tab : Nat) (mk : Bytes) : Lock Nat := do
  let handle := (← Async.get).arrays.length
  Async.modify fun s => s.setMasterKey tab mk
  return handle

def cacheKeys (tab : Nat) (serverId : String) (keys : StoredKeys) : Lock Unit :=
  updateTab tab fun t => { t with keys := t.keys.set serverId keys }

/- The keys of a machine. -/

def sealKeysIfUnlocked (tab : Nat) (serverId : String) (plain : StoredKeys) (nonce : Nonce) : Lock (KeyRecord Sealing) := do
  if !((← Async.get).tab tab).enrolled then return .plain plain
  else
    match ← masterKey tab with
    | none => Async.throw "This device is locked. Unlock it before pairing, or erase it and start over."
    | some mk => return .sealed (← sealJson P (← bytesOf mk) (P.stringify plain) (← keysAad serverId) nonce)

def saveSessionKeys (tab : Nat) (serverId : String) (keys : StoredKeys) (nonce : Nonce) : Lock Unit := do
  db .openDb
  let plain := { keys with sessionLocks := none }
  let record ← sealKeysIfUnlocked P tab serverId plain nonce
  db (.putKeys serverId record)
  match record with
  | .sealed _ => cacheKeys tab serverId plain
  | .plain _ => return

def loadSessionKeys (tab : Nat) (serverId : String) : Lock (Option StoredKeys) := do
  match ((← Async.get).tab tab).keys.get serverId with
  | some cached => return some cached
  | none =>
    Async.catching (do
      db .openDb
      match ← db (.getKeys serverId) with
      | none => return none
      | some (.plain keys) => return some keys
      | some (.sealed stored) =>
        match ← masterKey tab with
        | none => return none
        | some mk =>
          let opened ← openJson P P.parse (← bytesOf mk) stored (← keysAad serverId)
          cacheKeys tab serverId opened
          return some opened) fun _ => return none

def clearSessionKeys (serverId : String) : Lock Unit :=
  Async.catching (do
    db .openDb
    db (.deleteKeys serverId)) fun _ => return

def setSessionLock (tab : Nat) (serverId sessionName : String) (locked : Bool) (nonce : Nonce) : Lock Unit := do
  let mk ← requireMasterKey tab
  db .openDb
  match ← db (.getKeys serverId) with
  | some (.sealed stored) =>
    let opened ← openJson P P.parse (← bytesOf mk) stored (← keysAad serverId)
    let names := (opened.sessionLocks.getD []).filter (· ≠ sessionName)
    let next : StoredKeys :=
      { opened with sessionLocks := some (if locked then names ++ [sessionName] else names) }
    let record ← sealJson P (← bytesOf mk) (P.stringify next) (← keysAad serverId) nonce
    db (.putKeys serverId (.sealed record))
    cacheKeys tab serverId next
  | _ => Async.throw "Set a device PIN before locking a session."

/- The lock. -/

def readLockRecord : Lock (Option LockRecord) :=
  Async.catching (do
    db .openDb
    db .getLock) fun _ => return none

def writeLockRecord (record : LockRecord) : Lock Unit := do
  db .openDb
  db (.putLock record)

def hydrateLockState (tab : Nat) : Lock Unit := do
  let record ← readLockRecord
  updateTab tab fun t => { t with enrolled := record.any fun r => !r.factors.isEmpty }

def isEnrolledOnDisk (tab : Nat) : Lock Bool := do
  if ((← Async.get).tab tab).enrolled then return true
  else return (← readLockRecord).isSome

/-- A record that is sealed already stays as it is. -/
def sealAll (mk : Bytes) (nonces : Nat → Nonce) : List (String × KeyRecord Found) → Lock (List (String × Sealing × StoredKeys))
  | [] => return []
  | (_, .sealed _) :: rest => sealAll mk nonces rest
  | (serverId, .plain keys) :: rest => do
    let record ← sealJson P mk (P.stringify keys) (← keysAad serverId) (nonces rest.length)
    return (serverId, record, keys) :: (← sealAll mk nonces rest)

def cacheAll (tab : Nat) : List (String × Sealing × StoredKeys) → Lock Unit
  | [] => return
  | (serverId, _, keys) :: rest => do
    cacheKeys tab serverId keys
    cacheAll tab rest

def sealToken (mk : Bytes) (nonce : Nonce) : Option String → Lock (Option Sealing)
  | none => return none
  | some token => do return some (← sealJson P mk (P.stringifyToken token) (← localTokenAad) nonce)

/-- The random draws come with the call. -/
structure Draws where
  masterKey : Bytes
  salt : Bytes
  factorId : Bytes
  wrapNonce : Nonce
  tokenNonce : Nonce
  nonces : Nat → Nonce

def enrollPin (tab : Nat) (pin : String) (label : Option String) (iterations : Nat) (draws : Draws) : Lock Unit := do
  if ← isEnrolledOnDisk tab then Async.throw "This device already has a lock."
  else
    let factorKey ← derivePinKey P pin draws.salt iterations
    let wrapped ← wrapMasterKey P factorKey draws.masterKey .pin (bytesToHex draws.factorId) draws.wrapNonce
    let now := (← Async.get).now
    db .openDb
    let sealedNow ← sealAll P draws.masterKey draws.nonces (← db .getAllKeys)
    let plainLocalToken := (← Async.get).localStorageToken.filter (· ≠ "")
    let token ← sealToken P draws.masterKey draws.tokenNonce plainLocalToken
    db (.enroll (sealedNow.map fun x => (x.1, x.2.1)) token ⟨[], 0, none, false, pin.length, 15, false, now⟩
      ⟨.pin, bytesToHex draws.factorId, draws.salt, iterations, wrapped, now, label.filter (· ≠ "")⟩)
    let _ ← setMasterKey tab draws.masterKey
    cacheAll tab sealedNow
    match plainLocalToken with
    | none => return
    | some token =>
      updateTab tab fun t => { t with localToken := some token }
      Async.modify fun s => { s with localStorageToken := none }

def addFactor (tab : Nat) (kind : FactorKind) (factorKey salt : Bytes) (iterations : Nat) (label : Option String)
    (factorId : Bytes) (nonce : Nonce) : Lock Unit := do
  match ← readLockRecord with
  | none => Async.throw "Set a PIN before adding another factor."
  | some record =>
    let mk ← requireMasterKey tab
    let wrapped ← wrapMasterKey P factorKey (← bytesOf mk) kind (bytesToHex factorId) nonce
    let now := (← Async.get).now
    db .openDb
    db (.putFactor record
      ⟨kind, bytesToHex factorId, salt, iterations, wrapped, now, label.filter (· ≠ "")⟩)

def removeFactor (tab : Nat) (id : String) : Lock Unit := do
  match ← readLockRecord with
  | none => return
  | some record =>
    let _ ← requireMasterKey tab
    let factors := record.factors.filter fun f => f.id ≠ id
    if factors.isEmpty then Async.throw "That is the only way into this device. Erase the device instead."
    else writeLockRecord { record with factors := factors }

def updateLockSettings (tab : Nat) (patch : SettingsPatch) : Lock Unit := do
  match ← readLockRecord with
  | none => return
  | some record =>
    let _ ← requireMasterKey tab
    writeLockRecord { record with
      wipeAfter10 := patch.wipeAfter10.getD record.wipeAfter10
      idleMinutes := patch.idleMinutes.getD record.idleMinutes
      lockOnBackground := patch.lockOnBackground.getD record.lockOnBackground }

def restoreLocalToken (tab mk : Nat) : Lock Unit :=
  Async.catching (do
    db .openDb
    match ← db .getToken with
    | none => return
    | some stored =>
      let token ← openJson P P.parseToken (← bytesOf mk) stored (← localTokenAad)
      updateTab tab fun t => { t with localToken := some token }) fun _ => return

/-- One factor is tried; what it unwraps is the master key from now on. -/
def unlockWith (tab : Nat) (record : LockRecord) (factor : FactorRecord Nat) (factorKey : Bytes) : Lock Bool :=
  Async.catching (do
    let mk ← unwrapMasterKey P factorKey factor
    writeLockRecord { record with failedAttempts := 0, lockedUntil := none }
    restoreLocalToken P tab (← setMasterKey tab mk)
    return true) fun _ => return false

def unlockWithPins (tab : Nat) (pin : String) (record : LockRecord) : List (FactorRecord Nat) → Lock Bool
  | [] => return false
  | factor :: rest => do
    let factorKey ← derivePinKey P pin factor.salt factor.iterations
    if ← unlockWith P tab record factor factorKey then return true
    else unlockWithPins tab pin record rest

def eraseDevice (tab : Nat) : Lock Unit := do
  Async.modify fun s => s.forget tab
  updateTab tab fun t => { t with enrolled := false }
  Async.catching (do
    db .openDb
    db .clear) fun _ => return

def unlockWithPin (tab : Nat) (pin : String) : Lock UnlockOutcome := do
  match ← readLockRecord with
  | none => return .noLock
  | some record =>
    let now := (← Async.get).now
    match (record.lockedUntil.filter (· ≠ 0)).filter fun time => decide (now < time) with
    | some time => return .throttled time
    | none =>
      let pinFactors := record.factors.filter fun f => f.kind = .pin
      if pinFactors.isEmpty then return .noLock
      else
        let attempts := record.failedAttempts + 1
        writeLockRecord { record with failedAttempts := attempts, lockedUntil := lockoutUntil attempts now }
        if ← unlockWithPins P tab pin record pinFactors then return .ok
        else if record.wipeAfter10 && decide (wipeThreshold ≤ attempts) then
          eraseDevice tab
          return .wiped
        else return .wrong (if record.wipeAfter10 then some (wipeThreshold - attempts) else none)

def unlockWithFactorKey (tab : Nat) (factorId : String) (factorKey : Bytes) : Lock UnlockOutcome := do
  match ← readLockRecord with
  | none => return .noLock
  | some record =>
    match record.factors.find? fun f => f.id = factorId with
    | none => return .noLock
    | some factor => if ← unlockWith P tab record factor factorKey then return .ok else return .wrong none

end Functions

/-! ### Runs -/

inductive Job where
  | hydrateLockState (tab : Nat)
  | saveSessionKeys (tab : Nat) (serverId : String) (keys : StoredKeys) (nonce : Nonce)
  | loadSessionKeys (tab : Nat) (serverId : String)
  | clearSessionKeys (serverId : String)
  | setSessionLock (tab : Nat) (serverId sessionName : String) (locked : Bool) (nonce : Nonce)
  | enrollPin (tab : Nat) (pin : String) (label : Option String) (iterations : Nat) (draws : Draws)
  | addFactor (tab : Nat) (kind : FactorKind) (factorKey salt : Bytes) (iterations : Nat) (label : Option String)
      (factorId : Bytes) (nonce : Nonce)
  | removeFactor (tab : Nat) (id : String)
  | updateLockSettings (tab : Nat) (patch : SettingsPatch)
  | unlockWithPin (tab : Nat) (pin : String)
  | unlockWithFactorKey (tab : Nat) (factorId : String) (factorKey : Bytes)
  | eraseDevice (tab : Nat)

def program (P : Platform) : Job → Lock Unit
  | .hydrateLockState tab => hydrateLockState tab
  | .saveSessionKeys tab serverId keys nonce => saveSessionKeys P tab serverId keys nonce
  | .loadSessionKeys tab serverId => do let _ ← loadSessionKeys P tab serverId
  | .clearSessionKeys serverId => clearSessionKeys serverId
  | .setSessionLock tab serverId sessionName locked nonce => setSessionLock P tab serverId sessionName locked nonce
  | .enrollPin tab pin label iterations draws => enrollPin P tab pin label iterations draws
  | .addFactor tab kind factorKey salt iterations label factorId nonce =>
    addFactor P tab kind factorKey salt iterations label factorId nonce
  | .removeFactor tab id => removeFactor tab id
  | .updateLockSettings tab patch => updateLockSettings tab patch
  | .unlockWithPin tab pin => do let _ ← unlockWithPin P tab pin
  | .unlockWithFactorKey tab factorId factorKey => do let _ ← unlockWithFactorKey P tab factorId factorKey
  | .eraseDevice tab => eraseDevice tab

/-- Somebody puts plain records and records that were once stored wherever they like, or deletes them; a tab is locked; a
token is kept for a device without a lock; time passes. -/
inductive Elsewhere where
  | rearranges (keys : OrderedMap String (KeyRecord Nat)) (token : Option Nat) (lock : Option LockRecord)
  | forgets (tab : Nat)
  | keepsToken (token : Option String)
  | passes (ms : Nat)

def Stores.elsewhere (s : Stores) : Elsewhere → Stores
  | .rearranges keys token lock => { s with keys := keys, token := token, lock := lock }
  | .forgets tab => s.forget tab
  | .keepsToken token => { s with localStorageToken := token }
  | .passes ms => { s with now := s.now + ms }

/-- A call of the database is carried out, or fails. -/
def host (P : Platform) : Async.Host Stores Out String DbCall.Output Unit Job Bool Elsewhere where
  program := program P
  exec s c fails := if fails then (s, .error "indexedDB") else ((s.exec c).1, .ok (s.exec c).2)
  other := Stores.elsewhere

abbrev Event : Type := Async.Happening Job Bool Elsewhere

def stores (P : Platform) : Machine (Async.World Stores Out String DbCall.Output Unit Job) Event (Nat × Out) :=
  (host P).machine .init

end Mtmux.Browser.Sealed
