import Mtmux.Base.Machine
import Mtmux.Base.OrderedMap
import Mtmux.Crypto.Bytes

/-! The device lock of the browser: one database, and any number of tabs that hold the master key or do
not. Encryption is ideal: a record opens with the key it was sealed with, in the place it was sealed
for. -/
namespace Mtmux.Browser
open Crypto

/-- The keys of one machine, with the sessions that ask for an unlock again. -/
structure StoredKeys where
  c2s : Bytes
  s2c : Bytes
  confirm : Bytes
  directToken : String
  sessionLocks : Option (List String)
  deriving DecidableEq

structure SealedKeys where
  key : Bytes
  aad : String
  keys : StoredKeys
  deriving DecidableEq

inductive KeyRecord where
  | plain (keys : StoredKeys)
  | sealed (record : SealedKeys)
  deriving DecidableEq

inductive FactorKind where
  | pin | passkey
  deriving DecidableEq

structure WrappedKey where
  factorKey : Bytes
  kind : FactorKind
  id : String
  masterKey : Bytes
  deriving DecidableEq

structure FactorRecord where
  kind : FactorKind
  id : String
  salt : Bytes
  iterations : Nat
  wrapped : WrappedKey
  createdAt : Nat
  label : Option String
  deriving DecidableEq

structure LockRecord where
  factors : List FactorRecord
  failedAttempts : Nat
  lockedUntil : Option Nat
  wipeAfter10 : Bool
  pinLength : Nat
  idleMinutes : Nat
  lockOnBackground : Bool
  enrolledAt : Nat
  deriving DecidableEq

structure SettingsPatch where
  wipeAfter10 : Option Bool
  idleMinutes : Option Nat
  lockOnBackground : Option Bool
  deriving DecidableEq

inductive UnlockOutcome where
  | ok
  | wrong (attemptsLeft : Option Nat)
  | throttled (time : Nat)
  | wiped
  | noLock
  deriving DecidableEq

/-- What a call draws at random it brings with it. -/
inductive LockCall where
  | hydrateLockState
  | enrollPin (pin : String) (label : Option String) (masterKey salt : Bytes) (iterations : Nat) (id : String)
  | saveSessionKeys (serverId : String) (keys : StoredKeys)
  | setSessionLock (serverId sessionName : String) (locked : Bool)
  | addFactor (kind : FactorKind) (factorKey : Bytes) (id : String) (salt : Bytes) (iterations : Nat)
      (label : Option String)
  | removeFactor (id : String)
  | unlockWithPin (pin : String)
  | unlockWithFactorKey (factorId : String) (factorKey : Bytes)
  | updateLockSettings (patch : SettingsPatch)
  | eraseDevice
  deriving DecidableEq

inductive LockPhase where
  | reading
  | got (record : Option LockRecord)
  | readingKeys (record : LockRecord)
  | gotKeys (record : LockRecord) (existing : List (String × KeyRecord))
  | committing (record : LockRecord) (sealedNow : List (String × SealedKeys))
  | committed
  | deciding
  | putting (serverId : String) (record : KeyRecord)
  | readingKey (masterKey : Bytes) (handle : Nat)
  | gotKey (masterKey : Bytes) (handle : Nat) (stored : Option KeyRecord)
  | writing (before record : LockRecord)
  | counting (before record : LockRecord)
  | guessing (before record : LockRecord) (rest : List FactorRecord) (first : Bool)
  | resetting (before record : LockRecord) (masterKey : Bytes) (factorId : String)
  | opened (masterKey : Bytes)
  | clearing

structure LockWork where
  tab : Nat
  call : LockCall
  phase : LockPhase

/-- `handle` names the array the master key is in: one that was wiped opens nothing. -/
structure LockTab where
  enrolled : Bool
  masterKey : Option Bytes
  handle : Nat

structure LockState where
  keys : OrderedMap String KeyRecord
  lock : Option LockRecord
  tabs : OrderedMap Nat LockTab
  calls : OrderedMap Nat LockWork
  now : Nat
  next : Nat

inductive LockEvent where
  | opens
  | closes (tab : Nat)
  | begins (tab : Nat) (call : LockCall)
  | goesOn (id : Nat)
  | passes (ms : Nat)

/-- `guessed` is a PIN that was tried, `unlocked` the success that is stored, `wrote` a change of the
factors or the settings. -/
inductive LockOutput where
  | guessed (id : Nat)
  | unlocked (id : Nat) (factorId : String)
  | wrote (id : Nat) (call : LockCall)
  | outcome (id : Nat) (outcome : UnlockOutcome)
  | threw (id : Nat) (message : String)
  | done (id : Nat)
  deriving DecidableEq

abbrev LockStep : Type := LockState × List LockOutput

def freeAttempts : Nat := 3
def maxLockoutMs : Nat := 15 * 60000
def wipeThreshold : Nat := 10

/-- A field of a place has a separator neither in it nor for it. -/
def lockField (value : String) : Option String :=
  if value = "" ∨ '|' ∈ value.toList then none else some value

def keysAad (serverId : String) : Option String :=
  (lockField serverId).map fun id => "mtmux/lock/v1|rec|session-keys|" ++ id

def sealKeys (masterKey : Bytes) (keys : StoredKeys) (serverId : String) : Option SealedKeys :=
  (keysAad serverId).map fun aad => ⟨masterKey, aad, keys⟩

def openKeys (masterKey : Bytes) (record : SealedKeys) (serverId : String) : Option StoredKeys :=
  if record.key = masterKey ∧ keysAad serverId = some record.aad then some record.keys else none

def wrapMasterKey (factorKey masterKey : Bytes) (kind : FactorKind) (id : String) : WrappedKey :=
  ⟨factorKey, kind, id, masterKey⟩

def unwrapMasterKey (factorKey : Bytes) (factor : FactorRecord) : Option Bytes :=
  if factor.wrapped.factorKey = factorKey ∧ factor.wrapped.kind = factor.kind ∧
      factor.wrapped.id = factor.id then some factor.wrapped.masterKey
  else none

def lockoutUntil (attempts now : Nat) : Option Nat :=
  if attempts ≤ freeAttempts then none
  else some (now + min (1000 * 2 ^ (attempts - freeAttempts)) maxLockoutMs)

namespace LockRecord

def counted (record : LockRecord) (now : Nat) : LockRecord :=
  { record with
    failedAttempts := record.failedAttempts + 1
    lockedUntil := lockoutUntil (record.failedAttempts + 1) now }

def cleared (record : LockRecord) : LockRecord :=
  { record with failedAttempts := 0, lockedUntil := none }

def patched (record : LockRecord) (patch : SettingsPatch) : LockRecord :=
  { record with
    wipeAfter10 := patch.wipeAfter10.getD record.wipeAfter10
    idleMinutes := patch.idleMinutes.getD record.idleMinutes
    lockOnBackground := patch.lockOnBackground.getD record.lockOnBackground }

end LockRecord

namespace LockTab

def fresh : LockTab := ⟨false, none, 0⟩

def setMasterKey (tab : LockTab) (masterKey : Bytes) : LockTab := ⟨true, some masterKey, tab.handle + 1⟩

/-- The key is wiped where it lies. -/
def forget (tab : LockTab) : LockTab := ⟨tab.enrolled, none, tab.handle + 1⟩

end LockTab

def lockedMessage : String := "This device is locked."

namespace LockState
variable (derive : String → Bytes → Nat → Bytes)

/-- The key a PIN is stretched to; it throws where there is nothing to stretch. -/
def derivePinKey (pin : String) (salt : Bytes) (iterations : Nat) : Except String Bytes :=
  if pin = "" then .error "A lock PIN cannot be empty"
  else if iterations < 1 then .error "PBKDF2 iterations must be a positive integer"
  else if salt = [] then .error "A lock factor needs a salt"
  else .ok (derive pin salt iterations)

def goOn (s : LockState) (id : Nat) (work : LockWork) (phase : LockPhase) : LockState :=
  { s with calls := s.calls.set id { work with phase := phase } }

def finish (s : LockState) (id : Nat) : LockState := { s with calls := s.calls.delete id }

def throws (s : LockState) (id : Nat) (message : String) : LockStep :=
  (s.finish id, [.threw id message])

def setTab (s : LockState) (id : Nat) (tab : LockTab) : LockState := { s with tabs := s.tabs.set id tab }

def pinFactor (pin : String) (label : Option String) (masterKey salt : Bytes) (iterations : Nat)
    (id : String) (now : Nat) (factorKey : Bytes) : LockRecord where
  factors := [⟨.pin, id, salt, iterations, wrapMasterKey factorKey masterKey .pin id, now,
    label.filter (· ≠ "")⟩]
  failedAttempts := 0
  lockedUntil := none
  wipeAfter10 := false
  pinLength := pin.length
  idleMinutes := 15
  lockOnBackground := false
  enrolledAt := now

def sealAll (masterKey : Bytes) : List (String × KeyRecord) → Option (List (String × SealedKeys))
  | [] => some []
  | (_, .sealed _) :: rest => sealAll masterKey rest
  | (serverId, .plain keys) :: rest => do
    let record ← sealKeys masterKey keys serverId
    let records ← sealAll masterKey rest
    return (serverId, record) :: records

def commit (s : LockState) (record : LockRecord) (sealedNow : List (String × SealedKeys)) : LockState :=
  { s with
    keys := sealedNow.foldl (fun keys r => keys.set r.1 (.sealed r.2)) s.keys
    lock := some record }

/-- A call begins; what it does before its first await it does at once. -/
def begins (s : LockState) (tabId : Nat) (tab : LockTab) (call : LockCall) : LockStep :=
  let id := s.next
  let s : LockState := { s with next := s.next + 1 }
  let work : LockWork := ⟨tabId, call, .reading⟩
  match call with
  | .enrollPin _ _ _ _ _ _ =>
    if tab.enrolled then (s, [.threw id "This device already has a lock."])
    else (s.goOn id work .reading, [])
  | .saveSessionKeys _ _ => (s.goOn id work .deciding, [])
  | .setSessionLock _ _ _ =>
    match tab.masterKey with
    | none => (s, [.threw id lockedMessage])
    | some masterKey => (s.goOn id work (.readingKey masterKey tab.handle), [])
  | .eraseDevice =>
    ((s.setTab tabId { tab.forget with enrolled := false }).goOn id work .clearing, [])
  | _ => (s.goOn id work .reading, [])

def got (s : LockState) (id : Nat) (work : LockWork) (tab : LockTab) (record : Option LockRecord) :
    LockStep :=
  match work.call, record with
  | .hydrateLockState, record =>
    ((s.setTab work.tab { tab with enrolled := record.any fun r => decide (r.factors ≠ []) }).finish id,
      [.done id])
  | .enrollPin _ _ _ _ _ _, some _ => s.throws id "This device already has a lock."
  | .enrollPin pin label masterKey salt iterations factorId, none =>
    match derivePinKey derive pin salt iterations with
    | .error message => s.throws id message
    | .ok factorKey =>
      (s.goOn id work (.readingKeys
        (pinFactor pin label masterKey salt iterations factorId s.now factorKey)), [])
  | .addFactor _ _ _ _ _ _, none => s.throws id "Set a PIN before adding another factor."
  | .addFactor kind factorKey factorId salt iterations label, some record =>
    match tab.masterKey with
    | none => s.throws id lockedMessage
    | some masterKey =>
      let factor : FactorRecord := ⟨kind, factorId, salt, iterations,
        wrapMasterKey factorKey masterKey kind factorId, s.now, label.filter (· ≠ "")⟩
      (s.goOn id work (.writing record { record with factors := record.factors ++ [factor] }), [])
  | .removeFactor _, none => (s.finish id, [.done id])
  | .removeFactor factorId, some record =>
    match tab.masterKey with
    | none => s.throws id lockedMessage
    | some _ =>
      let factors := record.factors.filter fun f => f.id ≠ factorId
      if factors = [] then
        s.throws id "That is the only way into this device. Erase the device instead."
      else (s.goOn id work (.writing record { record with factors := factors }), [])
  | .unlockWithPin _, none => (s.finish id, [.outcome id .noLock])
  | .unlockWithPin _, some record =>
    match (record.lockedUntil.filter (· ≠ 0)).filter fun time => decide (s.now < time) with
    | some time => (s.finish id, [.outcome id (.throttled time)])
    | none =>
      if (record.factors.filter fun f : FactorRecord => f.kind = FactorKind.pin) = [] then (s.finish id, [.outcome id .noLock])
      else (s.goOn id work (.counting record (record.counted s.now)), [])
  | .unlockWithFactorKey _ _, none => (s.finish id, [.outcome id .noLock])
  | .unlockWithFactorKey factorId factorKey, some record =>
    match record.factors.find? fun f => f.id = factorId with
    | none => (s.finish id, [.outcome id .noLock])
    | some factor =>
      match unwrapMasterKey factorKey factor with
      | none => (s.finish id, [.outcome id (.wrong none)])
      | some masterKey => (s.goOn id work (.resetting record record.cleared masterKey factor.id), [])
  | .updateLockSettings _, none => (s.finish id, [.done id])
  | .updateLockSettings patch, some record =>
    match tab.masterKey with
    | none => s.throws id lockedMessage
    | some _ => (s.goOn id work (.writing record (record.patched patch)), [])
  | _, _ => (s, [])

def gotKeys (s : LockState) (id : Nat) (work : LockWork) (record : LockRecord)
    (existing : List (String × KeyRecord)) : LockStep :=
  match work.call with
  | .enrollPin _ _ masterKey _ _ _ =>
    match sealAll masterKey existing with
    | none => s.throws id "Lock id must be non-empty and contain no \"|\""
    | some sealedNow => (s.goOn id work (.committing record sealedNow), [])
  | _ => (s, [])

def committed (s : LockState) (id : Nat) (work : LockWork) (tab : LockTab) : LockStep :=
  match work.call with
  | .enrollPin _ _ masterKey _ _ _ =>
    ((s.setTab work.tab (tab.setMasterKey masterKey)).finish id, [.done id])
  | _ => (s, [])

def decides (s : LockState) (id : Nat) (work : LockWork) (tab : LockTab) : LockStep :=
  match work.call with
  | .saveSessionKeys serverId keys =>
    if !tab.enrolled then (s.goOn id work (.putting serverId (.plain keys)), [])
    else
      match tab.masterKey with
      | none =>
        s.throws id "This device is locked. Unlock it before pairing, or erase it and start over."
      | some masterKey =>
        match sealKeys masterKey keys serverId with
        | none => s.throws id "Lock id must be non-empty and contain no \"|\""
        | some record => (s.goOn id work (.putting serverId (.sealed record)), [])
  | _ => (s, [])

/-- The record of a machine has been read, to mark one of its sessions. -/
def gotKey (s : LockState) (id : Nat) (work : LockWork) (tab : LockTab) (masterKey : Bytes) (handle : Nat)
    (stored : Option KeyRecord) : LockStep :=
  match work.call, stored with
  | .setSessionLock serverId sessionName locked, some (.sealed record) =>
    match if tab.handle = handle then openKeys masterKey record serverId else none with
    | none => s.throws id "Sealed record failed authentication"
    | some keys =>
      let names := (keys.sessionLocks.getD []).filter (· ≠ sessionName)
      let next : StoredKeys :=
        { keys with sessionLocks := some (if locked then names ++ [sessionName] else names) }
      (s.goOn id work (.putting serverId (.sealed ⟨masterKey, record.aad, next⟩)), [])
  | .setSessionLock _ _ _, _ => s.throws id "Set a device PIN before locking a session."
  | _, _ => (s, [])

/-- The PIN is tried on the next factor. -/
def guesses (s : LockState) (id : Nat) (work : LockWork) (before record : LockRecord) (first : Bool) :
    List FactorRecord → LockStep
  | [] =>
    if before.wipeAfter10 && decide (wipeThreshold ≤ record.failedAttempts) then
      match s.tabs.get work.tab with
      | none => (s, [])
      | some tab => ((s.setTab work.tab { tab.forget with enrolled := false }).goOn id work .clearing, [])
    else
      (s.finish id, [.outcome id
        (.wrong (if before.wipeAfter10 then some (wipeThreshold - record.failedAttempts) else none))])
  | factor :: rest =>
    match work.call with
    | .unlockWithPin pin =>
      match derivePinKey derive pin factor.salt factor.iterations with
      | .error message => s.throws id message
      | .ok factorKey =>
        let out := if first then [.guessed id] else []
        match unwrapMasterKey factorKey factor with
        | some masterKey =>
          (s.goOn id work (.resetting record before.cleared masterKey factor.id), out)
        | none => (s.goOn id work (.guessing before record rest false), out)
    | _ => (s, [])

/-- A call takes its next step, in a tab that is still open. -/
def continues (s : LockState) (id : Nat) (work : LockWork) (tab : LockTab) : LockStep :=
  match work.phase with
  | .reading => (s.goOn id work (.got s.lock), [])
  | .got record => s.got derive id work tab record
  | .readingKeys record => (s.goOn id work (.gotKeys record s.keys.entries), [])
  | .gotKeys record existing => s.gotKeys id work record existing
  | .committing record sealedNow => ((s.commit record sealedNow).goOn id work .committed, [])
  | .committed => s.committed id work tab
  | .deciding => s.decides id work tab
  | .putting serverId record =>
    ({ s with keys := s.keys.set serverId record }.finish id, [.done id])
  | .readingKey masterKey handle =>
    match work.call with
    | .setSessionLock serverId _ _ =>
      (s.goOn id work (.gotKey masterKey handle (s.keys.get serverId)), [])
    | _ => (s, [])
  | .gotKey masterKey handle stored => s.gotKey id work tab masterKey handle stored
  | .writing _ record => ({ s with lock := some record }.finish id, [.wrote id work.call, .done id])
  | .counting before record =>
    ({ s with lock := some record }.goOn id work
      (.guessing before record (before.factors.filter fun f : FactorRecord => f.kind = FactorKind.pin) true), [])
  | .guessing before record rest first => s.guesses derive id work before record first rest
  | .resetting _ record masterKey factorId =>
    ({ s with lock := some record }.goOn id work (.opened masterKey), [.unlocked id factorId])
  | .opened masterKey =>
    ((s.setTab work.tab (tab.setMasterKey masterKey)).finish id, [.outcome id .ok])
  | .clearing =>
    let out := match work.call with
      | .unlockWithPin _ => .outcome id .wiped
      | _ => .done id
    ({ s with keys := .empty, lock := none }.finish id, [out])

def step (s : LockState) : LockEvent → LockStep
  | .opens => ({ s with tabs := s.tabs.set s.next .fresh, next := s.next + 1 }, [])
  | .closes tab =>
    ({ s with tabs := s.tabs.delete tab, calls := s.calls.filter fun _ work => decide (work.tab ≠ tab) },
      [])
  | .begins tabId call =>
    match s.tabs.get tabId with
    | none => (s, [])
    | some tab => s.begins tabId tab call
  | .goesOn id =>
    match s.calls.get id with
    | none => (s, [])
    | some work =>
      match s.tabs.get work.tab with
      | none => (s, [])
      | some tab => s.continues derive id work tab
  | .passes ms => ({ s with now := s.now + ms }, [])

/-- A device that has never been used. -/
def init : LockState := ⟨.empty, none, .empty, .empty, 0, 0⟩

end LockState

def lockMachine (derive : String → Bytes → Nat → Bytes) (init : LockState) :
    Machine LockState LockEvent LockOutput where
  init := init
  step := LockState.step derive

def callAlone (tab id : Nat) (call : LockCall) (steps : Nat) : List LockEvent :=
  .begins tab call :: List.replicate steps (.goesOn id)

/-- A stretch for runs on fixed inputs: the salt, and the PIN behind it. -/
def saltedPin (pin : String) (salt : Bytes) (_ : Nat) : Bytes :=
  salt ++ pin.toList.map fun c => UInt8.ofNat c.toNat

end Mtmux.Browser
