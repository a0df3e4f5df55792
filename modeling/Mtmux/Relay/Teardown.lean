import Mtmux.Relay.CloneNames

/-! What a connection has opened outside of the relay's memory, and how it is taken down again: by the close event,
which lets the queue run out first, and by the machine's owner, who does not wait for it. -/
namespace Mtmux.Relay.Teardown

/-- The messages that open something. `other` stands for the rest, with the calls they wait for. -/
inductive Message where
  | attach (target : String) (capture : Bool)
  | detach
  | watch (path : String)
  | unwatch (path : String)
  | upload (path : String) (bytes : Nat) (final : Bool)
  | other (awaits : Nat)

/-- What a handler waits for. `locked` has the options still to be set, `written` the size with this chunk. -/
inductive Await where
  | dropped (target : String) (capture : Bool)
  | found (capture : Bool)
  | captured
  | cloned
  | locked (left : Nat)
  | unlocked
  | unspawned
  | detached
  | rejected (path : String)
  | written (path : String) (size : Nat) (final : Bool)
  | other (left : Nat)

inductive Outcome where
  | done
  | failed
  | halfway
  deriving DecidableEq

structure Handler where
  await : Await
  answer : Option Outcome

/-- What a removal waits for. `upload` is at the entry with this stamp. -/
inductive Stage where
  | clone
  | watchers
  | upload (path : String) (stamp : Nat)

/-- `own` is the removal of the close event. -/
structure Removal where
  own : Bool
  stage : Stage
  answered : Bool

/-- An entry of the map of uploads; the stamp is its place in the order in which keys were added. -/
structure Upload where
  stamp : Nat
  path : String
  size : Nat

/-- `cloneSession` says whether the field is set: the name in it is always the one made of the grant and the
connection. Outside there are the ptys that run, the session of that name, the watchers that are open and the files with
a part of an upload. -/
structure State where
  readOnly : Bool
  pty : Option Nat
  cloneSession : Bool
  watchers : OrderedMap String Nat
  uploads : List Upload
  stamps : Nat
  queue : List Message
  handler : Option Handler
  closing : Bool
  inTable : Bool
  begun : Bool
  finished : Bool
  removals : List Removal
  spawned : Nat
  live : List Nat
  clone : Bool
  opened : Nat
  watching : List Nat
  partials : List String

inductive Event where
  | message (msg : Message)
  | next
  | carry (x : Outcome)
  | resume
  | hangUp
  | close
  | teardown
  | carryRemoval (n : Nat) (x : Outcome)
  | resumeRemoval (n : Nat)
  | ptyExit (bridge : Nat)
  | cloneEnds
  | fileGone (path : String)

def cloneOptions : Nat := 4

def maxUploadSize : Nat := 10 * 1024 * 1024

namespace State
variable (host : Host) (resolve : String → String)

def start (readOnly : Bool) : State where
  readOnly := readOnly
  pty := none
  cloneSession := false
  watchers := .empty
  uploads := []
  stamps := 1
  queue := []
  handler := none
  closing := false
  inTable := true
  begun := false
  finished := false
  removals := []
  spawned := 0
  live := []
  clone := false
  opened := 0
  watching := []
  partials := []

def wait (await : Await) (s : State) : State := { s with handler := some ⟨await, none⟩ }

def done (s : State) : State := { s with handler := none }

/-- `markDetaching`, `kill`, and the field is cleared. -/
def dropPty (s : State) : State :=
  match s.pty with
  | none => s
  | some bridge => { s with pty := none, live := s.live.filter (· ≠ bridge) }

/-! ### Handlers -/

def spawnPty (s : State) : State :=
  match host.spawnFailure s.spawned with
  | some _ =>
    if s.cloneSession then { s with spawned := s.spawned + 1 }.wait .unspawned
    else { s with spawned := s.spawned + 1 }.done
  | none => { s with pty := some s.spawned, live := s.spawned :: s.live, spawned := s.spawned + 1 }.done

def openView (s : State) : State := if s.readOnly then s.wait .cloned else s.spawnPty host

def findTarget (target : String) (capture : Bool) (s : State) : State :=
  if isCloneSession target then s.done else s.wait (.found capture)

def attach (target : String) (capture : Bool) (s : State) : State :=
  if s.dropPty.cloneSession then s.dropPty.wait (.dropped target capture) else s.dropPty.findTarget target capture

def detach (s : State) : State := if s.dropPty.cloneSession then s.dropPty.wait .detached else s.dropPty.done

def watch (path : String) (s : State) : State :=
  if !host.isPathAllowed path || s.watchers.has path then s.done
  else match host.watchFailure path with
    | some _ => s.done
    | none =>
      { s with
        watchers := s.watchers.set path s.opened
        watching := s.opened :: s.watching
        opened := s.opened + 1 }.done

def unwatch (path : String) (s : State) : State :=
  match s.watchers.get path with
  | none => s.done
  | some watcher =>
    { s with watchers := s.watchers.delete path, watching := s.watching.filter (· ≠ watcher) }.done

def uploadSize (path : String) (s : State) : Nat :=
  ((s.uploads.find? fun u => u.path = path).map Upload.size).getD 0

def forgetUpload (path : String) (s : State) : State := { s with uploads := s.uploads.filter (·.path ≠ path) }

/-- A key that is there keeps its place. -/
def setUpload (path : String) (size : Nat) (s : State) : State :=
  if s.uploads.any (·.path = path) then
    { s with uploads := s.uploads.map fun u => if u.path = path then { u with size := size } else u }
  else { s with uploads := s.uploads ++ [⟨s.stamps, path, size⟩], stamps := s.stamps + 1 }

/-- `handleUpload`: the chunk makes the file or is appended to it. -/
def upload (path : String) (bytes : Nat) (final : Bool) (s : State) : State :=
  if !host.isPathAllowed path then s.done
  else
    let resolved := resolve path
    let size := s.uploadSize resolved + bytes
    if size > maxUploadSize then (s.forgetUpload resolved).wait (.rejected resolved)
    else s.wait (.written resolved size final)

def handle (s : State) : Message → State
  | .attach target capture => s.attach target capture
  | .detach => s.detach
  | .watch path => s.watch host path
  | .unwatch path => s.unwatch path
  | .upload path bytes final => s.upload host resolve path bytes final
  | .other awaits => if awaits = 0 then s.done else s.wait (.other (awaits - 1))

/-- The handler goes on with what its call has come to. -/
def goOn (s : State) : Await → Outcome → State
  | .dropped target capture, _ => { s with cloneSession := false }.findTarget target capture
  | .found capture, .done => if capture then s.wait .captured else s.openView host
  | .found _, _ => s.done
  | .captured, _ => s.openView host
  | .cloned, .done => s.wait (.locked (cloneOptions - 1))
  | .cloned, _ => s.done
  | .locked 0, .done => { s with cloneSession := true }.spawnPty host
  | .locked (left + 1), .done => s.wait (.locked left)
  | .locked _, _ => s.wait .unlocked
  | .unlocked, _ => s.done
  | .unspawned, _ => { s with cloneSession := false }.done
  | .detached, _ => { s with cloneSession := false }.done
  | .rejected _, _ => s.done
  | .written path size final, .done => if final then (s.forgetUpload path).done else (s.setUpload path size).done
  | .written .., _ => s.done
  | .other 0, _ => s.done
  | .other (left + 1), _ => s.wait (.other left)

def endClone (x : Outcome) (s : State) : State := if x = .done then { s with clone := false } else s

def removeFile (path : String) (x : Outcome) (s : State) : State :=
  if x = .done then { s with partials := s.partials.filter (· ≠ path) } else s

/-- What a handler's call does outside. A new session is there, and a chunk is in the file, when the call is done or
halfway; the last chunk makes the file a whole one. -/
def carry (s : State) (x : Outcome) : Await → State
  | .dropped .. | .unlocked | .unspawned | .detached => s.endClone x
  | .cloned => if x = .failed then s else { s with clone := true }
  | .rejected path => s.removeFile path x
  | .written path _ final =>
    if x = .failed then s
    else if final ∧ x = .done then s.removeFile path .done
    else { s with partials := path :: s.partials }
  | _ => s

/-! ### Removals -/

def closeWatchers (s : State) : State × Option Stage :=
  ({ s with watching := s.watching.filter fun w => !s.watchers.values.contains w }, some .watchers)

/-- `cleanupUploads`, from the entry after this stamp: keys that are added meanwhile have their turn. -/
def cleanupUploads (stamp : Nat) (s : State) : State × Option Stage :=
  match s.uploads.find? fun u => stamp < u.stamp with
  | some u => (s, some (.upload u.path u.stamp))
  | none => ({ s with uploads := [], inTable := false }, none)

def removeConnection (s : State) : State × Option Stage :=
  if s.dropPty.cloneSession then (s.dropPty, some .clone) else s.dropPty.closeWatchers

def goOnRemoving (s : State) : Stage → State × Option Stage
  | .clone => { s with cloneSession := false }.closeWatchers
  | .watchers => { s with watchers := .empty }.cleanupUploads 0
  | .upload _ stamp => s.cleanupUploads stamp

def carryRemoving (s : State) (x : Outcome) : Stage → State
  | .clone => s.endClone x
  | .watchers => s
  | .upload path _ => s.removeFile path x

/-- A removal is begun, and waits. -/
def remove (own : Bool) (s : State) : State :=
  match s.removeConnection with
  | (s, some stage) => { s with removals := s.removals ++ [⟨own, stage, false⟩] }
  | (s, none) => { s with finished := s.finished || own }

/-! ### Steps -/

def step (s : State) : Event → State
  | .message msg => if s.closing then s else { s with queue := s.queue ++ [msg] }
  | .next =>
    match s.handler, s.queue with
    | none, msg :: rest => { s with queue := rest }.handle host resolve msg
    | _, _ => s
  | .carry x =>
    match s.handler with
    | some ⟨await, none⟩ => { s.carry x await with handler := some ⟨await, some x⟩ }
    | _ => s
  | .resume =>
    match s.handler with
    | some ⟨await, some x⟩ => s.goOn host await x
    | _ => s
  | .hangUp => if s.inTable then s.remove false else s
  | .close => { s with closing := true }
  | .teardown =>
    if s.closing && !s.begun && s.handler.isNone && s.queue.isEmpty then { s with begun := true }.remove true else s
  | .carryRemoval n x =>
    match s.removals[n]? with
    | some ⟨own, stage, false⟩ => { s.carryRemoving x stage with removals := s.removals.set n ⟨own, stage, true⟩ }
    | _ => s
  | .resumeRemoval n =>
    match s.removals[n]? with
    | some ⟨own, stage, true⟩ =>
      match s.goOnRemoving stage with
      | (t, some stage) => { t with removals := t.removals.set n ⟨own, stage, false⟩ }
      | (t, none) => { t with removals := t.removals.eraseIdx n, finished := t.finished || own }
    | _ => s
  | .ptyExit bridge =>
    { s with
      live := s.live.filter (· ≠ bridge)
      pty := if s.pty = some bridge then none else s.pty }
  | .cloneEnds => { s with clone := false }
  | .fileGone path => s.removeFile path .done

end State

def machine (host : Host) (resolve : String → String) (readOnly : Bool) : Machine State Event Unit :=
  ⟨.start readOnly, fun s e => (s.step host resolve e, [])⟩

end Mtmux.Relay.Teardown
