import Mtmux.Relay.Tmux

/-! Attach and detach messages of one connection, and the events of the ptys that its attaches have opened. -/
namespace Mtmux.Relay.AttachEvents
open Protocol List

structure AttachRequest where
  name : String
  size : Option TerminalSize
  capture : Bool
  attachId : Option String

inductive Message where
  | attach (request : AttachRequest)
  | detach

/-- What a handler waits for. -/
inductive Await where
  | dropped (request : AttachRequest)
  | found (request : AttachRequest)
  | captured (request : AttachRequest)
  | cloned (request : AttachRequest) (captured : Option String)
  | unspawned (error : String)
  | detached

/-- What the machine answers; each await, and the start of a pty, reads its own part. -/
structure Answer where
  found : Bool
  captured : Option String
  clone : Option String
  spawnError : Option String

/-- A pty, with what the callbacks of its attach hold on to. A pty exits once. -/
structure Bridge where
  name : String
  attachId : Option String
  captured : Option String
  readyTimeout : Bool
  readyFired : Bool
  spawnError : Option String
  detaching : Bool
  exited : Bool

structure Connection where
  pty : Option Nat
  attachedSession : Option String
  lastSize : Option TerminalSize
  cloneSession : Option String

structure State where
  conn : Connection
  bridges : List Bridge
  queue : List Message
  handler : Option Await

inductive Event where
  | message (msg : Message)
  | next
  | resume (answer : Answer)
  | ready (bridge : Nat)
  | data (bridge : Nat) (data : String)
  | exit (bridge : Nat) (exitCode : Int)

/-- What is sent, and the pty whose callback sends it. -/
structure Sent where
  bridge : Option Nat
  message : ServerMessage

namespace State

def wait (s : State) (await : Await) : State × List Sent := ({ s with handler := some await }, [])

def done (s : State) : State × List Sent := ({ s with handler := none }, [])

def fail (s : State) (code message : String) : State × List Sent :=
  ({ s with handler := none }, [⟨none, .error code message⟩])

/-- The bridge is marked and killed: its timer is cleared, but its data can still come. -/
def killBridge (s : State) (n : Nat) : State :=
  { s with bridges := s.bridges.modify n fun b => { b with detaching := true, readyTimeout := false } }

def dropPty (s : State) : State :=
  let killed := match s.conn.pty with
    | none => s
    | some n => s.killBridge n
  { killed with conn := ⟨none, none, none, s.conn.cloneSession⟩ }

/-! ### Messages -/

def find (s : State) (request : AttachRequest) : State × List Sent :=
  if isCloneSession request.name then
    s.fail "SESSION_NOT_FOUND" ("Session \"" ++ request.name ++ "\" not found")
  else s.wait (.found request)

def spawn (s : State) (request : AttachRequest) (captured : Option String) (answer : Answer) : State × List Sent :=
  match answer.spawnError with
  | some error =>
    if s.conn.cloneSession.isSome then s.wait (.unspawned error) else s.fail "PTY_SPAWN_FAILED" error
  | none =>
    ({ s with
        conn := ⟨some s.bridges.length, some request.name, request.size, s.conn.cloneSession⟩
        bridges := s.bridges ++ [⟨request.name, request.attachId, captured, true, false, none, false, false⟩]
        handler := none }, [])

def openView (s : State) (readOnly : Bool) (request : AttachRequest) (captured : Option String) (answer : Answer) :
    State × List Sent :=
  if readOnly then s.wait (.cloned request captured) else s.spawn request captured answer

def handle (s : State) : Message → State × List Sent
  | .attach request => if s.conn.cloneSession.isSome then s.dropPty.wait (.dropped request) else s.dropPty.find request
  | .detach => if s.conn.cloneSession.isSome then s.dropPty.wait .detached else s.dropPty.done

def forgetClone (s : State) : State := { s with conn := { s.conn with cloneSession := none } }

def goOn (s : State) (readOnly : Bool) (answer : Answer) : Await → State × List Sent
  | .dropped request => s.forgetClone.find request
  | .found request =>
    if !answer.found then s.fail "SESSION_NOT_FOUND" ("Session \"" ++ request.name ++ "\" not found")
    else if request.capture then s.wait (.captured request) else s.openView readOnly request none answer
  | .captured request => s.openView readOnly request answer.captured answer
  | .cloned request captured =>
    match answer.clone with
    | none => s.fail "ATTACH_FAILED" "Could not open a read-only view."
    | some clone => { s with conn := { s.conn with cloneSession := some clone } }.spawn request captured answer
  | .unspawned error => s.forgetClone.fail "PTY_SPAWN_FAILED" error
  | .detached => s.forgetClone.done

/-! ### Ptys -/

def setBridge (s : State) (n : Nat) (b : Bridge) : State := { s with bridges := s.bridges.set n b }

def acknowledgement (b : Bridge) : List ServerMessage :=
  .sessionAttached b.name (b.attachId.filter (· ≠ "")) :: ((b.captured.filter (· ≠ "")).map .terminalOutput).toList

def fireReady (s : State) (n : Nat) (b : Bridge) : State × List Sent :=
  if b.readyFired || b.spawnError.isSome then (s.setBridge n b, [])
  else (s.setBridge n { b with readyFired := true }, (acknowledgement b).map (Sent.mk (some n)))

/-- The callbacks clear the connection only if it still has this pty. -/
def forget (s : State) (n : Nat) : State :=
  if s.conn.pty = some n then { s with conn := ⟨none, none, none, s.conn.cloneSession⟩ } else s

def ready (s : State) (n : Nat) (b : Bridge) : State × List Sent :=
  if b.readyTimeout then s.fireReady n { b with readyTimeout := false } else (s, [])

def data (s : State) (n : Nat) (b : Bridge) (text : String) : State × List Sent :=
  let fired := if b.readyFired then (s, []) else s.fireReady n { b with readyTimeout := false }
  (fired.1, fired.2 ++ if fired.1.conn.pty = some n then [⟨some n, .terminalOutput text⟩] else [])

def exit (s : State) (n : Nat) (b : Bridge) (exitCode : Int) : State × List Sent :=
  let gone := { b with readyTimeout := false, exited := true }
  if b.detaching then (s.setBridge n gone, [])
  else if b.readyFired then ((s.setBridge n gone).forget n, [⟨some n, .sessionExited b.name (some exitCode)⟩])
  else if b.spawnError.isSome then (s.setBridge n gone, [])
  else
    let error := "tmux attach-session exited with code " ++ toString exitCode ++ " before ready"
    ((s.setBridge n { gone with spawnError := some error }).forget n, [⟨some n, .error "PTY_SPAWN_FAILED" error⟩])

def withBridge (s : State) (n : Nat) (f : Bridge → State × List Sent) : State × List Sent :=
  match s.bridges[n]? with
  | none => (s, [])
  | some b => f b

def step (readOnly : Bool) (s : State) : Event → State × List Sent
  | .message msg => ({ s with queue := s.queue ++ [msg] }, [])
  | .next =>
    match s.handler, s.queue with
    | none, msg :: rest => { s with queue := rest }.handle msg
    | _, _ => (s, [])
  | .resume answer =>
    match s.handler with
    | none => (s, [])
    | some await => s.goOn readOnly answer await
  | .ready n => s.withBridge n (s.ready n)
  | .data n text => s.withBridge n fun b => s.data n b text
  | .exit n exitCode => s.withBridge n fun b => if b.exited then (s, []) else s.exit n b exitCode

end State

def connection (readOnly : Bool) : Machine State Event Sent :=
  ⟨⟨⟨none, none, none, none⟩, [], [], none⟩, State.step readOnly⟩

/-- Data of a killed pty that had shown nothing before. -/
def late (s : State) : Event → Bool
  | .data n _ => s.bridges[n]?.any fun b => b.detaching && !b.readyFired && b.spawnError.isNone
  | _ => false

def Event.bridge : Event → Option Nat
  | .ready n | .data n _ | .exit n _ => some n
  | _ => none

/-- The connection is attached while it has a pty, and no other pty speaks for it. -/
structure Current (readOnly : Bool) (es : List Event) : Prop where
  attached : ∀ before after, es = before ++ after →
    (((connection readOnly).run before).conn.pty = none ↔ ((connection readOnly).run before).conn.attachedSession = none)
  foreign : ∀ x ∈ (connection readOnly).trace es, ∀ n, x.event.bridge = some n → x.pre.conn.pty ≠ some n →
    x.post.conn = x.pre.conn
  silent : ∀ x ∈ (connection readOnly).trace es, ∀ n message, ⟨some n, message⟩ ∈ x.out → x.pre.conn.pty = some n

/-! ### The pty of the connection and the others -/

/-- A pty that the connection has left. Its timer is off, and if it ended by itself it has been ready or failed. -/
def Left (b : Bridge) : Prop :=
  b.readyTimeout = false ∧ (b.detaching = true ∨ b.exited = true ∧ (b.readyFired || b.spawnError.isSome) = true)

structure Live (b : Bridge) : Prop where
  detaching : b.detaching = false
  spawnError : b.spawnError = none
  exited : b.exited = false

structure Wf (s : State) : Prop where
  attached : s.conn.pty = none ↔ s.conn.attachedSession = none
  idle : s.handler.isSome = true → s.conn.pty = none
  live : ∀ n, s.conn.pty = some n → ∃ b, s.bridges[n]? = some b ∧ Live b
  left : ∀ (n : Nat) (b : Bridge), s.bridges[n]? = some b → s.conn.pty ≠ some n → Left b

/-- No pty is the connection's, which is so while a message waits. -/
structure Parted (s : State) : Prop where
  pty : s.conn.pty = none
  attachedSession : s.conn.attachedSession = none
  left : ∀ (n : Nat) (b : Bridge), s.bridges[n]? = some b → Left b

section Messages
variable {s : State}

theorem Parted.wf (h : Parted s) : Wf s where
  attached := by rw [h.pty, h.attachedSession]; exact iff_of_true rfl rfl
  idle _ := h.pty
  live n hn := by rw [h.pty] at hn; cases hn
  left n b hb _ := h.left n b hb

theorem Wf.parted (h : Wf s) (hpty : s.conn.pty = none) : Parted s where
  pty := hpty
  attachedSession := h.attached.1 hpty
  left n b hb := h.left n b hb (by simp [hpty])

theorem Wf.dropPty (h : Wf s) : Parted s.dropPty := by
  unfold State.dropPty
  cases hpty : s.conn.pty with
  | none => exact ⟨rfl, rfl, (h.parted hpty).left⟩
  | some n =>
    refine ⟨rfl, rfl, fun m b hb => ?_⟩
    change (s.bridges.modify n _)[m]? = some b at hb
    rw [List.getElem?_modify] at hb
    obtain ⟨old, hold, rfl⟩ := Option.map_eq_some_iff.1 hb
    by_cases hsame : n = m
    · rw [if_pos hsame]
      exact ⟨rfl, .inl rfl⟩
    · rw [if_neg hsame]
      refine h.left m old hold fun hm => hsame ?_
      rw [hpty] at hm
      exact Option.some.inj hm

theorem Parted.handler (h : Parted s) (handler : Option Await) : Parted { s with handler } := ⟨h.pty, h.attachedSession, h.left⟩

theorem Parted.clone (h : Parted s) (clone : Option String) :
    Parted { s with conn := { s.conn with cloneSession := clone } } :=
  ⟨h.pty, h.attachedSession, h.left⟩

theorem Parted.find (h : Parted s) (request : AttachRequest) : Wf (s.find request).1 := by
  unfold State.find
  split
  · exact (h.handler none).wf
  · exact (h.handler _).wf

theorem Parted.spawn (h : Parted s) (request : AttachRequest) (captured : Option String) (answer : Answer) :
    Wf (s.spawn request captured answer).1 := by
  unfold State.spawn
  split
  · split
    · exact (h.handler _).wf
    · exact (h.handler none).wf
  · refine ⟨by simp, by simp, fun n hn => ?_, fun n b hb hne => ?_⟩
    · cases hn
      exact ⟨_, List.getElem?_concat_length, rfl, rfl, rfl⟩
    · have hlt : n < s.bridges.length := by
        have hbound := (List.getElem?_eq_some_iff.1 hb).1
        rw [length_append] at hbound
        have hother : n ≠ s.bridges.length := fun hsame => hne (by rw [hsame])
        simp only [length_singleton] at hbound
        omega
      rw [List.getElem?_append_left hlt] at hb
      exact h.left n b hb

theorem Parted.openView (h : Parted s) (readOnly : Bool) (request : AttachRequest) (captured : Option String) (answer : Answer) :
    Wf (s.openView readOnly request captured answer).1 := by
  unfold State.openView
  split
  · exact (h.handler _).wf
  · exact h.spawn request captured answer

theorem Wf.handle (h : Wf s) (msg : Message) : Wf (s.handle msg).1 := by
  have hparted := h.dropPty
  cases msg with
  | attach request =>
    simp only [State.handle]
    split
    · exact (hparted.handler _).wf
    · exact hparted.find request
  | detach =>
    simp only [State.handle]
    split
    · exact (hparted.handler _).wf
    · exact (hparted.handler none).wf

theorem Parted.goOn (h : Parted s) (readOnly : Bool) (answer : Answer) (await : Await) : Wf (s.goOn readOnly answer await).1 := by
  cases await with
  | dropped request => exact (h.clone none).find request
  | found request =>
    simp only [State.goOn]
    split
    · exact (h.handler none).wf
    · split
      · exact (h.handler _).wf
      · exact h.openView readOnly request none answer
  | captured request => exact h.openView readOnly request answer.captured answer
  | cloned request captured =>
    simp only [State.goOn]
    split
    · exact (h.handler none).wf
    · exact (h.clone _).spawn request captured answer
  | unspawned _ | detached => exact ((h.clone none).handler none).wf

/-- Messages send nothing in the name of a pty. -/
def Unsigned (r : State × List Sent) : Prop := ∀ sent ∈ r.2, sent.bridge = none

theorem unsigned_nil (s : State) : Unsigned (s, []) := fun sent hsent => by cases hsent

theorem unsigned_fail (s : State) (code message : String) : Unsigned (s.fail code message) := by
  intro sent hsent
  obtain rfl := mem_singleton.1 hsent
  rfl

theorem unsigned_find (s : State) (request : AttachRequest) : Unsigned (s.find request) := by
  unfold State.find
  split
  · exact unsigned_fail s _ _
  · exact unsigned_nil _

theorem unsigned_spawn (s : State) (request : AttachRequest) (captured : Option String) (answer : Answer) :
    Unsigned (s.spawn request captured answer) := by
  unfold State.spawn
  split
  · split
    · exact unsigned_nil _
    · exact unsigned_fail s _ _
  · exact unsigned_nil _

theorem unsigned_openView (s : State) (readOnly : Bool) (request : AttachRequest) (captured : Option String)
    (answer : Answer) : Unsigned (s.openView readOnly request captured answer) := by
  unfold State.openView
  split
  · exact unsigned_nil _
  · exact unsigned_spawn s request captured answer

theorem unsigned_handle (s : State) (msg : Message) : Unsigned (s.handle msg) := by
  cases msg with
  | attach request =>
    simp only [State.handle]
    split
    · exact unsigned_nil _
    · exact unsigned_find _ request
  | detach =>
    simp only [State.handle]
    split
    · exact unsigned_nil _
    · exact unsigned_nil _

theorem unsigned_goOn (s : State) (readOnly : Bool) (answer : Answer) (await : Await) :
    Unsigned (s.goOn readOnly answer await) := by
  cases await with
  | dropped request => exact unsigned_find _ request
  | found request =>
    simp only [State.goOn]
    split
    · exact unsigned_fail s _ _
    · split
      · exact unsigned_nil _
      · exact unsigned_openView s readOnly request none answer
  | captured request => exact unsigned_openView s readOnly request answer.captured answer
  | cloned request captured =>
    simp only [State.goOn]
    split
    · exact unsigned_fail s _ _
    · exact unsigned_spawn _ request captured answer
  | unspawned error => exact unsigned_fail _ _ _
  | detached => exact unsigned_nil _

theorem unsigned_message (s : State) (readOnly : Bool) {e : Event} (he : e.bridge = none) : Unsigned (s.step readOnly e) := by
  cases e with
  | message msg => exact unsigned_nil _
  | next =>
    simp only [State.step]
    split
    · exact unsigned_handle _ _
    · exact unsigned_nil s
  | resume answer =>
    simp only [State.step]
    split
    · exact unsigned_nil s
    · exact unsigned_goOn s readOnly answer _
  | _ => cases he

end Messages

/-! ### Events of a pty -/

section Events
variable {s : State} {n : Nat} {b : Bridge}

theorem getElem?_setBridge (s : State) (n m : Nat) (b : Bridge) {found : Bridge} (h : (s.setBridge n b).bridges[m]? = some found) :
    m = n ∧ found = b ∨ m ≠ n ∧ s.bridges[m]? = some found := by
  change (s.bridges.set n b)[m]? = some found at h
  rw [List.getElem?_set] at h
  split at h
  · rename_i hsame
    split at h
    · exact .inl ⟨hsame.symm, (Option.some.inj h).symm⟩
    · cases h
  · rename_i hother
    exact .inr ⟨Ne.symm hother, h⟩

/-- What an event of the `n`-th pty may do. -/
structure Own (s : State) (n : Nat) (late : Bool) (r : State × List Sent) : Prop where
  wf : Wf r.1
  conn : s.conn.pty ≠ some n → r.1.conn = s.conn
  own : ∀ sent ∈ r.2, sent.bridge = some n
  silent : s.conn.pty ≠ some n → (r.2 = [] ↔ late = false)

theorem Wf.keep_live (h : Wf s) (hpty : s.conn.pty = some n) (hb : s.bridges[n]? ≠ none) {c : Bridge} (hlive : Live c) :
    Wf (s.setBridge n c) := by
  refine ⟨h.attached, h.idle, fun m hm => ?_, fun m found hfound hne => ?_⟩
  · obtain rfl : n = m := by
      rw [← Option.some_inj, ← hpty]
      exact hm
    have hlt : n < s.bridges.length := by
      by_contra hle
      exact hb (List.getElem?_eq_none (Nat.le_of_not_lt hle))
    exact ⟨c, List.getElem?_set_self hlt, hlive⟩
  · cases getElem?_setBridge s n m c hfound with
    | inl hsame => exact absurd (hsame.1 ▸ hpty) hne
    | inr hother => exact h.left m found hother.2 hne

theorem Wf.keep_left (h : Wf s) (hpty : s.conn.pty ≠ some n) {c : Bridge} (hleft : Left c) : Wf (s.setBridge n c) := by
  refine ⟨h.attached, h.idle, fun m hm => ?_, fun m found hfound hne => ?_⟩
  · obtain ⟨found, hfound, hlive⟩ := h.live m hm
    have hother : n ≠ m := fun hsame => hpty (hsame ▸ hm)
    exact ⟨found, by rw [← hfound]; exact List.getElem?_set_ne hother, hlive⟩
  · cases getElem?_setBridge s n m c hfound with
    | inl hsame => exact hsame.2 ▸ hleft
    | inr hother => exact h.left m found hother.2 hne

/-- A pty that ends while it is the connection's leaves it without one. -/
theorem Wf.ends (h : Wf s) (hpty : s.conn.pty = some n) {c : Bridge} (hleft : Left c) : Wf ((s.setBridge n c).forget n) := by
  have hown : (s.setBridge n c).conn.pty = some n := hpty
  unfold State.forget
  rw [if_pos hown]
  refine Parted.wf ⟨rfl, rfl, fun m found hfound => ?_⟩
  cases getElem?_setBridge s n m c hfound with
  | inl hsame => exact hsame.2 ▸ hleft
  | inr hother =>
    refine h.left m found hother.2 fun hm => hother.1 ?_
    rw [hpty] at hm
    exact (Option.some.inj hm).symm

theorem Wf.live_of (h : Wf s) (hpty : s.conn.pty = some n) (hb : s.bridges[n]? = some b) : Live b := by
  obtain ⟨found, hfound, hlive⟩ := h.live n hpty
  rw [hb] at hfound
  cases hfound
  exact hlive

theorem Own.quiet (h : Wf s) : Own s n false (s, []) :=
  ⟨h, fun _ => rfl, (fun sent hsent => by cases hsent), fun _ => iff_of_true rfl rfl⟩

theorem conn_fireReady (s : State) (n : Nat) (b : Bridge) : (s.fireReady n b).1.conn = s.conn := by
  unfold State.fireReady
  split
  · rfl
  · rfl

theorem Wf.fireReady (h : Wf s) (hb : s.bridges[n]? = some b) :
    Own s n (b.detaching && !b.readyFired && b.spawnError.isNone) (s.fireReady n { b with readyTimeout := false }) := by
  refine ⟨?_, fun _ => conn_fireReady s n _, fun sent hsent => ?_, fun hpty => ?_⟩
  · by_cases hpty : s.conn.pty = some n
    · have hlive := h.live_of hpty hb
      unfold State.fireReady
      split
      · exact h.keep_live hpty (by simp [hb]) ⟨hlive.1, hlive.2, hlive.3⟩
      · exact h.keep_live hpty (by simp [hb]) ⟨hlive.1, hlive.2, hlive.3⟩
    · have hleft := h.left n b hb hpty
      unfold State.fireReady
      split
      · exact h.keep_left hpty ⟨rfl, hleft.2⟩
      · exact h.keep_left hpty ⟨rfl, hleft.2.imp_right fun hexited => ⟨hexited.1, rfl⟩⟩
  · unfold State.fireReady at hsent
    split at hsent
    · cases hsent
    · obtain ⟨message, -, rfl⟩ := mem_map.1 hsent
      rfl
  · have hleft := (h.left n b hb hpty).2
    unfold State.fireReady
    split
    · rename_i hdone
      refine iff_of_true rfl ?_
      cases hready : b.readyFired with
      | true => simp
      | false => simpa [hready] using fun _ => hdone
    · rename_i hfires
      refine iff_of_false (by simp [State.acknowledgement]) ?_
      have hdetaching := hleft.resolve_right fun hexited => hfires hexited.2
      simp only [Bool.or_eq_true, not_or, Bool.not_eq_true, Option.isSome_eq_false_iff] at hfires
      simp [hdetaching, hfires.1, hfires.2]

theorem Wf.ready (h : Wf s) (hb : s.bridges[n]? = some b) : Own s n false (s.ready n b) := by
  unfold State.ready
  by_cases hpty : s.conn.pty = some n
  · split
    · have hfire := h.fireReady hb
      exact { hfire with silent := fun hne => absurd hpty hne }
    · exact .quiet h
  · rw [if_neg (by rw [(h.left n b hb hpty).1]; exact Bool.false_ne_true)]
    exact .quiet h

theorem Wf.data (h : Wf s) (hb : s.bridges[n]? = some b) (text : String) :
    Own s n (b.detaching && !b.readyFired && b.spawnError.isNone) (s.data n b text) := by
  have hfired : Own s n (b.detaching && !b.readyFired && b.spawnError.isNone)
      (if b.readyFired then (s, []) else s.fireReady n { b with readyTimeout := false }) := by
    split
    · rename_i hready
      simpa [hready] using Own.quiet h
    · exact h.fireReady hb
  have hconn : (if b.readyFired then (s, []) else s.fireReady n { b with readyTimeout := false }).1.conn = s.conn := by
    split
    · rfl
    · exact conn_fireReady s n _
  unfold State.data
  dsimp only
  rw [hconn]
  refine ⟨hfired.wf, hfired.conn, fun sent hsent => ?_, fun hpty => ?_⟩
  · cases mem_append.1 hsent with
    | inl hfirst => exact hfired.own sent hfirst
    | inr houtput =>
      split at houtput
      · obtain rfl := mem_singleton.1 houtput
        rfl
      · cases houtput
  · rw [if_neg hpty, append_nil]
    exact hfired.silent hpty

theorem Wf.exit (h : Wf s) (hb : s.bridges[n]? = some b) (hrunning : b.exited = false) (exitCode : Int) :
    Own s n false (s.exit n b exitCode) := by
  unfold State.exit
  dsimp only
  by_cases hpty : s.conn.pty = some n
  · have hlive := h.live_of hpty hb
    rw [hlive.detaching, hlive.spawnError]
    simp only [Bool.false_eq_true, if_false, Option.isSome_none]
    split
    · rename_i hready
      refine ⟨h.ends hpty ⟨rfl, .inr ⟨rfl, by simp [hready]⟩⟩, fun hne => absurd hpty hne, fun sent hsent => ?_,
        fun hne => absurd hpty hne⟩
      obtain rfl := mem_singleton.1 hsent
      rfl
    · refine ⟨h.ends hpty ⟨rfl, .inr ⟨rfl, by simp⟩⟩, fun hne => absurd hpty hne, fun sent hsent => ?_,
        fun hne => absurd hpty hne⟩
      obtain rfl := mem_singleton.1 hsent
      rfl
  · have hleft := h.left n b hb hpty
    have hdetaching : b.detaching = true := hleft.2.resolve_right fun hexited => by
      rw [hrunning] at hexited
      exact Bool.false_ne_true hexited.1
    rw [if_pos hdetaching]
    exact ⟨h.keep_left hpty ⟨rfl, .inl hdetaching⟩, fun _ => rfl, (fun sent hsent => by cases hsent),
      fun _ => iff_of_true rfl rfl⟩

theorem Wf.event (h : Wf s) (readOnly : Bool) {e : Event} (he : e.bridge = some n) :
    Own s n (late s e) (s.step readOnly e) := by
  cases e with
  | message _ | next | resume _ => cases he
  | ready m =>
    cases he
    simp only [State.step, State.withBridge]
    cases hb : s.bridges[n]? with
    | none => exact .quiet h
    | some b => exact h.ready hb
  | data m text =>
    cases he
    simp only [State.step, State.withBridge, late]
    cases hb : s.bridges[n]? with
    | none => exact .quiet h
    | some b => exact h.data hb text
  | exit m exitCode =>
    cases he
    simp only [State.step, State.withBridge]
    cases hb : s.bridges[n]? with
    | none => exact .quiet h
    | some b =>
      dsimp only
      split
      · exact .quiet h
      · rename_i hrunning
        exact h.exit hb (Bool.eq_false_iff.2 hrunning) exitCode

end Events

/-! ### Runs -/

theorem Wf.step {s : State} (h : Wf s) (readOnly : Bool) (e : Event) : Wf (s.step readOnly e).1 := by
  cases he : e.bridge with
  | some n => exact (h.event readOnly he).wf
  | none =>
    cases e with
    | message msg => exact { h with }
    | next =>
      simp only [State.step]
      split
      · rename_i msg rest hidle hqueue
        have hnext : Wf { s with queue := rest } := { h with }
        exact hnext.handle msg
      · exact h
    | resume answer =>
      simp only [State.step]
      split
      · exact h
      · rename_i await hhandler
        exact (h.parted (h.idle (by rw [hhandler]; rfl))).goOn readOnly answer await
    | _ => cases he

theorem wf_run (readOnly : Bool) (es : List Event) : Wf ((connection readOnly).run es) := by
  refine (connection readOnly).run_invariant ?_ (fun s e h => h.step readOnly e) es
  exact ⟨iff_of_true rfl rfl, Bool.noConfusion, (fun n hn => by cases hn), fun n b hb => (by cases hb)⟩

/-- However its messages and ptys take turns, a connection leaves no pty running but the one it has, and it has one
exactly while it says that it is attached. -/
theorem one_pty (readOnly : Bool) (es : List Event) :
    (∀ (n : Nat) (b : Bridge), ((connection readOnly).run es).bridges[n]? = some b →
      ((connection readOnly).run es).conn.pty = some n ∨ b.detaching = true ∨ b.exited = true) ∧
    (((connection readOnly).run es).conn.pty = none ↔ ((connection readOnly).run es).conn.attachedSession = none) := by
  have hwf := wf_run readOnly es
  refine ⟨fun n b hb => ?_, hwf.attached⟩
  by_cases hpty : ((connection readOnly).run es).conn.pty = some n
  · exact .inl hpty
  · exact .inr ((hwf.left n b hb hpty).2.imp_right And.left)

/-- Events of an attach belong to it exactly as long as no killed pty that had shown nothing yet delivers data. -/
theorem events_current_iff (readOnly : Bool) (es : List Event) :
    Current readOnly es ↔ ∀ x ∈ (connection readOnly).trace es, late x.pre x.event = false := by
  constructor
  · intro h x hx
    have hsilent := h.silent x hx
    obtain ⟨before, e, after, hes, rfl⟩ := ((connection readOnly).mem_trace es x).1 hx
    have hwf := wf_run readOnly before
    cases e with
    | data n text =>
      have hown := hwf.event readOnly (e := .data n text) rfl
      by_cases hpty : ((connection readOnly).run before).conn.pty = some n
      · change late ((connection readOnly).run before) (.data n text) = false
        obtain ⟨b, hb, hlive⟩ := hwf.live n hpty
        unfold late
        dsimp only
        rw [hb, Option.any_some, hlive.detaching, Bool.false_and, Bool.false_and]
      · refine (hown.silent hpty).1 (eq_nil_iff_forall_not_mem.2 fun sent hsent => hpty ?_)
        have hsame := hown.own sent hsent
        exact hsilent n sent.message (hsame ▸ hsent)
    | _ => rfl
  · intro h
    refine ⟨fun before after _ => (wf_run readOnly before).attached, fun x hx n he hpty => ?_, fun x hx n message hsent => ?_⟩
    · obtain ⟨before, e, after, hes, rfl⟩ := ((connection readOnly).mem_trace es x).1 hx
      exact ((wf_run readOnly before).event readOnly he).conn hpty
    · have hlate := h x hx
      obtain ⟨before, e, after, hes, rfl⟩ := ((connection readOnly).mem_trace es x).1 hx
      have hwf := wf_run readOnly before
      cases he : e.bridge with
      | none => exact absurd (unsigned_message _ readOnly he _ hsent) (by simp)
      | some m =>
        have hown := hwf.event readOnly he
        obtain rfl : n = m := Option.some.inj (hown.own _ hsent)
        by_contra hpty
        have hnil := (hown.silent hpty).2 hlate
        change _ ∈ (State.step readOnly _ e).2 at hsent
        rw [hnil] at hsent
        cases hsent

/-- A second attach while the first one's pty has shown nothing yet; then the killed pty delivers what it had. -/
def lateRun : List Event :=
  let answer : Answer := ⟨true, some "$ ", none, none⟩
  [.message (.attach ⟨"work", none, true, none⟩), .next, .resume answer, .resume answer,
    .message (.attach ⟨"play", none, true, none⟩), .next, .data 0 "\n"]

/-- The first session is acknowledged after it was left. -/
theorem late_acknowledged : ¬ Current false lateRun := by
  intro h
  have hsent : ∃ x ∈ (connection false).trace lateRun, ⟨some 0, .sessionAttached "work" none⟩ ∈ x.out ∧ x.pre.conn.pty = none := by
    refine ⟨_, mem_of_getElem? (i := 6) rfl, ?_, by decide⟩
    exact mem_cons_self
  obtain ⟨x, hx, hout, hnone⟩ := hsent
  have hpty := h.silent x hx 0 _ hout
  rw [hnone] at hpty
  cases hpty

end Mtmux.Relay.AttachEvents
