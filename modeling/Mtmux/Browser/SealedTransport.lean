import Mtmux.Base.Machine
import Mtmux.Crypto.Frames
import Mtmux.Protocol.PairingMessages

/-! The sealed transport under the browser's client, from its one `connect` on. Control messages are
handled when they come; frames go through the promise chain `inbound`, one `handleFrame` at a time. -/
namespace Mtmux.Browser
open Crypto Protocol List

/-- `salt` is what the sealer of the connection draws, `decode` the platform's text decoder. -/
structure TransportConfig where
  P : Primitives
  G : Gcm
  keys : SessionKeys
  salt : Bytes
  decode : Bytes → String

inductive ReadyState where
  | connecting | isOpen | closed
  deriving DecidableEq

structure SealedTransport where
  ws : Option ReadyState
  detached : Bool
  streamId : Option String
  sealer : Option FrameSealer
  opener : Option FrameOpener
  queued : List String
  outbound : List (String × String)
  inbound : List String
  opening : Option Bytes

/-- What the transport calls and sends. `heard` marks a frame that it takes from the socket, `closed` a call
of `close` by its owner. -/
inductive TransportOutput where
  | onOpen
  | onMessage (text : String)
  | onClose
  | closed
  | heard (data : String)
  | put (streamId data : String)
  deriving DecidableEq

abbrev TransportStep : Type := SealedTransport × List TransportOutput

/-- `begins` and `settles` are the turns of `handleFrame`: up to its `await` and from there. What `onMessage`
does is up to its owner: it may close the transport, and it may throw. -/
inductive TransportEvent where
  | opens
  | receives (msg : TunnelServerMessage)
  | begins
  | settles (closes throws : Bool)
  | socketCloses
  | close
  | send (text : String)
  | seals

namespace SealedTransport
variable (cfg : TransportConfig)

/-- Making the socket may throw. -/
def connect (made : Bool) : TransportStep :=
  ({ ws := if made then some .connecting else none
     detached := false
     streamId := none
     sealer := FrameSealer.create cfg.P cfg.keys.c2s .c2s cfg.salt .frame
     opener := none
     queued := []
     outbound := []
     inbound := []
     opening := none }, if made then [] else [.onClose])

def close (s : SealedTransport) : SealedTransport :=
  { s with detached := true, ws := none, streamId := none }

def send (s : SealedTransport) (text : String) : SealedTransport :=
  match s.streamId with
  | none => { s with queued := s.queued ++ [text] }
  | some streamId => { s with outbound := s.outbound ++ [(streamId, text)] }

/-- Everything that is not a sealed frame. -/
def handleControl (s : SealedTransport) : TunnelServerMessage → TransportStep
  | .streamOpen streamId =>
    (s.queued.foldl send { s with streamId := some streamId, queued := [] }, [.onOpen])
  | .streamClose _ _ | .closed _ => (s.close, [.onClose])
  | _ => (s, [])

def onMessage (s : SealedTransport) : TunnelServerMessage → TransportStep
  | .streamFrame _ data => ({ s with inbound := s.inbound ++ [data] }, [.heard data])
  | msg => s.handleControl msg

/-- The `catch` of `handleFrame`. -/
def failed (s : SealedTransport) : TransportStep := (s.close, [.onClose])

def handleFrame (s : SealedTransport) (data : String) : TransportStep :=
  if s.detached then (s, [])
  else
    match base64UrlToBytes data with
    | none => s.failed
    | some bytes => ({ s with opening := some bytes }, [])

/-- The handler is called within the `try`. -/
def deliver (s : SealedTransport) (text : String) : (closes throws : Bool) → TransportStep
  | false, false => (s, [.onMessage text])
  | true, false => (s.close, [.onMessage text, .closed])
  | false, true => (s.failed.1, .onMessage text :: s.failed.2)
  | true, true => (s.close.failed.1, .onMessage text :: .closed :: s.close.failed.2)

/-- `handleFrame` from its `await` on. -/
def opened (s : SealedTransport) (closes throws : Bool) :
    Option (FrameOpener × Bytes) → TransportStep
  | none => s.failed
  | some (opener, plaintext) =>
    if s.detached then ({ s with opener := some opener }, [])
    else deliver { s with opener := some opener } (cfg.decode plaintext) closes throws

/-- The first of what is to be sealed is sealed, and sent if the socket is still there. -/
def sealNext (s : SealedTransport) : TransportStep :=
  match s.outbound with
  | [] => (s, [])
  | (streamId, text) :: outbound =>
    match s.sealer.bind fun sealer => sealer.sealFrame cfg.G (utf8ToBytes text) with
    | none => ({ s with outbound := outbound }, [])
    | some (sealer, frame) =>
      ({ s with sealer := some sealer, outbound := outbound },
        if s.detached || s.ws ≠ some .isOpen then [] else [.put streamId (bytesToBase64Url frame)])

def step (s : SealedTransport) : TransportEvent → TransportStep
  | .opens => (if s.ws = some .connecting then { s with ws := some .isOpen } else s, [])
  | .receives msg =>
    if s.detached || s.ws ≠ some .isOpen then (s, []) else s.onMessage msg
  | .begins =>
    match s.opening, s.inbound with
    | none, data :: inbound => handleFrame { s with inbound := inbound } data
    | _, _ => (s, [])
  | .settles closes throws =>
    match s.opening with
    | none => (s, [])
    | some bytes => opened cfg { s with opening := none } closes throws
        (StreamOpener.receive cfg.P cfg.G cfg.keys.s2c .s2c s.opener bytes)
  | .socketCloses =>
    if s.ws = some .connecting ∨ s.ws = some .isOpen then
      ({ s with ws := some .closed }, if s.detached then [] else [.onClose])
    else (s, [])
  | .close => (s.close, [.closed])
  | .send text => (s.send text, [])
  | .seals => s.sealNext cfg

end SealedTransport

def transportMachine (cfg : TransportConfig) (made : Bool) :
    Machine SealedTransport TransportEvent TransportOutput :=
  ⟨(SealedTransport.connect cfg made).1, SealedTransport.step cfg⟩

/-- What a run emits, with what `connect` did. -/
def transportOutputs (cfg : TransportConfig) (made : Bool) (es : List TransportEvent) :
    List TransportOutput :=
  (SealedTransport.connect cfg made).2 ++ (transportMachine cfg made).outputs es

/-- The frames taken from the socket, and the lines handed on, in order. -/
def heardOf (outs : List TransportOutput) : List String :=
  outs.filterMap fun | .heard data => some data | _ => none

def textsOf (outs : List TransportOutput) : List String :=
  outs.filterMap fun | .onMessage text => some text | _ => none

theorem heardOf_append (a b : List TransportOutput) : heardOf (a ++ b) = heardOf a ++ heardOf b :=
  filterMap_append

theorem textsOf_append (a b : List TransportOutput) : textsOf (a ++ b) = textsOf a ++ textsOf b :=
  filterMap_append

namespace SealedTransport

/-- What `send` leaves as it is. -/
structure SameEnds (s s' : SealedTransport) : Prop where
  ws : s'.ws = s.ws
  detached : s'.detached = s.detached
  streamId : s'.streamId = s.streamId
  opener : s'.opener = s.opener
  inbound : s'.inbound = s.inbound
  opening : s'.opening = s.opening

theorem SameEnds.refl (s : SealedTransport) : SameEnds s s := ⟨rfl, rfl, rfl, rfl, rfl, rfl⟩

theorem sameEnds_send (s : SealedTransport) (text : String) : SameEnds s (s.send text) := by
  unfold send
  split
  · exact ⟨rfl, rfl, rfl, rfl, rfl, rfl⟩
  · exact ⟨rfl, rfl, rfl, rfl, rfl, rfl⟩

theorem sameEnds_foldl (texts : List String) (s : SealedTransport) : SameEnds s (texts.foldl send s) := by
  induction texts generalizing s with
  | nil => exact SameEnds.refl s
  | cons text texts ih =>
    have hsend := sameEnds_send s text
    have hrest := ih (s.send text)
    exact ⟨hrest.ws.trans hsend.ws, hrest.detached.trans hsend.detached,
      hrest.streamId.trans hsend.streamId, hrest.opener.trans hsend.opener,
      hrest.inbound.trans hsend.inbound, hrest.opening.trans hsend.opening⟩

variable {cfg : TransportConfig}

/-- The sealing of lines tells the owner nothing. -/
theorem sealNext_spec (s : SealedTransport) :
    SameEnds s (s.sealNext cfg).1 ∧ ∀ o ∈ (s.sealNext cfg).2, ∃ streamId data, o = .put streamId data := by
  unfold sealNext
  cases s.outbound with
  | nil =>
    refine ⟨SameEnds.refl s, ?_⟩
    intro o ho
    cases ho
  | cons first outbound =>
    dsimp only
    cases s.sealer.bind fun sealer => sealer.sealFrame cfg.G (utf8ToBytes first.2) with
    | none =>
      refine ⟨⟨rfl, rfl, rfl, rfl, rfl, rfl⟩, ?_⟩
      intro o ho
      cases ho
    | some made =>
      refine ⟨⟨rfl, rfl, rfl, rfl, rfl, rfl⟩, ?_⟩
      intro o ho
      dsimp only at ho
      split at ho
      · cases ho
      · exact ⟨first.1, _, mem_singleton.1 ho⟩

/-- The chain has nothing to go on with. -/
def Rests (s : SealedTransport) : TransportEvent → Prop
  | .begins => s.opening = none → s.inbound = []
  | .settles _ _ => s.opening = none
  | _ => True

/-- What one step does for the owner: nothing, an end of the socket, or one of the ways in which
messages and frames are taken. -/
inductive Moves (cfg : TransportConfig) (s : SealedTransport) : TransportEvent → TransportStep → Prop where
  | keeps {e : TransportEvent} {s' : SealedTransport} {out : List TransportOutput} (rests : s.Rests e)
      (same : SameEnds s s') (silent : ∀ o ∈ out, ∃ streamId data, o = .put streamId data) : Moves cfg s e (s', out)
  | opens (connecting : s.ws = some .connecting) : Moves cfg s .opens ({ s with ws := some .isOpen }, [])
  | streams {streamId : String} {s' : SealedTransport} (live : s.detached = false)
      (socket : s.ws = some .isOpen) (same : SameEnds { s with streamId := some streamId } s') :
      Moves cfg s (.receives (.streamOpen streamId)) (s', [.onOpen])
  | hears {streamId data : String} (live : s.detached = false) (socket : s.ws = some .isOpen) :
      Moves cfg s (.receives (.streamFrame streamId data))
        ({ s with inbound := s.inbound ++ [data] }, [.heard data])
  | ends {msg : TunnelServerMessage} (live : s.detached = false) (socket : s.ws = some .isOpen) :
      Moves cfg s (.receives msg) (s.close, [.onClose])
  | skips {data : String} {inbound : List String} (free : s.opening = none)
      (next : s.inbound = data :: inbound) (gone : s.detached = true) :
      Moves cfg s .begins ({ s with inbound := inbound }, [])
  | begins {data : String} {inbound : List String} {bytes : Bytes} (free : s.opening = none)
      (next : s.inbound = data :: inbound) (live : s.detached = false)
      (decoded : base64UrlToBytes data = some bytes) :
      Moves cfg s .begins ({ s with inbound := inbound, opening := some bytes }, [])
  | malformed {data : String} {inbound : List String} (free : s.opening = none)
      (next : s.inbound = data :: inbound) (live : s.detached = false)
      (undecoded : base64UrlToBytes data = none) :
      Moves cfg s .begins (failed { s with inbound := inbound })
  | fails {closes throws : Bool} {bytes : Bytes} (running : s.opening = some bytes)
      (forged : StreamOpener.receive cfg.P cfg.G cfg.keys.s2c .s2c s.opener bytes = none) :
      Moves cfg s (.settles closes throws) (failed { s with opening := none })
  | late {closes throws : Bool} {bytes plaintext : Bytes} {opener : FrameOpener}
      (running : s.opening = some bytes)
      (authentic : StreamOpener.receive cfg.P cfg.G cfg.keys.s2c .s2c s.opener bytes =
        some (opener, plaintext)) (gone : s.detached = true) :
      Moves cfg s (.settles closes throws) ({ s with opening := none, opener := some opener }, [])
  | delivers {closes throws : Bool} {bytes plaintext : Bytes} {opener : FrameOpener}
      (running : s.opening = some bytes)
      (authentic : StreamOpener.receive cfg.P cfg.G cfg.keys.s2c .s2c s.opener bytes =
        some (opener, plaintext)) (live : s.detached = false) :
      Moves cfg s (.settles closes throws)
        (deliver { s with opening := none, opener := some opener } (cfg.decode plaintext) closes throws)
  | drops (live : s.ws = some .connecting ∨ s.ws = some .isOpen) :
      Moves cfg s .socketCloses
        ({ s with ws := some .closed }, if s.detached then [] else [.onClose])
  | closes : Moves cfg s .close (s.close, [.closed])

variable {s : SealedTransport}

theorem moves_nothing {e : TransportEvent} (rests : s.Rests e) : Moves cfg s e (s, []) := by
  apply Moves.keeps rests (SameEnds.refl s)
  intro o ho
  cases ho

theorem moves_control (live : s.detached = false) (socket : s.ws = some .isOpen)
    (msg : TunnelServerMessage) : Moves cfg s (.receives msg) (s.onMessage msg) := by
  cases msg with
  | streamOpen streamId =>
    have hsame := sameEnds_foldl s.queued { s with streamId := some streamId, queued := [] }
    exact Moves.streams live socket
      { hsame with }
  | streamFrame streamId data => exact Moves.hears live socket
  | streamClose _ _ | closed _ => exact Moves.ends live socket
  | _ => exact moves_nothing trivial

theorem moves_handleFrame {data : String} {inbound : List String}
    (free : s.opening = none) (next : s.inbound = data :: inbound) :
    Moves cfg s .begins (handleFrame { s with inbound := inbound } data) := by
  unfold handleFrame
  split
  · rename_i hgone
    exact Moves.skips free next hgone
  · rename_i hlive
    rw [Bool.not_eq_true] at hlive
    split
    · rename_i hundecoded
      exact Moves.malformed free next hlive hundecoded
    · rename_i bytes hdecoded
      exact Moves.begins free next hlive hdecoded

theorem moves_opened {bytes : Bytes} (running : s.opening = some bytes)
    (closes throws : Bool) :
    Moves cfg s (.settles closes throws) (opened cfg { s with opening := none } closes throws
      (StreamOpener.receive cfg.P cfg.G cfg.keys.s2c .s2c s.opener bytes)) := by
  cases hreceived : StreamOpener.receive cfg.P cfg.G cfg.keys.s2c .s2c s.opener bytes with
  | none => exact Moves.fails running hreceived
  | some made =>
    simp only [opened]
    split
    · rename_i hgone
      exact Moves.late running hreceived hgone
    · rename_i hlive
      rw [Bool.not_eq_true] at hlive
      exact Moves.delivers running hreceived hlive

theorem step_moves (s : SealedTransport) (e : TransportEvent) : Moves cfg s e (s.step cfg e) := by
  cases e with
  | opens =>
    unfold step
    by_cases hconnecting : s.ws = some .connecting
    · rw [if_pos hconnecting]
      exact Moves.opens hconnecting
    · rw [if_neg hconnecting]
      exact moves_nothing trivial
  | receives msg =>
    simp only [step]
    by_cases hgone : (s.detached || decide (s.ws ≠ some .isOpen)) = true
    · rw [if_pos hgone]
      exact moves_nothing trivial
    · rw [if_neg hgone]
      have hlive : s.detached = false ∧ s.ws = some .isOpen := by simpa using hgone
      exact moves_control hlive.1 hlive.2 msg
  | begins =>
    simp only [step]
    split
    · rename_i hfree hnext
      exact moves_handleFrame hfree hnext
    · rename_i hnone
      refine moves_nothing fun hfree => ?_
      cases hinbound : s.inbound with
      | nil => rfl
      | cons data inbound => exact absurd hinbound (hnone data inbound hfree)
  | settles closes throws =>
    simp only [step]
    split
    · rename_i hfree
      exact moves_nothing hfree
    · rename_i hrunning
      exact moves_opened hrunning closes throws
  | socketCloses =>
    unfold step
    by_cases hsocket : s.ws = some .connecting ∨ s.ws = some .isOpen
    · rw [if_pos hsocket]
      exact Moves.drops hsocket
    · rw [if_neg hsocket]
      exact moves_nothing trivial
  | close => exact Moves.closes
  | send text =>
    refine Moves.keeps ?_ (sameEnds_send s text) ?_
    · trivial
    · intro o ho
      cases ho
  | seals =>
    refine Moves.keeps ?_ (sealNext_spec s).1 (sealNext_spec s).2
    trivial

end SealedTransport
end Mtmux.Browser
