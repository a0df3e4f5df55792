import Mtmux.Base.Machine
import Mtmux.Base.OrderedMap
import Mtmux.Crypto.Frames

/-! The streams of the tunnel agent: broker frames are matched to a key by trial
decryption, unsealed and written to loopback, relay lines are sealed and sent back. What
a stream does asynchronously goes through its promise chain, one task at a time. -/
namespace Mtmux.Agent
open Crypto

structure PeerIdentity where
  deviceId : String
  label : String
  restored : Bool
  deriving DecidableEq

structure KeyringEntry where
  keys : SessionKeys
  peer : Option PeerIdentity
  deriving DecidableEq

def KeyringEntry.deviceId (entry : KeyringEntry) : Option String := entry.peer.map (·.deviceId)

def maxKeyring : Nat := 64

inductive ChainTask where
  | openFromBroker (data : String)
  | sealToBroker (line : String)
  deriving DecidableEq

inductive Awaiting where
  /-- No task is running. -/
  | nothing
  /-- `StreamOpener.bind` of the first frame under the keyring entry at `index`. -/
  | bind (bytes : Bytes) (index : Nat) (entry : KeyringEntry)
  /-- `admitStream`, with the line of the first frame. -/
  | admitStream (entry : KeyringEntry) (line : String)
  /-- The sealing of one held line, with those behind it. -/
  | flushSeal (frame : Bytes) (held : List String)
  /-- `sealToBroker` has returned to the loop over the held lines. -/
  | flush (held : List String)
  | sealed (frame : Bytes)
  | opened (opener : FrameOpener) (bytes : Bytes)
  /-- The task threw; its `catch` runs next. -/
  | caught (reason : String)
  deriving DecidableEq

/-- One browser to relay stream, under the id its callbacks hold. -/
structure Stream where
  streamId : String
  opener : Option FrameOpener
  sealer : Option FrameSealer
  peer : Option PeerIdentity
  chain : List ChainTask
  awaiting : Awaiting
  localOpen : Bool
  toLocal : List String
  toBroker : List String
  closed : Bool
  deriving DecidableEq

/-- What a stream emits: writes to its loopback socket, frames for the broker and the two
callbacks. -/
inductive StreamOut where
  | localSend (line : String)
  | frame (streamId data : String)
  | admitStream (peer : Option PeerIdentity)
  | streamBound (peer : Option PeerIdentity)
  deriving DecidableEq

/-- What runs until the next `await`; `drop` is a call of `dropStream` at its end. -/
structure Turn where
  stream : Stream
  out : List StreamOut
  drop : Option String

/-- `admits` says whether there is an `admitStream`, `salt` is what the sealer of the n-th
stream draws, `decode` the platform's text decoder. -/
structure StreamConfig where
  P : Primitives
  G : Gcm
  decode : Bytes → String
  salt : Nat → Bytes
  admits : Bool

/-- Events of one stream; a rejected `admitStream` answers `none`. -/
inductive StreamEvent where
  | line (text : String)
  | localOpen
  | localClose
  | resume
  | answer (verdict : Option Bool)

namespace Stream
variable (cfg : StreamConfig) (keyring : List KeyringEntry)

def create (streamId : String) : Stream :=
  ⟨streamId, none, none, none, [], .nothing, false, [], [], false⟩

def enqueue (s : Stream) (task : ChainTask) : Stream := { s with chain := s.chain ++ [task] }

def await (s : Stream) (awaiting : Awaiting) : Turn := ⟨{ s with awaiting := awaiting }, [], none⟩

def writeLocal (s : Stream) (line : String) : Stream × List StreamOut :=
  if s.localOpen then (s, [.localSend line])
  else ({ s with toLocal := s.toLocal ++ [line] }, [])

/-- `sealToBroker` up to its `await`: a line with no key yet is held, a counter that is
used up throws. -/
def beginSeal (s : Stream) (line : String) (reason : String) (whenSealed : Bytes → Awaiting)
    (whenHeld : Awaiting) : Turn :=
  match s.sealer with
  | none => await { s with toBroker := s.toBroker ++ [line] } whenHeld
  | some sealer =>
    match sealer.sealFrame cfg.G (utf8ToBytes line) with
    | none => s.await (.caught reason)
    | some (sealer, frame) => await { s with sealer := some sealer } (whenSealed frame)

def sendFrame (s : Stream) (frame : Bytes) : List StreamOut :=
  if s.closed then [] else [.frame s.streamId (bytesToBase64Url frame)]

/-- The loop over the lines the relay said while the key was not known. -/
def flush (s : Stream) : (held : List String) → Turn
  | [] => s.await .nothing
  | line :: held => s.beginSeal cfg line "open failed" (.flushSeal · held) (.flush held)

/-- Past the gate: the first line goes out and the held ones are taken. -/
def admitted (s : Stream) (entry : KeyringEntry) (line : String) : Turn :=
  { flush cfg { (s.writeLocal line).1 with toBroker := [] } s.toBroker with
    out := .streamBound entry.peer :: (s.writeLocal line).2 }

/-- Trial decryption, at one index of the keyring as it is now. -/
def tryEntry (s : Stream) (bytes : Bytes) (index : Nat) : Turn :=
  match keyring[index]? with
  | some entry => s.await (.bind bytes index entry)
  | none => ⟨{ s with awaiting := .nothing }, [], some "no matching pairing"⟩

def bound (s : Stream) (salt : Bytes) (entry : KeyringEntry) (opener : FrameOpener)
    (line : String) : Turn :=
  if s.closed then s.await .nothing
  else
    match FrameSealer.create cfg.P entry.keys.s2c .s2c salt .frame with
    | none => await { s with opener := some opener } (.caught "open failed")
    | some sealer =>
      if cfg.admits then
        ⟨{ s with
            opener := some opener, sealer := some sealer, peer := entry.peer
            awaiting := .admitStream entry line }, [.admitStream entry.peer], none⟩
      else
        admitted cfg { s with opener := some opener, sealer := some sealer, peer := entry.peer }
          entry line

def openFromBroker (s : Stream) (data : String) : Turn :=
  match base64UrlToBytes data with
  | none => ⟨{ s with awaiting := .nothing }, [], some "malformed frame"⟩
  | some bytes =>
    match s.opener with
    | none => s.tryEntry keyring bytes 0
    | some opener => s.await (.opened opener bytes)

def sealToBroker (s : Stream) (line : String) : Turn :=
  s.beginSeal cfg line "seal failed" .sealed .nothing

/-- A later frame on a bound stream. -/
def opened (s : Stream) (opener : FrameOpener) (bytes : Bytes) : Turn :=
  match opener.openFrame cfg.G bytes with
  | none => ⟨{ s with awaiting := .nothing }, [], some "frame authentication failed"⟩
  | some (opener, plaintext) =>
    if s.closed then await { s with opener := some opener } .nothing
    else
      let written := s.writeLocal (cfg.decode plaintext)
      ⟨{ written.1 with opener := some opener, awaiting := .nothing }, written.2, none⟩

/-- The awaited promise settles, or the next task starts. -/
def resume (s : Stream) (salt : Bytes) : Turn :=
  match s.awaiting with
  | .nothing =>
    match s.chain with
    | [] => s.await .nothing
    | .openFromBroker data :: chain => openFromBroker keyring { s with chain := chain } data
    | .sealToBroker line :: chain => sealToBroker cfg { s with chain := chain } line
  | .bind bytes index entry =>
    match StreamOpener.bind cfg.P cfg.G entry.keys.c2s .c2s bytes .frame with
    | none => s.tryEntry keyring bytes (index + 1)
    | some (opener, plaintext) => s.bound cfg salt entry opener (cfg.decode plaintext)
  | .admitStream entry line => s.await (.admitStream entry line)
  | .flushSeal frame held => ⟨{ s with awaiting := .flush held }, s.sendFrame frame, none⟩
  | .flush held => s.flush cfg held
  | .sealed frame => ⟨{ s with awaiting := .nothing }, s.sendFrame frame, none⟩
  | .opened opener bytes => s.opened cfg opener bytes
  | .caught reason => ⟨{ s with awaiting := .nothing }, [], some reason⟩

def answered (s : Stream) (verdict : Option Bool) : Turn :=
  match s.awaiting with
  | .admitStream entry line =>
    match verdict with
    | none => s.await (.caught "open failed")
    | some false =>
      ⟨{ s with awaiting := .nothing }, [], if s.closed then none else some "not approved"⟩
    | some true => if s.closed then s.await .nothing else s.admitted cfg entry line
  | awaiting => s.await awaiting

def opens (s : Stream) : Turn :=
  if s.closed then ⟨s, [], none⟩
  else ⟨{ s with localOpen := true, toLocal := [] }, s.toLocal.map .localSend, none⟩

def turn (s : Stream) (salt : Bytes) : StreamEvent → Turn
  | .line text => ⟨s.enqueue (.sealToBroker text), [], none⟩
  | .localOpen => s.opens
  | .localClose => ⟨s, [], if s.closed then none else some "local closed"⟩
  | .resume => s.resume cfg keyring salt
  | .answer verdict => s.answered cfg verdict

end Stream

/-- `objects` has every stream that was opened, in order; `streams` finds the last one of
an id while it is open. -/
structure StreamTable where
  streams : OrderedMap String Nat
  objects : List Stream
  keyring : List KeyringEntry

/-- Messages of the broker, events of the stream objects, and the keyring's owner. -/
inductive TableEvent where
  | streamOpen (streamId : String)
  | streamFrame (streamId data : String)
  | streamClose (streamId : String)
  | stream (k : Nat) (event : StreamEvent)
  | addSessionKeys (keys : SessionKeys) (peer : Option PeerIdentity)
  | removeSessionKeys (deviceId : String)
  | teardownStreams

inductive TableOut where
  | stream (k : Nat) (out : StreamOut)
  | localClose (k : Nat)
  | streamClose (streamId reason : String)
  deriving DecidableEq

namespace StreamTable
variable (cfg : StreamConfig)

def create : StreamTable := ⟨OrderedMap.empty, [], []⟩

def dropStream (t : StreamTable) (streamId reason : String) (tellBroker : Bool) :
    StreamTable × List TableOut :=
  match t.streams.get streamId with
  | none => (t, [])
  | some k =>
    match t.objects[k]? with
    | none => (t, [])
    | some stream =>
      if stream.closed then (t, [])
      else
        ({ t with
            streams := t.streams.delete streamId
            objects := t.objects.set k { stream with closed := true } },
          .localClose k :: if tellBroker then [.streamClose streamId reason] else [])

/-- `dropStream` over a snapshot of ids. -/
def dropStreams (t : StreamTable) (reason : String) (tellBroker : Bool) :
    List String → StreamTable × List TableOut
  | [] => (t, [])
  | streamId :: rest =>
    let (t, out) := t.dropStream streamId reason tellBroker
    let (t, more) := dropStreams t reason tellBroker rest
    (t, out ++ more)

def teardownStreams (t : StreamTable) : StreamTable × List TableOut :=
  let (t, out) := t.dropStreams "agent shutting down" false t.streams.keys
  ({ t with streams := OrderedMap.empty }, out)

def openStream (t : StreamTable) (streamId : String) : StreamTable :=
  { t with
    streams := t.streams.set streamId t.objects.length
    objects := t.objects ++ [Stream.create streamId] }

def streamFrame (t : StreamTable) (streamId data : String) : StreamTable :=
  match t.streams.get streamId with
  | none => t
  | some k =>
    match t.objects[k]? with
    | none => t
    | some stream =>
      if stream.closed then t
      else { t with objects := t.objects.set k (stream.enqueue (.openFromBroker data)) }

def addSessionKeys (t : StreamTable) (keys : SessionKeys) (peer : Option PeerIdentity) :
    StreamTable :=
  let keyring := t.keyring ++ [⟨keys, peer⟩]
  { t with keyring := if maxKeyring < keyring.length then keyring.tail else keyring }

/-- The ids whose stream is bound to the device. -/
def streamsOf (t : StreamTable) (deviceId : String) : List String :=
  (t.streams.entries.filter fun (_, k) =>
    t.objects[k]?.any fun stream => stream.peer.map (·.deviceId) = some deviceId).map Prod.fst

def removeSessionKeys (t : StreamTable) (deviceId : String) : StreamTable × List TableOut :=
  let t := { t with keyring := t.keyring.filter fun entry => entry.deviceId ≠ some deviceId }
  t.dropStreams "revoked" true (t.streamsOf deviceId)

/-- Run one stream to its next `await`. -/
def drive (t : StreamTable) (k : Nat) (turn : Turn) : StreamTable × List TableOut :=
  let t := { t with objects := t.objects.set k turn.stream }
  let out := turn.out.map (TableOut.stream k)
  match turn.drop with
  | none => (t, out)
  | some reason =>
    let (t, closing) := t.dropStream turn.stream.streamId reason true
    (t, out ++ closing)

def step (t : StreamTable) : TableEvent → StreamTable × List TableOut
  | .streamOpen streamId => (t.openStream streamId, [])
  | .streamFrame streamId data => (t.streamFrame streamId data, [])
  | .streamClose streamId => t.dropStream streamId "browser closed" false
  | .stream k event =>
    match t.objects[k]? with
    | none => (t, [])
    | some stream => t.drive k (stream.turn cfg t.keyring (cfg.salt k) event)
  | .addSessionKeys keys peer => (t.addSessionKeys keys peer, [])
  | .removeSessionKeys deviceId => t.removeSessionKeys deviceId
  | .teardownStreams => t.teardownStreams

def machine : Machine StreamTable TableEvent TableOut := ⟨create, step cfg⟩

end StreamTable
end Mtmux.Agent
