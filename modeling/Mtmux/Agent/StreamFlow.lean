import Mtmux.Agent.StreamInvariant

/-! What has gone into one stream and come out of it, and how far each line has got. -/
namespace Mtmux.Agent
open Crypto List

/-- What one stream has seen and said: the frames of the broker and the lines of the relay
in the order they came, the lines written to loopback, the frames sent and the peers
reported as bound. -/
structure History where
  arrived : List String
  relayed : List String
  wrote : List String
  sent : List String
  bound : List (Option PeerIdentity)

namespace History

def empty : History := ⟨[], [], [], [], []⟩

def emit (h : History) (out : List StreamOut) : History :=
  { h with
    wrote := h.wrote ++ out.filterMap fun | .localSend line => some line | _ => none
    sent := h.sent ++ out.filterMap fun | .frame _ data => some data | _ => none
    bound := h.bound ++ out.filterMap fun | .streamBound peer => some peer | _ => none }

def hear (h : History) : StreamEvent → History
  | .line text => { h with relayed := h.relayed ++ [text] }
  | _ => h

theorem emit_nil (h : History) : h.emit [] = h := by simp [emit]

/-- Nothing has crossed the tunnel, and no peer was reported. -/
def Silent (h : History) : Prop := h.wrote = [] ∧ h.sent = [] ∧ h.bound = []

end History

def framesIn (chain : List ChainTask) : List String :=
  chain.filterMap fun | .openFromBroker data => some data | _ => none

def linesIn (chain : List ChainTask) : List String :=
  chain.filterMap fun | .sealToBroker line => some line | _ => none

namespace Awaiting

def opening : Awaiting → List Bytes
  | .bind bytes _ _ => [bytes]
  | .opened _ bytes => [bytes]
  | _ => []

def flying : Awaiting → List Bytes
  | .flushSeal frame _ => [frame]
  | .sealed frame => [frame]
  | _ => []

def held : Awaiting → List String
  | .flushSeal _ held => held
  | .flush held => held
  | _ => []

end Awaiting

/-- How far a stream has got. -/
inductive Stage where
  | unbound
  | gated (entry : KeyringEntry)
  | doomed
  | passed (entry : KeyringEntry)

section
variable (cfg : StreamConfig) (k : Nat)

/-- No frame has authenticated yet, and everything that came is still there. -/
structure Unbound (h : History) (s : Stream) : Prop where
  opener : s.opener = none
  sealer : s.sealer = none
  peer : s.peer = none
  toLocal : s.toLocal = []
  silent : h.Silent
  phase : s.awaiting = .nothing ∨ ∃ bytes index entry, s.awaiting = .bind bytes index entry
  inflow : h.arrived.map base64UrlToBytes =
    s.awaiting.opening.map some ++ (framesIn s.chain).map base64UrlToBytes
  outflow : h.relayed = s.toBroker ++ linesIn s.chain

structure Gated (entry : KeyringEntry) (h : History) (s : Stream) : Prop where
  first : ∃ bytes opener plaintext,
    StreamOpener.bind cfg.P cfg.G entry.keys.c2s .c2s bytes .frame = some (opener, plaintext) ∧
    s.opener = some opener ∧ s.awaiting = .admitStream entry (cfg.decode plaintext) ∧
    h.arrived.map base64UrlToBytes = some bytes :: (framesIn s.chain).map base64UrlToBytes
  sealer : ∃ fresh, FrameSealer.create cfg.P entry.keys.s2c .s2c (cfg.salt k) .frame = some fresh ∧
    s.sealer = some fresh
  peer : s.peer = entry.peer
  toLocal : s.toLocal = []
  silent : h.Silent
  outflow : h.relayed = s.toBroker ++ linesIn s.chain

/-- The stream threw before it was admitted. -/
structure Doomed (h : History) (s : Stream) : Prop where
  phase : ∃ reason, s.awaiting = .caught reason
  toLocal : s.toLocal = []
  silent : h.Silent

structure Carried (entry : KeyringEntry) (h : History) (s : Stream) (accepted : List Bytes)
    (done : List String) (flying : List Bytes) : Prop where
  nonempty : accepted ≠ []
  received : ∃ plaintexts,
    StreamOpener.receiveAll cfg.P cfg.G entry.keys.c2s .c2s none accepted =
      some (s.opener, plaintexts) ∧
    h.wrote ++ s.toLocal = plaintexts.map cfg.decode
  local_open : s.localOpen = true → s.toLocal = []
  sealing : ∃ fresh, FrameSealer.create cfg.P entry.keys.s2c .s2c (cfg.salt k) .frame = some fresh ∧
    s.sealer = some { fresh with counter := done.length } ∧
    h.sent ++ flying.map bytesToBase64Url = done.mapIdx fun i line =>
      bytesToBase64Url (fresh.frameAt cfg.G i (utf8ToBytes line))
  bounded : done.length ≤ maxCounter + 1
  toBroker : s.toBroker = []
  peer : s.peer = entry.peer
  reported : h.bound = [entry.peer]

/-- Past the gate. Only a task that threw may have lost anything, and it closes the stream. -/
structure Passed (entry : KeyringEntry) (h : History) (s : Stream) : Prop where
  late : s.awaiting.Late
  opener : ∀ opener bytes, s.awaiting = .opened opener bytes → s.opener = some opener
  flow : ∃ accepted done restIn restOut,
    Carried cfg k entry h s accepted done s.awaiting.flying ∧
    h.arrived.map base64UrlToBytes = accepted.map some ++ restIn ∧ h.relayed = done ++ restOut ∧
    ((∀ reason, s.awaiting ≠ .caught reason) →
      restIn = s.awaiting.opening.map some ++ (framesIn s.chain).map base64UrlToBytes ∧
      restOut = s.awaiting.held ++ linesIn s.chain)

def Flow (h : History) (s : Stream) : Stage → Prop
  | .unbound => Unbound h s
  | .gated entry => Gated cfg k entry h s
  | .doomed => Doomed h s
  | .passed entry => Passed cfg k entry h s

end

inductive Advance (cfg : StreamConfig) (s : Stream) : StreamEvent → Stage → Stage → Prop where
  | stay (event : StreamEvent) (stage : Stage) : Advance cfg s event stage stage
  | ask {bytes : Bytes} {index : Nat} {entry : KeyringEntry} {found : FrameOpener × Bytes}
      (trying : s.awaiting = .bind bytes index entry)
      (authentic : StreamOpener.bind cfg.P cfg.G entry.keys.c2s .c2s bytes .frame = some found)
      (gate : cfg.admits = true) : Advance cfg s .resume .unbound (.gated entry)
  | pass {bytes : Bytes} {index : Nat} {entry : KeyringEntry} {found : FrameOpener × Bytes}
      (trying : s.awaiting = .bind bytes index entry)
      (authentic : StreamOpener.bind cfg.P cfg.G entry.keys.c2s .c2s bytes .frame = some found)
      (gate : cfg.admits = false) : Advance cfg s .resume .unbound (.passed entry)
  | admitStream {entry : KeyringEntry} {line : String} (asking : s.awaiting = .admitStream entry line) :
      Advance cfg s (.answer (some true)) (.gated entry) (.passed entry)
  | fail (event : StreamEvent) (stage : Stage) : Advance cfg s event stage .doomed

theorem framesIn_append (a b : List ChainTask) : framesIn (a ++ b) = framesIn a ++ framesIn b :=
  filterMap_append

theorem linesIn_append (a b : List ChainTask) : linesIn (a ++ b) = linesIn a ++ linesIn b :=
  filterMap_append

section
variable {cfg : StreamConfig} {k : Nat} {entry : KeyringEntry} {h : History} {s : Stream}
  {accepted : List Bytes} {done : List String}

theorem Carried.beginSeal (hc : Carried cfg k entry h s accepted done []) (line reason : String)
    (whenSealed : Bytes → Awaiting) (whenHeld : Awaiting) :
    s.beginSeal cfg line reason whenSealed whenHeld = s.await (.caught reason) ∨
    ∃ sealer frame, s.beginSeal cfg line reason whenSealed whenHeld =
        Stream.await { s with sealer := some sealer } (whenSealed frame) ∧
      Carried cfg k entry h { s with sealer := some sealer } accepted (done ++ [line]) [frame] := by
  obtain ⟨fresh, hfresh, hsealer, hsent⟩ := hc.sealing
  unfold Stream.beginSeal
  rw [hsealer]
  simp only [FrameSealer.sealFrame]
  by_cases hmax : maxCounter < done.length
  · rw [if_pos hmax]
    exact Or.inl rfl
  · rw [if_neg hmax]
    refine Or.inr ⟨_, _, rfl, hc.nonempty, hc.received, hc.local_open, ⟨fresh, hfresh, ?_, ?_⟩, ?_,
      hc.toBroker, hc.peer, hc.reported⟩
    · simp
    · rw [map_nil, append_nil] at hsent
      rw [mapIdx_append, ← hsent]
      simp only [map_cons, map_nil, mapIdx_cons, mapIdx_nil, Nat.zero_add]
      rfl
    · rw [length_append, length_singleton]
      omega

theorem Carried.send {frame : Bytes} (hc : Carried cfg k entry h s accepted done [frame])
    (hopen : s.closed = false) : Carried cfg k entry (h.emit (s.sendFrame frame)) s accepted done [] := by
  obtain ⟨plaintexts, hrec, hwrote⟩ := hc.received
  obtain ⟨fresh, hfresh, hsealer, hsent⟩ := hc.sealing
  have hout : s.sendFrame frame = [.frame s.streamId (bytesToBase64Url frame)] := by
    simp [Stream.sendFrame, hopen]
  refine { hc with received := ⟨plaintexts, hrec, ?_⟩, sealing := ⟨fresh, hfresh, hsealer, ?_⟩, reported := ?_ }
  · simpa [History.emit, hout] using hwrote
  · simpa [History.emit, hout] using hsent
  · simpa [History.emit, hout] using hc.reported

variable {flying : List Bytes} {bytes : Bytes}

theorem Carried.write {plaintext : Bytes} {opener' : FrameOpener}
    (hc : Carried cfg k entry h s accepted done flying)
    (hrec' : StreamOpener.receive cfg.P cfg.G entry.keys.c2s .c2s s.opener bytes =
      some (opener', plaintext)) :
    Carried cfg k entry (h.emit (s.writeLocal (cfg.decode plaintext)).2)
      { (s.writeLocal (cfg.decode plaintext)).1 with opener := some opener' }
      (accepted ++ [bytes]) done flying := by
  obtain ⟨plaintexts, hrec, hwrote⟩ := hc.received
  obtain ⟨fresh, hfresh, hsealer, hsent⟩ := hc.sealing
  rw [Stream.writeLocal_eq]
  refine ⟨by simp, ⟨plaintexts ++ [plaintext], StreamOpener.receiveAll_snoc hrec hrec', ?_⟩, ?_,
    ⟨fresh, hfresh, hsealer, ?_⟩, hc.bounded, hc.toBroker, hc.peer, ?_⟩
  · rw [map_append, ← hwrote]
    by_cases hl : s.localOpen = true
    · simp [History.emit, hl, hc.local_open hl]
    · simp [History.emit, hl]
  · intro hl
    simp only at hl
    simpa [hl] using hc.local_open hl
  · by_cases hl : s.localOpen = true
    · simpa [History.emit, hl] using hsent
    · simpa [History.emit, hl] using hsent
  · by_cases hl : s.localOpen = true
    · simpa [History.emit, hl] using hc.reported
    · simpa [History.emit, hl] using hc.reported

theorem Carried.await (hc : Carried cfg k entry h s accepted done flying)
    (chain : List ChainTask) (awaiting : Awaiting) :
    Carried cfg k entry h { s with chain := chain, awaiting := awaiting } accepted done flying :=
  { hc with }

theorem Carried.bound (hc : Carried cfg k entry h s accepted done flying) : ∃ opener, s.opener = some opener := by
  obtain ⟨plaintexts, hrec, -⟩ := hc.received
  cases accepted with
  | nil => exact absurd rfl hc.nonempty
  | cons bytes rest =>
    rw [StreamOpener.receiveAll] at hrec
    obtain ⟨⟨o₁, p⟩, -, hrec⟩ := Option.bind_eq_some_iff.1 hrec
    obtain ⟨⟨o₂, ps⟩, hrest, hrec⟩ := Option.bind_eq_some_iff.1 hrec
    cases hrec
    exact StreamOpener.receiveAll_bound hrest

theorem Carried.caught (hc : Carried cfg k entry h s accepted done []) (reason : String)
    {restIn : List (Option Bytes)} {restOut : List String}
    (hin : h.arrived.map base64UrlToBytes = accepted.map some ++ restIn) (hout : h.relayed = done ++ restOut) :
    Passed cfg k entry h { s with awaiting := .caught reason } := by
  refine ⟨trivial, ?_, accepted, done, restIn, restOut, ?_, hin, hout, ?_⟩
  · intro opener bytes he
    cases he
  · exact hc.await s.chain (.caught reason)
  · intro hne
    exact absurd rfl (hne reason)

theorem Carried.flush (hc : Carried cfg k entry h s accepted done []) (held : List String)
    (hin : h.arrived.map base64UrlToBytes = accepted.map some ++ (framesIn s.chain).map base64UrlToBytes)
    (hout : h.relayed = done ++ (held ++ linesIn s.chain)) : Passed cfg k entry h (s.flush cfg held).stream := by
  cases held with
  | nil =>
    refine ⟨trivial, ?_, accepted, done, _, _, ?_, hin, hout, fun _ => ⟨rfl, rfl⟩⟩
    · intro opener bytes he
      cases he
    · exact hc.await s.chain .nothing
  | cons line held =>
    rcases hc.beginSeal line "open failed" (.flushSeal · held) (.flush held) with
      hcaught | ⟨sealer, frame, hsealed, hc'⟩
    · rw [Stream.flush, hcaught]
      exact hc.caught "open failed" hin hout
    · rw [Stream.flush, hsealed]
      refine ⟨trivial, ?_, accepted, done ++ [line], _, _, ?_, hin, ?_, fun _ => ⟨rfl, rfl⟩⟩
      · intro opener bytes he
        cases he
      · exact hc'.await s.chain (.flushSeal frame held)
      · rw [hout]
        simp [Stream.await, Awaiting.held]

variable {keyring : List KeyringEntry} {salt : Bytes}

theorem Carried.start (hc : Carried cfg k entry h s accepted done []) (hidle : s.awaiting = .nothing)
    (hdrop : (s.resume cfg keyring salt).drop = none) (hin : h.arrived.map base64UrlToBytes =
      accepted.map some ++ (framesIn s.chain).map base64UrlToBytes) (hout : h.relayed = done ++ linesIn s.chain) :
    Passed cfg k entry h (s.resume cfg keyring salt).stream ∧ (s.resume cfg keyring salt).out = [] := by
  obtain ⟨opener, ho⟩ := hc.bound
  obtain ⟨streamId, opener, sealer, peer, chain, awaiting, localOpen, toLocal, toBroker, closed⟩ := s
  simp only at hidle ho hin hout
  subst hidle ho
  cases chain with
  | nil =>
    refine ⟨⟨trivial, ?_, accepted, done, _, _, ?_, hin, hout, fun _ => ⟨rfl, rfl⟩⟩, rfl⟩
    · intro opener bytes he
      cases he
    · exact hc
  | cons task chain =>
    cases task with
    | openFromBroker data =>
      simp only [Stream.resume, Stream.openFromBroker] at hdrop ⊢
      cases hb : base64UrlToBytes data with
      | none =>
        rw [hb] at hdrop
        cases hdrop
      | some bytes =>
        refine ⟨⟨trivial, ?_, accepted, done, _, _, ?_, hin, hout, ?_⟩, rfl⟩
        · intro o b he
          cases he
          rfl
        · exact hc.await chain (.opened opener bytes)
        · intro _
          simp [Stream.await, framesIn, linesIn, Awaiting.opening, Awaiting.held, hb]
    | sealToBroker line =>
      simp only [Stream.resume, Stream.sealToBroker]
      rcases (hc.await chain .nothing).beginSeal line "seal failed" .sealed .nothing with
        hcaught | ⟨sealer, frame, hsealed, hc'⟩
      · rw [hcaught]
        exact ⟨(hc.await chain .nothing).caught "seal failed" hin hout, rfl⟩
      · rw [hsealed]
        refine ⟨⟨trivial, ?_, accepted, done ++ [line], _, _, ?_, hin, ?_, fun _ => ⟨rfl, rfl⟩⟩, rfl⟩
        · intro opener bytes he
          cases he
        · exact hc'.await chain (.sealed frame)
        · rw [hout]
          simp [Stream.await, Awaiting.held, linesIn]

theorem Passed.resume (hp : Passed cfg k entry h s) (hopen : s.closed = false)
        (hdrop : (s.resume cfg keyring salt).drop = none) : Passed cfg k entry (h.emit (s.resume cfg keyring salt).out)
      (s.resume cfg keyring salt).stream := by
  obtain ⟨hlate, hopener, accepted, done, restIn, restOut, hc, hin, hout, hrest⟩ := hp
  obtain ⟨streamId, opener, sealer, peer, chain, awaiting, localOpen, toLocal, toBroker, closed⟩ := s
  cases awaiting with
  | nothing =>
    obtain ⟨rfl, rfl⟩ := hrest (by simp)
    obtain ⟨hnext, hquiet⟩ := hc.start rfl hdrop hin hout
    rw [hquiet, History.emit_nil]
    exact hnext
  | bind _ _ _ | admitStream _ _ => exact hlate.elim
  | flushSeal frame held =>
    obtain ⟨rfl, rfl⟩ := hrest (by simp)
    refine ⟨trivial, ?_, accepted, done, _, _, ?_, hin, hout, fun _ => ⟨rfl, rfl⟩⟩
    · intro opener bytes he
      cases he
    · exact (hc.send hopen).await chain (.flush held)
  | flush held =>
    obtain ⟨rfl, rfl⟩ := hrest (by simp)
    have hquiet : (Stream.flush cfg ⟨streamId, opener, sealer, peer, chain, .flush held, localOpen,
      toLocal, toBroker, closed⟩ held).out = [] := Stream.out_flush _ _
    simp only [Stream.resume, hquiet, History.emit_nil]
    exact hc.flush held hin hout
  | sealed frame =>
    obtain ⟨rfl, rfl⟩ := hrest (by simp)
    refine ⟨trivial, ?_, accepted, done, _, _, ?_, hin, hout, fun _ => ⟨rfl, rfl⟩⟩
    · intro opener bytes he
      cases he
    · exact (hc.send hopen).await chain .nothing
  | opened opener' bytes =>
    obtain ⟨rfl, rfl⟩ := hrest (by simp)
    have ho : opener = some opener' := hopener opener' bytes rfl
    subst ho
    simp only [Stream.resume, Stream.opened] at hdrop ⊢
    cases hframe : opener'.openFrame cfg.G bytes with
    | none =>
      rw [hframe] at hdrop
      cases hdrop
    | some found =>
      obtain ⟨next, plaintext⟩ := found
      have hopen' : closed = false := hopen
      subst hopen'
      simp only [Bool.false_eq_true, if_false]
      refine ⟨trivial, ?_, accepted ++ [bytes], done, (framesIn chain).map base64UrlToBytes,
        linesIn chain, ?_, ?_, ?_, fun _ => ⟨?_, ?_⟩⟩
      · intro o b he
        cases he
      · have hw := @Carried.write cfg k entry h _ accepted done _ bytes plaintext next hc hframe
        exact { hw with }
      · have harr : (h.emit (Stream.writeLocal ⟨streamId, some opener', sealer, peer, chain,
            .opened opener' bytes, localOpen, toLocal, toBroker, false⟩
            (cfg.decode plaintext)).2).arrived = h.arrived := rfl
        rw [harr, hin]
        simp [Awaiting.opening]
      · exact hout
      · rw [Stream.writeLocal_eq]
        rfl
      · rw [Stream.writeLocal_eq]
        rfl
  | caught reason => cases hdrop

theorem Passed.turn (hp : Passed cfg k entry h s) (hopen : s.closed = false) (event : StreamEvent)
    (hdrop : (s.turn cfg keyring salt event).drop = none) :
    Passed cfg k entry ((h.hear event).emit (s.turn cfg keyring salt event).out)
      (s.turn cfg keyring salt event).stream := by
  cases event with
  | line text =>
    obtain ⟨hlate, hopener, accepted, done, restIn, restOut, hc, hin, hout, hrest⟩ := hp
    have hemit : (h.hear (.line text)).emit [] = { h with relayed := h.relayed ++ [text] } :=
      History.emit_nil _
    simp only [Stream.turn, hemit]
    refine ⟨hlate, hopener, accepted, done, restIn, restOut ++ [text], ?_, hin, ?_, ?_⟩
    · exact { hc with }
    · simp only [hout, append_assoc]
    · intro hne
      obtain ⟨rfl, rfl⟩ := hrest hne
      simp [Stream.enqueue, framesIn, linesIn]
  | localOpen =>
    obtain ⟨hlate, hopener, accepted, done, restIn, restOut, hc, hin, hout, hrest⟩ := hp
    obtain ⟨plaintexts, hrec, hwrote⟩ := hc.received
    obtain ⟨fresh, hfresh, hsealer, hsent⟩ := hc.sealing
    have hlines : (s.toLocal.map StreamOut.localSend).filterMap
        (fun | .localSend line => some line | _ => none) = s.toLocal := by
      simp [filterMap_map]
    have hframes : (s.toLocal.map StreamOut.localSend).filterMap
        (fun | .frame _ data => some data | _ => none) = [] := by
      simp
    have hpeers : (s.toLocal.map StreamOut.localSend).filterMap
        (fun | .streamBound peer => some peer | _ => none) = [] := by
      simp
    simp only [Stream.turn, Stream.opens, hopen, Bool.false_eq_true, if_false]
    refine ⟨hlate, hopener, accepted, done, restIn, restOut, ?_, hin, hout, hrest⟩
    refine ⟨hc.nonempty, ⟨plaintexts, hrec, ?_⟩, fun _ => rfl, ⟨fresh, hfresh, hsealer, ?_⟩,
      hc.bounded, hc.toBroker, hc.peer, ?_⟩
    · simp only [History.emit, History.hear, hlines, append_nil]
      exact hwrote
    · simp only [History.emit, History.hear, hframes, append_nil]
      exact hsent
    · simp only [History.emit, History.hear, hpeers, append_nil]
      exact hc.reported
  | localClose =>
    simp only [Stream.turn, hopen] at hdrop
    cases hdrop
  | resume => exact hp.resume hopen hdrop
  | answer verdict =>
    have hstay : s.answered cfg verdict = ⟨s, [], none⟩ := by
      unfold Stream.answered
      split
      · rename_i heq
        have hlate := hp.late
        rw [heq] at hlate
        exact hlate.elim
      · rfl
    simp only [Stream.turn, hstay, History.hear, History.emit_nil]
    exact hp

theorem passed_admitted {plaintext : Bytes} {opener : FrameOpener} {fresh : FrameSealer}
    (hbind : StreamOpener.bind cfg.P cfg.G entry.keys.c2s .c2s bytes .frame = some (opener, plaintext))
    (hfresh : FrameSealer.create cfg.P entry.keys.s2c .s2c (cfg.salt k) .frame = some fresh)
    (hopener : s.opener = some opener) (hsealer : s.sealer = some fresh)
    (hpeer : s.peer = entry.peer) (hlocal : s.toLocal = []) (hsilent : h.Silent)
    (hin : h.arrived.map base64UrlToBytes = some bytes :: (framesIn s.chain).map base64UrlToBytes)
    (hout : h.relayed = s.toBroker ++ linesIn s.chain) :
    Passed cfg k entry (h.emit (s.admitted cfg entry (cfg.decode plaintext)).out)
      (s.admitted cfg entry (cfg.decode plaintext)).stream := by
  have hzero : { fresh with counter := 0 } = fresh := by
    obtain ⟨subkey, -, rfl⟩ := Option.map_eq_some_iff.1 hfresh
    rfl
  have hc : Carried cfg k entry (h.emit (s.admitted cfg entry (cfg.decode plaintext)).out)
      { (s.writeLocal (cfg.decode plaintext)).1 with toBroker := [] } [bytes] [] [] := by
    obtain ⟨hwrote, hsent, hbound⟩ := hsilent
    simp only [Stream.admitted, Stream.writeLocal_eq]
    refine ⟨by simp, ⟨[plaintext], ?_, ?_⟩, ?_, ⟨fresh, hfresh, ?_, ?_⟩, by simp, rfl, hpeer, ?_⟩
    · simp [StreamOpener.receiveAll, StreamOpener.receive, hbind, hopener]
    · by_cases hl : s.localOpen = true
      · simp [History.emit, hl, hwrote, hlocal]
      · simp [History.emit, hl, hwrote, hlocal]
    · intro hl
      simp only at hl
      simp [hl, hlocal]
    · rw [length_nil, hzero]
      exact hsealer
    · by_cases hl : s.localOpen = true
      · simp [History.emit, hl, hsent]
      · simp [History.emit, hl, hsent]
    · by_cases hl : s.localOpen = true
      · simp [History.emit, hl, hbound]
      · simp [History.emit, hl, hbound]
  refine hc.flush s.toBroker ?_ ?_
  · rw [Stream.writeLocal_eq]
    exact hin
  · rw [Stream.writeLocal_eq]
    exact hout

theorem Gated.turn (hg : Gated cfg k entry h s) (hopen : s.closed = false) (event : StreamEvent)
    (hdrop : (s.turn cfg keyring salt event).drop = none) :
    ∃ stage, Flow cfg k ((h.hear event).emit (s.turn cfg keyring salt event).out)
        (s.turn cfg keyring salt event).stream stage ∧ Advance cfg s event (.gated entry) stage := by
  obtain ⟨bytes, opener, plaintext, hbind, hopener, hawait, hin⟩ := hg.first
  obtain ⟨fresh, hfresh, hsealer⟩ := hg.sealer
  cases event with
  | line text =>
    refine ⟨.gated entry, ⟨⟨bytes, opener, plaintext, hbind, hopener, hawait, ?_⟩,
      ⟨fresh, hfresh, hsealer⟩, hg.peer, hg.toLocal, ?_, ?_⟩, .stay _ _⟩
    · simpa [Stream.turn, Stream.enqueue, framesIn, History.emit, History.hear] using hin
    · simpa [Stream.turn, History.emit, History.hear, History.Silent] using hg.silent
    · simp [Stream.turn, Stream.enqueue, linesIn, History.emit, History.hear, hg.outflow]
  | localOpen =>
    have hturn : s.turn cfg keyring salt .localOpen = ⟨{ s with localOpen := true }, [], none⟩ := by
      simp [Stream.turn, Stream.opens, hopen, hg.toLocal]
    rw [hturn]
    refine ⟨.gated entry, ⟨⟨bytes, opener, plaintext, hbind, hopener, hawait, ?_⟩,
      ⟨fresh, hfresh, hsealer⟩, hg.peer, hg.toLocal, ?_, ?_⟩, .stay _ _⟩
    · exact hin
    · simpa [History.emit, History.hear, History.Silent] using hg.silent
    · exact hg.outflow
  | localClose =>
    simp only [Stream.turn, hopen] at hdrop
    cases hdrop
  | resume =>
    have hturn : s.turn cfg keyring salt .resume = ⟨s, [], none⟩ := by
      unfold Stream.turn Stream.resume
      rw [hawait]
      simp only [Stream.await, ← hawait]
    simp only [hturn, History.hear, History.emit_nil]
    exact ⟨.gated entry, hg, .stay _ _⟩
  | answer verdict =>
    simp only [Stream.turn, Stream.answered] at hdrop ⊢
    rw [hawait] at hdrop ⊢
    cases verdict with
    | none =>
      refine ⟨.doomed, ⟨⟨_, rfl⟩, hg.toLocal, ?_⟩, .fail _ _⟩
      simpa [Stream.await, History.emit, History.hear, History.Silent] using hg.silent
    | some verdict =>
      cases verdict with
      | false =>
        simp only [hopen] at hdrop
        cases hdrop
      | true =>
        simp only [hopen, Bool.false_eq_true, if_false]
        exact ⟨.passed entry, passed_admitted hbind hfresh hopener hsealer hg.peer hg.toLocal
          hg.silent hin hg.outflow, .admitStream hawait⟩

theorem Doomed.turn (hd : Doomed h s) (hopen : s.closed = false) (event : StreamEvent)
    (hdrop : (s.turn cfg keyring salt event).drop = none) :
    Doomed ((h.hear event).emit (s.turn cfg keyring salt event).out) (s.turn cfg keyring salt event).stream := by
  obtain ⟨reason, hawait⟩ := hd.phase
  cases event with
  | line text =>
    refine ⟨⟨reason, hawait⟩, hd.toLocal, ?_⟩
    simpa [Stream.turn, History.emit, History.hear, History.Silent] using hd.silent
  | localOpen =>
    simp only [Stream.turn, Stream.opens, hopen, Bool.false_eq_true, if_false, hd.toLocal]
    refine ⟨⟨reason, hawait⟩, rfl, ?_⟩
    simpa [History.emit, History.hear, History.Silent] using hd.silent
  | localClose =>
    simp only [Stream.turn, hopen] at hdrop
    cases hdrop
  | resume =>
    simp only [Stream.turn, Stream.resume] at hdrop
    rw [hawait] at hdrop
    cases hdrop
  | answer verdict =>
    have hturn : s.answered cfg verdict = ⟨s, [], none⟩ := by
      unfold Stream.answered
      rw [hawait]
      simp only [Stream.await, ← hawait]
    simp only [Stream.turn, hturn, History.hear, History.emit_nil]
    exact hd

theorem Unbound.tryEntry (hu : Unbound h s) {index : Nat} {chain : List ChainTask}
    (hdrop : (Stream.tryEntry keyring { s with chain := chain } bytes index).drop = none)
    (hin : h.arrived.map base64UrlToBytes = some bytes :: (framesIn chain).map base64UrlToBytes)
    (hout : h.relayed = s.toBroker ++ linesIn chain) :
    Unbound h (Stream.tryEntry keyring { s with chain := chain } bytes index).stream ∧
      (Stream.tryEntry keyring { s with chain := chain } bytes index).out = [] := by
  unfold Stream.tryEntry at hdrop ⊢
  cases hentry : keyring[index]? with
  | none =>
    rw [hentry] at hdrop
    cases hdrop
  | some entry =>
    exact ⟨{ hu with phase := Or.inr ⟨bytes, index, entry, rfl⟩, inflow := hin, outflow := hout }, rfl⟩

theorem Unbound.start (hu : Unbound h s)
    (hidle : s.awaiting = .nothing) (hdrop : (s.resume cfg keyring salt).drop = none) :
    Unbound h (s.resume cfg keyring salt).stream ∧ (s.resume cfg keyring salt).out = [] := by
  have hin := hu.inflow
  have hout := hu.outflow
  obtain ⟨streamId, opener, sealer, peer, chain, awaiting, localOpen, toLocal, toBroker, closed⟩ := s
  have ho : opener = none := hu.opener
  have hs : sealer = none := hu.sealer
  simp only at hidle
  subst hidle ho hs
  cases chain with
  | nil => exact ⟨hu, rfl⟩
  | cons task chain =>
    cases task with
    | openFromBroker data =>
      simp only [Stream.resume, Stream.openFromBroker] at hdrop ⊢
      cases hb : base64UrlToBytes data with
      | none =>
        rw [hb] at hdrop
        cases hdrop
      | some bytes =>
        rw [hb] at hdrop
        refine hu.tryEntry hdrop ?_ ?_
        · rw [hin]
          simp [framesIn, Awaiting.opening, hb]
        · rw [hout]
          simp [linesIn]
    | sealToBroker line =>
      refine ⟨⟨rfl, rfl, hu.peer, hu.toLocal, hu.silent, Or.inl rfl, ?_, ?_⟩, rfl⟩
      · rw [hin]
        rfl
      · rw [hout]
        simp [Stream.resume, Stream.sealToBroker, Stream.beginSeal, Stream.await, linesIn]

/-- A trial decryption settles. -/
theorem Unbound.settle (hu : Unbound h s) (hopen : s.closed = false) {index : Nat} {entry : KeyringEntry}
    (htry : s.awaiting = .bind bytes index entry) (hdrop : (s.resume cfg keyring (cfg.salt k)).drop = none) :
    ∃ stage, Flow cfg k (h.emit (s.resume cfg keyring (cfg.salt k)).out)
        (s.resume cfg keyring (cfg.salt k)).stream stage ∧ Advance cfg s .resume .unbound stage := by
  have hin := hu.inflow
  rw [htry] at hin
  have hin' : h.arrived.map base64UrlToBytes =
      some bytes :: (framesIn s.chain).map base64UrlToBytes := hin
  unfold Stream.resume at hdrop ⊢
  simp only [htry] at hdrop ⊢
  cases hbind : StreamOpener.bind cfg.P cfg.G entry.keys.c2s .c2s bytes .frame with
  | none =>
    rw [hbind] at hdrop
    obtain ⟨hnext, hquiet⟩ := hu.tryEntry hdrop hin' hu.outflow
    refine ⟨.unbound, ?_, .stay _ _⟩
    simp only [hquiet, History.emit_nil]
    exact hnext
  | some found =>
    obtain ⟨opener, plaintext⟩ := found
    simp only [Stream.bound, hopen, Bool.false_eq_true, if_false]
    cases hfresh : FrameSealer.create cfg.P entry.keys.s2c .s2c (cfg.salt k) .frame with
    | none =>
      refine ⟨.doomed, ⟨⟨_, rfl⟩, hu.toLocal, ?_⟩, .fail _ _⟩
      simpa [Stream.await, History.emit, History.Silent] using hu.silent
    | some fresh =>
      by_cases hgate : cfg.admits = true
      · simp only [hgate, if_true]
        refine ⟨.gated entry, ⟨⟨bytes, opener, plaintext, hbind, rfl, rfl, hin'⟩,
          ⟨fresh, hfresh, rfl⟩, rfl, hu.toLocal, ?_, hu.outflow⟩, .ask htry hbind hgate⟩
        simpa [History.emit, History.Silent] using hu.silent
      · simp only [hgate, Bool.false_eq_true, if_false]
        exact ⟨.passed entry, passed_admitted hbind hfresh rfl rfl rfl hu.toLocal hu.silent hin'
          hu.outflow, .pass htry hbind (by simpa using hgate)⟩

theorem Unbound.turn (hu : Unbound h s) (hopen : s.closed = false)
    (event : StreamEvent) (hdrop : (s.turn cfg keyring (cfg.salt k) event).drop = none) :
    ∃ stage, Flow cfg k ((h.hear event).emit (s.turn cfg keyring (cfg.salt k) event).out)
        (s.turn cfg keyring (cfg.salt k) event).stream stage ∧ Advance cfg s event .unbound stage := by
  cases event with
  | line text =>
    refine ⟨.unbound, { hu with silent := ?_, inflow := ?_, outflow := ?_ }, .stay _ _⟩
    · simpa [Stream.turn, History.emit, History.hear, History.Silent] using hu.silent
    · simpa [Stream.turn, Stream.enqueue, framesIn, History.emit, History.hear] using hu.inflow
    · simp [Stream.turn, Stream.enqueue, linesIn, History.emit, History.hear, hu.outflow]
  | localOpen =>
    have hturn : s.turn cfg keyring (cfg.salt k) .localOpen =
        ⟨{ s with localOpen := true }, [], none⟩ := by
      simp [Stream.turn, Stream.opens, hopen, hu.toLocal]
    simp only [hturn, History.hear, History.emit_nil]
    exact ⟨.unbound, { hu with }, .stay _ _⟩
  | localClose =>
    simp only [Stream.turn, hopen] at hdrop
    cases hdrop
  | resume =>
    rcases hu.phase with hidle | ⟨bytes, index, entry, htry⟩
    · obtain ⟨hnext, hquiet⟩ := hu.start hidle hdrop
      refine ⟨.unbound, ?_, .stay _ _⟩
      simp only [Stream.turn, hquiet, History.hear, History.emit_nil]
      exact hnext
    · exact hu.settle hopen htry hdrop
  | answer verdict =>
    have hturn : s.answered cfg verdict = ⟨s, [], none⟩ := by
      unfold Stream.answered
      rcases hu.phase with hidle | ⟨bytes, index, entry, htry⟩
      · rw [hidle]
        simp only [Stream.await, ← hidle]
      · rw [htry]
        simp only [Stream.await, ← htry]
    simp only [Stream.turn, hturn, History.hear, History.emit_nil]
    exact ⟨.unbound, hu, .stay _ _⟩

theorem Flow.turn {stage : Stage} (hf : Flow cfg k h s stage) (hopen : s.closed = false) (event : StreamEvent)
    (hdrop : (s.turn cfg keyring (cfg.salt k) event).drop = none) :
    ∃ stage', Flow cfg k ((h.hear event).emit (s.turn cfg keyring (cfg.salt k) event).out)
        (s.turn cfg keyring (cfg.salt k) event).stream stage' ∧ Advance cfg s event stage stage' := by
  cases stage with
  | unbound => exact Unbound.turn hf hopen event hdrop
  | gated entry => exact Gated.turn hf hopen event hdrop
  | doomed => exact ⟨.doomed, Doomed.turn hf hopen event hdrop, .stay _ _⟩
  | passed entry => exact ⟨.passed entry, Passed.turn hf hopen event hdrop, .stay _ _⟩

theorem Flow.arrive {stage : Stage} (hf : Flow cfg k h s stage) (data : String) :
    Flow cfg k { h with arrived := h.arrived ++ [data] } (s.enqueue (.openFromBroker data)) stage := by
  cases stage with
  | unbound =>
    refine { hf with inflow := ?_, outflow := ?_ }
    · have hin := hf.inflow
      simp only [Stream.enqueue, framesIn_append, map_append, hin, append_assoc]
      rfl
    · have hout := hf.outflow
      simp only [Stream.enqueue, linesIn_append, hout]
      simp [linesIn]
  | gated entry =>
    obtain ⟨bytes, opener, plaintext, hbind, hopener, hawait, hin⟩ := hf.first
    refine { hf with first := ⟨bytes, opener, plaintext, hbind, hopener, hawait, ?_⟩, outflow := ?_ }
    · simp only [Stream.enqueue, framesIn_append, map_append, hin, cons_append]
      rfl
    · have hout := hf.outflow
      simp only [Stream.enqueue, linesIn_append, hout]
      simp [linesIn]
  | doomed => exact ⟨hf.phase, hf.toLocal, hf.silent⟩
  | passed entry =>
    obtain ⟨hlate, hopener, accepted, done, restIn, restOut, hc, hin, hout, hrest⟩ := hf
    refine ⟨hlate, hopener, accepted, done, restIn ++ [base64UrlToBytes data], restOut, ?_, ?_, hout, ?_⟩
    · exact { hc with }
    · simp only [map_append, hin, append_assoc]
      rfl
    · intro hne
      obtain ⟨rfl, rfl⟩ := hrest hne
      simp [Stream.enqueue, framesIn, linesIn]

theorem flow_create (id : String) : Flow cfg k History.empty (Stream.create id) .unbound :=
  ⟨rfl, rfl, rfl, rfl, ⟨rfl, rfl, rfl⟩, Or.inl rfl, rfl, rfl⟩

end
end Mtmux.Agent
