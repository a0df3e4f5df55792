import Mtmux.Agent.Admission

/-! Revocation on the tunnel: once a device's keys are removed no stream is its own, until
keys for it are added again. -/
namespace Mtmux.Agent
open Crypto Machine List

def Stream.OfDevice (s : Stream) (deviceId : String) : Prop :=
  s.peer.map (·.deviceId) = some deviceId

namespace StreamTable
variable {cfg : StreamConfig} {d : String}

def Revoked (es : List TableEvent) (d : String) : Prop :=
  ∃ before after, es = before ++ .removeSessionKeys d :: after ∧
    ∀ keys peer, .addSessionKeys keys peer ∈ after → peer.map (·.deviceId) ≠ some d

/-- While a device is revoked no open stream is its own, none is reported as bound to it
and no line of its streams is written to loopback. -/
structure RevocationFinal (cfg : StreamConfig) (es : List TableEvent) : Prop where
  gone : ∀ before after, es = before ++ after → ∀ d, Revoked before d → ∀ (k : Nat) (s : Stream),
    ((machine cfg).run before).objects[k]? = some s → s.closed = false → ¬ s.OfDevice d
  quiet : ∀ before e after, es = before ++ e :: after → ∀ d, Revoked before d → ∀ k : Nat,
    (∀ peer, .stream k (.streamBound peer) ∈ ((machine cfg).step ((machine cfg).run before) e).2 →
      peer.map (·.deviceId) ≠ some d) ∧
    ∀ (line : String) (s : Stream),
      .stream k (.localSend line) ∈ ((machine cfg).step ((machine cfg).run before) e).2 →
      ((machine cfg).run (before ++ [e])).objects[k]? = some s → ¬ s.OfDevice d

/-- A trial decryption that will succeed under a key of `d` is under way on an open stream. -/
def MidTrial (cfg : StreamConfig) (t : StreamTable) (d : String) : Prop :=
  ∃ (k : Nat) (s : Stream) (bytes : Bytes) (index : Nat) (entry : KeyringEntry),
    t.objects[k]? = some s ∧ s.closed = false ∧ s.awaiting = .bind bytes index entry ∧
    entry.deviceId = some d ∧
    StreamOpener.bind cfg.P cfg.G entry.keys.c2s .c2s bytes .frame ≠ none

def RemovesSettled (cfg : StreamConfig) (es : List TableEvent) : Prop :=
  ∀ x ∈ (machine cfg).trace es, ∀ d, x.event = .removeSessionKeys d → ¬ MidTrial cfg x.pre d

structure ClearStream (cfg : StreamConfig) (d : String) (s : Stream) : Prop where
  peer : ¬ s.OfDevice d
  trial : ∀ bytes index entry, s.awaiting = .bind bytes index entry → entry.deviceId = some d →
    StreamOpener.bind cfg.P cfg.G entry.keys.c2s .c2s bytes .frame = none
  gate : ∀ entry line, s.awaiting = .admitStream entry line → entry.deviceId ≠ some d

structure Clear (cfg : StreamConfig) (d : String) (t : StreamTable) : Prop where
  keyring : ∀ entry ∈ t.keyring, entry.deviceId ≠ some d
  streams : ∀ (k : Nat) (s : Stream), t.objects[k]? = some s → s.closed = false →
    ClearStream cfg d s

variable {s : Stream}

theorem clear_late (hpeer : ¬ s.OfDevice d) (hlate : s.awaiting.Late) : ClearStream cfg d s := by
  refine ⟨hpeer, ?_, ?_⟩
  · intro bytes index entry he
    rw [he] at hlate
    exact hlate.elim
  · intro entry line he
    rw [he] at hlate
    exact hlate.elim

variable {keyring : List KeyringEntry}

variable {entry : KeyringEntry}

theorem ClearStream.turn (h : ClearStream cfg d s)
    (hring : ∀ entry ∈ keyring, entry.deviceId ≠ some d) {salt : Bytes} (event : StreamEvent) :
    ClearStream cfg d (s.turn cfg keyring salt event).stream ∧
      ∀ peer, .streamBound peer ∈ (s.turn cfg keyring salt event).out → peer.map (·.deviceId) ≠ some d := by
  have hturns := @Stream.turn_turns cfg keyring s salt event
  generalize s.turn cfg keyring salt event = turn at hturns ⊢
  have hunder : ∀ {bytes index entry found}, s.awaiting = .bind bytes index entry →
      StreamOpener.bind cfg.P cfg.G entry.keys.c2s .c2s bytes .frame = some found → entry.deviceId ≠ some d := by
    intro bytes index entry found hawait hbind hdev
    rw [h.trial bytes index entry hawait hdev] at hbind
    cases hbind
  have htold : ∀ {entry : KeyringEntry} {line : String} {peer : Option PeerIdentity}, entry.deviceId ≠ some d →
      .streamBound peer ∈ StreamOut.streamBound entry.peer :: (if s.localOpen then [.localSend line] else []) →
      peer.map (·.deviceId) ≠ some d := by
    intro entry line peer hother hp
    rcases mem_cons.1 hp with hpeer | hp
    · cases hpeer
      exact hother
    · split at hp <;> simp at hp
  cases hturns with
  | same | hangs => exact ⟨h, fun peer hp => by cases hp⟩
  | line => exact ⟨⟨h.peer, h.trial, h.gate⟩, fun peer hp => by cases hp⟩
  | opens => exact ⟨⟨h.peer, h.trial, h.gate⟩, fun peer hp => by simp at hp⟩
  | ends => exact ⟨clear_late h.peer trivial, fun peer hp => by cases hp⟩
  | tries _ _ _ ring =>
    refine ⟨⟨h.peer, fun b i e he hdev => ?_, fun e line he => (by cases he)⟩, fun peer hp => by cases hp⟩
    cases he
    exact absurd hdev (hring _ ring)
  | rests _ _ _ late => exact ⟨clear_late h.peer late, fun peer hp => by cases hp⟩
  | asks _ _ _ trying authentic =>
    have hother := hunder trying authentic
    refine ⟨⟨hother, fun b i e he => (by cases he), fun e line he => ?_⟩, fun peer hp => by simp at hp⟩
    cases he
    exact hother
  | passes _ _ trying authentic late =>
    have hother := hunder trying authentic
    exact ⟨clear_late hother late, fun peer hp => htold hother hp⟩
  | admits _ asking late => exact ⟨clear_late h.peer late, fun peer hp => htold (h.gate _ _ asking) hp⟩
  | sends frame late =>
    refine ⟨clear_late h.peer late, fun peer hp => ?_⟩
    simp only [Stream.sendFrame] at hp
    split at hp <;> simp at hp
  | writes =>
    refine ⟨clear_late h.peer trivial, fun peer hp => ?_⟩
    dsimp only at hp
    split at hp <;> simp at hp

variable {t : StreamTable} {e : TableEvent}

/-- Only new keys put an entry into the ring. -/
theorem mem_keyring_step (h : entry ∈ (t.step cfg e).1.keyring) :
    entry ∈ t.keyring ∨ ∃ keys peer, e = .addSessionKeys keys peer ∧ entry = ⟨keys, peer⟩ := by
  cases e with
  | streamOpen id => exact Or.inl h
  | streamFrame id data =>
    simp only [step, streamFrame] at h
    split at h
    · exact Or.inl h
    · split at h
      · exact Or.inl h
      · split at h <;> exact Or.inl h
  | streamClose id =>
    rw [step, dropStream_keyring] at h
    exact Or.inl h
  | stream k event =>
    simp only [step] at h
    split at h
    · exact Or.inl h
    · rw [drive_keyring] at h
      exact Or.inl h
  | addSessionKeys keys peer =>
    have hmem : entry ∈ t.keyring ++ [⟨keys, peer⟩] := by
      simp only [step, addSessionKeys] at h
      split at h
      · exact mem_of_mem_tail h
      · exact h
    rcases mem_append.1 hmem with hold | hnew
    · exact Or.inl hold
    · exact Or.inr ⟨keys, peer, rfl, mem_singleton.1 hnew⟩
  | removeSessionKeys deviceId =>
    simp only [step, removeSessionKeys, dropStreams_keyring] at h
    exact Or.inl (mem_filter.1 h).1
  | teardownStreams =>
    simp only [step, teardownStreams, dropStreams_keyring] at h
    exact Or.inl h

/-- What a clear agent does leaves it clear while `d` gets no new keys. -/
theorem Clear.step (h : Clear cfg d t) (ht : t.Mapped)
    (hadd : ∀ keys peer, e = .addSessionKeys keys peer → peer.map (·.deviceId) ≠ some d) :
    Clear cfg d (t.step cfg e).1 ∧ ∀ k peer, .stream k (.streamBound peer) ∈ (t.step cfg e).2 →
        peer.map (·.deviceId) ≠ some d := by
  have hobject : ∀ k, (∀ s, (t.step cfg e).1.objects[k]? = some s → s.closed = false →
      ClearStream cfg d s) ∧ ∀ peer, .streamBound peer ∈ outOf k (t.step cfg e).2 →
        peer.map (·.deviceId) ≠ some d := by
    intro k
    have heff := @step_effect cfg t ht e k
    generalize (t.step cfg e).1.objects[k]? = obj at heff ⊢
    generalize outOf k (t.step cfg e).2 = out at heff ⊢
    cases heff with
    | kept hidle => exact ⟨h.streams k, fun peer hp => by cases hp⟩
    | closed hidle was =>
      refine ⟨fun s hs hopen => ?_, fun peer hp => by cases hp⟩
      cases hs
      cases hopen
    | created hk =>
      refine ⟨fun s hs hopen => ?_, fun peer hp => by cases hp⟩
      cases hs
      exact clear_late (by simp [Stream.OfDevice, Stream.create]) trivial
    | arrived hid was isOpen =>
      refine ⟨fun s hs hopen => ?_, fun peer hp => by cases hp⟩
      cases hs
      have hs := h.streams k _ was isOpen
      exact ⟨hs.peer, hs.trial, hs.gate⟩
    | @ran event s was stays =>
      refine ⟨fun s' hs hopen => ?_, fun peer hp => ?_⟩
      · cases hs
        rw [(Stream.keeps_turn _ _ _).closed] at hopen
        exact ((h.streams k s was hopen).turn h.keyring event).1
      · by_cases hclosed : s.closed = true
        · rw [Stream.out_turn_closed hclosed] at hp
          cases hp
        · exact ((h.streams k s was (by simpa using hclosed)).turn h.keyring event).2 peer hp
    | ended was registered drops =>
      refine ⟨fun s' hs hopen => ?_, fun peer hp => ?_⟩
      · cases hs
        cases hopen
      · rw [Stream.out_turn_dropped drops] at hp
        cases hp
  refine ⟨⟨fun entry hentry => ?_, fun k s hs => (hobject k).1 s hs⟩, fun k peer hp => ?_⟩
  · rcases mem_keyring_step hentry with hold | ⟨keys, peer, he, rfl⟩
    · exact h.keyring entry hold
    · exact hadd keys peer he
  · exact (hobject k).2 peer (mem_outOf.2 hp)

theorem clear_remove (ht : t.Mapped) (hw : t.Wired) (hno : ¬ MidTrial cfg t d)
    (hgate : ∀ (k : Nat) (s : Stream) (entry : KeyringEntry) (line : String),
      t.objects[k]? = some s → s.closed = false → s.awaiting = .admitStream entry line → s.peer = entry.peer) :
    Clear cfg d (t.removeSessionKeys d).1 := by
  have hfilter : Mapped { t with
      keyring := t.keyring.filter fun entry => entry.deviceId ≠ some d } := ht
  constructor
  · intro entry hentry
    simp only [removeSessionKeys, dropStreams_keyring] at hentry
    simpa using (mem_filter.1 hentry).2
  · intro k s hs hopen
    simp only [removeSessionKeys, dropStreams_object hfilter] at hs
    split at hs
    · obtain ⟨s', -, rfl⟩ := Option.map_eq_some_iff.1 hs
      cases hopen
    · rename_i hkept
      have hget := hw k s hs hopen
      have hpeer : ¬ s.OfDevice d := by
        intro hdev
        refine hkept ⟨s.streamId, ?_, hget⟩
        refine mem_map.2 ⟨(s.streamId, k), mem_filter.2 ⟨(t.streams.get_eq_some _ _).1 hget, ?_⟩,
          rfl⟩
        have hdev' : s.peer.map (·.deviceId) = some d := hdev
        simpa [hs] using hdev'
      refine ⟨hpeer, ?_, ?_⟩
      · intro bytes index entry hawait hdev
        by_contra hbind
        exact hno ⟨k, s, bytes, index, entry, hs, hopen, hawait, hdev, hbind⟩
      · intro entry line hawait hdev
        refine hpeer ?_
        rw [Stream.OfDevice, hgate k s entry line hs hopen hawait]
        exact hdev

variable {es : List TableEvent}

theorem peer_at_gate (hes : OpensOnce cfg es) {k : Nat} (hs : ((machine cfg).run es).objects[k]? = some s)
    (hopen : s.closed = false) (hawait : s.awaiting = .admitStream entry line) : s.peer = entry.peer := by
  obtain ⟨stage, hflow, -⟩ := (run_flow hes k).2 s hs hopen
  cases stage with
  | unbound =>
    rcases hflow.phase with hidle | ⟨bytes, index, entry', htry⟩
    · rw [hidle] at hawait
      cases hawait
    · rw [htry] at hawait
      cases hawait
  | gated entry' =>
    obtain ⟨bytes, opener, plaintext, -, -, hgate, -⟩ := hflow.first
    rw [hgate] at hawait
    cases hawait
    exact hflow.peer
  | doomed =>
    obtain ⟨reason, hcaught⟩ := hflow.phase
    rw [hcaught] at hawait
    cases hawait
  | passed entry' =>
    have hlate := hflow.late
    rw [hawait] at hlate
    exact hlate.elim

theorem Revoked.init (h : Revoked (es ++ [e]) d) : e = .removeSessionKeys d ∨
      Revoked es d ∧ ∀ keys peer, e = .addSessionKeys keys peer → peer.map (·.deviceId) ≠ some d := by
  obtain ⟨before, after, hes, hadd⟩ := h
  rcases eq_nil_or_concat after with rfl | ⟨rest, last, rfl⟩
  · obtain ⟨-, he⟩ := append_inj' hes rfl
    exact Or.inl (singleton_inj.1 he)
  · have hes' : es ++ [e] = (before ++ .removeSessionKeys d :: rest) ++ [last] := by simpa using hes
    obtain ⟨rfl, he⟩ := append_inj' hes' rfl
    have he' := singleton_inj.1 he
    subst he'
    refine Or.inr ⟨⟨before, rest, rfl, fun keys peer hmem => ?_⟩, fun keys peer hlast => ?_⟩
    · exact hadd keys peer (by simp [hmem])
    · exact hadd keys peer (by simp [hlast])

theorem RemovesSettled.init (h : RemovesSettled cfg (es ++ [e])) : RemovesSettled cfg es ∧
      ∀ d, e = .removeSessionKeys d → ¬ MidTrial cfg ((machine cfg).run es) d :=
  ⟨fun x hx => h x (mem_trace_init hx), fun d he => h _ mem_trace_snoc d he⟩

theorem run_clear (hes : OpensOnce cfg es) (hset : RemovesSettled cfg es)
    (h : Revoked es d) : Clear cfg d ((machine cfg).run es) := by
  induction es using List.reverseRecOn with
  | nil =>
    obtain ⟨before, after, he, -⟩ := h
    simp at he
  | append_singleton es e ih =>
    obtain ⟨hinit, -⟩ := hes.init
    obtain ⟨hsetinit, hlast⟩ := hset.init
    rw [run_snoc]
    rcases h.init with rfl | ⟨hrev, hadd⟩
    · exact clear_remove (run_mapped cfg es) (run_wired hinit) (hlast d rfl)
        fun k s entry line hs hopen hawait => peer_at_gate hinit hs hopen hawait
    · exact ((ih hinit hsetinit hrev).step (run_mapped cfg es) hadd).1

theorem RemovesSettled.take {before after : List TableEvent} (h : RemovesSettled cfg es)
    (hes : es = before ++ after) : RemovesSettled cfg before :=
  forall_trace_before h hes

/-- Revocation is final in a run that opens no id twice at a time and removes no keys in the
middle of a trial decryption under them. -/
theorem revocation_final (cfg : StreamConfig) (es : List TableEvent) (hes : OpensOnce cfg es)
    (hset : RemovesSettled cfg es) : RevocationFinal cfg es := by
  constructor
  · intro before after hsplit d hrev k s hs hopen
    exact ((run_clear (hes.take hsplit) (hset.take hsplit) hrev).streams k s hs hopen).peer
  · intro before e after hsplit d hrev k
    have hbefore := run_clear (hes.take hsplit) (hset.take hsplit) hrev
    have hnext : OpensOnce cfg (before ++ [e]) := hes.take (by simpa using hsplit)
    by_cases hadd : ∃ keys peer, e = .addSessionKeys keys peer
    · obtain ⟨keys, peer, rfl⟩ := hadd
      have hout : ((machine cfg).step ((machine cfg).run before) (.addSessionKeys keys peer)).2 =
          [] := rfl
      rw [hout]
      exact ⟨fun peer hp => (by cases hp), fun line s hp => by cases hp⟩
    · obtain ⟨hclear, hbound⟩ := hbefore.step (run_mapped cfg before)
        (fun keys peer he => absurd ⟨keys, peer, he⟩ hadd)
      refine ⟨hbound k, fun line s hp hs => ?_⟩
      obtain ⟨s', entry, hs', hopen, -⟩ := passed_of_speaking hnext (mem_outOf.2 hp) rfl
      rw [hs] at hs'
      cases hs'
      rw [run_snoc] at hs
      exact (hclear.streams k s hs hopen).peer

/-- Device `d` is removed once its stream is bound, and while it is at the gate. -/
def removedAtGate : List TableEvent := asking ++ [.removeSessionKeys "d", .stream 0 .resume]

theorem revocation_final_removedAtGate : RevocationFinal sample removedAtGate := by
  refine revocation_final sample removedAtGate (by decide +kernel) ?_
  have hsettled : ∀ x ∈ (machine sample).trace removedAtGate,
      (match x.event with | .removeSessionKeys _ => true | _ => false) = true →
      (x.pre.objects.all fun s => match s.awaiting with | .bind _ _ _ => false | _ => true) = true := by
    decide +kernel
  intro x hx d he hmid
  obtain ⟨k, s, bytes, index, entry, hs, -, hawait, -⟩ := hmid
  have hall := hsettled x hx (by rw [he])
  have hidle := all_eq_true.1 hall s (mem_of_getElem? hs)
  rw [hawait] at hidle
  cases hidle

def removedInTrial : List TableEvent :=
  [.addSessionKeys sampleKeys (some samplePeer), .streamOpen "a",
    .streamFrame "a" (sampleFrame 0 104), .stream 0 .resume, .removeSessionKeys "d",
    .stream 0 .resume]

/-- The trial ends, and the stream is the removed device's. -/
theorem bound_after_removal : ¬ RevocationFinal sample removedInTrial := by
  intro h
  have hobj : (((machine sample).run removedInTrial).objects[0]?.map fun s =>
      (s.closed, s.peer)) = some (false, some samplePeer) := by decide +kernel
  obtain ⟨s, hs, hfields⟩ := Option.map_eq_some_iff.1 hobj
  have hopen : s.closed = false := congrArg Prod.fst hfields
  have hpeer : s.peer = some samplePeer := congrArg Prod.snd hfields
  refine h.gone removedInTrial [] (append_nil _).symm "d" ?_ 0 s hs hopen ?_
  · exact ⟨removedInTrial.take 4, [.stream 0 .resume], rfl, fun keys peer hmem => by simp at hmem⟩
  · rw [Stream.OfDevice, hpeer]
    rfl

end StreamTable
end Mtmux.Agent
