import Mtmux.Agent.Admission

/-! An admitted stream keeps the order of its lines and loses none, in both directions. -/
namespace Mtmux.Agent
open Crypto List Option

def Stream.Drained (s : Stream) : Prop := s.awaiting = .nothing ∧ s.chain = []

/-- What an admitted stream has done with the frames of the browser and the lines of the
relay: the lines on loopback are the plaintexts of a first part of the frames, the frames
sent are a first part of the lines, numbered from 0, and the browser opens all of them.
Once the chain is drained both parts are everything. -/
structure Faithful (cfg : StreamConfig) (k : Nat) (h : History) (s : Stream)
    (entry : KeyringEntry) : Prop where
  inward : ∃ frames plaintexts opener,
    frames.map some <+: h.arrived.map base64UrlToBytes ∧
    StreamOpener.receiveAll cfg.P cfg.G entry.keys.c2s .c2s none frames = some (opener, plaintexts) ∧
    h.wrote ++ s.toLocal = plaintexts.map cfg.decode ∧
    (s.Drained → frames.length = h.arrived.length)
  flushed : s.localOpen = true → s.toLocal = []
  outward : ∃ lines sealer frames opener,
    lines <+: h.relayed ∧
    FrameSealer.create cfg.P entry.keys.s2c .s2c (cfg.salt k) .frame = some sealer ∧
    frames = (lines.mapIdx fun i line => sealer.frameAt cfg.G i (utf8ToBytes line)) ∧
    h.sent = frames.map bytesToBase64Url ∧
    StreamOpener.receiveAll cfg.P cfg.G entry.keys.s2c .s2c none frames =
      some (opener, lines.map utf8ToBytes) ∧
    (s.Drained → lines = h.relayed)

theorem sent_part {α β : Type} {f : Nat → α → β} {done : List α} {sent flying : List β}
    (h : sent ++ flying = done.mapIdx f) : sent = (done.take sent.length).mapIdx f := by
  have hlen := congrArg List.length h
  rw [length_append, length_mapIdx] at hlen
  rw [← take_append_drop sent.length done, mapIdx_append] at h
  refine (append_inj h ?_).1
  rw [length_mapIdx, length_take]
  omega

theorem map_mapIdx {α β γ : Type} (g : β → γ) (f : Nat → α → β) (l : List α) :
    (l.mapIdx f).map g = l.mapIdx fun i a => g (f i a) := by
  refine ext_getElem? fun i => ?_
  simp [Function.comp_def]

theorem mapIdx_map {α β γ : Type} (f : Nat → β → γ) (g : α → β) (l : List α) :
    (l.map g).mapIdx f = l.mapIdx fun i a => f i (g a) := by
  refine ext_getElem? fun i => ?_
  simp [Function.comp_def]

theorem Passed.faithful {cfg : StreamConfig} {k : Nat} {entry : KeyringEntry} {h : History}
    {s : Stream} (hG : cfg.G.Lawful) (hp : Passed cfg k entry h s) : Faithful cfg k h s entry := by
  obtain ⟨hlate, -, accepted, done, restIn, restOut, hc, hin, hout, hrest⟩ := hp
  obtain ⟨plaintexts, hrec, hwrote⟩ := hc.received
  obtain ⟨fresh, hfresh, hsealer, hsent⟩ := hc.sealing
  have hcaught : s.Drained → ∀ reason, s.awaiting ≠ .caught reason := by
    rintro ⟨hidle, -⟩ reason
    rw [hidle]
    simp
  refine ⟨⟨accepted, plaintexts, s.opener, ⟨restIn, hin.symm⟩, hrec, hwrote, ?_⟩, hc.local_open, ?_⟩
  · intro hdrained
    obtain ⟨rfl, -⟩ := hrest (hcaught hdrained)
    have hlen := congrArg List.length hin
    simpa [hdrained.1, hdrained.2, Awaiting.opening, framesIn] using hlen.symm
  · have hpart := sent_part hsent
    have hbound : (done.take h.sent.length).length ≤ maxCounter + 1 :=
      le_trans (length_take_le' _ _) hc.bounded
    obtain ⟨opener, hopen⟩ := StreamOpener.receiveAll_sealed hG hfresh
      ((done.take h.sent.length).map utf8ToBytes) (by rwa [length_map])
    have hframes : ((done.take h.sent.length).map utf8ToBytes).mapIdx
        (fun i p => fresh.frameAt cfg.G i p) =
        (done.take h.sent.length).mapIdx fun i line => fresh.frameAt cfg.G i (utf8ToBytes line) :=
      mapIdx_map _ _ _
    rw [hframes] at hopen
    refine ⟨done.take h.sent.length, fresh, _, opener, ?_, hfresh, rfl, ?_, hopen, ?_⟩
    · rw [hout]
      exact ( take_prefix _ _).trans (prefix_append _ _)
    · rw [map_mapIdx]
      exact hpart
    · intro hdrained
      obtain ⟨-, rfl⟩ := hrest (hcaught hdrained)
      have hall : done.take h.sent.length = done := by
        refine take_of_length_le ?_
        have hlen := congrArg List.length hsent
        simp only [hdrained.1, Awaiting.flying, map_nil, append_nil,
          length_mapIdx] at hlen
        omega
      rw [hall, hout]
      simp [hdrained.1, hdrained.2, Awaiting.held, linesIn]

/- The chain of a stream that is through runs dry. -/

def Awaiting.work : Awaiting → Nat
  | .nothing => 0
  | .bind _ _ _ => 0
  | .admitStream _ _ => 0
  | .flushSeal _ held => 2 * held.length + 2
  | .flush held => 2 * held.length + 1
  | .sealed _ => 1
  | .opened _ _ => 1
  | .caught _ => 1

def Stream.work (s : Stream) : Nat := 2 * s.chain.length + s.awaiting.work

namespace StreamTable
variable {cfg : StreamConfig}

theorem work_beginSeal {s : Stream} {line reason : String} {whenSealed : Bytes → Awaiting}
    {whenHeld : Awaiting} {n : Nat} (hn : 1 ≤ n) (hsealed : ∀ b, (whenSealed b).work ≤ n) (hheld : whenHeld.work ≤ n) :
    (s.beginSeal cfg line reason whenSealed whenHeld).stream.work ≤ 2 * s.chain.length + n := by
  unfold Stream.beginSeal
  split
  · exact Nat.add_le_add_left hheld _
  · split
    · exact Nat.add_le_add_left hn _
    · exact Nat.add_le_add_left (hsealed _) _

theorem work_resume {s : Stream} (h : Through s) (hbusy : ¬ s.Drained) {keyring : List KeyringEntry} {salt : Bytes} :
    (s.resume cfg keyring salt).stream.work < s.work := by
  obtain ⟨ho, hlate⟩ := h
  obtain ⟨streamId, opener, sealer, peer, chain, awaiting, localOpen, toLocal, toBroker, closed⟩ := s
  cases awaiting with
  | nothing =>
    cases chain with
    | nil => exact absurd ⟨rfl, rfl⟩ hbusy
    | cons task chain =>
      have hw : Stream.work ⟨streamId, opener, sealer, peer, task :: chain, .nothing, localOpen,
          toLocal, toBroker, closed⟩ = 2 * chain.length + 2 := by
        simp [Stream.work, Awaiting.work]
        omega
      rw [hw]
      cases task with
      | openFromBroker data =>
        simp only [Stream.resume, Stream.openFromBroker]
        split
        · simp [Stream.work, Awaiting.work]
        · split
          · exact absurd rfl ho
          · simp [Stream.await, Stream.work, Awaiting.work]
      | sealToBroker line =>
        have hle := @work_beginSeal cfg ⟨streamId, opener, sealer, peer, chain, .nothing, localOpen,
          toLocal, toBroker, closed⟩ line "seal failed" .sealed .nothing 1 (by omega)
          (fun _ => le_rfl) (by simp [Awaiting.work])
        simp only [Stream.resume, Stream.sealToBroker]
        simp only at hle
        omega
  | bind _ _ _ | admitStream _ _ => exact hlate.elim
  | flush held =>
    cases held with
    | nil => simp [Stream.resume, Stream.flush, Stream.await, Stream.work, Awaiting.work]
    | cons line held =>
      have hle := @work_beginSeal cfg ⟨streamId, opener, sealer, peer, chain, .flush (line :: held),
        localOpen, toLocal, toBroker, closed⟩ line "open failed" (.flushSeal · held) (.flush held)
        (2 * held.length + 2) (by omega) (fun _ => le_rfl) (by simp [Awaiting.work])
      simp only [Stream.resume, Stream.flush]
      simp only at hle
      have hw : Stream.work ⟨streamId, opener, sealer, peer, chain, .flush (line :: held), localOpen,
          toLocal, toBroker, closed⟩ = 2 * chain.length + (2 * (held.length + 1) + 1) := rfl
      rw [hw]
      omega
  | opened opener' bytes =>
    simp only [Stream.resume, Stream.opened]
    split
    · simp [Stream.work, Awaiting.work]
    · split
      · simp [Stream.await, Stream.work, Awaiting.work]
      · rw [Stream.writeLocal_eq]
        simp [Stream.work, Awaiting.work]
  | _ => simp [Stream.resume, Stream.work, Awaiting.work]

theorem drains {es : List TableEvent} {k : Nat} {s : Stream}
    (hs : ((machine cfg).run es).objects[k]? = some s) (h : Through s) :
    ∃ n s', ((machine cfg).run (es ++ List.replicate n (.stream k .resume))).objects[k]? = some s' ∧ s'.Drained := by
  generalize hw : s.work = w
  induction w using Nat.strongRecOn generalizing es s with
  | ind w ih =>
    by_cases hdone : s.Drained
    · exact ⟨0, s, by simpa using hs, hdone⟩
    · have hstep : ∃ s₁, ((machine cfg).run (es ++ [.stream k .resume])).objects[k]? = some s₁ ∧
          Through s₁ ∧ s₁.work < w := by
        have heff := @step_effect cfg _ (run_mapped cfg es) (.stream k .resume) k
        have hlt := (List.getElem?_eq_some_iff.1 hs).1
        have hless := @work_resume cfg s h hdone ((machine cfg).run es).keyring (cfg.salt k)
        have hthrough : Through (s.turn cfg ((machine cfg).run es).keyring (cfg.salt k) .resume).stream :=
          through_turn h .resume
        rw [hw] at hless
        rw [Machine.run_snoc]
        have hgoal : ∃ s₁, (((machine cfg).run es).step cfg (.stream k .resume)).1.objects[k]? =
            some s₁ ∧ Through s₁ ∧ s₁.work < w := by
          generalize (((machine cfg).run es).step cfg (.stream k .resume)).1.objects[k]? = obj
            at heff ⊢
          generalize outOf k (((machine cfg).run es).step cfg (.stream k .resume)).2 = out at heff
          cases heff with
          | kept hidle => exact absurd (Or.inl ⟨hlt, .resume, rfl⟩) hidle
          | closed hidle was => exact absurd (Or.inl ⟨hlt, .resume, rfl⟩) hidle
          | ran was stays =>
            rw [hs] at was
            cases was
            exact ⟨_, rfl, hthrough, hless⟩
          | ended was registered drops =>
            rw [hs] at was
            cases was
            exact ⟨_, rfl, hthrough, hless⟩
        exact hgoal
      obtain ⟨s₁, hs₁, hthrough, hless⟩ := hstep
      obtain ⟨n, s', hs', hdrained⟩ := ih _ hless hs₁ hthrough rfl
      refine ⟨n + 1, s', ?_, hdrained⟩
      rw [append_assoc] at hs'
      exact hs'

theorem passed_of_bound {es : List TableEvent} (hes : OpensOnce cfg es) {k : Nat} {s : Stream}
    (hs : ((machine cfg).run es).objects[k]? = some s) (hopen : s.closed = false)
    (hbound : (history cfg es k).bound ≠ []) : ∃ entry, Passed cfg k entry (history cfg es k) s := by
  obtain ⟨stage, hflow, -⟩ := (run_flow hes k).2 s hs hopen
  rcases silent_or_passed hflow with hsilent | ⟨entry, rfl⟩
  · exact absurd hsilent.2.2 hbound
  · exact ⟨entry, hflow⟩

/-- Every stream that is admitted and open carries its lines, and its chain runs dry. -/
def Carries (cfg : StreamConfig) (es : List TableEvent) : Prop :=
  ∀ k s, ((machine cfg).run es).objects[k]? = some s → s.closed = false →
    (history cfg es k).bound ≠ [] →
    (∃ entry, Faithful cfg k (history cfg es k) s entry) ∧
    ∃ n s', ((machine cfg).run (es ++ List.replicate n (.stream k .resume))).objects[k]? = some s' ∧
      s'.Drained

/-- In a run that opens no id twice at a time, admitted streams keep order and lose nothing. -/
theorem lines_in_order (cfg : StreamConfig) (hG : cfg.G.Lawful) (es : List TableEvent)
    (h : OpensOnce cfg es) : Carries cfg es := by
  intro k s hs hopen hbound
  obtain ⟨entry, hp⟩ := passed_of_bound h hs hopen hbound
  exact ⟨⟨entry, hp.faithful hG⟩, drains hs (through_of_passed hp)⟩

theorem plainGcm_lawful : plainGcm.Lawful := by
  constructor
  · intro key iv data
    have hlen : (data ++ List.replicate tagBytes (key.headD 0)).length - tagBytes = data.length := by
      simp
    simp only [plainGcm]
    rw [hlen, drop_left, take_left, if_pos rfl]
  · intro key iv data
    simp [plainGcm]

theorem lines_in_order_admitted : Carries sample (asking ++ [.stream 0 (.answer (some true))]) :=
  lines_in_order sample plainGcm_lawful _ (by decide +kernel)

/-- Stream `a` is admitted, three frames of its browser wait, the last two in the wrong
order, and the id is opened again. -/
def reordered : List TableEvent :=
  [.addSessionKeys sampleKeys (some samplePeer), .streamOpen "a",
    .streamFrame "a" (sampleFrame 0 104), .streamFrame "a" (sampleFrame 2 105),
    .streamFrame "a" (sampleFrame 1 106), .streamOpen "a",
    .stream 0 .localOpen, .stream 0 .resume, .stream 0 .resume, .stream 0 (.answer (some true)),
    .stream 0 .resume, .stream 0 .resume, .stream 0 .resume, .stream 0 .resume]

theorem openFrame_counter {G : Gcm} {o o' : FrameOpener} {frame plaintext : Bytes}
    (h : o.openFrame G frame = some (o', plaintext)) :
    o'.highest = some (readCounter frame) ∧ ∀ n ∈ o.highest, n < readCounter frame := by
  unfold FrameOpener.openFrame at h
  split at h
  · cases h
  · split at h
    · cases h
    · rename_i hnew
      obtain ⟨opened, -, he⟩ := map_eq_some_iff.1 h
      cases he
      refine ⟨rfl, fun n hn => ?_⟩
      by_contra hle
      exact hnew ⟨n, hn, by omega⟩

theorem decode_sampleFrame (counter : Nat) (byte : UInt8) :
    base64UrlToBytes (sampleFrame counter byte) = some (sampleBytes counter byte) :=
  base64UrlToBytes_bytesToBase64Url _

/-- The frame in the wrong order is dropped without a word: the stream stays open. -/
theorem frame_lost_on_replaced_stream : ¬ Carries sample reordered := by
  intro h
  have hobj : (((machine sample).run reordered).objects[0]?.map fun s =>
      (s.closed, s.awaiting, s.chain)) = some (false, .nothing, []) := by decide +kernel
  obtain ⟨s, hs, hfields⟩ := map_eq_some_iff.1 hobj
  have hopen : s.closed = false := congrArg Prod.fst hfields
  have hdrained : s.Drained :=
    ⟨congrArg (fun p => p.2.1) hfields, congrArg (fun p => p.2.2) hfields⟩
  obtain ⟨⟨entry, hfaith⟩, -⟩ := h 0 s hs hopen (by decide +kernel)
  obtain ⟨frames, plaintexts, opener, ⟨rest, hin⟩, hrec, -, hall⟩ := hfaith.inward
  have harr : (history sample reordered 0).arrived =
      [sampleFrame 0 104, sampleFrame 2 105, sampleFrame 1 106] := by decide +kernel
  have hlen := hall hdrained
  rw [harr] at hin hlen
  simp only [map_cons, map_nil, decode_sampleFrame] at hin
  match frames, hlen with
  | [f₀, f₂, f₁], _ =>
    simp only [map_cons, map_nil, cons_append, nil_append, List.cons.injEq,
      Option.some.injEq] at hin
    obtain ⟨rfl, rfl, rfl, -⟩ := hin
    simp only [StreamOpener.receiveAll, StreamOpener.receive] at hrec
    obtain ⟨⟨o₁, p₁⟩, -, hrec⟩ := bind_eq_some_iff.1 hrec
    obtain ⟨⟨o, ps⟩, hrec, -⟩ := bind_eq_some_iff.1 hrec
    obtain ⟨⟨o₂, p₂⟩, hsecond, hrec⟩ := bind_eq_some_iff.1 hrec
    obtain ⟨⟨o, ps⟩, hrec, -⟩ := bind_eq_some_iff.1 hrec
    obtain ⟨⟨o₃, p₃⟩, hthird, -⟩ := bind_eq_some_iff.1 hrec
    have hlast := (openFrame_counter hthird).2 _ (openFrame_counter hsecond).1
    revert hlast
    decide

end StreamTable
end Mtmux.Agent
