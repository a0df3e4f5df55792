import Mtmux.Browser.TransportCalls

/-! A broker that forwards the frames of one stream and then its close: if the close finds the inbound
chain empty, every line comes before `onClose`. -/
namespace Mtmux.Browser
open Crypto Protocol Machine List

/-- All that the browser of a stream is told of it. -/
def script (sid : String) (datas : List String) (reason : Option String) : List TunnelServerMessage :=
  (.streamOpen sid :: datas.map (TunnelServerMessage.streamFrame sid)) ++ [.streamClose sid reason]

def receivedOf (es : List TransportEvent) : List TunnelServerMessage :=
  es.filterMap fun | .receives msg => some msg | _ => none

def isClose : TunnelServerMessage → Bool
  | .streamClose _ _ => true
  | _ => false

/-- The inbound chain has nothing to do. -/
def SealedTransport.Idle (s : SealedTransport) : Prop := s.inbound = [] ∧ s.opening = none

instance (s : SealedTransport) : Decidable s.Idle := inferInstanceAs (Decidable (_ ∧ _))

/-- The socket stays, the owner does nothing but send, and a close finds the chain empty. -/
def Patient (s : SealedTransport) : TransportEvent → Prop
  | .receives msg => s.ws ≠ some .connecting ∧ (isClose msg = true → s.Idle)
  | .settles closes throws => closes = false ∧ throws = false
  | .socketCloses | .close => False
  | _ => True

def dataOf (msgs : List TunnelServerMessage) : List String :=
  msgs.filterMap fun | .streamFrame _ data => some data | _ => none

theorem dataOf_append (a b : List TunnelServerMessage) : dataOf (a ++ b) = dataOf a ++ dataOf b :=
  filterMap_append

theorem dataOf_frames (sid : String) (datas : List String) :
    dataOf (datas.map (TunnelServerMessage.streamFrame sid)) = datas := by
  induction datas with
  | nil => rfl
  | cons data datas ih => simp [dataOf]

variable {sid : String} {datas : List String} {msg : TunnelServerMessage}

theorem script_next {reason : Option String} {received : List TunnelServerMessage}
    (h : received ++ [msg] <+: script sid datas reason) :
    (received = .streamOpen sid :: datas.map (TunnelServerMessage.streamFrame sid) ∧ msg = .streamClose sid reason) ∨
    received ++ [msg] <+: .streamOpen sid :: datas.map (TunnelServerMessage.streamFrame sid) := by
  obtain ⟨tail, htail⟩ := h
  cases eq_nil_or_concat tail with
  | inl hnil =>
    rw [hnil, append_nil, script] at htail
    obtain ⟨hreceived, hmsg⟩ := append_inj' htail rfl
    exact Or.inl ⟨hreceived, singleton_inj.1 hmsg⟩
  | inr hmore =>
    obtain ⟨rest, last, rfl⟩ := hmore
    rw [concat_eq_append, ← append_assoc, script] at htail
    exact Or.inr ⟨rest, (append_inj' htail rfl).1⟩

theorem script_open (h : msg ∈ TunnelServerMessage.streamOpen sid :: datas.map (TunnelServerMessage.streamFrame sid)) :
    msg = .streamOpen sid ∨ ∃ data, msg = .streamFrame sid data := by
  cases mem_cons.1 h with
  | inl hopen => exact Or.inl hopen
  | inr hframe =>
    obtain ⟨data, -, rfl⟩ := mem_map.1 hframe
    exact Or.inr ⟨data, rfl⟩

section
variable {cfg : TransportConfig} {frames plaintexts : List Bytes} {opener : Option FrameOpener}

theorem receiveAll_part
    (hall : StreamOpener.receiveAll cfg.P cfg.G cfg.keys.s2c .s2c none frames = some (opener, plaintexts))
    {accepted more : List Bytes} (hframes : frames = accepted ++ more) {o : Option FrameOpener} {part : List Bytes}
    (hpart : StreamOpener.receiveAll cfg.P cfg.G cfg.keys.s2c .s2c none accepted = some (o, part)) :
    part <+: plaintexts ∧ (more = [] → part = plaintexts) ∧ ∀ bytes rest, more = bytes :: rest →
        StreamOpener.receive cfg.P cfg.G cfg.keys.s2c .s2c o bytes ≠ none := by
  rw [hframes, StreamOpener.receiveAll_append hpart, Option.map_eq_some_iff] at hall
  obtain ⟨⟨o', later⟩, hlater, he⟩ := hall
  obtain ⟨-, rfl⟩ := Prod.mk.inj he
  refine ⟨prefix_append _ _, ?_, ?_⟩
  · rintro rfl
    cases hlater
    exact (append_nil _).symm
  · rintro bytes rest rfl hnone
    rw [StreamOpener.receiveAll, hnone] at hlater
    cases hlater

theorem split_accepted {datas heard : List String} (hdatas : datas.map base64UrlToBytes = frames.map some)
    (hheard : heard <+: datas) {accepted : List Bytes} {rest : List (Option Bytes)}
    (hin : heard.map base64UrlToBytes = accepted.map some ++ rest) :
    ∃ more, frames = accepted ++ more ∧ rest <+: more.map some := by
  obtain ⟨tail, rfl⟩ := hheard
  rw [map_append, hin, append_assoc] at hdatas
  obtain ⟨first, more, rfl, hfirst, hmore⟩ := map_eq_append_iff.1 hdatas.symm
  have hsame : first = accepted := map_injective_iff.2 (fun _ _ => Option.some.inj) hfirst
  subst hsame
  exact ⟨more, rfl, tail.map base64UrlToBytes, hmore.symm⟩

structure Attached (sid : String) (datas : List String) (received : List TunnelServerMessage)
    (s : SealedTransport) (outs : List TransportOutput) : Prop where
  part : received <+: .streamOpen sid :: datas.map (TunnelServerMessage.streamFrame sid)
  live : s.detached = false
  socket : s.ws = some .connecting ∧ received = [] ∨ s.ws = some .isOpen
  heard : heardOf outs = dataOf received
  unended : .onClose ∉ outs

/-- After it every line has been handed on, and then `onClose` was called. -/
structure Finished (cfg : TransportConfig) (script received : List TunnelServerMessage)
    (plaintexts : List Bytes) (s : SealedTransport) (outs : List TransportOutput) : Prop where
  all : received = script
  gone : s.detached = true
  idle : s.Idle
  told : .onClose ∈ outs
  before : textsOf (outs.takeWhile (· ≠ .onClose)) = plaintexts.map cfg.decode
  texts : textsOf outs = plaintexts.map cfg.decode

variable {sid : String} {datas : List String} {reason : Option String}
  {received : List TunnelServerMessage} {s : SealedTransport} {outs : List TransportOutput}

section
variable (h : Attached sid datas received s outs)
include h

theorem Attached.heard_part : heardOf outs <+: datas := by
  rw [h.heard]
  have hpart : dataOf received <+: dataOf (.streamOpen sid ::
      datas.map (TunnelServerMessage.streamFrame sid)) := h.part.filterMap _
  have hall : dataOf (.streamOpen sid :: datas.map (TunnelServerMessage.streamFrame sid)) = datas :=
    dataOf_frames sid datas
  rwa [hall] at hpart

/-- Nothing but turns of the send side. -/
theorem Attached.same {s' : SealedTransport} {out : List TransportOutput}
    (hsame : SealedTransport.SameEnds s s')
    (hout : ∀ o ∈ out, ∃ streamId data, o = .put streamId data) : Attached sid datas received s' (outs ++ out) := by
  refine ⟨h.part, hsame.detached.trans h.live, ?_, ?_, ?_⟩
  · rw [hsame.ws]
    exact h.socket
  · have hnone : heardOf out = [] := by
      rw [heardOf, filterMap_eq_nil_iff]
      intro o ho
      obtain ⟨streamId, data, rfl⟩ := hout o ho
      rfl
    rw [heardOf_append, hnone, append_nil, h.heard]
  · rw [mem_append, not_or]
    refine ⟨h.unended, fun hmem => ?_⟩
    obtain ⟨streamId, data, he⟩ := hout _ hmem
    cases he

theorem Attached.receives {msg : TunnelServerMessage}
    (hws : s.ws ≠ some .connecting)
    (hpart : received ++ [msg] <+: .streamOpen sid :: datas.map (TunnelServerMessage.streamFrame sid)) :
    Attached sid datas (received ++ [msg]) (s.step cfg (.receives msg)).1 (outs ++ (s.step cfg (.receives msg)).2) := by
  have hopen : s.ws = some .isOpen := by
    cases h.socket with
    | inl hconnecting => exact absurd hconnecting.1 hws
    | inr hopen => exact hopen
  have hstep : s.step cfg (.receives msg) = s.onMessage msg := by
    simp [SealedTransport.step, h.live, hopen]
  have hmem : msg ∈ TunnelServerMessage.streamOpen sid ::
      datas.map (TunnelServerMessage.streamFrame sid) := hpart.subset (by simp)
  rw [hstep]
  cases script_open hmem with
  | inl hfirst =>
    subst hfirst
    have hsame := SealedTransport.sameEnds_foldl s.queued { s with streamId := some sid, queued := [] }
    refine ⟨hpart, hsame.detached.trans h.live, Or.inr (hsame.ws.trans hopen), ?_, ?_⟩
    · rw [heardOf_append, dataOf_append, h.heard]
      rfl
    · simp [SealedTransport.onMessage, SealedTransport.handleControl, h.unended]
  | inr hframe =>
    obtain ⟨data, rfl⟩ := hframe
    refine ⟨hpart, h.live, Or.inr hopen, ?_, ?_⟩
    · rw [heardOf_append, dataOf_append, h.heard]
      rfl
    · simp [SealedTransport.onMessage, h.unended]

theorem Attached.texts (hk : Kept cfg s outs)
    (hdatas : datas.map base64UrlToBytes = frames.map some)
    (hall : StreamOpener.receiveAll cfg.P cfg.G cfg.keys.s2c .s2c none frames = some (opener, plaintexts)) :
    textsOf outs <+: plaintexts.map cfg.decode := by
  obtain ⟨accepted, part, o, rest, hin, hrec, hsaid, -⟩ := hk.flow
  obtain ⟨more, hframes, -⟩ := split_accepted hdatas h.heard_part hin
  rw [hsaid]
  exact (receiveAll_part hall hframes hrec).1.map _

theorem Attached.closes (hk : Kept cfg s outs) (hidle : s.Idle)
    (hws : s.ws ≠ some .connecting)
    (hreceived : received = .streamOpen sid :: datas.map (TunnelServerMessage.streamFrame sid))
    (hdatas : datas.map base64UrlToBytes = frames.map some)
    (hall : StreamOpener.receiveAll cfg.P cfg.G cfg.keys.s2c .s2c none frames = some (opener, plaintexts)) :
    Finished cfg (script sid datas reason) (received ++ [.streamClose sid reason]) plaintexts
      (s.step cfg (.receives (.streamClose sid reason))).1
      (outs ++ (s.step cfg (.receives (.streamClose sid reason))).2) := by
  have hopen : s.ws = some .isOpen := by
    cases h.socket with
    | inl hconnecting => exact absurd hconnecting.1 hws
    | inr hopen => exact hopen
  have hstep : s.step cfg (.receives (.streamClose sid reason)) = (s.close, [.onClose]) := by
    simp [SealedTransport.step, h.live, hopen, SealedTransport.onMessage, SealedTransport.handleControl]
  obtain ⟨accepted, part, o, rest, hin, hrec, hsaid, hrest⟩ := hk.flow
  have hheard : heardOf outs = datas := by
    rw [h.heard, hreceived]
    exact dataOf_frames sid datas
  obtain ⟨more, hframes, hmore⟩ := split_accepted hdatas h.heard_part hin
  have hdone : rest = [] := by
    rw [(hrest h.live).2, hidle.1, hidle.2]
    rfl
  have hnone : more = [] := by
    rw [hheard, hdatas, hdone, append_nil, hframes, map_append] at hin
    simpa using hin
  have hpart := (receiveAll_part hall hframes hrec).2.1 hnone
  have htexts : textsOf outs = plaintexts.map cfg.decode := by rw [hsaid, hpart]
  rw [hstep]
  refine ⟨?_, rfl, hidle, by simp, ?_, ?_⟩
  · rw [hreceived]
    rfl
  · rw [takeWhile_append_of_pos]
    · simpa using htexts
    · intro o ho
      have hne : o ≠ .onClose := by
        rintro rfl
        exact h.unended ho
      simpa using hne
  · rw [textsOf_append, htexts]
    exact append_nil _

theorem Attached.turn {e : TransportEvent} (hk : Kept cfg s outs)
    (hpatient : Patient s e) (hother : ∀ msg, e ≠ .receives msg) (hdatas : datas.map base64UrlToBytes = frames.map some)
    (hall : StreamOpener.receiveAll cfg.P cfg.G cfg.keys.s2c .s2c none frames = some (opener, plaintexts)) :
    Attached sid datas received (s.step cfg e).1 (outs ++ (s.step cfg e).2) := by
  obtain ⟨accepted, part, o, rest, hin, hrec, hsaid, hrest⟩ := hk.flow
  obtain ⟨more, hframes, hmore⟩ := split_accepted hdatas h.heard_part hin
  obtain ⟨rfl, rfl⟩ := hrest h.live
  have hmoves : SealedTransport.Moves cfg s e (s.step cfg e) := SealedTransport.step_moves s e
  generalize s.step cfg e = r at hmoves ⊢
  cases hmoves with
  | keeps rests same silent => exact h.same same silent
  | opens connecting =>
    rw [append_nil]
    exact { h with socket := Or.inr rfl }
  | skips free next gone =>
    rw [h.live] at gone
    cases gone
  | begins free next live decoded =>
    rw [append_nil]
    exact { h with }
  | malformed free next live undecoded =>
    have hmem : none ∈ more.map some := by
      apply hmore.subset
      rw [free, next, map_cons, undecoded]
      simp
    simp at hmem
  | @fails closes throws bytes running forged =>
    rw [running] at hmore
    obtain ⟨tail, htail⟩ := hmore
    cases more with
    | nil => simp at htail
    | cons first later =>
      have hfirst : bytes = first := by simpa using (List.cons.inj htail).1
      subst hfirst
      exact absurd forged ((receiveAll_part hall hframes hrec).2.2 bytes later rfl)
  | late running authentic gone =>
    rw [h.live] at gone
    cases gone
  | delivers running authentic live =>
    obtain ⟨rfl, rfl⟩ := hpatient
    refine ⟨h.part, h.live, h.socket, ?_, ?_⟩
    · rw [heardOf_append, h.heard]
      exact append_nil _
    · simp [SealedTransport.deliver, h.unended]
  | drops _ | closes => exact hpatient.elim
  | _ => exact absurd rfl (hother _)

end

theorem Finished.step {e : TransportEvent} {all : List TunnelServerMessage}
    (h : Finished cfg all received plaintexts s outs) (hpatient : Patient s e) (hother : ∀ msg, e ≠ .receives msg) :
    Finished cfg all received plaintexts (s.step cfg e).1 (outs ++ (s.step cfg e).2) := by
  have hquiet : ∀ {s' : SealedTransport} {out : List TransportOutput}, SealedTransport.SameEnds s s' →
      (∀ o ∈ out, ∃ streamId data, o = .put streamId data) →
      Finished cfg all received plaintexts s' (outs ++ out) := by
    intro s' out hsame hout
    have hnone : textsOf out = [] := by
      rw [textsOf, filterMap_eq_nil_iff]
      intro o ho
      obtain ⟨streamId, data, rfl⟩ := hout o ho
      rfl
    refine ⟨h.all, hsame.detached.trans h.gone, ?_, mem_append_left _ h.told, ?_, ?_⟩
    · exact ⟨hsame.inbound.trans h.idle.1, hsame.opening.trans h.idle.2⟩
    · rw [takeWhile_append]
      split
      · rename_i hlength
        have hfull := ( takeWhile_prefix (· ≠ TransportOutput.onClose)).eq_of_length hlength
        have hmem := h.told
        rw [← hfull] at hmem
        have hfalse := mem_takeWhile_imp hmem
        simp at hfalse
      · exact h.before
    · rw [textsOf_append, hnone, append_nil]
      exact h.texts
  have hmoves : SealedTransport.Moves cfg s e (s.step cfg e) := SealedTransport.step_moves s e
  generalize s.step cfg e = r at hmoves ⊢
  cases hmoves with
  | keeps rests same silent => exact hquiet same silent
  | opens connecting =>
    rw [append_nil]
    exact { h with }
  | skips free next gone =>
    rw [h.idle.1] at next
    cases next
  | begins free next live decoded =>
    rw [h.idle.1] at next
    cases next
  | malformed free next live undecoded =>
    rw [h.idle.1] at next
    cases next
  | fails running forged =>
    rw [h.idle.2] at running
    cases running
  | late running authentic gone =>
    rw [h.idle.2] at running
    cases running
  | delivers running authentic live =>
    rw [h.idle.2] at running
    cases running
  | drops _ | closes => exact hpatient.elim
  | _ => exact absurd rfl (hother _)

end

theorem receivedOf_snoc (es : List TransportEvent) (e : TransportEvent) :
    receivedOf (es ++ [e]) = receivedOf es ++ receivedOf [e] := filterMap_append

/-- How far a transport has got that hears the script and whose close finds it idle. -/
theorem delivery {cfg : TransportConfig} {reason : Option String}
    {frames plaintexts : List Bytes} {opener : Option FrameOpener}
    (hdatas : datas.map base64UrlToBytes = frames.map some)
    (hall : StreamOpener.receiveAll cfg.P cfg.G cfg.keys.s2c .s2c none frames = some (opener, plaintexts))
    (es : List TransportEvent) (hes : receivedOf es <+: script sid datas reason)
    (hpatient : ∀ x ∈ (transportMachine cfg true).trace es, Patient x.pre x.event) :
    Attached sid datas (receivedOf es) ((transportMachine cfg true).run es) (transportOutputs cfg true es) ∨
      Finished cfg (script sid datas reason) (receivedOf es) plaintexts ((transportMachine cfg true).run es)
        (transportOutputs cfg true es) := by
  induction es using List.reverseRecOn with
  | nil =>
    refine Or.inl ⟨ nil_prefix, rfl, Or.inl ⟨rfl, rfl⟩, rfl, ?_⟩
    simp [transportOutputs, SealedTransport.connect, outputs_nil]
  | append_singleton es e ih =>
    obtain ⟨hpast, hnow⟩ := forall_trace_snoc hpatient
    rw [receivedOf_snoc] at hes
    have hbefore := ih ((prefix_append _ _).trans hes) hpast
    have hk := kept_run cfg true es
    have hrun : (transportMachine cfg true).run (es ++ [e]) =
        (((transportMachine cfg true).run es).step cfg e).1 := run_snoc _ _ _
    rw [hrun, transportOutputs_snoc, receivedOf_snoc]
    by_cases hmsg : ∃ msg, e = .receives msg
    · obtain ⟨msg, rfl⟩ := hmsg
      have hone : receivedOf [.receives msg] = [msg] := rfl
      rw [hone] at hes ⊢
      cases hbefore with
      | inl hattached =>
        cases script_next hes with
        | inl hlast =>
          obtain ⟨hreceived, rfl⟩ := hlast
          exact Or.inr (hattached.closes hk (hnow.2 rfl) hnow.1 hreceived hdatas hall)
        | inr hopen => exact Or.inl (hattached.receives hnow.1 hopen)
      | inr hfinished =>
        rw [hfinished.all] at hes
        have hlength := hes.length_le
        rw [length_append, length_singleton] at hlength
        omega
    · have hother : ∀ msg, e ≠ .receives msg := fun msg he => hmsg ⟨msg, he⟩
      have hnone : receivedOf [e] = [] := by
        cases e with
        | receives msg => exact absurd rfl (hother msg)
        | _ => rfl
      rw [hnone, append_nil]
      cases hbefore with
      | inl hattached => exact Or.inl (hattached.turn hk hnow hother hdatas hall)
      | inr hfinished => exact Or.inr (hfinished.step hnow hother)

end Mtmux.Browser
