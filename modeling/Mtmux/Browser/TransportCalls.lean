import Mtmux.Agent.Ordering
import Mtmux.Browser.SealedTransport

/-! What the owner of a sealed transport is told, and when. -/
namespace Mtmux.Browser
open Crypto Machine List

namespace TransportOutput

/-- The owner closed the transport, or was told that it is closed. -/
def ends : TransportOutput → Bool
  | .closed | .onClose => true
  | _ => false

def callsBack : TransportOutput → Bool
  | .onOpen | .onMessage _ | .onClose => true
  | _ => false

end TransportOutput

/-- Nothing is told once the transport is over. -/
def Silent (outs : List TransportOutput) : Prop :=
  outs.Pairwise fun earlier later => earlier.ends = true → later.callsBack = false

def OpensFirst (outs : List TransportOutput) : Prop :=
  ∀ text, .onMessage text ∉ outs.takeWhile (· ≠ .onOpen)

/-- The lines handed on are the plaintexts of a first part of the frames taken from the socket: of all of
them when none waits, unless the transport was closed. -/
def InOrder (cfg : TransportConfig) (s : SealedTransport) (outs : List TransportOutput) : Prop :=
  ∃ frames plaintexts opener,
    frames.map some <+: (heardOf outs).map base64UrlToBytes ∧
    StreamOpener.receiveAll cfg.P cfg.G cfg.keys.s2c .s2c none frames = some (opener, plaintexts) ∧
    textsOf outs = plaintexts.map cfg.decode ∧
    (s.detached = false → s.inbound = [] → s.opening = none → frames.length = (heardOf outs).length)

structure CallsBack (cfg : TransportConfig) (s : SealedTransport) (outs : List TransportOutput) :
    Prop where
  once : outs.count .onClose ≤ 1
  silent : Silent outs
  opened : OpensFirst outs
  inOrder : InOrder cfg s outs

def OpensInTime (s : SealedTransport) (closes throws : Bool) : Option (FrameOpener × Bytes) → Prop
  | none => s.detached = false ∧ s.ws = some .isOpen
  | some _ => s.detached = false →
      s.ws = some .isOpen ∧ s.streamId ≠ none ∧ ¬ (closes = true ∧ throws = true)

def InTime (cfg : TransportConfig) (s : SealedTransport) : TransportEvent → Prop
  | .begins => ∀ data ∈ s.inbound.head?, s.opening = none → s.detached = false →
      base64UrlToBytes data = none → s.ws = some .isOpen
  | .settles closes throws => ∀ bytes ∈ s.opening, OpensInTime s closes throws
      (StreamOpener.receive cfg.P cfg.G cfg.keys.s2c .s2c s.opener bytes)
  | _ => True

theorem inTime_of_rests {cfg : TransportConfig} {s : SealedTransport} {e : TransportEvent}
    (h : s.Rests e) : InTime cfg s e := by
  cases e with
  | begins =>
    intro data hdata hfree
    rw [h hfree] at hdata
    cases hdata
  | settles closes throws =>
    intro bytes hbytes
    have hnone : s.opening = none := h
    rw [hnone] at hbytes
    cases hbytes
  | _ => trivial

/-- What an owner may be told of a run, the lines aside. -/
def Told (outs : List TransportOutput) : Prop := Silent outs ∧ OpensFirst outs

section
variable {outs out : List TransportOutput}

theorem silent_append : Silent (outs ++ out) ↔ Silent outs ∧ Silent out ∧
    ∀ x ∈ outs, ∀ y ∈ out, x.ends = true → y.callsBack = false := pairwise_append

theorem opensFirst_append : OpensFirst (outs ++ out) ↔ OpensFirst outs ∧ (.onOpen ∉ outs → OpensFirst out) := by
  induction outs with
  | nil => simp [OpensFirst]
  | cons o outs ih =>
    by_cases ho : o = .onOpen
    · simp [OpensFirst, ho]
    · have hne : ¬ .onOpen = o := fun h => ho h.symm
      simp only [OpensFirst] at ih
      simp only [OpensFirst, cons_append, takeWhile_cons, ho, ne_eq, not_false_eq_true,
        decide_true, if_true, mem_cons, hne, false_or, not_or, forall_and, ih]
      tauto

theorem Silent.once (h : Silent outs) : outs.count .onClose ≤ 1 := by
  induction outs with
  | nil => simp
  | cons o outs ih =>
    obtain ⟨hfirst, hrest⟩ := pairwise_cons.1 h
    by_cases ho : o = .onClose
    · have hnone : .onClose ∉ outs := by
        intro hmem
        have hquiet := hfirst _ hmem (by rw [ho]; rfl)
        cases hquiet
      rw [ho, count_cons_self, count_eq_zero.2 hnone]
    · rw [count_cons_of_ne ho]
      exact ih hrest

theorem told_quiet (h : ∀ o ∈ out, o.callsBack = false) : Told (outs ++ out) ↔ Told outs := by
  have hsilent : Silent out := pairwise_of_forall_mem_list fun x _ y hy _ => h y hy
  have hopens : OpensFirst out := by
    intro text hmem
    have hcall := h _ (takeWhile_subset _ hmem)
    cases hcall
  unfold Told
  rw [silent_append, opensFirst_append]
  constructor
  · rintro ⟨⟨ho, -, -⟩, hf, -⟩
    exact ⟨ho, hf⟩
  · rintro ⟨ho, hf⟩
    exact ⟨⟨ho, hsilent, fun x _ y hy _ => h y hy⟩, hf, fun _ => hopens⟩

theorem told_live (hlive : ∀ o ∈ outs, o.ends = false) (hsilent : Silent out)
    (hopens : .onOpen ∉ outs → OpensFirst out) : Told (outs ++ out) ↔ Told outs := by
  unfold Told
  rw [silent_append, opensFirst_append]
  constructor
  · rintro ⟨⟨ho, -, -⟩, hf, -⟩
    exact ⟨ho, hf⟩
  · rintro ⟨ho, hf⟩
    refine ⟨⟨ho, hsilent, ?_⟩, hf, hopens⟩
    intro x hx y _ hends
    rw [hlive x hx] at hends
    cases hends

theorem told_over {o : TransportOutput} (hover : ∃ x ∈ outs, x.ends = true) (ho : o ∈ out)
    (hcall : o.callsBack = true) : ¬ Told (outs ++ out) := by
  rintro ⟨hsilent, -⟩
  obtain ⟨x, hx, hends⟩ := hover
  obtain ⟨-, -, hcross⟩ := silent_append.1 hsilent
  rw [hcross x hx o ho hends] at hcall
  cases hcall

end

/-- What holds in every run: whether the transport is over is seen from what was told, and the frames that
were taken are those opened, the one being opened and those that wait. -/
structure Kept (cfg : TransportConfig) (s : SealedTransport) (outs : List TransportOutput) : Prop where
  live : s.detached = false → s.ws = some .connecting ∨ s.ws = some .isOpen → ∀ o ∈ outs, o.ends = false
  ended : s.detached = true ∨ s.ws = some .closed → ∃ o ∈ outs, o.ends = true
  idle : s.detached = false → s.ws ≠ some .isOpen → s.ws ≠ some .closed → s.inbound = [] ∧ s.opening = none
  named : s.detached = false → (s.streamId = none ↔ .onOpen ∉ outs)
  flow : ∃ accepted plaintexts opener rest,
    (heardOf outs).map base64UrlToBytes = accepted.map some ++ rest ∧
    StreamOpener.receiveAll cfg.P cfg.G cfg.keys.s2c .s2c none accepted = some (opener, plaintexts) ∧
    textsOf outs = plaintexts.map cfg.decode ∧
    (s.detached = false → opener = s.opener ∧
      rest = s.opening.toList.map some ++ s.inbound.map base64UrlToBytes)

section
variable {cfg : TransportConfig} {s s' : SealedTransport} {outs out : List TransportOutput}

theorem kept_connect (cfg : TransportConfig) (made : Bool) :
    Kept cfg (SealedTransport.connect cfg made).1 (SealedTransport.connect cfg made).2 := by
  cases made with
  | true =>
    refine ⟨?_, ?_, fun _ _ _ => ⟨rfl, rfl⟩, ?_, [], [], none, [], rfl, rfl, rfl, fun _ => ⟨rfl, rfl⟩⟩
    · intro _ _ o ho
      cases ho
    · simp [SealedTransport.connect]
    · simp [SealedTransport.connect]
  | false =>
    refine ⟨?_, ?_, fun _ _ _ => ⟨rfl, rfl⟩, ?_, [], [], none, [], rfl, rfl, rfl, fun _ => ⟨rfl, rfl⟩⟩
    · simp [SealedTransport.connect]
    · simp [SealedTransport.connect]
    · simp [SealedTransport.connect]

/-- A transport that has been closed from here is over, whatever is still said. -/
theorem Kept.close (h : Kept cfg s outs) (hgone : s'.detached = true)
    (hover : ∃ o ∈ outs ++ out, o.ends = true) (hheard : heardOf out = []) (htexts : textsOf out = []) :
    Kept cfg s' (outs ++ out) := by
  obtain ⟨accepted, plaintexts, opener, rest, hin, hrec, hsaid, -⟩ := h.flow
  have hdead : ∀ {P : Prop}, s'.detached = false → P := by
    intro P hlive
    rw [hgone] at hlive
    cases hlive
  refine ⟨hdead, fun _ => hover, hdead, hdead, accepted, plaintexts, opener, rest, ?_, hrec, ?_, hdead⟩
  · rw [heardOf_append, hheard, append_nil]
    exact hin
  · rw [textsOf_append, htexts, append_nil]
    exact hsaid

/-- Nothing changes at the ends, and nothing is told. -/
theorem Kept.same (h : Kept cfg s outs) (hsame : SealedTransport.SameEnds s s')
    (hout : ∀ o ∈ out, ∃ streamId data, o = .put streamId data) : Kept cfg s' (outs ++ out) := by
  obtain ⟨accepted, plaintexts, opener, rest, hin, hrec, hsaid, hrest⟩ := h.flow
  have hnone : .onOpen ∉ out := by
    intro hmem
    obtain ⟨streamId, data, he⟩ := hout _ hmem
    cases he
  have hheard : heardOf out = [] := by
    rw [heardOf, filterMap_eq_nil_iff]
    intro o ho
    obtain ⟨streamId, data, rfl⟩ := hout o ho
    rfl
  have htexts : textsOf out = [] := by
    rw [textsOf, filterMap_eq_nil_iff]
    intro o ho
    obtain ⟨streamId, data, rfl⟩ := hout o ho
    rfl
  refine ⟨?_, ?_, ?_, ?_, accepted, plaintexts, opener, rest, ?_, hrec, ?_, ?_⟩
  · rw [hsame.detached, hsame.ws]
    intro hdetached hws o ho
    cases mem_append.1 ho with
    | inl hold => exact h.live hdetached hws o hold
    | inr hnew =>
      obtain ⟨streamId, data, rfl⟩ := hout o hnew
      rfl
  · rw [hsame.detached, hsame.ws]
    intro hover
    obtain ⟨o, ho, hends⟩ := h.ended hover
    exact ⟨o, mem_append_left _ ho, hends⟩
  · rw [hsame.detached, hsame.ws, hsame.inbound, hsame.opening]
    exact h.idle
  · rw [hsame.detached, hsame.streamId, mem_append, not_or]
    intro hdetached
    rw [h.named hdetached]
    exact ⟨fun hold => ⟨hold, hnone⟩, And.left⟩
  · rw [heardOf_append, hheard, append_nil]
    exact hin
  · rw [textsOf_append, htexts, append_nil]
    exact hsaid
  · rw [hsame.detached, hsame.opener, hsame.opening, hsame.inbound]
    exact hrest

/-- A transport that was closed stays so. -/
theorem Kept.late (h : Kept cfg s outs) (hgone : s.detached = true) (hgone' : s'.detached = true) :
    Kept cfg s' (outs ++ []) := by
  refine h.close hgone' ?_ rfl rfl
  rw [append_nil]
  exact h.ended (Or.inl hgone)

theorem Kept.live_snoc {o : TransportOutput} (h : Kept cfg s outs) (ho : o.ends = false) (hlive : s.detached = false)
    (hws : s.ws = some .connecting ∨ s.ws = some .isOpen) : ∀ o' ∈ outs ++ [o], o'.ends = false := by
  rw [forall_mem_append, forall_mem_singleton]
  exact ⟨h.live hlive hws, ho⟩

theorem Kept.ended_append (h : Kept cfg s outs) (hover : s.detached = true ∨ s.ws = some .closed) :
    ∃ o ∈ outs ++ out, o.ends = true := by
  obtain ⟨o, ho, hends⟩ := h.ended hover
  exact ⟨o, mem_append_left _ ho, hends⟩

theorem Kept.delivered {bytes plaintext : Bytes} {opener : FrameOpener} (h : Kept cfg s outs)
    (hrunning : s.opening = some bytes)
    (hauthentic : StreamOpener.receive cfg.P cfg.G cfg.keys.s2c .s2c s.opener bytes =
      some (opener, plaintext)) (hlive : s.detached = false) :
    Kept cfg { s with opening := none, opener := some opener }
      (outs ++ [.onMessage (cfg.decode plaintext)]) := by
  obtain ⟨accepted, plaintexts, opener', rest, hin, hrec, hsaid, hrest⟩ := h.flow
  obtain ⟨rfl, rfl⟩ := hrest hlive
  refine ⟨?_, ?_, ?_, ?_, accepted ++ [bytes], plaintexts ++ [plaintext], some opener,
    s.inbound.map base64UrlToBytes, ?_, StreamOpener.receiveAll_snoc hrec hauthentic, ?_, fun _ => ⟨rfl, rfl⟩⟩
  · exact h.live_snoc rfl
  · exact h.ended_append
  · intro _ hws hws'
    obtain ⟨-, hnone⟩ := h.idle hlive hws hws'
    rw [hrunning] at hnone
    cases hnone
  · intro _
    rw [mem_append, not_or]
    refine (h.named hlive).trans ⟨fun hold => ⟨hold, by simp⟩, And.left⟩
  · rw [heardOf_append, map_append, hin, hrunning]
    simp [heardOf]
  · rw [textsOf_append, hsaid, map_append]
    rfl

theorem kept_deliver {plaintext : Bytes} {opener : FrameOpener}
    (h : Kept cfg { s with opening := none, opener := some opener }
      (outs ++ [.onMessage (cfg.decode plaintext)])) (closes throws : Bool) :
    Kept cfg (SealedTransport.deliver { s with opening := none, opener := some opener }
      (cfg.decode plaintext) closes throws).1
      (outs ++ (SealedTransport.deliver { s with opening := none, opener := some opener }
        (cfg.decode plaintext) closes throws).2) := by
  have hends : ∀ more : List TransportOutput, .onClose ∈ more ∨ .closed ∈ more → heardOf more = [] →
      textsOf more = [] → ∀ s' : SealedTransport, s'.detached = true →
      Kept cfg s' (outs ++ .onMessage (cfg.decode plaintext) :: more) := by
    intro more hmore hheard htexts s' hgone
    rw [append_cons]
    refine h.close hgone ?_ hheard htexts
    cases hmore with
    | inl hmem => exact ⟨_, mem_append_right _ hmem, rfl⟩
    | inr hmem => exact ⟨_, mem_append_right _ hmem, rfl⟩
  cases closes with
  | false =>
    cases throws with
    | false => exact h
    | true => exact hends [.onClose] (by simp) rfl rfl _ rfl
  | true =>
    cases throws with
    | false => exact hends [.closed] (by simp) rfl rfl _ rfl
    | true => exact hends [.closed, .onClose] (by simp) rfl rfl _ rfl

theorem kept_step (h : Kept cfg s outs) (e : TransportEvent) :
    Kept cfg (s.step cfg e).1 (outs ++ (s.step cfg e).2) := by
  obtain ⟨accepted, plaintexts, opener, rest, hin, hrec, hsaid, hrest⟩ := h.flow
  have hclosed : ∃ o ∈ outs ++ [TransportOutput.onClose], o.ends = true := ⟨.onClose, by simp, rfl⟩
  have hmoves : SealedTransport.Moves cfg s e (s.step cfg e) := SealedTransport.step_moves s e
  generalize s.step cfg e = r at hmoves ⊢
  cases hmoves with
  | keeps rests same silent => exact h.same same silent
  | opens connecting =>
    rw [append_nil]
    refine ⟨fun hlive _ => h.live hlive (Or.inl connecting), ?_, ?_, h.named, h.flow⟩
    · intro hover
      cases hover with
      | inl hgone => exact h.ended (Or.inl hgone)
      | inr hws => cases hws
    · intro _ hne
      exact absurd rfl hne
  | @streams streamId s' live socket same =>
    have hopened : Kept cfg { s with streamId := some streamId } (outs ++ [.onOpen]) := by
      refine ⟨?_, ?_, h.idle, ?_, accepted, plaintexts, opener, rest, ?_, hrec, ?_, hrest⟩
      · exact h.live_snoc rfl
      · exact h.ended_append
      · simp
      · simpa [heardOf] using hin
      · simpa [textsOf] using hsaid
    have hsame : Kept cfg s' (outs ++ [.onOpen] ++ []) := hopened.same same (by simp)
    rwa [append_nil] at hsame
  | @hears streamId data live socket =>
    refine ⟨?_, ?_, ?_, ?_, accepted, plaintexts, opener, rest ++ [base64UrlToBytes data], ?_, hrec, ?_, ?_⟩
    · exact h.live_snoc rfl
    · exact h.ended_append
    · intro _ hne
      exact absurd socket hne
    · intro hlive
      rw [mem_append, not_or]
      refine (h.named hlive).trans ⟨fun hold => ⟨hold, by simp⟩, And.left⟩
    · rw [heardOf_append, map_append, hin, append_assoc]
      rfl
    · rw [textsOf_append, hsaid]
      exact append_nil _
    · intro hlive
      obtain ⟨hopener, hwaits⟩ := hrest hlive
      refine ⟨hopener, ?_⟩
      rw [hwaits, map_append, append_assoc]
      rfl
  | ends live socket => exact h.close rfl hclosed rfl rfl
  | skips free next gone => exact h.late gone gone
  | @begins data inbound bytes free next live decoded =>
    rw [append_nil]
    refine ⟨h.live, h.ended, ?_, h.named, accepted, plaintexts, opener, rest, hin, hrec, hsaid, ?_⟩
    · intro _ hopen hover
      obtain ⟨hnone, -⟩ := h.idle live hopen hover
      rw [next] at hnone
      cases hnone
    · intro hlive
      obtain ⟨hopener, hwaits⟩ := hrest hlive
      refine ⟨hopener, ?_⟩
      rw [hwaits, free, next, map_cons, decoded]
      rfl
  | malformed _ _ _ _ | fails _ _ => exact h.close rfl hclosed rfl rfl
  | late running authentic gone => exact h.late gone gone
  | delivers running authentic live => exact kept_deliver (h.delivered running authentic live) _ _
  | drops live =>
    by_cases hgone : s.detached = true
    · rw [if_pos hgone]
      exact h.late hgone hgone
    · rw [if_neg hgone]
      refine ⟨?_, fun _ => hclosed, ?_, ?_, accepted, plaintexts, opener, rest, ?_, hrec, ?_, hrest⟩
      · intro _ hws
        cases hws with
        | inl hconnecting => cases hconnecting
        | inr hopen => cases hopen
      · intro _ _ hne
        exact absurd rfl hne
      · intro hlive
        rw [mem_append, not_or]
        refine (h.named hlive).trans ⟨fun hold => ⟨hold, by simp⟩, And.left⟩
      · simpa [heardOf] using hin
      · simpa [textsOf] using hsaid
  | closes => exact h.close rfl ⟨.closed, by simp, rfl⟩ rfl rfl

theorem silent_single (o : TransportOutput) : Silent [o] := pairwise_singleton _ _

/-- A frame that was opened is handed on in time, or its owner is told out of turn. -/
theorem told_deliver (h : Kept cfg s outs) (hlive : s.detached = false) (hrunning : s.opening ≠ none)
    (next : SealedTransport) (text : String) (closes throws : Bool) :
    Told (outs ++ (SealedTransport.deliver next text closes throws).2) ↔
      Told outs ∧ s.ws = some .isOpen ∧ s.streamId ≠ none ∧ ¬ (closes = true ∧ throws = true) := by
  have hfirst : .onMessage text ∈ (SealedTransport.deliver next text closes throws).2 := by
    cases closes <;> cases throws <;> simp [SealedTransport.deliver]
  by_cases hopen : s.ws = some .isOpen
  · have hquiet := h.live hlive (Or.inr hopen)
    by_cases hnamed : s.streamId = none
    · have hnever : ¬ Told (outs ++ (SealedTransport.deliver next text closes throws).2) := by
        rintro ⟨-, hopens⟩
        have hout := (opensFirst_append.1 hopens).2 ((h.named hlive).1 hnamed) text
        apply hout
        cases closes <;> cases throws <;> simp [SealedTransport.deliver]
      simp [hnever, hnamed]
    · have hopened : .onOpen ∈ outs := by
        by_contra hnone
        exact hnamed ((h.named hlive).2 hnone)
      have hlater : ∀ more, Silent (.onMessage text :: more) →
          (Told (outs ++ .onMessage text :: more) ↔ Told outs) := fun more hsilent =>
        told_live hquiet hsilent fun hnone => absurd hopened hnone
      have hfine : ∀ more, Silent (.onMessage text :: more) → ¬ (closes = true ∧ throws = true) →
          (Told (outs ++ .onMessage text :: more) ↔ Told outs ∧ s.ws = some .isOpen ∧ s.streamId ≠ none ∧
            ¬ (closes = true ∧ throws = true)) := by
        intro more hsilent hboth
        rw [hlater more hsilent]
        simp [hopen, hnamed, hboth]
      cases closes with
      | false =>
        cases throws with
        | false => exact hfine [] (silent_single _) (by simp)
        | true => exact hfine [.onClose] (by simp [Silent, TransportOutput.ends]) (by simp)
      | true =>
        cases throws with
        | false => exact hfine [.closed] (by simp [Silent, TransportOutput.ends]) (by simp)
        | true =>
          have hnever : ¬ Told (outs ++ (SealedTransport.deliver next text true true).2) := by
            rintro ⟨hsilent, -⟩
            have hout := (silent_append.1 hsilent).2.1
            simp [SealedTransport.deliver, SealedTransport.failed, Silent, TransportOutput.ends,
              TransportOutput.callsBack] at hout
          simp [hnever]
  · have hgone : s.ws = some .closed := by
      by_contra hnot
      exact hrunning (h.idle hlive hopen hnot).2
    have hnever := told_over (h.ended (Or.inr hgone)) hfirst rfl
    simp [hnever, hopen]

theorem told_failed (h : Kept cfg s outs) (hbusy : ¬ (s.inbound = [] ∧ s.opening = none)) :
    Told (outs ++ [.onClose]) ↔ Told outs ∧ s.detached = false ∧ s.ws = some .isOpen := by
  by_cases hgone : s.detached = true
  · have hnever := told_over (h.ended (Or.inl hgone)) (mem_singleton_self .onClose) rfl
    simp [hnever, hgone]
  · rw [Bool.not_eq_true] at hgone
    by_cases hopen : s.ws = some .isOpen
    · have hlater : Told (outs ++ [.onClose]) ↔ Told outs :=
        told_live (h.live hgone (Or.inr hopen)) (silent_single _) fun _ => by simp [OpensFirst]
      simp [hlater, hgone, hopen]
    · have hclosed : s.ws = some .closed := by
        by_contra hnot
        exact hbusy (h.idle hgone hopen hnot)
      have hnever := told_over (h.ended (Or.inr hclosed)) (mem_singleton_self .onClose) rfl
      simp [hnever, hopen]

theorem told_step (h : Kept cfg s outs) (e : TransportEvent) :
    Told (outs ++ (s.step cfg e).2) ↔ Told outs ∧ InTime cfg s e := by
  have hmoves : SealedTransport.Moves cfg s e (s.step cfg e) := SealedTransport.step_moves s e
  generalize s.step cfg e = r at hmoves ⊢
  cases hmoves with
  | keeps rests same silent =>
    have hquiet : Told (outs ++ _) ↔ Told outs := told_quiet fun o ho => by
      obtain ⟨streamId, data, rfl⟩ := silent o ho
      rfl
    simp [hquiet, inTime_of_rests rests]
  | opens connecting => simp [InTime]
  | streams live socket same =>
    have hlater : Told (outs ++ [.onOpen]) ↔ Told outs :=
      told_live (h.live live (Or.inr socket)) (silent_single _) fun _ => by simp [OpensFirst]
    simp [hlater, InTime]
  | @hears streamId data live socket =>
    have hquiet : Told (outs ++ [.heard data]) ↔ Told outs := told_quiet fun o ho => by
      rw [mem_singleton.1 ho]
      rfl
    simp [hquiet, InTime]
  | ends live socket =>
    have hlater : Told (outs ++ [.onClose]) ↔ Told outs :=
      told_live (h.live live (Or.inr socket)) (silent_single _) fun _ => by simp [OpensFirst]
    simp [hlater, InTime]
  | skips free next gone => simp [InTime, gone]
  | begins free next live decoded => simp [InTime, next, decoded]
  | malformed free next live undecoded =>
    have hfails := told_failed h fun hidle => by
      rw [hidle.1] at next
      cases next
    simp only [SealedTransport.failed, hfails]
    simp [InTime, free, next, live, undecoded]
  | fails running forged =>
    have hfails := told_failed h fun hidle => by
      rw [hidle.2] at running
      cases running
    simp only [SealedTransport.failed, hfails]
    simp [InTime, running, forged, OpensInTime]
  | late running authentic gone => simp [InTime, running, authentic, OpensInTime, gone]
  | delivers running authentic live =>
    rw [told_deliver h live (by simp [running])]
    simp [InTime, running, authentic, OpensInTime, live]
  | drops live =>
    by_cases hgone : s.detached = true
    · simp [hgone, InTime]
    · rw [Bool.not_eq_true] at hgone
      have hlater : Told (outs ++ [.onClose]) ↔ Told outs :=
        told_live (h.live hgone live) (silent_single _) fun _ => by simp [OpensFirst]
      simp [hgone, hlater, InTime]
  | closes =>
    have hquiet : Told (outs ++ [.closed]) ↔ Told outs := told_quiet fun o ho => by
      rw [mem_singleton.1 ho]
      rfl
    simp [hquiet, InTime]

end

section
variable (cfg : TransportConfig) (made : Bool)

theorem transportOutputs_snoc (es : List TransportEvent) (e : TransportEvent) :
    transportOutputs cfg made (es ++ [e]) = transportOutputs cfg made es ++
      (((transportMachine cfg made).run es).step cfg e).2 := by
  unfold transportOutputs
  rw [outputs_snoc, append_assoc]
  rfl

theorem kept_run (es : List TransportEvent) :
    Kept cfg ((transportMachine cfg made).run es) (transportOutputs cfg made es) := by
  induction es using List.reverseRecOn with
  | nil =>
    have hconnect := kept_connect cfg made
    rw [← append_nil (SealedTransport.connect cfg made).2] at hconnect
    exact hconnect
  | append_singleton es e ih =>
    rw [run_snoc, transportOutputs_snoc]
    exact kept_step ih e

theorem told_run (es : List TransportEvent) : Told (transportOutputs cfg made es) ↔
    ∀ x ∈ (transportMachine cfg made).trace es, InTime cfg x.pre x.event := by
  induction es using List.reverseRecOn with
  | nil =>
    have htold : Told (transportOutputs cfg made []) := by
      cases made with
      | true => exact ⟨List.Pairwise.nil, by simp [OpensFirst, transportOutputs, SealedTransport.connect,
          outputs_nil]⟩
      | false => exact ⟨silent_single _, by simp [OpensFirst, transportOutputs, SealedTransport.connect,
          outputs_nil]⟩
    simp [htold, trace_nil]
  | append_singleton es e ih =>
    rw [transportOutputs_snoc, told_step (kept_run cfg made es), ih, trace_snoc]
    simp only [forall_mem_append, forall_mem_singleton]
    rfl

end

theorem Kept.inOrder {cfg : TransportConfig} {s : SealedTransport} {outs : List TransportOutput}
    (h : Kept cfg s outs) : InOrder cfg s outs := by
  obtain ⟨accepted, plaintexts, opener, rest, hin, hrec, hsaid, hrest⟩ := h.flow
  refine ⟨accepted, plaintexts, opener, ⟨rest, hin.symm⟩, hrec, hsaid, ?_⟩
  intro hlive hinbound hopening
  obtain ⟨-, hwaits⟩ := hrest hlive
  have hlength := congrArg List.length hin
  rw [hwaits, hinbound, hopening] at hlength
  simpa using hlength.symm

/-- The owner of a transport is called back as it may expect in exactly the runs in which frames open in
time. -/
theorem transport_calls_back (cfg : TransportConfig) (made : Bool) (es : List TransportEvent) :
    CallsBack cfg ((transportMachine cfg made).run es) (transportOutputs cfg made es) ↔
      ∀ x ∈ (transportMachine cfg made).trace es, InTime cfg x.pre x.event := by
  rw [← told_run]
  constructor
  · intro h
    exact ⟨h.silent, h.opened⟩
  · rintro ⟨hsilent, hopened⟩
    exact ⟨hsilent.once, hsilent, hopened, (kept_run cfg made es).inOrder⟩

def lateLine : List TransportEvent :=
  [.opens, .receives (.streamOpen "s1"),
    .receives (.streamFrame "s1" (bytesToBase64Url (FrameSealer.frameAt Agent.StreamTable.plainGcm
      ⟨List.replicate 32 2, .s2c, List.replicate subkeySaltBytes 7, 0⟩ 0 [104]))),
    .begins, .socketCloses, .settles false false]

def sampleTransport : TransportConfig where
  P := Agent.StreamTable.sample.P
  G := Agent.StreamTable.plainGcm
  keys := Agent.StreamTable.sampleKeys
  salt := List.replicate subkeySaltBytes 9
  decode := Agent.StreamTable.sample.decode

/-- The line comes after `onClose`. -/
theorem not_transport_calls_back : transportOutputs sampleTransport true lateLine =
      [.onOpen, .heard "BwcHBwcHBwcHBwcHBwcHBwAAAAAAAAAAaAICAgICAgICAgICAgICAgI", .onClose, .onMessage "h"] ∧
    ¬ CallsBack sampleTransport ((transportMachine sampleTransport true).run lateLine)
      (transportOutputs sampleTransport true lateLine) := by
  have houtputs : transportOutputs sampleTransport true lateLine =
      [.onOpen, .heard "BwcHBwcHBwcHBwcHBwcHBwAAAAAAAAAAaAICAgICAgICAgICAgICAgI", .onClose,
        .onMessage "h"] := by decide +kernel
  refine ⟨houtputs, fun h => ?_⟩
  have hsilent := h.silent
  rw [houtputs] at hsilent
  revert hsilent
  unfold Silent
  decide

end Mtmux.Browser
