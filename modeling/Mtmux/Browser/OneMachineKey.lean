import Mtmux.Browser.RequestAccess

/-! Which runs of the browser's half of requested access accept one machine key only. -/
namespace Mtmux.Browser
open Protocol Crypto Machine List

def AccessClientOut.isConfirm : AccessClientOut → Bool
  | .update (.confirm _) => true
  | _ => false

def AccessClientOut.isReveal : AccessClientOut → Bool
  | .send (.reveal _ _) => true
  | _ => false

namespace AccessClient
variable {cfg : AccessClientConfig}

abbrev ClientEntry : Type := Machine.Entry AccessClient AccessClientEvent AccessClientOut

/-- A machine key that can be used is delivered on the open socket. -/
def usable (cfg : AccessClientConfig) (x : ClientEntry) : Bool :=
  match x.event with
  | .message (.requestAck _ cliPublicKey) =>
    x.pre.socket = .opened && (agreed cfg x.pre.requestId cliPublicKey).isSome
  | _ => false

/-- `keys` belong to digits that were shown, right before the own key was revealed; `after`
is what came then. -/
def ShownFor (cfg : AccessClientConfig) (keys : SessionKeys) (out after : List AccessClientOut) :
    Prop :=
  ∃ requestId cliPublicKey sas before, agreed cfg requestId cliPublicKey = some (keys, sas) ∧
    out = before ++ .update (.confirm sas) ::
      .send (.reveal requestId (bytesToHex (ephemeral cfg).publicKey)) :: after

structure OneMachineKey (cfg : AccessClientConfig) (es : List AccessClientEvent) : Prop where
  shown : ((machine cfg).outputs es).countP AccessClientOut.isConfirm ≤ 1
  revealed : ((machine cfg).outputs es).countP AccessClientOut.isReveal ≤ 1
  paired : ∀ keys descriptor, .update (.paired keys descriptor) ∈ (machine cfg).outputs es →
    ∃ after, ShownFor cfg keys ((machine cfg).outputs es) after ∧
      .update (.paired keys descriptor) ∈ after
  frozen : ∀ before e after, es = before ++ e :: after →
    (∃ o ∈ (machine cfg).outputs before, o.isReveal = true) →
    ((machine cfg).step ((machine cfg).run before) e).1.pending =
        ((machine cfg).run before).pending ∧
      ∀ o ∈ ((machine cfg).step ((machine cfg).run before) e).2, o.isConfirm = false

theorem fail_quiet (c : AccessClient) (message : String) (reason : Option PairDeniedReason) :
    (c.fail message reason).1.pending = c.pending ∧
      ∀ o ∈ (c.fail message reason).2, ∃ m r, o = .update (.failed m r) := by
  unfold fail
  split
  · exact ⟨rfl, fun o ho => by cases ho⟩
  · refine ⟨rfl, fun o ho => ?_⟩
    rw [mem_singleton.1 ho]
    exact ⟨message, reason, rfl⟩

/-- What every other step does: it leaves the keys, shows and reveals nothing, and reports
no keys but those pending. -/
structure Quiet (c : AccessClient) (next : AccessClient × List AccessClientOut) : Prop where
  pending : next.1.pending = c.pending
  shown : ∀ o ∈ next.2, o.isConfirm = false
  revealed : ∀ o ∈ next.2, o.isReveal = false
  paired : ∀ keys descriptor, .update (.paired keys descriptor) ∈ next.2 → c.pending = some keys

variable {c c' : AccessClient}

section
variable (h : c'.pending = c.pending)
include h

theorem quiet_nil : Quiet c (c', []) :=
  ⟨h, fun o ho => (by cases ho), fun o ho => (by cases ho), fun keys d ho => by cases ho⟩

theorem quiet_fail (message : String)
    (reason : Option PairDeniedReason) : Quiet c (c'.fail message reason) := by
  obtain ⟨hpending, hout⟩ := fail_quiet c' message reason
  refine ⟨hpending.trans h, fun o ho => ?_, fun o ho => ?_, fun keys d ho => ?_⟩
  · obtain ⟨m, r, rfl⟩ := hout o ho
    rfl
  · obtain ⟨m, r, rfl⟩ := hout o ho
    rfl
  · obtain ⟨m, r, he⟩ := hout _ ho
    cases he

theorem quiet_respond
    (response : RequestResponse) : Quiet c (respond cfg c' response) := by
  cases response with
  | granted requestId =>
    simp only [respond]
    split
    · exact quiet_nil h
    · exact quiet_nil h
  | _ => exact quiet_fail h _ _

theorem quiet_unsealed (keys : SessionKeys)
    (sealedDescriptor : String) : Quiet c (unsealed cfg c' keys sealedDescriptor) := by
  unfold unsealed
  split
  · exact quiet_fail h _ _
  · split
    · exact quiet_nil h
    · refine ⟨h, fun o ho => ?_, fun o ho => ?_, fun keys d ho => ?_⟩
      · obtain ⟨keys, -, rfl⟩ := mem_map.1 ho
        rfl
      · obtain ⟨keys, -, rfl⟩ := mem_map.1 ho
        rfl
      · obtain ⟨keys', hmem, he⟩ := mem_map.1 ho
        cases he
        rw [← h]
        exact Option.mem_toList.1 hmem

end

theorem step_quiet {e : AccessClientEvent}
    (h : usable cfg ((machine cfg).entry c e) = false) : Quiet c (c.step cfg e) := by
  cases e with
  | response response =>
    simp only [step]
    split
    · refine quiet_respond ?_ response
      rfl
    · exact quiet_nil rfl
  | socketOpen =>
    simp only [step]
    split
    · refine ⟨rfl, fun o ho => ?_, fun o ho => ?_, fun keys d ho => ?_⟩
      · rw [mem_singleton.1 ho]
        rfl
      · rw [mem_singleton.1 ho]
        rfl
      · cases mem_singleton.1 ho
    · exact quiet_nil rfl
  | message message =>
    simp only [step]
    split
    · rename_i hopen
      cases message with
      | denied id reason => exact quiet_fail rfl _ _
      | requestAck id cliPublicKey =>
        have hnone : agreed cfg c.requestId cliPublicKey = none := by
          simpa [usable, Machine.entry, hopen] using h
        simp only [handle, requestAck, hnone]
        exact quiet_fail rfl _ _
      | approved id sealedDescriptor =>
        simp only [handle]
        split
        · exact quiet_nil rfl
        · exact quiet_nil rfl
    · exact quiet_nil rfl
  | unsealed n =>
    simp only [step]
    split
    · exact quiet_nil rfl
    · refine quiet_unsealed ?_ _ _
      rfl
  | socketClose =>
    simp only [step]
    split
    · exact quiet_nil rfl
    · refine quiet_fail ?_ _ _
      rfl
  | cancel => exact quiet_nil rfl

theorem step_usable {e : AccessClientEvent}
    (h : usable cfg ((machine cfg).entry c e) = true) :
    ∃ cliPublicKey keys sas, agreed cfg c.requestId cliPublicKey = some (keys, sas) ∧
      c.step cfg e = ({ c with pending := some keys },
        [.update (.confirm sas),
          .send (.reveal c.requestId (bytesToHex (ephemeral cfg).publicKey))]) := by
  cases e with
  | message message =>
    cases message with
    | requestAck id cliPublicKey =>
      simp only [usable, Machine.entry, Bool.and_eq_true] at h
      obtain ⟨hsocket, hsome⟩ := h
      have hopen : c.socket = .opened := of_decide_eq_true hsocket
      obtain ⟨⟨keys, sas⟩, hagreed⟩ := Option.isSome_iff_exists.1 hsome
      refine ⟨cliPublicKey, keys, sas, hagreed, ?_⟩
      simp [step, hopen, handle, requestAck, hagreed]
    | denied _ _ | approved _ _ => cases h
  | _ => cases h

theorem count_shown (cfg : AccessClientConfig) (es : List AccessClientEvent) :
    ((machine cfg).outputs es).countP AccessClientOut.isConfirm = ((machine cfg).trace es).countP (usable cfg) ∧
      ((machine cfg).outputs es).countP AccessClientOut.isReveal = ((machine cfg).trace es).countP (usable cfg) := by
  induction es using List.reverseRecOn with
  | nil => exact ⟨rfl, rfl⟩
  | append_singleton es e ih =>
    rw [outputs_snoc, trace_snoc, countP_append, countP_append,
      countP_append, ih.1, ih.2]
    have hstep : (machine cfg).step ((machine cfg).run es) e = ((machine cfg).run es).step cfg e := rfl
    rw [hstep]
    cases huse : usable cfg ((machine cfg).entry ((machine cfg).run es) e) with
    | true =>
      obtain ⟨cliPublicKey, keys, sas, -, he⟩ := step_usable huse
      rw [he, countP_singleton, if_pos huse]
      exact ⟨rfl, rfl⟩
    | false =>
      have hquiet := step_quiet huse
      have hshown : (((machine cfg).run es).step cfg e).2.countP AccessClientOut.isConfirm = 0 :=
        countP_eq_zero.2 fun o ho => by simp [hquiet.shown o ho]
      have hrevealed : (((machine cfg).run es).step cfg e).2.countP AccessClientOut.isReveal = 0 :=
        countP_eq_zero.2 fun o ho => by simp [hquiet.revealed o ho]
      rw [hshown, hrevealed, countP_singleton, if_neg (by simp [huse])]
      exact ⟨rfl, rfl⟩

structure Showing (cfg : AccessClientConfig) (es : List AccessClientEvent) : Prop where
  fresh : ((machine cfg).trace es).countP (usable cfg) = 0 →
    ((machine cfg).run es).pending = none
  paired : ∀ keys descriptor, .update (.paired keys descriptor) ∈ (machine cfg).outputs es →
    ((machine cfg).run es).pending = some keys ∧
      ∃ after, ShownFor cfg keys ((machine cfg).outputs es) after ∧
        .update (.paired keys descriptor) ∈ after
  pending : ∀ keys, ((machine cfg).run es).pending = some keys →
    ∃ after, ShownFor cfg keys ((machine cfg).outputs es) after

theorem ShownFor.append {keys : SessionKeys} {out after : List AccessClientOut}
    (h : ShownFor cfg keys out after) (more : List AccessClientOut) :
    ShownFor cfg keys (out ++ more) (after ++ more) := by
  obtain ⟨requestId, key, sas, before, hagreed, rfl⟩ := h
  exact ⟨requestId, key, sas, before, hagreed, by simp⟩

theorem run_showing {es : List AccessClientEvent}
    (h : ((machine cfg).trace es).countP (usable cfg) ≤ 1) : Showing cfg es := by
  induction es using List.reverseRecOn with
  | nil =>
    exact ⟨fun _ => rfl, fun keys d ho => (by cases ho), fun keys hk => by cases hk⟩
  | append_singleton es e ih =>
    have hcount : ((machine cfg).trace (es ++ [e])).countP (usable cfg) =
        ((machine cfg).trace es).countP (usable cfg) +
          (if usable cfg ((machine cfg).entry ((machine cfg).run es) e) then 1 else 0) := by
      rw [trace_snoc, countP_append, countP_singleton]
    have hrun : (machine cfg).run (es ++ [e]) = (((machine cfg).run es).step cfg e).1 :=
      run_snoc _ _ _
    have hout : (machine cfg).outputs (es ++ [e]) = (machine cfg).outputs es ++
        (((machine cfg).run es).step cfg e).2 := outputs_snoc _ _ _
    rw [hcount] at h
    have hs := ih (by omega)
    cases huse : usable cfg ((machine cfg).entry ((machine cfg).run es) e) with
    | true =>
      rw [huse] at h hcount
      obtain ⟨cliPublicKey, keys, sas, hagreed, he⟩ := step_usable huse
      rw [he] at hrun hout
      -- The one usable key is this one, so nothing can have been paired before it.
      rw [if_pos rfl] at h
      have hnone := hs.fresh (by omega)
      refine ⟨fun hzero => ?_, fun keys' d ho => ?_, fun keys' hk => ?_⟩
      · rw [hcount] at hzero
        simp at hzero
      · rw [hout, mem_append] at ho
        rcases ho with ho | ho
        · have hk := (hs.paired keys' d ho).1
          rw [hnone] at hk
          cases hk
        · simp at ho
      · rw [hrun] at hk
        cases hk
        exact ⟨[], _, cliPublicKey, sas, (machine cfg).outputs es, hagreed, hout⟩
    | false =>
      rw [huse] at hcount
      have hquiet := step_quiet huse
      refine ⟨fun hzero => ?_, fun keys d ho => ?_, fun keys hk => ?_⟩
      · rw [hrun, hquiet.pending]
        exact hs.fresh (by rw [hcount] at hzero; simpa using hzero)
      · rw [hrun, hquiet.pending, hout]
        rw [hout, mem_append] at ho
        rcases ho with ho | ho
        · obtain ⟨hk, after, hshown, hmem⟩ := hs.paired keys d ho
          exact ⟨hk, _, hshown.append _, mem_append_left _ hmem⟩
        · have hk := hquiet.paired keys d ho
          obtain ⟨after, hshown⟩ := hs.pending keys hk
          exact ⟨hk, _, hshown.append _, mem_append_right _ ho⟩
      · rw [hrun, hquiet.pending] at hk
        obtain ⟨after, hshown⟩ := hs.pending keys hk
        rw [hout]
        exact ⟨_, hshown.append _⟩

/-- One machine key is accepted exactly when one usable key at most is delivered. -/
theorem one_machine_key_iff (cfg : AccessClientConfig) (es : List AccessClientEvent) :
    OneMachineKey cfg es ↔ ((machine cfg).trace es).countP (usable cfg) ≤ 1 := by
  constructor
  · intro h
    rw [← (count_shown cfg es).1]
    exact h.shown
  · intro h
    refine ⟨?_, ?_, fun keys d ho => ((run_showing h).paired keys d ho).2, ?_⟩
    · rw [(count_shown cfg es).1]
      exact h
    · rw [(count_shown cfg es).2]
      exact h
    · intro before e after hes hrevealed
      obtain ⟨o, ho, hreveal⟩ := hrevealed
      have hbefore : 0 < ((machine cfg).trace before).countP (usable cfg) := by
        rw [← (count_shown cfg before).2, countP_pos_iff]
        exact ⟨o, ho, hreveal⟩
      have huse : usable cfg ((machine cfg).entry ((machine cfg).run before) e) = false := by
        by_contra hyes
        have hle : ((machine cfg).trace (before ++ [e])).countP (usable cfg) ≤ 1 := by
          refine le_trans (List.Sublist.countP_le ?_) h
          rw [hes, show before ++ e :: after = (before ++ [e]) ++ after by simp]
          exact ((machine cfg).trace_begins _ _).sublist
        rw [trace_snoc, countP_append, countP_singleton,
          if_pos (by simpa using hyes)] at hle
        omega
      have hquiet := step_quiet huse
      exact ⟨hquiet.pending, hquiet.shown⟩

/-- A curve on which the shared secret is the two keys, one after the other. -/
def sample : AccessClientConfig where
  P := ⟨id, id, fun key _ => key, fun ikm _ _ _ => ikm, id, fun secret key => some (secret ++ key)⟩
  G := ⟨fun _ _ data => data, fun _ _ data => some data⟩
  random := [9]
  unreachable := "Could not reach the pairing service."
  parseDescriptor _ := none

/-- A broker that passes on a second machine key once the browser's is public. -/
def keyReplaced : List AccessClientEvent :=
  [.response (.granted "req-1"), .socketOpen, .message (.requestAck "req-1" (bytesToHex (List.replicate 32 1))),
    .message (.requestAck "req-1" (bytesToHex (List.replicate 32 2)))]

theorem two_machine_keys_shown : ¬ OneMachineKey sample keyReplaced := by
  intro h
  have hshown : ((machine sample).outputs keyReplaced).countP AccessClientOut.isConfirm = 2 := by
    decide +kernel
  have hle := h.shown
  omega

end AccessClient
end Mtmux.Browser
