import Mtmux.Cli.PairingExchange

/-! Everything a step of a pairing exchange can do. -/
namespace Mtmux.Cli
open Protocol Crypto

def ExchangeOut.isSend : ExchangeOut → Bool
  | .send _ => true
  | _ => false

def ExchangeOut.isOwnConfirm : ExchangeOut → Bool
  | .send (.toPeer _ (.confirm _)) => true
  | _ => false

def ExchangeOut.isEstablish : ExchangeOut → Bool
  | .send (.toPeer _ (.establish _)) => true
  | _ => false

def ExchangeOut.isResolve : ExchangeOut → Bool
  | .resolve _ => true
  | _ => false

def ExchangeOut.asksFor : ExchangeOut → Option String
  | .ask _ peer _ => some peer
  | _ => none

/-- Neither a tag of this end, nor a descriptor, nor a question, nor a result. -/
def ExchangeOut.isPlain (o : ExchangeOut) : Bool :=
  !o.isOwnConfirm && !o.isEstablish && o.asksFor.isNone && !o.isResolve

namespace Exchange
variable {opts : ExchangeOptions}

abbrev ExchangeEntry : Type := Machine.Entry Exchange ExchangeEvent ExchangeOut

def derivedFor (opts : ExchangeOptions) (x : Exchange) (msg : PeerShare) : Option Derived :=
  if x.attempts.has msg.peer then none
  else if ∃ m ∈ opts.maxPeers, m < x.seen + 1 then none
  else some (opts.derive x.derived msg)

def verifiedFor (opts : ExchangeOptions) (x : Exchange) (peer : String) (tag : Bytes) :
    Option Bool :=
  (x.attempts.get peer).map fun attempt =>
    verifyConfirmation opts.P attempt.keys.confirm .browser tag

/-- The peer that a step rules out. -/
def retires (opts : ExchangeOptions) (x : Exchange) : ExchangeEvent → Option String
  | .message (.failed peer _) => peer
  | .message (.peerShare peer shareHex ad sidHex) =>
    match hexToBytes shareHex, hexToBytes sidHex with
    | some share, some sid =>
      match x.derivedFor opts ⟨peer, share, ad, sid⟩ with
      | some (.reject _) => some peer
      | _ => none
    | _, _ => none
  | .message (.peerConfirm peer tagHex) =>
    match (hexToBytes tagHex).bind (x.verifiedFor opts peer) with
    | some false => some peer
    | _ => none
  | .admitted call answer =>
    match x.confirms.get call with
    | some ⟨peer, _, .admitting⟩ => if x.settled ∨ answer = some true then none else some peer
    | _ => none
  | _ => none

def takes (opts : ExchangeOptions) (x : Exchange) : ExchangeEvent → Option String
  | .message (.peerShare peer shareHex ad sidHex) =>
    match hexToBytes shareHex, hexToBytes sidHex with
    | some share, some sid =>
      match x.derivedFor opts ⟨peer, share, ad, sid⟩ with
      | some (.attempt _) => some peer
      | _ => none
    | _, _ => none
  | _ => none

/-- One more peer is seen, and its keys are derived. -/
def counted (x : Exchange) : Exchange :=
  { x with
    graceTimer := false
    seen := x.seen + 1
    outstanding := x.outstanding + 1
    derived := x.derived + 1 }

/-- What a holder says to a share it has taken. -/
def greeting (opts : ExchangeOptions) (attempt : Attempt) : List ExchangeOut :=
  match opts.side with
  | .mailbox =>
    [.send (.toPeer attempt.peer (.share (bytesToHex attempt.ownShare) adCli)),
      ownConfirm opts attempt]
  | .claim => []

/-- What a claimant says to a tag that verified. -/
def ownAnswer (opts : ExchangeOptions) (attempt : Attempt) : List ExchangeOut :=
  match opts.side with
  | .claim => [ownConfirm opts attempt]
  | .mailbox => []

/-- The tables stay as they are, and only the end of the run is reported. -/
structure Idle (x : Exchange) (next : Exchange × List ExchangeOut) : Prop where
  attempts : next.1.attempts = x.attempts
  confirms : next.1.confirms = x.confirms
  calls : next.1.calls = x.calls
  derived : next.1.derived = x.derived
  outstanding : next.1.outstanding = x.outstanding
  seen : x.seen ≤ next.1.seen
  settled : x.settled = true → next.1.settled = true
  grace : next.1.graceTimer = true → x.graceTimer = true
  noMatch : .reject .noMatch ∈ next.2 → x.graceTimer = true
  plain : ∀ o ∈ next.2, o.isPlain = true ∧ o.isSend = false

/-- The peer leaves the table, and the code is called wrong, or the timer set, when the
count says that no other is left. -/
structure RuledOut (x : Exchange) (peer : String) (next : Exchange × List ExchangeOut) : Prop where
  attempts : next.1.attempts = x.attempts.delete peer
  confirms : next.1.confirms = x.confirms
  calls : next.1.calls = x.calls
  derived : next.1.derived = x.derived
  outstanding : next.1.outstanding = x.outstanding - 1
  seen : next.1.seen = x.seen
  settled : x.settled = true → next.1.settled = true
  grace : next.1.graceTimer = true → x.graceTimer = true ∨ next.1.outstanding ≤ 0
  noMatch : .reject .noMatch ∈ next.2 → next.1.outstanding ≤ 0
  plain : ∀ o ∈ next.2, o.isPlain = true

/-- What a step can do, by what brings it about. -/
inductive Effect (opts : ExchangeOptions) (x : Exchange) :
    ExchangeEvent → Exchange × List ExchangeOut → Prop where
  | idle {e : ExchangeEvent} {next : Exchange × List ExchangeOut} (spares : retires opts x e = none)
      (takesNone : takes opts x e = none) (idle : Idle x next) : Effect opts x e next
  | failed {peer : String} {reason : PairFailedReason} {next : Exchange × List ExchangeOut}
      (unsent : ∀ o ∈ next.2, o.isSend = false) (ruled : RuledOut x peer next) :
      Effect opts x (.message (.failed (some peer) reason)) next
  | rejected {peer shareHex ad sidHex : String} {share sid : Bytes} {reason : String}
      {next : Exchange × List ExchangeOut}
      (shareOk : hexToBytes shareHex = some share) (sidOk : hexToBytes sidHex = some sid)
      (derives : x.derivedFor opts ⟨peer, share, ad, sid⟩ = some (.reject reason))
      (ruled : RuledOut x.counted peer next) :
      Effect opts x (.message (.peerShare peer shareHex ad sidHex)) next
  | taken {peer shareHex ad sidHex : String} {share sid : Bytes} {attempt : Attempt}
      (shareOk : hexToBytes shareHex = some share) (sidOk : hexToBytes sidHex = some sid)
      (derives : x.derivedFor opts ⟨peer, share, ad, sid⟩ = some (.attempt attempt)) :
      Effect opts x (.message (.peerShare peer shareHex ad sidHex))
        ({ x.counted with attempts := x.attempts.set peer attempt }, greeting opts attempt)
  | mistaken {peer tagHex : String} {tag : Bytes} {next : Exchange × List ExchangeOut}
      (tagOk : hexToBytes tagHex = some tag) (fails : x.verifiedFor opts peer tag = some false)
      (ruled : RuledOut x peer next) : Effect opts x (.message (.peerConfirm peer tagHex)) next
  | verified {peer tagHex : String} {tag : Bytes} {attempt : Attempt}
      (tagOk : hexToBytes tagHex = some tag) (known : x.attempts.get peer = some attempt)
      (verifies : verifyConfirmation opts.P attempt.keys.confirm .browser tag = true) :
      Effect opts x (.message (.peerConfirm peer tagHex))
        ({ x with
            confirms := x.confirms.set x.calls
              ⟨peer, attempt, if opts.admits then .admitting else .sealing⟩
            calls := x.calls + 1 },
          ownAnswer opts attempt ++ [if opts.admits then .ask x.calls peer (peerLabel attempt)
            else .sealFor x.calls attempt.keys])
  | refused {call : Nat} {answer : Option Bool} {peer : String} {attempt : Attempt}
      {next : Exchange × List ExchangeOut} (unsettled : x.settled = false)
      (asked : x.confirms.get call = some ⟨peer, attempt, .admitting⟩) (no : answer ≠ some true)
      (ruled : RuledOut { x with confirms := x.confirms.delete call } peer next) :
      Effect opts x (.admitted call answer) next
  | allowed {call : Nat} {peer : String} {attempt : Attempt} (unsettled : x.settled = false)
      (asked : x.confirms.get call = some ⟨peer, attempt, .admitting⟩) :
      Effect opts x (.admitted call (some true))
        ({ x with confirms := x.confirms.set call ⟨peer, attempt, .sealing⟩ },
          [.sealFor call attempt.keys])
  | dropped {e : ExchangeEvent} {call : Nat} {next : Exchange × List ExchangeOut}
      (spares : retires opts x e = none) (takesNone : takes opts x e = none)
      (settles : next.1.settled = true)
      (idle : Idle { x with confirms := x.confirms.delete call } next) : Effect opts x e next
  | established {call : Nat} {peer : String} {attempt : Attempt} {blob : Bytes}
      (unsettled : x.settled = false)
      (sealing : x.confirms.get call = some ⟨peer, attempt, .sealing⟩) :
      Effect opts x (.sealed call (.ok blob))
        ({ x with confirms := x.confirms.delete call, settled := true },
          [.send (.toPeer peer (.establish (bytesToBase64Url blob))), .close,
            .resolve ⟨attempt.keys, peerLabel attempt⟩])

theorem finish_eq (x : Exchange) (outcome : ExchangeOut) :
    x.finish outcome =
      ({ x with settled := true }, if x.settled then [] else [.close, outcome]) := by
  unfold finish
  split
  · rename_i hsettled
    rw [← hsettled]
  · rfl

theorem mem_finish {x : Exchange} {outcome o : ExchangeOut} (ho : o ∈ (x.finish outcome).2) :
    o = .close ∨ o = outcome := by
  rw [finish_eq] at ho
  simp only at ho
  split at ho
  · cases ho
  · simpa using ho

theorem idle_nil (x : Exchange) : Idle x (x, []) :=
  ⟨rfl, rfl, rfl, rfl, rfl, Nat.le_refl _, id, id, fun ho => (by cases ho), fun o ho => by cases ho⟩

theorem idle_finish (x : Exchange) {failure : ExchangeFailure}
    (h : failure = .noMatch → x.graceTimer = true) : Idle x (x.finish (.reject failure)) := by
  have hout (o : ExchangeOut) (ho : o ∈ (x.finish (.reject failure)).2) :
      o = .close ∨ o = .reject failure := mem_finish ho
  rw [finish_eq] at hout ⊢
  refine ⟨rfl, rfl, rfl, rfl, rfl, Nat.le_refl _, fun _ => rfl, id, fun ho => ?_, fun o ho => ?_⟩
  · cases hout _ ho with
    | inl hclose => cases hclose
    | inr hreject =>
      cases hreject
      exact h rfl
  · cases hout o ho with
    | inl hclose => rw [hclose]; exact ⟨rfl, rfl⟩
    | inr hreject => rw [hreject]; exact ⟨rfl, rfl⟩

theorem ruleOut_ruledOut (x : Exchange) (peer : String) : RuledOut x peer (x.ruleOut opts peer) := by
  simp only [ruleOut]
  split
  · exact ⟨rfl, rfl, rfl, rfl, rfl, rfl, id, Or.inl, fun ho => (by cases ho),
      fun o ho => by cases ho⟩
  · rename_i hlast
    have hzero : x.outstanding - 1 ≤ 0 := by
      have hnot : ¬ 0 < x.outstanding - 1 := fun hpos => hlast (Or.inr hpos)
      omega
    split
    · have hout (o : ExchangeOut) (ho : o ∈ (finish { x with
          attempts := x.attempts.delete peer, outstanding := x.outstanding - 1 }
            (.reject .noMatch)).2) : o.isPlain = true := by
        cases mem_finish ho with
        | inl hclose => rw [hclose]; rfl
        | inr hreject => rw [hreject]; rfl
      rw [finish_eq] at hout ⊢
      exact ⟨rfl, rfl, rfl, rfl, rfl, rfl, fun _ => rfl, fun _ => Or.inr hzero, fun _ => hzero,
        hout⟩
    · exact ⟨rfl, rfl, rfl, rfl, rfl, rfl, id, fun _ => Or.inr hzero, fun ho => (by cases ho),
        fun o ho => by cases ho⟩

theorem ruleOut_unsent {x : Exchange} {peer : String} {o : ExchangeOut}
    (ho : o ∈ (x.ruleOut opts peer).2) : o.isSend = false := by
  simp only [ruleOut] at ho
  split at ho
  · cases ho
  · split at ho
    · cases mem_finish ho with
      | inl hclose => rw [hclose]; rfl
      | inr hreject => rw [hreject]; rfl
    · cases ho

theorem giveUpOn_ruledOut (x : Exchange) (peer reason : String) : RuledOut x peer (x.giveUpOn opts peer reason) := by
  have hrule : RuledOut x peer (x.ruleOut opts peer) := ruleOut_ruledOut x peer
  refine { hrule with noMatch := fun ho => ?_, plain := fun o ho => ?_ }
  · cases ho with
    | tail _ ho => exact hrule.noMatch ho
  · cases ho with
    | head => rfl
    | tail _ ho => exact hrule.plain o ho

theorem share_effect (x : Exchange) {peer shareHex ad sidHex : String} {share sid : Bytes}
    (shareOk : hexToBytes shareHex = some share) (sidOk : hexToBytes sidHex = some sid) :
    Effect opts x (.message (.peerShare peer shareHex ad sidHex)) (x.handlePeerShare opts ⟨peer, share, ad, sid⟩) := by
  have hidle (hnone : x.derivedFor opts ⟨peer, share, ad, sid⟩ = none)
      {next : Exchange × List ExchangeOut} (h : Idle x next) :
      Effect opts x (.message (.peerShare peer shareHex ad sidHex)) next := by
    refine .idle ?_ ?_ h
    · simp only [retires, shareOk, sidOk, hnone]
    · simp only [takes, shareOk, sidOk, hnone]
  simp only [handlePeerShare]
  split
  · rename_i hknown
    exact hidle (if_pos hknown) (idle_nil x)
  · rename_i hfresh
    split
    · rename_i hfull
      have hnone : x.derivedFor opts ⟨peer, share, ad, sid⟩ = none := by
        rw [derivedFor, if_neg hfresh, if_pos hfull]
      let y : Exchange := { x with graceTimer := false, seen := x.seen + 1 }
      have hy : Idle y (y.finish (.reject .tooManyPeers)) := idle_finish y fun h => by cases h
      exact hidle hnone { hy with seen := le_trans (Nat.le_succ _) hy.seen, grace := fun h => (by cases hy.grace h), noMatch := fun h => (by cases hy.noMatch h) }
    · rename_i hroom
      have hsome : x.derivedFor opts ⟨peer, share, ad, sid⟩ =
          some (opts.derive x.derived ⟨peer, share, ad, sid⟩) := by
        rw [derivedFor, if_neg hfresh, if_neg hroom]
      split
      · rename_i reason hderive
        rw [hderive] at hsome
        exact .rejected shareOk sidOk hsome (giveUpOn_ruledOut _ _ _)
      · rename_i attempt hderive
        have hpeer : attempt.peer = peer := opts.derive_peer _ _ _ hderive
        rw [hderive] at hsome
        have heffect : Effect opts x (.message (.peerShare peer shareHex ad sidHex))
            ({ x.counted with attempts := x.attempts.set peer attempt }, greeting opts attempt) :=
          .taken shareOk sidOk hsome
        rw [hpeer]
        rw [greeting, hpeer] at heffect
        exact heffect

theorem confirm_effect (x : Exchange) {peer tagHex : String} {tag : Bytes} (tagOk : hexToBytes tagHex = some tag) :
    Effect opts x (.message (.peerConfirm peer tagHex)) (x.handlePeerConfirm opts peer tag) := by
  cases hattempt : x.attempts.get peer with
  | none =>
    simp only [handlePeerConfirm, hattempt]
    refine .idle ?_ rfl (idle_nil x)
    simp only [retires, tagOk, Option.bind_some, verifiedFor, hattempt, Option.map_none]
  | some attempt =>
    cases hverify : verifyConfirmation opts.P attempt.keys.confirm .browser tag with
    | true =>
      simp only [handlePeerConfirm, hattempt, hverify, if_true]
      exact .verified tagOk hattempt hverify
    | false =>
      have hfails : x.verifiedFor opts peer tag = some false := by
        rw [verifiedFor, hattempt, Option.map_some, hverify]
      simp only [handlePeerConfirm, hattempt, hverify]
      exact .mistaken tagOk hfails (giveUpOn_ruledOut _ _ _)

theorem admitted_effect (x : Exchange) (call : Nat) (answer : Option Bool) :
    Effect opts x (.admitted call answer) (x.admitted opts call answer) := by
  simp only [admitted]
  split
  · rename_i peer attempt hasked
    split
    · rename_i hsettled
      refine .dropped ?_ rfl hsettled (idle_nil _)
      simp only [retires, hasked]
      exact if_pos (Or.inl hsettled)
    · rename_i hsettled
      have hunsettled : x.settled = false := by simpa using hsettled
      split
      · rename_i hyes
        rw [hyes]
        exact .allowed hunsettled hasked
      · rename_i hno
        exact .refused hunsettled hasked hno (giveUpOn_ruledOut _ _ _)
  · rename_i hnone
    refine .idle ?_ rfl (idle_nil x)
    simp only [retires]

theorem sealed_effect (x : Exchange) (call : Nat) (result : Except String Bytes) :
    Effect opts x (.sealed call result) (x.sealed call result) := by
  simp only [sealed]
  split
  · rename_i peer attempt hsealing
    cases result with
    | error message =>
      simp only
      refine .dropped rfl rfl ?_ (idle_finish _ fun h => by cases h)
      rw [finish_eq]
    | ok blob =>
      simp only
      split
      · rename_i hsettled
        exact .dropped rfl rfl hsettled (idle_nil _)
      · rename_i hsettled
        simp only [finish_eq, if_neg hsettled]
        exact .established (by simpa using hsettled) hsealing
  · exact .idle rfl rfl (idle_nil x)

theorem step_effect (x : Exchange) (e : ExchangeEvent) : Effect opts x e (x.step opts e) := by
  cases e with
  | message message =>
    cases message with
    | ready _ _ _ | established _ _ => exact .idle rfl rfl (idle_nil x)
    | failed peer reason =>
      cases peer with
      | none => exact .idle rfl rfl (idle_finish x fun h => by cases h)
      | some peer => exact .failed (fun o ho => ruleOut_unsent ho) (ruleOut_ruledOut x peer)
    | peerShare peer shareHex ad sidHex =>
      simp only [step, handle]
      split
      · rename_i share sid hshare hsid
        exact share_effect x hshare hsid
      · rename_i hnone
        refine .idle ?_ ?_ (idle_nil x)
        · simp only [retires]
        · simp only [takes]
    | peerConfirm peer tagHex =>
      simp only [step, handle]
      split
      · rename_i tag htag
        exact confirm_effect x htag
      · rename_i hnone
        refine .idle ?_ rfl (idle_nil x)
        simp only [retires, hnone, Option.bind_none]
  | admitted call answer => exact admitted_effect x call answer
  | sealed call result => exact sealed_effect x call result
  | grace =>
    simp only [step]
    split
    · rename_i hgrace
      exact .idle rfl rfl (idle_finish x fun _ => hgrace)
    · exact .idle rfl rfl (idle_nil x)
  | _ => exact .idle rfl rfl (idle_finish x fun h => by cases h)

end Exchange
end Mtmux.Cli
