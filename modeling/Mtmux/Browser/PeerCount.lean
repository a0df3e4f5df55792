import Mtmux.Browser.Pairing
import Mtmux.Cli.PairingClient
import Mtmux.Cli.PeerCount

/-! The count of candidate terminals in a browser that claims a code, and at both ends. -/
namespace Mtmux.Browser
open Protocol Crypto OrderedMap List

namespace JoinPairing
variable {G : Type} {cfg : PairingConfig G} {cpace : CPaceState}

abbrev JoinEntry : Type := Machine.Entry JoinPairing JoinEvent PairingOut

def tally (j : JoinPairing) : Tally := ⟨j.attempts.size, j.outstanding, j.graceTimer⟩

/-- A failure is delivered that names a terminal not in the table. -/
def strays (x : JoinEntry) : Bool :=
  match x.event with
  | .message (.failed (some peer) _) => x.pre.socket = .opened && !x.pre.attempts.has peer
  | _ => false

/-- The counter is the size of the table in every state, and the code is called wrong only
when no terminal that has answered is left in it. -/
def PeersCounted [AddCommGroup G] [DecidableEq G] (cfg : PairingConfig G) (cpace : CPaceState)
    (es : List JoinEvent) : Prop :=
  (∀ before after, es = before ++ after →
    ((joinPairing cfg cpace).run before).outstanding =
      ((joinPairing cfg cpace).run before).attempts.size) ∧
  ∀ x ∈ (joinPairing cfg cpace).trace es, .update (.failed .noMatch) ∈ x.out →
    x.post.attempts.size = 0

variable {j : JoinPairing}

theorem moves_same {next : JoinPairing × List PairingOut}
    (attempts : next.1.attempts = j.attempts) (outstanding : next.1.outstanding = j.outstanding)
    (grace : next.1.graceTimer = true → j.graceTimer = true)
    (noMatch : .update (.failed .noMatch) ∈ next.2 → j.graceTimer = true) :
    (tally j).Moves (tally next.1) false (.update (.failed .noMatch) ∈ next.2) := by
  refine ⟨?_, fun harmed => Or.inl ⟨grace harmed, ?_⟩, fun hd => Or.inl ⟨noMatch hd, ?_⟩⟩
  · simp [tally, attempts, outstanding]
  · simp [tally, attempts]
  · simp [tally, attempts]

variable {j' : JoinPairing}

theorem moves_nil (attempts : j'.attempts = j.attempts) (outstanding : j'.outstanding = j.outstanding)
    (grace : j'.graceTimer = true → j.graceTimer = true) :
    (tally j).Moves (tally j') false (.update (.failed .noMatch) ∈ ([] : List PairingOut)) := by
  refine @moves_same j (j', []) attempts outstanding grace fun hd => ?_
  cases hd

theorem fail_frame (j : JoinPairing) (failure : PairingFailure) :
    (j.fail failure).1.attempts = j.attempts ∧ (j.fail failure).1.outstanding = j.outstanding ∧
      ((j.fail failure).1.graceTimer = true → j.graceTimer = true) ∧
      (.update (.failed .noMatch) ∈ (j.fail failure).2 → failure = .noMatch) := by
  unfold fail
  split
  · exact ⟨rfl, rfl, id, fun hd => by cases hd⟩
  · refine ⟨rfl, rfl, fun h => (by cases h), fun hd => ?_⟩
    cases mem_singleton.1 hd
    rfl

theorem moves_fail (attempts : j'.attempts = j.attempts) (outstanding : j'.outstanding = j.outstanding)
    (grace : j'.graceTimer = true → j.graceTimer = true) {failure : PairingFailure}
    (noMatch : failure = .noMatch → j.graceTimer = true) : (tally j).Moves (tally (j'.fail failure).1) false
      (.update (.failed .noMatch) ∈ (j'.fail failure).2) := by
  obtain ⟨hattempts, houtstanding, hgrace, hdeclared⟩ := fail_frame j' failure
  exact moves_same (hattempts.trans attempts) (houtstanding.trans outstanding)
    (fun h => grace (hgrace h)) fun h => noMatch (hdeclared h)

theorem ruleOut_spec (j : JoinPairing) (peer : String) : (j.ruleOut peer).1.attempts = j.attempts.delete peer ∧
      (j.ruleOut peer).1.outstanding = j.outstanding - 1 ∧
      ((j.ruleOut peer).1.graceTimer = true → j.graceTimer = true ∨ j.outstanding - 1 ≤ 0) ∧
      (.update (.failed .noMatch) ∈ (j.ruleOut peer).2 → j.outstanding - 1 ≤ 0) := by
  simp only [ruleOut]
  split
  · exact ⟨rfl, rfl, Or.inl, fun hd => by cases hd⟩
  · rename_i hlast
    have hzero : j.outstanding - 1 ≤ 0 := by
      have hnot : ¬ 0 < j.outstanding - 1 := fun hpos => hlast (Or.inr hpos)
      omega
    split
    · obtain ⟨hattempts, houtstanding, hgrace, -⟩ := fail_frame { j with
        attempts := j.attempts.delete peer, outstanding := j.outstanding - 1 } .noMatch
      exact ⟨hattempts, houtstanding, fun h => Or.inl (hgrace h), fun _ => hzero⟩
    · exact ⟨rfl, rfl, fun _ => Or.inr hzero, fun hd => by cases hd⟩

theorem moves_ruleOut (j : JoinPairing) (peer : String) :
    (tally j).Moves (tally (j.ruleOut peer).1) (!j.attempts.has peer)
      (.update (.failed .noMatch) ∈ (j.ruleOut peer).2) := by
  obtain ⟨hattempts, houtstanding, hgrace, hdeclared⟩ := ruleOut_spec j peer
  have hle : (j.attempts.delete peer).size ≤ j.attempts.size := length_filter_le _ _
  refine ⟨?_, fun harmed => ?_, fun hd => Or.inr ?_⟩
  · simp only [tally, hattempts, houtstanding]
    cases hget : j.attempts.get peer with
    | none =>
      rw [delete_of_absent hget, if_pos (by simp [OrderedMap.has, hget])]
      omega
    | some keys =>
      have hone := size_delete hget
      rw [if_neg (by simp [OrderedMap.has, hget])]
      omega
  · cases hgrace harmed with
    | inl hset =>
      refine Or.inl ⟨hset, ?_⟩
      simp only [tally, hattempts]
      exact hle
    | inr hzero =>
      refine Or.inr ?_
      simp only [tally, houtstanding]
      exact hzero
  · simp only [tally, houtstanding]
    exact hdeclared hd

theorem moves_peerShare [AddCommGroup G] [DecidableEq G] (j : JoinPairing) (peer : String)
    (share : Bytes) (ad : String) : (tally j).Moves (tally (j.peerShare cfg cpace peer share ad).1) false
      (.update (.failed .noMatch) ∈ (j.peerShare cfg cpace peer share ad).2) := by
  simp only [peerShare]
  split
  · exact moves_nil rfl rfl id
  · rename_i hknown
    have hfresh : j.attempts.get peer = none := by simpa [OrderedMap.has] using hknown
    split
    · let k : JoinPairing := { j with graceTimer := false, seen := j.seen + 1 }
      exact @moves_fail j k rfl rfl (fun h => (by cases h)) _ fun h => by cases h
    · split
      · let k : JoinPairing := { j with
          graceTimer := false, seen := j.seen + 1, outstanding := j.outstanding + 1 }
        obtain ⟨hattempts, houtstanding, hgrace, hdeclared⟩ := ruleOut_spec k peer
        have hcount : k.outstanding - 1 = j.outstanding := by simp [k]
        rw [hcount] at houtstanding hgrace hdeclared
        refine ⟨?_, fun harmed => ?_, fun hd => Or.inr ?_⟩
        · simp only [tally, giveUpOn]
          rw [hattempts, houtstanding, delete_of_absent hfresh]
          simp
        · cases hgrace harmed with
          | inl hset => cases hset
          | inr hzero =>
            refine Or.inr ?_
            simp only [tally, giveUpOn]
            rw [houtstanding]
            exact hzero
        · simp only [tally, giveUpOn]
          rw [houtstanding]
          cases hd with
          | tail _ hd => exact hdeclared hd
      · refine ⟨?_, fun harmed => ?_, fun hd => ?_⟩
        · simp only [tally, size_set_new hfresh, Bool.false_eq_true, if_false]
          push_cast
          omega
        · cases harmed
        · cases hd

theorem moves_peerConfirm (j : JoinPairing) (peer : String) (tag : Bytes) :
    (tally j).Moves (tally (j.peerConfirm cfg peer tag).1) false
      (.update (.failed .noMatch) ∈ (j.peerConfirm cfg peer tag).2) := by
  simp only [peerConfirm]
  split
  · exact moves_nil rfl rfl id
  · rename_i keys hget
    split
    · refine moves_same rfl rfl id fun hd => ?_
      cases mem_singleton.1 hd
    · have hmoves := moves_ruleOut j peer
      rw [show (!j.attempts.has peer) = false by simp [OrderedMap.has, hget]] at hmoves
      refine ⟨hmoves.balance, hmoves.armed, fun hd => hmoves.declared ?_⟩
      cases hd with
      | tail _ hd => exact hd

theorem moves_unsealed (attempts : j'.attempts = j.attempts)
    (outstanding : j'.outstanding = j.outstanding) (grace : j'.graceTimer = j.graceTimer)
    (keys : SessionKeys) (sealedDescriptor : String) :
    (tally j).Moves (tally (unsealed cfg j' keys sealedDescriptor).1) false
      (.update (.failed .noMatch) ∈ (unsealed cfg j' keys sealedDescriptor).2) := by
  have hgrace (h : j'.graceTimer = true) : j.graceTimer = true := by rw [← grace]; exact h
  unfold unsealed
  split
  · exact moves_fail attempts outstanding hgrace fun h => by cases h
  · split
    · exact moves_nil attempts outstanding hgrace
    · refine moves_same attempts outstanding hgrace fun hd => ?_
      cases mem_singleton.1 hd

theorem moves_respond (attempts : j'.attempts = j.attempts)
    (outstanding : j'.outstanding = j.outstanding) (grace : j'.graceTimer = j.graceTimer) (response : ClaimResponse) :
    (tally j).Moves (tally (j'.respond response).1) false (.update (.failed .noMatch) ∈ (j'.respond response).2) := by
  have hgrace (h : j'.graceTimer = true) : j.graceTimer = true := by rw [← grace]; exact h
  cases response with
  | granted =>
    simp only [respond]
    split
    · exact moves_nil attempts outstanding hgrace
    · exact moves_nil attempts outstanding hgrace
  | _ => exact moves_fail attempts outstanding hgrace fun h => by cases h

theorem step_tally [AddCommGroup G] [DecidableEq G] (j : JoinPairing) (e : JoinEvent) :
    (tally j).Moves (tally ((joinPairing cfg cpace).step j e).1) (strays ((joinPairing cfg cpace).entry j e))
      (.update (.failed .noMatch) ∈ ((joinPairing cfg cpace).entry j e).out) := by
  have hstrays : strays ((joinPairing cfg cpace).entry j e) = strays ⟨j, e, [], j⟩ := rfl
  have hout : ((joinPairing cfg cpace).entry j e).out = (j.step cfg cpace e).2 := rfl
  have hpost : ((joinPairing cfg cpace).step j e).1 = (j.step cfg cpace e).1 := rfl
  rw [hstrays, hout, hpost]
  cases e with
  | response response =>
    simp only [step]
    split
    · refine moves_respond ?_ ?_ ?_ response
      · rfl
      · rfl
      · rfl
    · exact moves_nil rfl rfl id
  | message message =>
    cases message with
    | failed peer reason =>
      cases peer with
      | none =>
        simp only [step]
        split
        · exact moves_fail rfl rfl id fun h => by cases h
        · exact moves_nil rfl rfl id
      | some peer =>
        have hstray : strays ⟨j, .message (.failed (some peer) reason), [], j⟩ =
          (decide (j.socket = .opened) && !j.attempts.has peer) := rfl
        rw [hstray]
        simp only [step]
        split
        · rename_i hopen
          rw [decide_eq_true hopen, Bool.true_and]
          exact moves_ruleOut j peer
        · rename_i hclosed
          rw [decide_eq_false hclosed, Bool.false_and]
          exact moves_nil rfl rfl id
    | ready mailboxId slot expiresAt =>
      simp only [step]
      split
      · exact moves_nil rfl rfl id
      · exact moves_nil rfl rfl id
    | peerShare peer share ad sid =>
      simp only [step, handle]
      split
      · split
        · exact moves_peerShare j peer _ ad
        · exact moves_nil rfl rfl id
      · exact moves_nil rfl rfl id
    | peerConfirm peer tag =>
      simp only [step, handle]
      split
      · split
        · exact moves_peerConfirm j peer _
        · exact moves_nil rfl rfl id
      · exact moves_nil rfl rfl id
    | established peer blob =>
      simp only [step, handle]
      split
      · split
        · exact moves_nil rfl rfl id
        · exact moves_nil rfl rfl id
      · exact moves_nil rfl rfl id
  | unsealed n =>
    simp only [step]
    split
    · exact moves_nil rfl rfl id
    · refine moves_unsealed ?_ ?_ ?_ _ _
      · rfl
      · rfl
      · rfl
  | grace =>
    simp only [step]
    split
    · rename_i hset
      exact moves_fail rfl rfl id fun _ => hset
    · exact moves_nil rfl rfl id
  | socketClose =>
    simp only [step]
    split
    · exact moves_nil rfl rfl id
    · let k : JoinPairing := { j with socket := .closed }
      exact @moves_fail j k rfl rfl id _ fun h => by cases h
  | cancel => exact moves_nil rfl rfl id

end JoinPairing

/-- At both ends the count is the table's, and a wrong code is declared only when no candidate
is left, exactly when nobody is ruled out who is not a candidate. -/
theorem peers_counted_iff {G : Type} [AddCommGroup G] [DecidableEq G] (opts : Cli.ExchangeOptions)
    (es : List Cli.ExchangeEvent) (cfg : PairingConfig G) (cpace : CPaceState) (fs : List JoinEvent) :
    (Cli.Exchange.PeersCounted opts es ↔
        ∀ x ∈ (Cli.Exchange.runExchange opts).trace es, Cli.Exchange.strays x = false) ∧
      (JoinPairing.PeersCounted cfg cpace fs ↔
        ∀ x ∈ (JoinPairing.joinPairing cfg cpace).trace fs, JoinPairing.strays x = false) := by
  constructor
  · exact (Cli.Exchange.runExchange opts).tally_iff Cli.Exchange.tally Cli.Exchange.strays
      (fun x => Cli.ExchangeOut.reject .noMatch ∈ x.out) ⟨rfl, fun h => (by cases h)⟩
      Cli.Exchange.step_tally es
  · exact (JoinPairing.joinPairing cfg cpace).tally_iff JoinPairing.tally JoinPairing.strays
      (fun x => PairingOut.update (.failed .noMatch) ∈ x.out) ⟨rfl, fun h => (by cases h)⟩
      JoinPairing.step_tally fs

/-- One peer answers, a failure names another, and the timer set by it fires. -/
def strayFailure : List PairingServerMessage :=
  [.peerShare "peer-1" (bytesToHex (5 :: List.replicate 31 0)) "phone"
      (bytesToHex (List.replicate 16 7)),
    .failed (some "peer-2") .peerGone]

def sampleConfig : PairingConfig (ZMod 251) where
  P := Cli.plainPrimitives
  gcm := ⟨fun _ _ data => data, fun _ _ data => some data⟩
  R := Cli.residueCurve
  ownAd := "phone"
  parseDescriptor _ := none

def sampleState : CPaceState := ⟨List.replicate 16 7, 3, 117 :: List.replicate 31 0⟩

/-- The code is called wrong while its terminal is in the table, at either end. -/
theorem wrong_code_with_candidate :
    ¬ Cli.Exchange.PeersCounted Cli.sampleClaim (strayFailure.map .message ++ [.grace]) ∧
      ¬ JoinPairing.PeersCounted sampleConfig sampleState
        (.response .granted :: strayFailure.map .message ++ [.grace]) := by
  refine ⟨fun h => ?_, fun h => ?_⟩
  · have hdeclared := h.2 _ (((Cli.Exchange.runExchange Cli.sampleClaim).mem_trace _ _).2
      ⟨strayFailure.map .message, .grace, [], rfl, rfl⟩) (by decide +kernel)
    exact absurd hdeclared (by decide +kernel)
  · have hdeclared := h.2 _ (((JoinPairing.joinPairing sampleConfig sampleState).mem_trace _ _).2
      ⟨.response .granted :: strayFailure.map .message, .grace, [], rfl, rfl⟩) (by decide +kernel)
    exact absurd hdeclared (by decide +kernel)

end Mtmux.Browser
