import Mtmux.Base.Ledger
import Mtmux.Cli.ExchangeSafety

/-! The count of candidate peers in a pairing exchange, beside its table of attempts. -/
namespace Mtmux.Cli
open OrderedMap List

namespace Exchange
variable {opts : ExchangeOptions}

def tally (x : Exchange) : Tally := ⟨x.attempts.size, x.outstanding, x.graceTimer⟩

/-- A peer is ruled out that is not in the table: by a failure that names one that never
answered or is gone, or by a refusal once it is gone. -/
def strays (x : ExchangeEntry) : Bool :=
  match x.event with
  | .message (.failed (some peer) _) => !x.pre.attempts.has peer
  | .admitted call answer =>
    match x.pre.confirms.get call with
    | some ⟨peer, _, .admitting⟩ =>
      !x.pre.settled && answer ≠ some true && !x.pre.attempts.has peer
    | _ => false
  | _ => false

/-- The counter is the size of the table in every state, and the code is called wrong only
when no peer that has answered is left in it. -/
def PeersCounted (opts : ExchangeOptions) (es : List ExchangeEvent) : Prop :=
  (∀ before after, es = before ++ after →
    ((runExchange opts).run before).outstanding = ((runExchange opts).run before).attempts.size) ∧
  ∀ x ∈ (runExchange opts).trace es, .reject .noMatch ∈ x.out → x.post.attempts.size = 0

variable {x : Exchange}

theorem has_eq_false {peer : String} : (!x.attempts.has peer) = true ↔ x.attempts.get peer = none := by
  simp [OrderedMap.has]

theorem spared_of_retires {e : ExchangeEvent} (h : retires opts x e = none) :
    strays ((runExchange opts).entry x e) = false := by
  cases e with
  | message message =>
    cases message with
    | failed peer reason =>
      cases peer with
      | none => rfl
      | some peer => cases h
    | _ => rfl
  | admitted call answer =>
    simp only [strays, Machine.entry]
    split
    · rename_i peer attempt hasked
      simp only [retires, hasked] at h
      split at h
      · rename_i hcase
        cases hcase with
        | inl hsettled => simp [hsettled]
        | inr hyes => simp [hyes]
      · cases h
    · rfl
  | _ => rfl

variable {next : Exchange × List ExchangeOut}

theorem Idle.tally_moves (h : Idle x next) : (tally x).Moves (tally next.1) false (.reject .noMatch ∈ next.2) := by
  refine ⟨?_, fun harmed => Or.inl ⟨h.grace harmed, ?_⟩, fun hd => Or.inl ⟨h.noMatch hd, ?_⟩⟩
  · simp [tally, h.attempts, h.outstanding]
  · simp [tally, h.attempts]
  · simp [tally, h.attempts]

theorem RuledOut.tally_moves {y : Exchange} {peer : String}
    (h : RuledOut y peer next) (attempts : y.attempts = x.attempts)
    (outstanding : y.outstanding = x.outstanding) (grace : y.graceTimer = x.graceTimer) :
    (tally x).Moves (tally next.1) (!x.attempts.has peer) (.reject .noMatch ∈ next.2) := by
  have hsize : (tally next.1).size = (x.attempts.delete peer).size := by
    simp only [tally, h.attempts, attempts]
  have hcounter : (tally next.1).counter = x.outstanding - 1 := by
    simp only [tally, h.outstanding, outstanding]
  have hle : (x.attempts.delete peer).size ≤ x.attempts.size := length_filter_le _ _
  refine ⟨?_, fun harmed => ?_, fun hd => Or.inr (h.noMatch hd)⟩
  · rw [hsize, hcounter]
    cases hget : x.attempts.get peer with
    | none =>
      rw [delete_of_absent hget, has_eq_false.2 hget, if_pos rfl]
      simp only [tally]
      omega
    | some attempt =>
      have hone := size_delete hget
      have hhas : (!x.attempts.has peer) = false := by simp [OrderedMap.has, hget]
      rw [hhas, if_neg Bool.false_ne_true]
      simp only [tally]
      omega
  · cases h.grace harmed with
    | inl hgrace =>
      rw [grace] at hgrace
      refine Or.inl ⟨hgrace, ?_⟩
      rw [hsize]
      exact hle
    | inr hzero => exact Or.inr hzero

theorem step_tally (x : Exchange) (e : ExchangeEvent) : (tally x).Moves (tally ((runExchange opts).step x e).1)
      (strays ((runExchange opts).entry x e)) (.reject .noMatch ∈ ((runExchange opts).entry x e).out) := by
  have hspared := @spared_of_retires opts x e
  have heffect : Effect opts x e (x.step opts e) := step_effect x e
  have hstrays : strays ((runExchange opts).entry x e) = strays ⟨x, e, [], x⟩ := rfl
  have hout : ((runExchange opts).entry x e).out = (x.step opts e).2 := rfl
  have hpost : ((runExchange opts).step x e).1 = (x.step opts e).1 := rfl
  rw [hout, hpost]
  rw [hstrays] at hspared ⊢
  generalize x.step opts e = next at heffect ⊢
  cases heffect with
  | idle spares takesNone hidle =>
    rw [hspared spares]
    exact hidle.tally_moves
  | failed unsent hruled => exact hruled.tally_moves rfl rfl rfl
  | rejected shareOk sidOk derives hruled =>
    have hfresh := (derivedFor_some derives).1
    have hsize : (tally next.1).size = x.attempts.size := by
      simp only [tally, hruled.attempts]
      rw [show x.counted.attempts = x.attempts from rfl, delete_of_absent hfresh]
    have hcounter : (tally next.1).counter = x.outstanding := by
      simp only [tally, hruled.outstanding, counted]
      omega
    refine ⟨?_, fun harmed => ?_, fun hd => Or.inr (hruled.noMatch hd)⟩
    · rw [hsize, hcounter]
      simp [tally, strays]
    · cases hruled.grace harmed with
      | inl hgrace => cases hgrace
      | inr hzero => exact Or.inr hzero
  | taken shareOk sidOk derives =>
    have hfresh := (derivedFor_some derives).1
    refine ⟨?_, fun harmed => ?_, fun hd => ?_⟩
    · simp only [tally, counted, size_set_new hfresh, strays, Bool.false_eq_true,
        if_false]
      push_cast
      omega
    · cases harmed
    · cases greeting_out hd with
      | inl ho => cases ho
      | inr ho => cases ho
  | @mistaken peer tagHex tag _ tagOk fails hruled =>
    have hmoves := hruled.tally_moves rfl rfl rfl
    have hhas : (!x.attempts.has peer) = false := by
      rw [verifiedFor] at fails
      obtain ⟨attempt, hget, -⟩ := Option.map_eq_some_iff.1 fails
      simp [OrderedMap.has, hget]
    rw [hhas] at hmoves
    exact hmoves
  | verified tagOk known verifies =>
    refine ⟨by simp [tally, strays], fun harmed => Or.inl ⟨harmed, Nat.le_refl _⟩, fun hd => ?_⟩
    cases mem_append.1 hd with
    | inl ho => cases (ownAnswer_out ho).1
    | inr ho =>
      split at ho
      · cases mem_singleton.1 ho
      · cases mem_singleton.1 ho
  | @refused call answer peer attempt _ unsettled asked no hruled =>
    have hmoves : (tally x).Moves (tally next.1) (!x.attempts.has peer)
        (.reject .noMatch ∈ next.2) := hruled.tally_moves rfl rfl rfl
    have hstray : strays ⟨x, .admitted call answer, [], x⟩ = !x.attempts.has peer := by
      simp [strays, asked, unsettled, no]
    rw [hstray]
    exact hmoves
  | allowed unsettled asked =>
    refine ⟨?_, fun harmed => Or.inl ⟨harmed, Nat.le_refl _⟩, fun hd => ?_⟩
    · simp [tally, strays, asked]
    · cases mem_singleton.1 hd
  | dropped spares takesNone settles hidle =>
    rw [hspared spares]
    exact hidle.tally_moves
  | established unsettled sealing =>
    refine ⟨by simp [tally, strays], fun harmed => Or.inl ⟨harmed, Nat.le_refl _⟩, fun hd => ?_⟩
    simp at hd

end Exchange
end Mtmux.Cli
