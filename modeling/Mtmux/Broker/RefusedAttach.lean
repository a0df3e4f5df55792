import Mtmux.Broker.PairingRelay
import Mtmux.Broker.RateWindow
import Mtmux.Broker.System

/-! What is left of the budgets when an attach is refused. -/
namespace Mtmux.Broker
open Protocol MailboxStore RateLimiter List

/-- How many units of a key a limiter still has at a time. -/
def RateLimiter.room (l : RateLimiter) (key : String) (t : Nat) : Nat := l.limit - (l.live key t).length

theorem RateLimiter.take_ok (l : RateLimiter) (key : String) (now : Nat) :
    (l.take key now).2 = decide ((l.live key now).length < l.limit) := by
  have h := windowed_answer.take l key now
  simpa [RateLimiter.answer] using h

theorem RateLimiter.take_answers (l : RateLimiter) (key : String) (now : Nat) :
    l.Answers (l.take key now).1 now fun k => if (l.live key now).length < l.limit ∧ k = key then [now] else [] :=
  windowed_answer.taken l key now

theorem RateLimiter.room_refused {l : RateLimiter} {key : String} {now : Nat} (h : (l.take key now).2 = false)
    (k : String) {later : Nat} (hlater : now ≤ later) : (l.take key now).1.room k later = l.room k later := by
  rw [take_ok] at h
  have hfull : ¬ (l.live key now).length < l.limit := of_decide_eq_false h
  have hanswers := l.take_answers key now
  simp only [hfull, false_and, if_false] at hanswers
  rw [room, room, hanswers.limit, hanswers.live k later hlater]
  simp [SlidingWindow.within]

theorem RateLimiter.room_taken {l : RateLimiter} {key : String} {now : Nat} (h : (l.take key now).2 = true)
    (hwindow : 0 < l.windowMs) : (l.take key now).1.room key now < l.room key now := by
  rw [take_ok] at h
  have hroom : (l.live key now).length < l.limit := of_decide_eq_true h
  have hanswers := l.take_answers key now
  have hnow : now < now + l.windowMs := by omega
  rw [room, room, hanswers.limit, hanswers.live key now (Nat.le_refl _)]
  simp only [hroom, true_and, if_true, SlidingWindow.within, filter_cons, hnow, decide_true, filter_nil,
    length_append, length_cons, length_nil]
  omega

namespace Pairing
variable {cfg : PairingConfig} {now : Nat} {p : Pairing}

/-- The answer of an attach that the budgets refuse. -/
def Refuses (out : List PairingOut) : Prop := ∃ sock, .send sock (.failed none .rateLimited) ∈ out

structure SpendsNothing (now : Nat) (c : String) (p p' : Pairing) : Prop where
  boxes : p'.store.boxes = p.store.boxes
  mailboxes : p'.store.mailboxes = p.store.mailboxes
  bySlot : p'.store.bySlot = p.store.bySlot
  claims : ∀ c', p'.store.storedClaim c' = if c' = c then none else p.store.storedClaim c'
  payloads : ∀ c', p'.claimPayloads.get c' = if c' = c then none else p.claimPayloads.get c'
  slotBudget : ∀ key later, now ≤ later → p'.slotClaimLimiter.room key later = p.slotClaimLimiter.room key later
  globalBudget : ∀ key later, now ≤ later → p'.globalClaimLimiter.room key later = p.globalClaimLimiter.room key later

/-- The budget of the claim's own slot has nothing left. -/
def SlotSpent (now : Nat) (c : String) (p : Pairing) : Prop :=
  ∃ cl, p.store.storedClaim c = some cl ∧ p.slotClaimLimiter.room (slotKey cl.slot) now = 0

theorem chargeBudgets_limiters (now : Nat) (p : Pairing) (slot : String) :
    ((chargeBudgets now p slot).1.slotClaimLimiter = (p.slotClaimLimiter.take (slotKey slot) now).1) ∧
      (chargeBudgets now p slot).1.claimPayloads = p.claimPayloads ∧
      (chargeBudgets now p slot).1.globalClaimLimiter =
        (if (p.slotClaimLimiter.take (slotKey slot) now).2 = true then (p.globalClaimLimiter.take globalKey now).1
          else p.globalClaimLimiter) ∧
      (chargeBudgets now p slot).2 = ((p.slotClaimLimiter.take (slotKey slot) now).2 &&
        (p.globalClaimLimiter.take globalKey now).2) := by
  rw [chargeBudgets]
  rcases p.slotClaimLimiter.take (slotKey slot) now with ⟨bySlot, _ | _⟩
  · exact ⟨rfl, rfl, rfl, rfl⟩
  · simp

theorem storedClaim_destroy (st : MailboxStore) (c c' : String) :
    (st.destroyClaim c).storedClaim c' = if c' = c then none else st.storedClaim c' := by
  by_cases hc : c' = c
  · simp [MailboxStore.storedClaim, MailboxStore.destroyClaim, hc]
  · simp [MailboxStore.storedClaim, MailboxStore.destroyClaim, hc]

variable {msg : PairingServerMessage}

theorem fanOut_not_send (c : String) (payload : ClaimPayload) (boxes : List Mailbox) (st : MailboxStore) (drawn : Nat)
    {sock : Nat} : .send sock msg ∉ (fanOut cfg c payload boxes st drawn).2.2 := by
  induction boxes generalizing st drawn with
  | nil => simp [fanOut]
  | cons box boxes ih =>
    rw [fanOut]
    rcases st.claimMailbox box.id c (cfg.rnd drawn) with ⟨st', _ | _⟩
    · exact ih st' (drawn + 1)
    · dsimp only
      rw [mem_append, not_or]
      refine ⟨fun hmem => ?_, ih _ _⟩
      obtain ⟨via, he⟩ := mem_deliver hmem
      cases he

theorem attachClaimant_not_send (p : Pairing) (n : Nat) (cl : Claim) {sock : Nat} :
    .send sock msg ∉ (attachClaimant cfg now p n cl).2 := by
  have hflushed : .send sock msg ∉ (p.store.attach (.claim cl.id) n).2 := by
    intro hmem
    obtain ⟨message, he⟩ := mem_attach hmem
    cases he
  unfold attachClaimant
  dsimp only
  split
  · exact hflushed
  · dsimp only
    rw [mem_append, not_or]
    exact ⟨hflushed, fanOut_not_send _ _ _ _ _⟩

theorem attach_refused {c : String} (h : Refuses (attachClaimSocket cfg now p c).2) :
    ∃ cl, p.store.storedClaim c = some cl ∧
      (chargeBudgets now { p with nextSocket := p.nextSocket + 1 } cl.slot).2 = false ∧
      (attachClaimSocket cfg now p c).1 =
        (chargeBudgets now { p with nextSocket := p.nextSocket + 1 } cl.slot).1.forgetClaim c := by
  obtain ⟨sock, hsock⟩ := h
  rw [attachClaimSocket] at hsock ⊢
  rcases hg : p.store.getClaim c now with ⟨st, _ | cl⟩
  · rw [hg] at hsock
    simp at hsock
  obtain ⟨rfl, hlisted, hcl, -⟩ := getClaim_some hg
  rw [hg] at hsock
  dsimp only at hsock ⊢
  have hstored : p.store.storedClaim c = some cl := by rw [MailboxStore.storedClaim, if_pos hlisted, hcl]
  refine ⟨cl, hstored, ?_⟩
  by_cases hsink : cl.sink ≠ none
  · rw [if_pos hsink] at hsock
    simp at hsock
  · rw [if_neg hsink] at hsock ⊢
    rcases hcharge : chargeBudgets now { p with nextSocket := p.nextSocket + 1 } cl.slot with ⟨p₁, _ | _⟩
    · exact ⟨rfl, rfl⟩
    · rw [hcharge] at hsock
      simp only [Bool.not_true, Bool.false_eq_true, if_false] at hsock
      split at hsock
      · rcases mem_append.1 hsock with hout | hout
        · exact absurd hout (attachClaimant_not_send _ _ _)
        · simp at hout
      · exact absurd hsock (attachClaimant_not_send _ _ _)

theorem refused_spends {c : String} (hwindow : 0 < p.slotClaimLimiter.windowMs)
    (h : Refuses (attachClaimSocket cfg now p c).2) :
    SpendsNothing now c p (attachClaimSocket cfg now p c).1 ↔ SlotSpent now c p := by
  obtain ⟨cl, hstored, hrefused, hstate⟩ := attach_refused h
  obtain ⟨hslot, hpayloads, hglobal, hok⟩ :=
    chargeBudgets_limiters now { p with nextSocket := p.nextSocket + 1 } cl.slot
  obtain ⟨hstore, -, -, -⟩ := chargeBudgets_frame now { p with nextSocket := p.nextSocket + 1 } cl.slot
  rw [hstate]
  generalize hcharged : (chargeBudgets now { p with nextSocket := p.nextSocket + 1 } cl.slot).1 = charged at *
  dsimp only at hslot hpayloads hglobal hok hstore
  cases htake : (p.slotClaimLimiter.take (slotKey cl.slot) now).2 with
  | false =>
    have hspent : SlotSpent now c p := by
      refine ⟨cl, hstored, ?_⟩
      rw [take_ok] at htake
      have hfull := of_decide_eq_false htake
      rw [RateLimiter.room]
      omega
    refine iff_of_true ?_ hspent
    exact {
      boxes := by rw [forgetClaim, hstore]; rfl
      mailboxes := by rw [forgetClaim, hstore]; rfl
      bySlot := by rw [forgetClaim, hstore]; rfl
      claims := fun c' => by rw [forgetClaim, hstore]; exact storedClaim_destroy _ _ _
      payloads := fun c' => by rw [forgetClaim, hpayloads]; exact OrderedMap.get_delete _ _ _
      slotBudget := fun key later hlater => by
        rw [forgetClaim, hslot]
        exact room_refused htake key hlater
      globalBudget := fun key later _ => by rw [forgetClaim, hglobal, htake]; rfl }
  | true =>
    refine iff_of_false (fun hspends => ?_) fun hspent => ?_
    · have hsame := hspends.slotBudget (slotKey cl.slot) now (Nat.le_refl _)
      rw [forgetClaim, hslot] at hsame
      have hless := room_taken htake hwindow
      exact absurd hsame (Nat.ne_of_lt hless)
    · obtain ⟨cl', hstored', hroom⟩ := hspent
      cases hstored.symm.trans hstored'
      rw [take_ok] at htake
      have hfree := of_decide_eq_true htake
      rw [RateLimiter.room] at hroom
      omega

theorem chargeBudgets_window (p : Pairing) (slot : String) :
    (chargeBudgets now p slot).1.slotClaimLimiter.windowMs = p.slotClaimLimiter.windowMs := by
  rw [(chargeBudgets_limiters now p slot).1]
  exact (take_answers _ _ _).windowMs

theorem attachClaimant_slotLimiter (p : Pairing) (n : Nat) (cl : Claim) :
    (attachClaimant cfg now p n cl).1.slotClaimLimiter = p.slotClaimLimiter := by
  unfold attachClaimant
  dsimp only
  split <;> rfl

theorem step_slotWindow (cfg : PairingConfig) (now : Nat) (p : Pairing) (e : PairingEvent) :
    (step cfg now p e).1.slotClaimLimiter.windowMs = p.slotClaimLimiter.windowMs := by
  cases e with
  | pairNew ip body draw jitter =>
    simp only [step, pairNew]
    split
    · rfl
    · split
      · rfl
      · split <;> rfl
  | pairClaim ip body =>
    simp only [step, pairClaim]
    split
    · rfl
    · split
      · rfl
      · split <;> rfl
  | attachMailbox m =>
    simp only [step, attachMailboxSocket]
    split
    · rfl
    · split <;> rfl
  | attachClaim c =>
    simp only [step, attachClaimSocket]
    split
    · rfl
    · split
      · rfl
      · split
        · rw [forgetClaim, chargeBudgets_window]
        · split
          · rw [forgetClaim, attachClaimant_slotLimiter, chargeBudgets_window]
          · rw [attachClaimant_slotLimiter, chargeBudgets_window]
  | message sock raw =>
    simp only [step]
    split
    · rfl
    · simp only [holderMessage]
      split
      · rfl
      · rfl
      · rfl
      · simp only [holderRelay]
        split
        · rfl
        · split
          · rfl
          · split <;> rfl
    · simp only [claimMessage]
      split
      · rfl
      · rfl
      · rfl
      · simp only [claimRelay]
        split
        · rfl
        · split <;> rfl
  | close sock =>
    simp only [step]
    split <;> rfl

end Pairing

namespace System

theorem run_slotWindow (cfg : BrokerConfig) (es : List BrokerEvent) :
    ((machine cfg).run es).pairing.slotClaimLimiter.windowMs = 60000 := by
  refine (machine cfg).run_invariant (I := fun b => b.pairing.slotClaimLimiter.windowMs = 60000) rfl
    (fun b e ih => ?_) es
  obtain he | he | ⟨event, -, he⟩ := step_pairing cfg b e
  · exact he ▸ ih
  · exact he ▸ ih
  · exact (congrArg (fun p => p.slotClaimLimiter.windowMs) he).trans
      ((Pairing.step_slotWindow _ _ _ _).trans ih)

/-- In every state of the broker, an attach that the budgets refuse has spent nothing exactly when the budget of its
slot had nothing left. -/
theorem refused_attach_iff (cfg : BrokerConfig) (es : List BrokerEvent) (c : String)
    (hrefused : Pairing.Refuses (Pairing.attachClaimSocket cfg.pairing ((machine cfg).run es).now
      ((machine cfg).run es).pairing c).2) :
    Pairing.SpendsNothing ((machine cfg).run es).now c ((machine cfg).run es).pairing
        ((machine cfg).run (es ++ [.pairing (.attachClaim c)])).pairing ↔
      Pairing.SlotSpent ((machine cfg).run es).now c ((machine cfg).run es).pairing := by
  rw [Machine.run_snoc]
  exact Pairing.refused_spends (by rw [run_slotWindow]; decide) hrefused

def strict : BrokerConfig := { sample with slotClaimLimit := 1, globalClaimLimit := 1 }

def slotTwice : List BrokerEvent :=
  [.pairing (.pairClaim "b" ⟨some 2, some ⟨"492", "s", "a", "d"⟩⟩),
    .pairing (.pairClaim "b" ⟨some 2, some ⟨"492", "s", "a", "d"⟩⟩),
    .pairing (.attachClaim "i")]

theorem slotTwice_spends_nothing :
    Pairing.Refuses (Pairing.attachClaimSocket strict.pairing ((machine strict).run slotTwice).now
      ((machine strict).run slotTwice).pairing "ii").2 ∧
    Pairing.SpendsNothing ((machine strict).run slotTwice).now "ii" ((machine strict).run slotTwice).pairing
      ((machine strict).run (slotTwice ++ [.pairing (.attachClaim "ii")])).pairing := by
  have hrefused : Pairing.Refuses (Pairing.attachClaimSocket strict.pairing ((machine strict).run slotTwice).now
      ((machine strict).run slotTwice).pairing "ii").2 := ⟨1, by decide +kernel⟩
  refine ⟨hrefused, (refused_attach_iff strict slotTwice "ii" hrefused).2 ?_⟩
  refine ⟨_, rfl, ?_⟩
  decide +kernel

/-- The second claim is on another slot, so only the budget that all share refuses it. -/
def slotsApart : List BrokerEvent :=
  [.pairing (.pairClaim "b" ⟨some 2, some ⟨"492", "s", "a", "d"⟩⟩),
    .pairing (.pairClaim "b" ⟨some 2, some ⟨"716", "s", "a", "d"⟩⟩),
    .pairing (.attachClaim "i")]

theorem slotsApart_spends :
    Pairing.Refuses (Pairing.attachClaimSocket strict.pairing ((machine strict).run slotsApart).now
      ((machine strict).run slotsApart).pairing "ii").2 ∧
    ¬ Pairing.SpendsNothing ((machine strict).run slotsApart).now "ii" ((machine strict).run slotsApart).pairing
      ((machine strict).run (slotsApart ++ [.pairing (.attachClaim "ii")])).pairing := by
  refine ⟨⟨1, by decide +kernel⟩, fun h => ?_⟩
  have hroom := h.slotBudget "slot:716" 0 (Nat.le_refl _)
  revert hroom
  decide +kernel

end System
end Mtmux.Broker
