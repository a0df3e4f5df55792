import Mtmux.Broker.PairingRelay
import Mtmux.Broker.System

/-! One guess per code: a mailbox is bound to one claim for good, is offered one
share, and hears confirmations and descriptors from that claim's socket only. -/
namespace Mtmux.Broker
open Protocol Machine MailboxStore List

def isShareTo (m : String) : PairingOut → Bool
  | .handed (.mailbox id) _ (.peerShare _ _ _ _) => decide (id = m)
  | _ => false

theorem isShareTo_eq {m : String} {o : PairingOut} (h : isShareTo m o = true) :
    ∃ via k share ad sid, o = .handed (.mailbox m) via (.peerShare k share ad sid) := by
  unfold isShareTo at h
  split at h
  · next via k share ad sid =>
    have hid := of_decide_eq_true h
    subst hid
    exact ⟨via, k, share, ad, sid, rfl⟩
  · cases h

namespace MailboxStore
variable {st st' : MailboxStore}

def spent (st : MailboxStore) (m : String) : Nat :=
  if (st.boxes.get m).any fun box => box.claimedBy.isSome then 1 else 0

theorem spent_le_one (st : MailboxStore) (m : String) : st.spent m ≤ 1 := by
  unfold spent
  split <;> omega

theorem Grows.spent_le (h : Grows st st') (m : String) : st.spent m ≤ st'.spent m := by
  unfold spent
  cases hb : st.boxes.get m with
  | none => simp
  | some b =>
    obtain ⟨b', hb', -, hc⟩ := h.box hb
    cases hcl : b.claimedBy with
    | none => simp [hcl]
    | some c =>
      have he := (hc (by simp [hcl])).1
      simp [hb', he, hcl]

theorem spent_bindBox {m c k : String} {b : Mailbox} (hb : st.boxes.get m = some b)
    (hc : b.claimedBy = none) (a : String) :
    (st.bindBox m b c k).spent a = st.spent a + if a = m then 1 else 0 := by
  simp only [spent, bindBox, claimBox, updateClaim, OrderedMap.get_set]
  by_cases ha : a = m
  · subst ha
    simp [hb, hc]
  · simp [ha]

theorem deliver_shares (st : MailboxStore) (id m : String) (message : PairingServerMessage) :
    (st.deliver (.mailbox id) message).2.countP (isShareTo m) ≤ if m = id then 1 else 0 := by
  unfold deliver
  split
  · simp
  · cases message <;> simp [isShareTo, countP_cons, eq_comm]
  · split
    · cases message <;> simp [isShareTo, countP_cons, eq_comm]
    · simp

end MailboxStore

namespace Pairing
variable {cfg : PairingConfig} {now : Nat} {p : Pairing}

theorem fanOut_shares (cfg : PairingConfig) (c : String) (payload : ClaimPayload) (m : String) (boxes : List Mailbox)
    (st : MailboxStore) (n : Nat) : (fanOut cfg c payload boxes st n).2.2.countP (isShareTo m) + st.spent m ≤
      (fanOut cfg c payload boxes st n).1.spent m := by
  induction boxes generalizing st n with
  | nil => simp [fanOut]
  | cons box boxes ih =>
    rcases hcl : st.claimMailbox box.id c (cfg.rnd n) with ⟨mid, _ | _⟩
    · obtain rfl := claimMailbox_false hcl
      simp only [fanOut, hcl]
      exact ih _ _
    · obtain ⟨b, hbox, hn, rfl⟩ := claimMailbox_true hcl
      simp only [fanOut, hcl, countP_append]
      have hbind := spent_bindBox (c := c) (k := cfg.rnd n) hbox hn m
      have hq := (st.bindBox box.id b c (cfg.rnd n)).deliver_quiet (.mailbox box.id)
        (.peerShare (cfg.rnd n) payload.share payload.ad payload.sid)
      have hle := hq.grows.spent_le m
      have hone := (st.bindBox box.id b c (cfg.rnd n)).deliver_shares box.id m
        (.peerShare (cfg.rnd n) payload.share payload.ad payload.sid)
      have hrest := ih ((st.bindBox box.id b c (cfg.rnd n)).deliver (.mailbox box.id)
        (.peerShare (cfg.rnd n) payload.share payload.ad payload.sid)).1 (n + 1)
      simp only [MailboxStore.bindBox] at hbind hle hone hrest
      omega

theorem attach_shares (st : MailboxStore) (t : Target) (sock : Nat) (m : String) :
    (st.attach t sock).2.countP (isShareTo m) = 0 := by
  rw [countP_eq_zero]
  intro o ho hshare
  obtain ⟨message, rfl⟩ := mem_attach ho
  cases hshare

theorem attachClaimant_shares (cfg : PairingConfig) (now : Nat) (p : Pairing) (m : String) (sock : Nat) (cl : Claim) :
    (attachClaimant cfg now p sock cl).2.countP (isShareTo m) + p.store.spent m ≤
      (attachClaimant cfg now p sock cl).1.store.spent m := by
  have hspent : ((p.store.attach (.claim cl.id) sock).1.extendClaim cl.id now).spent m =
      p.store.spent m := by
    simp only [MailboxStore.spent, MailboxStore.extendClaim, MailboxStore.updateClaim,
      p.store.attach_claim_boxes]
  unfold attachClaimant
  dsimp only
  split
  · exact Nat.le_of_eq (by rw [attach_shares, hspent, Nat.zero_add])
  · next payload _ =>
    have hle := (scanSlot_quiet now
      ((((p.store.attach (.claim cl.id) sock).1.extendClaim cl.id now).bySlot.get cl.slot).getD [])
      ((p.store.attach (.claim cl.id) sock).1.extendClaim cl.id now)).grows.spent_le m
    have hfan := fanOut_shares cfg cl.id payload m
      (((p.store.attach (.claim cl.id) sock).1.extendClaim cl.id now).liveMailboxesForSlot
        cl.slot now).2
      (((p.store.attach (.claim cl.id) sock).1.extendClaim cl.id now).liveMailboxesForSlot
        cl.slot now).1 p.drawn
    rw [countP_append, attach_shares, Nat.zero_add]
    rw [hspent] at hle
    exact Nat.le_trans (Nat.add_le_add_left hle _) hfan

theorem step_shares (now : Nat) (hr : Function.Injective cfg.rnd) (h : Inv cfg p) (e : PairingEvent) (m : String) :
    (step cfg now p e).2.countP (isShareTo m) + p.store.spent m ≤ (step cfg now p e).1.store.spent m := by
  have hgrow : p.store.spent m ≤ (step cfg now p e).1.store.spent m :=
    (step_inv hr h e).2.spent_le m
  by_cases hzero : (step cfg now p e).2.countP (isShareTo m) = 0
  · omega
  · obtain ⟨o, ho, hshare⟩ := countP_pos_iff.1 (Nat.pos_of_ne_zero hzero)
    obtain ⟨via, k, share, ad, sid, rfl⟩ := isShareTo_eq hshare
    -- only a claim's fan-out hands a share to a mailbox
    obtain ⟨c, rfl⟩ : ∃ c, e = .attachClaim c := by
      generalize ht : Target.mailbox m = t at ho
      generalize hmsg : PairingServerMessage.peerShare k share ad sid = msg at ho
      have hm : msg.isRelay = true := by rw [← hmsg]; rfl
      cases step_relays h ho hm with
      | fanned => exact ⟨_, rfl⟩
      | claimant speaker owned notShare form =>
        cases form with
        | share share ad sid => exact absurd rfl (notShare share ad)
        | confirm | establish => cases hmsg
      | holder => cases ht
    rcases attachClaimSocket_cases cfg now p c with hno | ⟨p₁, cl, extra, hst, -, -, hex, hout, hbox⟩
    · exact absurd ho (hno _ _ _)
    · have hextra : extra.countP (isShareTo m) = 0 := by
        rw [countP_eq_zero]
        intro o ho hshare
        obtain ⟨via, k, share, ad, sid, rfl⟩ := isShareTo_eq hshare
        exact hex _ _ _ ho
      have hsh := attachClaimant_shares cfg now p₁ m p.nextSocket cl
      rw [hst] at hsh
      have hspent : (attachClaimSocket cfg now p c).1.store.spent m =
          (attachClaimant cfg now p₁ p.nextSocket cl).1.store.spent m := by
        simp only [MailboxStore.spent, hbox]
      simp only [step]
      rw [hout, countP_append, hextra, hspent]
      omega

end Pairing

namespace System
variable {cfg : BrokerConfig}

/-- Shares handed to a mailbox, delivered or buffered. -/
def sharesTo (m : String) (out : List BrokerOut) : Nat :=
  out.countP fun o =>
    match o with
    | .pairing o => isShareTo m o
    | .link _ => false

theorem step_sharesTo (hr : Function.Injective cfg.pairing.rnd) (b : System) (e : BrokerEvent)
    (h : Pairing.Inv cfg.pairing b.pairing) (m : String) : sharesTo m (step cfg b e).2 + b.pairing.store.spent m ≤
      (step cfg b e).1.pairing.store.spent m := by
  have hgrow := (step_pairing_inv hr b e h).2.spent_le m
  cases e with
  | tick ms => simp [sharesTo, step]
  | pairing event =>
    have hstep := Pairing.step_shares b.now hr h event m
    simp only [sharesTo, step, countP_map]
    exact hstep
  | link event =>
    have hzero : sharesTo m (step cfg b (.link event)).2 = 0 := by
      simp [sharesTo, step, countP_map, Function.comp_def]
    omega
  | sweep =>
    have hzero : sharesTo m (step cfg b .sweep).2 = 0 := by
      simp [sharesTo, step, sweepAll, countP_map, Function.comp_def]
    omega

theorem run_sharesTo (hr : Function.Injective cfg.pairing.rnd) (m : String) (es : List BrokerEvent) :
    sharesTo m ((machine cfg).outputs es) ≤ ((machine cfg).run es).pairing.store.spent m := by
  induction es using List.reverseRecOn with
  | nil => simp [outputs_nil, sharesTo]
  | append_singleton es e ih =>
    have hstep := step_sharesTo hr ((machine cfg).run es) e (run_pairing_inv hr es) m
    have happ : sharesTo m ((machine cfg).outputs (es ++ [e])) =
        sharesTo m ((machine cfg).outputs es) +
          sharesTo m (step cfg ((machine cfg).run es) e).2 := by
      rw [outputs_snoc]
      exact countP_append
    rw [happ, run_snoc]
    have hrun : ((machine cfg).step ((machine cfg).run es) e) =
      step cfg ((machine cfg).run es) e := rfl
    rw [hrun]
    omega

/-- Every mailbox is claimed once and for good, is handed one share at most, and
each confirmation or descriptor it is handed was sent under its own peer handle
on the socket of the claim it is bound to. -/
theorem one_guess_per_mailbox (cfg : BrokerConfig) (hr : Function.Injective cfg.pairing.rnd)
    (es : List BrokerEvent) (m : String) : (∀ es' b, ((machine cfg).run es).pairing.store.boxes.get m = some b →
      (b.claimedBy = none ↔ b.peer = none) ∧ (b.claimedBy ≠ none → ∃ b',
        ((machine cfg).run (es ++ es')).pairing.store.boxes.get m = some b' ∧
        b'.claimedBy = b.claimedBy ∧ b'.peer = b.peer)) ∧ sharesTo m ((machine cfg).outputs es) ≤ 1 ∧
    (∀ x ∈ (machine cfg).trace es, ∀ via msg, .pairing (.handed (.mailbox m) via msg) ∈ x.out →
      (∃ k tag, msg = .peerConfirm k tag) ∨ (∃ k descriptor, msg = .established k descriptor) →
      ∃ sock k body b c cl, x.event = .pairing (.message sock (some (.toPeer k body))) ∧ Forwards k body msg ∧
        x.pre.pairing.sockets.get sock = some (.claimant c) ∧
        x.pre.pairing.store.claimObjs.get c = some cl ∧ cl.sink = some sock ∧
        x.pre.pairing.store.boxes.get m = some b ∧ b.claimedBy = some c ∧ b.peer = some k) := by
  refine ⟨?_, ?_, ?_⟩
  · intro es' b hb
    refine ⟨(run_pairing_inv hr es).wf.paired hb, fun hc => ?_⟩
    obtain ⟨b', hb', -, hkeep⟩ := (run_pairing_grows hr es es').box hb
    exact ⟨b', hb', hkeep hc⟩
  · exact Nat.le_trans (run_sharesTo hr m es) (spent_le_one _ m)
  · intro x hx via msg hmem hkind
    obtain ⟨before, e, after, -, rfl⟩ := ((machine cfg).mem_trace es x).1 hx
    have hinv := run_pairing_inv hr before
    have hm : msg.isRelay = true := by
      rcases hkind with ⟨k, tag, rfl⟩ | ⟨k, descriptor, rfl⟩ <;> rfl
    obtain ⟨event, he, ho⟩ := mem_step_pairing hmem
    generalize ht : Target.mailbox m = t at ho
    cases Pairing.step_relays hinv ho hm with
    | fanned => rcases hkind with ⟨k, tag, h⟩ | ⟨k, descriptor, h⟩ <;> cases h
    | @claimant sock c k b body msg speaker owned notShare form =>
      obtain ⟨-, -, hb, -, hc, hk, -⟩ := Pairing.ownedMailbox_some hinv.wf owned
      obtain ⟨cl, hcl, hsink⟩ := hinv.sunk speaker
      cases ht
      exact ⟨sock, k, body, b, c, cl, he, form, speaker, hcl, hsink, hb, hc, hk⟩
    | holder => cases ht

theorem one_guess_per_mailbox_joined : sharesTo "i" ((machine sample).outputs joined) = 1 ∧
    sharesTo "i" ((machine sample).outputs joined) ≤ 1 :=
  ⟨by decide +kernel, (one_guess_per_mailbox sample numbered_injective joined "i").2.1⟩

end System
end Mtmux.Broker
