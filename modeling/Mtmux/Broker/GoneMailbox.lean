import Mtmux.Broker.PairingRelay
import Mtmux.Broker.System

/-! What is relayed through a mailbox that is gone. The claimant's side asks the
store each time; the holder's side asks only the claim it was burned by, which
can outlive the mailbox. -/
namespace Mtmux.Broker
open Protocol List

/-- Destroyed, or past its deadline. -/
def MailboxStore.Gone (st : MailboxStore) (now : Nat) (m : String) : Prop :=
  m ∉ st.mailboxes ∨ ∀ b, st.boxes.get m = some b → b.expiresAt ≤ now

namespace Pairing
variable {cfg : PairingConfig} {now : Nat} {p : Pairing}

/-- The mailbox that a relay to `t` runs through: its target, or the one whose
holder spoke. -/
def through (p : Pairing) (e : PairingEvent) : Target → Option String
  | .mailbox m => some m
  | .claim _ =>
    match e with
    | .message sock _ =>
      match p.sockets.get sock with
      | some (.holder m _) => some m
      | _ => none
    | _ => none

/-- A holder speaks to its peer about a mailbox that is gone, while the claim that
burned it is stored, unexpired and still routes to it. -/
def LateWord (now : Nat) (p : Pairing) (e : PairingEvent) : Prop :=
  ∃ sock k body m est b c cl, e = .message sock (some (.toPeer k body)) ∧
    p.sockets.get sock = some (.holder m est) ∧ p.store.boxes.get m = some b ∧
    p.store.Gone now m ∧ b.peer = some k ∧ b.claimedBy = some c ∧ c ∈ p.store.claims ∧
    p.store.claimObjs.get c = some cl ∧ now < cl.expiresAt ∧ cl.peers.get k = some m

theorem MailboxStore.not_gone {st : MailboxStore} {m : String} {b : Mailbox}
    (hm : m ∈ st.mailboxes) (hb : st.boxes.get m = some b) (hx : now < b.expiresAt) : ¬ st.Gone now m := by
  rintro (h | h)
  · exact h hm
  · have := h b hb
    omega

theorem lateWord_of_relay (h : Inv cfg p) {e : PairingEvent} {t : Target} {via : Option Nat}
    {msg : PairingServerMessage} {m : String} (hmem : .handed t via msg ∈ (step cfg now p e).2)
    (hm : msg.isRelay = true) (ht : through p e t = some m) (hg : p.store.Gone now m) : LateWord now p e := by
  cases step_relays h hmem hm with
  | fanned listed found fresh unclaimed =>
    cases ht
    exact absurd hg (MailboxStore.not_gone listed found fresh)
  | claimant speaker owned notShare form =>
    obtain ⟨-, hl, hb, hx, -⟩ := ownedMailbox_some h.wf owned
    cases ht
    exact absurd hg (MailboxStore.not_gone hl hb hx)
  | @holder sock m' k est b cl body msg speaker found peer routed form =>
    obtain ⟨-, c, k', hc, hk, hcl, hr, hst, hx⟩ := claimFor_some routed
    rw [peer] at hk
    cases hk
    have hid := h.wf.boxId found
    subst hid
    simp only [through, speaker] at ht
    cases ht
    exact ⟨sock, k, body, b.id, est, b, c, cl, rfl, speaker, found, hg, peer, hc, hst, hcl, hx, hr⟩

theorem deliver_claim {st : MailboxStore} {c : String} {cl : Claim} {sock : Nat}
    (hcl : st.claimObjs.get c = some cl) (hs : cl.sink = some sock) (msg : PairingServerMessage) :
    st.deliver (.claim c) msg = (st, [.handed (.claim c) (some sock) msg]) := by
  simp [MailboxStore.deliver, MailboxStore.inbox, hcl, hs]

theorem relay_of_lateWord (h : Inv cfg p) {e : PairingEvent} (hl : LateWord now p e) :
    ∃ t via msg m, .handed t via msg ∈ (step cfg now p e).2 ∧ msg.isRelay = true ∧
      through p e t = some m ∧ p.store.Gone now m := by
  obtain ⟨sock, k, body, m, est, b, c, cl, rfl, hs, hb, hg, hk, hc, hst, hcl, hx, hr⟩ := hl
  have hid := h.wf.boxId hb
  subst hid
  have hfor := claimFor_of_routed hc hk hcl hr hst hx
  obtain ⟨cl', hcl', hsink⟩ := h.wf.attached hb hc
  rw [hcl] at hcl'
  cases hcl'
  obtain ⟨i, hi⟩ := Option.ne_none_iff_exists'.1 hsink
  have hcid := h.wf.claimId hcl
  subst hcid
  have hstep : (step cfg now p (.message sock (some (.toPeer k body)))).2 =
      (holderRelay now p sock b k body).2 := by
    simp only [step, hs, holderMessage, hb]
  have hthrough : through p (.message sock (some (.toPeer k body))) (.claim cl.id) = some b.id := by
    simp only [through, hs]
  suffices hout : ∃ msg, .handed (.claim cl.id) (some i) msg ∈
      (holderRelay now p sock b k body).2 ∧ msg.isRelay = true by
    obtain ⟨msg, hmem, hm⟩ := hout
    exact ⟨_, _, msg, b.id, hstep ▸ hmem, hm, hthrough, hg⟩
  unfold holderRelay
  rw [if_neg (by simp [hk]), hfor]
  cases body with
  | share _ _ | confirm _ | establish _ =>
    dsimp only
    rw [deliver_claim hcl hi]
    exact ⟨_, mem_singleton_self _, rfl⟩

end Pairing

namespace System

def CarriesNothingGone (x : Machine.Entry System BrokerEvent BrokerOut) : Prop :=
  ∀ e, x.event = .pairing e → ∀ t via msg, .pairing (.handed t via msg) ∈ x.out →
    msg.isRelay = true → ∀ m, x.pre.pairing.through e t = some m →
    ¬ x.pre.pairing.store.Gone x.pre.now m

def NoLateWord (x : Machine.Entry System BrokerEvent BrokerOut) : Prop :=
  ∀ e, x.event = .pairing e → ¬ Pairing.LateWord x.pre.now x.pre.pairing e

/-- A run relays nothing through gone mailboxes exactly when no holder speaks a
late word in it. -/
theorem gone_mailbox_silent_iff (cfg : BrokerConfig) (hr : Function.Injective cfg.pairing.rnd) (es : List BrokerEvent) :
    (∀ x ∈ (machine cfg).trace es, CarriesNothingGone x) ↔ ∀ x ∈ (machine cfg).trace es, NoLateWord x := by
  refine forall₂_congr fun x hx => ?_
  obtain ⟨before, e, after, -, rfl⟩ := ((machine cfg).mem_trace es x).1 hx
  have hinv := run_pairing_inv hr before
  constructor
  · intro hcarry event he hlate
    obtain ⟨t, via, msg, m, hmem, hm, ht, hg⟩ := Pairing.relay_of_lateWord hinv hlate
    refine hcarry event he t via msg ?_ hm m ht hg
    have he' : e = .pairing event := he
    subst he'
    exact mem_map_of_mem hmem
  · intro hno event he t via msg hmem hm m ht hg
    have he' : e = .pairing event := he
    subst he'
    obtain ⟨event', he', ho⟩ := mem_step_pairing hmem
    cases he'
    exact hno event rfl (Pairing.lateWord_of_relay hinv ho hm ht hg)

theorem gone_mailbox_silent_joined : joined ≠ [] ∧ ∀ x ∈ (machine sample).trace joined, CarriesNothingGone x := by
  refine ⟨cons_ne_nil _ _, ?_⟩
  refine (gone_mailbox_silent_iff sample numbered_injective joined).2 fun x hx e he hlate => ?_
  obtain ⟨before, a, after, hes, rfl⟩ := ((machine sample).mem_trace joined x).1 hx
  obtain ⟨sock, k, body, m, est, b, c, cl, rfl, -⟩ := hlate
  have ha : a = .pairing (.message sock (some (.toPeer k body))) := he
  have hmem : a ∈ joined := by rw [hes]; simp
  rw [ha] at hmem
  simp [joined] at hmem

/-- The mailbox is opened a second before the claim attaches, and the holder
answers in the second between their deadlines. -/
def lateShare : List BrokerEvent :=
  [.pairing (.pairNew "a" ⟨some 2, none⟩ (fun _ _ => "492") 0),
    .pairing (.attachMailbox "i"),
    .tick 1000,
    .pairing (.pairClaim "b" ⟨some 2, some ⟨"492", "s", "a", "d"⟩⟩),
    .pairing (.attachClaim "ii"),
    .tick 179000]

theorem gone_mailbox_relays_lateShare : ¬ ∀ x ∈ (machine sample).trace
        (lateShare ++ [.pairing (.message 0 (some (.toPeer "iii" (.share "t" "b"))))]), CarriesNothingGone x := by
  intro h
  have hmem := ((machine sample).mem_trace _ _).2
    ⟨lateShare, .pairing (.message 0 (some (.toPeer "iii" (.share "t" "b")))), [], rfl, rfl⟩
  refine h _ hmem _ rfl (.claim "ii") (some 1) (.peerShare "iii" "t" "b" "d")
    (by decide +kernel) rfl "i" (by decide +kernel) (Or.inr fun b hb => ?_)
  have hx : (((machine sample).run lateShare).pairing.store.boxes.get "i").map Mailbox.expiresAt =
      some 180000 := by decide +kernel
  have hnow : ((machine sample).run lateShare).now = 180000 := by decide +kernel
  have hb' : ((machine sample).run lateShare).pairing.store.boxes.get "i" = some b := hb
  rw [hb'] at hx
  have hb_expires : b.expiresAt = 180000 := Option.some.inj hx
  exact Nat.le_of_eq (hb_expires.trans hnow.symm)

end System
end Mtmux.Broker
