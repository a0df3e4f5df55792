import Mtmux.Broker.PairingInvariant

/-! Everything the pairing half relays. A share, a confirmation or a descriptor is
handed on in three ways only: by the fan-out of a claim, by the claimant to a
mailbox it owns, and by a holder to the claim that burned its mailbox. -/
namespace Mtmux.Broker
open Protocol MailboxStore List

/-- `msg` is what a frame for `peer` becomes at the other end. -/
inductive Forwards (peer : String) : PeerMessage → PairingServerMessage → Prop where
  | share (share ad sid : String) : Forwards peer (.share share ad) (.peerShare peer share ad sid)
  | confirm (tag : String) : Forwards peer (.confirm tag) (.peerConfirm peer tag)
  | establish (sealedDescriptor : String) :
    Forwards peer (.establish sealedDescriptor) (.established peer sealedDescriptor)

namespace MailboxStore
variable {st : MailboxStore} {now : Nat}

variable {target : Target}

theorem mem_deliver {message : PairingServerMessage} {o : PairingOut}
    (h : o ∈ (st.deliver target message).2) : ∃ via, o = .handed target via message := by
  unfold deliver at h
  split at h
  · cases h
  · next sock _ _ => exact ⟨some sock, mem_singleton.1 h⟩
  · split at h
    · exact ⟨none, mem_singleton.1 h⟩
    · cases h

variable {sock : Nat}

theorem mem_attach {o : PairingOut}
    (h : o ∈ (st.attach target sock).2) : ∃ message, o = .flushed target sock message := by
  unfold attach at h
  split at h
  · cases h
  · obtain ⟨message, -, rfl⟩ := mem_map.1 h
    exact ⟨message, rfl⟩

theorem attach_claim_boxes (st : MailboxStore) (c : String) (sock : Nat) :
    (st.attach (.claim c) sock).1.boxes = st.boxes ∧ (st.attach (.claim c) sock).1.mailboxes = st.mailboxes := by
  unfold attach
  split <;> exact ⟨rfl, rfl⟩

theorem mem_scanSlot (ids : List String) (st : MailboxStore) {box : Mailbox} (h : box ∈ (st.scanSlot now ids).2) :
    ∃ id ∈ st.mailboxes, st.boxes.get id = some box ∧ now < box.expiresAt := by
  induction ids generalizing st with
  | nil => cases h
  | cons id ids ih =>
    have hskip : box ∈ ((st.removeMailbox id).scanSlot now ids).2 →
        ∃ id ∈ st.mailboxes, st.boxes.get id = some box ∧ now < box.expiresAt := by
      intro hbox
      obtain ⟨a, ha, hget, hx⟩ := ih _ hbox
      rw [removeMailbox_boxes] at hget
      exact ⟨a, removeMailbox_kept st id a ha, hget, hx⟩
    unfold scanSlot at h
    split at h
    · exact hskip h
    · next found hs =>
      split at h
      · exact hskip h
      · next hx =>
        rcases mem_cons.1 h with rfl | h
        · simp only [stored] at hs
          split at hs
          · next hm => exact ⟨id, hm, hs, by simpa [expired] using hx⟩
          · cases hs
        · exact ih st h

end MailboxStore

namespace Pairing
variable {cfg : PairingConfig} {now : Nat} {p : Pairing}

/-- The three ways, with what held before the step. -/
inductive Relays (now : Nat) (p : Pairing) : PairingEvent → Target → PairingServerMessage → Prop where
  | fanned {c m k : String} {b : Mailbox} {payload : ClaimPayload}
      (listed : m ∈ p.store.mailboxes) (found : p.store.boxes.get m = some b)
      (fresh : now < b.expiresAt) (unclaimed : b.claimedBy = none) :
    Relays now p (.attachClaim c) (.mailbox m)
      (.peerShare k payload.share payload.ad payload.sid)
  | claimant {sock : Nat} {c k : String} {b : Mailbox} {body : PeerMessage}
      {msg : PairingServerMessage} (speaker : p.sockets.get sock = some (.claimant c))
      (owned : ownedMailbox now p.store c k = (p.store, some b))
      (notShare : ∀ share ad, body ≠ .share share ad) (form : Forwards k body msg) :
    Relays now p (.message sock (some (.toPeer k body))) (.mailbox b.id) msg
  | holder {sock : Nat} {m k : String} {e : Bool} {b : Mailbox} {cl : Claim} {body : PeerMessage}
      {msg : PairingServerMessage} (speaker : p.sockets.get sock = some (.holder m e))
      (found : p.store.boxes.get m = some b) (peer : b.peer = some k)
      (routed : claimFor now p.store b = (p.store, some cl)) (form : Forwards k body msg) :
    Relays now p (.message sock (some (.toPeer k body))) (.claim cl.id) msg

/-- Outputs that relay nothing. -/
def Mute (out : List PairingOut) : Prop :=
  ∀ t via msg, .handed t via msg ∈ out → msg.isRelay = false

theorem mute_deliver {st : MailboxStore} {message : PairingServerMessage}
    (h : message.isRelay = false) : Mute (st.deliver target message).2 := by
  intro t via msg hmem
  obtain ⟨via', he⟩ := mem_deliver hmem
  cases he
  exact h

theorem Mute.append {out out' : List PairingOut} (h : Mute out) (h' : Mute out') : Mute (out ++ out') := by
  intro t via msg hmem
  rcases mem_append.1 hmem with hmem | hmem
  · exact h t via msg hmem
  · exact h' t via msg hmem

theorem mute_attach (st : MailboxStore) (target : Target) (sock : Nat) : Mute (st.attach target sock).2 := by
  intro t via msg hmem
  obtain ⟨message, he⟩ := mem_attach hmem
  cases he

variable {t : Target} {via : Option Nat} {msg : PairingServerMessage}

theorem fanOut_mem {c : String} {payload : ClaimPayload} (boxes : List Mailbox) (st : MailboxStore) (n : Nat)
    (h : .handed t via msg ∈ (fanOut cfg c payload boxes st n).2.2) : ∃ box ∈ boxes, ∃ k, t = .mailbox box.id ∧
      msg = .peerShare k payload.share payload.ad payload.sid := by
  induction boxes generalizing st n with
  | nil => cases h
  | cons box boxes ih =>
    rcases hcl : st.claimMailbox box.id c (cfg.rnd n) with ⟨mid, _ | _⟩
    · simp only [fanOut, hcl] at h
      obtain ⟨b, hb, rest⟩ := ih _ _ h
      exact ⟨b, mem_cons_of_mem _ hb, rest⟩
    · simp only [fanOut, hcl] at h
      rcases mem_append.1 h with h | h
      · obtain ⟨via', he⟩ := mem_deliver h
        cases he
        exact ⟨box, mem_cons_self, _, rfl, rfl⟩
      · obtain ⟨b, hb, rest⟩ := ih _ _ h
        exact ⟨b, mem_cons_of_mem _ hb, rest⟩

/-- Attaching a claim ends in a refusal that hands nothing, or in its fan-out
from a state with the same store. -/
theorem attachClaimSocket_cases (cfg : PairingConfig) (now : Nat) (p : Pairing) (c : String) :
    (∀ t via msg, .handed t via msg ∉ (attachClaimSocket cfg now p c).2) ∨
    ∃ p₁ cl extra, p₁.store = p.store ∧ p₁.drawn = p.drawn ∧ p.store.claimObjs.get c = some cl ∧
      (∀ t via msg, .handed t via msg ∉ extra) ∧
      (attachClaimSocket cfg now p c).2 = (attachClaimant cfg now p₁ p.nextSocket cl).2 ++ extra ∧
      (attachClaimSocket cfg now p c).1.store.boxes = (attachClaimant cfg now p₁ p.nextSocket cl).1.store.boxes := by
  rw [attachClaimSocket]
  rcases hg : p.store.getClaim c now with ⟨st, _ | cl⟩
  · exact Or.inl (by simp)
  obtain ⟨rfl, -, hcl, -⟩ := getClaim_some hg
  dsimp only
  split
  · exact Or.inl (by simp)
  have hf := chargeBudgets_frame now { p with nextSocket := p.nextSocket + 1 } cl.slot
  generalize chargeBudgets now { p with nextSocket := p.nextSocket + 1 } cl.slot = charged at hf ⊢
  obtain ⟨p₁, ok⟩ := charged
  obtain ⟨hst, -, -, hdr⟩ := hf
  dsimp only at hst hdr ⊢
  split
  · exact Or.inl (by simp)
  split
  · exact Or.inr ⟨p₁, cl, _, hst, hdr, hcl, by simp, rfl, rfl⟩
  · exact Or.inr ⟨p₁, cl, [], hst, hdr, hcl, by simp, (append_nil _).symm, rfl⟩

theorem attachClaimant_mem {rnd : Nat → String} {n : Nat} (hw : p.store.Wf rnd n) {cl : Claim}
        (hmem : .handed t via msg ∈ (attachClaimant cfg now p sock cl).2) :
    ∃ m b k, ∃ payload : ClaimPayload, t = .mailbox m ∧
      msg = .peerShare k payload.share payload.ad payload.sid ∧ m ∈ p.store.mailboxes ∧
      p.store.boxes.get m = some b ∧ now < b.expiresAt ∧ b.claimedBy = none := by
  have hboxes := p.store.attach_claim_boxes cl.id sock
  unfold attachClaimant at hmem
  dsimp only at hmem
  split at hmem
  · obtain ⟨message, he⟩ := mem_attach hmem
    cases he
  · next payload _ =>
    rcases mem_append.1 hmem with hmem | hmem
    · obtain ⟨message, he⟩ := mem_attach hmem
      cases he
    · obtain ⟨box, hbox, k, ht, hmsg⟩ := fanOut_mem _ _ _ hmem
      obtain ⟨hscan, hc⟩ := mem_filter.1 hbox
      obtain ⟨id, hm, hget, hx⟩ := mem_scanSlot _ _ hscan
      simp only [MailboxStore.extendClaim, MailboxStore.updateClaim, hboxes.1, hboxes.2] at hm hget
      have hid := hw.boxId hget
      subst hid
      exact ⟨box.id, box, k, payload, ht, hmsg, hm, hget, hx, by simpa using hc⟩

theorem failPeer_mute (now : Nat) (st : MailboxStore) (c k : String) : Mute (failPeer now st c k).2 := by
  unfold failPeer
  split
  · intro t via msg hmem
    cases hmem
  · exact mute_deliver rfl

theorem failPeers_mute (now : Nat) (c : String) (peers : List String) (st : MailboxStore) :
    Mute (failPeers now c peers st).2 := by
  induction peers generalizing st with
  | nil =>
    intro t via msg hmem
    cases hmem
  | cons k peers ih => exact (failPeer_mute now st c k).append (ih _)

theorem holderClose_mute (now : Nat) (p : Pairing) (sock : Nat) (box : Mailbox)
    (named : Option String) : Mute (holderClose now p sock box named).2 := by
  unfold holderClose
  dsimp only
  refine Mute.append ?_ (by intro t via msg hmem; simp at hmem)
  split
  · exact mute_deliver rfl
  · intro t via msg hmem
    cases hmem

theorem holderRelay_relays {m k : String} {e : Bool} {box : Mailbox}
    {body : PeerMessage} (hs : p.sockets.get sock = some (.holder m e)) (hb : p.store.boxes.get m = some box)
    (hmem : .handed t via msg ∈ (holderRelay now p sock box k body).2) (hm : msg.isRelay = true) :
    Relays now p (.message sock (some (.toPeer k body))) t msg := by
  unfold holderRelay at hmem
  split at hmem
  · simp at hmem
  · next hpeer =>
    rcases hc : claimFor now p.store box with ⟨st, _ | cl⟩
    · rw [hc] at hmem
      have := mute_deliver rfl t via msg hmem
      rw [this] at hm
      cases hm
    · have hst := (claimFor_some hc).1
      subst hst
      rw [hc] at hmem
      have hrelay : ∀ {msg'}, Forwards k body msg' → ∀ {st : MailboxStore},
          .handed t via msg ∈ (st.deliver (.claim cl.id) msg').2 →
          Relays now p (.message sock (some (.toPeer k body))) t msg := by
        intro msg' form st hin
        obtain ⟨via', he⟩ := mem_deliver hin
        cases he
        exact .holder hs hb (not_not.1 hpeer) hc form
      cases body with
      | share share ad => exact hrelay (.share share ad _) hmem
      | confirm tag => exact hrelay (.confirm tag) hmem
      | establish sealedDescriptor => exact hrelay (.establish sealedDescriptor) hmem

theorem claimRelay_relays (h : Inv cfg p) {c k : String} {body : PeerMessage}
        (hs : p.sockets.get sock = some (.claimant c))
    (hmem : .handed t via msg ∈ (claimRelay now p sock c k body).2) (hm : msg.isRelay = true) :
    Relays now p (.message sock (some (.toPeer k body))) t msg := by
  unfold claimRelay at hmem
  rcases ho : ownedMailbox now p.store c k with ⟨st, _ | box⟩
  · rw [ho] at hmem
    have := mute_deliver rfl t via msg hmem
    rw [this] at hm
    cases hm
  · have hst := (ownedMailbox_some h.wf ho).1
    subst hst
    rw [ho] at hmem
    have hrelay : ∀ {msg'}, Forwards k body msg' → (∀ share ad, body ≠ .share share ad) →
        ∀ {st : MailboxStore}, .handed t via msg ∈ (st.deliver (.mailbox box.id) msg').2 →
        Relays now p (.message sock (some (.toPeer k body))) t msg := by
      intro msg' form hne st hin
      obtain ⟨via', he⟩ := mem_deliver hin
      cases he
      exact .claimant hs ho hne form
    cases body with
    | share share ad => simp at hmem
    | confirm tag => exact hrelay (.confirm tag) (by simp) hmem
    | establish sealedDescriptor => exact hrelay (.establish sealedDescriptor) (by simp) hmem

theorem step_relays (h : Inv cfg p) {e : PairingEvent} (hmem : .handed t via msg ∈ (step cfg now p e).2)
    (hm : msg.isRelay = true) : Relays now p e t msg := by
  have hmute : Mute (step cfg now p e).2 → Relays now p e t msg := by
    intro hq
    rw [hq t via msg hmem] at hm
    cases hm
  cases e with
  | pairNew ip body draw jitter =>
    refine hmute ?_
    intro t via msg hmem
    simp only [step] at hmem
    rw [pairNew] at hmem
    generalize p.mailboxLimiter.take ip now = taken at hmem
    obtain ⟨limiter, ok⟩ := taken
    dsimp only at hmem
    split at hmem
    · simp at hmem
    · split at hmem
      · simp at hmem
      · split at hmem <;> simp at hmem
  | pairClaim ip body =>
    refine hmute ?_
    intro t via msg hmem
    simp only [step] at hmem
    rw [pairClaim] at hmem
    generalize p.claimLimiter.take ip now = taken at hmem
    obtain ⟨limiter, ok⟩ := taken
    dsimp only at hmem
    split at hmem
    · simp at hmem
    · split at hmem
      · simp at hmem
      · split at hmem <;> simp at hmem
  | attachMailbox m =>
    refine hmute ?_
    simp only [step, attachMailboxSocket]
    split
    · intro t via msg hmem
      simp at hmem
    · split
      · intro t via msg hmem
        simp at hmem
      · exact (mute_attach _ _ _).append (mute_deliver rfl)
  | attachClaim c =>
    rcases attachClaimSocket_cases cfg now p c with hno | ⟨p₁, cl, extra, hst, hdr, -, hex, hout, -⟩
    · exact absurd hmem (hno t via msg)
    · simp only [step, hout] at hmem
      rcases mem_append.1 hmem with hmem | hmem
      · obtain ⟨m, b, k, payload, rfl, rfl, hl, hb, hx, hc⟩ :=
          attachClaimant_mem (hst ▸ h.wf) hmem
        rw [hst] at hl hb
        exact .fanned hl hb hx hc
      · exact absurd hmem (hex t via msg)
  | message sock raw =>
    simp only [step] at hmem hmute
    split at hmem
    · cases hmem
    · next m e hs =>
      unfold holderMessage at hmem
      split at hmem
      · simp at hmem
      · cases hmem
      · next named reason box hb =>
        rw [holderClose_mute now p sock box named t via msg hmem] at hm
        cases hm
      · next k body box hb => exact holderRelay_relays hs hb hmem hm
    · next c hs =>
      unfold claimMessage at hmem
      split at hmem
      · simp at hmem
      · next k reason =>
        rw [failPeer_mute now p.store c k t via msg hmem] at hm
        cases hm
      · simp at hmem
      · next k body => exact claimRelay_relays h hs hmem hm
  | close sock =>
    refine hmute ?_
    simp only [step]
    split
    · intro t via msg hmem
      cases hmem
    · intro t via msg hmem
      cases hmem
    · next c _ => exact failPeers_mute now c _ _

end Pairing
end Mtmux.Broker
