import Mtmux.Broker.Pairing
import Mtmux.Broker.StoreInvariant

/-! The invariant of the pairing half and its preservation by every handler. -/
namespace Mtmux.Broker
open Protocol OrderedMap MailboxStore

namespace Pairing
variable (now : Nat)

theorem claimFor_quiet (st : MailboxStore) (box : Mailbox) : st.Quiet (claimFor now st box).1 := by
  unfold claimFor
  split
  · next claimId _ _ _ =>
    have h := getClaim_quiet st claimId now
    dsimp only
    split <;> exact h
  · exact .refl st

theorem ownedMailbox_quiet (st : MailboxStore) (claimId peer : String) :
    st.Quiet (ownedMailbox now st claimId peer).1 := by
  unfold ownedMailbox
  split
  · exact .refl st
  · next mailboxId _ =>
    have h := st.getMailbox_quiet mailboxId now
    split <;> next he => rw [he] at h; exact h

theorem failPeer_quiet (st : MailboxStore) (claimId peer : String) : st.Quiet (failPeer now st claimId peer).1 := by
  have h := ownedMailbox_quiet now st claimId peer
  unfold failPeer
  split
  · next he => rw [he] at h; exact h
  · next st' box he =>
    rw [he] at h
    exact (h.trans (st'.deliver_quiet _ _)).trans (removeMailbox_quiet _ _)

theorem failPeers_quiet (claimId : String) (peers : List String) (st : MailboxStore) :
    st.Quiet (failPeers now claimId peers st).1 := by
  induction peers generalizing st with
  | nil => exact .refl st
  | cons peer peers ih => exact (failPeer_quiet now st claimId peer).trans (ih _)

variable {rnd : Nat → String} {n : Nat} {live : String → Prop} {st st' : MailboxStore} {now}

variable {box : Mailbox} {cl : Claim}

theorem claimFor_some (h : claimFor now st box = (st', some cl)) :
    st' = st ∧ ∃ c k, box.claimedBy = some c ∧ box.peer = some k ∧ st.claimObjs.get c = some cl ∧
      cl.peers.get k = some box.id ∧ c ∈ st.claims ∧ now < cl.expiresAt := by
  unfold claimFor at h
  split at h
  · next c k hc hk =>
    rcases hg : st.getClaim c now with ⟨mid, _ | cl'⟩
    · simp [hg] at h
    · obtain ⟨rfl, hst, hcl, hx⟩ := getClaim_some hg
      simp only [hg, Prod.mk.injEq] at h
      obtain ⟨rfl, h⟩ := h
      split at h
      · next hr => cases h; exact ⟨rfl, c, k, hc, hk, hcl, hr, hst, hx⟩
      · cases h
  · cases h

variable {c k : String}

theorem claimFor_of_routed (hc : box.claimedBy = some c) (hk : box.peer = some k) (hcl : st.claimObjs.get c = some cl)
    (hr : cl.peers.get k = some box.id) (hst : c ∈ st.claims) (hx : now < cl.expiresAt) :
    claimFor now st box = (st, some cl) := by
  have hg : st.getClaim c now = (st, some cl) := by
    simp [MailboxStore.getClaim, MailboxStore.storedClaim, hst, hcl, expired, hx]
  simp only [claimFor, hc, hk, hg, if_pos hr]

theorem ownedMailbox_some (hw : st.Wf rnd n) {b : Mailbox} (h : ownedMailbox now st c k = (st', some b)) :
    st' = st ∧ b.id ∈ st.mailboxes ∧ st.boxes.get b.id = some b ∧ now < b.expiresAt ∧
      b.claimedBy = some c ∧ b.peer = some k ∧ ∃ cl, st.claimObjs.get c = some cl ∧ cl.peers.get k = some b.id := by
  unfold ownedMailbox at h
  split at h
  · cases h
  · next m hm =>
    obtain ⟨cl, hcl, hr⟩ := Option.bind_eq_some_iff.1 hm
    rcases hg : st.getMailbox m now with ⟨mid, _ | box⟩
    · simp [hg] at h
    · obtain ⟨rfl, hst, hb, hx⟩ := getMailbox_some hg
      obtain ⟨b', hb', -, hp⟩ := hw.routed hcl hr
      rw [hb] at hb'
      cases hb'
      simp only [hg, Prod.mk.injEq] at h
      obtain ⟨rfl, h⟩ := h
      split at h
      · next hc =>
        cases h
        have hid := hw.boxId hb
        subst hid
        exact ⟨rfl, hst, hb, hx, hc, hp, cl, hcl, hr⟩
      · cases h

variable {m : String}

theorem ownedMailbox_none (hw : st.Wf rnd n)
    (h : ownedMailbox now st c k = (st', none)) (hcl : st.claimObjs.get c = some cl)
    (hr : cl.peers.get k = some m) : m ∉ st'.mailboxes := by
  unfold ownedMailbox at h
  rw [hcl, Option.bind_some, hr] at h
  rcases hg : st.getMailbox m now with ⟨mid, _ | box⟩
  · simp only [hg, Prod.mk.injEq, and_true] at h
    subst h
    exact getMailbox_none hw hg
  · obtain ⟨rfl, -, hb, -⟩ := getMailbox_some hg
    obtain ⟨b, hb', hc, -⟩ := hw.routed hcl hr
    rw [hb] at hb'
    cases hb'
    simp [hg, hc] at h

theorem failPeer_gone (hw : st.Wf rnd n) (hcl : st.claimObjs.get c = some cl) (hr : cl.peers.get k = some m) :
    m ∉ (failPeer now st c k).1.mailboxes := by
  unfold failPeer
  split
  · next st' he => exact ownedMailbox_none hw he hcl hr
  · next st' b he =>
    obtain ⟨rfl, -, hb, -, -, -, cl', hcl', hr'⟩ := ownedMailbox_some hw he
    rw [hcl] at hcl'
    cases hcl'
    rw [hr] at hr'
    cases hr'
    obtain ⟨b', hb', -⟩ := (st'.deliver_quiet (.mailbox b.id)
      (.failed (some k) .confirmationFailed)).box_forth hb
    exact removeMailbox_gone _ _ hb'

theorem failPeers_gone (hw : st.Wf rnd n) (peers : List String)
    (hcl : st.claimObjs.get c = some cl) (hr : cl.peers.get k = some m) (hk : k ∈ peers) :
    m ∉ (failPeers now c peers st).1.mailboxes := by
  induction peers generalizing st cl with
  | nil => cases hk
  | cons a peers ih =>
    have hq := failPeer_quiet now st c a
    rcases List.mem_cons.1 hk with rfl | hk
    · intro hm
      exact failPeer_gone hw hcl hr ((failPeers_quiet now c peers _).kept m hm)
    · obtain ⟨cl', hcl', he⟩ := hq.claim_forth hcl
      rw [← (claim_core_eq he).2.2] at hr
      exact ih (hw.quiet hq) hcl' hr hk

theorem dropPeer_wf (hw : st.Wf rnd n) (c k : String) : (dropPeer st c k).Wf rnd n := by
  refine hw.updateClaim c _ (fun _ => rfl) (fun _ h => h) fun cl a m _ ha => Or.inl ?_
  exact get_of_delete ha

theorem dropPeer_burned (hb : st.Burned live)
    (hg : ∀ cl m, st.claimObjs.get c = some cl → cl.peers.get k = some m → m ∉ st.mailboxes) :
    (dropPeer st c k).Burned live := by
  refine hb.updateClaim c _ fun cl a m hcl ha hm => ?_
  rw [get_delete, if_neg, ha]
  rintro rfl
  exact hg cl m hcl ha hm

theorem dropPeer_grows (st : MailboxStore) (c k : String) : st.Grows (dropPeer st c k) :=
  .updateClaim c _ fun _ _ _ => rfl

/-- Fan-out keeps the store well formed: each live mailbox is burned at most once,
under a handle nobody has. -/
theorem fanOut_spec (cfg : PairingConfig) (hr : Function.Injective cfg.rnd) (c : String)
    (payload : ClaimPayload) (boxes : List Mailbox) (st : MailboxStore) (n : Nat)
    (hw : st.Wf cfg.rnd n) (hb : st.Burned live) (hl : live c)
    (hc : ∃ cl, st.claimObjs.get c = some cl ∧ cl.sink ≠ none) :
    (fanOut cfg c payload boxes st n).1.Wf cfg.rnd (fanOut cfg c payload boxes st n).2.1 ∧
      (fanOut cfg c payload boxes st n).1.Burned live ∧ st.Grows (fanOut cfg c payload boxes st n).1 := by
  induction boxes generalizing st n with
  | nil => exact ⟨hw, hb, (MailboxStore.Quiet.refl st).grows⟩
  | cons box boxes ih =>
    rcases hcl : st.claimMailbox box.id c (cfg.rnd n) with ⟨mid, _ | _⟩
    · obtain rfl := claimMailbox_false hcl
      simp only [fanOut, hcl]
      exact ih mid (n + 1) (hw.mono (Nat.le_succ n)) hb hc
    · obtain ⟨b, hbox, hn, rfl⟩ := claimMailbox_true hcl
      simp only [fanOut, hcl]
      have hq := (st.bindBox box.id b c (cfg.rnd n)).deliver_quiet (.mailbox box.id)
        (.peerShare (cfg.rnd n) payload.share payload.ad payload.sid)
      have hg := (MailboxStore.Grows.bindBox (c := c) (k := cfg.rnd n) hbox hn).trans hq.grows
      have hex : ∃ cl, ((st.bindBox box.id b c (cfg.rnd n)).deliver (.mailbox box.id)
          (.peerShare (cfg.rnd n) payload.share payload.ad payload.sid)).1.claimObjs.get c =
            some cl ∧ cl.sink ≠ none := by
        obtain ⟨cl, hcl, hs⟩ := hc
        obtain ⟨cl', hcl', he⟩ := hg.claim hcl
        exact ⟨cl', hcl', he hs ▸ hs⟩
      obtain ⟨h1, h2, h3⟩ := ih _ (n + 1) ((hw.bindBox hbox hn hc).quiet hq)
        ((hb.bindBox hw hr hl (hc.imp fun _ h => h.1)).quiet hq) hex
      exact ⟨h1, h2, hg.trans h3⟩

variable {cfg : PairingConfig} {p p' : Pairing}

/-- A claim whose socket has attached and not closed. -/
def Live (p : Pairing) (c : String) : Prop := ∃ k, p.sockets.get k = some (.claimant c)

structure Inv (cfg : PairingConfig) (p : Pairing) : Prop where
  wf : p.store.Wf cfg.rnd p.drawn
  burned : p.store.Burned p.Live
  sunk : ∀ {k c}, p.sockets.get k = some (.claimant c) →
    ∃ cl, p.store.claimObjs.get c = some cl ∧ cl.sink = some k
  held : ∀ {k m e}, p.sockets.get k = some (.holder m e) → ∃ b, p.store.boxes.get m = some b
  fresh : ∀ k, p.nextSocket ≤ k → p.sockets.get k = none

/-- Handlers that leave the socket table alone. -/
theorem Inv.next (h : Inv cfg p) (hw : p'.store.Wf cfg.rnd p'.drawn)
    (hb : p'.store.Burned p.Live) (hg : p.store.Grows p'.store) (hs : p'.sockets = p.sockets)
    (hn : p.nextSocket ≤ p'.nextSocket) : Inv cfg p' where
  wf := hw
  burned := by
    have hl : p'.Live = p.Live := by funext c; simp only [Live, hs]
    rw [hl]; exact hb
  sunk := by
    intro k c hk
    rw [hs] at hk
    obtain ⟨cl, hcl, hsink⟩ := h.sunk hk
    obtain ⟨cl', hcl', hs'⟩ := hg.claim hcl
    exact ⟨cl', hcl', (hs' (by simp [hsink])).trans hsink⟩
  held := by
    intro k m e hk
    rw [hs] at hk
    obtain ⟨b, hb⟩ := h.held hk
    obtain ⟨b', hb', -⟩ := hg.box hb
    exact ⟨b', hb'⟩
  fresh := by
    intro k hk
    rw [hs]
    exact h.fresh k (by omega)

theorem Inv.quiet (h : Inv cfg p) (q : p.store.Quiet p'.store) (hs : p'.sockets = p.sockets)
    (hn : p.nextSocket ≤ p'.nextSocket) (hd : p.drawn ≤ p'.drawn) : Inv cfg p' :=
  h.next ((h.wf.quiet q).mono hd) (h.burned.quiet q) q.grows hs hn

theorem Inv.setHolder (h : Inv cfg p) {k : Nat} (e : Bool)
    (hk : ∀ c, p.sockets.get k ≠ some (.claimant c)) (hlt : k < p.nextSocket) (hm : ∃ b, p.store.boxes.get m = some b) :
    Inv cfg { p with sockets := p.sockets.set k (.holder m e) } where
  wf := h.wf
  burned := by
    refine h.burned.mono fun c ⟨i, hi⟩ => ⟨i, ?_⟩
    rw [get_set, if_neg, hi]
    rintro rfl
    exact hk c hi
  sunk := by
    intro i c hi
    rw [get_set] at hi
    split at hi
    · cases hi
    · exact h.sunk hi
  held := by
    intro i m' e' hi
    rw [get_set] at hi
    split at hi
    · cases hi; exact hm
    · exact h.held hi
  fresh := by
    intro i hi
    dsimp only at hi
    rw [get_set, if_neg (by omega)]
    exact h.fresh i hi

theorem Inv.deleteHolder (h : Inv cfg p) {k : Nat} (hk : ∀ c, p.sockets.get k ≠ some (.claimant c)) :
    Inv cfg { p with sockets := p.sockets.delete k } where
  wf := h.wf
  burned := by
    refine h.burned.mono fun c ⟨i, hi⟩ => ⟨i, ?_⟩
    rw [get_delete, if_neg, hi]
    rintro rfl
    exact hk c hi
  sunk := by
    intro i c hi
    exact h.sunk (get_of_delete hi)
  held := by
    intro i m' e' hi
    exact h.held (get_of_delete hi)
  fresh := by
    intro i hi
    rw [get_delete]
    split
    · rfl
    · exact h.fresh i hi

theorem Inv.lt_next (h : Inv cfg p) {k : Nat} {x : PairingHandle}
    (hk : p.sockets.get k = some x) : k < p.nextSocket := by
  by_contra hn
  rw [h.fresh k (by omega)] at hk
  cases hk

/-- Drawing slots either finds all of them full, or ends in one new mailbox. -/
theorem drawMailbox_spec (now : Nat) (draw : Nat → String) (id : String) (left : Nat) (st : MailboxStore) :
    (∀ st', drawMailbox now st id draw left = (st', none) → st.Quiet st') ∧
    (∀ st' box, drawMailbox now st id draw left = (st', some box) →
      ∃ mid slot, st.Quiet mid ∧ box = ⟨id, slot, now, now + mid.ttlMs, none, none, none, []⟩ ∧
        st'.boxes = mid.boxes.set id box ∧ st'.claimObjs = mid.claimObjs ∧ st'.mailboxes = mid.mailboxes ++ [id]) := by
  induction left generalizing st with
  | zero =>
    refine ⟨fun st' h => ?_, fun st' box h => ?_⟩ <;> cases h
    exact .refl st
  | succ left ih =>
    rcases hc : st.createMailbox id (draw (slotDraws - (left + 1))) now with ⟨mid, _ | box⟩
    · have hq := createMailbox_none hc
      obtain ⟨ih1, ih2⟩ := ih mid
      simp only [drawMailbox, hc]
      refine ⟨fun st' h => hq.trans (ih1 st' h), fun st' box h => ?_⟩
      obtain ⟨mid', slot, hq', rest⟩ := ih2 st' box h
      exact ⟨mid', slot, hq.trans hq', rest⟩
    · simp only [drawMailbox, hc]
      refine ⟨fun st' h => ?_, fun st' box' h => ?_⟩ <;> cases h
      obtain ⟨mid', hq, rest⟩ := createMailbox_some hc
      exact ⟨mid', _, hq, rest⟩

theorem pairNew_inv (hr : Function.Injective cfg.rnd) (h : Inv cfg p) (ip : String)
    (body : PairNewBody) (draw : SlotSpace → Nat → String) (jitter : Nat) :
    Inv cfg (pairNew cfg now p ip body draw jitter).1 ∧
      p.store.Grows (pairNew cfg now p ip body draw jitter).1.store := by
  have hsame : ∀ p' : Pairing, p'.store = p.store → p'.sockets = p.sockets →
      p'.nextSocket = p.nextSocket → p'.drawn = p.drawn → Inv cfg p' ∧ p.store.Grows p'.store := by
    intro p' h1 h2 h3 h4
    have q : p.store.Quiet p'.store := h1 ▸ .refl _
    exact ⟨h.quiet q h2 (by omega) (by omega), q.grows⟩
  rw [pairNew]
  generalize p.mailboxLimiter.take ip now = taken
  obtain ⟨limiter, ok⟩ := taken
  dsimp only
  split
  · exact hsame _ rfl rfl rfl rfl
  · split
    · exact hsame _ rfl rfl rfl rfl
    · have hd := drawMailbox_spec now (draw (body.space.getD .typed)) (cfg.rnd p.drawn)
        slotDraws p.store
      split
      · next st he =>
        have q := hd.1 st he
        exact ⟨h.quiet q rfl (Nat.le_refl _) (Nat.le_succ _), q.grows⟩
      · next st box he =>
        obtain ⟨mid, slot, q, hbox, hb, hcl, hm⟩ := hd.2 st box he
        have hmem : ∀ m ∈ st.mailboxes, m ∈ mid.mailboxes ∨ m = cfg.rnd p.drawn := by
          intro m hmem
          simpa [hm] using hmem
        have hn : box.claimedBy = none := by rw [hbox]
        have hwm := h.wf.quiet q
        have hg := q.grows.trans (.addBox (hwm.fresh_box hr) hb hcl hmem)
        refine ⟨h.next
          (hwm.addBox hr box (by rw [hbox]) hn (by rw [hbox]) hb hcl hmem)
          ((h.burned.quiet q).addBox hn hb hcl hmem) hg rfl (Nat.le_refl _), hg⟩

theorem pairClaim_inv (hr : Function.Injective cfg.rnd) (h : Inv cfg p) (ip : String) (body : PairClaimBody) :
    Inv cfg (pairClaim cfg now p ip body).1 ∧ p.store.Grows (pairClaim cfg now p ip body).1.store := by
  have q := MailboxStore.Quiet.refl p.store
  rw [pairClaim]
  generalize p.claimLimiter.take ip now = taken
  obtain ⟨limiter, ok⟩ := taken
  dsimp only
  split
  · exact ⟨h.quiet q rfl (Nat.le_refl _) (Nat.le_refl _), q.grows⟩
  · split
    · exact ⟨h.quiet q rfl (Nat.le_refl _) (Nat.le_refl _), q.grows⟩
    · split
      · exact ⟨h.quiet q rfl (Nat.le_refl _) (Nat.le_refl _), q.grows⟩
      · next req _ =>
        have hg := MailboxStore.Grows.createClaim req.slot now (h.wf.fresh_claim hr)
        exact ⟨h.next (h.wf.createClaim hr req.slot now) (h.burned.createClaim h.wf hr req.slot now)
          hg rfl (Nat.le_refl _), hg⟩

theorem attachMailboxSocket_inv (h : Inv cfg p) (m : String) : Inv cfg (attachMailboxSocket now p m).1 ∧
      p.store.Grows (attachMailboxSocket now p m).1.store := by
  have hq := p.store.getMailbox_quiet m now
  unfold attachMailboxSocket
  rcases hg : p.store.getMailbox m now with ⟨st, _ | box⟩
  · rw [hg] at hq
    exact ⟨h.quiet hq rfl (Nat.le_succ _) (Nat.le_refl _), hq.grows⟩
  · rw [hg] at hq
    dsimp only
    split
    · exact ⟨h.quiet hq rfl (Nat.le_succ _) (Nat.le_refl _), hq.grows⟩
    · have hq' := (hq.trans (st.attach_mailbox_quiet m p.nextSocket)).trans
        (deliver_quiet _ (.mailbox m) (.ready box.id box.slot box.expiresAt))
      obtain ⟨rfl, -, hb, -⟩ := getMailbox_some hg
      obtain ⟨b', hb', -⟩ := hq'.box_forth hb
      have hi : Inv cfg { p with store := _, nextSocket := p.nextSocket + 1 } :=
        h.quiet hq' rfl (Nat.le_succ _) (Nat.le_refl _)
      refine ⟨hi.setHolder false (fun c hc => ?_) (Nat.lt_succ_self _) ⟨b', hb'⟩, hq'.grows⟩
      rw [h.fresh _ (Nat.le_refl _)] at hc
      cases hc

theorem holderClose_inv (h : Inv cfg p) (sock : Nat) (box : Mailbox) (named : Option String) :
    Inv cfg (holderClose now p sock box named).1 ∧ p.store.Grows (holderClose now p sock box named).1.store := by
  have hq := claimFor_quiet now p.store box
  have hquiet {st : MailboxStore} (hq : p.store.Quiet st) :
      Inv cfg { p with store := st.removeMailbox box.id } ∧ p.store.Grows (st.removeMailbox box.id) := by
    have hq' := hq.trans (removeMailbox_quiet st box.id)
    exact ⟨h.quiet hq' rfl (Nat.le_refl _) (Nat.le_refl _), hq'.grows⟩
  unfold holderClose
  rcases hc : claimFor now p.store box with ⟨st, found⟩
  rw [hc] at hq
  dsimp only
  split
  · exact hquiet (hq.trans (st.deliver_quiet _ _))
  · exact hquiet hq

theorem establish_inv (h : Inv cfg p) (hq : p.store.Quiet st)
    (hcl : p.store.claimObjs.get c = some cl) (hr : cl.peers.get k = some m) :
    Inv cfg { p with store := dropPeer (st.removeMailbox m) c k } ∧
      p.store.Grows (dropPeer (st.removeMailbox m) c k) := by
  have hq' := hq.trans (st.removeMailbox_quiet m)
  have hg := hq'.grows.trans (dropPeer_grows (st.removeMailbox m) c k)
  refine ⟨h.next (dropPeer_wf (h.wf.quiet hq') c k) (dropPeer_burned (h.burned.quiet hq') ?_)
    hg rfl (Nat.le_refl _), hg⟩
  intro cl' m' hcl' hr'
  obtain ⟨cl₀, hcl₀, he⟩ := hq'.claim_back hcl'
  rw [hcl] at hcl₀
  cases hcl₀
  rw [← (claim_core_eq he).2.2, hr] at hr'
  cases hr'
  obtain ⟨b, hb, -⟩ := h.wf.routed hcl hr
  obtain ⟨b', hb', -⟩ := hq.box_forth hb
  exact st.removeMailbox_gone m hb'

variable {sock : Nat}

theorem holderRelay_inv (h : Inv cfg p) {e : Bool} (hk : p.sockets.get sock = some (.holder m e))
    (hbox : p.store.boxes.get m = some box) (peer : String) (msg : PeerMessage) :
    Inv cfg (holderRelay now p sock box peer msg).1 ∧ p.store.Grows (holderRelay now p sock box peer msg).1.store := by
  have hnc : ∀ c, p.sockets.get sock ≠ some (.claimant c) := by simp [hk]
  have hq := claimFor_quiet now p.store box
  have hid := h.wf.boxId hbox
  subst hid
  unfold holderRelay
  split
  · exact ⟨h, (MailboxStore.Quiet.refl _).grows⟩
  · next hpeer =>
    rcases hc : claimFor now p.store box with ⟨st, _ | cl⟩
    · rw [hc] at hq
      have hq' := hq.trans (st.deliver_quiet (.mailbox box.id) (.failed (some peer) .peerGone))
      exact ⟨h.quiet hq' rfl (Nat.le_refl _) (Nat.le_refl _), hq'.grows⟩
    · obtain ⟨rfl, c, k, -, hbk, hcl, hr, -⟩ := claimFor_some hc
      have hpk : peer = k := by simpa [hbk, eq_comm] using hpeer
      subst hpk
      cases msg with
      | share share ad =>
        have hq' := p.store.deliver_quiet (.claim cl.id) (.peerShare peer share ad
          (((p.claimPayloads.get cl.id).map ClaimPayload.sid).getD
            "00000000000000000000000000000000"))
        exact ⟨h.quiet hq' rfl (Nat.le_refl _) (Nat.le_refl _), hq'.grows⟩
      | confirm tag =>
        have hq' := p.store.deliver_quiet (.claim cl.id) (.peerConfirm peer tag)
        have hi : Inv cfg { p with store := _ } :=
          h.quiet hq' rfl (Nat.le_refl _) (Nat.le_refl _)
        obtain ⟨b', hb', -⟩ := hq'.box_forth hbox
        exact ⟨hi.setHolder true hnc (h.lt_next hk) ⟨b', hb'⟩, hq'.grows⟩
      | establish sealedDescriptor =>
        have hcid := h.wf.claimId hcl
        subst hcid
        have hq' := p.store.deliver_quiet (.claim cl.id) (.established peer sealedDescriptor)
        obtain ⟨hi, hg⟩ := establish_inv h hq' hcl hr
        obtain ⟨b', hb', -⟩ := hg.box hbox
        exact ⟨hi.setHolder true hnc (h.lt_next hk) ⟨b', hb'⟩, hg⟩

theorem holderMessage_inv (h : Inv cfg p) {e : Bool}
    (hk : p.sockets.get sock = some (.holder m e)) (raw : Option PairingClientMessage) :
    Inv cfg (holderMessage now p sock m raw).1 ∧ p.store.Grows (holderMessage now p sock m raw).1.store := by
  unfold holderMessage
  split
  · exact ⟨h, (MailboxStore.Quiet.refl _).grows⟩
  · exact ⟨h, (MailboxStore.Quiet.refl _).grows⟩
  · exact holderClose_inv h _ _ _
  · next hb => exact holderRelay_inv h hk hb _ _

theorem holderGone_inv (h : Inv cfg p) {e : Bool} (hk : p.sockets.get sock = some (.holder m e)) :
    Inv cfg (holderGone p sock m e) ∧ p.store.Grows (holderGone p sock m e).store := by
  have hq : p.store.Quiet (if e then p.store.updateBox m fun box => { box with sink := none }
      else p.store.removeMailbox m) := by
    split
    · exact p.store.updateBox_quiet m _ fun _ _ => rfl
    · exact p.store.removeMailbox_quiet m
  have hi : Inv cfg { p with store := _ } := h.quiet hq rfl (Nat.le_refl _) (Nat.le_refl _)
  exact ⟨hi.deleteHolder (by simp [hk]), hq.grows⟩

theorem chargeBudgets_frame (now : Nat) (p : Pairing) (slot : String) : (chargeBudgets now p slot).1.store = p.store ∧
      (chargeBudgets now p slot).1.sockets = p.sockets ∧ (chargeBudgets now p slot).1.nextSocket = p.nextSocket ∧
      (chargeBudgets now p slot).1.drawn = p.drawn := by
  rw [chargeBudgets]
  generalize p.slotClaimLimiter.take (slotKey slot) now = bySlot
  generalize p.globalClaimLimiter.take globalKey now = all
  dsimp only
  split <;> exact ⟨rfl, rfl, rfl, rfl⟩

theorem attach_claim_spec (hw : st.Wf rnd n) (hb : st.Burned live)
    (hcl : st.claimObjs.get c = some cl) (hs : cl.sink = none) (sock : Nat) :
    (st.attach (.claim c) sock).1.Wf rnd n ∧ (st.attach (.claim c) sock).1.Burned live ∧
      st.Grows (st.attach (.claim c) sock).1 ∧
      ∃ cl', (st.attach (.claim c) sock).1.claimObjs.get c = some cl' ∧ cl'.sink = some sock := by
  have he : (st.attach (.claim c) sock).1 =
      st.updateClaim c fun claim => { claim with sink := some sock, pending := [] } := by
    simp [MailboxStore.attach, MailboxStore.inbox, hcl, MailboxStore.setInbox]
  rw [he]
  refine ⟨hw.updateClaim c _ (fun _ => rfl) (by simp) fun _ _ _ _ h => Or.inl h,
    hb.updateClaim c _ fun _ _ _ _ h _ => h,
    .updateClaim c _ fun cl' hcl' hn => ?_, ?_⟩
  · rw [hcl] at hcl'
    cases hcl'
    exact absurd hs hn
  · exact ⟨{ cl with sink := some sock, pending := [] }, by simp [MailboxStore.updateClaim, hcl], rfl⟩

theorem attachClaimant_spec (now : Nat) (hr : Function.Injective cfg.rnd) (h : Inv cfg p)
    (hcl : p.store.claimObjs.get c = some cl) (hs : cl.sink = none) (sock : Nat) :
    (attachClaimant cfg now p sock cl).1.store.Wf cfg.rnd (attachClaimant cfg now p sock cl).1.drawn ∧
      (attachClaimant cfg now p sock cl).1.store.Burned (fun a => p.Live a ∨ a = c) ∧
      p.store.Grows (attachClaimant cfg now p sock cl).1.store ∧
      (∃ cl', (attachClaimant cfg now p sock cl).1.store.claimObjs.get c = some cl' ∧ cl'.sink = some sock) ∧
      (attachClaimant cfg now p sock cl).1.sockets = p.sockets ∧
      (attachClaimant cfg now p sock cl).1.nextSocket = p.nextSocket := by
  have hid := h.wf.claimId hcl
  subst hid
  obtain ⟨hw, hb, hg, cl₁, hcl₁, hs₁⟩ := attach_claim_spec h.wf h.burned hcl hs sock
  have hq := (p.store.attach (.claim cl.id) sock).1.extendClaim_quiet cl.id now
  obtain ⟨cl₂, hcl₂, he₂⟩ := hq.claim_forth hcl₁
  have hs₂ : cl₂.sink = some sock := (claim_core_eq he₂).2.1.trans hs₁
  have hb' : ((p.store.attach (.claim cl.id) sock).1.extendClaim cl.id now).Burned
      (fun a => p.Live a ∨ a = cl.id) := (hb.quiet hq).mono fun _ => Or.inl
  unfold attachClaimant
  dsimp only
  split
  · exact ⟨hw.quiet hq, hb', hg.trans hq.grows, ⟨cl₂, hcl₂, hs₂⟩, rfl, rfl⟩
  · next payload _ =>
    have hq' := scanSlot_quiet now
      ((((p.store.attach (.claim cl.id) sock).1.extendClaim cl.id now).bySlot.get cl.slot).getD [])
      ((p.store.attach (.claim cl.id) sock).1.extendClaim cl.id now)
    obtain ⟨cl₃, hcl₃, he₃⟩ := hq'.claim_forth hcl₂
    have hs₃ : cl₃.sink = some sock := (claim_core_eq he₃).2.1.trans hs₂
    obtain ⟨h1, h2, h3⟩ := fanOut_spec cfg hr cl.id payload
      (((p.store.attach (.claim cl.id) sock).1.extendClaim cl.id now).liveMailboxesForSlot
        cl.slot now).2 _ p.drawn ((hw.quiet hq).quiet hq') (hb'.quiet hq') (Or.inr rfl) ⟨cl₃, hcl₃, by simp [hs₃]⟩
    obtain ⟨cl₄, hcl₄, hs₄⟩ := h3.claim hcl₃
    exact ⟨h1, h2, (hg.trans hq.grows).trans (hq'.grows.trans h3),
      ⟨cl₄, hcl₄, (hs₄ (by simp [hs₃])).trans hs₃⟩, rfl, rfl⟩

/-- Installing a claimant's handlers, once its claim has its sink and its routes. -/
theorem Inv.setClaimant (h : Inv cfg p) {k : Nat}
    (hw : p'.store.Wf cfg.rnd p'.drawn) (hb : p'.store.Burned fun a => p.Live a ∨ a = c)
    (hg : p.store.Grows p'.store) (hcl : p'.store.claimObjs.get c = some cl)
    (hsink : cl.sink = some k) (hs : p'.sockets = p.sockets) (hn : p'.nextSocket = p.nextSocket)
    (hk : p.sockets.get k = none) (hlt : k < p.nextSocket) :
    Inv cfg { p' with sockets := p'.sockets.set k (.claimant c) } where
  wf := hw
  burned := by
    refine hb.mono ?_
    rintro a (⟨i, hi⟩ | rfl)
    · refine ⟨i, ?_⟩
      rw [get_set, if_neg, hs, hi]
      rintro rfl
      rw [hk] at hi
      cases hi
    · exact ⟨k, by simp⟩
  sunk := by
    intro i a hi
    rw [get_set] at hi
    split at hi
    · next he => cases hi; exact ⟨cl, hcl, he ▸ hsink⟩
    · rw [hs] at hi
      obtain ⟨cl', hcl', hs'⟩ := h.sunk hi
      obtain ⟨cl'', hcl'', hs''⟩ := hg.claim hcl'
      exact ⟨cl'', hcl'', (hs'' (by simp [hs'])).trans hs'⟩
  held := by
    intro i m e hi
    rw [get_set] at hi
    split at hi
    · cases hi
    · rw [hs] at hi
      obtain ⟨b, hb⟩ := h.held hi
      obtain ⟨b', hb', -⟩ := hg.box hb
      exact ⟨b', hb'⟩
  fresh := by
    intro i hi
    dsimp only at hi
    rw [get_set, if_neg (by omega), hs]
    exact h.fresh i (by omega)

theorem burned_of_no_peers (hb : st.Burned fun a => live a ∨ a = c) (hcl : st.claimObjs.get c = some cl)
    (hz : cl.peers.size = 0) : st.Burned live := by
  intro m hm b a k hmb hma hmk
  obtain ⟨hl, cl', hcl', hr⟩ := hb m hm b a k hmb hma hmk
  refine ⟨hl.resolve_right ?_, cl', hcl', hr⟩
  rintro rfl
  rw [hcl] at hcl'
  cases hcl'
  have hmem := (get_eq_some _ _ _).1 hr
  rw [List.eq_nil_of_length_eq_zero hz] at hmem
  cases hmem

theorem attachClaimSocket_inv (hr : Function.Injective cfg.rnd) (h : Inv cfg p) (c : String) :
    Inv cfg (attachClaimSocket cfg now p c).1 ∧ p.store.Grows (attachClaimSocket cfg now p c).1.store := by
  have hq := p.store.getClaim_quiet c now
  rw [attachClaimSocket]
  rcases hg : p.store.getClaim c now with ⟨st, _ | cl⟩
  · rw [hg] at hq
    exact ⟨h.quiet hq rfl (Nat.le_succ _) (Nat.le_refl _), hq.grows⟩
  obtain ⟨rfl, -, hcl, -⟩ := getClaim_some hg
  have hrefl := MailboxStore.Quiet.refl p.store
  have h₁ : Inv cfg { p with nextSocket := p.nextSocket + 1 } :=
    h.quiet hrefl rfl (Nat.le_succ _) (Nat.le_refl _)
  dsimp only
  split
  · exact ⟨h₁, hrefl.grows⟩
  next hs =>
  have hf := chargeBudgets_frame now { p with nextSocket := p.nextSocket + 1 } cl.slot
  generalize chargeBudgets now { p with nextSocket := p.nextSocket + 1 } cl.slot = charged at hf ⊢
  obtain ⟨p₁, ok⟩ := charged
  obtain ⟨hst, hso, hns, hdr⟩ := hf
  dsimp only at hst hso hns hdr ⊢
  have h₂ : Inv cfg p₁ := h₁.quiet (by rw [hst]; exact hrefl) hso (by simp [hns]) (by simp [hdr])
  rw [← hst] at hcl ⊢
  split
  · have hq₁ := p₁.store.destroyClaim_quiet c
    exact ⟨h₂.quiet hq₁ rfl (Nat.le_refl _) (Nat.le_refl _), hq₁.grows⟩
  have ha := attachClaimant_spec now hr h₂ hcl (not_not.1 hs) p.nextSocket
  generalize attachClaimant cfg now p₁ p.nextSocket cl = attached at ha ⊢
  obtain ⟨p₂, out⟩ := attached
  obtain ⟨hw, hb, hgr, ⟨cl', hcl', hsink⟩, hso', hns'⟩ := ha
  dsimp only at hw hb hgr hcl' hso' hns' ⊢
  split
  · next hz =>
    have hq₂ := p₂.store.destroyClaim_quiet c
    have hb' := burned_of_no_peers hb hcl' (by simpa [hcl'] using hz)
    have hgr' := hgr.trans hq₂.grows
    exact ⟨h₂.next (hw.quiet hq₂) (hb'.quiet hq₂) hgr' hso' (Nat.le_of_eq hns'.symm), hgr'⟩
  · refine ⟨h₂.setClaimant hw hb hgr hcl' hsink hso' hns' ?_ (by omega), hgr⟩
    rw [hso]
    exact h.fresh _ (Nat.le_refl _)

theorem claimGone_inv (h : Inv cfg p) (hk : p.sockets.get sock = some (.claimant c)) :
    Inv cfg (claimGone now p sock c).1 ∧ p.store.Grows (claimGone now p sock c).1.store := by
  obtain ⟨cl, hcl, hsink⟩ := h.sunk hk
  have hq := failPeers_quiet now c cl.peers.keys p.store
  have hq' := hq.trans (destroyClaim_quiet _ c)
  have hi : Inv cfg { p with store := _ } := h.quiet hq' rfl (Nat.le_refl _) (Nat.le_refl _)
  unfold claimGone
  simp only [hcl, Option.map_some, Option.getD_some, forgetClaim]
  refine ⟨⟨hi.wf, ?_, ?_, ?_, ?_⟩, hq'.grows⟩
  · intro m hm b a k hb ha hbk
    obtain ⟨⟨i, hil⟩, cl', hcl', hr⟩ := hi.burned m hm b a k hb ha hbk
    refine ⟨⟨i, ?_⟩, cl', hcl', hr⟩
    rw [get_delete, if_neg, hil]
    rintro rfl
    -- the closing claim has just failed every mailbox it routed to
    rw [hk] at hil
    cases hil
    obtain ⟨cl₀, hcl₀, he⟩ := hq'.claim_back hcl'
    rw [hcl] at hcl₀
    cases hcl₀
    rw [← (claim_core_eq he).2.2] at hr
    exact failPeers_gone h.wf cl.peers.keys hcl hr
      ((mem_keys _ _).2 ⟨m, hr⟩) hm
  · intro i a hia
    exact hi.sunk (get_of_delete hia)
  · intro i m e him
    exact hi.held (get_of_delete him)
  · intro i hi'
    rw [get_delete]
    split
    · rfl
    · exact h.fresh i hi'

theorem claimMessage_inv (h : Inv cfg p) (sock : Nat) (c : String) (raw : Option PairingClientMessage) :
    Inv cfg (claimMessage now p sock c raw).1 ∧ p.store.Grows (claimMessage now p sock c raw).1.store := by
  have hrefl := (MailboxStore.Quiet.refl p.store).grows
  unfold claimMessage
  split
  · exact ⟨h, hrefl⟩
  · next k _ =>
    have hq := failPeer_quiet now p.store c k
    have hg := hq.grows.trans (dropPeer_grows _ c k)
    refine ⟨h.next (dropPeer_wf (h.wf.quiet hq) c k) (dropPeer_burned (h.burned.quiet hq) ?_) hg rfl
      (Nat.le_refl _), hg⟩
    intro cl m hcl hr
    obtain ⟨cl₀, hcl₀, he⟩ := hq.claim_back hcl
    rw [← (claim_core_eq he).2.2] at hr
    exact failPeer_gone h.wf hcl₀ hr
  · have hq := p.store.destroyClaim_quiet c
    exact ⟨h.quiet hq rfl (Nat.le_refl _) (Nat.le_refl _), hq.grows⟩
  · next k msg =>
    have hq := ownedMailbox_quiet now p.store c k
    unfold claimRelay
    rcases ho : ownedMailbox now p.store c k with ⟨st, _ | box⟩
    · rw [ho] at hq
      have hq' := hq.trans (st.deliver_quiet (.claim c) (.failed (some k) .peerGone))
      exact ⟨h.quiet hq' rfl (Nat.le_refl _) (Nat.le_refl _), hq'.grows⟩
    · obtain ⟨rfl, -, -, -, -, -, cl, hcl, hr⟩ := ownedMailbox_some h.wf ho
      cases msg with
      | share _ _ => exact ⟨h, hrefl⟩
      | confirm tag =>
        have hq' := p.store.deliver_quiet (.mailbox box.id) (.peerConfirm k tag)
        exact ⟨h.quiet hq' rfl (Nat.le_refl _) (Nat.le_refl _), hq'.grows⟩
      | establish sealedDescriptor =>
        exact establish_inv h (p.store.deliver_quiet (.mailbox box.id)
          (.established k sealedDescriptor)) hcl hr

theorem step_inv (hr : Function.Injective cfg.rnd) (h : Inv cfg p) (e : PairingEvent) :
    Inv cfg (step cfg now p e).1 ∧ p.store.Grows (step cfg now p e).1.store := by
  have hrefl := (MailboxStore.Quiet.refl p.store).grows
  cases e with
  | pairNew ip body draw jitter => exact pairNew_inv hr h ip body draw jitter
  | pairClaim ip body => exact pairClaim_inv hr h ip body
  | attachMailbox m => exact attachMailboxSocket_inv h m
  | attachClaim c => exact attachClaimSocket_inv hr h c
  | message sock raw =>
    simp only [step]
    split
    · exact ⟨h, hrefl⟩
    · next hk => exact holderMessage_inv h hk raw
    · exact claimMessage_inv h sock _ raw
  | close sock =>
    simp only [step]
    split
    · exact ⟨h, hrefl⟩
    · next hk => exact holderGone_inv h hk
    · next hk => exact claimGone_inv h hk

theorem sweep_inv (h : Inv cfg p) : Inv cfg (sweep now p) ∧ p.store.Grows (sweep now p).store := by
  have hq := p.store.sweep_quiet now
  exact ⟨h.quiet hq rfl (Nat.le_refl _) (Nat.le_refl _), hq.grows⟩

end Pairing
end Mtmux.Broker
