import Mtmux.Broker.PairingRelay
import Mtmux.Broker.System

/-! What happens to the codes a claim burned. As long as one is stored its claim's
socket is open and routes to it; when that socket closes its holder is told once
and the mailbox goes. -/
namespace Mtmux.Broker
open Protocol MailboxStore List

def isHandedTo (m : String) : PairingOut → Bool
  | .handed (.mailbox id) _ _ => decide (id = m)
  | _ => false

theorem isHandedTo_eq {m : String} {o : PairingOut} (h : isHandedTo m o = true) :
    ∃ via msg, o = .handed (.mailbox m) via msg := by
  unfold isHandedTo at h
  split at h
  · next via msg =>
    have hid := of_decide_eq_true h
    subst hid
    exact ⟨via, msg, rfl⟩
  · cases h

namespace MailboxStore
variable {st : MailboxStore}

theorem removeMailbox_other (st : MailboxStore) {id m : String} (hne : m ≠ id) :
    m ∈ (st.removeMailbox id).mailboxes ↔ m ∈ st.mailboxes := by
  unfold removeMailbox
  split
  · exact Iff.rfl
  · simp [hne]

theorem deliver_other (st : MailboxStore) {id m : String} (hne : m ≠ id) (message : PairingServerMessage) :
    (st.deliver (.mailbox id) message).1.boxes.get m = st.boxes.get m := by
  unfold deliver
  split
  · rfl
  · rfl
  · split
    · simp [setInbox, updateBox, hne]
    · rfl

theorem deliver_mailboxes (st : MailboxStore) (id : String) (message : PairingServerMessage) :
    (st.deliver (.mailbox id) message).1.mailboxes = st.mailboxes := by
  unfold deliver
  split
  · rfl
  · rfl
  · split <;> rfl

theorem deliver_out {m : String} {b : Mailbox} (hb : st.boxes.get m = some b)
    (message : PairingServerMessage) :
    (st.deliver (.mailbox m) message).2 =
      if b.sink = none ∧ maxPending ≤ b.pending.length then []
      else [.handed (.mailbox m) b.sink message] := by
  unfold deliver
  cases hs : b.sink with
  | some sock => simp [inbox, hb, hs]
  | none =>
    simp only [inbox, hb, hs, Option.map_some, true_and]
    by_cases hlt : b.pending.length < maxPending
    · rw [if_pos hlt, if_neg (by omega)]
    · rw [if_neg hlt, if_pos (by omega)]

end MailboxStore

namespace Pairing
variable {cfg : PairingConfig} {now : Nat} {p : Pairing} {st : MailboxStore} {rnd : Nat → String}
  {n : Nat}

variable {c k : String}

theorem ownedMailbox_none_store {st' : MailboxStore} (h : ownedMailbox now st c k = (st', none)) :
    st' = st ∨ ∃ cl a, st.claimObjs.get c = some cl ∧ cl.peers.get k = some a ∧ st' = st.removeMailbox a := by
  unfold ownedMailbox at h
  split at h
  · cases h
    exact Or.inl rfl
  · next a ha =>
    obtain ⟨cl, hcl, hr⟩ := Option.bind_eq_some_iff.1 ha
    have hst : st' = (st.getMailbox a now).1 := by
      generalize st.getMailbox a now = found at h
      obtain ⟨mid, _ | box⟩ := found <;> simp only [Prod.mk.injEq] at h <;> exact h.1.symm
    rw [hst]
    unfold MailboxStore.getMailbox
    split
    · exact Or.inl rfl
    · split
      · exact Or.inr ⟨cl, a, hcl, hr, rfl⟩
      · exact Or.inl rfl

variable {m : String}

/-- Failing the conversation under another handle leaves a mailbox alone. -/
theorem failPeer_other (now : Nat) (c : String) (hw : st.Wf rnd n) {b : Mailbox}
    (hb : st.boxes.get m = some b) (hk : b.peer ≠ some k) : (failPeer now st c k).1.boxes.get m = some b ∧
      (m ∈ (failPeer now st c k).1.mailboxes ↔ m ∈ st.mailboxes) ∧
      (failPeer now st c k).2.filter (isHandedTo m) = [] := by
  have hroute : ∀ {cl a}, st.claimObjs.get c = some cl → cl.peers.get k = some a → m ≠ a := by
    rintro cl a hcl hr rfl
    obtain ⟨b', hb', -, hp⟩ := hw.routed hcl hr
    rw [hb] at hb'
    cases hb'
    exact hk hp
  unfold failPeer
  rcases ho : ownedMailbox now st c k with ⟨st', _ | box⟩
  · rcases ownedMailbox_none_store ho with rfl | ⟨cl, a, hcl, hr, rfl⟩
    · exact ⟨hb, Iff.rfl, rfl⟩
    · exact ⟨by rw [removeMailbox_boxes, hb],
        st.removeMailbox_other (hroute hcl hr), rfl⟩
  · obtain ⟨rfl, -, -, -, -, -, cl, hcl, hr⟩ := ownedMailbox_some hw ho
    have hne := hroute hcl hr
    dsimp only
    refine ⟨?_, ?_, ?_⟩
    · rw [removeMailbox_boxes, deliver_other _ hne, hb]
    · rw [removeMailbox_other _ hne, deliver_mailboxes]
    · rw [filter_eq_nil_iff]
      intro o hmem hto
      obtain ⟨via, he⟩ := mem_deliver hmem
      obtain ⟨via', msg, he'⟩ := isHandedTo_eq hto
      rw [he] at he'
      cases he'
      exact hne rfl

theorem failPeer_stored (hw : st.Wf rnd n) (hm : m ∉ st.mailboxes) :
    (failPeer now st c k).2.filter (isHandedTo m) = [] := by
  rw [filter_eq_nil_iff]
  intro o hmem hto
  obtain ⟨via, msg, rfl⟩ := isHandedTo_eq hto
  unfold failPeer at hmem
  rcases ho : ownedMailbox now st c k with ⟨st', _ | box⟩
  · rw [ho] at hmem
    cases hmem
  · obtain ⟨-, hl, -⟩ := ownedMailbox_some hw ho
    rw [ho] at hmem
    obtain ⟨via', he⟩ := mem_deliver hmem
    cases he
    exact hm hl

theorem failPeers_stored (peers : List String) (hw : st.Wf rnd n)
    (hm : m ∉ st.mailboxes) : (failPeers now c peers st).2.filter (isHandedTo m) = [] := by
  induction peers generalizing st with
  | nil => rfl
  | cons k peers ih =>
    have hq := failPeer_quiet now st c k
    simp only [failPeers, filter_append]
    rw [failPeer_stored hw hm, nil_append]
    exact ih (hw.quiet hq) fun h => hm (hq.kept m h)

theorem failPeers_hands {cl : Claim} {b : Mailbox} (peers : List String)
    (hw : st.Wf rnd n) (hcl : st.claimObjs.get c = some cl) (hr : cl.peers.get k = some m)
    (hm : m ∈ st.mailboxes) (hb : st.boxes.get m = some b) (hx : now < b.expiresAt)
    (hk : k ∈ peers) :
    (failPeers now c peers st).2.filter (isHandedTo m) =
      if b.sink = none ∧ maxPending ≤ b.pending.length then []
      else [.handed (.mailbox m) b.sink (.failed (some k) .confirmationFailed)] := by
  have hpeer : b.claimedBy = some c ∧ b.peer = some k := by
    obtain ⟨b', hb', hc, hp⟩ := hw.routed hcl hr
    rw [hb] at hb'
    cases hb'
    exact ⟨hc, hp⟩
  induction peers generalizing st cl with
  | nil => cases hk
  | cons a peers ih =>
    have hq := failPeer_quiet now st c a
    simp only [failPeers, filter_append]
    by_cases ha : a = k
    · subst ha
      have hgone : m ∉ (failPeer now st c a).1.mailboxes := failPeer_gone hw hcl hr
      rw [failPeers_stored peers (hw.quiet hq) hgone, append_nil]
      have hown : ownedMailbox now st c a = (st, some b) := by
        have hg : st.getMailbox m now = (st, some b) := by
          simp [MailboxStore.getMailbox, MailboxStore.stored, hm, hb, expired, hx]
        simp [ownedMailbox, hcl, hr, hg, hpeer.1]
      have hid := hw.boxId hb
      subst hid
      unfold failPeer
      rw [hown]
      dsimp only
      rw [deliver_out hb]
      split
      · rfl
      · simp [isHandedTo]
    · obtain ⟨h1, h2, h3⟩ := failPeer_other now c hw hb
        (show b.peer ≠ some a by rw [hpeer.2]; simpa [eq_comm] using ha)
      obtain ⟨cl', hcl', he⟩ := hq.claim_forth hcl
      rw [h3, nil_append]
      exact ih (hw.quiet hq) hcl' ((claim_core_eq he).2.2 ▸ hr) (h2.2 hm) h1
        ((mem_cons.1 hk).resolve_left fun h => ha h.symm)

/-- The step in which a pairing through `m` is established, from either end, or
failed by a close that names its peer. -/
inductive Concludes (now : Nat) (p : Pairing) : PairingEvent → String → Prop where
  | claimantEstablished {sock : Nat} {c k descriptor : String} {b : Mailbox}
      (speaker : p.sockets.get sock = some (.claimant c))
      (owned : ownedMailbox now p.store c k = (p.store, some b)) :
    Concludes now p (.message sock (some (.toPeer k (.establish descriptor)))) b.id
  | holderEstablished {sock : Nat} {m k descriptor : String} {e : Bool} {b : Mailbox} {cl : Claim}
      (speaker : p.sockets.get sock = some (.holder m e)) (found : p.store.boxes.get m = some b)
      (peer : b.peer = some k) (routed : claimFor now p.store b = (p.store, some cl)) :
    Concludes now p (.message sock (some (.toPeer k (.establish descriptor)))) m
  | claimantFailed {sock : Nat} {c k m : String} {reason : Option String} {cl : Claim}
      (speaker : p.sockets.get sock = some (.claimant c))
      (found : p.store.claimObjs.get c = some cl) (routed : cl.peers.get k = some m) :
    Concludes now p (.message sock (some (.close (some k) reason))) m
  | holderFailed {sock : Nat} {m k : String} {reason : Option String} {e : Bool} {b : Mailbox}
      (speaker : p.sockets.get sock = some (.holder m e))
      (found : p.store.boxes.get m = some b) :
    Concludes now p (.message sock (some (.close (some k) reason))) m

/-- A concluded mailbox existed and is off the list. -/
theorem Concludes.gone (h : Inv cfg p) {e : PairingEvent} (hc : Concludes now p e m) :
    (∃ b, p.store.boxes.get m = some b) ∧ m ∉ (step cfg now p e).1.store.mailboxes := by
  cases hc with
  | @claimantEstablished sock c k descriptor b speaker owned =>
    obtain ⟨-, -, hb, -⟩ := ownedMailbox_some h.wf owned
    refine ⟨⟨b, hb⟩, ?_⟩
    obtain ⟨b', hb', -⟩ := (p.store.deliver_quiet (.mailbox b.id)
      (.established k descriptor)).box_forth hb
    simp only [step, speaker, claimMessage, claimRelay, owned, dropPeer, MailboxStore.updateClaim]
    exact removeMailbox_gone _ _ hb'
  | @holderEstablished sock m k descriptor e b cl speaker found peer routed =>
    refine ⟨⟨b, found⟩, ?_⟩
    have hid := h.wf.boxId found
    subst hid
    obtain ⟨b', hb', -⟩ := (p.store.deliver_quiet (.claim cl.id)
      (.established k descriptor)).box_forth found
    simp only [step, speaker, holderMessage, found, holderRelay, peer, routed, dropPeer,
      MailboxStore.updateClaim, ne_eq, not_true_eq_false, if_false]
    exact removeMailbox_gone _ _ hb'
  | @claimantFailed sock c k m reason cl speaker found routed =>
    obtain ⟨b, hb, -⟩ := h.wf.routed found routed
    refine ⟨⟨b, hb⟩, ?_⟩
    simp only [step, speaker, claimMessage, dropPeer, MailboxStore.updateClaim]
    exact failPeer_gone h.wf found routed
  | @holderFailed sock m k reason e b speaker found =>
    refine ⟨⟨b, found⟩, ?_⟩
    have hid := h.wf.boxId found
    subst hid
    simp only [step, speaker, holderMessage, found, holderClose]
    generalize hcf : claimFor now p.store b = routed
    have hq := claimFor_quiet now p.store b
    rw [hcf] at hq
    obtain ⟨st, claim⟩ := routed
    dsimp only
    split
    · obtain ⟨b', hb', -⟩ := (hq.trans (st.deliver_quiet _ _)).box_forth found
      exact removeMailbox_gone _ _ hb'
    · obtain ⟨b', hb', -⟩ := hq.box_forth found
      exact removeMailbox_gone _ _ hb'

end Pairing

namespace System
variable {cfg : BrokerConfig}

/-- What a step hands to a mailbox. -/
def handedTo (m : String) (out : List BrokerOut) : List PairingOut :=
  (out.filterMap fun o =>
    match o with
    | .pairing o => some o
    | .link _ => none).filter (isHandedTo m)

theorem handedTo_close {b : System} {sock : Nat} {c : String} {cl : Claim}
    (hs : b.pairing.sockets.get sock = some (.claimant c))
    (hcl : b.pairing.store.claimObjs.get c = some cl) (m : String) :
    handedTo m (step cfg b (.pairing (.close sock))).2 =
      (Pairing.failPeers b.now c cl.peers.keys b.pairing.store).2.filter (isHandedTo m) := by
  simp [handedTo, step, Pairing.step, hs, Pairing.claimGone, hcl, filterMap_map]

theorem run_append (cfg : BrokerConfig) (es es' : List BrokerEvent) (e : BrokerEvent) :
    (machine cfg).run (es ++ e :: es') = (machine cfg).run (es ++ [e] ++ es') := by
  rw [append_assoc, singleton_append]

/-- Stored, unexpired and burned mailboxes belong to a claim whose socket is open
and routes to them. When it closes each is told once, unless nobody is attached
and its buffer is full, and removed; concluded ones hear nothing. -/
theorem burned_code_told (cfg : BrokerConfig) (hr : Function.Injective cfg.pairing.rnd)
    (es : List BrokerEvent) :
    (∀ m b c, m ∈ ((machine cfg).run es).pairing.store.mailboxes →
      ((machine cfg).run es).pairing.store.boxes.get m = some b →
      ((machine cfg).run es).now < b.expiresAt → b.claimedBy = some c →
      ∃ k sock cl, b.peer = some k ∧
        ((machine cfg).run es).pairing.sockets.get sock = some (.claimant c) ∧
        ((machine cfg).run es).pairing.store.claimObjs.get c = some cl ∧
        cl.peers.get k = some m) ∧
    (∀ sock c, ((machine cfg).run es).pairing.sockets.get sock = some (.claimant c) →
      (∀ m b k, m ∈ ((machine cfg).run es).pairing.store.mailboxes →
        ((machine cfg).run es).pairing.store.boxes.get m = some b →
        ((machine cfg).run es).now < b.expiresAt → b.claimedBy = some c → b.peer = some k →
        m ∉ (step cfg ((machine cfg).run es) (.pairing (.close sock))).1.pairing.store.mailboxes ∧
        handedTo m (step cfg ((machine cfg).run es) (.pairing (.close sock))).2 =
          if b.sink = none ∧ maxPending ≤ b.pending.length then []
          else [.handed (.mailbox m) b.sink (.failed (some k) .confirmationFailed)]) ∧
      (∀ m, (∃ x ∈ (machine cfg).trace es, ∃ e, x.event = .pairing e ∧
          Pairing.Concludes x.pre.now x.pre.pairing e m) →
        handedTo m (step cfg ((machine cfg).run es) (.pairing (.close sock))).2 = [])) := by
  have hinv := run_pairing_inv hr es
  refine ⟨?_, fun sock c hs => ?_⟩
  · intro m b c hm hb hx hc
    obtain ⟨k, hk⟩ : ∃ k, b.peer = some k := by
      cases hp : b.peer with
      | some k => exact ⟨k, rfl⟩
      | none =>
        rw [(hinv.wf.paired hb).2 hp] at hc
        cases hc
    obtain ⟨⟨sock, hsock⟩, cl, hcl, hroute⟩ := hinv.burned m hm b c k hb hc hk
    exact ⟨k, sock, cl, hk, hsock, hcl, hroute⟩
  obtain ⟨cl, hcl, -⟩ := hinv.sunk hs
  refine ⟨?_, ?_⟩
  · intro m b k hm hb hx hc hk
    obtain ⟨-, cl', hcl', hroute⟩ := hinv.burned m hm b c k hb hc hk
    rw [hcl] at hcl'
    cases hcl'
    have hkey : k ∈ cl.peers.keys := (OrderedMap.mem_keys _ _).2 ⟨m, hroute⟩
    refine ⟨?_, ?_⟩
    · simp only [step, Pairing.step, hs, Pairing.claimGone, hcl, Pairing.forgetClaim]
      exact Pairing.failPeers_gone hinv.wf cl.peers.keys hcl hroute hkey
    · rw [handedTo_close hs hcl]
      exact Pairing.failPeers_hands cl.peers.keys hinv.wf hcl hroute hm hb hx hkey
  · rintro m ⟨x, hx, e, he, hconc⟩
    obtain ⟨before, a, after, hes, rfl⟩ := ((machine cfg).mem_trace es x).1 hx
    have ha : a = .pairing e := he
    subst ha
    have hconc' : Pairing.Concludes ((machine cfg).run before).now
        ((machine cfg).run before).pairing e m := hconc
    obtain ⟨⟨b, hb⟩, hgone⟩ := hconc'.gone (run_pairing_inv hr before)
    have hstep : ((machine cfg).run (before ++ [.pairing e])).pairing =
        (((machine cfg).run before).pairing.step cfg.pairing ((machine cfg).run before).now e).1 := by
      rw [Machine.run_snoc]
      rfl
    have hgrow := run_pairing_grows hr before [.pairing e]
    obtain ⟨b', hb', -⟩ := hgrow.box hb
    have hlater := run_pairing_grows hr (before ++ [.pairing e]) after
    rw [← run_append, ← hes] at hlater
    rw [handedTo_close hs hcl]
    refine Pairing.failPeers_stored _ hinv.wf fun hm => hgone ?_
    rw [← hstep]
    exact hlater.kept hb' hm

theorem burned_code_told_joined :
    ∃ b, ((machine sample).run joined).pairing.store.boxes.get "i" = some b ∧
      b.claimedBy = some "ii" ∧
      handedTo "i" (step sample ((machine sample).run joined) (.pairing (.close 1))).2 =
        if b.sink = none ∧ maxPending ≤ b.pending.length then []
        else [.handed (.mailbox "i") b.sink (.failed (some "iii") .confirmationFailed)] := by
  have hs : ((machine sample).run joined).pairing.sockets.get 1 = some (.claimant "ii") := by
    decide +kernel
  have hbox : (((machine sample).run joined).pairing.store.boxes.get "i").map
      (fun b => (b.expiresAt, b.claimedBy, b.peer)) = some (180000, some "ii", some "iii") := by
    decide +kernel
  obtain ⟨b, hb, he⟩ := Option.map_eq_some_iff.1 hbox
  obtain ⟨hexp, hc, hk⟩ : b.expiresAt = 180000 ∧ b.claimedBy = some "ii" ∧ b.peer = some "iii" := by
    simpa using he
  have hx : ((machine sample).run joined).now < b.expiresAt := by
    rw [hexp]
    decide +kernel
  exact ⟨b, hb, hc, (((burned_code_told sample numbered_injective joined).2 1 "ii" hs).1 "i" b "iii"
    (by decide +kernel) hb hx hc hk).2⟩

/-- Nobody is attached to the mailbox, and the claimant fills its buffer. -/
def flooded : List BrokerEvent :=
  [.pairing (.pairNew "a" ⟨some 2, none⟩ (fun _ _ => "492") 0),
    .pairing (.pairClaim "b" ⟨some 2, some ⟨"492", "s", "a", "d"⟩⟩),
    .pairing (.attachClaim "ii")] ++
  List.replicate 15 (.pairing (.message 0 (some (.toPeer "iii" (.confirm "t")))))

theorem burned_code_silent_flooded : ¬ ∀ (es : List BrokerEvent) (sock : Nat) (c m : String) (b : Mailbox),
      ((machine sample).run es).pairing.sockets.get sock = some (.claimant c) →
      m ∈ ((machine sample).run es).pairing.store.mailboxes →
      ((machine sample).run es).pairing.store.boxes.get m = some b →
      ((machine sample).run es).now < b.expiresAt → b.claimedBy = some c →
      (handedTo m (step sample ((machine sample).run es) (.pairing (.close sock))).2).length = 1 := by
  intro h
  have hbox : (((machine sample).run flooded).pairing.store.boxes.get "i").map
      (fun b => (b.expiresAt, b.claimedBy)) = some (180000, some "ii") := by decide +kernel
  obtain ⟨b, hb, he⟩ := Option.map_eq_some_iff.1 hbox
  have hx : ((machine sample).run flooded).now < b.expiresAt := by
    rw [(Prod.mk.inj he).1]
    decide +kernel
  have hone := h flooded 0 "ii" "i" b (by decide +kernel) (by decide +kernel) hb hx
    (Prod.mk.inj he).2
  have hnone : handedTo "i" (step sample ((machine sample).run flooded)
      (.pairing (.close 0))).2 = [] := by decide +kernel
  rw [hnone] at hone
  cases hone

end System
end Mtmux.Broker
