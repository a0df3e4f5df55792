import Mtmux.Broker.MailboxStore

/-! What the operations of the mailbox store can do. Most operations are quiet:
they move sinks, buffers and deadlines and only ever remove ids. The few that
are not create an object, bind a mailbox to a claim, or drop a route. -/
namespace Mtmux.Broker
open Protocol OrderedMap

/-- The part of a mailbox that no quiet operation touches. -/
def Mailbox.core (box : Mailbox) : String × String × Nat × Option String × Option String :=
  (box.id, box.slot, box.expiresAt, box.claimedBy, box.peer)

def Claim.core (claim : Claim) : String × Option Nat × OrderedMap String String :=
  (claim.id, claim.sink, claim.peers)

structure MailboxStore.Quiet (st st' : MailboxStore) : Prop where
  box : ∀ m, (st'.boxes.get m).map Mailbox.core = (st.boxes.get m).map Mailbox.core
  claim : ∀ c, (st'.claimObjs.get c).map Claim.core = (st.claimObjs.get c).map Claim.core
  kept : ∀ m ∈ st'.mailboxes, m ∈ st.mailboxes

namespace MailboxStore
variable {st st' st'' : MailboxStore}

theorem Quiet.refl (st : MailboxStore) : Quiet st st := ⟨fun _ => rfl, fun _ => rfl, fun _ h => h⟩

theorem Quiet.trans (h : Quiet st st') (h' : Quiet st' st'') : Quiet st st'' :=
  ⟨fun m => (h'.box m).trans (h.box m), fun c => (h'.claim c).trans (h.claim c),
    fun m hm => h.kept m (h'.kept m hm)⟩

variable {m : String}

theorem Quiet.box_back (h : Quiet st st') {b' : Mailbox}
    (hb : st'.boxes.get m = some b') : ∃ b, st.boxes.get m = some b ∧ b.core = b'.core :=
  exists_of_map_eq (h.box m).symm hb

variable {b : Mailbox}

theorem Quiet.box_forth (h : Quiet st st')
    (hb : st.boxes.get m = some b) : ∃ b', st'.boxes.get m = some b' ∧ b'.core = b.core :=
  exists_of_map_eq (h.box m) hb

variable {c : String}

theorem Quiet.claim_back (h : Quiet st st') {cl' : Claim}
    (hc : st'.claimObjs.get c = some cl') : ∃ cl, st.claimObjs.get c = some cl ∧ cl.core = cl'.core :=
  exists_of_map_eq (h.claim c).symm hc

theorem Quiet.claim_forth (h : Quiet st st') {cl : Claim}
    (hc : st.claimObjs.get c = some cl) : ∃ cl', st'.claimObjs.get c = some cl' ∧ cl'.core = cl.core :=
  exists_of_map_eq (h.claim c) hc

theorem removeMailbox_boxes (st : MailboxStore) (id : String) : (st.removeMailbox id).boxes = st.boxes := by
  unfold removeMailbox
  split <;> rfl

theorem removeMailbox_claimObjs (st : MailboxStore) (id : String) : (st.removeMailbox id).claimObjs = st.claimObjs := by
  unfold removeMailbox
  split <;> rfl

theorem removeMailbox_kept (st : MailboxStore) (id m : String)
    (h : m ∈ (st.removeMailbox id).mailboxes) : m ∈ st.mailboxes := by
  unfold removeMailbox at h
  split at h
  · exact h
  · exact (List.mem_filter.1 h).1

theorem removeMailbox_gone (st : MailboxStore) (id : String)
    (hb : st.boxes.get id = some b) : id ∉ (st.removeMailbox id).mailboxes := by
  unfold removeMailbox
  split
  · next h =>
    intro hm
    rw [stored, if_pos hm, hb] at h
    cases h
  · simp

theorem removeMailbox_quiet (st : MailboxStore) (id : String) : Quiet st (st.removeMailbox id) :=
  ⟨fun m => by rw [removeMailbox_boxes], fun c => by rw [removeMailbox_claimObjs],
    removeMailbox_kept st id⟩

theorem scanSlot_quiet (now : Nat) (ids : List String) (st : MailboxStore) : Quiet st (st.scanSlot now ids).1 := by
  induction ids generalizing st with
  | nil => exact Quiet.refl st
  | cons id ids ih =>
    unfold scanSlot
    split
    · exact (removeMailbox_quiet st id).trans (ih _)
    · split
      · exact (removeMailbox_quiet st id).trans (ih _)
      · exact ih st

theorem getMailbox_quiet (st : MailboxStore) (id : String) (now : Nat) : Quiet st (st.getMailbox id now).1 := by
  unfold getMailbox
  split
  · exact Quiet.refl st
  · split
    · exact removeMailbox_quiet st id
    · exact Quiet.refl st

theorem destroyClaim_quiet (st : MailboxStore) (id : String) : Quiet st (st.destroyClaim id) :=
  ⟨fun _ => rfl, fun _ => rfl, fun _ h => h⟩

theorem getClaim_quiet (st : MailboxStore) (id : String) (now : Nat) : Quiet st (st.getClaim id now).1 := by
  unfold getClaim
  split
  · exact Quiet.refl st
  · split
    · exact destroyClaim_quiet st id
    · exact Quiet.refl st

theorem updateBox_quiet (st : MailboxStore) (id : String) (f : Mailbox → Mailbox)
    (h : ∀ box, st.boxes.get id = some box → (f box).core = box.core) : Quiet st (st.updateBox id f) := by
  refine ⟨fun m => ?_, fun _ => rfl, fun _ h => h⟩
  simp only [updateBox, get_modify]
  split
  · next he =>
    subst he
    cases hb : st.boxes.get m with
    | none => rfl
    | some box => simp [h box hb]
  · rfl

theorem updateClaim_quiet (st : MailboxStore) (id : String) (f : Claim → Claim)
    (h : ∀ claim, st.claimObjs.get id = some claim → (f claim).core = claim.core) : Quiet st (st.updateClaim id f) := by
  refine ⟨fun _ => rfl, fun c => ?_, fun _ h => h⟩
  simp only [updateClaim, get_modify]
  split
  · next he =>
    subst he
    cases hc : st.claimObjs.get c with
    | none => rfl
    | some claim => simp [h claim hc]
  · rfl

theorem extendClaim_quiet (st : MailboxStore) (id : String) (now : Nat) : Quiet st (st.extendClaim id now) :=
  updateClaim_quiet st id _ fun _ _ => rfl

theorem deliver_quiet (st : MailboxStore) (target : Target) (message : PairingServerMessage) :
    Quiet st (st.deliver target message).1 := by
  unfold deliver
  split
  · exact Quiet.refl st
  · exact Quiet.refl st
  · next pending h =>
    split
    · cases target with
      | mailbox id => exact updateBox_quiet st id _ fun _ _ => rfl
      | claim id =>
        refine updateClaim_quiet st id _ fun claim hc => ?_
        simp only [inbox, hc, Option.map_some, Option.some.injEq, Prod.mk.injEq] at h
        simp [Claim.core, h.1]
    · exact Quiet.refl st

theorem attach_mailbox_quiet (st : MailboxStore) (id : String) (sock : Nat) :
    Quiet st (st.attach (.mailbox id) sock).1 := by
  unfold attach
  split
  · exact Quiet.refl st
  · exact updateBox_quiet st id _ fun _ _ => rfl

theorem foldl_removeMailbox_quiet (ids : List String) (st : MailboxStore) : Quiet st (ids.foldl removeMailbox st) := by
  induction ids generalizing st with
  | nil => exact Quiet.refl st
  | cons id ids ih => exact (removeMailbox_quiet st id).trans (ih _)

theorem sweep_quiet (st : MailboxStore) (now : Nat) : Quiet st (st.sweep now) :=
  (foldl_removeMailbox_quiet _ st).trans ⟨fun _ => rfl, fun _ => rfl, fun _ h => h⟩

variable {rnd : Nat → String} {n n' : Nat}

/-- Every object sits under its own id, every id was drawn, a mailbox has a
claim exactly when it has a peer handle, the claim is one whose socket attached,
and a claim routes a handle only to the mailbox it burned under it. -/
structure Wf (rnd : Nat → String) (n : Nat) (st : MailboxStore) : Prop where
  boxId : ∀ {m b}, st.boxes.get m = some b → b.id = m
  boxOld : ∀ {m b}, st.boxes.get m = some b → ∃ k < n, m = rnd k
  claimId : ∀ {c cl}, st.claimObjs.get c = some cl → cl.id = c
  claimOld : ∀ {c cl}, st.claimObjs.get c = some cl → ∃ k < n, c = rnd k
  peerOld : ∀ {m b h}, st.boxes.get m = some b → b.peer = some h → ∃ k < n, h = rnd k
  paired : ∀ {m b}, st.boxes.get m = some b → (b.claimedBy = none ↔ b.peer = none)
  routed : ∀ {c cl h m}, st.claimObjs.get c = some cl → cl.peers.get h = some m →
    ∃ b, st.boxes.get m = some b ∧ b.claimedBy = some c ∧ b.peer = some h
  attached : ∀ {m b c}, st.boxes.get m = some b → b.claimedBy = some c →
    ∃ cl, st.claimObjs.get c = some cl ∧ cl.sink ≠ none
  listed : ∀ {m}, m ∈ st.mailboxes → ∃ b, st.boxes.get m = some b

theorem core_eq {b' : Mailbox} (h : b.core = b'.core) : b.id = b'.id ∧ b.slot = b'.slot ∧ b.expiresAt = b'.expiresAt ∧
      b.claimedBy = b'.claimedBy ∧ b.peer = b'.peer := by
  simpa [Mailbox.core] using h

theorem claim_core_eq {cl cl' : Claim} (h : cl.core = cl'.core) :
    cl.id = cl'.id ∧ cl.sink = cl'.sink ∧ cl.peers = cl'.peers := by
  simpa [Claim.core] using h

theorem Wf.quiet (h : Wf rnd n st) (q : Quiet st st') : Wf rnd n st' where
  boxId hb := by
    obtain ⟨b, hb', hc⟩ := q.box_back hb
    rw [← (core_eq hc).1, h.boxId hb']
  boxOld hb := by
    obtain ⟨b, hb', -⟩ := q.box_back hb
    exact h.boxOld hb'
  claimId hc := by
    obtain ⟨cl, hc', he⟩ := q.claim_back hc
    rw [← (claim_core_eq he).1, h.claimId hc']
  claimOld hc := by
    obtain ⟨cl, hc', -⟩ := q.claim_back hc
    exact h.claimOld hc'
  peerOld hb hp := by
    obtain ⟨b, hb', hc⟩ := q.box_back hb
    exact h.peerOld hb' ((core_eq hc).2.2.2.2.trans hp)
  paired hb := by
    obtain ⟨b, hb', hc⟩ := q.box_back hb
    rw [← (core_eq hc).2.2.2.1, ← (core_eq hc).2.2.2.2]
    exact h.paired hb'
  routed hc hm := by
    obtain ⟨cl, hc', he⟩ := q.claim_back hc
    rw [← (claim_core_eq he).2.2] at hm
    obtain ⟨b, hb, hcl, hp⟩ := h.routed hc' hm
    obtain ⟨b', hb', he'⟩ := q.box_forth hb
    exact ⟨b', hb', (core_eq he').2.2.2.1.trans hcl, (core_eq he').2.2.2.2.trans hp⟩
  attached hb hc := by
    obtain ⟨b, hb', he⟩ := q.box_back hb
    obtain ⟨cl, hcl, hs⟩ := h.attached hb' ((core_eq he).2.2.2.1.trans hc)
    obtain ⟨cl', hcl', he'⟩ := q.claim_forth hcl
    exact ⟨cl', hcl', (claim_core_eq he').2.1 ▸ hs⟩
  listed hm := by
    obtain ⟨b, hb⟩ := h.listed (q.kept _ hm)
    obtain ⟨b', hb', -⟩ := q.box_forth hb
    exact ⟨b', hb'⟩

theorem Wf.mono (h : Wf rnd n st) (hn : n ≤ n') : Wf rnd n' st :=
  { h with
    boxOld := fun hb => let ⟨k, hk, he⟩ := h.boxOld hb; ⟨k, by omega, he⟩
    claimOld := fun hc => let ⟨k, hk, he⟩ := h.claimOld hc; ⟨k, by omega, he⟩
    peerOld := fun hb hp => let ⟨k, hk, he⟩ := h.peerOld hb hp; ⟨k, by omega, he⟩ }

theorem Wf.fresh_box (h : Wf rnd n st) (hr : Function.Injective rnd) : st.boxes.get (rnd n) = none := by
  cases hb : st.boxes.get (rnd n) with
  | none => rfl
  | some b =>
    obtain ⟨k, hk, he⟩ := h.boxOld hb
    have := hr he
    omega

theorem Wf.fresh_claim (h : Wf rnd n st) (hr : Function.Injective rnd) : st.claimObjs.get (rnd n) = none := by
  cases hc : st.claimObjs.get (rnd n) with
  | none => rfl
  | some cl =>
    obtain ⟨k, hk, he⟩ := h.claimOld hc
    have := hr he
    omega

/-- The store with one more, unclaimed mailbox. -/
theorem Wf.addBox (h : Wf rnd n st) (hr : Function.Injective rnd) (box : Mailbox)
    (hid : box.id = rnd n) (hc : box.claimedBy = none) (hp : box.peer = none)
    (hb : st'.boxes = st.boxes.set (rnd n) box) (hcl : st'.claimObjs = st.claimObjs)
    (hm : ∀ m ∈ st'.mailboxes, m ∈ st.mailboxes ∨ m = rnd n) : Wf rnd (n + 1) st' := by
  have h' := h.mono (Nat.le_succ n)
  have hget : ∀ m, st'.boxes.get m = if m = rnd n then some box else st.boxes.get m := by
    intro m; rw [hb, get_set]
  constructor
  case boxId =>
    intro m b hb
    rw [hget] at hb
    split at hb
    · next he => cases hb; rw [hid, he]
    · exact h'.boxId hb
  case boxOld =>
    intro m b hb
    rw [hget] at hb
    split at hb
    · next he => exact ⟨n, Nat.lt_succ_self n, he⟩
    · exact h'.boxOld hb
  case claimId => rw [hcl]; exact h'.claimId
  case claimOld => rw [hcl]; exact h'.claimOld
  case peerOld =>
    intro m b k hb hk
    rw [hget] at hb
    split at hb
    · cases hb; rw [hp] at hk; cases hk
    · exact h'.peerOld hb hk
  case paired =>
    intro m b hb
    rw [hget] at hb
    split at hb
    · cases hb; rw [hc, hp]
    · exact h'.paired hb
  case routed =>
    intro c cl k m hc hk
    rw [hcl] at hc
    obtain ⟨b, hb, hbc⟩ := h'.routed hc hk
    refine ⟨b, ?_, hbc⟩
    rw [hget, if_neg, hb]
    rintro rfl
    rw [h.fresh_box hr] at hb
    cases hb
  case attached =>
    intro m b c hb hbc
    rw [hcl]
    rw [hget] at hb
    split at hb
    · cases hb; rw [hc] at hbc; cases hbc
    · exact h'.attached hb hbc
  case listed =>
    intro m hmem
    rw [hget]
    split
    · exact ⟨box, rfl⟩
    · next hne =>
      rcases hm m hmem with hm | hm
      · exact h'.listed hm
      · exact absurd hm hne

variable {id : String} {now : Nat}

theorem createMailbox_none {st st' : MailboxStore} {slot : String}
    (h : st.createMailbox id slot now = (st', none)) : Quiet st st' := by
  have hq := scanSlot_quiet now ((st.bySlot.get slot).getD []) st
  simp only [createMailbox] at h
  split at h
  · cases h; exact hq
  · split at h
    · cases h; exact hq
    · cases h

variable {box : Mailbox}

theorem createMailbox_some {st st' : MailboxStore} {slot : String}
    (h : st.createMailbox id slot now = (st', some box)) :
    ∃ mid, Quiet st mid ∧ box = ⟨id, slot, now, now + mid.ttlMs, none, none, none, []⟩ ∧
      st'.boxes = mid.boxes.set id box ∧ st'.claimObjs = mid.claimObjs ∧ st'.mailboxes = mid.mailboxes ++ [id] := by
  have hq := scanSlot_quiet now ((st.bySlot.get slot).getD []) st
  simp only [createMailbox] at h
  split at h
  · cases h
  · split at h
    · cases h
    · cases h
      exact ⟨_, hq, rfl, rfl, rfl, rfl⟩

theorem Wf.createClaim (h : Wf rnd n st) (hr : Function.Injective rnd) (slot : String) (now : Nat) :
    Wf rnd (n + 1) (st.createClaim (rnd n) slot now).1 := by
  have h' := h.mono (Nat.le_succ n)
  have hold : ∀ {m b c}, st.boxes.get m = some b → b.claimedBy = some c →
      ∃ cl, (st.createClaim (rnd n) slot now).1.claimObjs.get c = some cl ∧ cl.sink ≠ none := by
    intro m b c hb hc
    obtain ⟨cl, hcl, hs⟩ := h.attached hb hc
    refine ⟨cl, ?_, hs⟩
    simp only [MailboxStore.createClaim, get_set]
    rw [if_neg, hcl]
    rintro rfl
    rw [h.fresh_claim hr] at hcl
    cases hcl
  refine { h' with claimId := ?_, claimOld := ?_, routed := ?_, attached := hold } <;>
    intro c cl <;> simp only [MailboxStore.createClaim, get_set]
  · intro hc
    split at hc
    · next he => cases hc; exact he.symm
    · exact h'.claimId hc
  · intro hc
    split at hc
    · next he => exact ⟨n, Nat.lt_succ_self n, he⟩
    · exact h'.claimOld hc
  · intro k m hc hk
    split at hc
    · cases hc; cases hk
    · exact h'.routed hc hk

theorem Wf.updateClaim (h : Wf rnd n st) (c : String) (f : Claim → Claim)
    (hid : ∀ cl, (f cl).id = cl.id) (hs : ∀ cl, cl.sink ≠ none → (f cl).sink ≠ none)
    (hp : ∀ cl k m, st.claimObjs.get c = some cl → (f cl).peers.get k = some m →
      cl.peers.get k = some m ∨ ∃ b, st.boxes.get m = some b ∧ b.claimedBy = some c ∧ b.peer = some k) :
    Wf rnd n (st.updateClaim c f) := by
  have hold : ∀ {m b a}, st.boxes.get m = some b → b.claimedBy = some a →
      ∃ cl, (st.updateClaim c f).claimObjs.get a = some cl ∧ cl.sink ≠ none := by
    intro m b a hb ha
    obtain ⟨cl, hcl, hne⟩ := h.attached hb ha
    simp only [MailboxStore.updateClaim, get_modify]
    split
    · exact ⟨f cl, by rw [hcl, Option.map_some], hs cl hne⟩
    · exact ⟨cl, hcl, hne⟩
  refine { h with claimId := ?_, claimOld := ?_, routed := ?_, attached := hold } <;>
    intro a cl <;> simp only [MailboxStore.updateClaim, get_modify]
  · intro hc
    split at hc
    · obtain ⟨cl', hc', rfl⟩ := Option.map_eq_some_iff.1 hc
      rw [hid]; exact h.claimId hc'
    · exact h.claimId hc
  · intro hc
    split at hc
    · obtain ⟨cl', hc', -⟩ := Option.map_eq_some_iff.1 hc
      exact h.claimOld hc'
    · exact h.claimOld hc
  · intro k m hc hk
    split at hc
    · next he =>
      subst he
      obtain ⟨cl', hc', rfl⟩ := Option.map_eq_some_iff.1 hc
      rcases hp cl' k m hc' hk with hk | hb
      · exact h.routed hc' hk
      · exact hb
    · exact h.routed hc hk

theorem claimMailbox_false {k : String} (h : st.claimMailbox m c k = (st', false)) : st' = st := by
  simp only [claimMailbox] at h
  split at h
  · cases h; rfl
  · split at h <;> cases h
    rfl

/-- Mailbox `m`, holding `b`, burned by claim `c` under handle `k`. -/
def claimBox (st : MailboxStore) (m : String) (b : Mailbox) (c k : String) : MailboxStore :=
  { st with boxes := st.boxes.set m { b with claimedBy := some c, peer := some k } }

theorem claimMailbox_true {k : String} (h : st.claimMailbox m c k = (st', true)) :
    ∃ b, st.boxes.get m = some b ∧ b.claimedBy = none ∧ st' = st.claimBox m b c k := by
  simp only [claimMailbox] at h
  split at h
  · cases h
  · next b hb =>
    split at h
    · cases h
    · next hn => cases h; exact ⟨b, hb, not_not.1 hn, rfl⟩

/-- The guess spent: the mailbox is burned, and the claim routes the handle to it. -/
def bindBox (st : MailboxStore) (m : String) (b : Mailbox) (c k : String) : MailboxStore :=
  (st.claimBox m b c k).updateClaim c fun claim => { claim with peers := claim.peers.set k m }

theorem Wf.bindBox (h : Wf rnd n st) (hb : st.boxes.get m = some b)
    (hc : b.claimedBy = none) (hex : ∃ cl, st.claimObjs.get c = some cl ∧ cl.sink ≠ none) :
    Wf rnd (n + 1) (st.bindBox m b c (rnd n)) := by
  have h' := h.mono (Nat.le_succ n)
  have hw : Wf rnd (n + 1) (st.claimBox m b c (rnd n)) := by
    constructor <;> simp only [claimBox, get_set]
    case boxId =>
      intro a b' hb'
      split at hb'
      · next he => cases hb'; exact (h'.boxId hb).trans he.symm
      · exact h'.boxId hb'
    case boxOld =>
      intro a b' hb'
      split at hb'
      · next he => rw [he]; exact h'.boxOld hb
      · exact h'.boxOld hb'
    case claimId => exact h'.claimId
    case claimOld => exact h'.claimOld
    case peerOld =>
      intro a b' k hb' hk
      split at hb'
      · cases hb'; cases hk; exact ⟨n, Nat.lt_succ_self n, rfl⟩
      · exact h'.peerOld hb' hk
    case paired =>
      intro a b' hb'
      split at hb'
      · cases hb'; simp
      · exact h'.paired hb'
    case routed =>
      intro a cl k m' hcl hk
      obtain ⟨b', hb', hbc, hbp⟩ := h'.routed hcl hk
      have hne : m' ≠ m := by
        rintro rfl
        rw [hb] at hb'
        cases hb'
        rw [hc] at hbc
        cases hbc
      exact ⟨b', by rw [if_neg hne, hb'], hbc, hbp⟩
    case attached =>
      intro a b' c' hb' hc'
      split at hb'
      · cases hb'; cases hc'; exact hex
      · exact h'.attached hb' hc'
    case listed =>
      intro a ha
      split
      · exact ⟨_, rfl⟩
      · exact h'.listed ha
  refine hw.updateClaim c _ (fun _ => rfl) (fun _ h => h) ?_
  intro cl k m' hcl hk
  rw [get_set] at hk
  split at hk
  · next he =>
    cases hk
    exact Or.inr ⟨{ b with claimedBy := some c, peer := some (rnd n) },
      by simp [claimBox], rfl, by rw [he]⟩
  · exact Or.inl hk

def Burned (st : MailboxStore) (live : String → Prop) : Prop :=
  ∀ m ∈ st.mailboxes, ∀ b c k, st.boxes.get m = some b → b.claimedBy = some c → b.peer = some k →
    live c ∧ ∃ cl, st.claimObjs.get c = some cl ∧ cl.peers.get k = some m

variable {live live' : String → Prop}

section
variable (h : Burned st live)
include h

theorem Burned.quiet (q : Quiet st st') : Burned st' live := by
  intro m hm b c k hb hc hk
  obtain ⟨b', hb', he⟩ := q.box_back hb
  obtain ⟨-, -, -, hec, hep⟩ := core_eq he
  obtain ⟨hl, cl, hcl, hr⟩ := h m (q.kept m hm) b' c k hb' (hec.trans hc) (hep.trans hk)
  obtain ⟨cl', hcl', he'⟩ := q.claim_forth hcl
  exact ⟨hl, cl', hcl', by rw [(claim_core_eq he').2.2, hr]⟩

theorem Burned.mono (hl : ∀ c, live c → live' c) : Burned st live' := by
  intro m hm b c k hb hc hk
  obtain ⟨hc', hr⟩ := h m hm b c k hb hc hk
  exact ⟨hl c hc', hr⟩

theorem Burned.addBox (hn : box.claimedBy = none) (hb : st'.boxes = st.boxes.set id box)
    (hcl : st'.claimObjs = st.claimObjs) (hm : ∀ m ∈ st'.mailboxes, m ∈ st.mailboxes ∨ m = id) : Burned st' live := by
  intro m hmem b c k hb' hc hk
  rw [hb, get_set] at hb'
  split at hb'
  · cases hb'; rw [hn] at hc; cases hc
  · next hne =>
    rw [hcl]
    exact h m ((hm m hmem).resolve_right hne) b c k hb' hc hk

theorem Burned.createClaim (hw : Wf rnd n st) (hr : Function.Injective rnd)
    (slot : String) (now : Nat) : Burned (st.createClaim (rnd n) slot now).1 live := by
  intro m hm b c k hb hc hk
  obtain ⟨hl, cl, hcl, hp⟩ := h m hm b c k hb hc hk
  refine ⟨hl, cl, ?_, hp⟩
  simp only [MailboxStore.createClaim, get_set]
  rw [if_neg, hcl]
  rintro rfl
  rw [hw.fresh_claim hr] at hcl
  cases hcl

theorem Burned.bindBox (hw : Wf rnd n st) (hr : Function.Injective rnd) (hc : live c)
    (hex : ∃ cl, st.claimObjs.get c = some cl) : Burned (st.bindBox m b c (rnd n)) live := by
  obtain ⟨cl₀, hcl₀⟩ := hex
  intro m' hm' b' c' k' hb' hc' hk'
  simp only [MailboxStore.bindBox, MailboxStore.updateClaim, claimBox, get_set] at hb'
  simp only [MailboxStore.bindBox, MailboxStore.updateClaim, claimBox, get_modify]
  split at hb'
  · next he =>
    cases hb'; cases hc'; cases hk'
    refine ⟨hc, { cl₀ with peers := cl₀.peers.set (rnd n) m }, by simp [hcl₀], ?_⟩
    rw [get_set, if_pos rfl, he]
  · obtain ⟨hl, cl, hcl, hp⟩ := h m' hm' b' c' k' hb' hc' hk'
    refine ⟨hl, ?_⟩
    by_cases he : c' = c
    · refine ⟨{ cl with peers := cl.peers.set (rnd n) m }, by simp [he ▸ hcl, he], ?_⟩
      rw [get_set, if_neg, hp]
      rintro rfl
      obtain ⟨i, hi, hri⟩ := hw.peerOld hb' hk'
      have := hr hri
      omega
    · exact ⟨cl, by simp [he, hcl], hp⟩

theorem Burned.updateClaim (c : String) (f : Claim → Claim)
    (hp : ∀ cl k m, st.claimObjs.get c = some cl → cl.peers.get k = some m → m ∈ st.mailboxes →
      (f cl).peers.get k = some m) : Burned (st.updateClaim c f) live := by
  intro m hm b a k hb ha hk
  obtain ⟨hl, cl, hcl, hr⟩ := h m hm b a k hb ha hk
  refine ⟨hl, ?_⟩
  simp only [MailboxStore.updateClaim, get_modify]
  split
  · next he =>
    subst he
    exact ⟨f cl, by simp [hcl], hp cl k m hcl hr hm⟩
  · exact ⟨cl, hcl, hr⟩

end

theorem getMailbox_some (h : st.getMailbox m now = (st', some b)) :
    st' = st ∧ m ∈ st.mailboxes ∧ st.boxes.get m = some b ∧ now < b.expiresAt := by
  simp only [getMailbox] at h
  split at h
  · cases h
  · next box hs =>
    split at h
    · cases h
    · next he =>
      cases h
      simp only [stored] at hs
      split at hs
      · next hm => exact ⟨rfl, hm, hs, by simpa [expired] using he⟩
      · cases hs

theorem getMailbox_none (hw : Wf rnd n st) (h : st.getMailbox m now = (st', none)) : m ∉ st'.mailboxes := by
  simp only [getMailbox] at h
  split at h
  · next hs =>
    cases h
    intro hm
    obtain ⟨b, hb⟩ := hw.listed hm
    rw [stored, if_pos hm, hb] at hs
    cases hs
  · next box hs =>
    split at h
    · cases h
      simp only [stored] at hs
      split at hs
      · exact removeMailbox_gone st m hs
      · cases hs
    · cases h

theorem getClaim_some {cl : Claim} (h : st.getClaim c now = (st', some cl)) :
    st' = st ∧ c ∈ st.claims ∧ st.claimObjs.get c = some cl ∧ now < cl.expiresAt := by
  simp only [getClaim] at h
  split at h
  · cases h
  · next claim hs =>
    split at h
    · cases h
    · next he =>
      cases h
      simp only [storedClaim] at hs
      split at hs
      · next hm => exact ⟨rfl, hm, hs, by simpa [expired] using he⟩
      · cases hs

/-- Objects persist, a mailbox's claim and a claim's sink are written once, and an
id taken off the list never comes back. -/
structure Grows (st st' : MailboxStore) : Prop where
  box : ∀ {m b}, st.boxes.get m = some b → ∃ b', st'.boxes.get m = some b' ∧
    b'.expiresAt = b.expiresAt ∧
    (b.claimedBy ≠ none → b'.claimedBy = b.claimedBy ∧ b'.peer = b.peer)
  claim : ∀ {c cl}, st.claimObjs.get c = some cl → ∃ cl', st'.claimObjs.get c = some cl' ∧
    (cl.sink ≠ none → cl'.sink = cl.sink)
  kept : ∀ {m b}, st.boxes.get m = some b → m ∈ st'.mailboxes → m ∈ st.mailboxes

theorem Grows.trans (h : Grows st st') (h' : Grows st' st'') : Grows st st'' where
  box hb := by
    obtain ⟨b', hb', he, hc⟩ := h.box hb
    obtain ⟨b'', hb'', he', hc'⟩ := h'.box hb'
    refine ⟨b'', hb'', he'.trans he, fun hn => ?_⟩
    obtain ⟨h1, h2⟩ := hc hn
    obtain ⟨h3, h4⟩ := hc' (h1 ▸ hn)
    exact ⟨h3.trans h1, h4.trans h2⟩
  claim hcl := by
    obtain ⟨cl', hcl', hs⟩ := h.claim hcl
    obtain ⟨cl'', hcl'', hs'⟩ := h'.claim hcl'
    refine ⟨cl'', hcl'', fun hn => ?_⟩
    have h1 := hs hn
    exact (hs' (h1 ▸ hn)).trans h1
  kept hb hm := by
    obtain ⟨b', hb', -⟩ := h.box hb
    exact h.kept hb (h'.kept hb' hm)

theorem Quiet.grows (q : Quiet st st') : Grows st st' where
  box hb := by
    obtain ⟨b', hb', he⟩ := q.box_forth hb
    obtain ⟨-, -, hx, hc, hp⟩ := core_eq he
    exact ⟨b', hb', hx, fun _ => ⟨hc, hp⟩⟩
  claim hcl := by
    obtain ⟨cl', hcl', he⟩ := q.claim_forth hcl
    exact ⟨cl', hcl', fun _ => (claim_core_eq he).2.1⟩
  kept _ := q.kept _

theorem Grows.addBox (hf : st.boxes.get id = none)
    (hb : st'.boxes = st.boxes.set id box) (hcl : st'.claimObjs = st.claimObjs)
    (hm : ∀ m ∈ st'.mailboxes, m ∈ st.mailboxes ∨ m = id) : Grows st st' where
  box := by
    intro m b hget
    refine ⟨b, ?_, rfl, fun _ => ⟨rfl, rfl⟩⟩
    rw [hb, get_set, if_neg, hget]
    rintro rfl
    rw [hf] at hget
    cases hget
  claim := by
    intro c cl hc
    exact ⟨cl, by rw [hcl, hc], fun _ => rfl⟩
  kept := by
    intro m b hb' hmem
    refine (hm m hmem).resolve_right ?_
    rintro rfl
    rw [hf] at hb'
    cases hb'

theorem Grows.createClaim (slot : String) (now : Nat) (hf : st.claimObjs.get id = none) :
    Grows st (st.createClaim id slot now).1 where
  box hb := ⟨_, hb, rfl, fun _ => ⟨rfl, rfl⟩⟩
  claim := by
    intro c cl hc
    refine ⟨cl, ?_, fun _ => rfl⟩
    simp only [MailboxStore.createClaim, get_set]
    rw [if_neg, hc]
    rintro rfl
    rw [hf] at hc
    cases hc
  kept _ hm := hm

theorem Grows.updateClaim (c : String) (f : Claim → Claim)
    (h : ∀ cl, st.claimObjs.get c = some cl → cl.sink ≠ none → (f cl).sink = cl.sink) :
    Grows st (st.updateClaim c f) where
  box hb := ⟨_, hb, rfl, fun _ => ⟨rfl, rfl⟩⟩
  claim := by
    intro a cl ha
    simp only [MailboxStore.updateClaim, get_modify]
    split
    · next he =>
      subst he
      exact ⟨f cl, by simp [ha], h cl ha⟩
    · exact ⟨cl, ha, fun _ => rfl⟩
  kept _ hm := hm

theorem Grows.bindBox {k : String} (hb : st.boxes.get m = some b)
    (hn : b.claimedBy = none) : Grows st (st.bindBox m b c k) := by
  have hg : Grows st (st.claimBox m b c k) := by
    refine ⟨?_, fun hc => ⟨_, hc, fun _ => rfl⟩, fun _ hm => hm⟩
    intro a b' ha
    simp only [claimBox, get_set]
    split
    · next he =>
      subst he
      rw [hb] at ha
      cases ha
      exact ⟨_, rfl, rfl, fun h => absurd hn h⟩
    · exact ⟨b', ha, rfl, fun _ => ⟨rfl, rfl⟩⟩
  exact hg.trans (Grows.updateClaim c _ fun _ _ _ => rfl)

end MailboxStore
end Mtmux.Broker
