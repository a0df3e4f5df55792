import Mathlib.Data.List.Induction
import Mtmux.Base.GroupIndex
import Mtmux.Broker.StoreInvariant

/-! The slot index of the mailbox store over any run of the store's operations, and the
caps on a slot and on the store. -/
namespace Mtmux.Broker.MailboxStore
open OrderedMap List

inductive StoreOp where
  | createMailbox (id slot : String) (now : Nat)
  | getMailbox (id : String) (now : Nat)
  | liveMailboxesForSlot (slot : String) (now : Nat)
  | claimMailbox (id claimId peer : String)
  | destroyMailbox (id : String)
  | sweep (now : Nat)

def StoreOp.drawn? : StoreOp → Option String
  | .createMailbox id _ _ => some id
  | _ => none

def drawnBy (ops : List StoreOp) : List String := ops.filterMap StoreOp.drawn?

def perform (st : MailboxStore) : StoreOp → MailboxStore
  | .createMailbox id slot now => (st.createMailbox id slot now).1
  | .getMailbox id now => (st.getMailbox id now).1
  | .liveMailboxesForSlot slot now => (st.liveMailboxesForSlot slot now).1
  | .claimMailbox id claimId peer => (st.claimMailbox id claimId peer).1
  | .destroyMailbox id => st.removeMailbox id
  | .sweep now => st.sweep now

def performAll (ttlMs : Nat) (ops : List StoreOp) : MailboxStore := ops.foldl perform (create ttlMs)

def slotOf (st : MailboxStore) (id : String) : Option String := (st.boxes.get id).map Mailbox.slot

def onSlot (st : MailboxStore) (slot : String) : List String := group st.slotOf st.mailboxes slot

def due (st : MailboxStore) (now : Nat) (id : String) : Bool :=
  (st.boxes.get id).any fun box => expired box.expiresAt now

def unexpired (st : MailboxStore) (slot : String) (now : Nat) : List Mailbox :=
  ((st.onSlot slot).filterMap st.boxes.get).filter fun box => now < box.expiresAt

structure Indexed (st : MailboxStore) : Prop where
  listed : ∀ id ∈ st.mailboxes, ∃ box, st.boxes.get id = some box
  nodup : st.mailboxes.Nodup
  index : Groups st.bySlot st.slotOf st.mailboxes

structure Capped (st : MailboxStore) : Prop where
  slot : ∀ slot, (st.onSlot slot).length ≤ maxMailboxesPerSlot
  store : st.mailboxes.length ≤ maxLiveMailboxes

variable {st st' : MailboxStore}

theorem slotOf_congr (h : st'.boxes = st.boxes) : st'.slotOf = st.slotOf := by
  funext id
  rw [slotOf, slotOf, h]

theorem Capped.shrink (h : st.Capped) (hslot : st'.slotOf = st.slotOf)
    (hsub : st'.mailboxes.Sublist st.mailboxes) : st'.Capped := by
  constructor
  · intro slot
    rw [onSlot, hslot]
    exact Nat.le_trans (hsub.filter _).length_le (h.slot slot)
  · exact Nat.le_trans hsub.length_le h.store

theorem removeMailbox_mailboxes (h : st.Indexed) (id : String) :
    (st.removeMailbox id).mailboxes = st.mailboxes.filter (· ≠ id) := by
  unfold removeMailbox
  split
  · rename_i hnone
    symm
    apply filter_eq_self.2
    intro m hm
    apply decide_eq_true
    rintro rfl
    obtain ⟨box, hbox⟩ := h.listed m hm
    rw [stored, if_pos hm, hbox] at hnone
    cases hnone
  · rfl

variable {id : String} {box : Mailbox}

theorem removeMailbox_bySlot (h : st.stored id = some box) :
    (st.removeMailbox id).bySlot = dropId st.bySlot box.slot id := by
  simp only [removeMailbox, h, dropId]
  cases st.bySlot.get box.slot with
  | none => rfl
  | some ids => simp

theorem stored_some (h : st.stored id = some box) : id ∈ st.mailboxes ∧ st.boxes.get id = some box := by
  unfold stored at h
  split at h
  · rename_i hmem
    exact ⟨hmem, h⟩
  · cases h

theorem Indexed.removeMailbox (h : st.Indexed) (id : String) : (st.removeMailbox id).Indexed := by
  have hslot := slotOf_congr (removeMailbox_boxes st id)
  refine ⟨?_, ?_, ?_⟩
  · intro m hm
    rw [removeMailbox_boxes]
    exact h.listed m (removeMailbox_kept st id m hm)
  · rw [removeMailbox_mailboxes h]
    exact h.nodup.filter _
  · cases hs : st.stored id with
    | none =>
      have hsame : st.removeMailbox id = st := by rw [MailboxStore.removeMailbox, hs]
      rw [hsame]
      exact h.index
    | some box =>
      have hkey : st.slotOf id = some box.slot := by
        rw [slotOf, (stored_some hs).2]
        rfl
      rw [hslot, removeMailbox_mailboxes h, removeMailbox_bySlot hs]
      exact h.index.drop hkey

theorem Capped.removeMailbox (h : st.Capped) (hi : st.Indexed) (id : String) : (st.removeMailbox id).Capped := by
  apply h.shrink (slotOf_congr (removeMailbox_boxes st id))
  rw [removeMailbox_mailboxes hi]
  exact filter_sublist

theorem removeMailbox_ttlMs (st : MailboxStore) (id : String) : (st.removeMailbox id).ttlMs = st.ttlMs := by
  unfold MailboxStore.removeMailbox
  split <;> rfl

/-- The scan of a slot: what has expired is gone, the rest is returned. -/
structure Scanned (st : MailboxStore) (now : Nat) (ids : List String)
    (r : MailboxStore × List Mailbox) : Prop where
  indexed : r.1.Indexed
  boxes : r.1.boxes = st.boxes
  ttlMs : r.1.ttlMs = st.ttlMs
  kept : r.1.mailboxes = st.mailboxes.filter fun id => ¬ (id ∈ ids ∧ st.due now id)
  live : r.2 = (ids.filterMap st.boxes.get).filter fun box => now < box.expiresAt
  count : r.2.length = (ids.filter fun id => ¬ st.due now id).length

variable {now : Nat}

theorem due_of_get (h : st.boxes.get id = some box) : st.due now id = expired box.expiresAt now := by
  rw [due, h]
  rfl

theorem scanSlot_scanned (h : st.Indexed) (now : Nat) (ids : List String) (hids : ids.Nodup)
    (hstored : ∀ id ∈ ids, id ∈ st.mailboxes) : Scanned st now ids (st.scanSlot now ids) := by
  induction ids generalizing st with
  | nil =>
    refine ⟨h, rfl, rfl, ?_, rfl, rfl⟩
    symm
    apply filter_eq_self.2
    intro m _
    simp
  | cons id ids ih =>
    obtain ⟨hnot, hrest⟩ := nodup_cons.1 hids
    have hmem := hstored id (mem_cons_self ..)
    obtain ⟨box, hbox⟩ := h.listed id hmem
    have hs : st.stored id = some box := by rw [stored, if_pos hmem, hbox]
    have hdue : st.due now id = expired box.expiresAt now := due_of_get hbox
    simp only [scanSlot, hs]
    by_cases hexp : expired box.expiresAt now = true
    · -- an expired head is removed, and is on no list after it
      have hpast : ¬ now < box.expiresAt := by simpa [expired] using hexp
      have hboxes := removeMailbox_boxes st id
      have hscan := ih (h.removeMailbox id) hrest fun m hm => by
        rw [removeMailbox_mailboxes h]
        exact mem_filter.2 ⟨hstored m (mem_cons_of_mem _ hm),
          decide_eq_true fun heq => hnot (heq ▸ hm)⟩
      have hdues : ∀ m, (st.removeMailbox id).due now m = st.due now m := by
        intro m
        rw [due, due, hboxes]
      rw [if_pos hexp]
      refine ⟨hscan.indexed, hscan.boxes.trans hboxes, hscan.ttlMs.trans (removeMailbox_ttlMs st id),
        ?_, ?_, ?_⟩
      · rw [hscan.kept, removeMailbox_mailboxes h, filter_filter]
        apply filter_congr
        intro m _
        rw [hdues]
        by_cases hm : m = id
        · simp [hm, hdue, hexp]
        · simp [hm]
      · rw [hscan.live, hboxes, filterMap_cons, hbox]
        simp [hpast]
      · rw [hscan.count]
        simp only [hdues, filter_cons, hdue, hexp]
        rfl
    · have hfuture : now < box.expiresAt := by simpa [expired] using hexp
      have hscan := ih h hrest fun m hm => hstored m (mem_cons_of_mem _ hm)
      rw [if_neg hexp]
      refine { hscan with kept := ?_, live := ?_, count := ?_ }
      · rw [hscan.kept]
        apply filter_congr
        intro m _
        by_cases hm : m = id
        · simp [hm, hdue, hexp]
        · simp [hm]
      · rw [hscan.live, filterMap_cons, hbox]
        simp [hfuture]
      · rw [length_cons, hscan.count]
        simp [hdue, hexp]

theorem scanSlot_slot (h : st.Indexed) (slot : String) (now : Nat) :
    Scanned st now (st.onSlot slot) (st.scanSlot now ((st.bySlot.get slot).getD [])) := by
  rw [h.index.getD]
  exact scanSlot_scanned h now _ (h.nodup.filter _) fun id hid => (mem_group.1 hid).1

variable {r : MailboxStore × List Mailbox}

theorem Scanned.onSlot {slot : String} (h : Scanned st now (st.onSlot slot) r) :
    r.1.onSlot slot = (st.onSlot slot).filter fun id => ¬ st.due now id := by
  rw [MailboxStore.onSlot, slotOf_congr h.boxes, h.kept, group_filter]
  apply filter_congr
  intro id hid
  have hmem : id ∈ st.onSlot slot := hid
  simp [hmem]

theorem Scanned.capped {ids : List String} (h : Scanned st now ids r) (hc : st.Capped) : r.1.Capped := by
  apply hc.shrink (slotOf_congr h.boxes)
  rw [h.kept]
  exact filter_sublist

section
variable (h : st.Indexed)
include h

theorem Indexed.claimMailbox (hc : st.Capped) (id claimId peer : String) :
    (st.claimMailbox id claimId peer).1.Indexed ∧ (st.claimMailbox id claimId peer).1.Capped := by
  unfold MailboxStore.claimMailbox
  split
  · exact ⟨h, hc⟩
  · rename_i box hbox
    split
    · exact ⟨h, hc⟩
    · -- the mailbox stays on its slot
      have hslot : ∀ st' : MailboxStore, st'.boxes = st.boxes.set id
          { box with claimedBy := some claimId, peer := some peer } → st'.slotOf = st.slotOf := by
        intro st' hset
        funext m
        rw [slotOf, slotOf, hset, get_set]
        split
        · rename_i hm
          rw [hm, hbox]
          rfl
        · rfl
      refine ⟨⟨?_, h.nodup, ?_⟩, hc.shrink (hslot _ rfl) (List.Sublist.refl _)⟩
      · intro m hm
        rw [get_set]
        split
        · exact ⟨_, rfl⟩
        · exact h.listed m hm
      · rw [hslot _ rfl]
        exact h.index

theorem Indexed.foldl_removeMailbox (hc : st.Capped) (ids : List String) :
    (ids.foldl MailboxStore.removeMailbox st).Indexed ∧ (ids.foldl MailboxStore.removeMailbox st).Capped := by
  induction ids generalizing st with
  | nil => exact ⟨h, hc⟩
  | cons id ids ih => exact ih (h.removeMailbox id) (hc.removeMailbox h id)

theorem Indexed.sweep (hc : st.Capped) (now : Nat) :
    (st.sweep now).Indexed ∧ (st.sweep now).Capped := by
  unfold MailboxStore.sweep
  generalize st.mailboxes.filter _ = ids
  obtain ⟨hi, hcap⟩ := h.foldl_removeMailbox hc ids
  exact ⟨⟨hi.listed, hi.nodup, hi.index⟩, hcap.shrink rfl (List.Sublist.refl _)⟩

theorem Indexed.getMailbox (hc : st.Capped) (id : String) (now : Nat) :
    (st.getMailbox id now).1.Indexed ∧ (st.getMailbox id now).1.Capped := by
  unfold MailboxStore.getMailbox
  split
  · exact ⟨h, hc⟩
  · split
    · exact ⟨h.removeMailbox id, hc.removeMailbox h id⟩
    · exact ⟨h, hc⟩

theorem createMailbox_none_iff (id slot : String) (now : Nat) :
    (st.createMailbox id slot now).2 = none ↔ maxMailboxesPerSlot ≤ (st.unexpired slot now).length ∨ maxLiveMailboxes ≤
        (st.mailboxes.filter fun m => ¬ (m ∈ st.onSlot slot ∧ st.due now m)).length := by
  have hscan := scanSlot_slot h slot now
  rw [unexpired, ← hscan.live, ← hscan.kept]
  simp only [createMailbox]
  split
  · rename_i hfull
    exact ⟨fun _ => Or.inl hfull, fun _ => rfl⟩
  · rename_i hslot
    split
    · rename_i hfull
      exact ⟨fun _ => Or.inr hfull, fun _ => rfl⟩
    · rename_i hstore
      constructor
      · intro hnone
        cases hnone
      · intro hor
        exact absurd hor (not_or.2 ⟨hslot, hstore⟩)

/-- A new mailbox joins its slot, which had room. -/
theorem Indexed.createMailbox (hc : st.Capped)
    (hnew : st.boxes.get id = none) (slot : String) (now : Nat) :
    (st.createMailbox id slot now).1.Indexed ∧ (st.createMailbox id slot now).1.Capped := by
  have hscan := scanSlot_slot h slot now
  have hcap := hscan.capped hc
  have hon := hscan.onSlot
  simp only [MailboxStore.createMailbox]
  generalize st.scanSlot now ((st.bySlot.get slot).getD []) = r at hscan hcap hon ⊢
  split
  · exact ⟨hscan.indexed, hcap⟩
  · rename_i hslot
    split
    · exact ⟨hscan.indexed, hcap⟩
    · rename_i hstore
      have hi := hscan.indexed
      have habsent : id ∉ r.1.mailboxes := by
        intro hmem
        obtain ⟨box, hbox⟩ := hi.listed id hmem
        rw [hscan.boxes, hnew] at hbox
        cases hbox
      have hroom : (r.1.onSlot slot).length < maxMailboxesPerSlot := by
        rw [hon, ← hscan.count]
        omega
      -- the slot of every other mailbox is what it was
      have hkey : ∀ st' : MailboxStore, st'.boxes = r.1.boxes.set id
          ⟨id, slot, now, now + r.1.ttlMs, none, none, none, []⟩ →
          st'.slotOf id = some slot ∧ ∀ m ∈ r.1.mailboxes, r.1.slotOf m = st'.slotOf m := by
        intro st' hset
        constructor
        · rw [slotOf, hset, get_set, if_pos rfl]
          rfl
        · intro m hm
          have hne : m ≠ id := fun heq => habsent (heq ▸ hm)
          rw [slotOf, slotOf, hset, get_set, if_neg hne]
      refine ⟨⟨?_, ?_, ?_⟩, ?_, ?_⟩
      · intro m hm
        rw [get_set]
        split
        · exact ⟨_, rfl⟩
        · rename_i hne
          cases mem_append.1 hm with
          | inl hold => exact hi.listed m hold
          | inr hlast => exact absurd (mem_singleton.1 hlast) hne
      · apply nodup_append.2
        refine ⟨hi.nodup, nodup_singleton _, ?_⟩
        intro a ha b hb hab
        rw [hab, mem_singleton.1 hb] at ha
        exact habsent ha
      · exact (hi.index.congr (hkey _ rfl).2).add (hkey _ rfl).1
      · intro slot'
        rw [onSlot, group_append, ← group_congr (hkey _ rfl).2, (hkey _ rfl).1,
          length_append]
        have hold := hcap.slot slot'
        by_cases heq : slot' = slot
        · subst heq
          rw [if_pos rfl, length_singleton]
          exact hroom
        · rw [if_neg (fun hsome => heq (Option.some.inj hsome).symm), length_nil]
          exact hold
      · rw [length_append, length_singleton]
        omega

theorem boxes_createMailbox {slot : String} {m : String}
    (hget : (st.createMailbox id slot now).1.boxes.get m = some box) : m = id ∨ ∃ box', st.boxes.get m = some box' := by
  have hscan := scanSlot_slot h slot now
  simp only [createMailbox] at hget
  split at hget
  · exact Or.inr ⟨box, by rwa [hscan.boxes] at hget⟩
  · split at hget
    · exact Or.inr ⟨box, by rwa [hscan.boxes] at hget⟩
    · rw [get_set] at hget
      split at hget
      · rename_i heq
        exact Or.inl heq
      · exact Or.inr ⟨box, by rwa [hscan.boxes] at hget⟩

theorem Indexed.perform (hc : st.Capped) (op : StoreOp)
    (hnew : ∀ id ∈ op.drawn?, st.boxes.get id = none) : (st.perform op).Indexed ∧ (st.perform op).Capped := by
  cases op with
  | createMailbox id slot now => exact h.createMailbox hc (hnew id rfl) slot now
  | getMailbox id now => exact h.getMailbox hc id now
  | liveMailboxesForSlot slot now =>
    have hscan := scanSlot_slot h slot now
    exact ⟨hscan.indexed, hscan.capped hc⟩
  | claimMailbox id claimId peer => exact h.claimMailbox hc id claimId peer
  | destroyMailbox id => exact ⟨h.removeMailbox id, hc.removeMailbox h id⟩
  | sweep now => exact h.sweep hc now

end

theorem boxes_foldl_removeMailbox (st : MailboxStore) (ids : List String) :
    (ids.foldl MailboxStore.removeMailbox st).boxes = st.boxes := by
  induction ids generalizing st with
  | nil => rfl
  | cons id ids ih => exact (ih _).trans (removeMailbox_boxes st id)

theorem boxes_perform (h : st.Indexed) (op : StoreOp) {m : String} (hget : (st.perform op).boxes.get m = some box) :
    m ∈ op.drawn? ∨ ∃ box', st.boxes.get m = some box' := by
  cases op with
  | createMailbox id slot now =>
    cases boxes_createMailbox h hget with
    | inl hid => exact Or.inl (congrArg some hid.symm)
    | inr hold => exact Or.inr hold
  | getMailbox id now =>
    refine Or.inr ⟨box, ?_⟩
    simp only [MailboxStore.perform, MailboxStore.getMailbox] at hget
    split at hget
    · exact hget
    · split at hget
      · rwa [removeMailbox_boxes] at hget
      · exact hget
  | liveMailboxesForSlot slot now =>
    have hscan := scanSlot_slot h slot now
    exact Or.inr ⟨box, by rw [← hscan.boxes]; exact hget⟩
  | claimMailbox id claimId peer =>
    refine Or.inr ?_
    simp only [MailboxStore.perform, MailboxStore.claimMailbox] at hget
    split at hget
    · exact ⟨box, hget⟩
    · rename_i box' hbox'
      split at hget
      · exact ⟨box, hget⟩
      · rw [get_set] at hget
        split at hget
        · rename_i heq
          exact ⟨box', heq ▸ hbox'⟩
        · exact ⟨box, hget⟩
  | destroyMailbox id => exact Or.inr ⟨box, by rw [← removeMailbox_boxes st id]; exact hget⟩
  | sweep now => exact Or.inr ⟨box, by rw [← boxes_foldl_removeMailbox st]; exact hget⟩

theorem indexed_performAll (ttlMs : Nat) (ops : List StoreOp) (hids : (drawnBy ops).Nodup) :
    (performAll ttlMs ops).Indexed ∧ (performAll ttlMs ops).Capped ∧
      ∀ m box, (performAll ttlMs ops).boxes.get m = some box → m ∈ drawnBy ops := by
  induction ops using List.reverseRecOn with
  | nil =>
    refine ⟨⟨fun id hid => absurd hid not_mem_nil, nodup_nil, Groups.empty⟩,
      ⟨fun slot => Nat.zero_le _, Nat.zero_le _⟩, ?_⟩
    intro m box hget
    cases hget
  | append_singleton ops op ih =>
    have hsplit : drawnBy (ops ++ [op]) = drawnBy ops ++ op.drawn?.toList := by
      rw [drawnBy, filterMap_append]
      cases op <;> rfl
    rw [hsplit] at hids ⊢
    obtain ⟨hbefore, -, hapart⟩ := nodup_append.1 hids
    obtain ⟨hi, hc, hdrawn⟩ := ih hbefore
    have hlast : performAll ttlMs (ops ++ [op]) = (performAll ttlMs ops).perform op := by
      rw [performAll, foldl_append]
      rfl
    have hnew : ∀ id ∈ op.drawn?, (performAll ttlMs ops).boxes.get id = none := by
      intro id hid
      cases hget : (performAll ttlMs ops).boxes.get id with
      | none => rfl
      | some box =>
        exact absurd rfl (hapart id (hdrawn id box hget) id (Option.mem_toList.2 hid))
    obtain ⟨hi', hc'⟩ := hi.perform hc op hnew
    rw [hlast]
    refine ⟨hi', hc', ?_⟩
    intro m box hget
    cases boxes_perform hi op hget with
    | inl hmem => exact mem_append_right _ (Option.mem_toList.2 hmem)
    | inr hold =>
      obtain ⟨box', hbox'⟩ := hold
      exact mem_append_left _ (hdrawn m box' hbox')

/-- What the index and the caps promise of a store. -/
structure Exact (st : MailboxStore) : Prop where
  index : ∀ slot, st.bySlot.get slot = entryOf (st.onSlot slot)
  live : ∀ slot now, (st.liveMailboxesForSlot slot now).2 =
    ((st.onSlot slot).filterMap st.boxes.get).filter fun box =>
      now < box.expiresAt ∧ box.claimedBy = none
  perSlot : ∀ slot now, (st.unexpired slot now).length ≤ maxMailboxesPerSlot
  overall : st.mailboxes.length ≤ maxLiveMailboxes
  refused : ∀ id slot now, (st.createMailbox id slot now).2 = none ↔
    maxMailboxesPerSlot ≤ (st.unexpired slot now).length ∨
    maxLiveMailboxes ≤
      (st.mailboxes.filter fun m => ¬ (m ∈ st.onSlot slot ∧ st.due now m)).length

/-- The index is exact and the caps hold after any operations, whatever has expired. -/
theorem slot_index_exact (ttlMs : Nat) (ops : List StoreOp) (hids : (drawnBy ops).Nodup) :
    (performAll ttlMs ops).Exact := by
  obtain ⟨hi, hc, -⟩ := indexed_performAll ttlMs ops hids
  refine ⟨hi.index, ?_, ?_, hc.store, createMailbox_none_iff hi⟩
  · intro slot now
    have hscan := scanSlot_slot hi slot now
    simp only [liveMailboxesForSlot]
    rw [hscan.live, filter_filter]
    apply filter_congr
    intro box _
    rw [Bool.and_comm, Bool.decide_and]
  · intro slot now
    have hscan := scanSlot_slot hi slot now
    rw [unexpired, ← hscan.live, hscan.count]
    exact Nat.le_trans (length_filter_le _ _) (hc.slot slot)

/-- Two codes on one slot, one of them claimed and gone. -/
theorem two_codes_exact : (performAll mailboxTtlMs [.createMailbox "mbx-a" "123" 0, .createMailbox "mbx-b" "123" 5,
      .claimMailbox "mbx-a" "clm" "peer", .destroyMailbox "mbx-a", .liveMailboxesForSlot "123" 9]).Exact :=
  slot_index_exact mailboxTtlMs _ (by decide)

end Mtmux.Broker.MailboxStore
