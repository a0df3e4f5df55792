import Mtmux.Agent.AccessRequests

/-! How many keys the machine releases for one request. Every `pair:request` draws a
fresh key and overwrites the entry, so it is as many as there are requests. -/
namespace Mtmux.Agent
open Crypto OrderedMap Machine List

namespace AccessTable
variable {cfg : AccessConfig} {a : AccessTable} {e : AccessEvent}

def asksFor (id : String) : AccessEvent → Bool
  | .message (.request requestId commitment _ _) => requestId = id && (hexToBytes commitment).isSome
  | _ => false

/-- The key an output releases, and for which request. -/
def released : AccessOut → Option (String × String)
  | .send (.requestAck id key) => some (id, key)
  | _ => none

def asksHuman (id : String) : AccessOut → Bool
  | .ask request => request.requestId = id
  | .send _ => false

structure OneKey (cfg : AccessConfig) (es : List AccessEvent) : Prop where
  key : ∀ {id key key'}, .send (.requestAck id key) ∈ (machine cfg).outputs es →
    .send (.requestAck id key') ∈ (machine cfg).outputs es → key = key'
  pair : ∀ {before after before' after' : List AccessEvent} {id : String}
    {p p' : PendingAccess}, es = before ++ after → es = before' ++ after' →
    ((machine cfg).run before).accessRequests.get id = some p →
    ((machine cfg).run before').accessRequests.get id = some p' →
    p.commitment = p'.commitment ∧ p.ephemeral = p'.ephemeral
  question : ∀ id, ((machine cfg).outputs es).countP (asksHuman id) ≤ 1

theorem step_cases (cfg : AccessConfig) (a : AccessTable) (e : AccessEvent) :
    (∃ id pending, (∃ commitment deviceLabel accountEmail,
        e = .message (.request id commitment deviceLabel accountEmail) ∧
        hexToBytes commitment = some pending.commitment) ∧
      (∀ i, asksFor i e = decide (id = i)) ∧
      pending.ephemeral = newEphemeralKey cfg.P (cfg.random a.drawn) ∧
      (step cfg a e).1.accessRequests = a.accessRequests.set id pending ∧
      (step cfg a e).1.drawn = a.drawn + 1 ∧
      (step cfg a e).2 = [.send (.requestAck id (bytesToHex pending.ephemeral.publicKey))]) ∨
    (∃ id pending, (∀ i, asksFor i e = false) ∧ a.accessRequests.get id = some pending ∧
      (step cfg a e).1.accessRequests = a.accessRequests.delete id ∧
      (step cfg a e).1.drawn = a.drawn ∧ (step cfg a e).2.filterMap released = [] ∧
      ∀ i, (step cfg a e).2.countP (asksHuman i) ≤ if id = i then 1 else 0) ∨
    ((∀ i, asksFor i e = false) ∧ (step cfg a e).1.accessRequests = a.accessRequests ∧
      (step cfg a e).1.drawn = a.drawn ∧ (step cfg a e).2.filterMap released = [] ∧
      ∀ i, (step cfg a e).2.countP (asksHuman i) = 0) := by
  cases e with
  | answer question decision =>
    refine Or.inr (Or.inr ⟨fun _ => rfl, ?_⟩)
    simp only [step]
    split
    · exact ⟨rfl, rfl, rfl, fun _ => rfl⟩
    · refine ⟨rfl, rfl, ?_, fun _ => rfl⟩
      cases decision <;> rfl
  | message m =>
    cases m with
    | request requestId commitment deviceLabel accountEmail =>
      simp only [step, pairRequest]
      cases hc : hexToBytes commitment with
      | none =>
        refine Or.inr (Or.inr ⟨fun i => ?_, rfl, rfl, rfl, fun _ => rfl⟩)
        simp [asksFor, hc]
      | some c =>
        refine Or.inl ⟨requestId, ⟨c, deviceLabel, accountEmail,
          newEphemeralKey cfg.P (cfg.random a.drawn)⟩, ⟨commitment, deviceLabel, accountEmail, rfl,
          hc⟩, fun i => ?_, rfl, rfl, rfl, rfl⟩
        simp [asksFor, hc]
    | reveal requestId browserPublicKey =>
      simp only [step, pairReveal]
      cases hp : a.accessRequests.get requestId with
      | none => exact Or.inr (Or.inr ⟨fun _ => rfl, rfl, rfl, rfl, fun _ => rfl⟩)
      | some pending =>
        refine Or.inr (Or.inl ⟨requestId, pending, fun _ => rfl, hp, ?_⟩)
        dsimp only
        unfold decideAccess
        split
        · exact ⟨rfl, rfl, rfl, fun _ => Nat.zero_le _⟩
        · split
          · refine ⟨rfl, rfl, rfl, fun i => ?_⟩
            split
            · exact countP_le_length
            · next hne => simp [asksHuman, hne]
          · exact ⟨rfl, rfl, rfl, fun _ => Nat.zero_le _⟩
    | _ => exact Or.inr (Or.inr ⟨fun _ => rfl, rfl, rfl, rfl, fun _ => rfl⟩)

theorem released_keys (cfg : AccessConfig) (es : List AccessEvent) :
    (((machine cfg).outputs es).filterMap released).map Prod.snd = (List.range ((machine cfg).run es).drawn).map
        fun n => bytesToHex (cfg.P.publicKey (cfg.random n)) := by
  refine run_induction (P := fun es => (((machine cfg).outputs es).filterMap released).map
    Prod.snd = (List.range ((machine cfg).run es).drawn).map
      fun n => bytesToHex (cfg.P.publicKey (cfg.random n))) rfl (fun es e ih => ?_) es
  rw [outputs_snoc, run_snoc, filterMap_append, map_append, ih]
  rcases step_cases cfg ((machine cfg).run es) e with ⟨id, pending, -, -, hkey, -, hd, ho⟩ |
    ⟨id, pending, -, -, -, hd, ho, -⟩ | ⟨-, -, hd, ho, -⟩
  · simp only [machine] at hd ho hkey ⊢
    rw [hd, ho, range_succ, map_append, hkey]
    rfl
  · simp only [machine] at hd ho ⊢
    rw [hd, ho, map_nil, append_nil]
  · simp only [machine] at hd ho ⊢
    rw [hd, ho, map_nil, append_nil]

theorem released_count (cfg : AccessConfig) (id : String) (es : List AccessEvent) :
    (((machine cfg).outputs es).filterMap released).countP (fun x => x.1 = id) = es.countP (asksFor id) := by
  refine run_induction (P := fun es => (((machine cfg).outputs es).filterMap
    released).countP (fun x => x.1 = id) = es.countP (asksFor id)) rfl (fun es e ih => ?_) es
  rw [outputs_snoc, filterMap_append, countP_append, countP_append, ih,
    countP_singleton]
  rcases step_cases cfg ((machine cfg).run es) e with ⟨i, pending, -, has, -, -, -, ho⟩ |
    ⟨i, pending, has, -, -, -, ho, -⟩ | ⟨has, -, -, ho, -⟩
  · simp only [machine] at ho ⊢
    rw [ho, has id]
    simp [released, countP_cons]
  · simp only [machine] at ho ⊢
    rw [ho, has id]
    rfl
  · simp only [machine] at ho ⊢
    rw [ho, has id]
    rfl

/-- Entries and questions of an id are paid for by its requests. -/
theorem pending_count (cfg : AccessConfig) (id : String) (es : List AccessEvent) :
    (((machine cfg).run es).accessRequests.get id).isSome.toNat +
      ((machine cfg).outputs es).countP (asksHuman id) ≤ es.countP (asksFor id) := by
  refine run_induction (P := fun es => (((machine cfg).run es).accessRequests.get
    id).isSome.toNat + ((machine cfg).outputs es).countP (asksHuman id) ≤ es.countP (asksFor id))
    (Nat.le_refl 0) (fun es e ih => ?_) es
  rw [outputs_snoc, run_snoc, countP_append, countP_append,
    countP_singleton]
  rcases step_cases cfg ((machine cfg).run es) e with ⟨i, pending, -, has, -, hs, -, ho⟩ |
    ⟨i, pending, has, hp, hs, -, -, hq⟩ | ⟨has, hs, -, -, hq⟩
  · simp only [machine] at hs ho ih ⊢
    rw [hs, ho, has id, get_set]
    by_cases hi : i = id
    · subst hi
      simp only [asksHuman, countP_singleton]
      simp
      omega
    · rw [if_neg (fun h => hi h.symm)]
      simp [asksHuman, hi]
      omega
  · have hle := hq id
    simp only [machine] at hs ih hle ⊢
    rw [hs, has id, get_delete]
    by_cases hi : i = id
    · subst hi
      simp only [machine] at hp
      rw [hp] at ih
      simp at ih hle ⊢
      omega
    · rw [if_neg (fun h => hi h.symm)]
      rw [if_neg hi] at hle
      simp
      omega
  · have hzero := hq id
    simp only [machine] at hs ih hzero ⊢
    rw [hs, has id, hzero]
    simpa using ih

theorem entry_kept (cfg : AccessConfig) {id : String} (before mid : List AccessEvent)
    (hno : mid.countP (asksFor id) = 0) : ((machine cfg).run (before ++ mid)).accessRequests.get id = none ∨
      ((machine cfg).run (before ++ mid)).accessRequests.get id = ((machine cfg).run before).accessRequests.get id := by
  induction mid using List.reverseRecOn with
  | nil => exact Or.inr (by rw [append_nil])
  | append_singleton mid e ih =>
    rw [countP_append, countP_singleton] at hno
    rw [← append_assoc, run_snoc]
    have ih := ih (by omega)
    rcases step_cases cfg ((machine cfg).run (before ++ mid)) e with ⟨i, pending, -, has, -, hs, -⟩ |
      ⟨i, pending, -, -, hs, -⟩ | ⟨-, hs, -⟩
    · simp only [machine] at hs ih ⊢
      have hi : i ≠ id := by
        rintro rfl
        rw [has i] at hno
        simp at hno
      rw [hs, get_set, if_neg hi.symm]
      exact ih
    · simp only [machine] at hs ih ⊢
      rw [hs, get_delete]
      split
      · exact Or.inl rfl
      · exact ih
    · simp only [machine] at hs ih ⊢
      rw [hs]
      exact ih

theorem entry_same (cfg : AccessConfig) {id : String} {before mid after : List AccessEvent}
    {p p' : PendingAccess} (honce : (before ++ mid ++ after).countP (asksFor id) ≤ 1)
    (hp : ((machine cfg).run before).accessRequests.get id = some p)
    (hp' : ((machine cfg).run (before ++ mid)).accessRequests.get id = some p') : p = p' := by
  have hcount := pending_count cfg id before
  rw [hp] at hcount
  simp only [Option.isSome_some, Bool.toNat_true] at hcount
  rw [countP_append, countP_append] at honce
  have hmid : mid.countP (asksFor id) = 0 := by omega
  rcases entry_kept cfg before mid hmid with hnone | hsame
  · rw [hnone] at hp'
    cases hp'
  · rw [hp', hp] at hsame
    exact (Option.some.inj hsame).symm

theorem length_le_one {α : Type} {xs : List α} (hnodup : xs.Nodup)
    (hsame : ∀ x ∈ xs, ∀ y ∈ xs, x = y) : xs.length ≤ 1 := by
  cases xs with
  | nil => exact Nat.zero_le 1
  | cons x xs =>
    cases xs with
    | nil => exact Nat.le_refl 1
    | cons y xs =>
      have hxy := hsame x (by simp) y (by simp)
      exact absurd (by rw [hxy]; simp) (nodup_cons.1 hnodup).1

def FreshKeys (cfg : AccessConfig) (es : List AccessEvent) : Prop :=
  ∀ n < ((machine cfg).run es).drawn, ∀ m < ((machine cfg).run es).drawn,
    cfg.P.publicKey (cfg.random n) = cfg.P.publicKey (cfg.random m) → n = m

/-- The machine releases one key for an id exactly when it is asked once. -/
theorem one_key_iff (cfg : AccessConfig) (es : List AccessEvent) (hfresh : FreshKeys cfg es) :
    OneKey cfg es ↔ ∀ id, es.countP (asksFor id) ≤ 1 := by
  constructor
  · intro h id
    -- all releases of the run are distinct, those of `id` are equal
    have hnodup : (((machine cfg).outputs es).filterMap released).Nodup := by
      refine List.Nodup.of_map Prod.snd ?_
      rw [released_keys]
      refine nodup_range.map_on fun n hn m hm he => ?_
      have hbytes := congrArg hexToBytes he
      rw [hexToBytes_bytesToHex, hexToBytes_bytesToHex] at hbytes
      exact hfresh n (mem_range.1 hn) m (mem_range.1 hm) (Option.some.inj hbytes)
    rw [← released_count cfg, countP_eq_length_filter]
    have hsame : ∀ x ∈ (((machine cfg).outputs es).filterMap released).filter (fun x => x.1 = id),
        ∀ y ∈ (((machine cfg).outputs es).filterMap released).filter (fun x => x.1 = id),
        x = y := by
      rintro ⟨i, key⟩ hx ⟨j, key'⟩ hy
      obtain ⟨hx, hi⟩ := mem_filter.1 hx
      obtain ⟨hy, hj⟩ := mem_filter.1 hy
      have hmem : ∀ {i key}, (i, key) ∈ ((machine cfg).outputs es).filterMap released →
          .send (.requestAck i key) ∈ (machine cfg).outputs es := by
        intro i key hm
        obtain ⟨o, ho, he⟩ := mem_filterMap.1 hm
        unfold released at he
        split at he
        · cases he
          exact ho
        · cases he
      have hij : i = j := (of_decide_eq_true hi).trans (of_decide_eq_true hj).symm
      subst hij
      rw [h.key (hmem hx) (hmem hy)]
    exact length_le_one (hnodup.filter _) hsame
  · intro honce
    refine ⟨fun {id key key'} hk hk' => ?_, fun {before after before' after' id p p'} he he' hp hp' => ?_,
      fun id => ?_⟩
    · have hlen := honce id
      rw [← released_count cfg, countP_eq_length_filter] at hlen
      have hmem : ∀ {key}, .send (.requestAck id key) ∈ (machine cfg).outputs es →
          (id, key) ∈ (((machine cfg).outputs es).filterMap released).filter
            (fun x => x.1 = id) :=
        fun hm => mem_filter.2 ⟨mem_filterMap.2 ⟨_, hm, rfl⟩, by simp⟩
      obtain ⟨x, hx⟩ := length_eq_one_iff.1
        (Nat.le_antisymm hlen (length_pos_of_mem (hmem hk)))
      have h1 := hmem hk
      have h2 := hmem hk'
      rw [hx, mem_singleton] at h1 h2
      exact (Prod.mk.inj (h1.trans h2.symm)).2
    · rcases append_eq_append_iff.1 (he.symm.trans he') with ⟨mid, rfl, rfl⟩ | ⟨mid, rfl, rfl⟩
      · have hone := honce id
        rw [he'] at hone
        rw [entry_same cfg hone hp hp']
        exact ⟨rfl, rfl⟩
      · have hone := honce id
        rw [he] at hone
        rw [entry_same cfg hone hp' hp]
        exact ⟨rfl, rfl⟩
    · have hcount := pending_count cfg id es
      have hle := honce id
      omega

/-- A machine on which runs can be computed; its n-th key ends in n. -/
def sample : AccessConfig where
  P :=
    { sha256 := fun _ => []
      sha512 := fun _ => []
      hmac := fun _ _ => []
      hkdf := fun _ _ _ _ => []
      publicKey := id
      sharedSecret := fun _ _ => none }
  random := fun n => List.replicate 31 0 ++ [UInt8.ofNat n]
  canAsk := true

def zeros : String := "0000000000000000000000000000000000000000000000000000000000000000"

/-- A request and its reveal. -/
def once : List AccessEvent :=
  [.message (.request "req-1" zeros "phone" "a@b.c"), .message (.reveal "req-1" zeros)]

theorem one_key_iff_once : OneKey sample once := by
  refine (one_key_iff sample once ?_).2 fun id => ?_
  · have hdrawn : ((machine sample).run once).drawn = 1 := by decide +kernel
    intro n hn m hm _
    omega
  · have hreveal : asksFor id (.message (.reveal "req-1" zeros)) = false := rfl
    rw [once, countP_cons, countP_singleton, hreveal, if_neg Bool.false_ne_true,
      Nat.zero_add]
    split
    · exact Nat.le_refl 1
    · exact Nat.zero_le 1

/-- One request, sent twice. -/
def repeated : List AccessEvent :=
  [.message (.request "req-1" zeros "phone" "a@b.c"),
    .message (.request "req-1" zeros "phone" "a@b.c")]

theorem two_keys_for_repeated_request : ¬ OneKey sample repeated := by
  intro h
  have hfirst : .send (.requestAck "req-1" zeros) ∈ (machine sample).outputs repeated := by
    decide +kernel
  have hsecond : .send (.requestAck "req-1" (bytesToHex (List.replicate 31 0 ++ [1]))) ∈
      (machine sample).outputs repeated := by decide +kernel
  exact absurd (h.key hfirst hsecond) (by decide +kernel)

end AccessTable
end Mtmux.Agent
