import Mtmux.Browser.LockStore

/-! Is a locked device locked? The keys are sealed by whoever saves them, and what a tab knows of the
lock can be old. -/
namespace Mtmux.Browser
open Crypto OrderedMap Machine List

abbrev LockEntry : Type := Machine.Entry LockState LockEvent LockOutput

def FactorRecord.opens (factor : FactorRecord) (masterKey : Bytes) : Prop :=
  unwrapMasterKey factor.wrapped.factorKey factor = some masterKey

def LockRecord.opens (record : LockRecord) (masterKey : Bytes) : Prop :=
  ∀ f ∈ record.factors, f.opens masterKey

/-- The master key behind a lock: what its first factor unwraps. -/
def LockRecord.key (record : LockRecord) : Option Bytes :=
  record.factors.head?.bind fun f => unwrapMasterKey f.wrapped.factorKey f

/-- The key that the tab had when it sealed the record, if it had one. -/
def KeyRecord.sealedWith : KeyRecord → Option Bytes
  | .plain _ => none
  | .sealed r => some r.key

def KeyRecord.under (record : KeyRecord) (serverId : String) (masterKey : Bytes) : Prop :=
  match record with
  | .plain _ => False
  | .sealed r => openKeys masterKey r serverId = some r.keys

instance (record : KeyRecord) (serverId : String) (masterKey : Bytes) :
    Decidable (record.under serverId masterKey) :=
  match record with
  | .plain _ => inferInstanceAs (Decidable False)
  | .sealed r => inferInstanceAs (Decidable (openKeys masterKey r serverId = some r.keys))

def LockState.under (s : LockState) (masterKey : Bytes) : Prop :=
  ∀ r ∈ s.keys.entries, r.2.under r.1 masterKey

instance (s : LockState) (masterKey : Bytes) : Decidable (s.under masterKey) :=
  inferInstanceAs (Decidable (∀ r ∈ s.keys.entries, r.2.under r.1 masterKey))

theorem LockState.under_iff (s : LockState) (masterKey : Bytes) : s.under masterKey ↔
      ∀ serverId record, s.keys.get serverId = some record → record.under serverId masterKey := by
  constructor
  · intro h serverId record hget
    exact h (serverId, record) ((get_eq_some s.keys serverId record).1 hget)
  · intro h r hr
    exact h r.1 r.2 ((get_eq_some s.keys r.1 r.2).2 hr)

def LockState.Locked (s : LockState) : Prop :=
  ∀ lock, s.lock = some lock →
    lock.factors ≠ [] ∧ ∃ masterKey, lock.opens masterKey ∧ s.under masterKey

/-- The lock has not been replaced since it was read, unless nothing lies in the store. Where it was
erased, what has been put since lies under its key. -/
def LockState.sameLock (s : LockState) (before : LockRecord) : Bool :=
  match s.lock with
  | some lock => decide (lock.key = before.key) || s.keys.entries.isEmpty
  | none => decide (∀ masterKey ∈ before.key, s.under masterKey)

def LockState.ofThisLock (s : LockState) (work : LockWork) (tab : LockTab) : Bool :=
  match work.phase, work.call with
  | .putting _ record, _ => decide (∀ lock ∈ s.lock, record.sealedWith = lock.key)
  | .committing _ sealedNow, _ => decide (∀ serverId ∈ s.keys.keys, serverId ∈ sealedNow.map Prod.fst)
  | .writing before _, _ | .counting before _, _ | .resetting before _ _ _, _ => s.sameLock before
  | .got (some record), .addFactor _ _ _ _ _ _ =>
    decide (∀ masterKey ∈ tab.masterKey, record.key = some masterKey)
  | _, _ => true

def OfThisLock (x : LockEntry) : Prop :=
  match x.event with
  | .goesOn id =>
    ∀ work ∈ x.pre.calls.get id, ∀ tab ∈ x.pre.tabs.get work.tab, x.pre.ofThisLock work tab = true
  | _ => True

instance (x : LockEntry) : Decidable (OfThisLock x) :=
  match h : x.event with
  | .goesOn id => decidable_of_iff (∀ work ∈ x.pre.calls.get id, ∀ tab ∈ x.pre.tabs.get work.tab,
      x.pre.ofThisLock work tab = true) (by simp only [OfThisLock, h])
  | .opens | .closes _ | .begins _ _ | .passes _ => isTrue (by simp only [OfThisLock, h])

def LockRecord.Sound (record : LockRecord) : Prop :=
  record.factors ≠ [] ∧ ∃ masterKey, record.opens masterKey

def LockWork.Ok (work : LockWork) : Prop :=
  match work.phase with
  | .got (some record) => record.Sound
  | .readingKeys record | .gotKeys record _ =>
    record.factors ≠ [] ∧ ∀ pin label masterKey salt iterations id,
      work.call = .enrollPin pin label masterKey salt iterations id → record.opens masterKey
  | .committing record sealedNow =>
    record.factors ≠ [] ∧ ∃ masterKey, record.opens masterKey ∧
      ∀ r ∈ sealedNow, openKeys masterKey r.2 r.1 = some r.2.keys
  | .writing before record =>
    before.Sound ∧ record.factors ≠ [] ∧ ∀ masterKey, before.opens masterKey → record.opens masterKey
  | .counting before record | .guessing before record _ _ | .resetting before record _ _ =>
    before.Sound ∧ record.factors = before.factors
  | .putting serverId (.sealed r) => keysAad serverId = some r.aad
  | _ => True

structure LockState.Held (s : LockState) : Prop where
  locked : s.Locked
  works : ∀ id work, s.calls.get id = some work → work.Ok

section Steps
variable {derive : String → Bytes → Nat → Bytes} {s t : LockState} {id : Nat} {work : LockWork}
  {tab : LockTab}

theorem key_of_opens {lock : LockRecord} (hne : lock.factors ≠ []) {k : Bytes} (h : lock.opens k) :
    lock.key = some k := by
  cases hfactors : lock.factors with
  | nil => exact absurd hfactors hne
  | cons f rest =>
    have hf : f.opens k := h f (by simp [hfactors])
    simp only [LockRecord.key, hfactors, List.head?_cons, Option.bind_some]
    exact hf

theorem opens_unique {lock : LockRecord} (hne : lock.factors ≠ []) {k k' : Bytes} (h : lock.opens k)
    (h' : lock.opens k') : k = k' := by
  have hk := (key_of_opens hne h).symm.trans (key_of_opens hne h')
  exact Option.some.inj hk

variable {masterKey : Bytes}

theorem opens_wrap {factorKey : Bytes} {kind : FactorKind} {factorId : String} {salt : Bytes}
    {iterations now : Nat} {label : Option String} :
    FactorRecord.opens ⟨kind, factorId, salt, iterations, wrapMasterKey factorKey masterKey kind factorId,
      now, label⟩ masterKey := by
  simp [FactorRecord.opens, unwrapMasterKey, wrapMasterKey]

variable {serverId : String}

theorem openKeys_seal {keys : StoredKeys} {record : SealedKeys}
    (h : sealKeys masterKey keys serverId = some record) : openKeys masterKey record serverId = some record.keys := by
  obtain ⟨aad, haad, rfl⟩ := Option.map_eq_some_iff.1 h
  simp [openKeys, haad]

variable {existing : List (String × KeyRecord)} {sealedNow : List (String × SealedKeys)}

theorem openKeys_sealAll (h : LockState.sealAll masterKey existing = some sealedNow) :
    ∀ r ∈ sealedNow, openKeys masterKey r.2 r.1 = some r.2.keys := by
  induction existing generalizing sealedNow with
  | nil =>
    cases h
    simp
  | cons first rest ih =>
    obtain ⟨serverId, record⟩ := first
    cases record with
    | sealed record => exact ih h
    | plain keys =>
      simp only [LockState.sealAll, Option.bind_eq_bind, Option.bind_eq_some_iff] at h
      obtain ⟨record, hrecord, records, hrecords, hall⟩ := h
      cases hall
      intro r hr
      cases mem_cons.1 hr with
      | inl hr =>
        subst hr
        exact openKeys_seal hrecord
      | inr hr => exact ih hrecords r hr

variable {record : LockRecord}

theorem sound_congr {before : LockRecord} (h : record.factors = before.factors)
    (hsound : before.Sound) : record.Sound := by
  obtain ⟨hne, masterKey, hopens⟩ := hsound
  refine ⟨h ▸ hne, masterKey, ?_⟩
  intro f hf
  exact hopens f (h ▸ hf)

theorem LockState.Held.of_calls (h : s.Held) (hlock : t.lock = s.lock) (hkeys : t.keys = s.keys)
    (hcalls : ∀ other w, t.calls.get other = some w → s.calls.get other = some w ∨ w.Ok) : t.Held where
  locked := by
    intro lock hget
    rw [hlock] at hget
    obtain ⟨hne, masterKey, hopens, hunder⟩ := h.locked lock hget
    refine ⟨hne, masterKey, hopens, ?_⟩
    rw [LockState.under, hkeys]
    exact hunder
  works := by
    intro other w hget
    cases hcalls other w hget with
    | inl hold => exact h.works other w hold
    | inr hok => exact hok

theorem mem_goOn {phase : LockPhase} {other : Nat} {w : LockWork}
    (h : (s.goOn id work phase).calls.get other = some w) :
    s.calls.get other = some w ∨ w = { work with phase := phase } := by
  change (s.calls.set id _).get other = some w at h
  rw [get_set] at h
  split at h
  · exact .inr (Option.some.inj h).symm
  · exact .inl h

theorem mem_finish {other : Nat} {w : LockWork} (h : (s.finish id).calls.get other = some w) :
    s.calls.get other = some w := by
  change (s.calls.delete id).get other = some w at h
  exact get_of_delete h

theorem LockState.Held.goOn {phase : LockPhase} (h : s.Held) (hok : LockWork.Ok { work with phase := phase }) :
    (s.goOn id work phase).Held := by
  refine h.of_calls rfl rfl ?_
  intro other w hget
  cases mem_goOn hget with
  | inl hold => exact .inl hold
  | inr heq =>
    rw [heq]
    exact .inr hok

theorem LockState.Held.finish (h : s.Held) : (s.finish id).Held :=
  h.of_calls rfl rfl fun _ _ hget => .inl (mem_finish hget)

theorem LockState.Held.setTab (h : s.Held) (tabId : Nat) (tab : LockTab) : (s.setTab tabId tab).Held :=
  h.of_calls rfl rfl fun _ _ hget => .inl hget

theorem LockState.Held.write (h : s.Held) (hsound : record.Sound)
    (hunder : ∀ masterKey, record.opens masterKey → s.under masterKey) :
    ({ s with lock := some record } : LockState).Held where
  locked := by
    intro lock hget
    cases hget
    obtain ⟨hne, masterKey, hopens⟩ := hsound
    exact ⟨hne, masterKey, hopens, hunder masterKey hopens⟩
  works := h.works

/-- The records of a machine are put. -/
theorem LockState.Held.put {record : KeyRecord} (h : s.Held)
    (hrecord : ∀ lock masterKey, s.lock = some lock → lock.opens masterKey → record.under serverId masterKey) :
    ({ s with keys := s.keys.set serverId record } : LockState).Held where
  locked := by
    intro lock hget
    obtain ⟨hne, masterKey, hopens, hunder⟩ := h.locked lock hget
    refine ⟨hne, masterKey, hopens, ?_⟩
    rw [LockState.under_iff] at hunder ⊢
    intro other stored hstored
    change (s.keys.set serverId record).get other = some stored at hstored
    rw [get_set] at hstored
    by_cases heq : other = serverId
    · rw [if_pos heq] at hstored
      cases hstored
      rw [heq]
      exact hrecord lock masterKey hget hopens
    · rw [if_neg heq] at hstored
      exact hunder other stored hstored
  works := h.works

theorem LockState.Held.clear (h : s.Held) : ({ s with keys := .empty, lock := none } : LockState).Held where
  locked := by
    intro lock hget
    cases hget
  works := h.works

theorem get_commit {keys : OrderedMap String KeyRecord} {record : KeyRecord}
    (h : (sealedNow.foldl (fun keys r => keys.set r.1 (.sealed r.2)) keys).get serverId = some record) :
    (keys.get serverId = some record ∧ serverId ∉ sealedNow.map Prod.fst) ∨
      ∃ r ∈ sealedNow, r.1 = serverId ∧ record = .sealed r.2 := by
  induction sealedNow generalizing keys with
  | nil => exact .inl ⟨h, by simp⟩
  | cons first rest ih =>
    cases ih h with
    | inr hlater =>
      obtain ⟨r, hr, hrest⟩ := hlater
      exact .inr ⟨r, mem_cons_of_mem _ hr, hrest⟩
    | inl hbefore =>
      obtain ⟨hget, hnot⟩ := hbefore
      rw [get_set] at hget
      by_cases heq : serverId = first.1
      · rw [if_pos heq] at hget
        exact .inr ⟨first, mem_cons_self, heq.symm, (Option.some.inj hget).symm⟩
      · rw [if_neg heq] at hget
        refine .inl ⟨hget, ?_⟩
        simp only [map_cons, mem_cons, not_or]
        exact ⟨heq, hnot⟩

theorem LockState.Held.commit {k : Bytes} (h : s.Held) (hne : record.factors ≠ []) (hopens : record.opens k)
    (hsealed : ∀ r ∈ sealedNow, openKeys k r.2 r.1 = some r.2.keys)
    (hall : ∀ serverId, serverId ∈ s.keys.keys → serverId ∈ sealedNow.map Prod.fst) :
    (s.commit record sealedNow).Held where
  locked := by
    intro lock hget
    cases hget
    refine ⟨hne, k, hopens, ?_⟩
    rw [LockState.under_iff]
    intro serverId stored hstored
    cases get_commit hstored with
    | inl hbefore =>
      obtain ⟨hold, hnot⟩ := hbefore
      exact absurd (hall serverId ((mem_keys s.keys serverId).2 ⟨stored, hold⟩)) hnot
    | inr hwritten =>
      obtain ⟨r, hr, hid, heq⟩ := hwritten
      subst hid
      rw [heq]
      exact hsealed r hr
  works := h.works

theorem LockState.Held.begins (h : s.Held) (tabId : Nat) (tab : LockTab) (call : LockCall) :
    (s.begins tabId tab call).1.Held := by
  have hnext : ({ s with next := s.next + 1 } : LockState).Held := ⟨h.locked, h.works⟩
  cases call with
  | enrollPin _ _ _ _ _ _ | setSessionLock _ _ _ =>
    simp only [LockState.begins]
    split
    · exact hnext
    · exact hnext.goOn trivial
  | eraseDevice => exact (hnext.setTab _ _).goOn trivial
  | _ => exact hnext.goOn trivial

theorem opens_pinFactor {pin : String} {label : Option String} {salt : Bytes} {iterations : Nat}
    {factorId : String} {now : Nat} {factorKey : Bytes} :
    (LockState.pinFactor pin label masterKey salt iterations factorId now factorKey).opens masterKey := by
  intro f hf
  rw [mem_singleton.1 hf]
  exact opens_wrap

theorem LockState.Held.got {record : Option LockRecord} (h : s.Held) (hok : ∀ lock, record = some lock → lock.Sound)
    (hkey : ∀ lock kind factorKey factorId salt iterations label, record = some lock →
      work.call = .addFactor kind factorKey factorId salt iterations label →
      ∀ masterKey ∈ tab.masterKey, lock.key = some masterKey) : (s.got derive id work tab record).1.Held := by
  unfold LockState.got
  split
  · exact (h.setTab _ _).finish
  · exact h.finish
  · rename_i pin label masterKey salt iterations factorId hcall
    split
    · exact h.finish
    · refine h.goOn ⟨by simp [LockState.pinFactor], ?_⟩
      intro pin' label' masterKey' salt' iterations' id' hcall'
      cases hcall.symm.trans hcall'
      exact opens_pinFactor
  · exact h.finish
  · rename_i kind factorKey factorId salt iterations label lock hcall
    split
    · exact h.finish
    · rename_i masterKey hmaster
      have hsound := hok lock rfl
      have hheld := hkey lock _ _ _ _ _ _ rfl hcall masterKey hmaster
      refine h.goOn ⟨hsound, by simp, ?_⟩
      intro k hk f hf
      cases mem_append.1 hf with
      | inl hold => exact hk f hold
      | inr hnew =>
        have hsame : k = masterKey := Option.some.inj ((key_of_opens hsound.1 hk).symm.trans hheld)
        rw [mem_singleton.1 hnew, hsame]
        exact opens_wrap
  · exact h.finish
  · rename_i factorId lock hcall
    split
    · exact h.finish
    · dsimp only
      split
      · exact h.finish
      · rename_i hne
        refine h.goOn ⟨hok lock rfl, hne, ?_⟩
        intro k hk f hf
        exact hk f (mem_filter.1 hf).1
  · exact h.finish
  · rename_i lock hcall
    split
    · exact h.finish
    · split
      · exact h.finish
      · exact h.goOn ⟨hok lock rfl, rfl⟩
  · exact h.finish
  · rename_i lock hcall
    split
    · exact h.finish
    · split
      · exact h.finish
      · exact h.goOn ⟨hok lock rfl, rfl⟩
  · exact h.finish
  · rename_i lock hcall
    split
    · exact h.finish
    · exact h.goOn ⟨hok lock rfl, (hok lock rfl).1, fun _ hk => hk⟩
  · exact h

theorem LockState.Held.gotKeys (h : s.Held)
    (hok : LockWork.Ok { work with phase := .gotKeys record existing }) :
    (s.gotKeys id work record existing).1.Held := by
  unfold LockState.gotKeys
  split
  · rename_i pin label masterKey salt iterations factorId hcall
    split
    · exact h.finish
    · rename_i sealedNow hseal
      refine h.goOn ⟨hok.1, masterKey, hok.2 _ _ _ _ _ _ hcall, ?_⟩
      exact openKeys_sealAll hseal
  · exact h

theorem LockState.Locked.of_sameLock {before : LockRecord} (h : s.Locked) (hsame : s.sameLock before = true) {k : Bytes}
    (hk : before.key = some k) : s.under k := by
  unfold LockState.sameLock at hsame
  split at hsame
  · rename_i lock hlock
    obtain ⟨hne, masterKey, hopens, hunder⟩ := h lock hlock
    cases Bool.or_eq_true_iff.1 hsame with
    | inl hsame =>
      have hkey : lock.key = before.key := of_decide_eq_true hsame
      cases (key_of_opens hne hopens).symm.trans (hkey.trans hk)
      exact hunder
    | inr hempty =>
      intro r hr
      rw [isEmpty_iff.1 hempty] at hr
      cases hr
  · have hunder : ∀ masterKey ∈ before.key, s.under masterKey := of_decide_eq_true hsame
    exact hunder k hk

theorem LockState.Held.decides (h : s.Held) : (s.decides id work tab).1.Held := by
  unfold LockState.decides
  split
  · split
    · exact h.goOn trivial
    · split
      · exact h.finish
      · split
        · exact h.finish
        · rename_i record hrecord
          obtain ⟨aad, haad, rfl⟩ := Option.map_eq_some_iff.1 hrecord
          exact h.goOn haad
  · exact h

theorem LockState.Held.gotKey {handle : Nat} {stored : Option KeyRecord} (h : s.Held) :
    (s.gotKey id work tab masterKey handle stored).1.Held := by
  unfold LockState.gotKey
  split
  · split
    · exact h.finish
    · rename_i hopened
      split at hopened
      · unfold openKeys at hopened
        split at hopened
        · rename_i hplace
          exact h.goOn hplace.2
        · cases hopened
      · cases hopened
  · exact h.finish
  · exact h

theorem LockState.Held.guesses {before : LockRecord} {first : Bool} {rest : List FactorRecord}
    (h : s.Held) (hok : LockWork.Ok { work with phase := .guessing before record rest first }) :
    (s.guesses derive id work before record first rest).1.Held := by
  cases rest with
  | nil =>
    simp only [LockState.guesses]
    split
    · split
      · exact h
      · exact (h.setTab _ _).goOn trivial
    · exact h.finish
  | cons factor rest =>
    simp only [LockState.guesses]
    split
    · split
      · exact h.finish
      · split
        · exact h.goOn ⟨sound_congr hok.2 hok.1, hok.2.symm⟩
        · exact h.goOn hok
    · exact h

theorem LockState.Held.continues {x : LockEntry} (h : x.pre.Held) (hthis : OfThisLock x)
    (hevent : x.event = .goesOn id) (hwork : x.pre.calls.get id = some work)
    (htab : x.pre.tabs.get work.tab = some tab) : (x.pre.continues derive id work tab).1.Held := by
  have hok := h.works id work hwork
  have hcond : x.pre.ofThisLock work tab = true := by
    simp only [OfThisLock, hevent] at hthis
    exact hthis work hwork tab htab
  obtain ⟨tabId, call, phase⟩ := work
  cases phase with
  | reading =>
    refine h.goOn ?_
    cases hlock : x.pre.lock with
    | none => trivial
    | some lock =>
      obtain ⟨hne, masterKey, hopens, -⟩ := h.locked lock hlock
      exact ⟨hne, masterKey, hopens⟩
  | got record =>
    refine h.got ?_ ?_
    · intro lock hlock
      subst hlock
      exact hok
    · intro lock kind factorKey factorId salt iterations label hlock hcall
      subst hlock
      change call = _ at hcall
      subst hcall
      exact of_decide_eq_true hcond
  | readingKeys record => exact h.goOn hok
  | gotKeys record existing => exact h.gotKeys hok
  | committing record sealedNow =>
    obtain ⟨hne, masterKey, hopens, hsealed⟩ := hok
    exact (h.commit hne hopens hsealed (of_decide_eq_true hcond)).goOn trivial
  | committed =>
    simp only [LockState.continues, LockState.committed]
    split
    · exact (h.setTab _ _).finish
    · exact h
  | deciding => exact h.decides
  | putting serverId record =>
    have hput : ∀ lock ∈ x.pre.lock, record.sealedWith = lock.key := of_decide_eq_true hcond
    refine (h.put ?_).finish
    intro lock masterKey hlock hopens
    have hkey := (hput lock hlock).trans (key_of_opens (h.locked lock hlock).1 hopens)
    cases record with
    | plain keys => cases hkey
    | sealed r =>
      have haad : keysAad serverId = some r.aad := hok
      simp [KeyRecord.under, openKeys, Option.some.inj hkey, haad]
  | readingKey masterKey handle =>
    simp only [LockState.continues]
    split
    · exact h.goOn trivial
    · exact h
  | gotKey masterKey handle stored => exact h.gotKey
  | writing before record =>
    obtain ⟨⟨hbefore, masterKey, hopens⟩, hne, hsame⟩ := hok
    refine (h.write ⟨hne, masterKey, hsame masterKey hopens⟩ ?_).finish
    intro k hk
    rw [opens_unique hne hk (hsame masterKey hopens)]
    exact h.locked.of_sameLock hcond (key_of_opens hbefore hopens)
  | counting before record =>
    refine (h.write (sound_congr hok.2 hok.1) ?_).goOn hok
    intro k hk
    exact h.locked.of_sameLock hcond (key_of_opens hok.1.1 fun f hf => hk f (hok.2 ▸ hf))
  | guessing before record rest first => exact h.guesses hok
  | resetting before record masterKey factorId =>
    refine (h.write (sound_congr hok.2 hok.1) ?_).goOn trivial
    intro k hk
    exact h.locked.of_sameLock hcond (key_of_opens hok.1.1 fun f hf => hk f (hok.2 ▸ hf))
  | opened masterKey => exact (h.setTab _ _).finish
  | clearing => exact h.clear.finish

/-- A step that writes nothing made for another lock leaves the device locked. -/
theorem LockState.Held.step {x : LockEntry} (h : x.pre.Held) (hthis : OfThisLock x)
    (hpost : x.post = (x.pre.step derive x.event).1) : x.post.Held := by
  rw [hpost]
  cases hevent : x.event with
  | opens => exact ⟨h.locked, h.works⟩
  | closes tabId =>
    refine ⟨h.locked, ?_⟩
    intro other w hget
    exact h.works other w ((get_filter x.pre.calls _ other w).1 hget).1
  | begins tabId call =>
    simp only [LockState.step]
    split
    · exact h
    · exact h.begins _ _ _
  | goesOn id =>
    simp only [LockState.step]
    split
    · exact h
    · rename_i work hwork
      split
      · exact h
      · rename_i tab htab
        exact h.continues hthis hevent hwork htab
  | passes ms => exact ⟨h.locked, h.works⟩

end Steps

theorem held_init : LockState.init.Held where
  locked := by
    intro lock hget
    cases hget
  works := by
    intro id work hget
    cases hget

theorem held_run (derive : String → Bytes → Nat → Bytes) (es : List LockEvent)
    (hthis : ∀ x ∈ (lockMachine derive .init).trace es, OfThisLock x) : ((lockMachine derive .init).run es).Held := by
  refine (lockMachine derive .init).trace_invariant (fun s _ => s.Held) held_init ?_ hthis
  exact fun es e hpre hlast => LockState.Held.step hpre hlast rfl

/-- In every run in which nothing is written that was made for another lock, the keys of a device with a
lock open under the one master key that every factor unwraps. -/
theorem device_locked (derive : String → Bytes → Nat → Bytes) (es : List LockEvent)
    (hthis : ∀ x ∈ (lockMachine derive .init).trace es, OfThisLock x) : ((lockMachine derive .init).run es).Locked ∧
      ∀ x ∈ (lockMachine derive .init).trace es, x.pre.Locked := by
  refine ⟨(held_run derive es hthis).locked, ?_⟩
  intro x hx
  obtain ⟨before, e, after, hes, rfl⟩ := ((lockMachine derive .init).mem_trace es x).1 hx
  exact (held_run derive before (forall_trace_before hthis hes)).locked

def laptopKeys : StoredKeys := ⟨[1], [2], [3], "t-laptop", none⟩
def deskKeys : StoredKeys := ⟨[4], [5], [6], "t-desk", none⟩
def enrolledPin : LockCall := .enrollPin "135790" none [7, 7, 7] [1, 6] 600000 "0f3a"

def twoTabs : List LockEvent :=
  [.opens, .opens] ++ callAlone 0 2 (.saveSessionKeys "laptop" laptopKeys) 2 ++
    callAlone 0 3 enrolledPin 6 ++ callAlone 1 4 .hydrateLockState 2 ++
    callAlone 1 5 (.unlockWithPin "135790") 6 ++
    callAlone 1 6 (.saveSessionKeys "desk" deskKeys) 2 ++
    callAlone 1 7 (.addFactor .passkey [9, 9] "77c1" [] 0 none) 3

theorem device_locked_two_tabs : ((lockMachine saltedPin .init).run twoTabs).Locked ∧
      ∀ x ∈ (lockMachine saltedPin .init).trace twoTabs, x.pre.Locked :=
  device_locked saltedPin twoTabs (by decide +kernel)

/-- The tab that pairs does not know of the lock that the other one has just set. -/
def staleTab : List LockEvent :=
  [.opens, .opens] ++ callAlone 1 2 .hydrateLockState 2 ++ callAlone 0 3 enrolledPin 6 ++
    callAlone 1 4 (.saveSessionKeys "desk" deskKeys) 2

/-- A session key lies in the clear on a device with a lock. -/
theorem not_device_locked : ((lockMachine saltedPin .init).run staleTab).lock.isSome = true ∧
      ((lockMachine saltedPin .init).run staleTab).keys.entries = [("desk", .plain deskKeys)] ∧
      ¬ ((lockMachine saltedPin .init).run staleTab).Locked := by
  have hlock : ((lockMachine saltedPin .init).run staleTab).lock.isSome = true := by decide +kernel
  have hkeys : ((lockMachine saltedPin .init).run staleTab).keys.entries = [("desk", .plain deskKeys)] := by
    decide +kernel
  refine ⟨hlock, hkeys, ?_⟩
  intro h
  obtain ⟨lock, hget⟩ := Option.isSome_iff_exists.1 hlock
  obtain ⟨-, masterKey, -, hunder⟩ := h lock hget
  have hdesk : ("desk", KeyRecord.plain deskKeys) ∈
      ((lockMachine saltedPin .init).run staleTab).keys.entries := by simp [hkeys]
  exact hunder _ hdesk

end Mtmux.Browser
