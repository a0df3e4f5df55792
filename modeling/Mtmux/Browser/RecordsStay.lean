import Mtmux.Base.RelyGuarantee
import Mtmux.Browser.SealedStores

/-! Moving sealed records about gains nothing: what opens in a slot was put there. -/
namespace Mtmux.Browser.Sealed
open Crypto Async OrderedMap List

/-- The record is sealed for the slot. -/
def SealedFor (P : Platform) (x : Sealing) (slot : Slot) : Prop :=
  ∃ aad key nonce, slot.place.aad = some aad ∧ x.record = ⟨1, nonce, P.A.encrypt key nonce (textEncode aad) x.plaintext⟩

/-- What was put into a slot was sealed for it. -/
def Genuine (P : Platform) (s : Stores) : Prop := ∀ x ∈ s.stored, SealedFor P x.sealing x.slot

/-- What is opened in a slot was put there. -/
def PutThere (s : Stores) : Out → Prop
  | .opened slot plaintext => ∃ x ∈ s.stored, x.slot = slot ∧ x.sealing.plaintext = plaintext

def Puts (P : Platform) : DbCall → Prop
  | .putKeys serverId (.sealed x) => SealedFor P x (.keys serverId)
  | .putFactor _ factor => SealedFor P factor.wrapped (.factor factor.kind factor.id)
  | .enroll sealedNow token _ factor => (∀ x ∈ sealedNow, SealedFor P x.2 (.keys x.1)) ∧
      (∀ x ∈ token, SealedFor P x .localToken) ∧ SealedFor P factor.wrapped (.factor factor.kind factor.id)
  | _ => True

/-- A record is found where it was looked for. -/
def FoundThere : (c : DbCall) → Except String c.Output → Prop
  | .getKeys serverId, .ok (some (.sealed found)) => found.slot = .keys serverId
  | .getToken, .ok (some found) => found.slot = .localToken
  | _, _ => True

def terms (P : Platform) : Terms Stores Out String DbCall.Output where
  inv := Genuine P
  may s s' := s'.stored = s.stored
  tells := PutThere
  calls := Puts P
  replies := FoundThere
  keeps h hsame := by
    intro x hx
    exact h x (hsame ▸ hx)
  may_refl _ := rfl
  may_trans h h' := h'.trans h

section Functions
variable {P : Platform} {α : Type} {s : Stores}

theorem orThrow_within {Q : Stores → α → Prop} {message : String} {a : Option α} (h : ∀ b, a = some b → Q s b) :
    (orThrow message a).Within (terms P) Q s := by
  cases a with
  | none => trivial
  | some b => exact h b rfl

theorem orThrow_kept (message : String) (a : Option α) : (orThrow message a).Kept (terms P) :=
  fun _ _ => orThrow_within fun _ _ => trivial

theorem db_kept (c : DbCall) (h : Puts P c) : (db c).Kept (terms P) := kept_call h

theorem updateTab_kept (tab : Nat) (f : Tab → Tab) : (updateTab tab f).Kept (terms P) := kept_modify fun _ _ => rfl

theorem bytesOf_kept (mk : Nat) : (bytesOf mk).Kept (terms P) := fun _ _ => trivial

theorem masterKey_kept (tab : Nat) : (masterKey tab).Kept (terms P) := fun _ _ => trivial

theorem requireMasterKey_kept (tab : Nat) : (requireMasterKey tab).Kept (terms P) :=
  (masterKey_kept tab).bind fun _ => orThrow_kept _ _

theorem setMasterKey_kept (tab : Nat) (mk : Bytes) : (setMasterKey tab mk).Kept (terms P) := fun _ _ => ⟨rfl, trivial⟩

theorem cacheKeys_kept (tab : Nat) (serverId : String) (keys : StoredKeys) :
    (cacheKeys tab serverId keys).Kept (terms P) := updateTab_kept _ _

theorem keysAad_within {Q : Stores → CodeUnits → Prop} {serverId : String}
    (h : ∀ aad, (Slot.keys serverId).place.aad = some aad → Q s aad) : (keysAad serverId).Within (terms P) Q s :=
  orThrow_within h

theorem localTokenAad_within {Q : Stores → CodeUnits → Prop} (h : ∀ aad, Slot.localToken.place.aad = some aad → Q s aad) :
    localTokenAad.Within (terms P) Q s :=
  orThrow_within h

theorem sealRecord_some {A : Aead} {key plaintext nonce : Bytes} {aad : CodeUnits} {made : SealedRecord}
    (h : sealRecord A key plaintext aad nonce = some made) :
    made = ⟨1, nonce, A.encrypt key nonce (textEncode aad) plaintext⟩ := by
  unfold sealRecord at h
  split at h
  · cases h
  · split at h
    · cases h
    · cases h
      rfl

/-- What is sealed with the data of a slot is sealed for it. -/
theorem sealJson_within {Q : Stores → Sealing → Prop} {mk plaintext : Bytes} {aad : CodeUnits} {nonce : Nonce} {slot : Slot}
    (haad : slot.place.aad = some aad) (h : ∀ x, SealedFor P x slot → Q s x) :
    (sealJson P mk plaintext aad nonce).Within (terms P) Q s := by
  refine within_bind.2 (orThrow_within fun record hrecord => ?_)
  exact h _ ⟨aad, mk, nonce.1, haad, sealRecord_some hrecord⟩

theorem wrapMasterKey_within {Q : Stores → Sealing → Prop} {factorKey mk : Bytes} {kind : FactorKind} {id : String}
    {nonce : Nonce} (h : ∀ x, SealedFor P x (.factor kind id) → Q s x) :
    (wrapMasterKey P factorKey mk kind id nonce).Within (terms P) Q s := by
  refine within_bind.2 (orThrow_within fun record hrecord => ?_)
  unfold Crypto.wrapMasterKey at hrecord
  split at hrecord
  · cases hrecord
  · split at hrecord
    · rename_i wk aad hwk haad
      exact h _ ⟨aad, wk, nonce.1, haad, sealRecord_some hrecord⟩
    · cases hrecord

theorem openRecord_some {A : Aead} {key plaintext : Bytes} {record : SealedRecord} {aad : CodeUnits}
    (h : openRecord A key record aad = some plaintext) :
    A.decrypt key record.nonce (textEncode aad) record.ct = some plaintext := by
  unfold openRecord at h
  repeat' split at h
  all_goals first | exact h | cases h

theorem derivePinKey_kept (pin : String) (salt : Bytes) (iterations : Nat) :
    (derivePinKey P pin salt iterations).Kept (terms P) := by
  unfold derivePinKey
  split
  · exact kept_throw _
  · exact (db_kept .pause trivial).bind fun _ => kept_pure _

theorem readLockRecord_kept : readLockRecord.Kept (terms P) :=
  ((db_kept .openDb trivial).bind fun _ => db_kept .getLock trivial).catching fun _ => kept_pure _

theorem writeLockRecord_kept (record : LockRecord) : (writeLockRecord record).Kept (terms P) :=
  (db_kept .openDb trivial).bind fun _ => db_kept (.putLock record) trivial

theorem isEnrolledOnDisk_kept (tab : Nat) : (isEnrolledOnDisk tab).Kept (terms P) := by
  refine kept_get_bind fun s hs => ?_
  split
  · exact kept_pure _
  · exact readLockRecord_kept.bind fun _ => kept_pure _

theorem eraseDevice_kept (tab : Nat) : (eraseDevice tab).Kept (terms P) := by
  refine (kept_modify fun _ _ => rfl).bind fun _ => (updateTab_kept _ _).bind fun _ => ?_
  exact ((db_kept .openDb trivial).bind fun _ => db_kept .clear trivial).catching fun _ => kept_pure _

theorem cacheAll_kept (tab : Nat) (records : List (String × Sealing × StoredKeys)) :
    (cacheAll tab records).Kept (terms P) := by
  induction records with
  | nil => exact kept_pure _
  | cons x rest ih => exact (cacheKeys_kept _ _ _).bind fun _ => ih

theorem sealKeysIfUnlocked_within {Q : Stores → KeyRecord Sealing → Prop} {tab : Nat} {serverId : String}
    {plain : StoredKeys} {nonce : Nonce} (h : ∀ record, Puts P (.putKeys serverId record) → Q s record) :
    (sealKeysIfUnlocked P tab serverId plain nonce).Within (terms P) Q s := by
  unfold sealKeysIfUnlocked
  refine within_get.2 ?_
  split
  · exact h _ trivial
  · refine within_get.2 ?_
    dsimp only
    cases (s.tab tab).masterKey with
    | none => trivial
    | some handle =>
      refine within_get.2 (within_bind.2 (keysAad_within fun aad haad => ?_))
      exact within_bind.2 (sealJson_within haad fun x hx => h _ hx)

/-- Each machine's keys are sealed for that machine. -/
theorem sealAll_within {Q : Stores → List (String × Sealing × StoredKeys) → Prop} {mk : Bytes} {nonces : Nat → Nonce}
    (existing : List (String × KeyRecord Found))
    (h : ∀ records, (∀ x ∈ records, SealedFor P x.2.1 (.keys x.1)) → Q s records) :
    (sealAll P mk nonces existing).Within (terms P) Q s := by
  induction existing generalizing Q with
  | nil => exact h [] nofun
  | cons x rest ih =>
    obtain ⟨serverId, record⟩ := x
    cases record with
    | sealed found => exact ih h
    | plain keys =>
      refine within_bind.2 (keysAad_within fun aad haad => within_bind.2 (sealJson_within haad fun x hx => ?_))
      refine within_bind.2 (ih fun records hrecords => h _ ?_)
      exact forall_mem_cons.2 ⟨hx, hrecords⟩

theorem sealToken_within {Q : Stores → Option Sealing → Prop} {mk : Bytes} {nonce : Nonce} (token : Option String)
    (h : ∀ x, (∀ y ∈ x, SealedFor P y .localToken) → Q s x) : (sealToken P mk nonce token).Within (terms P) Q s := by
  cases token with
  | none => exact h none nofun
  | some token =>
    refine within_bind.2 (localTokenAad_within fun aad haad => within_bind.2 (sealJson_within haad fun x hx => h _ ?_))
    intro y hy
    cases hy
    exact hx

theorem getKeys_kept {f : Option (KeyRecord Found) → Lock α} {serverId : String}
    (h : ∀ record, (∀ found, record = some (.sealed found) → found.slot = .keys serverId) → (f record).Kept (terms P)) :
    (db (.getKeys serverId) >>= f).Kept (terms P) := by
  intro s hs
  refine within_bind.2 (within_call trivial fun s' hs' record hfound => h record ?_ s' hs')
  rintro found rfl
  exact hfound

theorem getToken_kept {f : Option Found → Lock α}
    (h : ∀ token, (∀ found, token = some found → found.slot = .localToken) → (f token).Kept (terms P)) :
    (db .getToken >>= f).Kept (terms P) := by
  intro s hs
  refine within_bind.2 (within_call trivial fun s' hs' token hfound => h token ?_ s' hs')
  rintro found rfl
  exact hfound

theorem saveSessionKeys_kept (tab : Nat) (serverId : String) (keys : StoredKeys) (nonce : Nonce) :
    (saveSessionKeys P tab serverId keys nonce).Kept (terms P) := by
  refine (db_kept .openDb trivial).bind fun _ s hs => within_bind.2 (sealKeysIfUnlocked_within fun record hputs => ?_)
  refine Kept.bind (db_kept _ hputs) (fun _ => ?_) s hs
  cases record with
  | plain keys => exact kept_pure _
  | sealed x => exact cacheKeys_kept _ _ _

theorem enrollPin_kept (tab : Nat) (pin : String) (label : Option String) (iterations : Nat) (draws : Draws) :
    (enrollPin P tab pin label iterations draws).Kept (terms P) := by
  refine (isEnrolledOnDisk_kept tab).bind fun enrolled => ?_
  split
  · exact kept_throw _
  · refine (derivePinKey_kept _ _ _).bind fun factorKey s hs => within_bind.2 (wrapMasterKey_within fun wrapped hwrapped => ?_)
    refine within_get.2 (Kept.bind (db_kept .openDb trivial) (fun _ => ?_) s hs)
    refine (db_kept .getAllKeys trivial).bind fun existing s' hs' => within_bind.2 (sealAll_within existing fun records hrecords => ?_)
    refine within_get.2 (within_bind.2 (sealToken_within _ fun token htoken => ?_))
    refine Kept.bind (db_kept (.enroll ..) ⟨?_, htoken, hwrapped⟩) (fun _ => ?_) s' hs'
    · intro x hx
      obtain ⟨y, hy, rfl⟩ := mem_map.1 hx
      exact hrecords y hy
    · refine (setMasterKey_kept _ _).bind fun _ => (cacheAll_kept _ _).bind fun _ => ?_
      split
      · exact kept_pure _
      · exact (updateTab_kept _ _).bind fun _ => kept_modify fun _ _ => rfl

theorem addFactor_kept (tab : Nat) (kind : FactorKind) (factorKey salt : Bytes) (iterations : Nat) (label : Option String)
    (factorId : Bytes) (nonce : Nonce) :
    (addFactor P tab kind factorKey salt iterations label factorId nonce).Kept (terms P) := by
  refine readLockRecord_kept.bind fun record => ?_
  cases record with
  | none => exact kept_throw _
  | some record =>
    refine (requireMasterKey_kept tab).bind fun mk => (bytesOf_kept mk).bind fun bytes s hs => ?_
    refine within_bind.2 (wrapMasterKey_within fun wrapped hwrapped => within_get.2 ?_)
    exact Kept.bind (db_kept .openDb trivial) (fun _ => db_kept (.putFactor record ⟨kind, bytesToHex factorId, salt, iterations, wrapped, s.now, _⟩) hwrapped) s hs

theorem removeFactor_kept (tab : Nat) (id : String) : (removeFactor tab id).Kept (terms P) := by
  refine readLockRecord_kept.bind fun record => ?_
  cases record with
  | none => exact kept_pure _
  | some record =>
    refine (requireMasterKey_kept tab).bind fun _ => ?_
    dsimp only
    split
    · exact kept_throw _
    · exact writeLockRecord_kept _

theorem updateLockSettings_kept (tab : Nat) (patch : SettingsPatch) : (updateLockSettings tab patch).Kept (terms P) := by
  refine readLockRecord_kept.bind fun record => ?_
  cases record with
  | none => exact kept_pure _
  | some record => exact (requireMasterKey_kept tab).bind fun _ => writeLockRecord_kept _

variable (hA : P.A.Ideal)
include hA

/-- Whatever lies in a slot, what opens there was sealed for it and put there. -/
theorem openAt_kept {slot : Slot} (n : Nat) {unsealed : SealedRecord → Option Bytes}
    (hopens : ∀ record plaintext, unsealed record = some plaintext → ∃ key aad, slot.place.aad = some aad ∧
      P.A.decrypt key record.nonce (textEncode aad) record.ct = some plaintext) :
    (openAt slot n unsealed).Kept (terms P) := by
  intro s hs
  refine within_get.2 (within_bind.2 (orThrow_within fun plaintext hopened => ⟨?_, trivial⟩))
  obtain ⟨x, hx, hunsealed⟩ := Option.bind_eq_some_iff.1 hopened
  have hmem : x ∈ s.stored := mem_of_getElem? hx
  obtain ⟨aad, key, nonce, haad, hrecord⟩ := hs x hmem
  obtain ⟨key', aad', haad', hdecrypts⟩ := hopens _ _ hunsealed
  rw [hrecord] at hdecrypts
  obtain ⟨-, hbytes, hplaintext⟩ := hA.only _ _ _ _ _ _ _ _ hdecrypts
  exact ⟨x, hmem, slot_aad_inj haad haad' hbytes.symm, hplaintext.symm⟩

theorem openJson_kept {parse : Bytes → Option α} {mk : Bytes} {found : Found} {aad : CodeUnits}
    (haad : found.slot.place.aad = some aad) : (openJson P parse mk found aad).Kept (terms P) := by
  refine Kept.bind (openAt_kept hA _ fun record plaintext hopened => ?_) fun _ => orThrow_kept _ _
  exact ⟨mk, aad, haad, openRecord_some hopened⟩

theorem unwrapMasterKey_kept (factorKey : Bytes) (factor : FactorRecord Nat) :
    (unwrapMasterKey P factorKey factor).Kept (terms P) := by
  refine openAt_kept hA _ fun record plaintext hopened => ?_
  unfold Crypto.unwrapMasterKey at hopened
  split at hopened
  · rename_i wk aad hwk haad
    split at hopened
    · rename_i mk hmk
      split at hopened
      · cases hopened
      · cases hopened
        exact ⟨wk, aad, haad, openRecord_some hmk⟩
    · cases hopened
  · cases hopened

/-- The keys of a machine are opened where they are found. -/
theorem openKeys_kept {f : StoredKeys → Lock α} {serverId : String} {found : Found} (mk : Bytes)
    (hfound : found.slot = .keys serverId) (hf : ∀ keys, (f keys).Kept (terms P)) :
    (do f (← openJson P P.parse mk found (← keysAad serverId)) : Lock α).Kept (terms P) := by
  intro s hs
  refine (keysAad_within (Q := fun _ aad => (Slot.keys serverId).place.aad = some aad) fun _ haad => haad).then hs
    fun s' aad hs' haad => ?_
  exact (Kept.bind (openJson_kept hA (hfound ▸ haad)) hf) s' hs'

theorem loadSessionKeys_kept (tab : Nat) (serverId : String) : (loadSessionKeys P tab serverId).Kept (terms P) := by
  refine kept_get_bind fun s hs => ?_
  split
  · exact kept_pure _
  · refine Kept.catching ((db_kept .openDb trivial).bind fun _ => getKeys_kept fun record hfound => ?_) fun _ => kept_pure _
    split
    · exact kept_pure _
    · exact kept_pure _
    · rename_i stored
      refine (masterKey_kept tab).bind fun mk => ?_
      split
      · exact kept_pure _
      · refine (bytesOf_kept _).bind fun bytes => openKeys_kept hA bytes (hfound stored rfl) fun keys => ?_
        exact (cacheKeys_kept _ _ _).bind fun _ => kept_pure _

theorem setSessionLock_kept (tab : Nat) (serverId sessionName : String) (locked : Bool) (nonce : Nonce) :
    (setSessionLock P tab serverId sessionName locked nonce).Kept (terms P) := by
  refine (requireMasterKey_kept tab).bind fun mk => (db_kept .openDb trivial).bind fun _ => getKeys_kept fun record hfound => ?_
  split
  · rename_i stored
    refine (bytesOf_kept _).bind fun bytes => openKeys_kept hA bytes (hfound stored rfl) fun keys => ?_
    refine (bytesOf_kept _).bind fun bytes' s hs => within_bind.2 (keysAad_within fun aad haad => ?_)
    refine within_bind.2 (sealJson_within haad fun x hx => ?_)
    exact Kept.bind (db_kept (.putKeys serverId (.sealed x)) hx) (fun _ => cacheKeys_kept _ _ _) s hs
  · exact kept_throw _

theorem restoreLocalToken_kept (tab mk : Nat) : (restoreLocalToken P tab mk).Kept (terms P) := by
  refine Kept.catching ((db_kept .openDb trivial).bind fun _ => getToken_kept fun token hfound => ?_) fun _ => kept_pure _
  cases token with
  | none => exact kept_pure _
  | some stored =>
    refine (bytesOf_kept mk).bind fun bytes s hs => within_bind.2 (localTokenAad_within fun aad haad => ?_)
    have hslot : stored.slot.place.aad = some aad := by rw [hfound stored rfl, haad]
    exact Kept.bind (openJson_kept hA hslot) (fun _ => updateTab_kept _ _) s hs

theorem unlockWith_kept (tab : Nat) (record : LockRecord) (factor : FactorRecord Nat) (factorKey : Bytes) :
    (unlockWith P tab record factor factorKey).Kept (terms P) := by
  refine Kept.catching ((unwrapMasterKey_kept hA _ _).bind fun mk => (writeLockRecord_kept _).bind fun _ => ?_)
    fun _ => kept_pure _
  exact (setMasterKey_kept _ _).bind fun handle => (restoreLocalToken_kept hA _ _).bind fun _ => kept_pure _

theorem unlockWithPins_kept (tab : Nat) (pin : String) (record : LockRecord) (factors : List (FactorRecord Nat)) :
    (unlockWithPins P tab pin record factors).Kept (terms P) := by
  induction factors with
  | nil => exact kept_pure _
  | cons factor rest ih =>
    refine (derivePinKey_kept _ _ _).bind fun factorKey => (unlockWith_kept hA _ _ _ _).bind fun unlocked => ?_
    split
    · exact kept_pure _
    · exact ih

theorem unlockWithPin_kept (tab : Nat) (pin : String) : (unlockWithPin P tab pin).Kept (terms P) := by
  refine readLockRecord_kept.bind fun record => ?_
  cases record with
  | none => exact kept_pure _
  | some record =>
    refine kept_get_bind fun s hs => ?_
    dsimp only
    split
    · exact kept_pure _
    · split
      · exact kept_pure _
      · refine (writeLockRecord_kept _).bind fun _ => (unlockWithPins_kept hA _ _ _ _).bind fun unlocked => ?_
        split
        · exact kept_pure _
        · split
          · exact (eraseDevice_kept tab).bind fun _ => kept_pure _
          · exact kept_pure _

theorem unlockWithFactorKey_kept (tab : Nat) (factorId : String) (factorKey : Bytes) :
    (unlockWithFactorKey P tab factorId factorKey).Kept (terms P) := by
  refine readLockRecord_kept.bind fun record => ?_
  cases record with
  | none => exact kept_pure _
  | some record =>
    dsimp only
    split
    · exact kept_pure _
    · refine (unlockWith_kept hA _ _ _ _).bind fun unlocked => ?_
      split <;> exact kept_pure _

theorem program_kept (job : Job) : (program P job).Kept (terms P) := by
  cases job with
  | hydrateLockState tab => exact readLockRecord_kept.bind fun _ => updateTab_kept _ _
  | saveSessionKeys tab serverId keys nonce => exact saveSessionKeys_kept _ _ _ _
  | loadSessionKeys tab serverId => exact (loadSessionKeys_kept hA _ _).bind fun _ => kept_pure _
  | clearSessionKeys serverId =>
    exact ((db_kept .openDb trivial).bind fun _ => db_kept (.deleteKeys serverId) trivial).catching fun _ => kept_pure _
  | setSessionLock tab serverId sessionName locked nonce => exact setSessionLock_kept hA _ _ _ _ _
  | enrollPin tab pin label iterations draws => exact enrollPin_kept _ _ _ _ _
  | addFactor tab kind factorKey salt iterations label factorId nonce => exact addFactor_kept _ _ _ _ _ _ _ _
  | removeFactor tab id => exact removeFactor_kept _ _
  | updateLockSettings tab patch => exact updateLockSettings_kept _ _
  | unlockWithPin tab pin => exact (unlockWithPin_kept hA _ _).bind fun _ => kept_pure _
  | unlockWithFactorKey tab factorId factorKey => exact (unlockWithFactorKey_kept hA _ _ _).bind fun _ => kept_pure _
  | eraseDevice tab => exact eraseDevice_kept _

end Functions

section Runs
variable {P : Platform} {s : Stores}

theorem genuine_stored {x : Stored} (hs : Genuine P s) (hx : SealedFor P x.sealing x.slot) :
    ∀ y ∈ s.stored ++ [x], SealedFor P y.sealing y.slot := by
  intro y hy
  cases mem_append.1 hy with
  | inl hold => exact hs y hold
  | inr hnew => exact mem_singleton.1 hnew ▸ hx

theorem genuine_putAll {sealedNow : List (String × Sealing)} (hs : Genuine P s)
    (h : ∀ x ∈ sealedNow, SealedFor P x.2 (.keys x.1)) :
    Genuine P (sealedNow.foldl (fun s x => s.putKeys x.1 (.sealed x.2)) s) := by
  induction sealedNow generalizing s with
  | nil => exact hs
  | cons x rest ih =>
    obtain ⟨hfirst, hrest⟩ := forall_mem_cons.1 h
    exact ih (genuine_stored hs hfirst) hrest

theorem genuine_exec (hs : Genuine P s) {c : DbCall} (h : Puts P c) : Genuine P (s.exec c).1 := by
  cases c with
  | putKeys serverId record =>
    cases record with
    | plain keys => exact hs
    | sealed x => exact genuine_stored hs h
  | putFactor record factor => exact genuine_stored hs h
  | enroll sealedNow token record factor =>
    obtain ⟨hkeys, htoken, hfactor⟩ := h
    have hall := genuine_putAll hs hkeys
    cases token with
    | none => exact genuine_stored hall hfactor
    | some x => exact genuine_stored (genuine_stored hall (htoken x rfl)) hfactor
  | _ => exact hs

theorem foundThere_exec (s : Stores) (c : DbCall) : FoundThere c (.ok (s.exec c).2) := by
  cases c with
  | getKeys serverId =>
    simp only [Stores.exec, FoundThere]
    cases s.keys.get serverId with
    | none => trivial
    | some record => cases record <;> trivial
  | getToken =>
    simp only [Stores.exec, FoundThere]
    cases s.token <;> trivial
  | _ => trivial

/-- Every task keeps to the terms, whatever is rearranged meanwhile. -/
theorem stores_keep (hA : P.A.Ideal) (es : List Event) :
    World.Keeps (fun _ => terms P) (Genuine P) ((stores P).run es) := by
  refine (stores P).run_invariant (I := World.Keeps (fun _ => terms P) (Genuine P)) ?_ ?_ es
  · refine ⟨fun x hx => ?_, fun id r hr => ?_⟩
    · cases hx
    · cases hr
  · intro w e h
    refine keeps_moves ((host P).step_moves w e) h (fun _ => rfl) ?_ ?_ fun job _ => program_kept hA job _ h.inv
    · intro id fails job log c next _ hget
      have hputs : Puts P c := h.asks hget
      simp only [host]
      cases fails with
      | true => exact ⟨h.inv, by cases c <;> trivial⟩
      | false => exact ⟨genuine_exec h.inv hputs, foundThere_exec _ c⟩
    · intro e' _
      cases e' <;> exact h.inv

end Runs

/-- No two places share their associated data. In every run of the functions that seal and open, however the stores are
rearranged between their awaits, what opens in a slot was sealed for that slot and put there before. -/
theorem records_stay (P : Platform) (hA : P.A.Ideal) :
    (∀ (p q : Place) (aad : CodeUnits), p.aad = some aad → q.aad = some aad → p = q) ∧
      ∀ es, ∀ x ∈ (stores P).trace es, ∀ id slot plaintext, (id, .opened slot plaintext) ∈ x.out →
        ∃ y ∈ x.pre.shared.stored, y.slot = slot ∧ SealedFor P y.sealing slot ∧ y.sealing.plaintext = plaintext := by
  refine ⟨fun p q aad hp hq => aad_inj hp hq, fun es x hx id slot plaintext hopened => ?_⟩
  obtain ⟨before, e, later, -, hentry⟩ := ((stores P).mem_trace es x).1 hx
  subst hentry
  have hkeeps := stores_keep hA before
  obtain ⟨job, -, s, hmay, -, y, hy, hslot, hplaintext⟩ := tells_moves ((host P).step_moves _ e) hkeeps (fun _ => rfl)
    (fun job _ => program_kept hA job _ hkeeps.inv) id _ hopened
  have hstored : s.stored = ((stores P).run before).shared.stored := hmay
  rw [hstored] at hy
  exact ⟨y, hy, hslot, hslot ▸ hkeeps.inv y hy, hplaintext⟩

/- A cipher that keeps everything it is bound to. -/

/-- Bytes that carry their own end. -/
def marked : Bytes → Bytes
  | [] => [0]
  | b :: l => 1 :: b :: marked l

/-- The bytes up to the end, and what follows it. -/
def unmarked : Bytes → Option (Bytes × Bytes)
  | 0 :: rest => some ([], rest)
  | 1 :: b :: rest => (unmarked rest).map fun r => (b :: r.1, r.2)
  | _ => none

theorem unmarked_marked (l rest : Bytes) : unmarked (marked l ++ rest) = some (l, rest) := by
  induction l with
  | nil => rfl
  | cons b l ih => simp [marked, unmarked, ih]

def plainTag : Bytes := List.replicate tagLength 0

/-- It checks the key and the data, and hides nothing. -/
def plainAead : Aead where
  encrypt key _ aad data := plainTag ++ (marked key ++ (marked aad ++ data))
  decrypt key _ aad data :=
    match unmarked (data.drop tagLength) with
    | some (key', rest) =>
      match unmarked rest with
      | some (aad', plaintext) => if key' = key ∧ aad' = aad then some plaintext else none
      | none => none
    | none => none

theorem plainAead_decrypt (key nonce aad data key' nonce' aad' : Bytes) :
    plainAead.decrypt key' nonce' aad' (plainAead.encrypt key nonce aad data) =
      if key = key' ∧ aad = aad' then some data else none := by
  have hdrop : (plainTag ++ (marked key ++ (marked aad ++ data))).drop tagLength =
      marked key ++ (marked aad ++ data) := drop_left' (length_replicate)
  simp only [plainAead, hdrop, unmarked_marked]

theorem plainAead_ideal : plainAead.Ideal where
  decrypts key nonce aad data := by simp [plainAead_decrypt]
  only key nonce aad data key' nonce' aad' data' h := by
    rw [plainAead_decrypt] at h
    split at h
    · rename_i hsame
      cases h
      exact ⟨hsame.1.symm, hsame.2.symm, rfl⟩
    · cases h
  length key nonce aad data := by
    simp [plainAead, plainTag]

def plainHkdf (ikm info : Bytes) : Bytes := (marked ikm ++ info).take masterKeyBytes
def someKey : Bytes := List.replicate masterKeyBytes 7
def someNonce : Nonce := ⟨List.replicate nonceBytes 1, length_replicate⟩

/-- For keys of which all but the first are empty, and tokens of the basic Latin letters. -/
def plainPlatform : Platform where
  A := plainAead
  hkdf := plainHkdf
  derive _ salt _ := salt
  stringify keys := keys.c2s
  parse bytes := some ⟨bytes, [], [], "", none⟩
  stringifyToken := utf8ToBytes
  parseToken bytes := some (String.ofList (bytes.map fun b => Char.ofNat b.toNat))

def carriedOn (id awaits : Nat) : List Event := (List.replicate awaits [.exec id false, .resume id]).flatten

def plainLock : LockRecord :=
  ⟨[⟨.pin, "0102030405060708", [5], 1, 1, 0, none⟩], 0, none, false, 6, 15, false, 0⟩

/-- The keys of two machines, in this order. -/
def twoKeys (first second : Nat) : OrderedMap String (KeyRecord Nat) :=
  (OrderedMap.empty.set "aaaaaaaaaaaaaaaa" (.sealed first)).set "bbbbbbbbbbbbbbbb" (.sealed second)

/-- A device with a token gets a lock, and the keys of two machines. Somebody swaps these while another tab unlocks the
device, which then asks for the first machine's keys; they are not there until they are back in their place. -/
def swapped : List Event :=
  [.other (.keepsToken (some "tok")), .start (.enrollPin 0 "123456" none 1
    ⟨someKey, [5], [1, 2, 3, 4, 5, 6, 7, 8], someNonce, someNonce, fun _ => someNonce⟩)] ++ carriedOn 0 6 ++
  [.start (.saveSessionKeys 0 "aaaaaaaaaaaaaaaa" ⟨[1], [], [], "", none⟩ someNonce),
    .start (.saveSessionKeys 0 "bbbbbbbbbbbbbbbb" ⟨[2], [], [], "", none⟩ someNonce)] ++ carriedOn 1 2 ++ carriedOn 2 2 ++
  [.start (.unlockWithPin 1 "123456"), .other (.rearranges (twoKeys 3 2) (some 0) (some plainLock))] ++ carriedOn 3 9 ++
  .start (.loadSessionKeys 1 "aaaaaaaaaaaaaaaa") :: carriedOn 4 2 ++
  [.other (.rearranges (twoKeys 2 3) (some 0) (some plainLock)), .start (.loadSessionKeys 1 "aaaaaaaaaaaaaaaa")] ++
    carriedOn 5 2

theorem records_stay_swapped : (stores plainPlatform).outputs swapped =
      [(3, .opened (.factor .pin "0102030405060708") someKey), (3, .opened .localToken (utf8ToBytes "tok")),
        (5, .opened (.keys "aaaaaaaaaaaaaaaa") [1])] ∧
    ∀ x ∈ (stores plainPlatform).trace swapped, ∀ id slot plaintext, (id, .opened slot plaintext) ∈ x.out →
      ∃ y ∈ x.pre.shared.stored, y.slot = slot ∧ SealedFor plainPlatform y.sealing slot ∧
        y.sealing.plaintext = plaintext :=
  ⟨by decide +kernel, (records_stay plainPlatform plainAead_ideal).2 swapped⟩

end Mtmux.Browser.Sealed
