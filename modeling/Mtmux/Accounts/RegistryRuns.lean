import Mathlib.Data.List.Pairwise
import Mtmux.Accounts.Registry

/-! The registry over a run: ids keep their account, and the table keeps its indexes. -/
namespace Mtmux.Accounts
open Async List

abbrev RegistryHistory : Type := Nat → Option (RegistryCall × DbLog)

theorem pickSlug_new (taken : List String) (base randomHex : String) :
    pickSlug taken base randomHex ∉ taken ∨ pickSlug taken base randomHex = base ++ "-" ++ randomHex := by
  unfold pickSlug
  generalize (List.range 998).map (fun n => numbered base (n + 2)) = names
  by_cases hbase : base ∉ taken
  · rw [if_pos hbase]
    exact .inl hbase
  · rw [if_neg hbase]
    cases hfound : names.find? fun candidate => decide (candidate ∉ taken) with
    | none => exact .inr rfl
    | some candidate =>
      have hnew := List.find?_some hfound
      exact .inl (of_decide_eq_true hnew)

/- One statement on the table. -/

section Exec
variable {db : AccountDb} {c : Statement} {fate : Fate}

variable {f : ServerRow → ServerRow}

theorem mem_changeServers {p : ServerRow → Bool} {row : ServerRow} :
    row ∈ (db.changeServers p f).servers ↔ ∃ old ∈ db.servers, (if p old then f old else old) = row := mem_map

theorem row_of_exec {row : ServerRow} (h : row ∈ (db.exec c fate).1.servers) :
    (∃ old ∈ db.servers, old.id = row.id ∧ old.userId = row.userId ∧ old.publicKey = row.publicKey) ∨
      c = .insertServer row ∧ ∀ old ∈ db.servers, AccountDb.collides row old = false := by
  have hchange : ∀ {p : ServerRow → Bool} {f : ServerRow → ServerRow}, row ∈ (db.changeServers p f).servers →
      (∀ r, (f r).id = r.id ∧ (f r).userId = r.userId ∧ (f r).publicKey = r.publicKey) →
      ∃ old ∈ db.servers, old.id = row.id ∧ old.userId = row.userId ∧ old.publicKey = row.publicKey := by
    intro p f hrow hf
    obtain ⟨old, hold, rfl⟩ := mem_changeServers.1 hrow
    refine ⟨old, hold, ?_⟩
    split
    · exact ⟨(hf old).1.symm, (hf old).2.1.symm, (hf old).2.2.symm⟩
    · exact ⟨rfl, rfl, rfl⟩
  cases fate with
  | fails => cases c <;> exact .inl ⟨row, h, rfl, rfl, rfl⟩
  | works =>
    cases c with
    | touchServer _ _ _ _ _ | heartbeatServer _ _ _ => exact .inl (hchange h fun r => ⟨rfl, rfl, rfl⟩)
    | renameServer id owner name slug =>
      simp only [AccountDb.exec] at h
      split at h
      · exact .inl ⟨row, h, rfl, rfl, rfl⟩
      · exact .inl (hchange h fun r => ⟨rfl, rfl, rfl⟩)
    | deleteServer id owner => exact .inl ⟨row, mem_of_mem_filter h, rfl, rfl, rfl⟩
    | insertServer added =>
      simp only [AccountDb.exec] at h
      split at h
      · exact .inl ⟨row, h, rfl, rfl, rfl⟩
      · rename_i hfree
        cases mem_append.1 h with
        | inl hold => exact .inl ⟨row, hold, rfl, rfl, rfl⟩
        | inr hnew =>
          cases mem_singleton.1 hnew
          refine .inr ⟨rfl, ?_⟩
          intro old hold
          by_contra hcollides
          exact hfree (any_eq_true.2 ⟨old, hold, by simpa using hcollides⟩)
    | startTrial id startedAt endsAt =>
      have hsame : (db.startTrial id startedAt endsAt).1.servers = db.servers := by
        unfold AccountDb.startTrial
        split
        · rfl
        · split
          · rfl
          · rfl
      change row ∈ (db.startTrial id startedAt endsAt).1.servers at h
      rw [hsame] at h
      exact .inl ⟨row, h, rfl, rfl, rfl⟩
    | _ => exact .inl ⟨row, h, rfl, rfl, rfl⟩

theorem collides_comm (a b : ServerRow) : AccountDb.collides a b = AccountDb.collides b a := by
  simp only [AccountDb.collides, eq_comm]

theorem Unique.eq {rows : List ServerRow} (h : Unique rows) {a b : ServerRow} (ha : a ∈ rows) (hb : b ∈ rows)
    (hcollides : AccountDb.collides a b = true) : a = b := by
  by_contra hne
  have hsymm : Std.Symm fun a b => AccountDb.collides a b = false := ⟨fun a b hab => (collides_comm b a).trans hab⟩
  have hapart := List.Pairwise.forall h ha hb hne
  rw [hcollides] at hapart
  cases hapart

theorem Unique.change {rows : List ServerRow} (h : Unique rows) {p : ServerRow → Bool}

    (hf : ∀ a ∈ rows, ∀ b ∈ rows, AccountDb.collides a b = false →
      AccountDb.collides (if p a then f a else a) (if p b then f b else b) = false) :
    Unique (rows.map fun row => if p row then f row else row) := by
  unfold Unique
  rw [pairwise_map]
  exact List.Pairwise.imp_of_mem (fun ha hb hab => hf _ ha _ hb hab) h

theorem unique_rename {id owner name slug : String} (h : Unique db.servers)
    (hfree : ¬ db.renameCollides id owner slug = true) : Unique (db.changeServers (AccountDb.owned id owner)
      (fun row => { row with name := name, slug := slug })).servers := by
  have hslug : ∀ a ∈ db.servers, AccountDb.owned id owner a = true → ∀ b ∈ db.servers, b.userId = owner →
      b.slug = slug → b.id = id := by
    intro a ha hmine b hb huser hslug
    by_contra hne
    refine hfree ?_
    simp only [AccountDb.renameCollides, Bool.and_eq_true, any_eq_true, decide_eq_true_eq]
    exact ⟨⟨a, ha, hmine⟩, b, hb, ⟨huser, hslug⟩, hne⟩
  have hmine : ∀ a : ServerRow, AccountDb.owned id owner a = true → a.id = id ∧ a.userId = owner := by
    intro a ha
    simpa [AccountDb.owned] using ha
  refine Unique.change h ?_
  intro a ha b hb hab
  simp only [AccountDb.collides, Bool.or_eq_false_iff, decide_eq_false_iff_not, Bool.and_eq_false_iff] at hab ⊢
  obtain ⟨⟨hid, hkey⟩, hslugs⟩ := hab
  by_cases hpa : AccountDb.owned id owner a = true
  · obtain ⟨hida, husera⟩ := hmine a hpa
    by_cases hpb : AccountDb.owned id owner b = true
    · exact absurd (hida.trans (hmine b hpb).1.symm) hid
    · rw [if_pos hpa, if_neg hpb]
      refine ⟨⟨hid, hkey⟩, ?_⟩
      by_cases huser : a.userId = b.userId
      · refine .inr ?_
        intro hsame
        exact hid (hida.trans (hslug a ha hpa b hb (huser.symm.trans husera) hsame.symm).symm)
      · exact .inl huser
  · rw [if_neg hpa]
    by_cases hpb : AccountDb.owned id owner b = true
    · obtain ⟨hidb, huserb⟩ := hmine b hpb
      rw [if_pos hpb]
      refine ⟨⟨hid, hkey⟩, ?_⟩
      by_cases huser : a.userId = b.userId
      · refine .inr ?_
        intro hsame
        exact hid ((hslug b hb hpb a ha (huser.trans huserb) hsame).trans hidb.symm)
      · exact .inl huser
    · rw [if_neg hpb]
      exact ⟨⟨hid, hkey⟩, hslugs⟩

/-- The indexes are enforced. -/
theorem unique_exec (h : Unique db.servers) : Unique (db.exec c fate).1.servers := by
  have hkeep : ∀ {p : ServerRow → Bool} {f : ServerRow → ServerRow},
      (∀ r, (f r).id = r.id ∧ (f r).userId = r.userId ∧ (f r).publicKey = r.publicKey ∧ (f r).slug = r.slug) →
      Unique (db.changeServers p f).servers := by
    intro p f hf
    refine Unique.change h ?_
    intro a ha b hb hab
    have hsame : ∀ r : ServerRow, (if p r then f r else r).id = r.id ∧ (if p r then f r else r).userId = r.userId ∧
        (if p r then f r else r).publicKey = r.publicKey ∧ (if p r then f r else r).slug = r.slug := by
      intro r
      split
      · exact hf r
      · exact ⟨rfl, rfl, rfl, rfl⟩
    obtain ⟨hid, huser, hkey, hslug⟩ := hsame a
    obtain ⟨hid', huser', hkey', hslug'⟩ := hsame b
    unfold AccountDb.collides at hab ⊢
    rw [hid, huser, hkey, hslug, hid', huser', hkey', hslug']
    exact hab
  cases fate with
  | fails => cases c <;> exact h
  | works =>
    cases c with
    | touchServer _ _ _ _ _ | heartbeatServer _ _ _ => exact hkeep fun r => ⟨rfl, rfl, rfl, rfl⟩
    | deleteServer id owner => exact List.Pairwise.filter _ h
    | insertServer added =>
      simp only [AccountDb.exec]
      split
      · exact h
      · rename_i hfree
        refine pairwise_append.2 ⟨h, pairwise_singleton _ _, ?_⟩
        intro a ha b hb
        cases mem_singleton.1 hb
        rw [collides_comm]
        by_contra hcollides
        exact hfree (any_eq_true.2 ⟨a, ha, by simpa using hcollides⟩)
    | renameServer id owner name slug =>
      simp only [AccountDb.exec]
      split
      · exact h
      · rename_i hfree
        exact unique_rename h hfree
    | startTrial id startedAt endsAt =>
      change Unique (db.startTrial id startedAt endsAt).1.servers
      unfold AccountDb.startTrial
      split
      · exact h
      · split
        · exact h
        · exact h
    | _ => exact h

end Exec

/- Whose ids they are. -/

def draws (id : String) (call : RegistryCall) (_ : DbLog) : Prop := call.drawnId = some id

def inserts (_ : RegistryCall) (log : DbLog) : Prop := ∃ x ∈ log, ∃ row, x.1 = .insertServer row

def Owns (db : AccountDb) (h : RegistryHistory) (id userId : String) : Prop :=
  (∃ row ∈ db.servers, row.id = id ∧ row.userId = userId) ∨
    ∃ i, Holds h (fun call _ => call.drawnId = some id ∧ call.userId = userId) i

structure Registered (db : AccountDb) (s : AccountDb) (h : RegistryHistory) : Prop where
  unique : Unique s.servers
  owned : ∀ row ∈ s.servers, Owns db h row.id row.userId
  read : ∀ {i key row}, Heard h ⟨.selectServer key, .ok (some row)⟩ i → Owns db h row.id row.userId
  drawn : ∀ {i j id}, Holds h (draws id) i → Holds h (draws id) j → i = j
  new : ∀ {i id}, Holds h (draws id) i → ∀ row ∈ db.servers, row.id ≠ id
  inserted : ∀ {i id}, Holds h (draws id) i → ∀ row ∈ s.servers, row.id = id → Holds h inserts i

section Owners
variable {db s : AccountDb} {h h' : RegistryHistory} {i : Nat} {call : RegistryCall} {log : DbLog}
  {id userId userId' : String}

theorem Registered.one (hreg : Registered db s h) (hdb : Unique db.servers)
    (howns : Owns db h id userId) (howns' : Owns db h id userId') : userId = userId' := by
  cases howns with
  | inl hfirst =>
    obtain ⟨row, hrow, rfl, rfl⟩ := hfirst
    cases howns' with
    | inl hsecond =>
      obtain ⟨row', hrow', hid, rfl⟩ := hsecond
      rw [hdb.eq hrow hrow' (by simp [AccountDb.collides, hid])]
    | inr hsecond =>
      obtain ⟨j, call', log', hj, hid, -⟩ := hsecond
      exact absurd rfl (hreg.new ⟨call', log', hj, hid⟩ row hrow)
  | inr hfirst =>
    obtain ⟨j, call', log', hj, hid, rfl⟩ := hfirst
    cases howns' with
    | inl hsecond =>
      obtain ⟨row', hrow', rfl, -⟩ := hsecond
      exact absurd rfl (hreg.new ⟨call', log', hj, hid⟩ row' hrow')
    | inr hsecond =>
      obtain ⟨k, call'', log'', hk, hid', rfl⟩ := hsecond
      obtain rfl := hreg.drawn ⟨call', log', hj, hid⟩ ⟨call'', log'', hk, hid'⟩
      rw [hj] at hk
      cases hk
      rfl

theorem Owns.mono (hmore : ∀ {p : RegistryCall → Prop} {j}, Holds h (fun call _ => p call) j →
    Holds h' (fun call _ => p call) j) (howns : Owns db h id userId) : Owns db h' id userId :=
  howns.imp_right fun hdrawn => hdrawn.imp fun _ => hmore

theorem Registered.start (hreg : Registered db s h) (hi : h i = none)
    (hnew : ∀ id, call.drawnId = some id → (∀ row ∈ db.servers, row.id ≠ id) ∧ ∀ j, ¬ Holds h (draws id) j) :
    Registered db s (Function.update h i (some (call, []))) := by
  have hunknown : ∀ id, call.drawnId = some id → ∀ row ∈ s.servers, row.id ≠ id := by
    rintro id hid row hrow rfl
    cases hreg.owned row hrow with
    | inl hfirst =>
      obtain ⟨row', hrow', hsame, -⟩ := hfirst
      exact (hnew _ hid).1 row' hrow' hsame
    | inr hdrawn =>
      obtain ⟨j, call', log', hj, hsame, -⟩ := hdrawn
      exact (hnew _ hid).2 j ⟨call', log', hj, hsame⟩
  have howns : ∀ {id userId}, Owns db h id userId → Owns db (Function.update h i (some (call, []))) id userId :=
    Owns.mono fun hj => (holds_start hi).2 (.inr hj)
  refine ⟨hreg.unique, fun row hrow => howns (hreg.owned row hrow),
    fun hheard => howns (hreg.read ((heard_start hi).1 hheard)), ?_, ?_, ?_⟩
  · intro j k id hj hk
    cases (holds_start hi).1 hj with
    | inl hhere =>
      cases (holds_start hi).1 hk with
      | inl hhere' => rw [hhere.1, hhere'.1]
      | inr hthere' => exact absurd hthere' ((hnew id hhere.2).2 k)
    | inr hthere =>
      cases (holds_start hi).1 hk with
      | inl hhere' => exact absurd hthere ((hnew id hhere'.2).2 j)
      | inr hthere' => exact hreg.drawn hthere hthere'
  · intro j id hj
    cases (holds_start hi).1 hj with
    | inl hhere => exact (hnew id hhere.2).1
    | inr hthere => exact hreg.new hthere
  · intro j id hj row hrow hsame
    cases (holds_start hi).1 hj with
    | inl hhere => exact absurd hsame (hunknown id hhere.2 row hrow)
    | inr hthere => exact (holds_start hi).2 (.inr (hreg.inserted hthere row hrow hsame))

theorem registered_exec {normalizeNfkd toLowerCase : List Char → List Char} {c : Statement} {fate : Fate}
    {next : Except DbError (Answer c) → DbTask RegistryAnswer} (hreg : Registered db s h) (hi : h i = some (call, log))
    (hreach : (call.program normalizeNfkd toLowerCase).Reaches log (.await c next)) : Registered db (s.exec c fate).1
      (Function.update h i (some (call, log ++ [⟨c, (s.exec c fate).2⟩]))) := by
  have hinsert : ∀ row, c = .insertServer row → call.drawnId = some row.id ∧ call.userId = row.userId := by
    intro row he
    obtain ⟨userId, input, drawnId, randomHex, first, rows, rfl, -, -, hid, huser, -⟩ :=
      ((asks_call hreach).2.1 row he).steps
    exact ⟨by rw [hid]; rfl, huser.symm⟩
  have howns : ∀ {id userId}, Owns db h id userId →
      Owns db (Function.update h i (some (call, log ++ [⟨c, (s.exec c fate).2⟩]))) id userId :=
    Owns.mono (holds_job hi).2
  refine ⟨unique_exec hreg.unique, ?_, ?_, fun hj hk => hreg.drawn ((holds_job hi).1 hj) ((holds_job hi).1 hk),
    fun hj => hreg.new ((holds_job hi).1 hj), ?_⟩
  · intro row hrow
    cases row_of_exec hrow with
    | inl hold =>
      obtain ⟨old, hmem, hid, huser, -⟩ := hold
      rw [← hid, ← huser]
      exact howns (hreg.owned old hmem)
    | inr hnew => exact .inr ⟨i, call, _, Function.update_self _ _ _, hinsert row hnew.1⟩
  · intro j key row hheard
    cases (heard_answer hi).1 hheard with
    | inl hold => exact howns (hreg.read hold)
    | inr hnew =>
      have hx := hnew.1
      have hc : c = .selectServer key := (congrArg Sigma.fst hx).symm
      subst hc
      cases fate with
      | fails => cases hx
      | works =>
        simp only [AccountDb.exec, Sigma.mk.injEq, heq_eq_eq, Except.ok.injEq, true_and] at hx
        exact howns (hreg.owned row (mem_of_find?_eq_some hx.symm))
  · intro j id hj row hrow hsame
    have hdrawn := (holds_job hi).1 hj
    rw [holds_update]
    cases row_of_exec hrow with
    | inl hold =>
      obtain ⟨old, hmem, holdId, -⟩ := hold
      have hbefore := hreg.inserted hdrawn old hmem (holdId.trans hsame)
      split
      · rename_i hji
        subst hji
        obtain ⟨x, hx, hrow'⟩ := (holds_here hi).1 hbefore
        exact ⟨x, mem_append_left _ hx, hrow'⟩
      · exact hbefore
    | inr hnew =>
      rw [if_pos (hreg.drawn hdrawn ((holds_here hi).2 (hsame ▸ (hinsert row hnew.1).1)))]
      exact ⟨_, mem_append_right _ (mem_singleton_self _), row, hnew.1⟩

end Owners

theorem registryCall_readOnly (normalizeNfkd toLowerCase : List Char → List Char) (call : RegistryCall) :
    (call.program normalizeNfkd toLowerCase).ReadOnly := by
  have hclock : dateNow.ReadOnly := fun db => trivial
  have hslug : ∀ userId name exceptId randomHex,
      (uniqueSlug normalizeNfkd toLowerCase userId name exceptId randomHex).ReadOnly :=
    fun _ _ _ _ => readOnly_bind (readOnly_call _) fun _ => trivial
  cases call with
  | register userId input drawnId randomHex =>
    refine readOnly_bind (readOnly_bind (readOnly_call _) fun existing => ?_) fun _ => trivial
    cases existing with
    | some row =>
      dsimp only
      split
      · trivial
      · exact readOnly_bind hclock fun now => readOnly_bind (readOnly_call _) fun _ => trivial
    | none =>
      refine readOnly_bind (program_readOnly (.serverLimit userId)) fun decision => ?_
      split
      · trivial
      · refine readOnly_bind (hslug _ _ _ _) fun slug => ?_
        exact readOnly_bind hclock fun now => readOnly_bind (readOnly_call _) fun _ => trivial
  | heartbeat userId serverId =>
    refine readOnly_bind (readOnly_bind hclock fun now => ?_) fun _ => trivial
    exact readOnly_bind (readOnly_call _) fun _ => trivial
  | rename userId serverId name randomHex =>
    refine readOnly_bind (readOnly_bind (hslug _ _ _ _) fun slug => ?_) fun _ => trivial
    exact readOnly_bind (readOnly_call _) fun _ => trivial
  | remove userId serverId =>
    exact readOnly_bind (readOnly_bind (readOnly_call _) fun _ => trivial) fun _ => trivial

end Mtmux.Accounts
