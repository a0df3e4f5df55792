import Mtmux.Accounts.RegistryRuns

/-! The registry under calls that come between one another. -/
namespace Mtmux.Accounts
open Billing Machine Async List

section Steps
variable {normalizeNfkd toLowerCase : List Char → List Char} {db : AccountDb} {w : RegistryWorld}

theorem servers_step (hstands : ∀ i r, w.tasks.get i = some r → r.Stands (registryHost normalizeNfkd toLowerCase))
    (hfresh : ∀ i r, w.tasks.get i = some r → i < w.next) (e : RegistryEvent) :
    ((registryHost normalizeNfkd toLowerCase).step w e).1.shared.servers = w.shared.servers ∨
      ∃ c fate, ((registryHost normalizeNfkd toLowerCase).step w e).1.shared = (w.shared.exec c fate).1 := by
  refine history_step (I := fun s _ => s.servers = w.shared.servers ∨
    ∃ c fate, s = (w.shared.exec c fate).1) (registryCall_readOnly normalizeNfkd toLowerCase) hstands hfresh
    (.inl rfl) ?_ ?_ ?_
  · intro call he hnone
    exact .inl rfl
  · intro i fate call log c next he hget hreach
    exact .inr ⟨c, fate, rfl⟩
  · intro e' he
    cases e' with
    | mirrors _ _ _ | passes _ => exact .inl rfl

theorem step_exec {i : Nat} {fate : Fate} {call : RegistryCall} {log : DbLog} {c : Statement}
    {next : Except DbError (Answer c) → DbTask RegistryAnswer}
    (hget : w.tasks.get i = some ⟨call, log, .asking c next⟩) :
    ((registryHost normalizeNfkd toLowerCase).step w (.exec i fate)).1.shared = (w.shared.exec c fate).1 := by
  simp only [Async.Host.step]
  rw [hget]
  rfl

theorem registered_run (hdb : Unique db.servers) (es : List RegistryEvent)
    (h : ∀ x ∈ (registryMachine normalizeNfkd toLowerCase db).trace es,
      RegistryWorld.inOrder normalizeNfkd toLowerCase db x.pre x.event = true) :
    Registered db ((registryMachine normalizeNfkd toLowerCase db).run es).shared
      ((registryMachine normalizeNfkd toLowerCase db).run es).history := by
  induction es using List.reverseRecOn with
  | nil =>
    refine ⟨hdb, fun row hrow => .inl ⟨row, hrow, rfl, rfl⟩, ?_, ?_, ?_, ?_⟩
    · rintro i key row ⟨_, _, hi, -⟩
      cases hi
    · rintro i j id ⟨_, _, hi, -⟩
      cases hi
    · rintro i id ⟨_, _, hi, -⟩
      cases hi
    · rintro i id ⟨_, _, hi, -⟩
      cases hi
  | append_singleton es e ih =>
    obtain ⟨hpast, horder⟩ := forall_trace_snoc h
    have hbefore := ih hpast
    rw [run_snoc]
    refine history_step (I := fun s h => Registered db s h)
      (registryCall_readOnly normalizeNfkd toLowerCase)
      (stands_run (registryHost normalizeNfkd toLowerCase) db es)
      (fresh_run (registryHost normalizeNfkd toLowerCase) db es) hbefore ?_ ?_ ?_
    · intro call he hnone
      refine hbefore.start hnone ?_
      intro id hid
      cases call with
      | register userId input drawnId randomHex =>
        cases hid
        subst he
        change RegistryWorld.inOrder _ _ _ _ (.start (.register userId input _ randomHex)) = true at horder
        simp only [RegistryWorld.inOrder, Bool.and_eq_true, all_eq_true, decide_eq_true_eq] at horder
        refine ⟨horder.1, ?_⟩
        rintro j ⟨call', log', hj, hdrawn⟩
        obtain ⟨stage, hget⟩ := Async.World.history_some hj
        exact horder.2 _ (mem_map_of_mem ((OrderedMap.get_eq_some _ _ _).1 hget)) hdrawn
      | _ => cases hid
    · intro i fate call log c next he hget hreach
      exact registered_exec hbefore (Async.World.history_get hget) hreach
    · intro e' he
      cases e' with
      | mirrors _ _ _ | passes _ => exact ⟨hbefore.1, hbefore.2, hbefore.3, hbefore.4, hbefore.5, hbefore.6⟩

end Steps

section Exec
variable {normalizeNfkd toLowerCase : List Char → List Char} {db s : AccountDb} {h : RegistryHistory}
  {i : Nat} {call : RegistryCall} {log : DbLog} {c : Statement} {fate : Fate}
  {next : Except DbError (Answer c) → DbTask RegistryAnswer}

theorem stays_exec (hunique : Unique s.servers) {row row' : ServerRow} (hrow : row ∈ s.servers)
    (hrow' : row' ∈ (s.exec c fate).1.servers) (hkey : row'.publicKey = row.publicKey) : row'.userId = row.userId := by
  cases row_of_exec hrow' with
  | inl hold =>
    obtain ⟨old, hmem, -, huser, hsame⟩ := hold
    obtain rfl := hunique.eq hmem hrow (by simp [AccountDb.collides, hsame, hkey])
    exact huser.symm
  | inr hnew =>
    have hapart := hnew.2 row hrow
    simp [AccountDb.collides, hkey] at hapart

variable {row : ServerRow}

theorem changeServers_other {p : ServerRow → Bool} {f : ServerRow → ServerRow}
    (hp : ∀ r ∈ s.servers, r.userId = row.userId → p r = false) (hf : ∀ r, (f r).userId = r.userId) :
    row ∈ (s.changeServers p f).servers ↔ row ∈ s.servers := by
  rw [mem_changeServers]
  constructor
  · rintro ⟨old, hold, rfl⟩
    by_cases hpo : p old = true
    · rw [if_pos hpo] at hp
      rw [hp old hold (hf old).symm] at hpo
      cases hpo
    · rw [if_neg hpo]
      exact hold
  · intro hrow
    refine ⟨row, hrow, ?_⟩
    rw [hp row hrow rfl]
    rfl

/-- Nothing is done to a row of another account. -/
theorem others_exec (hdb : Unique db.servers) (hreg : Registered db s h) (hi : h i = some (call, log))
    (hreach : (call.program normalizeNfkd toLowerCase).Reaches log (.await c next))
    (hrow : row.userId ≠ call.userId) : row ∈ (s.exec c fate).1.servers ↔ row ∈ s.servers := by
  have hscoped := (asks_call hreach).1
  have howned : ∀ {id owner : String}, owner = call.userId → ∀ r ∈ s.servers, r.userId = row.userId →
      AccountDb.owned id owner r = false := by
    intro id owner howner r _ hr
    have hne : ¬ r.userId = owner := by
      rw [hr, howner]
      exact hrow
    simp [AccountDb.owned, hne]
  cases fate with
  | fails => cases c <;> exact Iff.rfl
  | works =>
    cases c with
    | touchServer id hostname platform cliVersion now =>
      refine changeServers_other ?_ fun r => rfl
      intro r hr huser
      refine decide_eq_false ?_
      intro hid
      obtain ⟨key, read, hmem, hreadId, hreadUser⟩ := hscoped
      have hread := hreg.read ((holds_here hi).2 hmem)
      have hmine := hreg.owned r hr
      rw [hreadId, hreadUser] at hread
      rw [hid] at hmine
      exact hrow (huser.symm.trans (hreg.one hdb hmine hread))
    | heartbeatServer id owner now => exact changeServers_other (howned hscoped) fun r => rfl
    | renameServer id owner name slug =>
      simp only [AccountDb.exec]
      split
      · exact Iff.rfl
      · exact changeServers_other (howned hscoped) fun r => rfl
    | deleteServer id owner =>
      change row ∈ s.servers.filter _ ↔ _
      rw [mem_filter]
      constructor
      · exact fun hmem => hmem.1
      · intro hmem
        exact ⟨hmem, by rw [howned hscoped row hmem rfl]; rfl⟩
    | insertServer added =>
      simp only [AccountDb.exec]
      split
      · exact Iff.rfl
      · rw [mem_append, mem_singleton]
        constructor
        · intro hmem
          cases hmem with
          | inl hold => exact hold
          | inr hnew =>
            rw [hnew] at hrow
            exact absurd hscoped hrow
        · exact Or.inl
    | startTrial id startedAt endsAt =>
      change row ∈ (s.startTrial id startedAt endsAt).1.servers ↔ _
      unfold AccountDb.startTrial
      split
      · exact Iff.rfl
      · split
        · exact Iff.rfl
        · exact Iff.rfl
    | _ => exact Iff.rfl

/-- The picked slug is not in use by another machine, where nobody has taken it since. -/
theorem picked_unused {userId id base randomHex : String} {exceptId : Option String}
    {first : DbLog} {rows : List (String × String)}
    (hfree : slugUntaken s userId id (pickSlug (takenSlugs rows exceptId) base randomHex)
      (first ++ [⟨.selectSlugs userId, .ok rows⟩]) = true)
    (hlast : lastResortFree base randomHex (pickSlug (takenSlugs rows exceptId) base randomHex)
      (first ++ [⟨.selectSlugs userId, .ok rows⟩]) = true) {old : ServerRow}
    (hold : old ∈ s.servers) (huser : old.userId = userId) (hid : old.id ≠ id) (hexcept : some old.id ≠ exceptId) :
    old.slug ≠ pickSlug (takenSlugs rows exceptId) base randomHex := by
  intro hslug
  have hread : ∀ p : List (String × String) → Bool,
      readSlugs (first ++ [⟨.selectSlugs userId, .ok rows⟩]) p = true → p rows = true := by
    intro p hp
    exact all_eq_true.1 hp ⟨.selectSlugs userId, .ok rows⟩ (by simp)
  have hseen := all_eq_true.1 hfree old hold
  have hmem : (old.id, old.slug) ∈ rows := by
    simp only [huser, hid, hslug, decide_true, Bool.and_true, Bool.not_true, Bool.false_or, ne_eq,
      not_false_eq_true] at hseen
    have hin := hread _ hseen
    rw [hslug]
    exact of_decide_eq_true hin
  have htaken : old.slug ∈ takenSlugs rows exceptId :=
    mem_map.2 ⟨_, mem_filter.2 ⟨hmem, decide_eq_true hexcept⟩, rfl⟩
  cases pickSlug_new (takenSlugs rows exceptId) base randomHex with
  | inl hnew => exact hnew (hslug ▸ htaken)
  | inr hresort =>
    rw [lastResortFree, decide_eq_false (not_not.2 hresort), Bool.false_or] at hlast
    have hnone := all_eq_true.1 (hread _ hlast) _ hmem
    exact of_decide_eq_true hnone hslug

theorem insert_answered (hreg : Registered db s h) (hi : h i = some (call, log))
    (hinserts : Inserts normalizeNfkd toLowerCase call log row)
    (hkey : ∀ old ∈ s.servers, old.publicKey ≠ row.publicKey)
    (hfree : slugUntaken s row.userId row.id row.slug log = true)
    (hlast : call.lastResortFree normalizeNfkd toLowerCase row.slug log = true) :
    s.servers.any (AccountDb.collides row) = false := by
  obtain ⟨userId, input, drawnId, randomHex, first, rows, rfl, rfl, hfirst, hid, huser, hslug⟩ := hinserts.steps
  have hnew : ∀ old ∈ s.servers, old.id ≠ row.id := by
    intro old hold hsame
    have hdrawn := hreg.inserted ((holds_here hi).2 rfl) old hold (hsame.trans hid)
    obtain ⟨x, hx, row', he⟩ := (holds_here hi).1 hdrawn
    cases mem_append.1 hx with
    | inl hbefore => exact hfirst x hbefore row' he
    | inr hnow =>
      rw [mem_singleton.1 hnow] at he
      cases he
  rw [any_eq_false]
  intro old hold hcollides
  simp only [AccountDb.collides, Bool.or_eq_true, Bool.and_eq_true, decide_eq_true_eq] at hcollides
  obtain (hsame | hsame) | hsame := hcollides
  · exact hnew old hold hsame.symm
  · exact hkey old hold hsame.symm
  · rw [RegistryCall.lastResortFree, hslug] at hlast
    rw [hslug, huser] at hfree
    refine picked_unused hfree hlast hold (hsame.1.symm.trans huser) (hnew old hold) (by simp) ?_
    rw [← hsame.2, hslug]

theorem rename_answered {id owner name randomHex : String} {rows : List (String × String)}
    (hfree : slugUntaken s owner id
      (pickSlug (takenSlugs rows (some id)) (slugify normalizeNfkd toLowerCase name) randomHex)
      [⟨.selectSlugs owner, .ok rows⟩] = true)
    (hlast : lastResortFree (slugify normalizeNfkd toLowerCase name) randomHex
      (pickSlug (takenSlugs rows (some id)) (slugify normalizeNfkd toLowerCase name) randomHex)
      [⟨.selectSlugs owner, .ok rows⟩] = true) : s.renameCollides id owner
      (pickSlug (takenSlugs rows (some id)) (slugify normalizeNfkd toLowerCase name) randomHex) = false := by
  rw [AccountDb.renameCollides, Bool.and_eq_false_iff]
  refine .inr ?_
  rw [any_eq_false]
  intro old hold hcollides
  simp only [Bool.and_eq_true, decide_eq_true_eq] at hcollides
  obtain ⟨⟨huser, hslug⟩, hid⟩ := hcollides
  exact @picked_unused s owner id _ randomHex (some id) [] rows hfree hlast old hold huser hid (by simpa using hid) hslug

theorem countServers_insert (row : ServerRow) (userId : String) :
    (s.exec (.insertServer row) fate).1.countServers userId ≤ s.countServers userId + 1 := by
  cases fate with
  | fails => exact Nat.le_succ _
  | works =>
    simp only [AccountDb.exec]
    split
    · exact Nat.le_succ _
    · simp only [AccountDb.countServers, countP_append, countP_singleton]
      split
      · exact Nat.le_refl _
      · exact Nat.le_succ _

end Exec

/-- While the calls come in order, the registry keeps what it promises. -/
theorem registry_kept (normalizeNfkd toLowerCase : List Char → List Char) (db : AccountDb)
    (hdb : Unique db.servers) (es : List RegistryEvent)
    (h : ∀ x ∈ (registryMachine normalizeNfkd toLowerCase db).trace es,
      RegistryWorld.inOrder normalizeNfkd toLowerCase db x.pre x.event = true) :
    KeepsRegistry normalizeNfkd toLowerCase db es := by
  -- every step starts from a table that is in order
  have hstep : ∀ x ∈ (registryMachine normalizeNfkd toLowerCase db).trace es,
      ∃ before, x = (registryMachine normalizeNfkd toLowerCase db).entry
        ((registryMachine normalizeNfkd toLowerCase db).run before) x.event ∧
        Registered db x.pre.shared x.pre.history := by
    intro x hx
    obtain ⟨before, e, after, hes, rfl⟩ := ((registryMachine normalizeNfkd toLowerCase db).mem_trace es x).1 hx
    exact ⟨before, rfl, registered_run hdb before (forall_trace_before h hes)⟩
  have hcall : ∀ x ∈ (registryMachine normalizeNfkd toLowerCase db).trace es, ∀ i fate call log c next,
      x.event = .exec i fate → x.pre.tasks.get i = some ⟨call, log, .asking c next⟩ →
      x.post.shared = (x.pre.shared.exec c fate).1 ∧ x.pre.history i = some (call, log) ∧
        (call.program normalizeNfkd toLowerCase).Reaches log (.await c next) := by
    intro x hx i fate call log c next he hget
    obtain ⟨before, hentry, -⟩ := hstep x hx
    rw [he] at hentry
    subst hentry
    exact ⟨step_exec hget, Async.World.history_get hget,
      stands_run (registryHost normalizeNfkd toLowerCase) db before i _ hget _ rfl⟩
  refine ⟨(registered_run hdb es h).unique, ?_, ?_, ?_, ?_⟩
  · intro x hx row hrow row' hrow' hkey
    obtain ⟨before, hentry, hreg⟩ := hstep x hx
    have hstands := stands_run (registryHost normalizeNfkd toLowerCase) db before
    have hfresh := fresh_run (registryHost normalizeNfkd toLowerCase) db before
    have hservers := servers_step hstands hfresh x.event
    have hpre : x.pre = (registryMachine normalizeNfkd toLowerCase db).run before := by rw [hentry]; rfl
    have hpost : x.post = ((registryHost normalizeNfkd toLowerCase).step
        ((registryMachine normalizeNfkd toLowerCase db).run before) x.event).1 := by
      rw [hentry]
      rfl
    rw [hpost] at hrow'
    rw [hpre] at hrow hreg
    cases hservers with
    | inl hsame =>
      rw [show ((registryHost normalizeNfkd toLowerCase).step
        ((registryMachine normalizeNfkd toLowerCase db).run before) x.event).1.shared.servers = _ from hsame] at hrow'
      have hrows : row' = row :=
        hreg.unique.eq hrow' hrow (by simp [AccountDb.collides, hkey])
      rw [hrows]
    | inr hexec =>
      obtain ⟨c, fate, hexec⟩ := hexec
      rw [show ((registryHost normalizeNfkd toLowerCase).step
        ((registryMachine normalizeNfkd toLowerCase db).run before) x.event).1.shared = _ from hexec] at hrow'
      exact stays_exec hreg.unique hrow hrow' hkey
  · intro x hx i fate call log c next he hget row hrow
    obtain ⟨hpost, hi, hreach⟩ := hcall x hx i fate call log c next he hget
    obtain ⟨-, -, hreg⟩ := hstep x hx
    rw [hpost]
    exact others_exec hdb hreg hi hreach hrow
  · intro x hx i fate call log c next he hget herror
    obtain ⟨-, hi, hreach⟩ := hcall x hx i fate call log c next he hget
    obtain ⟨-, -, hreg⟩ := hstep x hx
    obtain ⟨-, hinserts, hrenames⟩ := asks_call hreach
    have horder := h x hx
    rw [he] at horder
    simp only [RegistryWorld.inOrder, hget] at horder
    cases fate with
    | fails => cases c <;> cases herror
    | works =>
      cases c with
      | insertServer row =>
        simp only [Bool.and_eq_true, all_eq_true, decide_eq_true_eq] at horder
        obtain ⟨⟨⟨hkey, hfree⟩, hlast⟩, -⟩ := horder
        have hnone := insert_answered hreg hi (hinserts row rfl) hkey hfree hlast
        simp only [AccountDb.exec, hnone] at herror
        cases herror
      | renameServer id owner name slug =>
        obtain ⟨randomHex, rows, rfl, rfl, rfl⟩ := hrenames id owner name slug rfl
        simp only [Bool.and_eq_true] at horder
        have hnone := rename_answered horder.1 horder.2
        simp only [AccountDb.exec, hnone] at herror
        cases herror
      | _ => cases herror
  · intro x hx i fate call log row next he hget hrow limit hlimit
    obtain ⟨hpost, -, -⟩ := hcall x hx i fate call log (.insertServer row) next he hget
    have horder := h x hx
    rw [he] at horder
    simp only [RegistryWorld.inOrder, hget, Bool.and_eq_true] at horder
    have hroom := horder.2
    rw [Option.mem_def.1 hlimit] at hroom
    have hcount := @countServers_insert x.pre.shared fate row row.userId
    rw [hpost]
    simp only [exceeds, Bool.not_eq_true', decide_eq_false_iff_not] at hroom
    omega

/-- An account that pays, and two machines of one name. -/
def paidRow : SubscriptionRow := ⟨.active, .pro, none, none, none, none, false, none, none⟩
def paidDb : AccountDb := ⟨OrderedMap.empty.set "user" paidRow, [], [], [], 0⟩
def aMachine (publicKey : String) : RegisterInput := ⟨"macbook", publicKey, none, none, none⟩
def registers (publicKey drawnId : String) : RegistryCall := .register "user" (aMachine publicKey) drawnId "c0ffee"

/-- So many of a call's statements, one after another. -/
def statements (i n : Nat) : List RegistryEvent := (List.replicate n [.exec i .works, .resume i]).flatten

/-- Two machines are registered at once, and the second is renamed meanwhile; it reads the slugs when the first is there. -/
def oneByOne : List RegistryEvent :=
  [.start (registers "key_1" "srv_1"), .start (registers "key_2" "srv_2")] ++ statements 1 2 ++ statements 0 4 ++
    [.start (.rename "user" "srv_2" "desk" "c0ffee"), .exec 2 .works] ++ statements 1 2 ++ [.resume 2, .exec 2 .works, .resume 2]

theorem registry_kept_oneByOne : KeepsRegistry id id paidDb oneByOne :=
  registry_kept id id paidDb List.Pairwise.nil oneByOne (by decide +kernel)

/-- Both machines read the slugs before either is added. -/
def atOnce : List RegistryEvent :=
  [.start (registers "key_1" "srv_1"), .start (registers "key_2" "srv_2")] ++ statements 0 3 ++ statements 1 3 ++
    [.exec 0 .works]

/-- The second is refused for a name it could have had another of. -/
theorem not_registry_kept : ¬ ∀ normalizeNfkd toLowerCase db es, Unique db.servers →
    KeepsRegistry normalizeNfkd toLowerCase db es := by
  intro h
  have hkept := h id id paidDb (atOnce ++ [.exec 1 .works]) List.Pairwise.nil
  have hx := ((registryMachine id id paidDb).mem_trace (atOnce ++ [.exec 1 .works]) _).2
    ⟨atOnce, .exec 1 .works, [], rfl, rfl⟩
  have hget : ∃ log next, ((registryMachine id id paidDb).run atOnce).tasks.get 1 =
      some ⟨registers "key_2" "srv_2", log, .asking (.insertServer
        ⟨"srv_2", "user", "macbook", "macbook", "key_2", none, none, none, some 0⟩) next⟩ := ⟨_, _, rfl⟩
  obtain ⟨log, next, hget⟩ := hget
  have hrefused : (((registryMachine id id paidDb).run atOnce).shared.servers.any
      (AccountDb.collides ⟨"srv_2", "user", "macbook", "macbook", "key_2", none, none, none, some 0⟩)) = true := by
    decide +kernel
  refine hkept.answered _ hx 1 .works _ log _ next rfl hget ?_
  change (((registryMachine id id paidDb).run atOnce).shared.exec _ .works).2 = _
  simp only [AccountDb.exec]
  rw [if_pos hrefused]

end Mtmux.Accounts
