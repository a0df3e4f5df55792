import Mtmux.Accounts.OneTrial
import Mtmux.Accounts.Servers

/-! Calls on the registry at once: what they keep, and what they break when they come between the reads and the
write of one another. -/
namespace Mtmux.Accounts
open Billing Async

/-- What the indexes of the table enforce. -/
def Unique (rows : List ServerRow) : Prop := rows.Pairwise fun a b => AccountDb.collides a b = false

def RegistryCall.drawnId : RegistryCall → Option String
  | .register _ _ drawnId _ => some drawnId
  | _ => none

structure KeepsRegistry (normalizeNfkd toLowerCase : List Char → List Char) (db : AccountDb)
    (es : List RegistryEvent) : Prop where
  unique : Unique ((registryMachine normalizeNfkd toLowerCase db).run es).shared.servers
  stays : ∀ x ∈ (registryMachine normalizeNfkd toLowerCase db).trace es, ∀ row ∈ x.pre.shared.servers,
    ∀ row' ∈ x.post.shared.servers, row'.publicKey = row.publicKey → row'.userId = row.userId
  others : ∀ x ∈ (registryMachine normalizeNfkd toLowerCase db).trace es, ∀ i fate call log c next,
    x.event = .exec i fate → x.pre.tasks.get i = some ⟨call, log, .asking c next⟩ →
    ∀ row, row.userId ≠ call.userId → (row ∈ x.post.shared.servers ↔ row ∈ x.pre.shared.servers)
  answered : ∀ x ∈ (registryMachine normalizeNfkd toLowerCase db).trace es, ∀ i fate call log c next,
    x.event = .exec i fate → x.pre.tasks.get i = some ⟨call, log, .asking c next⟩ →
    (x.pre.shared.exec c fate).2 ≠ .error .unique
  limited : ∀ x ∈ (registryMachine normalizeNfkd toLowerCase db).trace es, ∀ i fate call log row next,
    x.event = .exec i fate → x.pre.tasks.get i = some ⟨call, log, .asking (.insertServer row) next⟩ →
    row ∈ x.post.shared.servers → ∀ limit ∈ (limitsFor (x.pre.shared.resolution row.userId).plan).servers,
      x.post.shared.countServers row.userId ≤ limit

def readSlugs (log : DbLog) (p : List (String × String) → Bool) : Bool :=
  log.all fun x => match x with
    | ⟨.selectSlugs _, .ok rows⟩ => p rows
    | _ => true

def slugUntaken (s : AccountDb) (userId id slug : String) (log : DbLog) : Bool :=
  s.servers.all fun row => !(row.userId = userId && row.id ≠ id && row.slug = slug) ||
    readSlugs log fun rows => decide ((row.id, row.slug) ∈ rows)

/-- Where the random name is picked, it was not taken. -/
def lastResortFree (base randomHex slug : String) (log : DbLog) : Bool :=
  decide (slug ≠ base ++ "-" ++ randomHex) || readSlugs log fun rows => rows.all fun row => decide (row.2 ≠ slug)

section
variable (normalizeNfkd toLowerCase : List Char → List Char)

def RegistryCall.lastResortFree (call : RegistryCall) (slug : String) (log : DbLog) : Bool :=
  match call with
  | .register _ input _ randomHex =>
    Accounts.lastResortFree (slugify normalizeNfkd toLowerCase input.name) randomHex slug log
  | .rename _ _ name randomHex =>
    Accounts.lastResortFree (slugify normalizeNfkd toLowerCase name) randomHex slug log
  | _ => true

/-- An id is drawn that was never there. When a machine is added, nobody has added the key or taken the slug since
they were looked up, and there is room under the plan then in force; when one is renamed, nobody has taken the slug
since. -/
def RegistryWorld.inOrder (db : AccountDb) (w : RegistryWorld) : RegistryEvent → Bool
  | .start (.register _ _ drawnId _) =>
    (db.servers.all fun row => decide (row.id ≠ drawnId)) &&
      w.tasks.values.all fun r => decide (r.job.drawnId ≠ some drawnId)
  | .exec i _ =>
    match w.tasks.get i with
    | some ⟨call, log, .asking (.insertServer row) _⟩ =>
      (w.shared.servers.all fun row' => decide (row'.publicKey ≠ row.publicKey)) &&
        slugUntaken w.shared row.userId row.id row.slug log &&
        call.lastResortFree normalizeNfkd toLowerCase row.slug log &&
        !exceeds (w.shared.countServers row.userId) (limitsFor (w.shared.resolution row.userId).plan).servers
    | some ⟨call, log, .asking (.renameServer id userId _ slug) _⟩ =>
      slugUntaken w.shared userId id slug log && call.lastResortFree normalizeNfkd toLowerCase slug log
    | _ => true
  | _ => true

end

/- What the calls ask. -/

/-- A statement in the name of the account. -/
def Scoped (userId : String) (log : DbLog) : Statement → Prop
  | .touchServer id _ _ _ _ => ∃ key row, ⟨.selectServer key, .ok (some row)⟩ ∈ log ∧ row.id = id ∧
      row.userId = userId
  | .insertServer row => row.userId = userId
  | .heartbeatServer _ owner _ | .renameServer _ owner _ _ | .deleteServer _ owner => owner = userId
  | _ => True

def OfCheck : Statement → Prop
  | .selectSubscription _ | .countServers _ | .startTrial _ _ _ => True
  | _ => False

theorem checkServerLimit_calls (userId : String) : (checkServerLimit userId).Calls OfCheck fun _ => True := by
  have hif : ∀ (b : Bool) (d d' : Decision),
      ((if b = true then pure d else pure d' : DbTask Decision)).Calls OfCheck fun _ => True := by
    intro b d d'
    split
    · trivial
    · trivial
  have hcheck : ∀ plan, (serversUnder userId plan).Calls OfCheck fun _ => True := by
    intro plan
    unfold serversUnder
    cases (limitsFor plan).servers with
    | none => trivial
    | some limit => exact calls_bind.2 (calls_call.2 ⟨trivial, fun used => hif _ _ _⟩)
  have hresolve : ∀ {Q : PlanResolution → Prop} (now : Nat), (∀ r, Q r) →
      (resolveFor userId now).Calls OfCheck Q :=
    fun now hQ => calls_bind.2 (calls_call.2 ⟨trivial, fun row => hQ _⟩)
  refine calls_bind.2 (calls_bind.2 ?_)
  intro db
  refine calls_bind.2 (hresolve db.now fun resolution => ?_)
  refine calls_bind.2 ?_
  intro db'
  refine calls_bind.2 ((hcheck _).mono (fun _ hc => hc) fun decision _ => ?_)
  split
  · trivial
  · split
    · trivial
    · refine calls_bind.2 (hresolve db'.now fun resolution => ?_)
      split
      · trivial
      · refine calls_bind.2 ((hcheck _).mono (fun _ hc => hc) fun underTrial _ => ?_)
        split
        · trivial
        · refine calls_bind.2 (calls_bind.2 (calls_call.2 ⟨trivial, fun changes => ?_⟩))
          exact hif _ _ _

section Asks
variable {normalizeNfkd toLowerCase : List Char → List Char} {log : DbLog} {c : Statement}

variable {name randomHex userId : String} {exceptId : Option String}

theorem uniqueSlug_done {slug : String}
    (h : (uniqueSlug normalizeNfkd toLowerCase userId name exceptId randomHex).Reaches log (.done slug)) :
    ∃ rows, log = [⟨.selectSlugs userId, .ok rows⟩] ∧
      slug = pickSlug (takenSlugs rows exceptId) (slugify normalizeNfkd toLowerCase name) randomHex := by
  obtain ⟨before, after, rows, rfl, hbefore, hafter⟩ := reaches_bind_done h
  obtain ⟨hslug, rfl⟩ := reaches_pure_done hafter
  rw [reaches_call_done hbefore]
  exact ⟨rows, rfl, hslug.symm⟩

theorem asks_uniqueSlug {next : Except DbError (Answer c) → DbTask String}
    (h : (uniqueSlug normalizeNfkd toLowerCase userId name exceptId randomHex).Reaches log (.await c next)) :
    log = [] ∧ c = .selectSlugs userId := by
  cases asks_bind h with
  | inl hask => exact asks_query hask.choose_spec
  | inr hdone =>
    obtain ⟨_, _, _, -, -, hdone⟩ := hdone
    cases hdone

theorem asks_dateNow {next : Except DbError (Answer c) → DbTask Nat} : ¬ dateNow.Reaches log (.await c next) := by
  intro h
  cases h with
  | read s h => cases h

theorem asks_register {drawnId : String} {input : RegisterInput}
    {next : Except DbError (Answer c) → DbTask RegisterOutcome}
    (h : (register normalizeNfkd toLowerCase userId input (checkServerLimit userId) drawnId randomHex).Reaches log
      (.await c next)) : Scoped userId log c ∧ (∀ id owner name slug, c ≠ .renameServer id owner name slug) ∧
      ∀ row, c = .insertServer row → ∃ first rows, log = first ++ [⟨.selectSlugs userId, .ok rows⟩] ∧
        (∀ x ∈ first, ∀ row', x.1 ≠ .insertServer row') ∧ row.id = drawnId ∧
        row.slug = pickSlug (takenSlugs rows none) (slugify normalizeNfkd toLowerCase input.name) randomHex := by
  have hplain : ∀ {c : Statement}, OfCheck c → Scoped userId log c ∧
      (∀ id owner name slug, c ≠ .renameServer id owner name slug) ∧ ∀ row, c ≠ .insertServer row := by
    intro c hc
    cases c <;>
      first
      | exact ⟨trivial, by simp, by simp⟩
      | exact hc.elim
  cases asks_bind h with
  | inl hask =>
    obtain ⟨-, rfl⟩ := asks_query hask.choose_spec
    exact ⟨trivial, by simp, by simp⟩
  | inr hrest =>
    obtain ⟨lookup, after, existing, rfl, hlookup, hrest⟩ := hrest
    obtain rfl := reaches_call_done hlookup
    cases existing with
    | some row =>
      dsimp only at hrest
      split at hrest
      · cases hrest
      · rename_i howner
        cases asks_bind hrest with
        | inl hclock => exact absurd hclock.choose_spec asks_dateNow
        | inr htouch =>
          obtain ⟨clock, after, now, rfl, hclock, htouch⟩ := htouch
          cases asks_bind htouch with
          | inl hask =>
            obtain ⟨-, rfl⟩ := asks_query hask.choose_spec
            refine ⟨⟨input.publicKey, row, by simp, rfl, not_not.1 howner⟩, ?_, by simp⟩
            simp
          | inr hdone =>
            obtain ⟨_, _, _, -, -, hdone⟩ := hdone
            cases hdone
    | none =>
      dsimp only at hrest
      cases asks_bind hrest with
      | inl hcheck =>
        obtain ⟨next', hcheck⟩ := hcheck
        obtain ⟨hscoped, hrename, hnot⟩ := hplain (hcheck.call_of_calls (checkServerLimit_calls userId))
        exact ⟨hscoped, hrename, fun row he => absurd he (hnot row)⟩
      | inr hslugs =>
        obtain ⟨check, after, decision, rfl, hcheck, hslugs⟩ := hslugs
        split at hslugs
        · cases hslugs
        · cases asks_bind hslugs with
          | inl hask =>
            obtain ⟨-, rfl⟩ := asks_uniqueSlug hask.choose_spec
            exact ⟨trivial, by simp, by simp⟩
          | inr hinsert =>
            obtain ⟨reading, after, slug, rfl, hreading, hinsert⟩ := hinsert
            obtain ⟨rows, rfl, hslug⟩ := uniqueSlug_done hreading
            cases asks_bind hinsert with
            | inl hclock => exact absurd hclock.choose_spec asks_dateNow
            | inr hinsert =>
              obtain ⟨clock, after, now, rfl, hclock, hlast⟩ := hinsert
              obtain rfl := reaches_dateNow hclock
              cases asks_bind hlast with
              | inr hdone =>
                obtain ⟨_, _, _, -, -, hdone⟩ := hdone
                cases hdone
              | inl hask =>
                obtain ⟨rfl, rfl⟩ := asks_query hask.choose_spec
                refine ⟨rfl, by simp, ?_⟩
                intro row he
                cases he
                refine ⟨⟨.selectServer input.publicKey, .ok none⟩ :: check, rows, by simp, ?_, rfl, hslug⟩
                intro x hx row' he
                cases List.mem_cons.1 hx with
                | inl hhead =>
                  rw [hhead] at he
                  cases he
                | inr htail =>
                  have hof := hcheck.log_of_calls (checkServerLimit_calls userId) x htail
                  rw [he] at hof
                  exact hof

variable {serverId : String} {next : Except DbError (Answer c) → DbTask Bool}

theorem asks_heartbeat
    (h : (heartbeat userId serverId).Reaches log (.await c next)) : ∃ now, c = .heartbeatServer serverId userId now := by
  cases asks_bind h with
  | inl hclock => exact absurd hclock.choose_spec asks_dateNow
  | inr hrest =>
    obtain ⟨clock, after, now, -, -, hrest⟩ := hrest
    cases asks_bind hrest with
    | inl hask => exact ⟨now, (asks_query hask.choose_spec).2⟩
    | inr hdone =>
      obtain ⟨_, _, _, -, -, hdone⟩ := hdone
      cases hdone

theorem asks_remove (h : (remove userId serverId).Reaches log (.await c next)) : c = .deleteServer serverId userId := by
  cases asks_bind h with
  | inl hask => exact (asks_query hask.choose_spec).2
  | inr hdone =>
    obtain ⟨_, _, _, -, -, hdone⟩ := hdone
    cases hdone

theorem asks_rename
    (h : (rename normalizeNfkd toLowerCase userId serverId name randomHex).Reaches log (.await c next)) :
    c = .selectSlugs userId ∨ ∃ rows, log = [⟨.selectSlugs userId, .ok rows⟩] ∧ c = .renameServer serverId userId name
        (pickSlug (takenSlugs rows (some serverId)) (slugify normalizeNfkd toLowerCase name) randomHex) := by
  cases asks_bind h with
  | inl hask => exact .inl (asks_uniqueSlug hask.choose_spec).2
  | inr hrest =>
    obtain ⟨reading, after, slug, rfl, hreading, hrest⟩ := hrest
    obtain ⟨rows, rfl, rfl⟩ := uniqueSlug_done hreading
    cases asks_bind hrest with
    | inl hask =>
      obtain ⟨rfl, hc⟩ := asks_query hask.choose_spec
      exact .inr ⟨rows, by simp, hc⟩
    | inr hdone =>
      obtain ⟨_, _, _, -, -, hdone⟩ := hdone
      cases hdone

structure Inserts (normalizeNfkd toLowerCase : List Char → List Char) (call : RegistryCall) (log : DbLog)
    (row : ServerRow) : Prop where
  steps : ∃ userId input drawnId randomHex first rows, call = .register userId input drawnId randomHex ∧
    log = first ++ [⟨.selectSlugs userId, .ok rows⟩] ∧ (∀ x ∈ first, ∀ row', x.1 ≠ .insertServer row') ∧
    row.id = drawnId ∧ row.userId = userId ∧
    row.slug = pickSlug (takenSlugs rows none) (slugify normalizeNfkd toLowerCase input.name) randomHex

theorem asks_call {call : RegistryCall} {next : Except DbError (Answer c) → DbTask RegistryAnswer}
    (h : (call.program normalizeNfkd toLowerCase).Reaches log (.await c next)) :
    Scoped call.userId log c ∧ (∀ row, c = .insertServer row → Inserts normalizeNfkd toLowerCase call log row) ∧
      ∀ id owner name slug, c = .renameServer id owner name slug → ∃ randomHex rows,
        call = .rename owner id name randomHex ∧ log = [⟨.selectSlugs owner, .ok rows⟩] ∧
        slug = pickSlug (takenSlugs rows (some id)) (slugify normalizeNfkd toLowerCase name) randomHex := by
  have hpart : ∀ {α : Type} {t : DbTask α} {f : α → RegistryAnswer},
      (t >>= fun a => pure (f a)).Reaches log (.await c next) → ∃ next', t.Reaches log (.await c next') := by
    intro α t f hask
    cases asks_bind hask with
    | inl hask => exact hask
    | inr hdone =>
      obtain ⟨_, _, _, -, -, hdone⟩ := hdone
      cases hdone
  cases call with
  | register userId input drawnId randomHex =>
    obtain ⟨next', hask⟩ := hpart h
    obtain ⟨hscoped, hrename, hinserts⟩ := asks_register hask
    refine ⟨hscoped, ?_, fun id owner name slug he => absurd he (hrename id owner name slug)⟩
    rintro row rfl
    obtain ⟨first, rows, hlog, hfirst, hid, hslug⟩ := hinserts row rfl
    exact ⟨userId, input, drawnId, randomHex, first, rows, rfl, hlog, hfirst, hid, hscoped, hslug⟩
  | heartbeat userId serverId =>
    obtain ⟨next', hask⟩ := hpart h
    obtain ⟨now, rfl⟩ := asks_heartbeat hask
    exact ⟨rfl, by simp, by simp⟩
  | rename userId serverId name randomHex =>
    obtain ⟨next', hask⟩ := hpart h
    cases asks_rename hask with
    | inl hselect =>
      subst hselect
      exact ⟨trivial, by simp, by simp⟩
    | inr hwrite =>
      obtain ⟨rows, rfl, rfl⟩ := hwrite
      refine ⟨rfl, by simp, ?_⟩
      intro id owner name' slug he
      cases he
      exact ⟨randomHex, rows, rfl, rfl, rfl⟩
  | remove userId serverId =>
    obtain ⟨next', hask⟩ := hpart h
    obtain rfl := asks_remove hask
    exact ⟨rfl, by simp, by simp⟩

end Asks

end Mtmux.Accounts
