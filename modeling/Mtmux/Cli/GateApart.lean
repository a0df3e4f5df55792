import Mtmux.Cli.ConnectionGate

/-! Which connections the gate keeps apart: the machine's own token on the machine itself, one
question for each key, and a decision from the failure of a question before it. -/
namespace Mtmux.Cli
open OrderedMap Machine GateState List
namespace GateState
variable {s : GateState}

theorem resolve_eq (s : GateState) (socket : Nat) (req : ConnectionRequest) (ok : Bool) :
    ∃ added, s.resolve socket req ok = { s with live := s.live ++ added } ∧
      ∀ l ∈ added, ok = true ∧ l.2 = req.deviceId := by
  unfold resolve
  split
  · rename_i h
    have hok : ok = true := by
      rw [Bool.and_eq_true] at h
      exact h.1
    refine ⟨[(socket, req.deviceId)], rfl, ?_⟩
    intro l hl
    rw [mem_singleton.1 hl]
    exact ⟨hok, rfl⟩
  · exact ⟨[], by simp, by simp⟩

theorem resolveAll_eq (ok : Bool) (ws : List Waiting) (s : GateState) :
    ∃ added, ws.foldl (fun s w => s.resolve w.socket w.req ok) s =
        { s with live := s.live ++ added } ∧
      ∀ l ∈ added, ok = true ∧ ∃ w ∈ ws, l.2 = w.req.deviceId := by
  induction ws generalizing s with
  | nil => exact ⟨[], by simp, by simp⟩
  | cons w ws ih =>
    obtain ⟨first, hfirst, hok⟩ := s.resolve_eq w.socket w.req ok
    obtain ⟨rest, hrest, hrestok⟩ := ih (s.resolve w.socket w.req ok)
    refine ⟨first ++ rest, ?_, ?_⟩
    · rw [foldl_cons, hrest, hfirst, append_assoc]
    · intro l hl
      rcases mem_append.1 hl with hl | hl
      · exact ⟨(hok l hl).1, w, mem_cons_self, (hok l hl).2⟩
      · obtain ⟨htrue, w', hw', heq⟩ := hrestok l hl
        exact ⟨htrue, w', mem_cons_of_mem w hw', heq⟩

theorem release_eq (s : GateState) (q : GateQuestion) (ok : Bool) : ∃ added,
    (s.release q ok).1 =
      { s with
        waiting := s.waiting.filter fun w => w.question ≠ q.id
        live := s.live ++ added } ∧
      ∀ l ∈ added, ok = true ∧ ∃ w ∈ s.waiting, w.question = q.id ∧ l.2 = w.req.deviceId := by
  obtain ⟨added, heq, hadded⟩ := resolveAll_eq ok (s.waiting.filter fun w => w.question = q.id)
    { s with waiting := s.waiting.filter fun w => w.question ≠ q.id }
  refine ⟨added, heq, ?_⟩
  intro l hl
  obtain ⟨hok, w, hw, hdev⟩ := hadded l hl
  rw [mem_filter] at hw
  exact ⟨hok, w, hw.1, by simpa using hw.2, hdev⟩

/-- What covers the key, and the records then. -/
inductive Covers (s : GateState) (key : String) (deviceId : Option DeviceId) :
    Option Decision → OrderedMap String Decision → Prop
  | renews {r : Decision} (get : s.decided.get key = some r) (approved : r.approved = true)
      (present : s.present deviceId = true) :
      Covers s key deviceId (some (s.renewed r)) (s.decided.set key (s.renewed r))
  | stands {r : Decision} (get : s.decided.get key = some r) (force : s.inForce r = true) :
      Covers s key deviceId (some r) s.decided
  | absent (get : s.decided.get key = none) : Covers s key deviceId none s.decided
  | lapsed {r : Decision} (get : s.decided.get key = some r) (force : s.inForce r = false) :
      Covers s key deviceId none (s.decided.delete key)

theorem covered_covers (s : GateState) (seen : List Nat) (key : String) (deviceId : Option DeviceId) : ∃ decided found,
    ({ s with seen := seen } : GateState).covered key deviceId = ({ s with seen := seen, decided := decided }, found) ∧
    (s.covered key deviceId).2 = found ∧ s.Covers key deviceId found decided := by
  unfold covered
  dsimp only
  cases hget : s.decided.get key with
  | none => exact ⟨_, _, rfl, rfl, .absent hget⟩
  | some r =>
    dsimp only
    by_cases hpresent : (r.approved && s.present deviceId) = true
    · rw [if_pos (show (r.approved && present { s with seen := seen } deviceId) = true from hpresent), if_pos hpresent]
      rw [Bool.and_eq_true] at hpresent
      exact ⟨_, _, rfl, rfl, .renews hget hpresent.1 hpresent.2⟩
    · rw [if_neg (show ¬ (r.approved && present { s with seen := seen } deviceId) = true from hpresent),
        if_neg hpresent]
      by_cases hforce : s.inForce r = true
      · rw [if_pos (show inForce { s with seen := seen } r = true from hforce), if_pos hforce]
        exact ⟨_, _, rfl, rfl, .stands hget hforce⟩
      · rw [if_neg (show ¬ inForce { s with seen := seen } r = true from hforce), if_neg hforce]
        exact ⟨_, _, rfl, rfl, .lapsed hget (by simpa using hforce)⟩

variable {q : GateQuestion}

/-- A question whose record was forgotten or replaced while it stood. -/
def Orphaned (s : GateState) (q : GateQuestion) : Prop :=
  ∀ r, s.decided.get (keyFor q.req) = some r → r.answer ≠ .asking q.id

/-- What the end of a question makes of its record. -/
inductive Settles (s : GateState) (q : GateQuestion) : Option Bool → OrderedMap String Decision → Prop
  | fails : Settles s q none (s.decided.delete (keyFor q.req))
  | late {ok : Bool} (orphaned : s.Orphaned q) : Settles s q (some ok) s.decided
  | settles {ok : Bool} {r : Decision} (get : s.decided.get (keyFor q.req) = some r) (asking : r.answer = .asking q.id) :
      Settles s q (some ok) (s.decided.set (keyFor q.req)
        ⟨.settled ok, some (s.now + (if ok then admitGraceMs else refusalGraceMs)), ok⟩)

theorem settle_eq (s : GateState) (q : GateQuestion) (ok : Bool) :
    ∃ decided, s.settle q ok = { s with decided := decided } ∧ s.Settles q (some ok) decided := by
  unfold settle
  cases hget : s.decided.get (keyFor q.req) with
  | none => exact ⟨_, rfl, .late fun r hr => by rw [hget] at hr; cases hr⟩
  | some r =>
    dsimp only
    split
    · rename_i hanswer
      exact ⟨_, rfl, .settles hget hanswer⟩
    · rename_i hanswer
      refine ⟨_, rfl, .late fun r' hr' => ?_⟩
      rw [hget] at hr'
      cases hr'
      exact hanswer

theorem noteAdmitted_eq (s : GateState) (q : GateQuestion) (ok : Bool) :
    ∃ ids, s.noteAdmitted q ok = { s with admittedHere := ids ++ s.admittedHere } ∧
      ∀ d ∈ ids, ok = true ∧ q.req.deviceId = some d := by
  unfold noteAdmitted
  cases hdev : q.req.deviceId with
  | none => exact ⟨[], rfl, by simp⟩
  | some d =>
    cases ok with
    | true => exact ⟨[d], rfl, by simp⟩
    | false => exact ⟨[], rfl, by simp⟩

theorem answered_eq (s : GateState) (q : GateQuestion) (result : Option Bool) : ∃ decided ids added,
    s.answered q result =
      ({ s with
          standing := s.standing.filter fun q' => q'.id ≠ q.id
          decided := decided
          admittedHere := ids ++ s.admittedHere
          waiting := s.waiting.filter fun w => w.question ≠ q.id
          live := s.live ++ added },
        (s.waiting.filter fun w => w.question = q.id).map fun w => .verdict w.socket (result.getD false)) ∧
      s.Settles q result decided ∧ (∀ d ∈ ids, result = some true ∧ q.req.deviceId = some d) ∧
      ∀ l ∈ added, result = some true ∧ ∃ w ∈ s.waiting, w.question = q.id ∧ l.2 = w.req.deviceId := by
  cases result with
  | none =>
    obtain ⟨added, heq, hadded⟩ := ({ s with
      standing := s.standing.filter fun q' => q'.id ≠ q.id
      decided := s.decided.delete (keyFor q.req) } : GateState).release_eq q false
    refine ⟨_, [], added, Prod.ext heq rfl, .fails, by simp, fun l hl => ?_⟩
    have hfalse := (hadded l hl).1
    cases hfalse
  | some ok =>
    obtain ⟨decided, hsettle, hsettles⟩ := ({ s with
      standing := s.standing.filter fun q' => q'.id ≠ q.id } : GateState).settle_eq q ok
    obtain ⟨ids, hids, hids'⟩ := (({ s with
      standing := s.standing.filter fun q' => q'.id ≠ q.id } : GateState).settle q ok).noteAdmitted_eq q ok
    obtain ⟨added, heq, hadded⟩ := ((({ s with
      standing := s.standing.filter fun q' => q'.id ≠ q.id } : GateState).settle q ok).noteAdmitted q ok).release_eq q ok
    rw [hids, hsettle] at heq hadded
    refine ⟨decided, ids, added, ?_, ?_, fun d hd => ?_, fun l hl => ?_⟩
    · refine Prod.ext ?_ ?_
      · rw [answered]
        dsimp only
        rw [hids, hsettle, heq]
      · rw [answered]
        dsimp only
        rw [hids, hsettle]
        rfl
    · cases hsettles with
      | late orphaned => exact .late orphaned
      | settles get asking => exact .settles get asking
    · obtain ⟨hok, hdev⟩ := hids' d hd
      exact ⟨congrArg some hok, hdev⟩
    · obtain ⟨hok, hw⟩ := hadded l hl
      exact ⟨congrArg some hok, hw⟩

theorem sweep_eq (ids : List DeviceId) (s : GateState) : ∃ decided, ids.foldl stamp s = { s with decided := decided } ∧
    ∀ k r', decided.get k = some r' → s.decided.get k = some r' ∨
      ∃ r, ∃ d ∈ ids, k = d.val ∧ s.decided.get k = some r ∧ r.approved = true ∧ r' = s.renewed r := by
  induction ids generalizing s with
  | nil => exact ⟨s.decided, rfl, fun _ _ => .inl⟩
  | cons d ids ih =>
    obtain ⟨decided, heq, hold⟩ := ih (s.stamp d)
    rw [foldl_cons, heq]
    have hmore {P : Decision → DeviceId → Prop} : (∃ r, ∃ d ∈ ids, P r d) → ∃ r, ∃ d' ∈ d :: ids, P r d' := by
      rintro ⟨r, d', hd', hrest⟩
      exact ⟨r, d', mem_cons_of_mem d hd', hrest⟩
    unfold stamp at hold ⊢
    cases hget : s.decided.get d.val with
    | none =>
      rw [hget] at hold
      exact ⟨decided, rfl, fun k r' hr' => (hold k r' hr').imp_right hmore⟩
    | some r =>
      rw [hget] at hold
      dsimp only at hold ⊢
      by_cases happroved : r.approved = true
      · rw [if_pos happroved] at hold ⊢
        refine ⟨decided, rfl, fun k r' hr' => ?_⟩
        have hset := hold k r' hr'
        simp only [get_set] at hset
        by_cases hk : k = d.val
        · rw [hk, if_pos rfl] at hset
          refine .inr ⟨r, d, mem_cons_self, hk, hk ▸ hget, happroved, ?_⟩
          obtain hsame | ⟨r₁, d', -, -, hsame, -, heq'⟩ := hset
          · exact (Option.some.inj hsame).symm
          · rw [heq', ← Option.some.inj hsame]
            rfl
        · rw [if_neg hk] at hset
          exact hset.imp_right hmore
      · rw [if_neg happroved] at hold ⊢
        exact ⟨decided, rfl, fun k r' hr' => (hold k r' hr').imp_right hmore⟩

/-- Nothing covers the socket, so a human is asked about it. -/
def asksAbout (s : GateState) (req : ConnectionRequest) : Bool :=
  (s.covered (keyFor req) req.deviceId).2.isNone && !exempt req && !(s.recognised req && !s.asks)

/-- What a step does. A socket that arrives is let in or refused at once, waits for a question that stands, or is the
one a new question is about. -/
inductive Steps (s : GateState) : GateEvent → GateState × List GateOutput → Prop
  | told {socket : Nat} {req : ConnectionRequest} {found : Option Decision} {decided : OrderedMap String Decision} {ok : Bool}
      {added : List (Nat × Option DeviceId)} (unseen : socket ∉ s.seen)
      (covers : s.Covers (keyFor req) req.deviceId found decided) (quiet : s.asksAbout req = false)
      (why : (∃ r, found = some r ∧ r.answer = .settled ok) ∨
        found = none ∧ ok = true ∧ (exempt req = true ∨ s.recognised req = true ∧ s.asks = false))
      (lets : ∀ l ∈ added, l.2 = req.deviceId) :
      Steps s (.arrive socket req)
        ({ s with seen := socket :: s.seen, decided := decided, live := s.live ++ added }, [.verdict socket ok])
  | joins {socket : Nat} {req : ConnectionRequest} {r : Decision} {decided : OrderedMap String Decision} {n : Nat}
      (unseen : socket ∉ s.seen) (covers : s.Covers (keyFor req) req.deviceId (some r) decided)
      (quiet : s.asksAbout req = false) (asking : r.answer = .asking n) :
      Steps s (.arrive socket req)
        ({ s with seen := socket :: s.seen, decided := decided, waiting := s.waiting ++ [⟨socket, req, n⟩] }, [])
  | asks {socket : Nat} {req : ConnectionRequest} {decided : OrderedMap String Decision} (unseen : socket ∉ s.seen)
      (covers : s.Covers (keyFor req) req.deviceId none decided) (about : s.asksAbout req = true) :
      Steps s (.arrive socket req) (({ s with seen := socket :: s.seen, decided := decided } : GateState).ask socket req,
        [.ask s.asked (s.named req) req.transport])
  | repeated {socket : Nat} {req : ConnectionRequest} (seen : socket ∈ s.seen) : Steps s (.arrive socket req) (s, [])
  | approves (d : DeviceId) : Steps s (.approve d) (s.approve d, [])
  | forgets (d : DeviceId) : Steps s (.forget d) (s.forget d, [])
  | samples {decided : OrderedMap String Decision} (records : ∀ k r', decided.get k = some r' →
        s.decided.get k = some r' ∨ ∃ r, ∃ d ∈ s.connected, k = d.val ∧ s.decided.get k = some r ∧ r.approved = true ∧
          r' = s.renewed r) : Steps s .sample ({ s with decided := decided }, [])
  | answers {q : GateQuestion} {result : Option Bool} {decided : OrderedMap String Decision} {ids : List DeviceId}
      {added : List (Nat × Option DeviceId)} (stands : q ∈ s.standing) (settles : s.Settles q result decided)
      (notes : ∀ d ∈ ids, result = some true ∧ q.req.deviceId = some d)
      (lets : ∀ l ∈ added, result = some true ∧ ∃ w ∈ s.waiting, w.question = q.id ∧ l.2 = w.req.deviceId) :
      Steps s (.answer q.id result) ({ s with
          standing := s.standing.filter fun q' => q'.id ≠ q.id
          decided := decided
          admittedHere := ids ++ s.admittedHere
          waiting := s.waiting.filter fun w => w.question ≠ q.id
          live := s.live ++ added },
        (s.waiting.filter fun w => w.question = q.id).map fun w => .verdict w.socket (result.getD false))
  | unheard {n : Nat} {result : Option Bool} (unheard : ∀ q ∈ s.standing, q.id ≠ n) : Steps s (.answer n result) (s, [])
  | other {e : GateEvent} {t : GateState} (decided : t.decided = s.decided) (standing : t.standing = s.standing)
      (asked : t.asked = s.asked) (waiting : t.waiting = s.waiting) (admittedHere : t.admittedHere = s.admittedHere)
      (live : ∀ socket d, (socket, some d) ∈ t.live → (socket, some d) ∈ s.live)
      (now : (∀ ms, e ≠ .tick ms) → t.now = s.now)
      (plain : (∀ socket req, e ≠ .arrive socket req) ∧ ∀ d, e ≠ .forget d) : Steps s e (t, [])

theorem admits_steps {socket : Nat} {req : ConnectionRequest} (hseen : socket ∉ s.seen) :
    s.Steps (.arrive socket req) (({ s with seen := socket :: s.seen } : GateState).admitSocket socket req) := by
  obtain ⟨decided, found, hsame, hfound, hcovers⟩ := s.covered_covers (socket :: s.seen) (keyFor req) req.deviceId
  unfold admitSocket
  rw [hsame]
  cases found with
  | some r =>
    have hquiet : s.asksAbout req = false := by simp [asksAbout, hfound]
    cases hanswer : r.answer with
    | settled ok =>
      obtain ⟨added, hresolve, hadded⟩ := ({ s with seen := socket :: s.seen, decided := decided } : GateState).resolve_eq
        socket req ok
      simp only [hanswer, hresolve]
      exact .told hseen hcovers hquiet (.inl ⟨r, rfl, hanswer⟩) fun l hl => (hadded l hl).2
    | asking n =>
      simp only [hanswer]
      exact .joins hseen hcovers hquiet hanswer
  | none =>
    have hlets (hwhy : exempt req = true ∨ s.recognised req = true ∧ s.asks = false) : s.Steps (.arrive socket req)
        (({ s with seen := socket :: s.seen, decided := decided } : GateState).resolve socket req true,
          [.verdict socket true]) := by
      obtain ⟨added, hresolve, hadded⟩ := ({ s with seen := socket :: s.seen, decided := decided } : GateState).resolve_eq
        socket req true
      rw [hresolve]
      refine .told hseen hcovers ?_ (.inr ⟨rfl, rfl, hwhy⟩) fun l hl => (hadded l hl).2
      obtain hexempt | ⟨hrecognised, hasks⟩ := hwhy
      · simp [asksAbout, hexempt]
      · simp [asksAbout, hrecognised, hasks]
    simp only [admitAnew]
    split
    · rename_i hexempt
      exact hlets (.inl hexempt)
    · rename_i hexempt
      split
      · rename_i hpolicy
        have htrusts : (s.recognised req && !s.asks) = true := hpolicy
        exact hlets (.inr (by simpa using htrusts))
      · rename_i hpolicy
        have hasks : ¬ (s.recognised req && !s.asks) = true := hpolicy
        refine .asks hseen hcovers ?_
        simp only [asksAbout, hfound, hexempt, hasks]
        rfl

theorem step_steps (s : GateState) (e : GateEvent) : s.Steps e (s.step e) := by
  cases e with
  | arrive socket req =>
    simp only [step, contains_iff_mem]
    split
    · rename_i hseen
      exact .repeated hseen
    · rename_i hseen
      exact admits_steps hseen
  | approve d => exact .approves d
  | forget d => exact .forgets d
  | sample =>
    obtain ⟨decided, heq, hrecords⟩ := sweep_eq s.connected s
    simp only [step, sampleSweep, heq]
    exact .samples hrecords
  | answer n result =>
    simp only [step]
    cases hfind : s.standing.find? fun q => q.id = n with
    | none =>
      exact .unheard fun q hq hid => by simpa [hid] using List.find?_eq_none.1 hfind q hq
    | some q =>
      obtain ⟨decided, ids, added, heq, hsettles, hnotes, hlets⟩ := s.answered_eq q result
      have hid : q.id = n := by simpa using List.find?_some hfind
      subst hid
      dsimp only
      rw [heq]
      exact .answers (mem_of_find?_eq_some hfind) hsettles hnotes hlets
  | close socket => exact .other rfl rfl rfl rfl rfl (fun _ _ hl => (mem_filter.1 hl).1) (fun _ => rfl) (by simp)
  | unname socket =>
    refine .other rfl rfl rfl rfl rfl (fun socket' d hl => ?_) (fun _ => rfl) (by simp)
    obtain ⟨l, hmem, heq⟩ := mem_map.1 hl
    split at heq
    · cases heq
    · exact heq ▸ hmem
  | tick ms => exact .other rfl rfl rfl rfl rfl (fun _ _ hl => hl) (fun hno => absurd rfl (hno ms)) (by simp)
  | _ => exact .other rfl rfl rfl rfl rfl (fun _ _ hl => hl) (fun _ => rfl) (by simp)

/-- The question of a decision that waits for one is in front of a human. -/
structure Consistent (s : GateState) : Prop where
  ids_nodup : (s.standing.map GateQuestion.id).Nodup
  asked : ∀ q ∈ s.standing, q.id < s.asked
  pending : ∀ k r n, s.decided.get k = some r → r.answer = .asking n → r.lapses = none ∧
    r.approved = false ∧ ∃ q ∈ s.standing, q.id = n ∧ keyFor q.req = k
  settled : ∀ k r ok, s.decided.get k = some r → r.answer = .settled ok → r.approved = ok

theorem Consistent.find (h : s.Consistent) {n : Nat} :
    (s.standing.find? fun q => q.id = n) = some q ↔ q ∈ s.standing ∧ q.id = n :=
  find_field h.ids_nodup

theorem Consistent.decide {s' : GateState} (h : s.Consistent)
    (hstanding : s'.standing = s.standing) (hasked : s'.asked = s.asked)
    (hdecided : ∀ k r, s'.decided.get k = some r → s.decided.get k = some r ∨
      ∃ ok, r.answer = .settled ok ∧ r.approved = ok) : s'.Consistent where
  ids_nodup := by
    rw [hstanding]
    exact h.ids_nodup
  asked := by
    rw [hstanding, hasked]
    exact h.asked
  pending := by
    intro k r n hget hanswer
    rw [hstanding]
    by_cases hold : s.decided.get k = some r
    · exact h.pending k r n hold hanswer
    · obtain ⟨ok, hsettled, -⟩ := (hdecided k r hget).resolve_left hold
      rw [hsettled] at hanswer
      cases hanswer
  settled := by
    intro k r ok hget hanswer
    by_cases hold : s.decided.get k = some r
    · exact h.settled k r ok hold hanswer
    · obtain ⟨ok', hsettled, happroved⟩ := (hdecided k r hget).resolve_left hold
      rw [hsettled] at hanswer
      cases hanswer
      exact happroved

theorem Consistent.of_same {s' : GateState} (h : s.Consistent)
    (hstanding : s'.standing = s.standing) (hasked : s'.asked = s.asked)
    (hdecided : s'.decided = s.decided) : s'.Consistent := by
  refine h.decide hstanding hasked ?_
  intro k r hget
  rw [hdecided] at hget
  exact .inl hget

variable {r : Decision} {k : String}

theorem Consistent.approved_settled (h : s.Consistent)
    (hget : s.decided.get k = some r) (happroved : r.approved = true) : r.answer = .settled true := by
  cases hanswer : r.answer with
  | settled ok =>
    have hok := h.settled k r ok hget hanswer
    rw [← hok, happroved]
  | asking n =>
    have hfalse := (h.pending k r n hget hanswer).2.1
    rw [happroved] at hfalse
    cases hfalse

theorem Consistent.ask (h : s.Consistent) (socket : Nat) (req : ConnectionRequest) : (s.ask socket req).Consistent where
  ids_nodup := by
    simp only [GateState.ask, map_append, map_cons, map_nil]
    refine nodup_append.2 ⟨h.ids_nodup, by simp, ?_⟩
    intro a ha b hb
    obtain ⟨q, hq, rfl⟩ := mem_map.1 ha
    have hlt := h.asked q hq
    rw [mem_singleton.1 hb]
    omega
  asked := by
    intro q hq
    simp only [GateState.ask, mem_append, mem_singleton] at hq ⊢
    by_cases hold : q ∈ s.standing
    · exact Nat.lt_succ_of_lt (h.asked q hold)
    · rw [hq.resolve_left hold]
      exact Nat.lt_succ_self _
  pending := by
    intro k r n hget hanswer
    simp only [GateState.ask, get_set] at hget ⊢
    split at hget
    · rename_i hk
      cases hget
      cases hanswer
      exact ⟨rfl, rfl, ⟨s.asked, req⟩, by simp, rfl, hk.symm⟩
    · obtain ⟨hlapses, happroved, q, hq, hid, hkey⟩ := h.pending k r n hget hanswer
      exact ⟨hlapses, happroved, q, mem_append_left _ hq, hid, hkey⟩
  settled := by
    intro k r ok hget hanswer
    simp only [GateState.ask, get_set] at hget
    split at hget
    · cases hget
      cases hanswer
    · exact h.settled k r ok hget hanswer

/-- No decision waits for the question any more. -/
theorem Consistent.closed {q : GateQuestion} (h : s.Consistent)
    (hnone : ∀ k r, s.decided.get k = some r → r.answer ≠ .asking q.id) :
    ({ s with standing := s.standing.filter fun q' => q'.id ≠ q.id } : GateState).Consistent where
  ids_nodup := (filter_sublist.map _).nodup h.ids_nodup
  asked := fun q' hq' => h.asked q' (mem_filter.1 hq').1
  pending := by
    intro k r n hget hanswer
    obtain ⟨hlapses, happroved, q', hq', hid, hkey⟩ := h.pending k r n hget hanswer
    refine ⟨hlapses, happroved, q', mem_filter.2 ⟨hq', ?_⟩, hid, hkey⟩
    have hne : q'.id ≠ q.id := by
      intro heq
      exact hnone k r hget (by rw [hanswer, ← hid, heq])
    simpa using hne
  settled := h.settled

theorem Consistent.own_key (h : s.Consistent) (hq : q ∈ s.standing)
    (hget : s.decided.get k = some r) (hanswer : r.answer = .asking q.id) : k = keyFor q.req := by
  obtain ⟨-, -, q', hq', hid, hkey⟩ := h.pending k r q.id hget hanswer
  rw [← hkey, inj_on_of_nodup_map h.ids_nodup hq' hq hid]

theorem Covers.records {key : String} {deviceId : Option DeviceId} {found : Option Decision}
    {decided : OrderedMap String Decision} (hcovers : s.Covers key deviceId found decided) {r' : Decision}
    (hget : decided.get k = some r') : s.decided.get k = some r' ∧ (key = k → s.inForce r' = true) ∨
      ∃ r, k = key ∧ s.decided.get k = some r ∧ r.approved = true ∧ s.present deviceId = true ∧ r' = s.renewed r := by
  cases hcovers with
  | @renews r get approved present =>
    rw [get_set] at hget
    split at hget
    · rename_i hk
      cases hget
      exact .inr ⟨r, hk, hk ▸ get, approved, present, rfl⟩
    · rename_i hk
      exact .inl ⟨hget, fun hkey => absurd hkey.symm hk⟩
  | @stands r get force =>
    refine .inl ⟨hget, fun hkey => ?_⟩
    rw [← hkey, get] at hget
    cases hget
    exact force
  | absent get =>
    refine .inl ⟨hget, fun hkey => ?_⟩
    rw [← hkey, get] at hget
    cases hget
  | lapsed get force =>
    rw [get_delete] at hget
    split at hget
    · cases hget
    · rename_i hk
      exact .inl ⟨hget, fun hkey => absurd hkey.symm hk⟩

theorem Consistent.renewed (h : s.Consistent) {r : Decision} (hget : s.decided.get k = some r)
    (happroved : r.approved = true) : ∃ ok, (s.renewed r).answer = .settled ok ∧ (s.renewed r).approved = ok :=
  ⟨true, (h.approved_settled hget happroved : r.answer = .settled true), happroved⟩

theorem Consistent.covers {t : GateState} (h : s.Consistent) {key : String} {deviceId : Option DeviceId}
    {found : Option Decision} {decided : OrderedMap String Decision} (hcovers : s.Covers key deviceId found decided)
    (hstanding : t.standing = s.standing) (hasked : t.asked = s.asked) (hdecided : t.decided = decided) : t.Consistent := by
  refine h.decide hstanding hasked fun k r' hget => ?_
  rw [hdecided] at hget
  obtain ⟨hold, -⟩ | ⟨r, -, hr, happroved, -, rfl⟩ := hcovers.records hget
  · exact .inl hold
  · exact .inr (h.renewed hr happroved)

theorem Consistent.step (h : s.Consistent) (e : GateEvent) : (s.step e).1.Consistent := by
  have hsteps := s.step_steps e
  generalize s.step e = next at hsteps ⊢
  cases hsteps with
  | told unseen covers => exact h.covers covers rfl rfl rfl
  | joins unseen covers => exact h.covers covers rfl rfl rfl
  | @asks socket req decided _ covers =>
    have hcovered : ({ s with seen := socket :: s.seen, decided := decided } : GateState).Consistent :=
      h.covers covers rfl rfl rfl
    exact hcovered.ask socket req
  | repeated | unheard => exact h
  | approves d =>
    refine h.decide rfl rfl fun k r hget => ?_
    simp only [approve, get_set] at hget
    split at hget
    · cases hget
      exact .inr ⟨true, rfl, rfl⟩
    · exact .inl hget
  | forgets d =>
    refine h.decide rfl rfl fun k r hget => ?_
    simp only [forget, get_delete] at hget
    split at hget
    · cases hget
    · exact .inl hget
  | samples records =>
    refine h.decide rfl rfl fun k r' hget => ?_
    obtain hold | ⟨r, d, -, -, hr, happroved, rfl⟩ := records k r' hget
    · exact .inl hold
    · exact .inr (h.renewed hr happroved)
  | @answers q result decided _ _ stands settles =>
    have hclosed : (∀ k r, decided.get k = some r → r.answer ≠ .asking q.id ∧
        (s.decided.get k = some r ∨ ∃ ok, r.answer = .settled ok ∧ r.approved = ok)) →
        ({ s with decided := decided, standing := s.standing.filter fun q' => q'.id ≠ q.id } : GateState).Consistent := by
      intro hall
      have hdecide : ({ s with decided := decided } : GateState).Consistent :=
        h.decide rfl rfl fun k r hget => (hall k r hget).2
      exact hdecide.closed fun k r hget => (hall k r hget).1
    refine (hclosed fun k r hget => ?_).of_same rfl rfl rfl
    cases settles with
    | fails =>
      rw [get_delete] at hget
      split at hget
      · cases hget
      · rename_i hk
        exact ⟨fun hanswer => hk (h.own_key stands hget hanswer), .inl hget⟩
    | late orphaned =>
      refine ⟨fun hanswer => orphaned r ?_ hanswer, .inl hget⟩
      rwa [← h.own_key stands hget hanswer]
    | settles get asking =>
      rw [get_set] at hget
      split at hget
      · cases hget
        exact ⟨by simp, .inr ⟨_, rfl, rfl⟩⟩
      · rename_i hk
        exact ⟨fun hanswer => hk (h.own_key stands hget hanswer), .inl hget⟩
  | other decided standing asked => exact h.of_same standing asked decided

theorem consistent_start (asks : Bool) : (start asks).Consistent where
  ids_nodup := by simp [start]
  asked := by simp [start]
  pending := by simp [start]
  settled := by simp [start]

theorem consistent_run (asks : Bool) (es : List GateEvent) : ((gateMachine asks).run es).Consistent :=
  (gateMachine asks).run_invariant (consistent_start asks) (fun _ e h => h.step e) es

theorem Consistent.asksAbout_orphaned (h : s.Consistent) {req : ConnectionRequest}
    (hasks : s.asksAbout req = true) (hkey : keyFor q.req = keyFor req) : s.Orphaned q := by
  intro r hget hanswer
  obtain ⟨hlapses, happroved, -⟩ := h.pending _ r q.id hget hanswer
  have hnone : (s.covered (keyFor req) req.deviceId).2 = none := by
    simp only [asksAbout, Bool.and_eq_true, Option.isNone_iff_eq_none] at hasks
    exact hasks.1.1
  rw [hkey] at hget
  simp [GateState.covered, hget, happroved, GateState.inForce, hlapses] at hnone

end GateState

abbrev GateEntry : Type := Machine.Entry GateState GateEvent GateOutput

/-- What the gate keeps apart in one step. -/
structure KeptApart (x : GateEntry) : Prop where
  /-- The machine's own token, on the machine, is let in at once. -/
  machine_at_once : ∀ socket req, x.event = .arrive socket req → socket ∉ x.pre.seen →
    GateState.exempt req = true → x.out = [.verdict socket true]
  /-- No key has two questions in front of a human. -/
  one_question : (x.post.standing.map fun q => keyFor q.req).Nodup
  /-- A question that fails leaves every decision but its own. -/
  own_record : ∀ q ∈ x.pre.standing, x.event = .answer q.id none → ∀ k r,
    x.pre.decided.get k = some r → r.answer ≠ .asking q.id → x.post.decided.get k = some r

/-- No step meets what was left of something else: a loopback socket a decision in force under the
machine token's key, a socket that has to be asked about a question that lost its record, the
failure of such a question a decision that came later. -/
structure Undisturbed (x : GateEntry) : Prop where
  machine : ∀ socket req, x.event = .arrive socket req → socket ∉ x.pre.seen →
    GateState.exempt req = true → ∀ r, x.pre.decided.get "machine-token" = some r →
      x.pre.inForce r = true → r.answer = .settled true
  arriving : ∀ socket req, x.event = .arrive socket req → socket ∉ x.pre.seen →
    x.pre.asksAbout req = true → ∀ q ∈ x.pre.standing, keyFor q.req = keyFor req →
      ¬ x.pre.Orphaned q
  failing : ∀ q ∈ x.pre.standing, x.event = .answer q.id none → x.pre.Orphaned q →
    x.pre.decided.get (keyFor q.req) = none

namespace GateState
variable {s : GateState}

variable {req : ConnectionRequest}

theorem exempt_key (h : exempt req = true) : keyFor req = "machine-token" ∧ req.deviceId = none := by
  simp only [exempt, Bool.and_eq_true, Option.isNone_iff_eq_none] at h
  obtain ⟨⟨hdevice, htoken⟩, -⟩ := h
  exact ⟨by simp [keyFor, hdevice, htoken], hdevice⟩

theorem machine_iff {socket : Nat} (hseen : socket ∉ s.seen) (hexempt : exempt req = true) :
    (s.step (.arrive socket req)).2 = [.verdict socket true] ↔
      ∀ r, s.decided.get "machine-token" = some r → s.inForce r = true → r.answer = .settled true := by
  obtain ⟨hkey, hdevice⟩ := exempt_key hexempt
  have hnot : s.asksAbout req = false := by simp [asksAbout, hexempt]
  have hsteps := s.step_steps (.arrive socket req)
  generalize s.step (.arrive socket req) = next at hsteps ⊢
  cases hsteps with
  | @told _ _ found decided ok _ _ covers _ why =>
    rw [hkey, hdevice] at covers
    cases covers with
    | renews _ _ present => cases present
    | @stands r get force =>
      obtain ⟨r', hr', hanswer⟩ := why.resolve_right fun h => by cases h.1
      cases hr'
      simp [get, force, hanswer]
    | absent get =>
      obtain ⟨-, rfl, -⟩ := why.resolve_left fun h => by cases h.choose_spec.1
      simp [get]
    | lapsed get force =>
      obtain ⟨-, rfl, -⟩ := why.resolve_left fun h => by cases h.choose_spec.1
      simp [get, force]
  | @joins _ _ r decided n _ covers _ asking =>
    rw [hkey, hdevice] at covers
    cases covers with
    | renews _ _ present => cases present
    | stands get force => simp [get, force, asking]
  | asks _ _ about =>
    rw [hnot] at about
    cases about
  | repeated seen => exact absurd seen hseen
  | other _ _ _ _ _ _ _ plain => exact absurd rfl (plain.1 socket req)

theorem step_standing (s : GateState) (e : GateEvent) :
    (s.step e).1.standing.Sublist s.standing ∧ (∀ socket req, e = .arrive socket req → socket ∉ s.seen →
      s.asksAbout req = false) ∨ ∃ socket req, e = .arrive socket req ∧ socket ∉ s.seen ∧ s.asksAbout req = true ∧
        (s.step e).1.standing = s.standing ++ [⟨s.asked, req⟩] := by
  have hsteps := s.step_steps e
  generalize s.step e = next at hsteps ⊢
  cases hsteps with
  | told _ _ quiet | joins _ _ quiet =>
    refine .inl ⟨List.Sublist.refl _, fun socket req he _ => ?_⟩
    cases he
    exact quiet
  | asks unseen _ about => exact .inr ⟨_, _, rfl, unseen, about, rfl⟩
  | repeated seen =>
    refine .inl ⟨List.Sublist.refl _, fun socket req he hseen => ?_⟩
    cases he
    exact absurd seen hseen
  | answers => exact .inl ⟨filter_sublist, fun _ _ he => by cases he⟩
  | other _ standing _ _ _ _ _ plain =>
    refine .inl ⟨?_, fun socket req he => absurd he (plain.1 socket req)⟩
    rw [standing]
  | _ => exact .inl ⟨List.Sublist.refl _, fun _ _ he => by cases he⟩

theorem one_question_iff (h : s.Consistent) (hnodup : (s.standing.map fun q => keyFor q.req).Nodup)
    (e : GateEvent) : ((s.step e).1.standing.map fun q => keyFor q.req).Nodup ↔
      ∀ socket req, e = .arrive socket req → socket ∉ s.seen → s.asksAbout req = true →
        ∀ q ∈ s.standing, keyFor q.req = keyFor req → ¬ s.Orphaned q := by
  obtain ⟨hsub, hquiet⟩ | ⟨socket, req, rfl, hseen, hasks, hstanding⟩ := s.step_standing e
  · refine ⟨?_, fun _ => (hsub.map _).nodup hnodup⟩
    rintro - socket req rfl hseen hasks
    rw [hquiet socket req rfl hseen] at hasks
    cases hasks
  · rw [hstanding, map_append, nodup_append]
    constructor
    · rintro ⟨-, -, hdiffer⟩ socket' req' heq hseen' hasks' q hq hkey
      cases heq
      exact absurd hkey (hdiffer _ (mem_map_of_mem hq) _ (by simp))
    · intro hnone
      refine ⟨hnodup, by simp, ?_⟩
      intro a ha b hb heq
      obtain ⟨q, hq, rfl⟩ := mem_map.1 ha
      have hb : b = keyFor req := by simpa using hb
      rw [hb] at heq
      exact hnone socket req rfl hseen hasks q hq heq (h.asksAbout_orphaned hasks heq)

theorem own_record_iff (h : s.Consistent) {q : GateQuestion} (hq : q ∈ s.standing) :
    (∀ k r, s.decided.get k = some r → r.answer ≠ .asking q.id →
      (s.step (.answer q.id none)).1.decided.get k = some r) ↔
      (s.Orphaned q → s.decided.get (keyFor q.req) = none) := by
  have hpost : (s.step (.answer q.id none)).1.decided = s.decided.delete (keyFor q.req) := by
    simp only [step]
    rw [h.find.2 ⟨hq, rfl⟩]
    obtain ⟨decided, ids, added, heq, hsettles, -, -⟩ := s.answered_eq q none
    dsimp only
    rw [heq]
    cases hsettles
    rfl
  rw [hpost]
  constructor
  · intro hkept horphaned
    cases hget : s.decided.get (keyFor q.req) with
    | none => rfl
    | some r =>
      have hkept := hkept _ r hget (horphaned r hget)
      rw [get_delete, if_pos rfl] at hkept
      cases hkept
  · intro hnone k r hget hanswer
    rw [get_delete, if_neg, hget]
    intro hk
    rw [hk] at hget
    have hlost := hnone fun r' hr' => by
      rw [hget] at hr'
      cases hr'
      exact hanswer
    rw [hget] at hlost
    cases hlost

theorem keptApart_iff (h : s.Consistent) (hnodup : (s.standing.map fun q => keyFor q.req).Nodup)
    (asks : Bool) (e : GateEvent) :
    KeptApart ((gateMachine asks).entry s e) ↔ Undisturbed ((gateMachine asks).entry s e) := by
  constructor
  · intro hkept
    refine ⟨?_, ?_, ?_⟩
    · rintro socket req heq hseen hexempt
      have hout := hkept.machine_at_once socket req heq hseen hexempt
      change e = _ at heq
      subst heq
      exact (machine_iff hseen hexempt).1 hout
    · exact (one_question_iff h hnodup e).1 hkept.one_question
    · intro q hq heq
      have hown := hkept.own_record q hq heq
      change e = _ at heq
      subst heq
      exact (own_record_iff h hq).1 hown
  · intro hclear
    refine ⟨?_, ?_, ?_⟩
    · rintro socket req heq hseen hexempt
      have hnone := hclear.machine socket req heq hseen hexempt
      change e = _ at heq
      subst heq
      exact (machine_iff hseen hexempt).2 hnone
    · exact (one_question_iff h hnodup e).2 hclear.arriving
    · intro q hq heq
      have hnone := hclear.failing q hq heq
      change e = _ at heq
      subst heq
      exact (own_record_iff h hq).2 hnone

end GateState

theorem nodup_of_kept {asks : Bool} {es : List GateEvent} (h : ∀ x ∈ (gateMachine asks).trace es, KeptApart x) :
    (((gateMachine asks).run es).standing.map fun q => keyFor q.req).Nodup := by
  induction es using List.reverseRecOn with
  | nil => exact nodup_nil
  | append_singleton es e _ =>
    rw [run_snoc]
    refine (h ((gateMachine asks).entry ((gateMachine asks).run es) e) ?_).one_question
    rw [trace_snoc]
    exact mem_append_right _ (mem_singleton_self _)

/-- In a run the gate keeps connections apart if and only if no step meets what was left of
another decision. -/
theorem kept_apart_iff (asks : Bool) (es : List GateEvent) : (∀ x ∈ (gateMachine asks).trace es, KeptApart x) ↔
      ∀ x ∈ (gateMachine asks).trace es, Undisturbed x := by
  refine run_induction (P := fun es => (∀ x ∈ (gateMachine asks).trace es, KeptApart x) ↔
    ∀ x ∈ (gateMachine asks).trace es, Undisturbed x) (by simp [trace_nil]) ?_ es
  intro es e ih
  simp only [trace_snoc, forall_mem_append, forall_mem_singleton]
  rw [ih]
  refine and_congr_right fun hbefore => ?_
  exact keptApart_iff (GateState.consistent_run asks es) (nodup_of_kept (ih.2 hbefore))
    asks e

/-- A phone that paired with a code. -/
def samplePhone : DeviceId where
  val := "browser-m1x2"
  not_machine := by decide
  not_token := by
    intro tokenId h
    have hhead := congrArg (fun s => s.toList.head?) h
    simp at hhead

def phoneSocket : ConnectionRequest where
  tokenId := some "9f2c"
  deviceId := some samplePhone
  label := some "Chrome"
  transport := .tunnel
  userAgent := none

def machineSocket (transport : AccessTransport) : ConnectionRequest where
  tokenId := none
  deviceId := none
  label := none
  transport := transport
  userAgent := none

def sampleGateRun : List GateEvent :=
  [.arrive 1 (machineSocket .lan), .arrive 2 (machineSocket .loopback), .arrive 3 phoneSocket,
    .forget samplePhone, .arrive 4 phoneSocket, .answer 1 none]

/-- The machine's own client waits for a question about a stranger with its token; a phone that was
forgotten while it was asked about is asked about a second time; and the failure of the first
question drops the record of the second. -/
theorem not_kept_apart : (((gateMachine true).entry ((gateMachine true).run (sampleGateRun.take 1))
        (.arrive 2 (machineSocket .loopback))).out = [] ∧
      (((gateMachine true).run (sampleGateRun.take 5)).standing.map fun q => keyFor q.req) =
        ["machine-token", "browser-m1x2", "browser-m1x2"] ∧
      (((gateMachine true).run (sampleGateRun.take 5)).decided.get "browser-m1x2").isSome = true ∧
      ((gateMachine true).run sampleGateRun).decided.get "browser-m1x2" = none) ∧
    ¬ ∀ x ∈ (gateMachine true).trace sampleGateRun, KeptApart x := by
  refine ⟨by decide +kernel, ?_⟩
  intro h
  have hkept := h ((gateMachine true).entry ((gateMachine true).run (sampleGateRun.take 1))
    (.arrive 2 (machineSocket .loopback)))
    (((gateMachine true).mem_trace _ _).2 ⟨_, _, sampleGateRun.drop 2, rfl, rfl⟩)
  have hout := hkept.machine_at_once 2 _ rfl (by decide +kernel) (by decide +kernel)
  exact absurd hout (by decide +kernel)

end Mtmux.Cli
