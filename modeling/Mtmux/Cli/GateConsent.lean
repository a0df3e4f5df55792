import Mtmux.Cli.GateApart

/-! Whom the gate lets in: the machine itself, a device the policy trusts, and a device a human has
said yes to that has not been away since. -/
namespace Mtmux.Cli
open OrderedMap Machine GateState List
namespace GateState
variable {s : GateState}

def Same (a b : ConnectionRequest) : Prop :=
  a.deviceId = b.deviceId ∧
    (a.deviceId = none → a.tokenId.filter (· ≠ "") = b.tokenId.filter (· ≠ ""))

theorem token_ne_machine (tokenId : String) : "token:" ++ tokenId ≠ "machine-token" := by
  intro h
  have hhead := congrArg (fun s => s.toList.head?) h
  simp at hhead

/-- No two subjects share a key. -/
theorem keyFor_eq {a b : ConnectionRequest} : keyFor a = keyFor b ↔ Same a b := by
  unfold keyFor Same
  cases ha : a.deviceId with
  | some d =>
    cases hb : b.deviceId with
    | some d' =>
      simp only [Option.some.injEq, reduceCtorEq, false_implies, and_true]
      constructor
      · intro h
        cases d
        cases d'
        cases h
        rfl
      · intro h
        rw [h]
    | none =>
      simp only [reduceCtorEq, false_and, iff_false]
      cases b.tokenId.filter (· ≠ "") with
      | some t => exact d.not_token t
      | none => exact d.not_machine
  | none =>
    cases hb : b.deviceId with
    | some d' =>
      simp only [reduceCtorEq, false_and, iff_false]
      cases a.tokenId.filter (· ≠ "") with
      | some t => exact fun h => d'.not_token t h.symm
      | none => exact fun h => d'.not_machine h.symm
    | none =>
      simp only [true_and, true_implies]
      cases a.tokenId.filter (· ≠ "") with
      | some t =>
        cases b.tokenId.filter (· ≠ "") with
        | some t' => simp [String.append_right_inj]
        | none => simp [token_ne_machine]
      | none =>
        cases b.tokenId.filter (· ≠ "") with
        | some t' => simpa using (token_ne_machine t').symm
        | none => simp

variable {d : DeviceId} {req : ConnectionRequest}

theorem device_of_key (h : keyFor req = d.val) : req.deviceId = some d := by
  have hsame : Same req ⟨none, some d, none, .lan, none⟩ := keyFor_eq.1 (by rw [h]; rfl)
  exact hsame.1

/-- Time goes on, and only when it ticks. -/
theorem step_now (s : GateState) (e : GateEvent) :
    (s.step e).1.now = match e with
      | .tick ms => s.now + ms
      | _ => s.now := by
  have hsteps := s.step_steps e
  cases e with
  | arrive | sample | answer =>
    generalize s.step _ = next at hsteps ⊢
    cases hsteps with
    | other _ _ _ _ _ _ now => exact now (by simp)
    | _ => rfl
  | _ => rfl

theorem now_le_step (s : GateState) (e : GateEvent) : s.now ≤ (s.step e).1.now := by
  rw [step_now]
  cases e with
  | tick ms => exact Nat.le_add_right _ _
  | _ => exact Nat.le_refl _

theorem present_of_mem {socket : Nat} (h : (socket, some d) ∈ s.live) : s.present (some d) = true := by
  simp only [present, connected, contains_iff_mem, mem_filterMap]
  exact ⟨_, h, rfl⟩

variable {deviceId : Option DeviceId}

theorem mem_of_present (h : s.present deviceId = true) : ∃ socket d, deviceId = some d ∧ (socket, some d) ∈ s.live := by
  cases deviceId with
  | none => cases h
  | some d =>
    simp only [present, connected, contains_iff_mem, mem_filterMap] at h
    obtain ⟨⟨socket, device⟩, hl, hdevice⟩ := h
    cases hdevice
    exact ⟨socket, d, rfl, hl⟩

variable {r' : Decision} {e : GateEvent}

/-- Where an approval comes from: it stood and nothing forgot it, the device was here, or somebody
said yes. -/
theorem step_approved {k : String} (hget : (s.step e).1.decided.get k = some r') (happroved : r'.approved = true) :
    (s.decided.get k = some r' ∧ (∀ d, e = .forget d → k ≠ d.val) ∧
      ∀ socket req, e = .arrive socket req → socket ∉ s.seen → keyFor req = k → s.inForce r' = true) ∨
    (∃ r d, s.decided.get k = some r ∧ r.approved = true ∧ k = d.val ∧
      s.present (some d) = true ∧ r'.lapses = some (s.now + admitGraceMs) ∧ ∀ d', e ≠ .forget d') ∨
    (∃ d, e = .approve d ∧ k = d.val ∧ r'.lapses = some (s.now + admitGraceMs)) ∨
    ∃ q ∈ s.standing, e = .answer q.id (some true) ∧ keyFor q.req = k ∧ r'.lapses = some (s.now + admitGraceMs) := by
  have hsteps := s.step_steps e
  generalize s.step e = next at hsteps hget
  have same (h : s.decided.get k = some r') (hforget : ∀ d, e ≠ .forget d)
      (harrive : ∀ socket req, e ≠ .arrive socket req) : s.decided.get k = some r' ∧
      (∀ d, e = .forget d → k ≠ d.val) ∧ ∀ socket req, e = .arrive socket req →
        socket ∉ s.seen → keyFor req = k → s.inForce r' = true :=
    ⟨h, fun d hd => absurd hd (hforget d), fun socket req ha => absurd ha (harrive socket req)⟩
  have arrived {socket : Nat} {req : ConnectionRequest} {found : Option Decision} {decided : OrderedMap String Decision}
      (covers : s.Covers (keyFor req) req.deviceId found decided) (hget : decided.get k = some r')
      (he : e = .arrive socket req) :
      (s.decided.get k = some r' ∧ (∀ d, e = .forget d → k ≠ d.val) ∧
        ∀ socket req, e = .arrive socket req → socket ∉ s.seen → keyFor req = k → s.inForce r' = true) ∨
      ∃ r d, s.decided.get k = some r ∧ r.approved = true ∧ k = d.val ∧
        s.present (some d) = true ∧ r'.lapses = some (s.now + admitGraceMs) ∧ ∀ d', e ≠ .forget d' := by
    subst he
    obtain ⟨hold, hforce⟩ | ⟨r, hk, hr, hrapproved, hpresent, rfl⟩ := covers.records hget
    · refine .inl ⟨hold, by simp, fun socket' req' heq _ hkey => ?_⟩
      cases heq
      exact hforce hkey
    · obtain ⟨_, d, hdevice, -⟩ := mem_of_present hpresent
      rw [hdevice] at hpresent
      exact .inr ⟨r, d, hr, hrapproved, by rw [hk, keyFor, hdevice], hpresent, rfl, by simp⟩
  cases hsteps with
  | told _ covers | joins _ covers => exact (arrived covers hget rfl).imp_right .inl
  | asks _ covers =>
    simp only [ask, get_set] at hget
    split at hget
    · cases hget
      cases happroved
    · exact (arrived covers hget rfl).imp_right .inl
  | repeated seen =>
    refine .inl ⟨hget, by simp, fun socket' req' heq hnot => ?_⟩
    cases heq
    exact absurd seen hnot
  | approves d =>
    simp only [approve, get_set] at hget
    split at hget
    · rename_i hk
      cases hget
      exact .inr (.inr (.inl ⟨d, rfl, hk, rfl⟩))
    · exact .inl (same hget (by simp) (by simp))
  | forgets d =>
    simp only [forget, get_delete] at hget
    split at hget
    · cases hget
    · rename_i hk
      refine .inl ⟨hget, fun d' heq => ?_, by simp⟩
      cases heq
      exact hk
  | samples records =>
    obtain hold | ⟨r, d, hd, hk, hr, hrapproved, rfl⟩ := records k r' hget
    · exact .inl (same hold (by simp) (by simp))
    · refine .inr (.inl ⟨r, d, hr, hrapproved, hk, ?_, rfl, by simp⟩)
      simpa [present] using hd
  | @answers q _ _ _ _ stands settles =>
    cases settles with
    | fails =>
      simp only [get_delete] at hget
      split at hget
      · cases hget
      · exact .inl (same hget (by simp) (by simp))
    | late => exact .inl (same hget (by simp) (by simp))
    | @settles ok =>
      simp only [get_set] at hget
      split at hget
      · rename_i hk
        cases hget
        have hok : ok = true := happroved
        subst hok
        exact .inr (.inr (.inr ⟨q, stands, rfl, hk.symm, rfl⟩))
      · exact .inl (same hget (by simp) (by simp))
  | unheard => exact .inl (same hget (by simp) (by simp))
  | other decided _ _ _ _ _ _ plain => exact .inl (same (decided ▸ hget) plain.2 plain.1)

/-- A device that is here was here, or comes in with this step. -/
theorem step_present (h : (s.step e).1.present deviceId = true) : s.present deviceId = true ∨
    (∃ socket req, e = .arrive socket req ∧ socket ∉ s.seen ∧ req.deviceId = deviceId) ∨
    ∃ q ∈ s.standing, e = .answer q.id (some true) ∧ ∃ w ∈ s.waiting, w.question = q.id ∧
      w.req.deviceId = deviceId := by
  have hsteps := s.step_steps e
  generalize s.step e = next at hsteps h
  obtain ⟨socket₀, d, rfl, hl⟩ := mem_of_present h
  cases hsteps with
  | told unseen _ _ _ lets =>
    refine (mem_append.1 hl).imp present_of_mem fun hnew => .inl ⟨_, _, rfl, unseen, (lets _ hnew).symm⟩
  | answers stands _ _ lets =>
    refine (mem_append.1 hl).imp present_of_mem fun hnew => .inr ?_
    obtain ⟨rfl, w, hw, hquestion, hdevice⟩ := lets _ hnew
    exact ⟨_, stands, rfl, w, hw, hquestion, hdevice.symm⟩
  | other _ _ _ _ _ live => exact .inl (present_of_mem (live _ _ hl))
  | _ => exact .inl (present_of_mem hl)

theorem Consistent.covers_asking (h : s.Consistent) {key : String} {decided : OrderedMap String Decision} {r : Decision}
    {n : Nat} (hcovers : s.Covers key deviceId (some r) decided) (hanswer : r.answer = .asking n) :
    ∃ q ∈ s.standing, q.id = n ∧ keyFor q.req = key := by
  cases hcovers with
  | @renews r get approved =>
    have hsettled : r.answer = .settled true := h.approved_settled get approved
    change r.answer = _ at hanswer
    rw [hsettled] at hanswer
    cases hanswer
  | stands get => exact (h.pending _ _ n get hanswer).2.2

theorem Consistent.step_waits (h : s.Consistent) (e : GateEvent) :
    ((s.step e).1.waiting = s.waiting ∧ (s.step e).1.standing = s.standing) ∨
    (∃ socket req n, e = .arrive socket req ∧ socket ∉ s.seen ∧ (s.step e).1.waiting = s.waiting ++ [⟨socket, req, n⟩] ∧
      ((s.step e).1.standing = s.standing ∧ (∃ q ∈ s.standing, q.id = n ∧ keyFor q.req = keyFor req) ∨
        (s.step e).1.standing = s.standing ++ [⟨n, req⟩])) ∨ ∃ q ∈ s.standing, ∃ result, e = .answer q.id result ∧
      (s.step e).1.waiting = (s.waiting.filter fun w => w.question ≠ q.id) ∧
      (s.step e).1.standing = s.standing.filter fun q' => q'.id ≠ q.id := by
  have hsteps := s.step_steps e
  generalize s.step e = next at hsteps ⊢
  cases hsteps with
  | joins unseen covers _ asking =>
    exact .inr (.inl ⟨_, _, _, rfl, unseen, rfl, .inl ⟨rfl, h.covers_asking covers asking⟩⟩)
  | asks unseen => exact .inr (.inl ⟨_, _, _, rfl, unseen, rfl, .inr rfl⟩)
  | answers stands => exact .inr (.inr ⟨_, stands, _, rfl, rfl, rfl⟩)
  | other _ standing _ waiting => exact .inl ⟨waiting, standing⟩
  | _ => exact .inl ⟨rfl, rfl⟩

/-- Who is admitted here: whom a human said yes to. -/
theorem step_admitted (hd : d ∈ (s.step e).1.admittedHere) : (d ∈ s.admittedHere ∧ e ≠ .forget d) ∨ e = .approve d ∨
      ∃ q ∈ s.standing, e = .answer q.id (some true) ∧ q.req.deviceId = some d := by
  have hsteps := s.step_steps e
  generalize s.step e = next at hsteps hd
  cases hsteps with
  | approves d' =>
    cases mem_cons.1 hd with
    | inl hnew => exact .inr (.inl (by rw [hnew]))
    | inr hold => exact .inl ⟨hold, by simp⟩
  | forgets d' =>
    obtain ⟨hold, hne⟩ := mem_filter.1 hd
    refine .inl ⟨hold, fun heq => ?_⟩
    cases heq
    simp at hne
  | answers stands _ notes =>
    cases mem_append.1 hd with
    | inl hnew =>
      obtain ⟨rfl, hdevice⟩ := notes d hnew
      exact .inr (.inr ⟨_, stands, rfl, hdevice⟩)
    | inr hold => exact .inl ⟨hold, by simp⟩
  | other _ _ _ _ admittedHere _ _ plain => exact .inl ⟨admittedHere ▸ hd, plain.2 d⟩
  | _ => exact .inl ⟨hd, by simp⟩

theorem Consistent.answer_out (h : s.Consistent) {q : GateQuestion} (hq : q ∈ s.standing)
    (result : Option Bool) : (s.step (.answer q.id result)).2 =
      (s.waiting.filter fun w => w.question = q.id).map fun w => .verdict w.socket (result.getD false) := by
  simp only [GateState.step]
  rw [h.find.2 ⟨hq, rfl⟩]
  obtain ⟨decided, ids, added, heq, -⟩ := s.answered_eq q result
  dsimp only
  rw [heq]

theorem Consistent.step_verdict (h : s.Consistent) {socket : Nat} (hout : .verdict socket true ∈ (s.step e).2) :
    (∃ req, e = .arrive socket req ∧ socket ∉ s.seen ∧ (exempt req = true ∨ (s.recognised req = true ∧ s.asks = false) ∨
      ∃ r, s.decided.get (keyFor req) = some r ∧ r.approved = true ∧
        (s.inForce r = true ∨ s.present req.deviceId = true))) ∨ ∃ q ∈ s.standing, e = .answer q.id (some true) ∧
      ∃ w ∈ s.waiting, w.question = q.id ∧ w.socket = socket := by
  have hsteps := s.step_steps e
  generalize s.step e = next at hsteps hout
  cases hsteps with
  | told unseen covers _ why =>
    simp only [mem_singleton, GateOutput.verdict.injEq] at hout
    obtain ⟨rfl, rfl⟩ := hout
    refine .inl ⟨_, rfl, unseen, ?_⟩
    obtain ⟨r, rfl, hanswer⟩ | ⟨-, -, hwhy⟩ := why
    · refine .inr (.inr ?_)
      cases covers with
      | @renews r get approved present => exact ⟨r, get, approved, .inr present⟩
      | stands get force => exact ⟨r, get, h.settled _ r true get hanswer, .inl force⟩
    · exact hwhy.imp_right .inl
  | asks => simp at hout
  | @answers q result _ _ _ stands =>
    obtain ⟨w, hw, heq⟩ := mem_map.1 hout
    rw [mem_filter] at hw
    simp only [GateOutput.verdict.injEq] at heq
    refine .inr ⟨q, stands, ?_, w, hw.1, by simpa using hw.2, heq.1⟩
    cases result with
    | none => cases heq.2
    | some ok =>
      have hok : ok = true := heq.2
      rw [hok]
  | _ => cases hout

end GateState

section Consent
variable (asks : Bool)

def Forgotten (es : List GateEvent) (q : GateQuestion) : Prop :=
  ∃ b₁ b₂ d, es = b₁ ++ .forget d :: b₂ ∧ q.req.deviceId = some d ∧
    q ∈ ((gateMachine asks).run b₁).standing

def SaysYes (before : List GateEvent) (e : GateEvent) (req : ConnectionRequest) : Prop :=
  (∃ d, e = .approve d ∧ req.deviceId = some d) ∨
  ∃ q ∈ ((gateMachine asks).run before).standing, e = .answer q.id (some true) ∧
    GateState.Same q.req req ∧ ¬ Forgotten asks before q

/-- Whenever the subject has no live socket for a while, the while is no longer than the grace and
one sample interval. -/
def NeverAway (start after : List GateEvent) (req : ConnectionRequest) : Prop :=
  ∀ a b c, after = a ++ b ++ c →
    (∀ b', b' <+: b → ((gateMachine asks).run (start ++ a ++ b')).present req.deviceId = false) →
    ((gateMachine asks).run (start ++ a ++ b)).now ≤
      ((gateMachine asks).run (start ++ a)).now + admitGraceMs + presenceSampleMs

def Unforgotten (after : List GateEvent) (req : ConnectionRequest) : Prop :=
  ∀ d, req.deviceId = some d → .forget d ∉ after

/-- A human said yes and the device was not forgotten since. -/
def Consented (es : List GateEvent) (req : ConnectionRequest) : Prop :=
  ∃ before e after, es = before ++ e :: after ∧ SaysYes asks before e req ∧ Unforgotten after req

def ConsentHolds (es : List GateEvent) (req : ConnectionRequest) : Prop :=
  ∃ before e after, es = before ++ e :: after ∧ SaysYes asks before e req ∧
    Unforgotten after req ∧ NeverAway asks (before ++ [e]) after req

/-- The device paired with this machine, or a human said yes to it, and the policy is to trust. -/
def Trusted (es : List GateEvent) (req : ConnectionRequest) : Prop :=
  ((gateMachine asks).run es).asks = false ∧ ∃ d, req.deviceId = some d ∧
    (((gateMachine asks).run es).known d = true ∨ Consented asks es req)

structure Sound (before : List GateEvent) (e : GateEvent) : Prop where
  /-- Whoever is let in called the gate at some point, as the machine itself, as a device trusted
  then, or as one whose consent holds. -/
  let_in : ∀ socket, .verdict socket true ∈ ((gateMachine asks).run before |>.step e).2 →
    ∃ b₁ req b₂, before ++ [e] = b₁ ++ .arrive socket req :: b₂ ∧
      socket ∉ ((gateMachine asks).run b₁).seen ∧
      (GateState.exempt req = true ∨ Trusted asks b₁ req ∨ ConsentHolds asks (before ++ [e]) req)
  /-- An answer after the device was forgotten does nothing for it. -/
  late : ∀ q ∈ ((gateMachine asks).run before).standing, ∀ result, e = .answer q.id result →
    Forgotten asks before q →
    (∀ socket, .verdict socket true ∉ ((gateMachine asks).run before |>.step e).2) ∧
    ∀ d ∈ ((gateMachine asks).run before |>.step e).1.admittedHere,
      d ∈ ((gateMachine asks).run before).admittedHere

/-- No question is answered with a yes after its device was forgotten. -/
def Prompt (es : List GateEvent) : Prop :=
  ∀ before q after, es = before ++ .answer q.id (some true) :: after →
    q ∈ ((gateMachine asks).run before).standing → ¬ Forgotten asks before q

variable {asks}

variable {es : List GateEvent}

variable {req : ConnectionRequest} {e : GateEvent}

theorem Unforgotten.snoc {after : List GateEvent}
    (h : Unforgotten after req) (he : ∀ d, req.deviceId = some d → e ≠ .forget d) : Unforgotten (after ++ [e]) req := by
  intro d hd hmem
  rcases mem_append.1 hmem with hmem | hmem
  · exact h d hd hmem
  · exact he d hd (mem_singleton.1 hmem).symm

theorem Consented.snoc (h : Consented asks es req) (he : ∀ d, req.deviceId = some d → e ≠ .forget d) :
    Consented asks (es ++ [e]) req := by
  obtain ⟨before, yes, after, rfl, hyes, hunforgotten⟩ := h
  exact ⟨before, yes, after ++ [e], by simp, hyes, hunforgotten.snoc he⟩

theorem SaysYes.consented (h : SaysYes asks es e req) : Consented asks (es ++ [e]) req :=
  ⟨es, e, [], rfl, h, fun _ _ => by simp⟩

theorem never_away_nil (start : List GateEvent) (req : ConnectionRequest) : NeverAway asks start [] req := by
  intro a b c hsplit _
  simp only [nil_eq, append_eq_nil_iff] at hsplit
  obtain ⟨⟨rfl, rfl⟩, -⟩ := hsplit
  simp only [append_nil]
  omega

/-- Only a stretch that ends at the new event is new. -/
theorem NeverAway.snoc {start after : List GateEvent} (h : NeverAway asks start after req)
    (hlast : ∀ a b, after = a ++ b →
      (∀ b', b' <+: b → ((gateMachine asks).run (start ++ a ++ b')).present req.deviceId = false) →
      ((gateMachine asks).run (start ++ after ++ [e])).present req.deviceId = false →
      ((gateMachine asks).run (start ++ after ++ [e])).now ≤
        ((gateMachine asks).run (start ++ a)).now + admitGraceMs + presenceSampleMs) :
    NeverAway asks start (after ++ [e]) req := by
  intro a b c hsplit haway
  obtain rfl | ⟨c, z, rfl⟩ := eq_nil_or_concat c
  · obtain rfl | ⟨b, z, rfl⟩ := eq_nil_or_concat b
    · simp only [append_nil]
      omega
    · rw [append_nil, concat_eq_append, ← append_assoc] at hsplit
      obtain ⟨rfl, hz⟩ := append_inj' hsplit rfl
      cases hz
      have hend : start ++ a ++ (b ++ [e]) = start ++ (a ++ b) ++ [e] := by simp
      rw [concat_eq_append, hend]
      apply hlast a b rfl
      · intro b' hb'
        exact haway b' (hb'.trans (by simp))
      · have hat := haway (b ++ [e]) (by simp)
        rw [hend] at hat
        exact hat
  · rw [concat_eq_append, ← append_assoc] at hsplit
    obtain ⟨rfl, -⟩ := append_inj' hsplit rfl
    exact h a b c rfl haway

/-- A consent that holds, and the moment in which its cover lapses: no later than a grace after the
yes itself, or after the device was last here. -/
def Covered (asks : Bool) (es : List GateEvent) (req : ConnectionRequest) (u : Nat) : Prop :=
  ∃ before e after, es = before ++ e :: after ∧ SaysYes asks before e req ∧
    Unforgotten after req ∧ NeverAway asks (before ++ [e]) after req ∧
    ∃ a b, after = a ++ b ∧
      (a = [] ∨ ((gateMachine asks).run (before ++ [e] ++ a)).present req.deviceId = true) ∧
      u ≤ ((gateMachine asks).run (before ++ [e] ++ a)).now + admitGraceMs

theorem Covered.holds {u : Nat} (h : Covered asks es req u) : ConsentHolds asks es req := by
  obtain ⟨before, e, after, hsplit, hyes, hunforgotten, hnever, -⟩ := h
  exact ⟨before, e, after, hsplit, hyes, hunforgotten, hnever⟩

theorem SaysYes.covered {u : Nat} (h : SaysYes asks es e req)
    (hu : u ≤ ((gateMachine asks).run (es ++ [e])).now + admitGraceMs) : Covered asks (es ++ [e]) req u :=
  ⟨es, e, [], rfl, h, fun _ _ => by simp, never_away_nil _ req, [], [], rfl, .inl rfl,
    by rw [append_nil]; exact hu⟩

theorem now_le_run (es fs : List GateEvent) :
    ((gateMachine asks).run es).now ≤ ((gateMachine asks).run (es ++ fs)).now := by
  induction fs using List.reverseRecOn with
  | nil => exact Nat.le_of_eq (by rw [append_nil])
  | append_singleton fs e ih =>
    rw [← append_assoc, run_snoc]
    exact Nat.le_trans ih (now_le_step _ e)

theorem Covered.snoc {u : Nat} (h : Covered asks es req u) (he : ∀ d, req.deviceId = some d → e ≠ .forget d)
    (hlasts : ((gateMachine asks).run (es ++ [e])).now < u ∨
      ((gateMachine asks).run (es ++ [e])).present req.deviceId = true) : Covered asks (es ++ [e]) req u := by
  obtain ⟨before, yes, after, rfl, hyes, hunforgotten, hnever, a₀, b₀, hsplit₀, hhere, hu⟩ := h
  have hes : before ++ yes :: after = before ++ [yes] ++ after := by simp
  rw [hes] at hlasts
  refine ⟨before, yes, after ++ [e], by simp, hyes, hunforgotten.snoc he, ?_, a₀, b₀ ++ [e], ?_,
    hhere, hu⟩
  · apply hnever.snoc
    intro a b hsplit haway hend
    have hlt : ((gateMachine asks).run (before ++ [yes] ++ after ++ [e])).now < u := by
      refine hlasts.resolve_right ?_
      rw [hend]
      exact Bool.false_ne_true
    -- the device was last here before it went away
    have hprefix : a₀ <+: a := by
      rcases prefix_or_prefix_of_prefix (⟨b₀, hsplit₀.symm⟩ : a₀ <+: after)
        (⟨b, hsplit.symm⟩ : a <+: after) with hle | ⟨b', rfl⟩
      · exact hle
      · obtain hnil | hpresent := hhere
        · rw [hnil]
          exact nil_prefix
        · have hb : b' <+: b := by
            rw [hsplit, append_assoc, append_cancel_left_eq] at hsplit₀
            exact ⟨b₀, hsplit₀.symm⟩
          have hfalse := haway b' hb
          rw [append_assoc, hpresent] at hfalse
          cases hfalse
    obtain ⟨b', rfl⟩ := hprefix
    have hle := @now_le_run asks (before ++ [yes] ++ a₀) b'
    rw [append_assoc (before ++ [yes]) a₀ b'] at hle
    omega
  · rw [hsplit₀, append_assoc]

theorem Covered.renew {u : Nat} (h : Covered asks es req u) (he : ∀ d, req.deviceId = some d → e ≠ .forget d)
    (hpresent : ((gateMachine asks).run es).present req.deviceId = true) :
    Covered asks (es ++ [e]) req (((gateMachine asks).run es).now + admitGraceMs) := by
  obtain ⟨before, yes, after, rfl, hyes, hunforgotten, hnever, -⟩ := h
  have hes : before ++ yes :: after = before ++ [yes] ++ after := by simp
  rw [hes] at hpresent ⊢
  refine ⟨before, yes, after ++ [e], by simp, hyes, hunforgotten.snoc he, ?_, after, [e], rfl,
    .inr hpresent, Nat.le_refl _⟩
  apply hnever.snoc
  intro a b hsplit haway _
  have hfalse := haway b (prefix_refl b)
  rw [append_assoc, ← hsplit, hpresent] at hfalse
  cases hfalse

structure Waits (asks : Bool) (es : List GateEvent) (s : GateState) : Prop where
  question : ∀ w ∈ s.waiting,
    ∃ q ∈ s.standing, q.id = w.question ∧ keyFor q.req = keyFor w.req
  call : ∀ w ∈ s.waiting, ∃ b₁ b₂,
    es = b₁ ++ .arrive w.socket w.req :: b₂ ∧ w.socket ∉ ((gateMachine asks).run b₁).seen
  waiter : ∀ q ∈ s.standing,
    ∃ w ∈ s.waiting, w.question = q.id

theorem Waits.snoc {s : GateState} (h : Waits asks es s) (hs : (gateMachine asks).run es = s) (e : GateEvent) :
    Waits asks (es ++ [e]) (s.step e).1 := by
  have hcall : ∀ w ∈ s.waiting, ∃ b₁ b₂,
      es ++ [e] = b₁ ++ .arrive w.socket w.req :: b₂ ∧
        w.socket ∉ ((gateMachine asks).run b₁).seen := by
    intro w hw
    obtain ⟨b₁, b₂, heq, hseen⟩ := h.call w hw
    exact ⟨b₁, b₂ ++ [e], by simp [heq], hseen⟩
  rcases (hs ▸ GateState.consistent_run asks es).step_waits e with ⟨hwaiting, hstanding⟩ |
    ⟨socket, req, n, rfl, hseen, hwaiting, hstanding⟩ | ⟨q, hq, result, rfl, hwaiting, hstanding⟩
  · refine ⟨?_, ?_, ?_⟩
    · rw [hwaiting, hstanding]
      exact h.question
    · rw [hwaiting]
      exact hcall
    · rw [hwaiting, hstanding]
      exact h.waiter
  · have hkept : ∀ q ∈ s.standing,
        q ∈ (s.step (.arrive socket req)).1.standing := by
      intro q hq
      obtain ⟨hsame, -⟩ | hnew := hstanding
      · rw [hsame]
        exact hq
      · rw [hnew]
        exact mem_append_left _ hq
    refine ⟨?_, ?_, ?_⟩
    · rw [hwaiting]
      intro w hw
      rcases mem_append.1 hw with hw | hw
      · obtain ⟨q, hq, hid, hkey⟩ := h.question w hw
        exact ⟨q, hkept q hq, hid, hkey⟩
      · rw [mem_singleton.1 hw]
        obtain ⟨-, q, hq, hid, hkey⟩ | hnew := hstanding
        · exact ⟨q, hkept q hq, hid, hkey⟩
        · rw [hnew]
          exact ⟨⟨n, req⟩, by simp, rfl, rfl⟩
    · rw [hwaiting]
      intro w hw
      rcases mem_append.1 hw with hw | hw
      · exact hcall w hw
      · rw [mem_singleton.1 hw]
        exact ⟨es, [], rfl, hs ▸ hseen⟩
    · rw [hwaiting]
      intro q hq
      by_cases hold : q ∈ s.standing
      · obtain ⟨w, hw, hid⟩ := h.waiter q hold
        exact ⟨w, mem_append_left _ hw, hid⟩
      · obtain ⟨hsame, -⟩ | hnew := hstanding
        · rw [hsame] at hq
          exact absurd hq hold
        · rw [hnew] at hq
          have hlast := mem_singleton.1 ((mem_append.1 hq).resolve_left hold)
          rw [hlast]
          exact ⟨⟨socket, req, n⟩, by simp, rfl⟩
  · refine ⟨?_, ?_, ?_⟩
    · rw [hwaiting, hstanding]
      intro w hw
      obtain ⟨hw, hne⟩ := mem_filter.1 hw
      obtain ⟨q', hq', hid, hkey⟩ := h.question w hw
      exact ⟨q', mem_filter.2 ⟨hq', by rw [hid]; exact hne⟩, hid, hkey⟩
    · rw [hwaiting]
      intro w hw
      exact hcall w (mem_filter.1 hw).1
    · rw [hwaiting, hstanding]
      intro q' hq'
      obtain ⟨hq', hne⟩ := mem_filter.1 hq'
      obtain ⟨w, hw, hid⟩ := h.waiter q' hq'
      exact ⟨w, mem_filter.2 ⟨hw, by rw [hid]; exact hne⟩, hid⟩

theorem waits_run (asks : Bool) (es : List GateEvent) : Waits asks es ((gateMachine asks).run es) := by
  refine run_induction (P := fun es => Waits asks es ((gateMachine asks).run es)) ?_
    (fun es e h => by rw [run_snoc]; exact h.snoc rfl e) es
  exact ⟨by simp [gateMachine, run_nil, GateState.start],
    by simp [gateMachine, run_nil, GateState.start],
    by simp [gateMachine, run_nil, GateState.start]⟩

theorem Prompt.before {es fs : List GateEvent} (h : Prompt asks (es ++ fs)) : Prompt asks es := by
  intro before q after heq hq
  exact h before q (after ++ fs) (by simp [heq]) hq

theorem Prompt.says_yes {fs : List GateEvent} {q : GateQuestion}
    (h : Prompt asks (es ++ .answer q.id (some true) :: fs))
    (hq : q ∈ ((gateMachine asks).run es).standing) (hkey : keyFor q.req = keyFor req) :
    SaysYes asks es (.answer q.id (some true)) req :=
  .inr ⟨q, hq, rfl, keyFor_eq.1 hkey, h es q fs rfl hq⟩

/-- The approval covers, until it lapses and for as long as the device is here, whom it is for. -/
def Vouched (asks : Bool) (es : List GateEvent) (k : String) (r : Decision) : Prop :=
  ∃ u, r.lapses = some u ∧ u ≤ ((gateMachine asks).run es).now + admitGraceMs ∧
    ∀ req, keyFor req = k → (((gateMachine asks).run es).now < u ∨
      ((gateMachine asks).run es).present req.deviceId = true) → Covered asks es req u

/-- Every approval that still covers anybody, and everybody who counts as admitted here, goes back
to a human's yes. -/
structure Traced (asks : Bool) (es : List GateEvent) : Prop where
  approved : ∀ k r, ((gateMachine asks).run es).decided.get k = some r → r.approved = true →
    Vouched asks es k r
  admitted : ∀ d ∈ ((gateMachine asks).run es).admittedHere, ∀ req, req.deviceId = some d →
    Consented asks es req

theorem SaysYes.approval (hnow : (((gateMachine asks).run es).step e).1.now = ((gateMachine asks).run es).now)
    {r : Decision} (hlapses : r.lapses = some (((gateMachine asks).run es).now + admitGraceMs))
    {k : String} (hyes : ∀ req, keyFor req = k → SaysYes asks es e req) : Vouched asks (es ++ [e]) k r := by
  have hrun : ((gateMachine asks).run (es ++ [e])).now = ((gateMachine asks).run es).now := by
    rw [run_snoc]
    exact hnow
  refine ⟨_, hlapses, by omega, ?_⟩
  intro req hkey _
  exact (hyes req hkey).covered (by omega)

theorem Traced.approved_snoc (h : Traced asks es) (hprompt : Prompt asks (es ++ [e])) {k : String} {r : Decision}
    (hget : (((gateMachine asks).run es).step e).1.decided.get k = some r) (happroved : r.approved = true) :
    Vouched asks (es ++ [e]) k r := by
  have hrun : (gateMachine asks).run (es ++ [e]) = (((gateMachine asks).run es).step e).1 :=
    (gateMachine asks).run_snoc es e
  have hle := now_le_step ((gateMachine asks).run es) e
  rcases step_approved hget happroved with ⟨hold, hforget, harrive⟩ |
    ⟨r₀, d, hr₀, happroved₀, rfl, hpresent, hlapses, hforget⟩ | ⟨d, rfl, rfl, hlapses⟩ |
    ⟨q, hq, rfl, rfl, hlapses⟩
  · obtain ⟨u, hu, hbound, hcovers⟩ := h.approved k r hold happroved
    refine ⟨u, hu, by rw [hrun]; omega, ?_⟩
    intro req hkey hlasts
    have hkept : ∀ d, req.deviceId = some d → e ≠ .forget d := by
      intro d hdevice heq
      apply hforget d heq
      rw [← hkey, keyFor, hdevice]
    -- a device that comes in with an answer has that yes, whatever the record was
    by_cases hanswer : ∃ q ∈ ((gateMachine asks).run es).standing, e = .answer q.id (some true) ∧
        keyFor q.req = k
    · obtain ⟨q, hq, rfl, hkeyq⟩ := hanswer
      refine (hprompt.says_yes hq (hkeyq.trans hkey.symm)).covered ?_
      rw [hrun]
      omega
    · have hcovered : Covered asks es req u := by
        apply hcovers req hkey
        obtain hlt | hpresent := hlasts
        · rw [hrun] at hlt
          exact .inl (Nat.lt_of_le_of_lt hle hlt)
        · rw [hrun] at hpresent
          rcases step_present hpresent with hpresent | ⟨socket, req', heq, hseen, hdevice⟩ |
            ⟨q, hq, heq, w, hw, hid, hdevice⟩
          · exact .inr hpresent
          · left
            have hkey' : keyFor req' = k := by
              obtain ⟨_, d, hd, -⟩ := mem_of_present hpresent
              rw [← hkey, keyFor, keyFor, hdevice, hd]
            have hforce := harrive socket req' heq hseen hkey'
            simpa [GateState.inForce, hu] using hforce
          · exfalso
            apply hanswer
            refine ⟨q, hq, heq, ?_⟩
            obtain ⟨q', hq', hid', hkey'⟩ := (waits_run asks es).question w hw
            have hsame : q' = q := inj_on_of_nodup_map
              (GateState.consistent_run asks es).ids_nodup hq' hq (hid'.trans hid)
            obtain ⟨_, d, hd, -⟩ := mem_of_present hpresent
            rw [← hsame, hkey', ← hkey, keyFor, keyFor, hdevice, hd]
      exact hcovered.snoc hkept hlasts
  · obtain ⟨u₀, -, -, hcovers⟩ := h.approved d.val r₀ hr₀ happroved₀
    refine ⟨_, hlapses, by rw [hrun]; omega, ?_⟩
    intro req hkey _
    have hdevice := device_of_key hkey
    rw [← hdevice] at hpresent
    exact (hcovers req hkey (.inr hpresent)).renew (fun d' _ => hforget d') hpresent
  · refine SaysYes.approval rfl hlapses ?_
    intro req hkey
    exact .inl ⟨d, rfl, device_of_key hkey⟩
  · refine SaysYes.approval ?_ hlapses ?_
    · rw [step_now]
    · intro req hkey
      exact hprompt.says_yes hq hkey.symm

theorem Traced.admitted_snoc (h : Traced asks es) (hprompt : Prompt asks (es ++ [e])) {d : DeviceId}
    (hd : d ∈ (((gateMachine asks).run es).step e).1.admittedHere)
    (hdevice : req.deviceId = some d) : Consented asks (es ++ [e]) req := by
  rcases step_admitted hd with ⟨hold, hforget⟩ | rfl | ⟨q, hq, rfl, hqdevice⟩
  · refine (h.admitted d hold req hdevice).snoc ?_
    intro d' hd' heq
    rw [hdevice] at hd'
    cases hd'
    exact hforget heq
  · exact SaysYes.consented (.inl ⟨d, rfl, hdevice⟩)
  · refine (hprompt.says_yes hq ?_).consented
    rw [keyFor, keyFor, hqdevice, hdevice]

theorem traced_run (hprompt : Prompt asks es) : Traced asks es := by
  induction es using List.reverseRecOn with
  | nil =>
    exact ⟨by simp [gateMachine, run_nil, GateState.start],
      by simp [gateMachine, run_nil, GateState.start]⟩
  | append_singleton es e ih =>
    have hbefore := ih hprompt.before
    have hrun : (gateMachine asks).run (es ++ [e]) = (((gateMachine asks).run es).step e).1 :=
      (gateMachine asks).run_snoc es e
    refine ⟨?_, ?_⟩
    · intro k r hget happroved
      rw [hrun] at hget
      exact hbefore.approved_snoc hprompt hget happroved
    · intro d hd req hdevice
      rw [hrun] at hd
      exact hbefore.admitted_snoc hprompt hd hdevice

theorem Traced.let_in (h : Traced asks es) (hprompt : Prompt asks (es ++ [e])) {socket : Nat}
    (hout : .verdict socket true ∈ (((gateMachine asks).run es).step e).2) :
    ∃ b₁ req b₂, es ++ [e] = b₁ ++ .arrive socket req :: b₂ ∧ socket ∉ ((gateMachine asks).run b₁).seen ∧
      (GateState.exempt req = true ∨ Trusted asks b₁ req ∨ ConsentHolds asks (es ++ [e]) req) := by
  rcases (GateState.consistent_run asks es).step_verdict hout with ⟨req, rfl, hseen, hwhy⟩ |
    ⟨q, hq, rfl, w, hw, hid, rfl⟩
  · refine ⟨es, req, [], rfl, hseen, ?_⟩
    rcases hwhy with hexempt | ⟨hrecognised, htrust⟩ | ⟨r, hget, happroved, hlasts⟩
    · exact .inl hexempt
    · refine .inr (.inl ⟨htrust, ?_⟩)
      cases hdevice : req.deviceId with
      | none => simp [GateState.recognised, hdevice] at hrecognised
      | some d =>
        simp only [GateState.recognised, hdevice, Bool.or_eq_true, contains_iff_mem]
          at hrecognised
        obtain hknown | hadmitted := hrecognised
        · exact ⟨d, rfl, .inl hknown⟩
        · exact ⟨d, rfl, .inr (h.admitted d hadmitted req hdevice)⟩
    · obtain ⟨u, hu, -, hcovers⟩ := h.approved _ r hget happroved
      have hnow : ((gateMachine asks).run (es ++ [.arrive socket req])).now =
          ((gateMachine asks).run es).now := by
        rw [run_snoc]
        exact step_now _ _
      obtain hforce | hpresent := hlasts
      · have hlt : ((gateMachine asks).run es).now < u := by
          simpa [GateState.inForce, hu] using hforce
        have hcovered := (hcovers req rfl (.inl hlt)).snoc (e := .arrive socket req) (by simp)
          (.inl (by omega))
        exact .inr (.inr hcovered.holds)
      · have hcovered := (hcovers req rfl (.inr hpresent)).renew (e := .arrive socket req) (by simp)
          hpresent
        exact .inr (.inr hcovered.holds)
  · obtain ⟨b₁, b₂, hsplit, hseen⟩ := (waits_run asks es).call w hw
    refine ⟨b₁, w.req, b₂ ++ [.answer q.id (some true)], ?_, hseen, .inr (.inr ?_)⟩
    · rw [hsplit]
      simp
    · obtain ⟨q', hq', hid', hkey⟩ := (waits_run asks es).question w hw
      have hsame : q' = q := inj_on_of_nodup_map
        (GateState.consistent_run asks es).ids_nodup hq' hq (hid'.trans hid)
      subst hsame
      exact ((hprompt.says_yes hq hkey).covered (Nat.zero_le _)).holds

/-- In a run the gate lets in the machine itself, trusted devices and those whose consent holds, and
nobody by an answer that comes too late, if and only if no yes comes after its device was
forgotten. -/
theorem gate_sound_iff (asks : Bool) (es : List GateEvent) :
    (∀ before e after, es = before ++ e :: after → Sound asks before e) ↔ Prompt asks es := by
  constructor
  · intro hsound before q after hsplit hq hforgotten
    have hlate := ((hsound before _ after hsplit).late q hq (some true) rfl hforgotten).1
    obtain ⟨w, hw, hid⟩ := (waits_run asks before).waiter q hq
    apply hlate w.socket
    rw [(GateState.consistent_run asks before).answer_out hq, mem_map]
    exact ⟨w, mem_filter.2 ⟨hw, by simpa using hid⟩, rfl⟩
  · rintro hprompt before e after rfl
    have hsplit : Prompt asks (before ++ [e] ++ after) := by simpa using hprompt
    have hstep : Prompt asks (before ++ [e]) := hsplit.before
    refine ⟨?_, ?_⟩
    · intro socket hout
      exact (traced_run hstep.before).let_in hstep hout
    · rintro q hq result rfl hforgotten
      have hno : result ≠ some true := by
        intro heq
        subst heq
        exact hprompt before q after rfl hq hforgotten
      refine ⟨?_, ?_⟩
      · intro socket hout
        rw [(GateState.consistent_run asks before).answer_out hq, mem_map] at hout
        obtain ⟨w, -, heq⟩ := hout
        simp only [GateOutput.verdict.injEq] at heq
        apply hno
        cases result with
        | none => cases heq.2
        | some ok =>
          have hok : ok = true := heq.2
          rw [hok]
      · intro d hd
        rcases step_admitted hd with ⟨hold, -⟩ | heq | ⟨q', hq', heq, -⟩
        · exact hold
        · cases heq
        · exact absurd (GateEvent.answer.inj heq).2 hno

end Consent

/-- A phone that is asked about is forgotten, and the yes that comes then lets it in and has it
recognised again. -/
theorem not_gate_sound : (((gateMachine true).run [.arrive 1 phoneSocket, .forget samplePhone]).step
        (.answer 0 (some true))).2 = [.verdict 1 true] ∧
      samplePhone ∈ ((gateMachine true).run [.arrive 1 phoneSocket, .forget samplePhone,
        .answer 0 (some true)]).admittedHere ∧ ¬ ∀ before e after, [GateEvent.arrive 1 phoneSocket, .forget samplePhone,
        .answer 0 (some true)] = before ++ e :: after → Sound true before e := by
  refine ⟨by decide +kernel, by decide +kernel, ?_⟩
  intro h
  have hlate := (h [.arrive 1 phoneSocket, .forget samplePhone] (.answer 0 (some true)) [] rfl).late
    ⟨0, phoneSocket⟩ (by decide +kernel) (some true) rfl
    ⟨[.arrive 1 phoneSocket], [], samplePhone, rfl, rfl, by decide +kernel⟩
  exact hlate.1 1 (by decide +kernel)

end Mtmux.Cli
