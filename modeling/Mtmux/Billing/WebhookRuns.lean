import Mtmux.Billing.Acknowledged

/-! Claims and handlers over a whole run, and what an acknowledgement then means. -/
namespace Mtmux.Billing
open OrderedMap Machine Async List

abbrev WebhookHistory : Type := Nat → Option (WebhookRequest × WebhookLog)

/-- The calls of request `i` so far are such as `p` says. -/
def Has (h : WebhookHistory) (p : WebhookLog → Bool) (i : Nat) : Prop := Holds h (fun _ log => p log = true) i

/-- At most one request holds the claim on an id, and an id whose handler has completed stays claimed. -/
structure Kept (s : WebhookStore) (h : WebhookHistory) : Prop where
  held : ∀ {i d}, Has h (claims d) i → s.webhookEvents.has d = true
  one : ∀ {i j d}, Has h (claims d) i → Has h (claims d) j → i = j
  holder : ∀ {d}, s.webhookEvents.has d = true → ∃ i, Has h (claims d) i
  done : ∀ {d}, d ∈ s.handled → ∃ i, Has h (claims d) i ∧ Has h (completes d) i
  completed : ∀ {i d}, Has h (completes d) i → d ∈ s.handled
  once : s.handled.Nodup

/-- An answer that neither makes nor releases a claim, nor completes a handler. -/
def quiet : Async.Exchange Unit WebhookAnswer → Bool
  | ⟨.insertEvent _ _, .ok changes⟩ => decide (changes = (0 : Nat))
  | ⟨.deleteEvent _, .ok _⟩ => false
  | ⟨.authHandler _ _, .ok status⟩ => !isOk status
  | _ => true

variable {x : Async.Exchange Unit WebhookAnswer}

theorem claims_quiet (hx : quiet x = true) (d : String) (log : WebhookLog) : claims d (log ++ [x]) = claims d log := by
  obtain ⟨c, answer⟩ := x
  unfold claims
  simp only [any_append, any_cons, any_nil, Bool.or_false]
  cases answer with
  | error e => cases c <;> simp
  | ok r =>
    cases c with
    | insertEvent id type =>
      have hzero : r = (0 : Nat) := of_decide_eq_true hx
      simp [hzero]
    | deleteEvent id => cases hx
    | _ => simp

theorem completes_quiet (hx : quiet x = true) (d : String)
    (log : WebhookLog) : completes d (log ++ [x]) = completes d log := by
  obtain ⟨c, answer⟩ := x
  unfold completes
  simp only [any_append, any_cons, any_nil, Bool.or_false]
  cases answer with
  | error e => cases c <;> simp
  | ok r =>
    cases c with
    | authHandler id signed =>
      have hnot : isOk r = false := by simpa [quiet] using hx
      simp [hnot]
    | _ => simp

section Update
variable {s : WebhookStore} {h : WebhookHistory} {i : Nat} {req : WebhookRequest} {log log' : WebhookLog}

theorem has_here {p : WebhookLog → Bool} (hi : h i = some (req, log)) : Has h p i ↔ p log = true := holds_here hi

theorem has_update {p : WebhookLog → Bool} {j : Nat} : Has (Function.update h i (some (req, log'))) p j ↔
    if j = i then p log' = true else Has h p j := holds_update

/-- Nothing that counts is changed by a call. -/
theorem has_kept {p : WebhookLog → Bool} (hold : Has h p i ↔ p log' = true) (j : Nat) :
    Has (Function.update h i (some (req, log'))) p j ↔ Has h p j := holds_kept hold

theorem Kept.same {h' : WebhookHistory} (hkept : Kept s h) (hclaims : ∀ d j, Has h' (claims d) j ↔ Has h (claims d) j)
    (hcompletes : ∀ d j, Has h' (completes d) j ↔ Has h (completes d) j) : Kept s h' where
  held hclaim := hkept.held ((hclaims _ _).1 hclaim)
  one hclaim hclaim' := hkept.one ((hclaims _ _).1 hclaim) ((hclaims _ _).1 hclaim')
  holder hd := (hkept.holder hd).imp fun _ => (hclaims _ _).2
  done hd := (hkept.done hd).imp fun _ hboth => ⟨(hclaims _ _).2 hboth.1, (hcompletes _ _).2 hboth.2⟩
  completed hcomplete := hkept.completed ((hcompletes _ _).1 hcomplete)
  once := hkept.once

/-- One request gets on without touching its claim. -/
theorem Kept.quiet (hkept : Kept s h) (hi : h i = some (req, log))
    (hclaims : ∀ d, claims d log' = claims d log) (hcompletes : ∀ d, completes d log' = completes d log) :
    Kept s (Function.update h i (some (req, log'))) :=
  hkept.same (fun d => has_kept (by rw [has_here hi, hclaims])) fun d => has_kept (by rw [has_here hi, hcompletes])

/-- A new request has claimed nothing yet. -/
theorem Kept.start (hkept : Kept s h) (hi : h i = none) : Kept s (Function.update h i (some (req, []))) :=
  hkept.same (fun d => has_kept (by simp [Has, Holds, hi, claims])) fun d => has_kept (by simp [Has, Holds, hi, completes])

/-- A request claims an id that nobody has claimed. -/
theorem Kept.claim (hkept : Kept s h) (hi : h i = some (req, log))
    (hfree : s.webhookEvents.has d = false) (hold : ∀ d', claims d' log = false)
    (hclaims : ∀ d', claims d' log' = decide (d = d')) (hcompletes : ∀ d', completes d' log' = completes d' log) :
    Kept { s with webhookEvents := s.webhookEvents.set d type } (Function.update h i (some (req, log'))) := by
  have hhas : ∀ e, (s.webhookEvents.set d type).has e = true ↔ e = d ∨ s.webhookEvents.has e = true := by
    intro e
    unfold OrderedMap.has
    rw [get_set]
    by_cases he : e = d
    · simp [he]
    · simp [he]
  have hnobody : ∀ j, ¬ Has h (claims d) j := fun j hclaim => by
    rw [hkept.held hclaim] at hfree
    cases hfree
  have hnew : ∀ e j, Has (Function.update h i (some (req, log'))) (claims e) j ↔
      (e = d ∧ j = i) ∨ Has h (claims e) j := by
    intro e j
    rw [has_update]
    split
    · rename_i hji
      simp [hji, has_here hi, hold, hclaims, eq_comm]
    · rename_i hji
      simp [hji]
  have hdone : ∀ e j, Has (Function.update h i (some (req, log'))) (completes e) j ↔ Has h (completes e) j :=
    fun e => has_kept (by rw [has_here hi, hcompletes])
  refine ⟨fun {j e} hclaim => ?_, fun {j k e} hclaim hclaim' => ?_, fun {e} he => ?_, fun {e} he => ?_, fun hcomplete =>
    hkept.completed ((hdone _ _).1 hcomplete), hkept.once⟩
  · exact (hhas e).2 (((hnew e j).1 hclaim).imp And.left hkept.held)
  · cases (hnew e j).1 hclaim with
    | inl hhere =>
      obtain ⟨rfl, rfl⟩ := hhere
      cases (hnew _ k).1 hclaim' with
      | inl hhere' => exact hhere'.2.symm
      | inr hthere' => exact absurd hthere' (hnobody k)
    | inr hthere =>
      cases (hnew e k).1 hclaim' with
      | inl hhere' =>
        obtain ⟨rfl, rfl⟩ := hhere'
        exact absurd hthere (hnobody j)
      | inr hthere' => exact hkept.one hthere hthere'
  · cases (hhas e).1 he with
    | inl hthis => exact ⟨i, (hnew e i).2 (.inl ⟨hthis, rfl⟩)⟩
    | inr hbefore => exact (hkept.holder hbefore).imp fun j hclaim => (hnew e j).2 (.inr hclaim)
  · exact (hkept.done he).imp fun j hboth => ⟨(hnew e j).2 (.inr hboth.1), (hdone e j).2 hboth.2⟩

theorem Kept.complete {d : String} (hkept : Kept s h) (hi : h i = some (req, log))
    (hold : claims d log = true) (hnot : completes d log = false) (hclaims : ∀ d', claims d' log' = claims d' log)
    (hcompletes : ∀ d', completes d' log' = (decide (d = d') || completes d' log)) :
    Kept { s with handled := s.handled ++ [d] } (Function.update h i (some (req, log'))) := by
  have hmine : Has h (claims d) i := (has_here hi).2 hold
  have hnew : d ∉ s.handled := by
    intro hmem
    obtain ⟨j, hclaim, hcomplete⟩ := hkept.done hmem
    obtain rfl := hkept.one hmine hclaim
    rw [has_here hi, hnot] at hcomplete
    cases hcomplete
  have hsame : ∀ e j, Has (Function.update h i (some (req, log'))) (claims e) j ↔ Has h (claims e) j :=
    fun e => has_kept (by rw [has_here hi, hclaims])
  have hdone : ∀ e j, Has (Function.update h i (some (req, log'))) (completes e) j ↔
      (e = d ∧ j = i) ∨ Has h (completes e) j := by
    intro e j
    rw [has_update]
    split
    · rename_i hji
      rw [hji, has_here hi, hcompletes, Bool.or_eq_true, decide_eq_true_eq, eq_comm, and_iff_left rfl]
    · rename_i hji
      simp [hji]
  refine ⟨fun hclaim => hkept.held ((hsame _ _).1 hclaim),
    fun hclaim hclaim' => hkept.one ((hsame _ _).1 hclaim) ((hsame _ _).1 hclaim'),
    fun he => (hkept.holder he).imp fun _ => (hsame _ _).2, fun {e} he => ?_, fun {j e} hcomplete => ?_, ?_⟩
  · cases mem_append.1 he with
    | inl hbefore =>
      exact (hkept.done hbefore).imp fun j hboth => ⟨(hsame e j).2 hboth.1, (hdone e j).2 (.inr hboth.2)⟩
    | inr hnow =>
      cases mem_singleton.1 hnow
      exact ⟨i, (hsame _ i).2 hmine, (hdone _ i).2 (.inl ⟨rfl, rfl⟩)⟩
  · refine mem_append.2 ?_
    cases (hdone e j).1 hcomplete with
    | inl hnow => exact .inr (mem_singleton.2 hnow.1)
    | inr hbefore => exact .inl (hkept.completed hbefore)
  · refine nodup_append.2 ⟨hkept.once, nodup_singleton _, ?_⟩
    intro a ha b hb hab
    cases mem_singleton.1 hb
    exact hnew (hab ▸ ha)

theorem Kept.release {d : String} (hkept : Kept s h) (hi : h i = some (req, log))
    (hold : ∀ d', claims d' log = decide (d = d')) (hnot : ∀ d', completes d' log = false)
    (hclaims : ∀ d', claims d' log' = false) (hcompletes : ∀ d', completes d' log' = false) :
    Kept { s with webhookEvents := s.webhookEvents.delete d } (Function.update h i (some (req, log'))) := by
  have hmine : Has h (claims d) i := (has_here hi).2 (by simp [hold])
  have hhas : ∀ e, (s.webhookEvents.delete d).has e = true ↔ e ≠ d ∧ s.webhookEvents.has e = true := by
    intro e
    unfold OrderedMap.has
    rw [get_delete]
    by_cases he : e = d
    · simp [he]
    · simp [he]
  have hrest : ∀ e j, Has (Function.update h i (some (req, log'))) (claims e) j ↔ e ≠ d ∧ Has h (claims e) j := by
    intro e j
    rw [has_update]
    split
    · rename_i hji
      rw [hji, has_here hi, hold, hclaims]
      exact iff_of_false Bool.false_ne_true fun hboth => hboth.1 (of_decide_eq_true hboth.2).symm
    · rename_i hji
      refine (and_iff_right_of_imp fun hclaim => ?_).symm
      rintro rfl
      exact hji (hkept.one hclaim hmine)
  have hdone : ∀ e j, Has (Function.update h i (some (req, log'))) (completes e) j ↔ Has h (completes e) j :=
    fun e => has_kept (by rw [has_here hi, hcompletes, hnot])
  refine ⟨fun hclaim => (hhas _).2 (((hrest _ _).1 hclaim).imp_right hkept.held),
    fun hclaim hclaim' => hkept.one ((hrest _ _).1 hclaim).2 ((hrest _ _).1 hclaim').2, fun {e} he => ?_,
    fun {e} he => ?_, fun hcomplete => hkept.completed ((hdone _ _).1 hcomplete), hkept.once⟩
  · obtain ⟨hne, hbefore⟩ := (hhas e).1 he
    exact (hkept.holder hbefore).imp fun j hclaim => (hrest e j).2 ⟨hne, hclaim⟩
  · obtain ⟨j, hclaim, hcomplete⟩ := hkept.done he
    refine ⟨j, (hrest e j).2 ⟨?_, hclaim⟩, (hdone e j).2 hcomplete⟩
    rintro rfl
    obtain rfl := hkept.one hmine hclaim
    rw [has_here hi, hnot] at hcomplete
    cases hcomplete

end Update

section Exec
variable {s : WebhookStore} {h : WebhookHistory} {i : Nat} {req : WebhookRequest} {log : WebhookLog}

variable {raw : Option (Option String)} {fate : WebhookFate}

/-- The statement that claims an id, and the one that releases it, whatever else the surroundings decide. -/
theorem kept_claiming
    (hkept : Kept s h) (hi : h i = some (req, [⟨.readRawBody req.raw, .ok raw⟩])) (hfate : fate ≠ .throws) :
    Kept (s.exec (.insertEvent d type) fate).1 (Function.update h i (some (req,
      [⟨.readRawBody req.raw, .ok raw⟩, ⟨.insertEvent d type, (s.exec (.insertEvent d type) fate).2⟩]))) := by
  have hexec : s.exec (.insertEvent d type) fate = if s.webhookEvents.has d then (s, .ok (0 : Nat))
      else ({ s with webhookEvents := s.webhookEvents.set d type }, .ok (1 : Nat)) := by
    cases fate with
    | throws => exact absurd rfl hfate
    | works | refuses _ => rfl
  rw [hexec]
  split
  · refine hkept.quiet hi ?_ ?_
    · exact fun d' => @claims_quiet ⟨.insertEvent d type, .ok (0 : Nat)⟩ rfl d' [_]
    · exact fun d' => @completes_quiet ⟨.insertEvent d type, .ok (0 : Nat)⟩ rfl d' [_]
  · rename_i hfree
    refine hkept.claim hi (by simpa using hfree) ?_ ?_ ?_
    · intro d'
      simp [claims]
    · intro d'
      simp [claims]
    · intro d'
      simp [completes]

theorem kept_releasing {changes : Nat}
    {answer : Except Unit Nat} (hkept : Kept s h)
    (hi : h i = some (req, [⟨.readRawBody req.raw, .ok raw⟩, ⟨.insertEvent d type, .ok changes⟩,
      ⟨.authHandler d req.signed, answer⟩])) (hclaimed : changes ≠ 0)
    (hanswer : ∀ status, answer = .ok status → isOk status = false) (hfate : fate ≠ .throws) :
    Kept (s.exec (.deleteEvent d) fate).1 (Function.update h i (some (req,
      [⟨.readRawBody req.raw, .ok raw⟩, ⟨.insertEvent d type, .ok changes⟩,
        ⟨.authHandler d req.signed, answer⟩, ⟨.deleteEvent d, (s.exec (.deleteEvent d) fate).2⟩]))) := by
  have hexec : s.exec (.deleteEvent d) fate =
      ({ s with webhookEvents := s.webhookEvents.delete d }, .ok ()) := by
    cases fate with
    | throws => exact absurd rfl hfate
    | works | refuses _ => rfl
  have hnot : ∀ status, answer = .ok status → isOk status = false := hanswer
  rw [hexec]
  refine hkept.release hi ?_ ?_ ?_ ?_
  · intro d'
    simp [claims, hclaimed]
  · intro d'
    cases answer with
    | error e => simp [completes]
    | ok status => simp [completes, hnot status rfl]
  · intro d'
    by_cases hd : d = d'
    · simp [claims, hd]
    · simp [claims, hd]
  · intro d'
    cases answer with
    | error e => simp [completes]
    | ok status => simp [completes, hnot status rfl]

variable {c : WebhookCall}

theorem kept_exec (hkept : Kept s h) (hi : h i = some (req, log)) (hasks : Asks req log c)
    (fate : WebhookFate) : Kept (s.exec c fate).1
      (Function.update h i (some (req, log ++ [⟨c, (s.exec c fate).2⟩]))) := by
  have hquiet : ∀ answer : Except Unit (WebhookAnswer c), quiet ⟨c, answer⟩ = true →
      Kept s (Function.update h i (some (req, log ++ [⟨c, answer⟩]))) := by
    intro answer hanswer
    exact hkept.quiet hi (fun d => claims_quiet hanswer d log) (fun d => completes_quiet hanswer d log)
  cases fate with
  | throws =>
    have hsame : s.exec c .throws = (s, .error ()) := by cases c <;> rfl
    rw [hsame]
    exact hquiet _ (by cases c <;> rfl)
  | works =>
    cases hasks with
    | claiming hid => exact kept_claiming hkept hi (by simp)
    | releasing hid hclaimed hanswer => exact kept_releasing hkept hi hclaimed hanswer (by simp)
    | @handling d type raw changes hid hclaimed =>
      simp only [WebhookStore.exec]
      split
      · refine hkept.complete hi ?_ ?_ ?_ ?_
        · simp [claims, hclaimed]
        · simp [completes]
        · intro d'
          simp [claims]
        · intro d'
          simp [completes, isOk]
      · exact hquiet _ rfl
    | _ => exact hquiet _ rfl
  | refuses status =>
    cases hasks with
    | claiming hid => exact kept_claiming hkept hi (by simp)
    | releasing hid hclaimed hanswer => exact kept_releasing hkept hi hclaimed hanswer (by simp)
    | handling hid hclaimed =>
      refine hquiet _ ?_
      have hnot := status.2
      simp [WebhookStore.exec, quiet, hnot]
    | _ => exact hquiet _ rfl

theorem handled_exec (s : WebhookStore) (c : WebhookCall) (fate : WebhookFate) :
    s.handled ⊆ (s.exec c fate).1.handled := by
  intro d hd
  cases fate with
  | throws => cases c <;> exact hd
  | works =>
    cases c with
    | insertEvent id type =>
      simp only [WebhookStore.exec]
      split <;> exact hd
    | authHandler id signed =>
      simp only [WebhookStore.exec]
      split
      · exact mem_append_left _ hd
      · exact hd
    | _ => exact hd
  | refuses status =>
    cases c with
    | insertEvent id type =>
      simp only [WebhookStore.exec]
      split <;> exact hd
    | _ => exact hd

end Exec

def toldRepeated (d type : String) (req : WebhookRequest) (log : WebhookLog) : Prop :=
  req.signed = true ∧ ⟨.insertEvent d type, .ok (0 : Nat)⟩ ∈ log

def toldOk (id : Option String) (req : WebhookRequest) (log : WebhookLog) : Prop :=
  req.signed = true ∧ acknowledges log = true ∧ req.deliveryId = id

/-- Requests that have found their id claimed, and requests that have been acknowledged. -/
structure Answered (s : WebhookStore) (h : WebhookHistory) : Prop where
  repeated : ∀ {i d type}, Holds h (toldRepeated d type) i → d ∈ s.handled
  acknowledged : ∀ {i id}, Holds h (toldOk id) i → ∃ d, id = some d ∧ d ∈ s.handled

theorem acks_respond {answer : Except Unit (WebhookAnswer c)} (h : acks ⟨c, answer⟩ = true) :
    ∃ status, c = .respond status ∧ isOk status = true := by
  cases answer with
  | error e => cases c <;> cases h
  | ok r =>
    cases c with
    | respond status => exact ⟨status, rfl, h⟩
    | _ => cases h

theorem answered_exec {s : WebhookStore} {h : WebhookHistory} {i : Nat} {req : WebhookRequest}
    {log : WebhookLog} (hkept : Kept s h) (hanswered : Answered s h)
    (hi : h i = some (req, log)) (hasks : Asks req log c)
    (hturn : ∀ d type, c = .insertEvent d type → req.signed = true → ∀ j req' log', h j = some (req', log') →
      claims d log' = true → completes d log' = true) :
    Answered (s.exec c fate).1 (Function.update h i (some (req, log ++ [⟨c, (s.exec c fate).2⟩]))) := by
  have hmore := handled_exec s c fate
  refine ⟨?_, ?_⟩
  · intro j d type hheld
    rw [holds_update] at hheld
    split at hheld
    · obtain ⟨hsigned, hmem⟩ := hheld
      cases mem_append.1 hmem with
      | inl hbefore => exact hmore (hanswered.repeated ((holds_here hi).2 ⟨hsigned, hbefore⟩))
      | inr hnow =>
        have hx := mem_singleton.1 hnow
        have hc : c = .insertEvent d type := (congrArg Sigma.fst hx).symm
        subst hc
        have htaken : s.webhookEvents.has d = true := by
          by_contra hfree
          cases fate with
          | throws => cases hx
          | works =>
            simp only [WebhookStore.exec, if_neg hfree] at hx
            cases hx
          | refuses status =>
            simp only [WebhookStore.exec, if_neg hfree] at hx
            cases hx
        obtain ⟨k, req'', log'', hk, hclaim⟩ := hkept.holder htaken
        exact hmore (hkept.completed ⟨req'', log'', hk, hturn d type rfl hsigned k req'' log'' hk hclaim⟩)
    · exact hmore (hanswered.repeated hheld)
  · intro j id hheld
    rw [holds_update] at hheld
    split at hheld
    · obtain ⟨hsigned, hacks, rfl⟩ := hheld
      unfold acknowledges at hacks
      rw [any_append, Bool.or_eq_true] at hacks
      cases hacks with
      | inl hbefore =>
        obtain ⟨d, hid, hd⟩ := hanswered.acknowledged ((holds_here hi).2 ⟨hsigned, hbefore, rfl⟩)
        exact ⟨d, hid, hmore hd⟩
      | inr hnow =>
        obtain ⟨status, rfl, hok⟩ := acks_respond (by simpa using hnow)
        cases hasks with
        | refusing hstatus =>
          rw [hok] at hstatus
          cases hstatus
        | @repeated d type raw hid =>
          exact ⟨d, hid, hmore (hanswered.repeated ((holds_here hi).2 ⟨hsigned, mem_cons_of_mem _ mem_cons_self⟩))⟩
        | acknowledging hid hok' hmem =>
          refine ⟨_, hid, hmore (hkept.completed ⟨req, log, hi, ?_⟩)⟩
          exact any_eq_true.2 ⟨_, hmem, by simp [hok']⟩
    · exact (hanswered.acknowledged hheld).imp fun d hd => ⟨hd.1, hmore hd.2⟩

theorem handles_run (es : List WebhookEvent) (h : ∀ x ∈ webhookMachine.trace es, ClaimsInTurn x) :
    Kept (webhookMachine.run es).shared (webhookMachine.run es).history ∧
      Answered (webhookMachine.run es).shared (webhookMachine.run es).history := by
  induction es using List.reverseRecOn with
  | nil =>
    refine ⟨⟨?_, ?_, ?_, ?_, ?_, nodup_nil⟩, ⟨?_, ?_⟩⟩
    · rintro i d ⟨_, _, hi, -⟩
      cases hi
    · rintro i j d ⟨_, _, hi, -⟩
      cases hi
    · intro d hd
      cases hd
    · intro d hd
      cases hd
    · rintro i d ⟨_, _, hi, -⟩
      cases hi
    · rintro i d type ⟨_, _, hi, -⟩
      cases hi
    · rintro i id ⟨_, _, hi, -⟩
      cases hi
  | append_singleton es e ih =>
    obtain ⟨hpast, hturn⟩ := forall_trace_snoc h
    have hbefore := ih hpast
    rw [run_snoc]
    refine history_step (I := fun s h => Kept s h ∧ Answered s h) serveWebhook_readOnly
      (stands_run webhookHost _ es) (fresh_run webhookHost _ es) hbefore ?_ ?_ ?_
    · intro req he hnone
      refine ⟨hbefore.1.start hnone, ⟨?_, ?_⟩⟩
      · intro j d type hheld
        cases (holds_start hnone).1 hheld with
        | inl hhere => cases hhere.2.2
        | inr hthere => exact hbefore.2.repeated hthere
      · intro j id hheld
        cases (holds_start hnone).1 hheld with
        | inl hhere => cases hhere.2.2.1
        | inr hthere => exact hbefore.2.acknowledged hthere
    · intro i fate req log c next he hget hreach
      have hi : (webhookMachine.run es).history i = some (req, log) := World.history_get hget
      have hasks := asks_serveWebhook hreach
      refine ⟨kept_exec hbefore.1 hi hasks fate, answered_exec hbefore.1 hbefore.2 hi hasks ?_⟩
      rintro d type rfl hsigned j req' log' hj hclaim
      obtain ⟨stage, hr⟩ := Async.World.history_some hj
      have hvalue : ⟨req', log', stage⟩ ∈ (webhookMachine.run es).tasks.values :=
        mem_map_of_mem ((get_eq_some _ _ _).1 hr)
      refine hturn d ?_ _ hvalue hclaim
      subst he
      change WebhookWorld.claimant (webhookMachine.run es) (.exec i fate) = some d
      simp [WebhookWorld.claimant, hget, hsigned]
    · intro e' he
      cases e'

/-- Where every signed request claims its id in turn, an acknowledged delivery has been handled. No delivery is
handled twice. -/
theorem deliveries_handled (es : List WebhookEvent) (h : ∀ x ∈ webhookMachine.trace es, ClaimsInTurn x) :
    HandlesAll (webhookMachine.run es) :=
  ⟨fun _ req log hi hsigned hacks => (handles_run es h).2.acknowledged ⟨req, log, hi, hsigned, hacks, rfl⟩,
    (handles_run es h).1.once⟩

def aDelivery : WebhookRequest := ⟨some "msg_1", some (some "subscription.active"), true⟩
def calls (i n : Nat) : List WebhookEvent := (List.replicate n [.exec i .works, .resume i]).flatten

/-- The handler fails, the delivery is sent again and handled, and a late copy is told so. -/
def retriedDelivery : List WebhookEvent :=
  [.start aDelivery] ++ calls 0 2 ++ [.exec 0 .throws, .resume 0] ++ calls 0 2 ++
    [.start aDelivery] ++ calls 1 5 ++ [.start aDelivery] ++ calls 2 3

theorem deliveries_handled_retried : HandlesAll (webhookMachine.run retriedDelivery) :=
  deliveries_handled retriedDelivery (by decide +kernel)

/-- The second copy comes while the handler runs for the first, which then fails. -/
def swallowedDelivery : List WebhookEvent :=
  [.start aDelivery] ++ calls 0 2 ++ [.start aDelivery] ++ calls 1 3 ++ [.exec 0 .throws, .resume 0] ++ calls 0 2

/-- It has been told that all is well, and nothing was done. -/
theorem not_deliveries_handled : ¬ ∀ es, HandlesAll (webhookMachine.run es) := by
  intro h
  have hacks : (webhookMachine.run swallowedDelivery).history 1 = some (aDelivery,
      [⟨.readRawBody aDelivery.raw, .ok aDelivery.raw⟩,
        ⟨.insertEvent "msg_1" "subscription.active", .ok (0 : Nat)⟩, ⟨.respond 200, .ok ()⟩]) := by rfl
  obtain ⟨d, -, hd⟩ := (h swallowedDelivery).acknowledged 1 _ _ hacks rfl rfl
  have hnothing : (webhookMachine.run swallowedDelivery).shared.handled = [] := by rfl
  rw [hnothing] at hd
  cases hd

end Mtmux.Billing
