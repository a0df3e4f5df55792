import Mtmux.Billing.Webhooks

/-! Is a delivery that has been acknowledged always one whose handler has completed? -/
namespace Mtmux.Billing
open Async

/-- The request has claimed the id and has not released it. -/
def claims (d : String) (log : WebhookLog) : Bool :=
  (log.any fun x => match x with
    | ⟨.insertEvent id _, .ok changes⟩ => decide (id = d) && decide (changes ≠ (0 : Nat))
    | _ => false) &&
  !(log.any fun x => match x with
    | ⟨.deleteEvent id, .ok _⟩ => decide (id = d)
    | _ => false)

def completes (d : String) (log : WebhookLog) : Bool :=
  log.any fun x => match x with
    | ⟨.authHandler id _, .ok status⟩ => decide (id = d) && isOk status
    | _ => false

/-- A 2xx status goes out. -/
def acks : Async.Exchange Unit WebhookAnswer → Bool
  | ⟨.respond status, .ok _⟩ => isOk status
  | _ => false

def acknowledges (log : WebhookLog) : Bool := log.any acks

structure HandlesAll (s : WebhookWorld) : Prop where
  acknowledged : ∀ i req log, s.history i = some (req, log) → req.signed = true → acknowledges log = true →
    ∃ d, req.deliveryId = some d ∧ d ∈ s.shared.handled
  once : s.shared.handled.Nodup

abbrev WebhookEntry : Type := Machine.Entry WebhookWorld WebhookEvent (Nat × Empty)

/-- The insertion of a signed request for this id. -/
def WebhookWorld.claimant (s : WebhookWorld) (e : WebhookEvent) : Option String :=
  match e with
  | .exec i _ =>
    match s.tasks.get i with
    | some ⟨req, _, .asking (.insertEvent d _) _⟩ => if req.signed then some d else none
    | _ => none
  | _ => none

/-- When a signed request asks for its claim, whoever holds a claim on the id has completed the handler: nobody
runs between the claim and the end of the handler or the release, and nobody has been stopped there. -/
def ClaimsInTurn (x : WebhookEntry) : Prop :=
  ∀ d ∈ WebhookWorld.claimant x.pre x.event, ∀ r ∈ x.pre.tasks.values,
    claims d r.log = true → completes d r.log = true

instance (x : WebhookEntry) : Decidable (ClaimsInTurn x) := by
  unfold ClaimsInTurn
  infer_instance

inductive Asks (req : WebhookRequest) : WebhookLog → WebhookCall → Prop where
  | reading : Asks req [] (.readRawBody req.raw)
  | claiming {d type : String} {raw : Option (Option String)} (hid : req.deliveryId = some d) :
      Asks req [⟨.readRawBody req.raw, .ok raw⟩] (.insertEvent d type)
  | handling {d type : String} {raw : Option (Option String)} {changes : Nat}
      (hid : req.deliveryId = some d) (hclaimed : changes ≠ 0) :
      Asks req [⟨.readRawBody req.raw, .ok raw⟩, ⟨.insertEvent d type, .ok changes⟩]
        (.authHandler d req.signed)
  | releasing {d type : String} {raw : Option (Option String)} {changes : Nat} {answer : Except Unit Nat}
      (hid : req.deliveryId = some d) (hclaimed : changes ≠ 0)
      (hanswer : ∀ status, answer = .ok status → isOk status = false) :
      Asks req [⟨.readRawBody req.raw, .ok raw⟩, ⟨.insertEvent d type, .ok changes⟩,
        ⟨.authHandler d req.signed, answer⟩] (.deleteEvent d)
  | copying {log : WebhookLog} : Asks req log .arrayBuffer
  | refusing {log : WebhookLog} {status : Nat} (hstatus : isOk status = false) :
      Asks req log (.respond status)
  | repeated {d type : String} {raw : Option (Option String)} (hid : req.deliveryId = some d) :
      Asks req [⟨.readRawBody req.raw, .ok raw⟩, ⟨.insertEvent d type, .ok (0 : Nat)⟩] (.respond 200)
  | acknowledging {d : String} {log : WebhookLog} {status : Nat} (hid : req.deliveryId = some d)
      (hok : isOk status = true) (hmem : ⟨.authHandler d req.signed, .ok status⟩ ∈ log) :
      Asks req log (.respond status)

section
variable {req : WebhookRequest} {log : WebhookLog} {c : WebhookCall}

variable {next : Except Unit (WebhookAnswer c) → WebhookTask Unit}

theorem asks_writeWebResponse {status : Nat}
    (h : (writeWebResponse status).Reaches log (.await c next)) : c = .arrayBuffer ∨ c = .respond status := by
  cases asks_bind h with
  | inl hcopy =>
    obtain ⟨next', hcopy⟩ := hcopy
    cases asks_catching hcopy with
    | inl hcall => exact .inl (asks_call hcall.choose_spec).2
    | inr hcaught =>
      obtain ⟨before, after, e, -, -, hdone⟩ := hcaught
      cases hdone
  | inr hsend =>
    obtain ⟨before, after, a, -, -, hsend⟩ := hsend
    exact .inr (asks_call hsend).2

theorem asks_handle {d type : String} {raw : Option (Option String)} {changes : Nat} (hid : req.deliveryId = some d)
    (hclaimed : changes ≠ 0) (h : (handle d req.signed).Reaches log (.await c next)) :
    Asks req (⟨.readRawBody req.raw, .ok raw⟩ :: ⟨.insertEvent d type, .ok changes⟩ :: log) c := by
  cases asks_bind h with
  | inl hguarded =>
    obtain ⟨next', hguarded⟩ := hguarded
    cases asks_catching hguarded with
    | inl hcall =>
      obtain ⟨rfl, rfl⟩ := asks_call hcall.choose_spec
      exact .handling hid hclaimed
    | inr hcaught =>
      obtain ⟨before, after, e, rfl, hthrow, hrelease⟩ := hcaught
      cases reaches_call_throw hthrow
      cases asks_bind hrelease with
      | inl hdelete =>
        obtain ⟨rfl, rfl⟩ := asks_call hdelete.choose_spec
        exact .releasing hid hclaimed (fun status hanswer => nomatch hanswer)
      | inr hrethrow =>
        obtain ⟨before, after, a, -, -, hrethrow⟩ := hrethrow
        cases hrethrow
  | inr hresponse =>
    obtain ⟨before, after, status, rfl, hbefore, hafter⟩ := hresponse
    have hlog : before = [⟨.authHandler d req.signed, .ok status⟩] := by
      cases reaches_catching_done hbefore with
      | inl hcall => exact reaches_call_done hcall
      | inr hcaught =>
        obtain ⟨e, after', hcaught⟩ := hcaught
        obtain ⟨_, _, _, -, -, hthrow⟩ := reaches_bind_done hcaught
        cases hthrow
    subst hlog
    have hwrite : ∀ {rest : WebhookLog} {next : Except Unit (WebhookAnswer c) → WebhookTask Unit},
        (writeWebResponse status).Reaches rest (.await c next) → (isOk status = true ∨ isOk status = false) →
        Asks req (⟨.readRawBody req.raw, .ok raw⟩ :: ⟨.insertEvent d type, .ok changes⟩ ::
          ([⟨.authHandler d req.signed, .ok status⟩] ++ rest)) c := by
      intro rest next hrest hstatus
      cases asks_writeWebResponse hrest with
      | inl hcopy =>
        subst hcopy
        exact .copying
      | inr hsend =>
        subst hsend
        cases hstatus with
        | inl hok => exact .acknowledging hid hok (by simp)
        | inr hnot => exact .refusing hnot
    by_cases hok : isOk status = true
    · rw [if_pos hok] at hafter
      exact hwrite hafter (.inl hok)
    · rw [if_neg hok] at hafter
      have hnot : isOk status = false := by simpa using hok
      cases asks_bind hafter with
      | inl hdelete =>
        obtain ⟨rfl, rfl⟩ := asks_call hdelete.choose_spec
        refine .releasing hid hclaimed ?_
        intro status' hsame
        cases hsame
        exact hnot
      | inr hrest =>
        obtain ⟨first, rest, a, rfl, -, hrest⟩ := hrest
        rw [← List.append_assoc]
        have hasks := asks_writeWebResponse hrest
        cases hasks with
        | inl hcopy =>
          subst hcopy
          exact .copying
        | inr hsend =>
          subst hsend
          exact .refusing hnot

theorem asks_serveWebhook (h : (serveWebhook req).Reaches log (.await c next)) : Asks req log c := by
  have hfailure : ∀ {log : WebhookLog} {next : Except Unit (WebhookAnswer c) → WebhookTask Unit},
      ∀ status, isOk status = false → ∀ more : WebhookLog, (sendJson status).Reaches log (.await c next) →
        Asks req more c := by
    intro log next status hstatus more hsend
    obtain ⟨-, rfl⟩ := asks_call hsend
    exact .refusing hstatus
  cases asks_catching h with
  | inr hcaught =>
    obtain ⟨before, after, e, rfl, -, hsend⟩ := hcaught
    exact hfailure 500 rfl _ hsend
  | inl hserve =>
    obtain ⟨next', hserve⟩ := hserve
    cases asks_bind hserve with
    | inl hread =>
      obtain ⟨rfl, rfl⟩ := asks_call hread.choose_spec
      exact .reading
    | inr hrest =>
      obtain ⟨before, after, raw, rfl, hbefore, hafter⟩ := hrest
      cases reaches_call_done hbefore
      split at hafter
      · exact hfailure 413 rfl _ hafter
      · exact hfailure 400 rfl _ hafter
      · rename_i body d hid
        cases asks_bind hafter with
        | inl hclaim =>
          obtain ⟨next'', hclaim⟩ := hclaim
          cases asks_bind hclaim with
          | inl hinsert =>
            obtain ⟨rfl, rfl⟩ := asks_call hinsert.choose_spec
            exact .claiming hid
          | inr hpure =>
            obtain ⟨_, _, _, -, -, hpure⟩ := hpure
            cases hpure
        | inr hclaimed =>
          obtain ⟨first, rest, claim, rfl, hclaim, hrest⟩ := hclaimed
          obtain ⟨insertion, nothing, changes, rfl, hinsert, hpure⟩ := reaches_bind_done hclaim
          obtain ⟨hresult, rfl⟩ := reaches_pure_done hpure
          cases reaches_call_done hinsert
          by_cases hchanges : changes = (0 : Nat)
          · rw [if_pos hchanges] at hresult
            subst hresult
            subst hchanges
            obtain ⟨rfl, rfl⟩ := asks_call hrest
            exact .repeated hid
          · rw [if_neg hchanges] at hresult
            subst hresult
            exact asks_handle hid hchanges hrest

end

theorem serveWebhook_readOnly (req : WebhookRequest) : (serveWebhook req).ReadOnly := by
  have hwrite : ∀ status, (writeWebResponse status).ReadOnly := by
    intro status
    refine readOnly_bind (readOnly_catching (readOnly_call _) ?_) ?_
    · exact fun _ => trivial
    · exact fun _ => readOnly_call _
  have hhandle : ∀ d signed, (handle d signed).ReadOnly := by
    intro d signed
    refine readOnly_bind (readOnly_catching (readOnly_call _) ?_) ?_
    · exact fun _ => readOnly_bind (readOnly_call _) fun _ => trivial
    · intro status
      split
      · exact hwrite status
      · exact readOnly_bind (readOnly_call _) fun _ => hwrite status
  refine readOnly_catching (readOnly_bind (readOnly_call _) ?_) ?_
  · intro raw
    split
    · exact readOnly_call _
    · exact readOnly_call _
    · refine readOnly_bind (readOnly_bind (readOnly_call _) fun _ => trivial) ?_
      intro claim
      cases claim with
      | duplicate => exact readOnly_call _
      | claimed => exact hhandle _ _
  · exact fun _ => readOnly_call _

end Mtmux.Billing
