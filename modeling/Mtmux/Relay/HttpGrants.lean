import Mtmux.Relay.HttpAccess

/-! Does HTTP give away what a websocket with the same token would be refused? -/
namespace Mtmux.Relay
open Protocol OrderedMap Machine Sessions List

def GateAccepts (grant : GrantRecord) (now : Nat) (msg : ClientMessage) : Prop :=
  ∀ (relay : RelayState) (attachedSession : Option String) (pid : Option Nat), relay.now = now →
    (enforce ⟨grant, attachedSession, pid⟩ msg).advance relay = (relay, [], .returned (.ok .ok))

def SignsInWith (cfg : GatewayConfig) (s : Gateway) (token : String) (accepts : GrantRecord → Prop) : Prop :=
  ∀ address, s.throttle.checkAuthThrottle address s.now = none → ∃ r,
    (s.authenticateMessage cfg address (.auth token)).2.1 = .ok r ∧ accepts r.grant

/-- Whenever a response with bytes of a file or a recording begins, a websocket with the same token would be let
through to them. -/
structure GrantsNothingMore (host : HttpHost) (cfg : GatewayConfig) (es : List HttpEvent) : Prop where
  file : ∀ x ∈ (httpMachine host cfg).trace es, ∀ id res pending path queryToken download,
    HttpOutput.respond id res ∈ x.out → res.streams = true → x.pre.requests.get id = some pending →
    pending.req.route = .file (some path) queryToken download →
    SignsInWith cfg x.pre.gateway pending.token fun grant =>
      GateAccepts grant x.pre.gateway.now (.fileRead path)
  recording : ∀ x ∈ (httpMachine host cfg).trace es, ∀ id res pending name,
    HttpOutput.respond id res ∈ x.out → res.streams = true → x.pre.requests.get id = some pending →
    pending.req.route = .recording (some name) →
    SignsInWith cfg x.pre.gateway pending.token fun grant =>
      (∀ offset, GateAccepts grant x.pre.gateway.now (.recordingFetch name offset)) ∧
        allowsRecording grant name = true

/-- The token is the machine's own, or it is still registered and has not run out, with the grant the request was
let in with or another that reaches as far; and that grant is not one of those the gate knows and HTTP does not. -/
def StillStands (cfg : GatewayConfig) (s : Gateway) (token : String) (grant : GrantRecord)
    (reaches : GrantRecord → Bool) (unknown : GrantRecord → Bool) : Prop :=
  token = cfg.authToken ∨ ∃ entry, s.sessions.get token = some entry ∧ s.now < entry.expiresAt ∧
    isGrantActive entry.grant s.now = true ∧ (entry.grant = grant ∨ reaches entry.grant = true) ∧
    unknown entry.grant = false

/-- It is a file, and what the request asks for of it is there. -/
def Servable (range : Option String) (stat : FileStat) : Prop :=
  stat.isFile = true ∧ ∀ start stop, (range.bind fun header => parseRange header.toList) = some (start, stop) →
    start < stat.size ∧ start ≤ stop.getD (stat.size - 1)

structure NothingTaken (host : HttpHost) (cfg : GatewayConfig) (es : List HttpEvent) : Prop where
  file : ∀ x ∈ (httpMachine host cfg).trace es, ∀ id stat pending grant path resolved,
    x.event = .stat id (some stat) → x.pre.requests.get id = some pending →
    pending.phase = .statting grant path resolved → Servable pending.req.range stat →
    StillStands cfg x.pre.gateway pending.token grant (fun g => g.files ≠ .none) isRecordingsGrant
  recording : ∀ x ∈ (httpMachine host cfg).trace es, ∀ id stat pending grant name recording,
    x.event = .stat id (some stat) → x.pre.requests.get id = some pending →
    pending.phase = .measuring grant name recording →
    StillStands cfg x.pre.gateway pending.token grant (fun g => allowsRecording g name) fun _ => false

/-! ### What the gate says of the two messages -/

section Gate
variable {grant : GrantRecord} {now : Nat} {msg : ClientMessage}

/-- A message that names nothing is judged by its rights alone. -/
theorem gateAccepts_iff (htarget : (policy msg).recordingTarget = false) (harg : (policy msg).sessionArg = none)
    (hpane : (policy msg).paneId = false) (hwindow : (policy msg).windowId = false) :
    GateAccepts grant now msg ↔ Enforce.rights ⟨grant, none, none⟩ msg now = .ok := by
  have hgate : ∀ (relay : RelayState) (attachedSession : Option String) (pid : Option Nat), relay.now = now →
      (enforce ⟨grant, attachedSession, pid⟩ msg).advance relay =
        (relay, [], .returned (.ok (Enforce.rights ⟨grant, none, none⟩ msg now))) := by
    intro relay attachedSession pid hnow
    have hrest : Enforce.andThen (Enforce.recordingTarget ⟨grant, attachedSession, pid⟩ msg)
        (Enforce.andThen (Enforce.sessionArg ⟨grant, attachedSession, pid⟩ msg)
          (Enforce.objectId ⟨grant, attachedSession, pid⟩ msg)) = pure EnforceResult.ok := by
      unfold Enforce.recordingTarget Enforce.sessionArg Enforce.objectId
      rw [htarget, harg, hpane, hwindow]
      rfl
    have hsame : Enforce.rights ⟨grant, attachedSession, pid⟩ msg now =
        Enforce.rights ⟨grant, none, none⟩ msg now := rfl
    unfold enforce
    rw [hrest]
    change (Async.advance (Enforce.andThen (pure (Enforce.rights ⟨grant, attachedSession, pid⟩ msg relay.now))
      (pure EnforceResult.ok)) relay) = _
    rw [hnow, hsame]
    cases Enforce.rights ⟨grant, none, none⟩ msg now with
    | ok | deny _ _ => rfl
  constructor
  · intro h
    have hall := hgate { RelayState.start ⟨fun _ => false, fun _ => none, fun _ => none, fun _ => "", fun _ _ => "",
      fun _ => ""⟩ with now := now } none none rfl
    rw [h _ none none rfl] at hall
    simp only [Prod.mk.injEq, Async.Pause.returned.injEq, Except.ok.injEq, true_and] at hall
    exact hall.symm
  · intro h relay attachedSession pid hnow
    rw [hgate relay attachedSession pid hnow, h]

theorem gateAccepts_fileRead (path : String) : GateAccepts grant now (.fileRead path) ↔
    isGrantActive grant now = true ∧ isRecordingsGrant grant = false ∧ grant.files ≠ .none := by
  rw [gateAccepts_iff rfl rfl rfl rfl]
  unfold Enforce.rights
  cases hactive : isGrantActive grant now with
  | false => simp
  | true =>
    cases hrecordings : isRecordingsGrant grant with
    | true => simp [recordingsGrantAllowed]
    | false =>
      cases hfiles : grant.files with
      | none | read | write => simp [policy, Policy.file, Policy.free, filesEnough]

theorem gateAccepts_recordingFetch (name : String) (offset : Nat) :
    GateAccepts grant now (.recordingFetch name offset) ↔ isGrantActive grant now = true := by
  rw [gateAccepts_iff rfl rfl rfl rfl]
  unfold Enforce.rights
  cases hactive : isGrantActive grant now with
  | false => simp
  | true => simp [policy, Policy.free, recordingsGrantAllowed, filesEnough]

end Gate

/-! ### What a websocket signs in with -/

theorem Sessions.grantForToken_of_live {sessions : Sessions} {token : String} {now : Nat} {entry : Session}
    (hget : sessions.get token = some entry) (hlive : now < entry.expiresAt)
    (hactive : isGrantActive entry.grant now = true) : (sessions.grantForToken token now).grant = some entry.grant := by
  unfold Sessions.grantForToken
  rw [hget]
  dsimp only
  rw [if_neg (Nat.not_le.2 hlive), if_neg (by simp [hactive])]

theorem signsInWith_iff (cfg : GatewayConfig) (s : Gateway) (token : String) (accepts : GrantRecord → Prop) :
    SignsInWith cfg s token accepts ↔ (token = cfg.authToken ∧ accepts fullGrant) ∨ (token ≠ cfg.authToken ∧ ∃ entry,
        s.sessions.get token = some entry ∧ s.now < entry.expiresAt ∧
          isGrantActive entry.grant s.now = true ∧ accepts entry.grant) := by
  constructor
  · intro h
    obtain ⟨r, hr, haccepts⟩ := h "" rfl
    unfold Gateway.authenticateMessage at hr
    have hfree : s.throttle.checkAuthThrottle "" s.now = none := rfl
    simp only [hfree] at hr
    by_cases htoken : token = cfg.authToken
    · rw [if_pos htoken] at hr
      cases hr
      exact .inl ⟨htoken, haccepts⟩
    · rw [if_neg htoken] at hr
      cases hgrant : (s.sessions.grantForToken token s.now).grant with
      | none =>
        rw [hgrant] at hr
        cases hr
      | some grant =>
        rw [hgrant] at hr
        cases hr
        obtain ⟨entry, hget, hsame, hlive, hactive⟩ := grantForToken_some hgrant
        subst hsame
        exact .inr ⟨htoken, entry, hget, hlive, hactive, haccepts⟩
  · intro h address haddress
    unfold Gateway.authenticateMessage
    simp only [haddress]
    cases h with
    | inl hmachine =>
      rw [if_pos hmachine.1]
      exact ⟨_, rfl, hmachine.2⟩
    | inr hsession =>
      obtain ⟨htoken, entry, hget, hlive, hactive, haccepts⟩ := hsession
      rw [if_neg htoken, grantForToken_of_live hget hlive hactive]
      exact ⟨_, rfl, haccepts⟩

/-! ### What a waiting request has passed -/

/-- What the checks on the way have found. -/
def PendingRequest.Sound (pending : PendingRequest) : Prop :=
  match pending.phase with
  | .admitting _ => True
  | .statting grant path _ =>
    (∃ queryToken download, pending.req.route = .file (some path) queryToken download) ∧ grant.files ≠ .none
  | .finding grant name | .measuring grant name _ =>
    pending.req.route = .recording (some name) ∧ allowsRecording grant name = true

/-- With this the request is answered, and with bytes. -/
def PendingRequest.Serves (pending : PendingRequest) (stat : FileStat) : Prop :=
  (∃ grant path resolved, pending.phase = .statting grant path resolved ∧ Servable pending.req.range stat) ∨
    ∃ grant name recording, pending.phase = .measuring grant name recording

def HttpServer.Sound (s : HttpServer) : Prop := ∀ id pending, s.requests.get id = some pending → pending.Sound

namespace HttpServer
variable {host : HttpHost} {cfg : GatewayConfig} {s : HttpServer} {id : Nat} {pending : PendingRequest}

theorem Sound.respond (h : s.Sound) (id : Nat) (response : HttpResponse) : (s.respond id response).1.Sound := by
  intro i p hp
  have hget : (s.requests.delete id).get i = some p := hp
  exact h i p (get_of_delete hget)

theorem Sound.set (h : s.Sound) (id : Nat) {p : PendingRequest} (hp : p.Sound) :
    Sound { s with requests := s.requests.set id p } := by
  intro i q hq
  have hget : (s.requests.set id p).get i = some q := hq
  rw [get_set] at hget
  split at hget
  · cases hget
    exact hp
  · exact h i q hget

theorem Sound.admitHttpRequest (h : s.Sound) (cfg : GatewayConfig) (id : Nat) (req : HttpRequest) :
    (s.admitHttpRequest cfg id req).1.Sound := by
  unfold HttpServer.admitHttpRequest
  split
  · exact h.respond id _
  · rename_i token _
    dsimp only
    generalize (if decide (token = cfg.authToken) = true then
      (⟨s.gateway.sessions, some fullGrant, none⟩ : TokenLookup)
      else s.gateway.sessions.grantForToken token s.gateway.now) = found
    have hsame : Sound { s with gateway := { s.gateway with sessions := found.sessions } } := h
    cases found.grant with
    | none => exact hsame.respond id _
    | some grant =>
      have hnew : PendingRequest.Sound ⟨req, token, .admitting grant⟩ := trivial
      exact hsame.set id hnew

theorem Sound.admitted (h : s.Sound) (id : Nat) (pending : PendingRequest) (grant : GrantRecord) :
    (s.admitted host id pending grant).1.Sound := by
  unfold HttpServer.admitted
  split
  · rename_i path queryToken download hroute
    split
    · exact h.respond id _
    · rename_i hfiles
      split
      · exact h.respond id _
      · rename_i name hname
        split
        · exact h.respond id _
        · have hpath : path = some name := (Option.filter_eq_some_iff.1 hname).1
          have hnew : PendingRequest.Sound { pending with phase := .statting grant name (host.resolve name) } :=
            ⟨⟨queryToken, download, hpath ▸ hroute⟩, hfiles⟩
          exact h.set id hnew
  · rename_i name? hroute
    split
    · exact h.respond id _
    · rename_i name hname
      obtain ⟨hsome, hallowed⟩ := Option.filter_eq_some_iff.1 hname
      have hboth : name ≠ "" ∧ allowsRecording grant name = true := by simpa using hallowed
      have hnew : PendingRequest.Sound { pending with phase := .finding grant name } :=
        ⟨hsome ▸ hroute, hboth.2⟩
      exact h.set id hnew

theorem Sound.answer (h : s.Sound) (hpending : pending.Sound) (id : Nat) (e : HttpEvent) :
    (s.answer host id pending e).1.Sound := by
  unfold HttpServer.answer
  cases e with
  | gateway _ | request _ _ => exact h
  | admission i admitted =>
    dsimp only
    split
    · split
      · exact h.admitted id pending _
      · exact h.respond id _
    · exact h
  | index i recordings =>
    dsimp only
    split
    · rename_i grant name hphase
      split
      · exact h.respond id _
      · rename_i recording _
        have hfound : pending.req.route = .recording (some name) ∧ allowsRecording grant name = true := by
          unfold PendingRequest.Sound at hpending
          rw [hphase] at hpending
          exact hpending
        have hnew : PendingRequest.Sound { pending with phase := .measuring grant name recording } := hfound
        exact h.set id hnew
    · exact h
  | stat i stat =>
    dsimp only
    split
    · split
      · exact h.respond id _
      · exact h.respond id _
    · split
      · exact h.respond id _
      · exact h.respond id _
    · exact h

theorem step_subject (host : HttpHost) (cfg : GatewayConfig) {e : HttpEvent} (he : subject e = some id) :
    s.step host cfg e = (s.requests.get id).elim (s, []) fun pending => s.answer host id pending e := by
  cases e with
  | gateway _ | request _ _ => cases he
  | _ =>
    cases he
    simp only [HttpServer.step, subject]
    cases s.requests.get id <;> rfl

theorem Sound.step (h : s.Sound) (e : HttpEvent) : (s.step host cfg e).1.Sound := by
  have hanswer : ∀ id, subject e = some id → (s.step host cfg e).1.Sound := by
    intro id hsubject
    rw [step_subject host cfg hsubject]
    cases hget : s.requests.get id with
    | none => exact h
    | some pending => exact h.answer (h id pending hget) id e
  cases e with
  | gateway e => exact h
  | request id req =>
    change (if s.requests.has id = true then (s, []) else s.admitHttpRequest cfg id req).1.Sound
    split
    · exact h
    · exact h.admitHttpRequest cfg id req
  | admission id admitted => exact hanswer id rfl
  | index id recordings => exact hanswer id rfl
  | stat id stat => exact hanswer id rfl

theorem sound_run (host : HttpHost) (cfg : GatewayConfig) (es : List HttpEvent) :
    ((httpMachine host cfg).run es).Sound := by
  refine (httpMachine host cfg).run_invariant ?_ (fun s e h => h.step e) es
  intro id pending hget
  cases hget

/-! ### When bytes leave -/


theorem serveFile_streams (host : HttpHost) (resolved : String) (download : Bool) (range : Option String)
    (stat : FileStat) : (serveFile host resolved download range stat).streams = true ↔ Servable range stat := by
  unfold serveFile Servable
  cases hfile : stat.isFile with
  | false => simp [HttpResponse.plain, HttpResponse.streams]
  | true =>
    dsimp only
    cases hrange : range.bind fun header => parseRange header.toList with
    | none => simp [HttpResponse.streams]
    | some bounds =>
      obtain ⟨start, stop⟩ := bounds
      simp only [Bool.not_true, Bool.false_eq_true, if_false, Option.some.injEq, Prod.mk.injEq, true_and]
      by_cases hsize : stat.size ≤ start
      · rw [if_pos hsize]
        constructor
        · intro h
          cases h
        · intro h
          have hbounds := (h start stop ⟨rfl, rfl⟩).1
          omega
      · rw [if_neg hsize]
        by_cases hclamped : min (stop.getD (stat.size - 1)) (stat.size - 1) < start
        · rw [if_pos hclamped]
          constructor
          · intro h
            cases h
          · intro h
            have hbounds := (h start stop ⟨rfl, rfl⟩).2
            omega
        · rw [if_neg hclamped]
          constructor
          · intro _ start' stop' hsame
            obtain ⟨rfl, rfl⟩ := hsame
            omega
          · intro _
            rfl

variable {i : Nat} {res : HttpResponse}

theorem respond_text (status : Nat) (body : String)
    (h : HttpOutput.respond i res ∈ (s.respond id (.plain status body)).2) : res.streams = false := by
  have hone := mem_singleton.1 h
  cases hone
  rfl

theorem admitHttpRequest_text {req : HttpRequest}
    (h : HttpOutput.respond i res ∈ (s.admitHttpRequest cfg id req).2) : res.streams = false := by
  unfold HttpServer.admitHttpRequest at h
  split at h
  · exact respond_text 401 "Unauthorized" h
  · rename_i token _
    dsimp only at h
    generalize (if decide (token = cfg.authToken) = true then
      (⟨s.gateway.sessions, some fullGrant, none⟩ : TokenLookup)
      else s.gateway.sessions.grantForToken token s.gateway.now) = found at h
    cases hgrant : found.grant with
    | none =>
      rw [hgrant] at h
      exact respond_text 401 "Unauthorized" h
    | some grant =>
      rw [hgrant] at h
      simp at h

variable {grant : GrantRecord}

theorem admitted_text (h : HttpOutput.respond i res ∈ (s.admitted host id pending grant).2) : res.streams = false := by
  unfold HttpServer.admitted at h
  split at h
  · split at h
    · exact respond_text 403 _ h
    · split at h
      · exact respond_text 400 _ h
      · split at h
        · exact respond_text 403 _ h
        · simp [HttpServer.wait] at h
  · split at h
    · exact respond_text 404 _ h
    · simp [HttpServer.wait] at h

theorem answer_streams {e : HttpEvent}
    (h : HttpOutput.respond i res ∈ (s.answer host id pending e).2) (hres : res.streams = true) :
    i = id ∧ ∃ j stat, e = .stat j (some stat) ∧ pending.Serves stat := by
  have htext : ∀ {status : Nat} {body : String},
      HttpOutput.respond i res ∈ (s.respond id (.plain status body)).2 → False := by
    intro status body hmem
    have hnot := respond_text status body hmem
    rw [hres] at hnot
    cases hnot
  unfold HttpServer.answer at h
  cases e with
  | gateway _ | request _ _ => simp at h
  | admission j admitted =>
    dsimp only at h
    split at h
    · split at h
      · have hnot := admitted_text h
        rw [hres] at hnot
        cases hnot
      · exact (htext h).elim
    · simp at h
  | index j recordings =>
    dsimp only at h
    split at h
    · split at h
      · exact (htext h).elim
      · simp [HttpServer.wait] at h
    · simp at h
  | stat j stat =>
    dsimp only at h
    split at h
    · rename_i grant path resolved _ _ download hphase _
      split at h
      · exact (htext h).elim
      · rename_i stat
        have hone := mem_singleton.1 h
        cases hone
        exact ⟨rfl, j, stat, rfl, .inl ⟨grant, path, resolved, hphase, (serveFile_streams _ _ _ _ _).1 hres⟩⟩
    · rename_i grant name recording hphase
      split at h
      · exact (htext h).elim
      · rename_i stat
        have hone := mem_singleton.1 h
        cases hone
        exact ⟨rfl, j, stat, rfl, .inr ⟨grant, name, recording, hphase⟩⟩
    · simp at h

theorem step_streams {e : HttpEvent}
    (h : HttpOutput.respond i res ∈ (s.step host cfg e).2) (hres : res.streams = true) :
    ∃ stat pending, e = .stat i (some stat) ∧ s.requests.get i = some pending ∧ pending.Serves stat := by
  have hanswer : ∀ id, subject e = some id →
      ∃ stat pending, e = .stat i (some stat) ∧ s.requests.get i = some pending ∧ pending.Serves stat := by
    intro id hsubject
    rw [step_subject host cfg hsubject] at h
    cases hget : s.requests.get id with
    | none => simp [hget] at h
    | some pending =>
      rw [hget] at h
      obtain ⟨rfl, j, stat, rfl, hphase⟩ := answer_streams h hres
      cases hsubject
      exact ⟨stat, pending, rfl, hget, hphase⟩
  cases e with
  | gateway e =>
    change HttpOutput.respond i res ∈ (Gateway.step cfg s.gateway e).2.map .gateway at h
    simp at h
  | request id req =>
    change HttpOutput.respond i res ∈ (if s.requests.has id = true then (s, [])
      else s.admitHttpRequest cfg id req).2 at h
    split at h
    · simp at h
    · have hnot := admitHttpRequest_text h
      rw [hres] at hnot
      cases hnot
  | admission id admitted => exact hanswer id rfl
  | index id recordings => exact hanswer id rfl
  | stat id stat => exact hanswer id rfl

theorem step_servesFile (host : HttpHost) (cfg : GatewayConfig) {path resolved : String} {stat : FileStat} (hs : s.Sound)
    (hget : s.requests.get id = some pending) (hphase : pending.phase = .statting grant path resolved)
    (hservable : Servable pending.req.range stat) : ∃ res queryToken download,
      HttpOutput.respond id res ∈ (s.step host cfg (.stat id (some stat))).2 ∧ res.streams = true ∧
      pending.req.route = .file (some path) queryToken download := by
  have hsound := hs id pending hget
  unfold PendingRequest.Sound at hsound
  rw [hphase] at hsound
  obtain ⟨queryToken, download, hroute⟩ := hsound.1
  refine ⟨serveFile host resolved download pending.req.range stat, queryToken, download, ?_,
    (serveFile_streams _ _ _ _ _).2 hservable, hroute⟩
  rw [step_subject host cfg rfl, hget, Option.elim_some]
  unfold HttpServer.answer
  dsimp only
  rw [hphase, hroute]
  exact mem_singleton_self _

theorem step_servesRecording (host : HttpHost) (cfg : GatewayConfig) {name : String}
    {recording : RecordingInfo} (stat : FileStat) (hs : s.Sound) (hget : s.requests.get id = some pending)
    (hphase : pending.phase = .measuring grant name recording) : ∃ res,
      HttpOutput.respond id res ∈ (s.step host cfg (.stat id (some stat))).2 ∧ res.streams = true ∧
      pending.req.route = .recording (some name) := by
  have hsound := hs id pending hget
  unfold PendingRequest.Sound at hsound
  rw [hphase] at hsound
  refine ⟨serveRecording host recording stat, ?_, rfl, hsound.1⟩
  rw [step_subject host cfg rfl, hget, Option.elim_some]
  unfold HttpServer.answer
  dsimp only
  rw [hphase]
  exact mem_singleton_self _

end HttpServer

/-- What HTTP gives away, a websocket with the same token would be given at that moment, exactly when no token loses
what its request was let in with before the file has been found. -/
theorem http_grants (host : HttpHost) (cfg : GatewayConfig) (es : List HttpEvent) :
    GrantsNothingMore host cfg es ↔ NothingTaken host cfg es := by
  constructor
  · intro h
    refine ⟨?_, ?_⟩
    · intro x hx id stat pending grant path resolved he hget hphase hservable
      obtain ⟨before, e, after, -, rfl⟩ := (mem_trace _ es x).1 hx
      have he' : e = .stat id (some stat) := he
      subst he'
      obtain ⟨res, queryToken, download, hmem, hres, hroute⟩ := HttpServer.step_servesFile host cfg
        (HttpServer.sound_run host cfg before) hget hphase hservable
      have hpasses := h.file _ hx id res pending path queryToken download hmem hres hget hroute
      cases (signsInWith_iff _ _ _ _).1 hpasses with
      | inl hmachine => exact .inl hmachine.1
      | inr hsession =>
        obtain ⟨-, entry, hentry, hlive, hactive, haccepts⟩ := hsession
        obtain ⟨-, hscope, hfiles⟩ := (gateAccepts_fileRead path).1 haccepts
        exact .inr ⟨entry, hentry, hlive, hactive, .inr (by simpa using hfiles), hscope⟩
    · intro x hx id stat pending grant name recording he hget hphase
      obtain ⟨before, e, after, -, rfl⟩ := (mem_trace _ es x).1 hx
      have he' : e = .stat id (some stat) := he
      subst he'
      obtain ⟨res, hmem, hres, hroute⟩ := HttpServer.step_servesRecording host cfg stat
        (HttpServer.sound_run host cfg before) hget hphase
      have hpasses := h.recording _ hx id res pending name hmem hres hget hroute
      cases (signsInWith_iff _ _ _ _).1 hpasses with
      | inl hmachine => exact .inl hmachine.1
      | inr hsession =>
        obtain ⟨-, entry, hentry, hlive, hactive, -, hallowed⟩ := hsession
        exact .inr ⟨entry, hentry, hlive, hactive, .inr hallowed, rfl⟩
  · intro h
    refine ⟨?_, ?_⟩
    · intro x hx id res pending path queryToken download hmem hres hget hroute
      obtain ⟨before, e, after, -, rfl⟩ := (mem_trace _ es x).1 hx
      obtain ⟨stat, pending', he, hget', hserves⟩ := HttpServer.step_streams hmem hres
      cases hget.symm.trans hget'
      have hsound := HttpServer.sound_run host cfg before id pending hget
      rw [signsInWith_iff]
      by_cases htoken : pending.token = cfg.authToken
      · exact .inl ⟨htoken, (gateAccepts_fileRead path).2 ⟨rfl, rfl, by decide⟩⟩
      · refine .inr ⟨htoken, ?_⟩
        cases hserves with
        | inl hfile =>
          obtain ⟨grant, path', resolved, hphase, hservable⟩ := hfile
          unfold PendingRequest.Sound at hsound
          rw [hphase] at hsound
          cases h.file _ hx id stat pending grant path' resolved he hget hphase hservable with
          | inl hmachine => exact absurd hmachine htoken
          | inr hstands =>
            obtain ⟨entry, hentry, hlive, hactive, hreaches, hscope⟩ := hstands
            have hfiles : entry.grant.files ≠ .none := by
              cases hreaches with
              | inl hsame => exact hsame ▸ hsound.2
              | inr hother => exact of_decide_eq_true hother
            exact ⟨entry, hentry, hlive, hactive, (gateAccepts_fileRead path).2 ⟨hactive, hscope, hfiles⟩⟩
        | inr hrecording =>
          obtain ⟨grant, name, recording, hphase⟩ := hrecording
          unfold PendingRequest.Sound at hsound
          rw [hphase, hroute] at hsound
          cases hsound.1
    · intro x hx id res pending name hmem hres hget hroute
      obtain ⟨before, e, after, -, rfl⟩ := (mem_trace _ es x).1 hx
      obtain ⟨stat, pending', he, hget', hserves⟩ := HttpServer.step_streams hmem hres
      cases hget.symm.trans hget'
      have hsound := HttpServer.sound_run host cfg before id pending hget
      rw [signsInWith_iff]
      by_cases htoken : pending.token = cfg.authToken
      · exact .inl ⟨htoken, fun offset => (gateAccepts_recordingFetch name offset).2 rfl, rfl⟩
      · refine .inr ⟨htoken, ?_⟩
        cases hserves with
        | inl hfile =>
          obtain ⟨grant, path, resolved, hphase, -⟩ := hfile
          unfold PendingRequest.Sound at hsound
          rw [hphase, hroute] at hsound
          obtain ⟨queryToken, download, hnot⟩ := hsound.1
          cases hnot
        | inr hrecording =>
          obtain ⟨grant, name', recording, hphase⟩ := hrecording
          unfold PendingRequest.Sound at hsound
          rw [hphase, hroute] at hsound
          obtain ⟨hname, hallowed⟩ := hsound
          cases hname
          cases h.recording _ hx id stat pending grant name recording he hget hphase with
          | inl hmachine => exact absurd hmachine htoken
          | inr hstands =>
            obtain ⟨entry, hentry, hlive, hactive, hreaches, -⟩ := hstands
            have hnow : allowsRecording entry.grant name = true := by
              cases hreaches with
              | inl hsame => exact hsame ▸ hallowed
              | inr hother => exact hother
            exact ⟨entry, hentry, hlive, hactive,
              fun offset => (gateAccepts_recordingFetch name offset).2 hactive, hnow⟩

/-! A share is revoked while the owner is being asked whether to let its holder in; the owner says yes, and the file
is sent. -/

def revokedHost : HttpHost where
  isPathAllowed _ := true
  resolve path := path
  basename path := path
  getMimeType _ := "text/plain"
  encodeURIComponent name := name
  recordingPath name := name

def revokedShare : GrantRecord :=
  { fullGrant with id := "grn_share", scope := .sessions [⟨"$1", "work"⟩], files := .read }

def revokedRequest : HttpRequest := ⟨.file (some "/home/me/notes") none false, some "Bearer shared", none⟩

def revokedRun : List HttpEvent :=
  [.gateway (.register "shared" 3600000 revokedShare none none), .request 0 revokedRequest,
    .gateway (.revokeGrant "grn_share"), .admission 0 true, .stat 0 (some ⟨true, 5⟩)]

theorem not_http_grants : ¬ ∀ (host : HttpHost) (cfg : GatewayConfig) (es : List HttpEvent),
    GrantsNothingMore host cfg es := by
  intro hall
  have hone := (hall revokedHost ⟨"machine", 100⟩ revokedRun).file
    ((httpMachine revokedHost ⟨"machine", 100⟩).entry
      ((httpMachine revokedHost ⟨"machine", 100⟩).run (revokedRun.take 4)) (.stat 0 (some ⟨true, 5⟩)))
    ((mem_trace _ _ _).2 ⟨revokedRun.take 4, _, [], rfl, rfl⟩) 0
    (serveFile revokedHost "/home/me/notes" false none ⟨true, 5⟩)
    ⟨revokedRequest, "shared", .statting revokedShare "/home/me/notes" "/home/me/notes"⟩ "/home/me/notes" none false
    (mem_singleton_self _) rfl rfl rfl
  obtain ⟨r, hr, -⟩ := hone "" rfl
  cases hr

end Mtmux.Relay
