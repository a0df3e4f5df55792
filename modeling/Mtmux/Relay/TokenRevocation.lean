import Mtmux.Relay.Connections

/-! Is a revocation final? A token that was revoked is out of the table, so nobody signs in with it;
what is left are the sockets that a human was already asked about, and what is on the wire. -/
namespace Mtmux.Relay
open Protocol Machine Sessions List

/-- What every socket keeps: its handlers stop taking messages with its close event, and nobody is
asked about one that is in. -/
structure Socket.Sound (c : Socket) : Prop where
  closing : c.closing = true → c.ws = .closed
  admitting : c.authenticated = true → c.admitting = none

namespace Socket
variable {c : Socket}

theorem Sound.of_same {c' : Socket} (h : c.Sound) (hclosing : c'.closing = c.closing)
    (hws : c.ws = .closed → c'.ws = .closed) (hauthenticated : c'.authenticated = c.authenticated)
    (hadmitting : c'.admitting = c.admitting) : c'.Sound where
  closing := by
    rw [hclosing]
    exact fun hc => hws (h.closing hc)
  admitting := by
    rw [hauthenticated, hadmitting]
    exact h.admitting

theorem shut_closed (h : c.ws = .closed) : c.shut.ws = .closed := by
  simp [shut, h]

theorem Sound.shut (h : c.Sound) : c.shut.Sound := h.of_same rfl shut_closed rfl rfl

theorem enqueue_eq (c : Socket) (id : Nat) (msg : ClientMessage) : ∃ queue draining,
    (c.enqueue id msg).1 = { c with queue := queue, draining := draining } := by
  unfold enqueue
  split
  · exact ⟨c.queue, c.draining, rfl⟩
  · split
    · exact ⟨c.queue ++ [msg], c.draining, rfl⟩
    · exact ⟨c.queue, true, rfl⟩

theorem handled_eq (c : Socket) (id : Nat) : ∃ queue draining,
    (c.handled id).1 = { c with queue := queue, draining := draining } := by
  unfold handled
  split
  · split
    · exact ⟨c.queue, false, rfl⟩
    · rename_i msg queue _
      exact ⟨queue, c.draining, rfl⟩
  · exact ⟨c.queue, c.draining, rfl⟩

theorem admission_cases (c : Socket) (id : Nat) (r : AuthResult) (admitted : Bool) :
    (admitted = true ∧ c.ws = .opened ∧ (c.admission id r admitted).1 =
      { c with
        admitting := none
        authenticated := true
        grant := r.grant
        label := r.label
        tokenId := r.tokenId }) ∨
    ((admitted = false ∨ c.ws ≠ .opened) ∧
      ((c.admission id r admitted).1 = { c with admitting := none } ∨
        (c.admission id r admitted).1 = ({ c with admitting := none } : Socket).shut)) := by
  unfold admission
  dsimp only
  split
  · rename_i hws
    exact .inr ⟨.inr hws, .inl rfl⟩
  · rename_i hws
    cases admitted with
    | false => exact .inr ⟨.inl rfl, .inr rfl⟩
    | true => exact .inl ⟨rfl, by simpa using hws, rfl⟩

theorem Sound.admission (h : c.Sound) {r : AuthResult} (hr : c.admitting = some r) (id : Nat)
    (admitted : Bool) : (c.admission id r admitted).1.Sound := by
  have hout : c.authenticated = false := by
    by_contra hc
    rw [h.admitting (by simpa using hc)] at hr
    cases hr
  have hover : ({ c with admitting := none } : Socket).Sound := by
    refine ⟨h.closing, ?_⟩
    intro _
    rfl
  obtain ⟨-, -, heq⟩ | ⟨-, heq | heq⟩ := c.admission_cases id r admitted
  · rw [heq]
    refine ⟨h.closing, ?_⟩
    intro _
    rfl
  · rw [heq]
    exact hover
  · rw [heq]
    exact hover.shut

end Socket

namespace Gateway
variable {s : Gateway}

@[simp] theorem get_set_socket (s : Gateway) (id i : Nat) (c : Socket) :
    (s.set id c).sockets.get i = if i = id then some c else s.sockets.get i := by
  simp [set]

theorem get_closeRevoked (s : Gateway) (tokenIds : List String) (i : Nat) :
    (s.closeRevokedConnections tokenIds).1.sockets.get i =
      (s.sockets.get i).map fun c => if isRevoked tokenIds c then c.shut else c := by
  simp [closeRevokedConnections]

/-- What a credential proves: the token is in the table. The sockets stay as they are. -/
theorem authenticate_spec (cfg : GatewayConfig) (s : Gateway) (address : String) (msg : ClientMessage) :
    (s.authenticateMessage cfg address msg).1.sockets = s.sockets ∧
      (s.authenticateMessage cfg address msg).1.now = s.now ∧
      (∀ t entry, (s.authenticateMessage cfg address msg).1.sessions.get t = some entry →
        ∃ old, s.sessions.get t = some old ∧ entry.grant = old.grant ∧ entry.deviceId = old.deviceId) ∧
      ∀ r t, (s.authenticateMessage cfg address msg).2.1 = .ok r → r.tokenId = some t →
        ∃ entry, s.sessions.get t = some entry := by
  have same : ∀ t entry, s.sessions.get t = some entry → ∃ old, s.sessions.get t = some old ∧
      entry.grant = old.grant ∧ entry.deviceId = old.deviceId :=
    fun t entry h => ⟨entry, h, rfl, rfl⟩
  unfold authenticateMessage
  split
  · rename_i token
    split
    · exact ⟨rfl, rfl, same, by simp⟩
    · split
      · refine ⟨rfl, rfl, same, ?_⟩
        intro r t hr ht
        cases hr
        cases ht
      · dsimp only
        split
        · refine ⟨rfl, rfl, ?_, by simp⟩
          intro t entry h
          exact get_grantForToken h
        · rename_i grant hgrant
          refine ⟨rfl, rfl, ?_, ?_⟩
          · intro t entry h
            exact get_grantForToken h
          · intro r t hr ht
            cases hr
            cases ht
            obtain ⟨entry, hentry, -⟩ := grantForToken_some hgrant
            exact ⟨entry, hentry⟩
  · exact ⟨rfl, rfl, same, by simp⟩

/-- What a socket keeps of itself when it is handed a message that it does not sign in with. -/
def Keeps (c c' : Socket) : Prop :=
  c'.authenticated = c.authenticated ∧ c'.tokenId = c.tokenId ∧ c'.admitting = c.admitting

theorem firstMessage_cases (cfg : GatewayConfig) (s : Gateway) (id : Nat) (c : Socket)
    (msg : ClientMessage) :
    ∃ c', (∀ i, (s.firstMessage cfg id c msg).1.sockets.get i =
        if i = id then some c' else s.sockets.get i) ∧ (c.Sound → c.authenticated = false → c'.Sound) ∧
      (Keeps c c' ∨ c'.authenticated = c.authenticated ∧ c'.tokenId = c.tokenId ∧
        ∃ r, c'.admitting = some r ∧ ∀ t, r.tokenId = some t →
          ∃ entry, s.sessions.get t = some entry) := by
  obtain ⟨hsockets, -, -, hok⟩ := authenticate_spec cfg s c.address msg
  unfold firstMessage
  dsimp only
  split
  · rename_i s' reason out heq
    rw [heq] at hsockets
    refine ⟨({ c with authTimer := false } : Socket).shut, ?_, ?_, .inl ⟨rfl, rfl, rfl⟩⟩
    · intro i
      rw [get_set_socket, hsockets]
    · intro h _
      have hsame : ({ c with authTimer := false } : Socket).Sound := h.of_same rfl (fun hws => hws) rfl rfl
      exact hsame.shut
  · rename_i s' r out heq
    rw [heq] at hsockets hok
    refine ⟨{ c with authTimer := false, admitting := some r }, ?_, ?_, .inr ⟨rfl, rfl, r, rfl, ?_⟩⟩
    · intro i
      rw [get_set_socket, hsockets]
    · intro h hout
      refine ⟨h.closing, ?_⟩
      intro hauthenticated
      rw [hout] at hauthenticated
      cases hauthenticated
    · intro t ht
      exact hok r t rfl ht

/-- A message is dropped, signs the socket in or goes to its handlers. -/
theorem message_cases (cfg : GatewayConfig) (s : Gateway) (id : Nat) (c : Socket)
    (msg : Except String ClientMessage) :
    ∃ c', (∀ i, (s.message cfg id c msg).1.sockets.get i =
        if i = id then some c' else s.sockets.get i) ∧ (c.Sound → c'.Sound) ∧
      (Keeps c c' ∨ c.authenticated = false ∧ c.admitting = none ∧
        c'.authenticated = false ∧ c'.tokenId = c.tokenId ∧
        ∃ r, c'.admitting = some r ∧ ∀ t, r.tokenId = some t →
          ∃ entry, s.sessions.get t = some entry) := by
  have kept (c' : Socket) (h : c'.closing = c.closing ∧ c'.ws = c.ws ∧ Keeps c c') :
      c.Sound → c'.Sound :=
    fun hc => hc.of_same h.1 (fun hws => h.2.1.trans hws) h.2.2.1 h.2.2.2.2
  unfold message
  dsimp only
  split
  · exact ⟨_, fun i => get_set_socket _ _ _ _, kept _ ⟨rfl, rfl, rfl, rfl, rfl⟩,
      .inl ⟨rfl, rfl, rfl⟩⟩
  · rename_i hadmitting
    have hnone : c.admitting = none := by simpa using hadmitting
    split
    · exact ⟨_, fun i => get_set_socket _ _ _ _, kept _ ⟨rfl, rfl, rfl, rfl, rfl⟩,
        .inl ⟨rfl, rfl, rfl⟩⟩
    · split
      · exact ⟨_, fun i => get_set_socket _ _ _ _, kept _ ⟨rfl, rfl, rfl, rfl, rfl⟩,
          .inl ⟨rfl, rfl, rfl⟩⟩
      · rename_i msg
        split
        · rename_i hauthenticated
          have hout : c.authenticated = false := by simpa using hauthenticated
          obtain ⟨c', hget, hsound, hkeeps | hsigned⟩ := firstMessage_cases cfg s id
            { c with lastActivityAt := s.now, limiter := _ } msg
          · refine ⟨c', hget, fun hc => hsound ?_ hout, .inl hkeeps⟩
            exact kept _ ⟨rfl, rfl, rfl, rfl, rfl⟩ hc
          · refine ⟨c', hget, fun hc => hsound ?_ hout,
              .inr ⟨hout, hnone, hsigned.1.trans hout, hsigned.2⟩⟩
            exact kept _ ⟨rfl, rfl, rfl, rfl, rfl⟩ hc
        · obtain ⟨queue, draining, heq⟩ := Socket.enqueue_eq
            { c with lastActivityAt := s.now, limiter := _ } id msg
          refine ⟨_, fun i => get_set_socket _ _ _ _, ?_, ?_⟩
          · rw [heq]
            exact kept _ ⟨rfl, rfl, rfl, rfl, rfl⟩
          · rw [heq]
            exact .inl ⟨rfl, rfl, rfl⟩

/-- A credential was checked: the token is in the table, and a human is asked about the socket. -/
def SignsIn (s : Gateway) (c c' : Socket) : Prop :=
  c.authenticated = false ∧ c.admitting = none ∧ c'.authenticated = false ∧
    c'.tokenId = c.tokenId ∧ ∃ r, c'.admitting = some r ∧ ∀ t, r.tokenId = some t →
      ∃ entry, s.sessions.get t = some entry

/-- What one step makes of a socket it knows. -/
def Becomes (s : Gateway) (e : GatewayEvent) (i : Nat) (c c' : Socket) : Prop :=
  (c.Sound → c'.Sound) ∧
    (Keeps c c' ∨ (∃ msg, e = .message i msg ∧ SignsIn s c c') ∨
      ∃ r admitted, e = .admission i admitted ∧ c.admitting = some r ∧
        c' = (c.admission i r admitted).1)

variable {e : GatewayEvent}

theorem becomes_same {i : Nat} (c : Socket) : Becomes s e i c c :=
  ⟨id, .inl ⟨rfl, rfl, rfl⟩⟩

variable {c : Socket}

/-- What one step makes of a socket, and of an id that has none. -/
def Evolves (s : Gateway) (e : GatewayEvent) (i : Nat) (next : Option Socket) : Prop :=
  match s.sockets.get i with
  | some c => ∃ c', next = some c' ∧ Becomes s e i c c'
  | none => ∀ c', next = some c' → c'.Sound ∧ c'.authenticated = false ∧ c'.admitting = none

theorem evolves_map {i : Nat} {f : Socket → Socket} (hf : ∀ c, Becomes s e i c (f c)) :
    Evolves s e i ((s.sockets.get i).map f) := by
  unfold Evolves
  split
  · rename_i c hc
    exact ⟨f c, by rw [hc]; rfl, hf c⟩
  · rename_i hnone
    intro c' hc'
    rw [hnone] at hc'
    cases hc'

theorem evolves_same (i : Nat) : Evolves s e i (s.sockets.get i) := by
  have hmap := @evolves_map s e i id becomes_same
  rwa [Option.map_id, id] at hmap

theorem onSocket_evolves {id : Nat} {f : Socket → Gateway × List GatewayOutput}
    (hf : ∀ c, s.sockets.get id = some c → ∃ c', (∀ i, (f c).1.sockets.get i =
      if i = id then some c' else s.sockets.get i) ∧ Becomes s e id c c') (i : Nat) :
    Evolves s e i ((s.onSocket id f).1.sockets.get i) := by
  unfold onSocket
  cases hget : s.sockets.get id with
  | none => exact evolves_same i
  | some d =>
    obtain ⟨c', hall, hbecomes⟩ := hf d hget
    dsimp only
    rw [hall]
    split
    · rename_i hi
      subst hi
      simp only [Evolves, hget]
      exact ⟨c', rfl, hbecomes⟩
    · exact evolves_same i

theorem set_self {id : Nat} (hc : s.sockets.get id = some c) (i : Nat) :
    s.sockets.get i = if i = id then some c else s.sockets.get i := by
  split
  · rename_i h
    rw [h, hc]
  · rfl

theorem set_becomes {id : Nat} {c' : Socket} (hkeeps : Keeps c c')
    (hsound : c.Sound → c'.Sound) : ∃ d, (∀ i, (s.set id c').sockets.get i =
      if i = id then some d else s.sockets.get i) ∧ Becomes s e id c d :=
  ⟨c', fun i => get_set_socket s id i c', hsound, .inl hkeeps⟩

/-- No step loses a socket; a message may sign one in, and an answer let it in. -/
theorem step_evolves (cfg : GatewayConfig) (s : Gateway) (e : GatewayEvent) (i : Nat) :
    Evolves s e i ((s.step cfg e).1.sockets.get i) := by
  cases e with
  | connect id address userAgent =>
    simp only [step]
    split
    · exact evolves_same i
    · rename_i hfresh
      rw [get_set_socket]
      split
      · rename_i hi
        subst hi
        have hnone : s.sockets.get i = none := by simpa [OrderedMap.has] using hfresh
        simp only [Evolves, hnone]
        rintro c' ⟨⟩
        exact ⟨⟨by simp, by simp⟩, rfl, rfl⟩
      · exact evolves_same i
  | message id msg =>
    refine onSocket_evolves ?_ i
    intro d hd
    split
    · exact ⟨d, set_self hd, becomes_same d⟩
    · obtain ⟨c', hget, hsound, hkeeps | hsigned⟩ := message_cases cfg s id d msg
      · exact ⟨c', hget, hsound, .inl hkeeps⟩
      · exact ⟨c', hget, hsound, .inr (.inl ⟨msg, rfl, hsigned⟩)⟩
  | admission id admitted =>
    refine onSocket_evolves ?_ i
    intro d hd
    cases hr : d.admitting with
    | none => exact ⟨d, set_self hd, becomes_same d⟩
    | some r =>
      exact ⟨_, fun i => get_set_socket _ _ _ _, fun h => h.admission hr id admitted,
        .inr (.inr ⟨r, admitted, rfl, hr, rfl⟩)⟩
  | handled id =>
    refine onSocket_evolves ?_ i
    intro d _
    obtain ⟨queue, draining, heq⟩ := d.handled_eq id
    apply set_becomes
    · rw [heq]
      exact ⟨rfl, rfl, rfl⟩
    · rw [heq]
      exact fun h => h.of_same rfl (fun hws => hws) rfl rfl
  | authTimeout id =>
    refine onSocket_evolves ?_ i
    intro d hd
    split
    · exact set_becomes ⟨rfl, rfl, rfl⟩ fun h => h.of_same rfl Socket.shut_closed rfl rfl
    · exact ⟨d, set_self hd, becomes_same d⟩
  | close id =>
    refine onSocket_evolves ?_ i
    intro d _
    refine set_becomes ⟨rfl, rfl, rfl⟩ ?_
    intro h
    exact ⟨fun _ => rfl, h.admitting⟩
  | teardown id =>
    refine onSocket_evolves ?_ i
    intro d hd
    split
    · exact set_becomes ⟨rfl, rfl, rfl⟩ fun h => h.of_same rfl (fun hws => hws) rfl rfl
    · exact ⟨d, set_self hd, becomes_same d⟩
  | hangUp id =>
    refine onSocket_evolves ?_ i
    intro d hd
    split
    · exact ⟨d, set_self hd, becomes_same d⟩
    · exact set_becomes ⟨rfl, rfl, rfl⟩ fun h => h.of_same rfl Socket.shut_closed rfl rfl
  | shut id =>
    refine onSocket_evolves ?_ i
    intro d _
    exact set_becomes ⟨rfl, rfl, rfl⟩ fun h => h.shut
  | revokeSessionToken _ | revokeGrant _ =>
    simp only [step, revoked, get_closeRevoked]
    refine evolves_map fun c => ?_
    split
    · exact ⟨fun h => h.shut, .inl ⟨rfl, rfl, rfl⟩⟩
    · exact becomes_same c
  | _ => exact evolves_same i

theorem step_becomes (cfg : GatewayConfig) (s : Gateway) (e : GatewayEvent) {i : Nat} (hc : s.sockets.get i = some c) :
    ∃ c', (s.step cfg e).1.sockets.get i = some c' ∧ Becomes s e i c c' := by
  have hevolves := step_evolves cfg s e i
  simpa only [Evolves, hc] using hevolves

theorem step_new {cfg : GatewayConfig} {i : Nat} {c' : Socket}
    (hnone : s.sockets.get i = none) (hc' : (s.step cfg e).1.sockets.get i = some c') :
    c'.Sound ∧ c'.authenticated = false ∧ c'.admitting = none := by
  have hevolves := step_evolves cfg s e i
  simp only [Evolves, hnone] at hevolves
  exact hevolves c' hc'

theorem step_entry {cfg : GatewayConfig} {t : String} {entry : Session}
    (h : (s.step cfg e).1.sessions.get t = some entry) : (∃ old, s.sessions.get t = some old ∧ entry.grant = old.grant ∧
      (∀ ttlMs grant label deviceId, e ≠ .register t ttlMs grant label deviceId) ∧
      e ≠ .revokeSessionToken t ∧ e ≠ .revokeGrant entry.grant.id) ∨
    ∃ ttlMs label deviceId, e = .register t ttlMs entry.grant label deviceId := by
  have same (hsame : s.sessions.get t = some entry)
      (hregister : ∀ ttlMs grant label deviceId, e ≠ .register t ttlMs grant label deviceId)
      (htoken : e ≠ .revokeSessionToken t) (hgrant : e ≠ .revokeGrant entry.grant.id) :
      (∃ old, s.sessions.get t = some old ∧ entry.grant = old.grant ∧
        (∀ ttlMs grant label deviceId, e ≠ .register t ttlMs grant label deviceId) ∧
        e ≠ .revokeSessionToken t ∧ e ≠ .revokeGrant entry.grant.id) ∨
      ∃ ttlMs label deviceId, e = .register t ttlMs entry.grant label deviceId :=
    .inl ⟨entry, hsame, rfl, hregister, htoken, hgrant⟩
  have onSocket {id : Nat} {f : Socket → Gateway × List GatewayOutput}
      (hf : ∀ c, (f c).1.sessions = s.sessions) : (s.onSocket id f).1.sessions = s.sessions := by
    unfold Gateway.onSocket
    split
    · rfl
    · exact hf _
  cases e with
  | connect id address userAgent =>
    simp only [step] at h
    split at h
    · exact same h (by simp) (by simp) (by simp)
    · exact same h (by simp) (by simp) (by simp)
  | message id msg =>
    have hold : ∃ old, s.sessions.get t = some old ∧ entry.grant = old.grant := by
      simp only [step, Gateway.onSocket] at h
      split at h
      · exact ⟨entry, h, rfl⟩
      · split at h
        · exact ⟨entry, h, rfl⟩
        · unfold message at h
          dsimp only at h
          split at h
          · exact ⟨entry, h, rfl⟩
          · split at h
            · exact ⟨entry, h, rfl⟩
            · split at h
              · exact ⟨entry, h, rfl⟩
              · rename_i c _ _ _ _ _ _ _ msg
                split at h
                · obtain ⟨-, -, hold, -⟩ := authenticate_spec cfg s c.address msg
                  unfold firstMessage at h
                  dsimp only at h
                  split at h
                  · rename_i heq
                    rw [heq] at hold
                    obtain ⟨old, hget, hgrant, -⟩ := hold t entry h
                    exact ⟨old, hget, hgrant⟩
                  · rename_i heq
                    rw [heq] at hold
                    obtain ⟨old, hget, hgrant, -⟩ := hold t entry h
                    exact ⟨old, hget, hgrant⟩
                · exact ⟨entry, h, rfl⟩
    obtain ⟨old, hget, hgrant⟩ := hold
    exact .inl ⟨old, hget, hgrant, by simp, by simp, by simp⟩
  | register token ttlMs grant label deviceId =>
    obtain ⟨rfl, hgrant, -⟩ | ⟨hne, hget, -⟩ := get_register h
    · exact .inr ⟨ttlMs, label, deviceId, by rw [hgrant]⟩
    · refine same hget ?_ (by simp) (by simp)
      intro ttl g l d heq
      cases heq
      exact hne rfl
  | lookup token =>
    obtain ⟨old, hget, hgrant, -⟩ := get_grantForToken h
    exact .inl ⟨old, hget, hgrant, by simp, by simp, by simp⟩
  | revokeSessionToken token =>
    have hget : (s.sessions.revokeSessionToken token).1.get t = some entry := h
    rw [get_revokeSessionToken] at hget
    split at hget
    · cases hget
    · rename_i hne
      refine same hget (by simp) ?_ (by simp)
      intro heq
      cases heq
      exact hne rfl
  | revokeGrant grantId =>
    obtain ⟨hget, hne⟩ := get_revokeGrant.1 h
    refine same hget (by simp) (by simp) ?_
    intro heq
    cases heq
    exact hne rfl
  | handled _ | close _ | shut _ =>
    rw [step, onSocket] at h
    · exact same h (by simp) (by simp) (by simp)
    · intro c
      rfl
  | tick ms => exact same h (by simp) (by simp) (by simp)
  | _ =>
    rw [step, onSocket] at h
    · exact same h (by simp) (by simp) (by simp)
    · intro c
      split
      · rfl
      · rfl

end Gateway

def lastGrant (es : List GatewayEvent) (t : String) : Option GrantRecord :=
  es.foldl (fun found e =>
    match e with
    | .register token _ grant _ _ => if token = t then some grant else found
    | _ => found) none

def Revokes (before : List GatewayEvent) (e : GatewayEvent) (t : String) : Prop :=
  e = .revokeSessionToken t ∨ ∃ grant, lastGrant before t = some grant ∧ e = .revokeGrant grant.id

def Unregistered (t : String) (after : List GatewayEvent) : Prop :=
  ∀ ttlMs grant label deviceId, .register t ttlMs grant label deviceId ∉ after

/-- The token was revoked, and not registered since. -/
def Revoked (es : List GatewayEvent) (t : String) : Prop :=
  ∃ before e after, es = before ++ e :: after ∧ Revokes before e t ∧ Unregistered t after

section Finality
variable (cfg : GatewayConfig)

structure Final (before : List GatewayEvent) (e : GatewayEvent) : Prop where
  /-- None becomes authenticated. -/
  newly : ∀ i c c' t, ((gatewayMachine cfg).run before).sockets.get i = some c →
    (((gatewayMachine cfg).run before).step cfg e).1.sockets.get i = some c' →
    c.authenticated = false → c'.authenticated = true → c'.tokenId = some t → ¬ Revoked before t
  /-- A message that arrives on one that is authenticated is neither routed nor queued for it. -/
  quiet : ∀ i msg c t, e = .message i msg →
    ((gatewayMachine cfg).run before).sockets.get i = some c → c.authenticated = true →
    c.tokenId = some t → Revoked before t →
    (∀ m, .route i m ∉ (((gatewayMachine cfg).run before).step cfg e).2) ∧
    ∀ c', (((gatewayMachine cfg).run before).step cfg e).1.sockets.get i = some c' →
      c'.queue = c.queue

structure NothingLate (before : List GatewayEvent) (e : GatewayEvent) : Prop where
  waiting : ∀ b₁ revocation b₂ t, before = b₁ ++ revocation :: b₂ → Revokes b₁ revocation t →
    Unregistered t b₂ → ∀ i c c' r, e = .admission i true →
    ((gatewayMachine cfg).run b₁).sockets.get i = some c → c.admitting = some r →
    r.tokenId = some t → ((gatewayMachine cfg).run before).sockets.get i = some c' →
    c'.admitting = some r → c'.ws ≠ .opened
  wire : ∀ b₁ revocation b₂ t, before = b₁ ++ revocation :: b₂ → Revokes b₁ revocation t →
    Unregistered t b₂ → ∀ i c c' msg, e = .message i (.ok msg) →
    ((gatewayMachine cfg).run b₁).sockets.get i = some c → c.authenticated = true →
    c.tokenId = some t → ((gatewayMachine cfg).run before).sockets.get i = some c' →
    c'.ws ≠ .closed →
    (c'.limiter.check cfg.wsRateLimit ((gatewayMachine cfg).run before).now).2 = false

end Finality

theorem lastGrant_snoc (es : List GatewayEvent) (e : GatewayEvent) (t : String) :
    lastGrant (es ++ [e]) t = match e with
      | .register token _ grant _ _ => if token = t then some grant else lastGrant es t
      | _ => lastGrant es t := by
  simp only [lastGrant, foldl_append, foldl_cons, foldl_nil]

variable {es : List GatewayEvent} {e : GatewayEvent} {t : String}

theorem lastGrant_kept (h : ∀ ttlMs grant label deviceId, e ≠ .register t ttlMs grant label deviceId) :
    lastGrant (es ++ [e]) t = lastGrant es t := by
  rw [lastGrant_snoc]
  cases e with
  | register token ttlMs grant label deviceId =>
    dsimp only
    rw [if_neg]
    intro ht
    exact h ttlMs grant label deviceId (by rw [ht])
  | _ => rfl

theorem Unregistered.append {a b : List GatewayEvent} :
    Unregistered t (a ++ b) ↔ Unregistered t a ∧ Unregistered t b := by
  simp only [Unregistered, mem_append, not_or]
  exact ⟨fun h => ⟨fun x g l d => (h x g l d).1, fun x g l d => (h x g l d).2⟩,
    fun h x g l d => ⟨h.1 x g l d, h.2 x g l d⟩⟩

theorem revoked_snoc : Revoked (es ++ [e]) t ↔ Revokes es e t ∨ Revoked es t ∧ Unregistered t [e] := by
  constructor
  · rintro ⟨before, r, after, hsplit, hrevokes, hafter⟩
    obtain rfl | ⟨after, z, rfl⟩ := eq_nil_or_concat after
    · obtain ⟨rfl, he⟩ := append_inj' hsplit rfl
      cases he
      exact .inl hrevokes
    · rw [concat_eq_append] at hsplit hafter
      have hassoc : es ++ [e] = (before ++ r :: after) ++ [z] := by rw [hsplit]; simp
      obtain ⟨rfl, he⟩ := append_inj' hassoc rfl
      cases he
      rw [Unregistered.append] at hafter
      exact .inr ⟨⟨before, r, after, rfl, hrevokes, hafter.1⟩, hafter.2⟩
  · rintro (hrevokes | ⟨⟨before, r, after, rfl, hrevokes, hafter⟩, he⟩)
    · exact ⟨es, e, [], rfl, hrevokes, by simp [Unregistered]⟩
    · exact ⟨before, r, after ++ [e], by simp, hrevokes, Unregistered.append.2 ⟨hafter, he⟩⟩

variable {cfg : GatewayConfig}

/-- An entry of the table has the grant its token was registered with last, and the token was not
revoked since. -/
theorem entry_run {entry : Session} (h : ((gatewayMachine cfg).run es).sessions.get t = some entry) :
    lastGrant es t = some entry.grant ∧ ¬ Revoked es t := by
  induction es using List.reverseRecOn generalizing entry with
  | nil => simp [gatewayMachine, run_nil, Gateway.start] at h
  | append_singleton es e ih =>
    rw [run_snoc] at h
    obtain ⟨old, hget, hgrant, hregister, htoken, hrevoke⟩ | ⟨ttlMs, label, deviceId, rfl⟩ :=
      Gateway.step_entry h
    · obtain ⟨hlast, hnot⟩ := ih hget
      refine ⟨by rw [lastGrant_kept hregister, hlast, hgrant], ?_⟩
      rw [revoked_snoc]
      rintro ((rfl | ⟨grant, hlast', rfl⟩) | ⟨hrevoked, -⟩)
      · exact htoken rfl
      · rw [hlast] at hlast'
        cases hlast'
        rw [hgrant] at hrevoke
        exact hrevoke rfl
      · exact hnot hrevoked
    · refine ⟨by simp [lastGrant_snoc], ?_⟩
      rw [revoked_snoc]
      rintro ((heq | ⟨grant, -, heq⟩) | ⟨-, hunregistered⟩)
      · cases heq
      · cases heq
      · exact hunregistered _ _ _ _ (mem_singleton_self _)

variable {i : Nat}

theorem sound_run {c : Socket} (h : ((gatewayMachine cfg).run es).sockets.get i = some c) : c.Sound := by
  induction es using List.reverseRecOn generalizing c with
  | nil => simp [gatewayMachine, run_nil, Gateway.start] at h
  | append_singleton es e ih =>
    rw [run_snoc] at h
    cases hget : ((gatewayMachine cfg).run es).sockets.get i with
    | none => exact (Gateway.step_new hget h).1
    | some d =>
      obtain ⟨c', hc', hsound, -⟩ := Gateway.step_becomes cfg _ e hget
      rw [show (((gatewayMachine cfg).run es).step cfg e).1.sockets.get i = some c from h] at hc'
      cases hc'
      exact hsound (ih hget)

variable {c' : Socket}

/-- A question about a socket was asked earlier, or its token is in the table now. -/
theorem asked_before {r : AuthResult} (hc' : ((gatewayMachine cfg).run (es ++ [e])).sockets.get i = some c')
    (hr : c'.admitting = some r) (ht : r.tokenId = some t) :
    (∃ c, ((gatewayMachine cfg).run es).sockets.get i = some c ∧ c.admitting = some r) ∨ (∃ msg, e = .message i msg) ∧
        ∃ entry, ((gatewayMachine cfg).run es).sessions.get t = some entry := by
  rw [run_snoc] at hc'
  cases hget : ((gatewayMachine cfg).run es).sockets.get i with
  | none =>
    rw [(Gateway.step_new hget hc').2.2] at hr
    cases hr
  | some c =>
    obtain ⟨d, hd, -, hkeeps | ⟨msg, rfl, -, -, -, -, r', hr', hentry⟩ |
      ⟨r', admitted, rfl, -, heq⟩⟩ := Gateway.step_becomes cfg _ e hget
    · rw [show (((gatewayMachine cfg).run es).step cfg e).1.sockets.get i = some c' from hc'] at hd
      cases hd
      exact .inl ⟨c, rfl, hkeeps.2.2.symm.trans hr⟩
    · rw [show (((gatewayMachine cfg).run es).step cfg (.message i msg)).1.sockets.get i =
        some c' from hc'] at hd
      cases hd
      rw [hr] at hr'
      cases hr'
      exact .inr ⟨⟨msg, rfl⟩, hentry t ht⟩
    · rw [show (((gatewayMachine cfg).run es).step cfg (.admission i admitted)).1.sockets.get i =
        some c' from hc'] at hd
      cases hd
      have hover : c'.admitting = none := by
        obtain ⟨-, -, heq'⟩ | ⟨-, heq' | heq'⟩ := c.admission_cases i r' admitted
        · rw [heq, heq']
        · rw [heq, heq']
        · rw [heq, heq']
          rfl
      rw [hover] at hr
      cases hr

/-- A connection signed in earlier, or is let in now while it is open. -/
theorem connected_before (hc' : ((gatewayMachine cfg).run (es ++ [e])).sockets.get i = some c')
    (hauthenticated : c'.authenticated = true) (ht : c'.tokenId = some t) :
    (∃ c, ((gatewayMachine cfg).run es).sockets.get i = some c ∧ c.authenticated = true ∧ c.tokenId = some t) ∨
    ∃ c r, ((gatewayMachine cfg).run es).sockets.get i = some c ∧ c.authenticated = false ∧
      c.admitting = some r ∧ r.tokenId = some t ∧ e = .admission i true ∧ c.ws = .opened := by
  rw [run_snoc] at hc'
  cases hget : ((gatewayMachine cfg).run es).sockets.get i with
  | none =>
    rw [(Gateway.step_new hget hc').2.1] at hauthenticated
    cases hauthenticated
  | some c =>
    obtain ⟨d, hd, -, hkeeps | ⟨msg, rfl, hsigned⟩ | ⟨r, admitted, rfl, hr, heq⟩⟩ :=
      Gateway.step_becomes cfg _ e hget
    · rw [show (((gatewayMachine cfg).run es).step cfg e).1.sockets.get i = some c' from hc'] at hd
      cases hd
      exact .inl ⟨c, rfl, hkeeps.1.symm.trans hauthenticated, hkeeps.2.1.symm.trans ht⟩
    · rw [show (((gatewayMachine cfg).run es).step cfg (.message i msg)).1.sockets.get i =
        some c' from hc'] at hd
      cases hd
      rw [hsigned.2.2.1] at hauthenticated
      cases hauthenticated
    · rw [show (((gatewayMachine cfg).run es).step cfg (.admission i admitted)).1.sockets.get i =
        some c' from hc'] at hd
      cases hd
      have hout : c.authenticated = false := by
        by_contra hin
        rw [(sound_run hget).admitting (by simpa using hin)] at hr
        cases hr
      obtain ⟨rfl, hws, heq'⟩ | ⟨-, heq' | heq'⟩ := c.admission_cases i r admitted
      · rw [heq, heq'] at ht
        exact .inr ⟨c, r, rfl, hout, hr, ht, rfl, hws⟩
      · rw [heq, heq'] at hauthenticated
        exact absurd hauthenticated (by simp [hout])
      · rw [heq, heq'] at hauthenticated
        exact absurd hauthenticated (by simp [Socket.shut, hout])

variable {before : List GatewayEvent}

theorem Revokes.no_message (h : Revokes before e t) (i : Nat) : (∀ msg, e ≠ .message i msg) ∧
      ∀ admitted, e ≠ .admission i admitted := by
  obtain rfl | ⟨grant, -, rfl⟩ := h
  · exact ⟨by simp, by simp⟩
  · exact ⟨by simp, by simp⟩

theorem snoc_assoc (b₁ b₂ : List GatewayEvent) (r e : GatewayEvent) :
    b₁ ++ r :: (b₂ ++ [e]) = (b₁ ++ r :: b₂) ++ [e] := by simp

variable {b₁ b₂ : List GatewayEvent} {revocation : GatewayEvent}

theorem asked_before_revocation (hrevokes : Revokes b₁ revocation t) (hafter : Unregistered t b₂) {r : AuthResult}
    (hc' : ((gatewayMachine cfg).run (b₁ ++ revocation :: b₂)).sockets.get i = some c')
    (hr : c'.admitting = some r) (ht : r.tokenId = some t) :
    ∃ c, ((gatewayMachine cfg).run b₁).sockets.get i = some c ∧ c.admitting = some r := by
  induction b₂ using List.reverseRecOn generalizing c' with
  | nil =>
    obtain hbefore | ⟨⟨msg, heq⟩, -⟩ := asked_before hc' hr ht
    · exact hbefore
    · exact absurd heq ((hrevokes.no_message i).1 msg)
  | append_singleton b₂ e ih =>
    rw [Unregistered.append] at hafter
    rw [snoc_assoc] at hc'
    obtain ⟨c, hc, hcr⟩ | ⟨-, entry, hentry⟩ := asked_before hc' hr ht
    · exact ih hafter.1 hc hcr
    · exact absurd ⟨b₁, revocation, b₂, rfl, hrevokes, hafter.1⟩ (entry_run hentry).2

theorem Final.newly_of (h : NothingLate cfg before e) : ∀ i c c' t,
    ((gatewayMachine cfg).run before).sockets.get i = some c →
    (((gatewayMachine cfg).run before).step cfg e).1.sockets.get i = some c' →
    c.authenticated = false → c'.authenticated = true → c'.tokenId = some t → ¬ Revoked before t := by
  rintro i c c' t hc hc' hout hin ht ⟨b₁, revocation, b₂, rfl, hrevokes, hafter⟩
  have hpost : ((gatewayMachine cfg).run (b₁ ++ revocation :: b₂ ++ [e])).sockets.get i =
      some c' := by
    rw [run_snoc]
    exact hc'
  obtain ⟨d, hd, hdin, -⟩ | ⟨d, r, hd, -, hr, hrt, he, hws⟩ := connected_before hpost hin ht
  · rw [hc] at hd
    cases hd
    rw [hout] at hdin
    cases hdin
  · obtain ⟨c₀, hc₀, hr₀⟩ := asked_before_revocation hrevokes hafter hd hr hrt
    exact h.waiting b₁ revocation b₂ t rfl hrevokes hafter i c₀ d r he hc₀ hr₀ hrt hd hr hws

theorem connected_before_revocation (hrevokes : Revokes b₁ revocation t) (hafter : Unregistered t b₂)
    (hlate : ∀ before e after, b₁ ++ revocation :: b₂ = before ++ e :: after →
      NothingLate cfg before e) (hc' : ((gatewayMachine cfg).run (b₁ ++ revocation :: b₂)).sockets.get i = some c')
    (hin : c'.authenticated = true) (ht : c'.tokenId = some t) :
    ∃ c, ((gatewayMachine cfg).run b₁).sockets.get i = some c ∧ c.authenticated = true ∧ c.tokenId = some t := by
  induction b₂ using List.reverseRecOn generalizing c' with
  | nil =>
    obtain hbefore | ⟨c, r, -, -, -, -, heq, -⟩ := connected_before hc' hin ht
    · exact hbefore
    · exact absurd heq ((hrevokes.no_message i).2 true)
  | append_singleton b₂ e ih =>
    rw [Unregistered.append] at hafter
    rw [snoc_assoc] at hc' hlate
    obtain ⟨c, hc, hcin, hct⟩ | ⟨c, r, hc, hout, -, -, rfl, -⟩ := connected_before hc' hin ht
    · refine ih hafter.1 ?_ hc hcin hct
      intro before e' after hsplit
      exact hlate before e' (after ++ [e]) (by rw [hsplit]; simp)
    · have hnewly := Final.newly_of (hlate (b₁ ++ revocation :: b₂) _ [] rfl)
      rw [run_snoc] at hc'
      exact absurd ⟨b₁, revocation, b₂, rfl, hrevokes, hafter.1⟩ (hnewly i c c' t hc hc' hout hin ht)

theorem still_connected {c : Socket}
    (hc : ((gatewayMachine cfg).run es).sockets.get i = some c) (hin : c.authenticated = true)
    (ht : c.tokenId = some t) (fs : List GatewayEvent) :
    ∃ c', ((gatewayMachine cfg).run (es ++ fs)).sockets.get i = some c' ∧
      c'.authenticated = true ∧ c'.tokenId = some t := by
  induction fs using List.reverseRecOn with
  | nil => exact ⟨c, by rw [append_nil, hc], hin, ht⟩
  | append_singleton fs e ih =>
    obtain ⟨d, hd, hdin, hdt⟩ := ih
    rw [← append_assoc, run_snoc]
    obtain ⟨c', hc', -, hkeeps | ⟨msg, -, hsigned⟩ | ⟨r, admitted, -, hr, -⟩⟩ :=
      Gateway.step_becomes cfg _ e hd
    · exact ⟨c', hc', hkeeps.1.trans hdin, hkeeps.2.1.trans hdt⟩
    · rw [hsigned.1] at hdin
      cases hdin
    · rw [(sound_run hd).admitting hdin] at hr
      cases hr

theorem connected_message {s : Gateway} {c : Socket}
    (hc : s.sockets.get i = some c) (hsound : c.Sound) (hin : c.authenticated = true)
    (msg : Except String ClientMessage) : ((∀ m, .route i m ∉ (s.step cfg (.message i msg)).2) ∧
      ∀ c', (s.step cfg (.message i msg)).1.sockets.get i = some c' → c'.queue = c.queue) ↔
    (∀ m, msg = .ok m → c.ws ≠ .closed → (c.limiter.check cfg.wsRateLimit s.now).2 = false) := by
  have hnone := hsound.admitting hin
  simp only [Gateway.step, Gateway.onSocket, hc]
  by_cases hws : c.ws = .closed
  · rw [if_pos hws]
    refine ⟨fun _ _ _ hne => absurd hws hne, fun _ => ⟨by simp, ?_⟩⟩
    intro c' hc'
    rw [hc] at hc'
    cases hc'
    rfl
  · rw [if_neg hws]
    have hclosing : c.closing = false := by
      by_contra hcl
      exact hws (hsound.closing (by simpa using hcl))
    simp only [Gateway.message, hnone, Option.isSome_none, Bool.false_eq_true, if_false]
    cases hcheck : c.limiter.check cfg.wsRateLimit s.now with
    | mk limiter within =>
      have quiet (d : Socket) (out : List GatewayOutput) (hq : d.queue = c.queue)
          (hout : ∀ m, .route i m ∉ out) : (∀ m, .route i m ∉ (s.set i d, out).2) ∧
            ∀ c', (s.set i d, out).1.sockets.get i = some c' → c'.queue = c.queue := by
        refine ⟨hout, ?_⟩
        intro c' hc'
        rw [Gateway.get_set_socket, if_pos rfl] at hc'
        cases hc'
        exact hq
      have sent (d : Socket) (m' : GatewayMessage) : ∀ m, .route i m ∉ d.send i m' := by
        intro m
        unfold Socket.send
        split
        · simp
        · simp
      cases within with
      | false => exact ⟨fun _ _ _ _ => rfl, fun _ => quiet _ _ rfl (sent _ _)⟩
      | true =>
        cases msg with
        | error reason =>
          refine ⟨?_, fun _ => quiet _ _ rfl (sent _ _)⟩
          intro _ m hm
          cases hm
        | ok m =>
          dsimp only
          rw [hin]
          simp only [Bool.not_true, Bool.false_eq_true, if_false]
          constructor
          · rintro ⟨hroute, hqueue⟩
            exfalso
            cases hdraining : c.draining with
            | false =>
              apply hroute m
              simp [Gateway.put, Socket.enqueue, hclosing, hdraining]
            | true =>
              have hlonger := hqueue _ (Gateway.get_set_socket _ i i _ |>.trans (if_pos rfl))
              simp [Socket.enqueue, hclosing, hdraining] at hlonger
          · intro hall
            have hlimited := hall m rfl hws
            cases hlimited

/-- In a run a revocation is final if and only if nothing comes late for what it found: no answer
for a socket that was waiting, no message on one that was connected. -/
theorem revocation_final_iff (cfg : GatewayConfig) (es : List GatewayEvent) :
    (∀ before e after, es = before ++ e :: after → Final cfg before e) ↔
      ∀ before e after, es = before ++ e :: after → NothingLate cfg before e := by
  constructor
  · rintro hfinal before e after rfl
    have hstep := hfinal before e after rfl
    refine ⟨?_, ?_⟩
    · rintro b₁ revocation b₂ t rfl hrevokes hafter i c c' r rfl - - ht hc' hr hws
      have hout : c'.authenticated = false := by
        by_contra hin
        rw [(sound_run hc').admitting (by simpa using hin)] at hr
        cases hr
      obtain ⟨-, -, heq⟩ | ⟨hno | hno, -⟩ := c'.admission_cases i r true
      · have hpost : (((gatewayMachine cfg).run (b₁ ++ revocation :: b₂)).step cfg
            (.admission i true)).1.sockets.get i = some (c'.admission i r true).1 := by
          simp [Gateway.step, Gateway.onSocket, hc', hr, Gateway.put]
        rw [heq] at hpost
        exact hstep.newly i c' _ t hc' hpost hout rfl ht
          ⟨b₁, revocation, b₂, rfl, hrevokes, hafter⟩
      · cases hno
      · exact hno hws
    · rintro b₁ revocation b₂ t rfl hrevokes hafter i c c' msg rfl hc hin ht hc' hws
      obtain ⟨d, hd, hkept⟩ := still_connected hc hin ht (revocation :: b₂)
      rw [hc'] at hd
      cases hd
      exact (connected_message hc' (sound_run hc') hkept.1 _).1 (hstep.quiet i _ c' t rfl hc' hkept.1
        hkept.2 ⟨b₁, revocation, b₂, rfl, hrevokes, hafter⟩) msg rfl hws
  · rintro hlate before e after rfl
    have hstep := hlate before e after rfl
    refine ⟨Final.newly_of hstep, ?_⟩
    rintro i msg c t rfl hc hin ht ⟨b₁, revocation, b₂, rfl, hrevokes, hafter⟩
    obtain ⟨c₀, hc₀, hin₀, ht₀⟩ := connected_before_revocation hrevokes hafter
      (fun b e' a hsplit => hlate b e' (a ++ .message i msg :: after) (by rw [hsplit]; simp))
      hc hin ht
    refine (connected_message hc (sound_run hc) hin msg).2 ?_
    rintro m rfl hws
    exact hstep.wire b₁ revocation b₂ t rfl hrevokes hafter i c₀ c m rfl hc₀ hin₀ ht₀ hc hws

def sampleGateway : GatewayConfig where
  authToken := "5e1f"
  wsRateLimit := 100

/-- A phone has paired, and a human is asked about its socket. -/
def askedRun : List GatewayEvent :=
  [.register "9c0a" 86400000 fullGrant none (some "browser-m1x2"), .connect 0 "10.0.0.7" none,
    .message 0 (.ok (.auth "9c0a"))]

/-- The socket of a revoked token is let in by an answer that comes after; one that was let in before
has a message routed that was on the wire, and stays open if its token had left the table. -/
theorem not_revocation_final : ((((gatewayMachine sampleGateway).run (askedRun ++ [.revokeSessionToken "9c0a",
        .admission 0 true])).sockets.get 0).map fun c => (c.authenticated, c.tokenId)) = some (true, some "9c0a") ∧
    (((gatewayMachine sampleGateway).run (askedRun ++ [.admission 0 true,
        .revokeSessionToken "9c0a"])).step sampleGateway (.message 0 (.ok .sessionList))).2 = [.route 0 .sessionList] ∧
    ((((gatewayMachine sampleGateway).run (askedRun ++ [.admission 0 true, .tick 86400000,
        .register "b7d4" 1000 fullGrant none none, .revokeSessionToken "9c0a"])).sockets.get 0).map
      fun c => (c.ws, c.authenticated)) = some (.opened, true) ∧
    ¬ ∀ before e after, askedRun ++ [.revokeSessionToken "9c0a", .admission 0 true] =
      before ++ e :: after → Final sampleGateway before e := by
  refine ⟨by decide +kernel, by rfl, by decide +kernel, ?_⟩
  intro h
  have hnewly := (h (askedRun ++ [.revokeSessionToken "9c0a"]) (.admission 0 true) [] rfl).newly 0
  have hpre : (((gatewayMachine sampleGateway).run (askedRun ++
      [.revokeSessionToken "9c0a"])).sockets.get 0).map Socket.authenticated = some false := by
    decide +kernel
  have hpost : ((((gatewayMachine sampleGateway).run (askedRun ++
      [.revokeSessionToken "9c0a"])).step sampleGateway (.admission 0 true)).1.sockets.get 0).map
        (fun c => (c.authenticated, c.tokenId)) = some (true, some "9c0a") := by decide +kernel
  obtain ⟨c, hc, hout⟩ := Option.map_eq_some_iff.1 hpre
  obtain ⟨c', hc', hin⟩ := Option.map_eq_some_iff.1 hpost
  have hfields := Prod.mk.inj hin
  exact hnewly c c' "9c0a" hc hc' hout hfields.1 hfields.2
    ⟨askedRun, .revokeSessionToken "9c0a", [], rfl, .inl rfl, by simp [Unregistered]⟩

end Mtmux.Relay
