import Mtmux.Base.IdleWindow
import Mtmux.Cli.TrustSteps

/-! Two clocks for one trust: the record of a device in the file, and the window of its token at the
relay. A device is used and the machine is started anew, and every write of the record succeeds. -/
namespace Mtmux.Cli
open Crypto Protocol Relay OrderedMap Machine List

/-- How a device came to be trusted by the process that is running. -/
inductive PairedBy where
  | code (share : Option ShareOptions) (draw : String)
  | request

/-- Time passes, and then the device uses its token or the machine is started anew. -/
inductive ClockEvent where
  | uses (after : Nat)
  | restarts (share : Option ShareOptions) (after : Nat)

structure Moment where
  now : Nat
  trust : TrustState

def PairedBy.share : PairedBy → Option ShareOptions
  | .code share _ => share
  | .request => none

/-- The relay takes the token, and then the file gets the record. -/
def PairedBy.pairing (how : PairedBy) (keys : SessionKeys) (label : String) (now : Nat) :
    List TrustEvent :=
  (match how with
    | .code none draw => [.codePaired 0 keys label draw now, .registered 0 true true now]
    | .code (some _) draw =>
      [.codePaired 0 keys label draw now, .registered 0 true true now, .addsGrant 0 now]
    | .request =>
      [.accessApproved 0 keys label now, .registered 0 true true now, .sealed 0 true now]) ++
    [.reads 0, .writes 0]

def PairedBy.events (how : PairedBy) (keys : SessionKeys) (label : String) (now : Nat) :
    List TrustEvent :=
  [.boots how.share now, .restores now, .openTunnel, .startAgent, .tunnelUp 0] ++
    how.pairing keys label now

section Clock
variable (hashToken : String → String)

def TrustState.after (s : TrustState) (es : List TrustEvent) : TrustState :=
  es.foldl (fun s e => (s.step hashToken e).1) s

def PairedBy.grant (how : PairedBy) (keys : SessionKeys) (now : Nat) : Option GrantRecord :=
  match how with
  | .code share draw => share.map fun share => share.buildGrant hashToken draw now keys.directToken
  | .request => none

def PairedBy.moment (how : PairedBy) (keys : SessionKeys) (label : String) (now : Nat) : Moment where
  now := now
  trust := ((trustMachine hashToken).run (how.events keys label now))

namespace Moment

def accepts (m : Moment) (token : String) (now : Nat) : Bool :=
  (m.trust.sessions.grantForToken token now).grant.isSome

/-- A use with what it writes to the file, if it writes; it says whether the relay accepted it. -/
def step (token : String) (m : Moment) : ClockEvent → Moment × List Bool
  | .uses after =>
    let now := m.now + after
    (⟨now, m.trust.after hashToken [.usesToken token now, .reads m.trust.next, .writes m.trust.next]⟩,
      [m.accepts token now])
  | .restarts share after =>
    let now := m.now + after
    (⟨now, m.trust.after hashToken [.boots share now, .restores now]⟩, [])

end Moment

def clockMachine (how : PairedBy) (keys : SessionKeys) (label : String) (now : Nat) :
    Machine Moment ClockEvent Bool where
  init := how.moment hashToken keys label now
  step := Moment.step hashToken keys.directToken

end Clock

def Moment.Agrees (token deviceId : String) (m : Moment) : Prop :=
  ∀ peer ∈ m.trust.peers, peer.deviceId = deviceId → ∀ now, m.now ≤ now →
    (isPeerExpired peer now = false → m.accepts token now = true) ∧
      (m.accepts token now = true → now ≤ peer.lastSeenAt + peerExpiryMs + touchIntervalMs)

/-- A use that is accepted: the window of the token is the whole one, and where the use is written down
the share of the device, if it came through one, has no earlier end. -/
def Moment.Whole (token deviceId : String) (m : Moment) : ClockEvent → Prop
  | .restarts _ _ => True
  | .uses after =>
    ∀ entry, m.trust.sessions.get token = some entry → m.accepts token (m.now + after) = true →
      entry.renewMs = peerExpiryMs ∧
        ((∀ previous, m.trust.lastTouched.get deviceId = some previous →
          previous + touchIntervalMs ≤ m.now + after) →
            ∀ now, m.now + after ≤ now → now < m.now + after + peerExpiryMs →
              isGrantActive entry.grant now = true)

def ClockEvent.idle : ClockEvent → IdleEvent
  | .uses after => .uses after
  | .restarts _ after => .restarts after

/-- What the trust in one device comes down to. -/
structure Follows (token deviceId : String) (grant : Option GrantRecord) (s : TrustState)
    (c : IdleClocks) : Prop where
  peers : ∃ peer, s.peers = [peer] ∧ peer.deviceId = deviceId ∧ peer.directToken = some token ∧
    peer.grantId = grant.map GrantRecord.id ∧ peer.lastSeenAt = c.seen
  grants : s.grants = grant.toList
  serving : s.phase = .serving
  noted : s.lastTouched.get deviceId = c.noted
  window : (s.sessions.get token).map (fun entry => IdleWindow.mk entry.expiresAt entry.renewMs) = c.window
  entry : ∀ entry, s.sessions.get token = some entry →
    entry.grant = grant.getD fullGrant ∧ entry.deviceId = some deviceId
  idle : ∀ id, s.jobs.get id = none

def lastsOf (grant : Option GrantRecord) (now : Nat) : Bool := isGrantActive (grant.getD fullGrant) now

section Follow
variable {hashToken : String → String} {token deviceId : String} {grant : Option GrantRecord}
  {s : TrustState} {c : IdleClocks} {now : Nat}

theorem after_idle {id : Nat} (h : s.jobs.get id = none) : s.after hashToken [.reads id, .writes id] = s := by
  simp [TrustState.after, TrustState.step, h]

variable (hashToken) in
theorem after_edit {id : Nat} {edit : PeerEdit} {next : AfterEdit} {written : List PeerRecord}
    (hjob : s.jobs.get id = some ⟨true, .loading edit next⟩) (hwritten : edit.apply s.peers = some written)
    (hnext : ∀ s : TrustState, (s.edited id true true next).1 = s.finish id) :
    ∃ jobs, s.after hashToken [.reads id, .writes id] = { s with peers := written, jobs := jobs } ∧
      ∀ i, jobs.get i = if i = id then none else s.jobs.get i := by
  refine ⟨(s.jobs.set id ⟨true, .writing edit s.peers written next⟩).delete id, ?_, ?_⟩
  · simp [TrustState.after, TrustState.step, hjob, TrustState.loads, hwritten, TrustState.goOn,
      get_set, TrustState.writes, TrustState.andThen, hnext, TrustState.finish]
  · intro i
    rw [get_delete]
    split
    · rfl
    · rename_i hne
      rw [get_set, if_neg hne]

namespace Follows

section
variable (h : Follows token deviceId grant s c)
include h

theorem lookup (now : Nat) :
    (s.sessions.grantForToken token now).grant.isSome = c.accepts (lastsOf grant) now := by
  have hwindow := h.window
  unfold Sessions.grantForToken
  cases hget : s.sessions.get token with
  | none =>
    rw [hget] at hwindow
    simp [IdleClocks.accepts, ← hwindow]
  | some entry =>
    rw [hget] at hwindow
    obtain ⟨hgrant, -⟩ := h.entry entry hget
    dsimp only
    rw [hgrant]
    by_cases hexpired : entry.expiresAt ≤ now
    · simp [hexpired, IdleClocks.accepts, ← hwindow]
    · cases hactive : isGrantActive (grant.getD fullGrant) now <;>
        simp [hexpired, hactive, IdleClocks.accepts, ← hwindow, lastsOf, Nat.lt_of_not_le hexpired]

theorem accepted
    (ha : c.accepts (lastsOf grant) now = true) :
    ∃ entry, s.sessions.get token = some entry ∧
      s.sessions.grantForToken token now =
        { sessions := s.sessions.set token { entry with expiresAt := now + entry.renewMs }
          grant := some entry.grant
          used := some deviceId } := by
  rw [← h.lookup now] at ha
  obtain ⟨g, hg⟩ := Option.isSome_iff_exists.1 ha
  obtain ⟨entry, hget, rfl, hlt, hactive⟩ := Sessions.grantForToken_some hg
  refine ⟨entry, hget, ?_⟩
  unfold Sessions.grantForToken
  rw [hget]
  simp [Nat.not_le.2 hlt, hactive, (h.entry entry hget).2]

theorem refused (ha : c.accepts (lastsOf grant) now = false) :
    (s.sessions.grantForToken token now).used = none ∧
      (s.sessions.grantForToken token now).sessions.get token = none := by
  rw [← h.lookup now] at ha
  unfold Sessions.grantForToken at ha ⊢
  cases hget : s.sessions.get token with
  | none => exact ⟨rfl, hget⟩
  | some entry =>
    rw [hget] at ha
    dsimp only at ha ⊢
    split
    · exact ⟨rfl, by simp [get_delete]⟩
    · rename_i hlive
      rw [if_neg hlive] at ha
      split
      · exact ⟨rfl, by simp [get_delete]⟩
      · rename_i hactive
        simp [hactive] at ha

theorem usesToken (now : Nat) : Follows token deviceId grant
      (s.after hashToken [.usesToken token now, .reads s.next, .writes s.next])
      (c.uses touchIntervalMs (lastsOf grant) now) := by
  change Follows token deviceId grant
    ((s.usesToken token now).after hashToken [.reads s.next, .writes s.next]) _
  have hwindow := h.window
  cases ha : c.accepts (lastsOf grant) now with
  | false =>
    obtain ⟨hused, hgone⟩ := h.refused ha
    have hstate : s.usesToken token now =
        { s with sessions := (s.sessions.grantForToken token now).sessions } := by
      simp [TrustState.usesToken, hused]
    rw [after_idle (by rw [hstate]; exact h.idle _), hstate, IdleClocks.uses_refused ha]
    exact
      { peers := h.peers
        grants := h.grants
        serving := h.serving
        noted := h.noted
        window := by simp [hgone]
        entry := by
          intro entry hget
          simp [hgone] at hget
        idle := h.idle }
  | true =>
    obtain ⟨entry, hget, hlookup⟩ := h.accepted ha
    obtain ⟨hgrant, hdevice⟩ := h.entry entry hget
    rw [hget] at hwindow
    rw [IdleClocks.uses_accepted hwindow.symm ha]
    have hany : (s.lastTouched.get deviceId).any (fun previous => decide (now < previous + touchIntervalMs)) =
        !c.due touchIntervalMs now := by
      rw [h.noted, IdleClocks.due, Bool.not_not]
    cases hdue : c.due touchIntervalMs now with
    | false =>
      let sessions : Sessions := s.sessions.set token { entry with expiresAt := now + entry.renewMs }
      have hstate : s.usesToken token now = { s with sessions := sessions } := by
        simp only [TrustState.usesToken, hlookup]
        rw [hany, hdue]
        rfl
      rw [after_idle (by rw [hstate]; exact h.idle _), hstate, if_neg (by simp)]
      exact
        { peers := h.peers
          grants := h.grants
          serving := h.serving
          noted := h.noted
          window := by simp [sessions, get_set]
          entry := by
            intro entry' hget'
            simp only [sessions, get_set, if_true, Option.some.injEq] at hget'
            rw [← hget']
            exact ⟨hgrant, hdevice⟩
          idle := h.idle }
    | true =>
      obtain ⟨peer, hpeers, hid, htoken, hscope, hseen⟩ := h.peers
      let sessions : Sessions := s.sessions.set token { entry with expiresAt := now + entry.renewMs }
      have hstate : s.usesToken token now =
          { s with
            sessions := sessions
            lastTouched := s.lastTouched.set deviceId now
            jobs := s.jobs.set s.next ⟨true, .loading (.touchPeer peer.deviceId now) .nothing⟩
            next := s.next + 1 } := by
        simp only [TrustState.usesToken, hlookup]
        rw [hany, hdue, hid]
        rfl
      have hjob : (s.usesToken token now).jobs.get s.next =
          some ⟨true, .loading (.touchPeer peer.deviceId now) .nothing⟩ := by
        rw [hstate]
        exact (get_set _ _ _ _).trans (if_pos rfl)
      have hwritten : PeerEdit.apply (s.usesToken token now).peers (.touchPeer peer.deviceId now) =
          some [{ peer with lastSeenAt := now }] := by
        rw [hstate]
        simp [PeerEdit.apply, touchPeer, hpeers, updatePeer]
      obtain ⟨jobs, hafter, hjobs⟩ := after_edit hashToken hjob hwritten fun _ => rfl
      rw [hafter, hstate, if_pos rfl]
      exact
        { peers := ⟨_, rfl, hid, htoken, hscope, rfl⟩
          grants := h.grants
          serving := h.serving
          noted := by simp [get_set]
          window := by simp [sessions, get_set]
          entry := by
            intro entry' hget'
            simp only [sessions, get_set, if_true, Option.some.injEq] at hget'
            rw [← hget']
            exact ⟨hgrant, hdevice⟩
          idle := by
            intro id
            rw [hjobs id]
            split
            · rfl
            · rename_i hne
              rw [hstate]
              exact (get_set _ _ _ _).trans ((if_neg hne).trans (h.idle id)) }

end

theorem scope_found (grant : Option GrantRecord) (hid : ∀ g, grant = some g → g.id ≠ "") (now : Nat) :
    (((grant.map GrantRecord.id).filter (· ≠ "")).isSome && (((grant.map GrantRecord.id).filter (· ≠ "")).bind fun id =>
        (GrantsStore.active grant.toList now).reverse.find? fun g => g.id = id).isNone) = !lastsOf grant now ∧
    (lastsOf grant now = true → (((grant.map GrantRecord.id).filter (· ≠ "")).bind fun id =>
        (GrantsStore.active grant.toList now).reverse.find? fun g => g.id = id) = grant) := by
  cases grant with
  | none => exact ⟨rfl, fun _ => rfl⟩
  | some g =>
    have hne := hid g rfl
    cases hactive : isGrantActive g now <;>
      simp [lastsOf, GrantsStore.active, hactive, Option.filter, hne]

theorem restarts (h : Follows token deviceId grant s c) (htoken : token ≠ "") (hdevice : deviceId ≠ "")
    (hid : ∀ g, grant = some g → g.id ≠ "") (share : Option ShareOptions) (now : Nat) :
    Follows token deviceId grant (s.after hashToken [.boots share now, .restores now])
      (c.restarts peerExpiryMs (lastsOf grant) now) := by
  obtain ⟨peer, hpeers, hpeer, hsecret, hscope, hseen⟩ := h.peers
  let r := restorePeer (GrantsStore.active grant.toList now) now now ⟨0, 0, 0, [], .empty, []⟩ peer
  have hstate : s.after hashToken [.boots share now, .restores now] =
      { s.boots share now with phase := .serving, sessions := r.sessions, trusted := r.trusted } := by
    simp [TrustState.after, TrustState.step, TrustState.boots, TrustState.restores,
      restoreTrustedDevices, hpeers, h.grants, r]
  have hsessions : (r.sessions.get token).map
        (fun entry => IdleWindow.mk entry.expiresAt entry.renewMs) =
        (c.restarts peerExpiryMs (lastsOf grant) now).window ∧
      ∀ entry, r.sessions.get token = some entry →
        entry.grant = grant.getD fullGrant ∧ entry.deviceId = some deviceId := by
    obtain ⟨hnone, hfound⟩ := scope_found grant hid now
    have hleft : peerLifetimeRemainingMs peer now = c.remaining peerExpiryMs now := by
      rw [peerLifetimeRemainingMs, IdleClocks.remaining, hseen]
    simp only [r, restorePeer, IdleClocks.restarts, hscope, isPeerExpired, hleft, hsecret]
    by_cases hexpired : c.remaining peerExpiryMs now ≤ 0
    · have hzero := Nat.le_zero.1 hexpired
      rw [if_pos (decide_eq_true hexpired), if_pos (.inl hzero)]
      exact ⟨rfl, by simp [OrderedMap.empty, OrderedMap.get]⟩
    · have hpos : c.remaining peerExpiryMs now ≠ 0 := fun hzero => hexpired (Nat.le_of_eq hzero)
      rw [if_neg (by simpa using hexpired), hnone]
      cases hlasts : lastsOf grant now with
      | false =>
        simp only [Bool.not_false, if_true, or_true]
        exact ⟨rfl, by simp [OrderedMap.empty, OrderedMap.get]⟩
      | true =>
        rw [hfound hlasts]
        have htoken' : (some token).filter (· ≠ "") = some token := by simp [Option.filter, htoken]
        simp only [Bool.not_true, Bool.false_eq_true, if_false, htoken', hpos]
        cases peer.sessionKeys <;>
          simp [Sessions.registerSessionToken, get_set, Option.filter, hpeer, hdevice]
  rw [hstate]
  exact
    { peers := ⟨peer, hpeers, hpeer, hsecret, hscope, hseen⟩
      grants := h.grants
      serving := rfl
      noted := rfl
      window := hsessions.1
      entry := hsessions.2
      idle := by
        intro id
        refine Option.eq_none_iff_forall_ne_some.2 fun work hget => ?_
        have hold := ((get_filter _ _ _ _).1 hget).1
        rw [h.idle id] at hold
        cases hold }

/-- The clocks as the device is paired. -/
def paired (now : Nat) : IdleClocks := ⟨now, none, some ⟨now + peerExpiryMs, peerExpiryMs⟩⟩

/-- A machine that has just been started, with its tunnel. -/
def upAndRunning (share : Option ShareOptions) : TrustState :=
  { TrustState.init with phase := .serving, share := share, agents := [⟨[], true⟩], hosted := some 0 }

theorem moment_eq (how : PairedBy) (keys : SessionKeys) (label : String) (now : Nat) :
    (how.moment hashToken keys label now).trust =
      (upAndRunning how.share).after hashToken (how.pairing keys label now) := by
  rw [PairedBy.moment, PairedBy.events, Machine.run, foldl_append]
  rfl

theorem of_record {p : Pairing} (hjob : s.jobs.get 0 = some ⟨true, .loading (.addPeer (p.record now))
      (.paired (p.record now).deviceId)⟩)
    (hjobs : ∀ i, i ≠ 0 → s.jobs.get i = none) (hpeers : s.peers = []) (hgrants : s.grants = p.grant.toList)
    (hserving : s.phase = .serving) (hnoted : s.lastTouched.get deviceId = none)
    (hvia : p.via ≠ .pair) (hdevice : p.deviceId = some deviceId) (hne : deviceId ≠ "")
    (hsessions : s.sessions = Sessions.registerSessionToken .empty p.token peerExpiryMs now
      (p.grant.getD fullGrant) (some p.label) p.deviceId) :
    Follows p.token deviceId p.grant (s.after hashToken [.reads 0, .writes 0]) (paired now) := by
  have hwritten : PeerEdit.apply s.peers (.addPeer (p.record now)) = some [p.record now] := by
    simp [PeerEdit.apply, Cli.addPeer, hpeers]
  obtain ⟨jobs, hafter, hget⟩ := after_edit hashToken hjob hwritten fun _ => rfl
  have hentry : s.sessions.get p.token = some
      { expiresAt := now + peerExpiryMs
        renewMs := peerExpiryMs
        grant := p.grant.getD fullGrant
        label := (some p.label).filter (· ≠ "")
        deviceId := some deviceId } := by
    rw [hsessions, hdevice]
    simp [Sessions.registerSessionToken, get_set, Option.filter, hne]
  rw [hafter]
  exact
    { peers := ⟨_, rfl, by simp [Pairing.record, hdevice], by simp [Pairing.record, hvia], rfl, rfl⟩
      grants := hgrants
      serving := hserving
      noted := hnoted
      window := by
        change (s.sessions.get p.token).map _ = _
        rw [hentry]
        rfl
      entry := by
        intro entry hget'
        change s.sessions.get p.token = some entry at hget'
        rw [hentry] at hget'
        cases hget'
        exact ⟨rfl, rfl⟩
      idle := by
        intro id
        rw [hget id]
        split
        · rfl
        · rename_i hne
          exact hjobs id hne }

def tokenTaken (s : TrustState) (p : Pairing) (now : Nat) : TrustState :=
  { s with
    sessions := s.sessions.registerSessionToken p.token p.ttlMs now (p.grant.getD fullGrant)
      (some p.label) p.deviceId }

theorem step_registered {id : Nat} {own : Bool} {p : Pairing}
    (hjob : s.jobs.get id = some ⟨own, .registering p⟩) (hserving : s.phase = .serving) (htoken : 32 ≤ p.token.length) :
    (s.step hashToken (.registered id true true now)).1 = ((tokenTaken s p now).answered id own p true now).1 := by
  simp [TrustState.step, hjob, TrustState.registered, TrustState.serving, hserving,
    TrustState.pairSession, Nat.not_lt.2 htoken, TrustState.andThen, tokenTaken]

def asked (share : Option ShareOptions) (p : Pairing) : TrustState :=
  (upAndRunning share).pairs true p.via p.keys p.label

def keysTaken (share : Option ShareOptions) (p : Pairing) (now : Nat) (jobs : OrderedMap Nat Work) :
    TrustState :=
  { ((tokenTaken (asked share p) p now).admitKeys 0 p).1 with grants := p.grant.toList, jobs := jobs }

theorem registered_paired {share : Option ShareOptions} {p : Pairing} (htoken : 32 ≤ p.token.length) :
    ((asked share p).step hashToken (.registered 0 true true now)).1 =
      ((tokenTaken (asked share p) p now).answered 0 true p true now).1 :=
  step_registered ((get_set _ _ _ _).trans (if_pos rfl)) rfl htoken

/-- The pairing of the way a device was paired. -/
def pairingOf (hashToken : String → String) (how : PairedBy) (keys : SessionKeys) (label : String)
    (now : Nat) : Pairing where
  via :=
    match how with
    | .code _ _ => .code 0 (browserId now) (how.grant hashToken keys now)
    | .request => .request 0 (browserId now)
  keys := keys
  label := label

variable (hashToken) in
theorem pairing_keysTaken (how : PairedBy) (keys : SessionKeys) (label : String) (now : Nat)
    (htoken : 32 ≤ keys.directToken.length) :
    let p := pairingOf hashToken how keys label now
    ∃ jobs, (upAndRunning how.share).after hashToken (how.pairing keys label now) =
        (keysTaken how.share p now jobs).after hashToken [.reads 0, .writes 0] ∧
      ∀ i, jobs.get i = if i = 0 then
        some ⟨true, .loading (.addPeer (p.record now)) (.paired (p.record now).deviceId)⟩ else none := by
  intro p
  have hlong : 32 ≤ p.token.length := htoken
  have hfiling : ∀ jobs : OrderedMap Nat Work, (∀ i, i ≠ 0 → jobs.get i = none) → ∀ work i,
      (jobs.set 0 work).get i = if i = 0 then some work else none := by
    intro jobs hjobs work i
    rw [get_set]
    by_cases hi : i = 0
    · rw [if_pos hi, if_pos hi]
    · rw [if_neg hi, if_neg hi, hjobs i hi]
  have hasked : ∀ i, i ≠ 0 → (asked how.share p).jobs.get i = none := by
    intro i hi
    exact (get_set _ _ _ _).trans (if_neg hi)
  have hnext : ∀ work i, i ≠ 0 → ((asked how.share p).jobs.set 0 work).get i = none := by
    intro work i hi
    rw [get_set, if_neg hi, hasked i hi]
  cases how with
  | request =>
    refine ⟨((asked none p).jobs.set 0 ⟨true, .sealing p⟩).set 0 _, ?_, hfiling _ (hnext _) _⟩
    have hjob : ((tokenTaken (asked none p) p now).answered 0 true p true now).1.jobs.get 0 =
        some ⟨true, .sealing p⟩ := (get_set _ _ _ _).trans (if_pos rfl)
    have hsealed : (((tokenTaken (asked none p) p now).answered 0 true p true now).1.step hashToken
        (.sealed 0 true now)).1 = keysTaken none p now
          (((asked none p).jobs.set 0 ⟨true, .sealing p⟩).set 0
            ⟨true, .loading (.addPeer (p.record now)) (.paired (p.record now).deviceId)⟩) := by
      simp only [TrustState.step, hjob]
      rfl
    have hasks : ((upAndRunning PairedBy.request.share).step hashToken
        (.accessApproved 0 keys label now)).1 = asked none p := rfl
    simp only [PairedBy.pairing, TrustState.after, cons_append, nil_append, foldl_cons]
    rw [hasks, registered_paired hlong, hsealed]
    rfl
  | code share draw =>
    cases share with
    | none =>
      refine ⟨(asked none p).jobs.set 0 _, ?_, hfiling _ hasked _⟩
      have hanswered : ((tokenTaken (asked none p) p now).answered 0 true p true now).1 =
          keysTaken none p now ((asked none p).jobs.set 0
            ⟨true, .loading (.addPeer (p.record now)) (.paired (p.record now).deviceId)⟩) := rfl
      have hasks : ((upAndRunning (PairedBy.code none draw).share).step hashToken
          (.codePaired 0 keys label draw now)).1 = asked none p := rfl
      simp only [PairedBy.pairing, TrustState.after, cons_append, nil_append, foldl_cons]
      rw [hasks, registered_paired hlong, hanswered]
      rfl
    | some share =>
      let grant := share.buildGrant hashToken draw now keys.directToken
      refine ⟨((asked (some share) p).jobs.set 0 ⟨true, .addingGrant p grant⟩).set 0 _, ?_,
        hfiling _ (hnext _) _⟩
      have hjob : ((tokenTaken (asked (some share) p) p now).answered 0 true p true now).1.jobs.get 0 =
          some ⟨true, .addingGrant p grant⟩ := (get_set _ _ _ _).trans (if_pos rfl)
      have hadded : (((tokenTaken (asked (some share) p) p now).answered 0 true p true now).1.step hashToken
          (.addsGrant 0 now)).1 = keysTaken (some share) p now
            (((asked (some share) p).jobs.set 0 ⟨true, .addingGrant p grant⟩).set 0
              ⟨true, .loading (.addPeer (p.record now)) (.paired (p.record now).deviceId)⟩) := by
        simp only [TrustState.step, hjob]
        rfl
      have hasks : ((upAndRunning (PairedBy.code (some share) draw).share).step hashToken
          (.codePaired 0 keys label draw now)).1 = asked (some share) p := rfl
      simp only [PairedBy.pairing, TrustState.after, cons_append, nil_append, foldl_cons]
      rw [hasks, registered_paired hlong, hadded]
      rfl

theorem moment (how : PairedBy) (keys : SessionKeys) (label : String) (now : Nat)
    (htoken : 32 ≤ keys.directToken.length) : Follows keys.directToken (browserId now) (how.grant hashToken keys now)
      (how.moment hashToken keys label now).trust (paired now) := by
  let p := pairingOf hashToken how keys label now
  obtain ⟨jobs, hstate, hjobs⟩ := pairing_keysTaken hashToken how keys label now htoken
  have hgrant : p.grant = how.grant hashToken keys now := by
    cases how <;> rfl
  have hvia : p.via ≠ .pair := by
    cases how <;> simp [p, pairingOf]
  have hdevice : p.deviceId = some (browserId now) := by
    cases how <;> rfl
  have httl : p.ttlMs = peerExpiryMs := by
    cases how <;> rfl
  rw [moment_eq, hstate, ← hgrant]
  refine of_record (p := p) ((hjobs 0).trans (if_pos rfl)) (fun i hi => (hjobs i).trans (if_neg hi)) rfl rfl
    rfl rfl hvia hdevice (browserId_ne now) ?_
  change Sessions.registerSessionToken .empty p.token p.ttlMs now _ _ _ = _
  rw [httl]

end Follows
end Follow

section Agreement
variable {hashToken : String → String} {token deviceId : String} {grant : Option GrantRecord}
  {m : Moment} {c : IdleClocks}

theorem expired_iff {peer : PeerRecord} {now : Nat} (h : peer.lastSeenAt = c.seen) :
    isPeerExpired peer now = false ↔ 0 < c.remaining peerExpiryMs now := by
  rw [isPeerExpired, peerLifetimeRemainingMs, h, decide_eq_false_iff_not, Nat.not_le]
  rfl

namespace Follows

theorem agrees_iff (h : Follows token deviceId grant m.trust c) :
    m.Agrees token deviceId ↔ c.Agrees peerExpiryMs touchIntervalMs (lastsOf grant) m.now := by
  obtain ⟨peer, hpeers, hpeer, -, -, hseen⟩ := h.peers
  constructor
  · intro hagrees now hnow
    have hone := hagrees peer (by rw [hpeers]; exact mem_singleton_self peer) hpeer now hnow
    rw [expired_iff hseen, Moment.accepts, h.lookup now, hseen] at hone
    exact hone
  · intro hagrees q hq hdevice now hnow
    rw [hpeers, mem_singleton] at hq
    subst hq
    rw [expired_iff hseen, Moment.accepts, h.lookup now, hseen]
    exact hagrees now hnow

theorem whole_iff (h : Follows token deviceId grant m.trust c) (e : ClockEvent) : m.Whole token deviceId e ↔
      IdleMoment.Whole peerExpiryMs touchIntervalMs (lastsOf grant) ⟨m.now, c⟩ e.idle := by
  cases e with
  | restarts share after => exact Iff.rfl
  | uses after =>
    have hdue : c.due touchIntervalMs (m.now + after) = true ↔
        ∀ previous, m.trust.lastTouched.get deviceId = some previous →
          previous + touchIntervalMs ≤ m.now + after := by
      rw [h.noted, IdleClocks.due_iff]
    have hlookup := h.lookup (m.now + after)
    rw [ClockEvent.idle, IdleMoment.whole_uses]
    constructor
    · intro hwhole ha
      obtain ⟨entry, hget, -⟩ := h.accepted ha
      have hwindow := h.window
      rw [hget] at hwindow
      obtain ⟨hrenewal, hlasts⟩ := hwhole entry hget (hlookup.trans ha)
      constructor
      · intro w hw
        change c.window = some w at hw
        rw [← hwindow] at hw
        cases hw
        exact hrenewal
      · intro hd now hnow hend
        have hactive := hlasts (hdue.1 hd) now hnow hend
        rw [(h.entry entry hget).1] at hactive
        exact hactive
    · intro hwhole entry hget ha
      have hwindow := h.window
      rw [hget] at hwindow
      obtain ⟨hrenewal, hlasts⟩ := hwhole (hlookup.symm.trans ha)
      refine ⟨hrenewal ⟨entry.expiresAt, entry.renewMs⟩ hwindow.symm, ?_⟩
      intro hd now hnow hend
      rw [(h.entry entry hget).1]
      exact hlasts (hdue.2 hd) now hnow hend

variable (hashToken) in
theorem step (h : Follows token deviceId grant m.trust c) (htoken : token ≠ "") (hdevice : deviceId ≠ "")
    (hid : ∀ g, grant = some g → g.id ≠ "") (e : ClockEvent) :
    let next := IdleMoment.step peerExpiryMs touchIntervalMs (lastsOf grant) ⟨m.now, c⟩ e.idle
    Follows token deviceId grant (m.step hashToken token e).1.trust next.1.clocks ∧
      (m.step hashToken token e).1.now = next.1.now ∧ (m.step hashToken token e).2 = next.2 := by
  cases e with
  | uses after => exact ⟨h.usesToken _, rfl, by rw [Moment.step, Moment.accepts, h.lookup]; rfl⟩
  | restarts share after => exact ⟨h.restarts htoken hdevice hid share _, rfl, rfl⟩

end Follows

/-- A device that a pairing gave its token. -/
structure Credential (token deviceId : String) (grant : Option GrantRecord) : Prop where
  token : token ≠ ""
  device : deviceId ≠ ""
  share : ∀ g, grant = some g → g.id ≠ ""

def InStep (token deviceId : String) (grant : Option GrantRecord) (m : Moment) : Prop :=
  ∃ c, Follows token deviceId grant m.trust c ∧
    IdleMoment.Sync peerExpiryMs touchIntervalMs (lastsOf grant) ⟨m.now, c⟩

theorem InStep.agrees (h : InStep token deviceId grant m) : m.Agrees token deviceId := by
  obtain ⟨c, hfollows, hsync⟩ := h
  exact hfollows.agrees_iff.2 (IdleClocks.Sync.agrees hsync)

theorem InStep.agrees_step_iff (h : InStep token deviceId grant m) (hc : Credential token deviceId grant)
    (e : ClockEvent) : (m.step hashToken token e).1.Agrees token deviceId ↔ m.Whole token deviceId e := by
  obtain ⟨c, hfollows, hsync⟩ := h
  obtain ⟨hnext, hnow, -⟩ := hfollows.step hashToken hc.token hc.device hc.share e
  rw [hnext.agrees_iff, hnow, hfollows.whole_iff]
  exact hsync.agrees_step_iff e.idle

theorem InStep.step (h : InStep token deviceId grant m) (hc : Credential token deviceId grant)
    (e : ClockEvent) (hwhole : m.Whole token deviceId e) :
    InStep token deviceId grant (m.step hashToken token e).1 := by
  obtain ⟨c, hfollows, hsync⟩ := h
  obtain ⟨hnext, hnow, -⟩ := hfollows.step hashToken hc.token hc.device hc.share e
  refine ⟨_, hnext, ?_⟩
  rw [hnow]
  exact hsync.step e.idle ((hfollows.whole_iff e).1 hwhole)

theorem kept_accepted (hc : Credential token deviceId grant) (M : Machine Moment ClockEvent Bool)
    (hM : M.step = Moment.step hashToken token) (es : List ClockEvent) (since : Nat) (m : Moment)
    (i : IdleMoment) (hnow : m.now = i.now) (hfollows : Follows token deviceId grant m.trust i.clocks)
    (hsync : IdleMoment.Sync peerExpiryMs touchIntervalMs (lastsOf grant) i)
    (hsince : IdleMoment.Since touchIntervalMs since i)
    (hwhole : ∀ x ∈ M.traceFrom m es, x.pre.Whole token deviceId x.event)
    (hkept : KeptUp peerExpiryMs touchIntervalMs since (es.map ClockEvent.idle)) :
    ∀ x ∈ M.traceFrom m es, ∀ ok ∈ x.out, ok = true := by
  induction es generalizing since m i with
  | nil =>
    intro x hx
    cases hx
  | cons e es ih =>
    obtain ⟨now, c⟩ := i
    cases hnow
    have hstep := hfollows.step hashToken hc.token hc.device hc.share e
    rw [← hM] at hstep
    obtain ⟨hnext, hnow, hout⟩ := hstep
    have hfirst : m.Whole token deviceId e := hwhole (M.entry m e) mem_cons_self
    have hsync' := hsync.step e.idle ((hfollows.whole_iff e).1 hfirst)
    have hrest : ∀ x ∈ M.traceFrom (M.step m e).1 es, x.pre.Whole token deviceId x.event :=
      fun x hx => hwhole x (mem_cons_of_mem _ hx)
    intro x hx
    cases e with
    | uses after =>
      obtain ⟨htime, hkept⟩ := hkept
      have ha := hsync.use_accepted hsince htime
      have hsince' := hsync.since_uses (by decide) ha
      cases mem_cons.1 hx with
      | inl hx =>
        subst hx
        intro ok hok
        change ok ∈ (M.step m (.uses after)).2 at hok
        rw [hout] at hok
        rw [mem_singleton.1 hok]
        exact ha
      | inr hx => exact ih 0 _ _ hnow hnext hsync' hsince' hrest hkept x hx
    | restarts share after =>
      have hsince' : IdleMoment.Since touchIntervalMs (since + after) (IdleMoment.step peerExpiryMs
          touchIntervalMs (lastsOf grant) ⟨m.now, c⟩ (.restarts after)).1 :=
        IdleMoment.since_restarts hsince
      cases mem_cons.1 hx with
      | inl hx =>
        subst hx
        intro ok hok
        change ok ∈ (M.step m (.restarts share after)).2 at hok
        rw [hout] at hok
        cases hok
      | inr hx => exact ih _ _ _ hnow hnext hsync' hsince' hrest hkept x hx

end Agreement

section Runs
variable (hashToken : String → String) (how : PairedBy) (keys : SessionKeys) (label : String) (now : Nat)

/-- The clocks agree at every moment, and a device that is used again before its record is an hour short
of expiring is not refused, however often the machine is started anew. -/
def ClocksAgree (es : List ClockEvent) : Prop :=
  (∀ before, before <+: es → Moment.Agrees keys.directToken (browserId now)
    ((clockMachine hashToken how keys label now).run before)) ∧
  ∀ before, before <+: es → KeptUp peerExpiryMs touchIntervalMs 0 (before.map ClockEvent.idle) →
    ∀ ok ∈ (clockMachine hashToken how keys label now).outputs before, ok = true

/-- A use that the relay accepts opens the whole window. The share a device came through, if any, ends
no earlier than the record, at the pairing as at every use that is written down. -/
def WholeWindows (es : List ClockEvent) : Prop :=
  (∀ share ends, how.share = some share → share.expiresAt = some ends → now + peerExpiryMs ≤ ends) ∧
  ∀ before e, before ++ [e] <+: es → Moment.Whole keys.directToken (browserId now)
    ((clockMachine hashToken how keys label now).run before) e

variable {hashToken how keys label now}

theorem lastsOf_iff : (∀ t, now ≤ t → t < now + peerExpiryMs → lastsOf (how.grant hashToken keys now) t = true) ↔
    ∀ share ends, how.share = some share → share.expiresAt = some ends → now + peerExpiryMs ≤ ends := by
  have hperiod : 0 < peerExpiryMs := by decide
  generalize peerExpiryMs = period at hperiod ⊢
  cases how with
  | request => simp [PairedBy.grant, PairedBy.share, lastsOf, isGrantActive, fullGrant]
  | code share draw =>
    cases share with
    | none => simp [PairedBy.grant, PairedBy.share, lastsOf, isGrantActive, fullGrant]
    | some share =>
      constructor
      · rintro hlasts _ ends ⟨⟩ hends
        by_contra hearly
        have hend := hlasts (max now ends) (by omega) (by omega)
        simp [lastsOf, PairedBy.grant, ShareOptions.buildGrant, isGrantActive, hends] at hend
      · intro hshare t hnow hend
        cases hends : share.expiresAt with
        | none => simp [lastsOf, PairedBy.grant, ShareOptions.buildGrant, isGrantActive, hends]
        | some ends =>
          have hlate := hshare share ends rfl hends
          simp [lastsOf, PairedBy.grant, ShareOptions.buildGrant, isGrantActive, hends]
          omega

theorem credential (htoken : 32 ≤ keys.directToken.length) :
    Credential keys.directToken (browserId now) (how.grant hashToken keys now) where
  token := by
    intro hempty
    rw [hempty] at htoken
    exact absurd htoken (by decide)
  device := browserId_ne now
  share := by
    intro g hg
    cases how with
    | request => cases hg
    | code share draw =>
      cases share with
      | none => cases hg
      | some share =>
        cases hg
        intro hid
        have hlength := congrArg String.length hid
        simp [ShareOptions.buildGrant, GrantsStore.newGrantId] at hlength

theorem paired_sync (hlasts : ∀ t, now ≤ t → t < now + peerExpiryMs → lastsOf (how.grant hashToken keys now) t = true) :
    IdleMoment.Sync peerExpiryMs touchIntervalMs (lastsOf (how.grant hashToken keys now))
      ⟨now, Follows.paired now⟩ := by
  unfold Follows.paired
  generalize peerExpiryMs = period at hlasts ⊢
  generalize touchIntervalMs = interval
  refine ⟨Nat.le_refl now, by simp, fun _ => ⟨⟨_, rfl, Nat.le_refl _⟩, hlasts⟩, ?_, ?_, ?_⟩
  · rintro w ⟨⟩
    exact Nat.le_add_right _ _
  · rintro w ⟨⟩
    exact Nat.le_refl _
  · rintro w ⟨⟩ -
    rfl

section
variable (htoken : 32 ≤ keys.directToken.length)
include htoken

theorem init_agrees
    (hagrees : Moment.Agrees keys.directToken (browserId now) (how.moment hashToken keys label now)) :
    ∀ t, now ≤ t → t < now + peerExpiryMs → lastsOf (how.grant hashToken keys now) t = true := by
  have hclocks := (Follows.moment how keys label now htoken).agrees_iff.1 hagrees
  intro t hnow hend
  have hyes := (hclocks t hnow).1 (by
    change 0 < peerExpiryMs + now - t
    omega)
  exact (IdleClocks.accepts_iff.1 hyes).2

theorem init_inStep (hlasts : ∀ t, now ≤ t → t < now + peerExpiryMs →
      lastsOf (how.grant hashToken keys now) t = true) :
    InStep keys.directToken (browserId now) (how.grant hashToken keys now) (how.moment hashToken keys label now) :=
  ⟨_, Follows.moment how keys label now htoken, paired_sync hlasts⟩

theorem inStep_of_agrees (es : List ClockEvent)
    (hagrees : ∀ before, before <+: es → Moment.Agrees keys.directToken (browserId now)
      ((clockMachine hashToken how keys label now).run before)) :
    InStep keys.directToken (browserId now) (how.grant hashToken keys now)
      ((clockMachine hashToken how keys label now).run es) := by
  induction es using List.reverseRecOn with
  | nil => exact init_inStep htoken (init_agrees htoken (hagrees [] (prefix_refl _)))
  | append_singleton es e ih =>
    have hin := ih fun before hbefore => hagrees before (hbefore.trans (prefix_append _ _))
    have hlast := hagrees (es ++ [e]) (prefix_refl _)
    rw [run_snoc] at hlast ⊢
    exact hin.step (credential htoken) e ((hin.agrees_step_iff (credential htoken) e).1 hlast)

theorem inStep_of_whole (es : List ClockEvent)
    (hwhole : WholeWindows hashToken how keys label now es) :
    InStep keys.directToken (browserId now) (how.grant hashToken keys now)
      ((clockMachine hashToken how keys label now).run es) := by
  obtain ⟨hshare, hwhole⟩ := hwhole
  induction es using List.reverseRecOn with
  | nil => exact init_inStep htoken (lastsOf_iff.2 hshare)
  | append_singleton es e ih =>
    have hin := ih fun before a hbefore => hwhole before a (hbefore.trans (prefix_append _ _))
    rw [run_snoc]
    exact hin.step (credential htoken) e (hwhole es e (prefix_refl _))

end

/-- The two clocks agree in a history if and only if every window that a use opens is a whole one: a
device that a start restored has what was left to it, and its next use renews it by no more. -/
theorem clocks_agree_iff (hashToken : String → String) (how : PairedBy) (keys : SessionKeys)
    (label : String) (now : Nat) (htoken : 32 ≤ keys.directToken.length) (es : List ClockEvent) :
    ClocksAgree hashToken how keys label now es ↔ WholeWindows hashToken how keys label now es := by
  constructor
  · rintro ⟨hagrees, -⟩
    refine ⟨lastsOf_iff.1 (init_agrees htoken (hagrees [] nil_prefix)), ?_⟩
    intro before e hbefore
    have hshort : before <+: es := (prefix_append before [e]).trans hbefore
    have hin := inStep_of_agrees htoken before fun b hb => hagrees b (hb.trans hshort)
    have hnext := hagrees _ hbefore
    rw [run_snoc] at hnext
    exact (hin.agrees_step_iff (credential htoken) e).1 hnext
  · intro hwhole
    have hpart : ∀ before, before <+: es → WholeWindows hashToken how keys label now before :=
      fun before hbefore => ⟨hwhole.1, fun b e hb => hwhole.2 b e (hb.trans hbefore)⟩
    refine ⟨fun before hbefore => (inStep_of_whole htoken before (hpart before hbefore)).agrees, ?_⟩
    intro before hbefore hkept ok hok
    obtain ⟨x, hx, hok⟩ := mem_flatMap.1 hok
    refine kept_accepted (credential htoken) (clockMachine hashToken how keys label now) rfl before 0 _
      ⟨now, Follows.paired now⟩ rfl (Follows.moment how keys label now htoken)
      (paired_sync (lastsOf_iff.2 hwhole.1)) ?_ ?_ hkept x hx ok hok
    · change now < 0 + now + touchIntervalMs
      have hinterval : 0 < touchIntervalMs := by decide
      omega
    · intro y hy
      obtain ⟨b, e, after, hsplit, rfl⟩ := (mem_trace _ _ _).1 hy
      refine (hpart before hbefore).2 b e ⟨after, ?_⟩
      rw [hsplit, append_assoc]
      rfl

/-- A phone that paired with a code. -/
def clockKeys : SessionKeys where
  c2s := []
  s2c := []
  confirm := []
  directToken := "9c0a51d2e87b4f36a1c9d0e2b7f8a354"

def oneDayMs : Nat := 24 * 60 * 60 * 1000

/-- A phone that is used ten days after it was paired, at once after a restart and five days later. The
machine is started anew again, and the phone comes back too late. -/
def usedPhone : List ClockEvent :=
  [.uses (10 * oneDayMs), .restarts none 0, .uses 0, .uses (5 * oneDayMs), .restarts none (5 * oneDayMs),
    .uses (90 * oneDayMs)]

def Moment.wholeFull (token : String) (m : Moment) : ClockEvent → Bool
  | .restarts _ _ => true
  | .uses after =>
    !m.accepts token (m.now + after) || (m.trust.sessions.get token).all fun entry =>
      entry.renewMs = peerExpiryMs && entry.grant = fullGrant

theorem clocks_agree_used : ClocksAgree id (.code none "") clockKeys "Phone" 1000 usedPhone := by
  refine (clocks_agree_iff id (.code none "") clockKeys "Phone" 1000 (by decide) _).2 ⟨?_, ?_⟩
  · rintro share ends ⟨⟩
  · rintro before e ⟨after, hsplit⟩
    have hfull : ∀ x ∈ (clockMachine id (.code none "") clockKeys "Phone" 1000).trace usedPhone,
        x.pre.wholeFull clockKeys.directToken x.event = true := all_eq_true.1 (by decide +kernel)
    have hx := hfull _ ((mem_trace _ _ _).2 ⟨before, e, after, by simpa using hsplit.symm, rfl⟩)
    cases e with
    | restarts share ms => trivial
    | uses ms =>
      intro entry hget haccepts
      have hentry : entry.renewMs = peerExpiryMs ∧ entry.grant = fullGrant := by
        simpa [Moment.wholeFull, Machine.entry, hget, haccepts] using hx
      exact ⟨hentry.1, fun _ _ _ _ => hentry.2 ▸ rfl⟩

/-- Forty days after the pairing the machine is started anew, and the phone is used the day after. When
it is used again after sixty days the relay refuses it, and its record has thirty days more. -/
theorem not_clocks_agree : ((clockMachine id (.code none "") clockKeys "Phone" 1000).outputs
        [.restarts none (40 * oneDayMs), .uses oneDayMs, .uses (60 * oneDayMs)] = [true, false] ∧
      KeptUp peerExpiryMs touchIntervalMs 0 [.restarts (40 * oneDayMs), .uses oneDayMs, .uses (60 * oneDayMs)]) ∧
    ¬ ClocksAgree id (.code none "") clockKeys "Phone" 1000
      [.restarts none (40 * oneDayMs), .uses oneDayMs, .uses (60 * oneDayMs)] := by
  have hout : (clockMachine id (.code none "") clockKeys "Phone" 1000).outputs
      [.restarts none (40 * oneDayMs), .uses oneDayMs, .uses (60 * oneDayMs)] = [true, false] := by
    decide +kernel
  have hkept : KeptUp peerExpiryMs touchIntervalMs 0 [.restarts (40 * oneDayMs), .uses oneDayMs,
      .uses (60 * oneDayMs)] := ⟨by decide, by decide, trivial⟩
  refine ⟨⟨hout, hkept⟩, ?_⟩
  intro hagree
  have hall := hagree.2 _ (prefix_refl _) hkept
  rw [hout] at hall
  have hfalse := hall false (by simp)
  cases hfalse

end Runs
end Mtmux.Cli
