import Mtmux.Agent.StreamInvariant
import Mtmux.Cli.TrustSteps

/-! Where a live credential comes from: a token in the relay's table, and keys in the ring of a
tunnel. -/
namespace Mtmux.Cli
open Agent Protocol Relay Sessions List

namespace TrustState

def Rings (s : TrustState) (deviceId : String) : Prop :=
  ∃ a ∈ s.agents, ∃ entry ∈ a.keyring, entry.deviceId = some deviceId

/-- The token that is taken with this, and the device it is said to be of. -/
def opens : TrustOutput → Option (String × Option String)
  | .registered token _ device => some (token, device)
  | .restored token _ device => some (token, some device)
  | _ => none

/-- What a step has let in it says, and the rest was there before. -/
structure Credits (s : TrustState) (r : TrustStep) : Prop where
  sessions : ∀ token entry, r.1.sessions.get token = some entry →
    (∃ old, s.sessions.get token = some old ∧ old.deviceId = entry.deviceId) ∨
      ∃ o ∈ r.2, ∃ device, opens o = some (token, device) ∧ entry.deviceId = device.filter (· ≠ "")
  rings : ∀ d, r.1.Rings d → s.Rings d ∨ .admitted d ∈ r.2

variable {s t : TrustState} {out : List TrustOutput}

theorem Credits.of_less (hsessions : ∀ token entry, t.sessions.get token = some entry →
      ∃ old, s.sessions.get token = some old ∧ old.deviceId = entry.deviceId)
    (hrings : ∀ d, t.Rings d → s.Rings d) : Credits s (t, out) :=
  ⟨fun token entry h => .inl (hsessions token entry h), fun d h => .inl (hrings d h)⟩

theorem Credits.of_same (hsessions : t.sessions = s.sessions) (hagents : t.agents = s.agents) : Credits s (t, out) := by
  refine .of_less ?_ ?_
  · intro token entry h
    exact ⟨entry, hsessions ▸ h, rfl⟩
  · intro d h
    unfold Rings at h ⊢
    rw [hagents] at h
    exact h

theorem Credits.trans {r : TrustStep} (h : Credits s (t, out)) (h' : Credits t r) : Credits s (r.1, out ++ r.2) := by
  refine ⟨?_, ?_⟩
  · intro token entry hget
    obtain ⟨old, hold, hdevice⟩ | ⟨o, ho, hnew⟩ := h'.sessions token entry hget
    · obtain ⟨older, holder, hsame⟩ | ⟨o, ho, device, hopens, hsame⟩ := h.sessions token old hold
      · exact .inl ⟨older, holder, hsame.trans hdevice⟩
      · exact .inr ⟨o, mem_append_left _ ho, device, hopens, hdevice.symm.trans hsame⟩
    · exact .inr ⟨o, mem_append_right _ ho, hnew⟩
  · intro d hd
    obtain hd | ho := h'.rings d hd
    · exact (h.rings d hd).imp_right fun ho => mem_append_left _ ho
    · exact .inr (mem_append_right _ ho)

theorem Credits.and_then {r : TrustStep} {f : TrustState → TrustStep} (h : Credits s r)
    (h' : Credits r.1 (f r.1)) : Credits s (andThen r f) := h.trans h'

theorem mem_addSessionKeys {keyring : List KeyringEntry} {entry e : KeyringEntry}
    (h : e ∈ addSessionKeys keyring entry) : e ∈ keyring ∨ e = entry := by
  have hmem : e ∈ keyring ++ [entry] := by
    unfold addSessionKeys at h
    split at h
    · exact mem_of_mem_tail h
    · exact h
  simpa using hmem

theorem admitKeys_credits (s : TrustState) (agent : Nat) (p : Pairing) : Credits s (s.admitKeys agent p) := by
  refine ⟨fun token entry h => .inl ⟨entry, h, rfl⟩, ?_⟩
  rintro d ⟨a, ha, entry, hentry, hd⟩
  obtain ⟨i, hi⟩ := List.getElem?_of_mem ha
  have hget : (s.agents.modify agent fun a =>
      { a with keyring := addSessionKeys a.keyring ⟨p.keys, p.identity⟩ })[i]? = some a := hi
  rw [List.getElem?_modify] at hget
  obtain ⟨a₀, ha₀, hmodified⟩ := Option.map_eq_some_iff.1 hget
  have hold : a₀ ∈ s.agents := mem_of_getElem? ha₀
  split at hmodified
  · rw [← hmodified] at hentry
    obtain hentry | rfl := mem_addSessionKeys hentry
    · exact .inl ⟨a₀, hold, entry, hentry, hd⟩
    · refine .inr ?_
      simp only [KeyringEntry.deviceId, Pairing.identity, Option.map_map] at hd
      obtain ⟨d', hd', rfl⟩ := Option.map_eq_some_iff.1 hd
      simp [admitKeys, hd']
  · rw [← hmodified] at hentry
    exact .inl ⟨a₀, hold, entry, hentry, hd⟩

theorem answered_credits (s : TrustState) (id now : Nat) (own ok : Bool) (p : Pairing) :
    Credits s (s.answered id own p ok now) := by
  have hstop : ∀ {out : List TrustOutput}, Credits s (s.finish id, out) := .of_same rfl rfl
  unfold answered
  split
  · split
    · exact hstop
    · exact (s.admitKeys_credits _ p).and_then (.of_same rfl rfl)
  · exact (s.admitKeys_credits _ p).and_then (.of_same rfl rfl)
  · split
    · exact hstop
    · exact .of_same rfl rfl
  · split
    · exact hstop
    · exact .of_same rfl rfl
  · split
    · exact hstop
    · exact .of_same rfl rfl

theorem register_credits {token : String} {ttlMs now : Nat} {grant : GrantRecord}
    {label device : Option String} (share : Option GrantRecord) :
    Credits s ({ s with sessions := s.sessions.registerSessionToken token ttlMs now grant label device },
      [.registered token share device]) := by
  refine ⟨?_, fun d h => .inl h⟩
  intro t entry h
  obtain ⟨rfl, -, hdevice⟩ | ⟨-, hold, -⟩ := get_register h
  · exact .inr ⟨_, mem_singleton_self _, device, rfl, hdevice⟩
  · exact .inl ⟨entry, hold, rfl⟩

theorem registered_credits (s : TrustState) (id now : Nat) (own handled inTime : Bool) (p : Pairing) :
    Credits s (s.registered id own p handled inTime now) := by
  unfold registered
  split
  · exact s.answered_credits id now own false p
  · rename_i sessions htaken
    have hsessions : sessions = s.sessions.registerSessionToken p.token p.ttlMs now
        (p.grant.getD fullGrant) (some p.label) p.deviceId := by
      split at htaken
      · unfold pairSession at htaken
        split at htaken
        · cases htaken
        · exact (Option.some.inj htaken).symm
      · cases htaken
    rw [hsessions]
    exact (register_credits p.grant).and_then (answered_credits _ id now own inTime p)

theorem sealed_credits (s : TrustState) (id now : Nat) (own ok : Bool) (p : Pairing) :
    Credits s (s.sealed id own p ok now) := by
  unfold sealed
  split
  · split
    · exact (s.admitKeys_credits _ p).and_then (.of_same rfl rfl)
    · exact .of_same rfl rfl
  · exact .of_same rfl rfl

/-- A removal takes the token of the record and the keys in the ring of the tunnel that is up. -/
theorem cutOff_spec (s : TrustState) (peer : PeerRecord) :
    (∀ token entry, (s.cutOff peer).sessions.get token = some entry →
      s.sessions.get token = some entry ∧ peer.directToken.filter (· ≠ "") ≠ some token) ∧
    ∀ i a, (s.cutOff peer).agents[i]? = some a → ∃ old, s.agents[i]? = some old ∧
      (∀ entry ∈ a.keyring, entry ∈ old.keyring) ∧
      (s.hosted = some i → ∀ entry ∈ a.keyring, entry.deviceId ≠ some peer.deviceId) := by
  refine ⟨?_, ?_⟩
  · intro token entry h
    simp only [cutOff] at h
    split at h
    · rename_i hnone
      rw [hnone]
      exact ⟨h, by simp⟩
    · rename_i t ht
      rw [get_revokeSessionToken] at h
      split at h
      · cases h
      · rename_i hne
        rw [ht]
        refine ⟨h, ?_⟩
        intro heq
        exact hne (Option.some.inj heq).symm
  · intro i a h
    simp only [cutOff] at h
    split at h
    · rename_i hnone
      rw [hnone]
      exact ⟨a, h, fun _ he => he, fun hi => by cases hi⟩
    · rename_i k hk
      rw [List.getElem?_modify] at h
      obtain ⟨old, hold, hmodified⟩ := Option.map_eq_some_iff.1 h
      refine ⟨old, hold, ?_⟩
      split at hmodified
      · rw [← hmodified]
        refine ⟨fun entry he => (mem_filter.1 he).1, ?_⟩
        intro _ entry he
        simpa using (mem_filter.1 he).2
      · rename_i hne
        rw [← hmodified]
        refine ⟨fun entry he => he, ?_⟩
        intro hi
        rw [hk] at hi
        exact absurd (Option.some.inj hi) hne

theorem Credits.of_cutOff (peer : PeerRecord) (hsessions : t.sessions = (s.cutOff peer).sessions)
    (hagents : t.agents = (s.cutOff peer).agents) : Credits s (t, out) := by
  obtain ⟨hless, hrings⟩ := s.cutOff_spec peer
  refine .of_less ?_ ?_
  · intro token entry h
    rw [hsessions] at h
    exact ⟨entry, (hless token entry h).1, rfl⟩
  · rintro d ⟨a, ha, entry, hentry, hd⟩
    rw [hagents] at ha
    obtain ⟨i, hi⟩ := List.getElem?_of_mem ha
    obtain ⟨old, hold, hsub, -⟩ := hrings i a hi
    exact ⟨old, mem_of_getElem? hold, entry, hsub entry hentry, hd⟩

theorem removeNext_credits (s : TrustState) (id : Nat) (own : Bool) (rest : List PeerRecord) :
    Credits s (s.removeNext id own rest, out) := by
  cases rest with
  | nil => exact .of_same rfl rfl
  | cons peer rest => exact .of_cutOff peer rfl rfl

theorem listed_credits (s : TrustState) (id : Nat) (own : Bool) (who : Remover) : Credits s (s.listed id own who) := by
  cases who with
  | panel deviceId =>
    simp only [listed]
    split
    · exact .of_same rfl rfl
    · rename_i peer _
      exact .of_cutOff peer rfl rfl
  | panelAll => exact s.removeNext_credits id own s.peers
  | shell deviceId => exact .of_same rfl rfl

theorem edited_credits (s : TrustState) (id : Nat) (own wrote : Bool) (next : AfterEdit) :
    Credits s (s.edited id own wrote next) := by
  cases next with
  | removeAll rest => exact s.removeNext_credits id own rest
  | tellServer token =>
    simp only [edited]
    split
    · exact .of_same rfl rfl
    · cases wrote with
      | false | true => exact .of_same rfl rfl
  | _ => exact .of_same rfl rfl

theorem told_credits (s : TrustState) (id : Nat) (ok : Bool) (job : Job) : Credits s (s.told id ok job, out) := by
  unfold told
  split
  · rename_i token
    split
    · refine .of_less ?_ fun d h => h
      intro t entry h
      have hget : (s.sessions.revokeSessionToken token).1.get t = some entry := h
      rw [get_revokeSessionToken] at hget
      split at hget
      · cases hget
      · exact ⟨entry, hget, rfl⟩
    · exact .of_same rfl rfl
  · split
    · refine .of_less ?_ fun d h => h
      intro t entry h
      exact ⟨entry, (get_revokeGrant.1 h).1, rfl⟩
    · exact .of_same rfl rfl
  · exact .of_same rfl rfl

theorem usesToken_credits (s : TrustState) (token : String) (now : Nat) : Credits s (s.usesToken token now, out) := by
  have hless : ∀ {u : TrustState}, u.sessions = (s.sessions.grantForToken token now).sessions →
      u.agents = s.agents → Credits s (u, out) := by
    intro u hsessions hagents
    refine .of_less ?_ ?_
    · intro t entry h
      rw [hsessions] at h
      obtain ⟨old, hold, -, hdevice⟩ := get_grantForToken h
      exact ⟨old, hold, hdevice.symm⟩
    · intro d h
      unfold Rings at h ⊢
      rw [hagents] at h
      exact h
  unfold usesToken
  dsimp only
  split
  · exact hless rfl rfl
  · split
    · exact hless rfl rfl
    · exact hless rfl rfl

theorem restores_credits (s : TrustState) (later : Nat) : Credits s (s.restores later) := by
  unfold restores
  split
  · exact .of_same rfl rfl
  · rename_i peers now _
    refine ⟨?_, fun d h => .inl h⟩
    have hfold : ∀ (l : List PeerRecord) (r : RestoreResult), Credits s ({ s with sessions := r.sessions }, r.out) →
        Credits s ({ s with sessions := (l.foldl (restorePeer (GrantsStore.active s.grants now) now later) r).sessions },
          (l.foldl (restorePeer (GrantsStore.active s.grants now) now later) r).out) := by
      intro l
      induction l with
      | nil => exact fun r hr => hr
      | cons p l ih =>
        intro r hr
        refine ih _ ?_
        obtain ⟨hout, hsessions, -⟩ | ⟨t, grant, -, -, -, hout, hsessions, -⟩ :=
          @restorePeer_cases (GrantsStore.active s.grants now) now later r p
        · rw [hsessions, hout]
          exact hr
        · rw [hsessions, hout]
          refine hr.trans (r := (_, [_])) ⟨?_, fun d h => .inl h⟩
          intro token entry hget
          obtain ⟨rfl, -, hdevice⟩ | ⟨-, hold, -⟩ := get_register hget
          · exact .inr ⟨_, mem_singleton_self _, some p.deviceId, rfl, hdevice⟩
          · exact .inl ⟨entry, hold, rfl⟩
    exact (hfold peers _ (.of_same rfl rfl)).sessions

theorem step_credits (hashToken : String → String) (s : TrustState) {e : TrustEvent}
    (he : e ≠ .startAgent) : Credits s (s.step hashToken e) := by
  have hidle : Credits s (s, []) := .of_same rfl rfl
  cases e with
  | boots share now =>
    refine .of_less (fun token entry h => by cases h) ?_
    rintro d ⟨a, ha, -⟩
    cases ha
  | restores later => exact s.restores_credits later
  | startAgent => exact absurd rfl he
  | tunnelUp agent =>
    simp only [step]
    split
    · exact hidle
    · rename_i a ha
      split
      · exact hidle
      · refine .of_less (fun token entry h => ⟨entry, h, rfl⟩) ?_
        rintro d ⟨a', ha', hrest⟩
        obtain rfl | ha' := mem_or_eq_of_mem_set ha' |>.symm
        · exact ⟨a, mem_of_getElem? ha, hrest⟩
        · exact ⟨a', ha', hrest⟩
  | codePaired agent keys label draw now =>
    simp only [step]
    split
    · exact hidle
    · split
      · exact .of_same rfl rfl
      · exact hidle
  | accessApproved agent keys label now =>
    simp only [step]
    split
    · exact hidle
    · exact .of_same rfl rfl
  | shellPairs _ _ | shellShares _ _ _ _ _ => exact .of_same rfl rfl
  | signedInLocally token label draw now =>
    simp only [step]
    split
    · exact register_credits none
    · exact hidle
  | registered id handled answered now =>
    simp only [step]
    split
    · exact s.registered_credits id now _ handled answered _
    · exact hidle
  | sealed id ok now =>
    simp only [step]
    split
    · exact s.sealed_credits id now _ ok _
    · exact hidle
  | addsGrant id now =>
    simp only [step]
    split
    · unfold addsGrant
      dsimp only
      split
      · exact .of_same rfl rfl
      · exact .of_same rfl rfl
    · exact hidle
  | reads id =>
    simp only [step]
    split
    · exact s.listed_credits id _ _
    · unfold loads
      split
      · exact s.edited_credits id _ false _
      · exact .of_same rfl rfl
    · exact hidle
  | writes id =>
    simp only [step]
    split
    · rename_i own edit loaded written next _
      have hwritten : Credits s ({ s with peers := written }, edit.removes.toList.map .removed) :=
        .of_same rfl rfl
      exact hwritten.and_then (edited_credits _ id own true next)
    · exact hidle
  | fails id =>
    simp only [step]
    split
    · exact .of_same rfl rfl
    · exact .of_same rfl rfl
    · exact .of_same rfl rfl
    · exact .of_same rfl rfl
    · exact hidle
  | shellRemoves deviceId => exact .of_same rfl rfl
  | renames own deviceId name =>
    simp only [step]
    split
    · exact hidle
    · exact .of_same rfl rfl
  | configures own => exact .of_same rfl rfl
  | shellRevokes grantId now =>
    simp only [step, revokesGrant]
    split
    · exact hidle
    · exact .of_same rfl rfl
  | prunes maxAgeMs now => exact .of_same rfl rfl
  | told id ok =>
    simp only [step]
    split
    · exact s.told_credits id ok _
    · exact hidle
  | usesToken token now => exact s.usesToken_credits token now
  | _ =>
    simp only [step]
    split
    · exact .of_same rfl rfl
    · exact hidle

theorem startAgent_spec (hashToken : String → String) (s : TrustState) :
    (s.step hashToken .startAgent).1.sessions = s.sessions ∧
      ∀ d, (s.step hashToken .startAgent).1.Rings d → s.Rings d ∨ ∃ entry ∈ s.trusted, entry.deviceId = some d := by
  have hkeys : ∀ (l : List KeyringEntry) (keyring : List KeyringEntry),
      ∀ entry ∈ l.foldl addSessionKeys keyring, entry ∈ keyring ∨ entry ∈ l := by
    intro l
    induction l with
    | nil => exact fun keyring entry h => .inl h
    | cons e l ih =>
      intro keyring entry h
      obtain h | h := ih _ entry h
      · obtain h | rfl := mem_addSessionKeys h
        · exact .inl h
        · exact .inr mem_cons_self
      · exact .inr (mem_cons_of_mem _ h)
  simp only [step]
  split
  · refine ⟨rfl, ?_⟩
    rintro d ⟨a, ha, entry, hentry, hd⟩
    obtain ha | ha := mem_append.1 ha
    · exact .inl ⟨a, ha, entry, hentry, hd⟩
    · rw [mem_singleton] at ha
      rw [ha] at hentry
      obtain hentry | hentry := hkeys _ _ entry hentry
      · cases hentry
      · exact .inr ⟨entry, hentry, hd⟩
  · exact ⟨rfl, fun d h => .inl h⟩

theorem step_sessions (hashToken : String → String) (s : TrustState) (e : TrustEvent) {token : String}
    {entry : Session} (h : (s.step hashToken e).1.sessions.get token = some entry) :
    (∃ old, s.sessions.get token = some old ∧ old.deviceId = entry.deviceId) ∨ ∃ o ∈ (s.step hashToken e).2,
      ∃ device, opens o = some (token, device) ∧ entry.deviceId = device.filter (· ≠ "") := by
  by_cases he : e = .startAgent
  · rw [he, (startAgent_spec hashToken s).1] at h
    exact .inl ⟨entry, h, rfl⟩
  · exact (step_credits hashToken s he).sessions token entry h

theorem step_rings (hashToken : String → String) (s : TrustState) (e : TrustEvent) {d : String}
    (h : (s.step hashToken e).1.Rings d) : s.Rings d ∨ .admitted d ∈ (s.step hashToken e).2 ∨
      e = .startAgent ∧ ∃ entry ∈ s.trusted, entry.deviceId = some d := by
  by_cases he : e = .startAgent
  · subst he
    exact ((startAgent_spec hashToken s).2 d h).imp_right fun hentry => .inr ⟨rfl, hentry⟩
  · exact ((step_credits hashToken s he).rings d h).imp_right .inl

end TrustState

end Mtmux.Cli
