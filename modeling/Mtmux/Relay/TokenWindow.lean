import Mtmux.Base.Machine
import Mtmux.Relay.SessionTokens

/-! When a session token is good, said by the calls that were made: its registration, its uses and the revocations. -/
namespace Mtmux.Relay
open Protocol OrderedMap Machine Sessions List

inductive TokenCall where
  | issueSessionToken (token : String) (ttlMs : Nat) (grant : GrantRecord) (label deviceId : Option String)
  | registerSessionToken (token : String) (ttlMs : Nat) (grant : GrantRecord) (label deviceId : Option String)
  | grantForToken (token : String)
  | revokeSessionToken (token : String)
  | revokeGrant (grantId : String)

structure TimedTokenCall where
  call : TokenCall
  now : Nat

inductive TokenAnswer where
  | session (token : String) (expiresAt : Nat)
  | grant (grant : Option GrantRecord)
  | revoked (tokenIds : List String)
  deriving DecidableEq

def TokenAnswer.isGrant : TokenAnswer → Bool
  | .grant _ => true
  | _ => false

namespace Sessions

def issueSessionToken (sessions : Sessions) (drawn : String) (ttlMs now : Nat) (grant : GrantRecord)
    (label deviceId : Option String) : Sessions :=
  sessions.registerSessionToken drawn ttlMs now grant label deviceId

def answer (sessions : Sessions) (c : TimedTokenCall) : Sessions × List TokenAnswer :=
  match c.call with
  | .issueSessionToken token ttlMs grant label deviceId =>
    (sessions.issueSessionToken token ttlMs c.now grant label deviceId, [.session token (c.now + ttlMs)])
  | .registerSessionToken token ttlMs grant label deviceId =>
    (sessions.registerSessionToken token ttlMs c.now grant label deviceId, [.session token (c.now + ttlMs)])
  | .grantForToken token =>
    ((sessions.grantForToken token c.now).sessions, [.grant (sessions.grantForToken token c.now).grant])
  | .revokeSessionToken token => ((sessions.revokeSessionToken token).1, [.revoked (sessions.revokeSessionToken token).2])
  | .revokeGrant grantId => ((sessions.revokeGrant grantId).1, [.revoked (sessions.revokeGrant grantId).2])

def registerKept (sessions : Sessions) (token : String) (ttlMs now : Nat) (grant : GrantRecord)
    (label deviceId : Option String) : Sessions :=
  sessions.set token ⟨now + ttlMs, ttlMs, grant, label.filter (· ≠ ""), deviceId.filter (· ≠ "")⟩

/-- `grantForToken` as it were if it deleted nothing. -/
def grantKept (sessions : Sessions) (token : String) (now : Nat) : Sessions × Option GrantRecord :=
  match sessions.get token with
  | none => (sessions, none)
  | some entry =>
    if entry.expiresAt ≤ now ∨ isGrantActive entry.grant now = false then (sessions, none)
    else (sessions.set token { entry with expiresAt := now + entry.renewMs }, some entry.grant)

def answerKept (sessions : Sessions) (c : TimedTokenCall) : Sessions × List TokenAnswer :=
  match c.call with
  | .issueSessionToken token ttlMs grant label deviceId | .registerSessionToken token ttlMs grant label deviceId =>
    (sessions.registerKept token ttlMs c.now grant label deviceId, [.session token (c.now + ttlMs)])
  | .grantForToken token => ((sessions.grantKept token c.now).1, [.grant (sessions.grantKept token c.now).2])
  | .revokeSessionToken token => ((sessions.revokeSessionToken token).1, [.revoked (sessions.revokeSessionToken token).2])
  | .revokeGrant grantId => ((sessions.revokeGrant grantId).1, [.revoked (sessions.revokeGrant grantId).2])

end Sessions

/-- An entry that no lookup accepts any more. -/
def Session.Dead (entry : Session) (now : Nat) : Prop := entry.expiresAt ≤ now ∨ isGrantActive entry.grant now = false

theorem isGrantActive_antitone {grant : GrantRecord} {now later : Nat} (hle : now ≤ later)
    (h : isGrantActive grant later = true) : isGrantActive grant now = true := by
  simp only [isGrantActive, Bool.and_eq_true] at h ⊢
  refine ⟨h.1, ?_⟩
  cases hexpires : grant.expiresAt with
  | none => rfl
  | some t =>
    have hlater := h.2
    simp only [hexpires, Option.all_some, decide_eq_true_eq] at hlater ⊢
    omega

structure Answering (step : Sessions → TimedTokenCall → Sessions × List TokenAnswer) : Prop where
  registered : ∀ (s : Sessions) token ttlMs now grant label deviceId t,
    let s' := (step s ⟨.registerSessionToken token ttlMs grant label deviceId, now⟩).1
    if t = token then ∃ entry, s'.get t = some entry ∧ entry.grant = grant ∧ entry.renewMs = ttlMs ∧
      entry.expiresAt = now + ttlMs
    else s'.get t = s.get t ∨ s'.get t = none ∧ ∃ entry, s.get t = some entry ∧ entry.Dead now
  issued : ∀ (s : Sessions) token ttlMs now grant label deviceId,
    step s ⟨.issueSessionToken token ttlMs grant label deviceId, now⟩ =
      step s ⟨.registerSessionToken token ttlMs grant label deviceId, now⟩
  session : ∀ (s : Sessions) token ttlMs now grant label deviceId,
    (step s ⟨.registerSessionToken token ttlMs grant label deviceId, now⟩).2 = [.session token (now + ttlMs)]
  accepted : ∀ (s : Sessions) token now entry, s.get token = some entry → ¬ entry.Dead now →
    step s ⟨.grantForToken token, now⟩ =
      (s.set token { entry with expiresAt := now + entry.renewMs }, [.grant (some entry.grant)])
  refused : ∀ (s : Sessions) token now, (∀ entry, s.get token = some entry → entry.Dead now) →
    (step s ⟨.grantForToken token, now⟩).2 = [.grant none] ∧
      ∀ t, (step s ⟨.grantForToken token, now⟩).1.get t = s.get t ∨
        (step s ⟨.grantForToken token, now⟩).1.get t = none ∧ ∃ entry, s.get t = some entry ∧ entry.Dead now
  revoked : ∀ (s : Sessions) token now, step s ⟨.revokeSessionToken token, now⟩ =
    ((s.revokeSessionToken token).1, [.revoked (s.revokeSessionToken token).2])
  grantRevoked : ∀ (s : Sessions) grantId now, step s ⟨.revokeGrant grantId, now⟩ =
    ((s.revokeGrant grantId).1, [.revoked (s.revokeGrant grantId).2])

theorem answering_answer : Answering Sessions.answer where
  registered s token ttlMs now grant label deviceId t := by
    simp only [Sessions.answer, Sessions.registerSessionToken, get_set]
    by_cases ht : t = token
    · rw [if_pos ht, if_pos ht]
      exact ⟨_, rfl, rfl, rfl, rfl⟩
    · rw [if_neg ht, if_neg ht]
      cases hget : (s.prune now).get t with
      | some entry => exact .inl (get_prune.1 hget).1.symm
      | none =>
        cases hbefore : s.get t with
        | none => exact .inl rfl
        | some entry =>
          refine .inr ⟨rfl, entry, rfl, .inl (Nat.not_lt.1 fun hlive => ?_)⟩
          rw [get_prune.2 ⟨hbefore, hlive⟩] at hget
          cases hget
  issued _ _ _ _ _ _ _ := rfl
  session _ _ _ _ _ _ _ := rfl
  accepted s token now entry hget hlive := by
    have hnow : ¬ entry.expiresAt ≤ now := fun h => hlive (.inl h)
    have hactive : isGrantActive entry.grant now = true := by
      by_contra h
      exact hlive (.inr (Bool.eq_false_iff.2 h))
    simp [Sessions.answer, Sessions.grantForToken, hget, hnow, hactive]
  refused s token now hdead := by
    cases hget : s.get token with
    | none => simp [Sessions.answer, Sessions.grantForToken, hget]
    | some entry =>
      have hlost : ∀ t, (s.delete token).get t = s.get t ∨
          (s.delete token).get t = none ∧ ∃ entry, s.get t = some entry ∧ entry.Dead now := by
        intro t
        rw [get_delete]
        by_cases ht : t = token
        · rw [if_pos ht, ht]
          exact .inr ⟨rfl, entry, hget, hdead entry hget⟩
        · rw [if_neg ht]
          exact .inl rfl
      by_cases hnow : entry.expiresAt ≤ now
      · simpa [Sessions.answer, Sessions.grantForToken, hget, hnow] using hlost
      · have hactive : isGrantActive entry.grant now = false := (hdead entry hget).resolve_left hnow
        simpa [Sessions.answer, Sessions.grantForToken, hget, hnow, hactive] using hlost
  revoked _ _ _ := rfl
  grantRevoked _ _ _ := rfl

theorem answering_answerKept : Answering Sessions.answerKept where
  registered s token ttlMs now grant label deviceId t := by
    simp only [Sessions.answerKept, Sessions.registerKept, get_set]
    by_cases ht : t = token
    · rw [if_pos ht, if_pos ht]
      exact ⟨_, rfl, rfl, rfl, rfl⟩
    · rw [if_neg ht, if_neg ht]
      exact .inl rfl
  issued _ _ _ _ _ _ _ := rfl
  session _ _ _ _ _ _ _ := rfl
  accepted s token now entry hget hlive := by
    have hnot : ¬ (entry.expiresAt ≤ now ∨ isGrantActive entry.grant now = false) := hlive
    simp only [Sessions.answerKept, Sessions.grantKept, hget, if_neg hnot]
  refused s token now hdead := by
    cases hget : s.get token with
    | none => simp [Sessions.answerKept, Sessions.grantKept, hget]
    | some entry =>
      have hcase : entry.expiresAt ≤ now ∨ isGrantActive entry.grant now = false := hdead entry hget
      simp [Sessions.answerKept, Sessions.grantKept, hget, if_pos hcase]
  revoked _ _ _ := rfl
  grantRevoked _ _ _ := rfl

/-- What the calls so far say of a token: its last registration, and when it was used since, the latest first and the
registration last of all. -/
structure TokenStanding where
  grant : GrantRecord
  ttlMs : Nat
  last : Nat
  earlier : List Nat

abbrev TokenEntry : Type := Machine.Entry Sessions TimedTokenCall TokenAnswer

def TokenStanding.follow (t : String) (standing : Option TokenStanding) (x : TokenEntry) : Option TokenStanding :=
  match x.event.call with
  | .issueSessionToken token ttlMs grant _ _ | .registerSessionToken token ttlMs grant _ _ =>
    if t = token then some ⟨grant, ttlMs, x.event.now, []⟩ else standing
  | .grantForToken token =>
    if t = token ∧ x.out ≠ [.grant none] then
      standing.map fun s => { s with last := x.event.now, earlier := s.last :: s.earlier }
    else standing
  | .revokeSessionToken token => if t = token then none else standing
  | .revokeGrant grantId => standing.filter fun s => s.grant.id ≠ grantId

theorem TokenStanding.follow_congr (t : String) (standing : Option TokenStanding) {x y : TokenEntry}
    (hevent : x.event = y.event) (hout : x.out = y.out) : follow t standing x = follow t standing y := by
  obtain ⟨pre, event, out, post⟩ := x
  obtain ⟨pre', event', out', post'⟩ := y
  cases hevent
  cases hout
  rfl

/-- No gap between the registration, the uses and now is as long as the ttl. -/
def TokenStanding.Unbroken (s : TokenStanding) (now : Nat) : Prop :=
  (now :: s.last :: s.earlier).IsChain fun later earlier => later < earlier + s.ttlMs

def sessionTokens : Machine Sessions TimedTokenCall TokenAnswer := ⟨OrderedMap.empty, Sessions.answer⟩

/-- The table that forgets only what is revoked. -/
def keptTokens : Machine Sessions TimedTokenCall TokenAnswer := ⟨OrderedMap.empty, Sessions.answerKept⟩

def tokenStanding (M : Machine Sessions TimedTokenCall TokenAnswer) (calls : List TimedTokenCall) (t : String) :
    Option TokenStanding :=
  (M.trace calls).foldl (TokenStanding.follow t) none

def lookups (M : Machine Sessions TimedTokenCall TokenAnswer) (calls : List TimedTokenCall) : List TokenAnswer :=
  (M.outputs calls).filter TokenAnswer.isGrant

def TokensClocked (calls : List TimedTokenCall) : Prop := calls.Pairwise fun c c' => c.now ≤ c'.now

/-- The entry of a token is what its standing says, or it is lost and no lookup would accept it. -/
def EntryTracks (entry : Option Session) (standing : Option TokenStanding) (now : Nat) : Prop :=
  match standing with
  | none => entry = none
  | some s => ((s.last :: s.earlier).IsChain fun later earlier => later < earlier + s.ttlMs) ∧
    ((∃ e, entry = some e ∧ e.grant = s.grant ∧ e.renewMs = s.ttlMs ∧ e.expiresAt = s.last + s.ttlMs) ∨
      entry = none ∧ (s.last + s.ttlMs ≤ now ∨ isGrantActive s.grant now = false))

variable {standing : Option TokenStanding}

theorem EntryTracks.later {entry : Option Session} {now later : Nat}
    (h : EntryTracks entry standing now) (hle : now ≤ later) : EntryTracks entry standing later := by
  cases standing with
  | none => exact h
  | some s =>
    refine ⟨h.1, h.2.imp_right fun hlost => ⟨hlost.1, hlost.2.imp (fun hold => by omega) fun hover => ?_⟩⟩
    by_contra hactive
    rw [isGrantActive_antitone hle (by simpa using hactive)] at hover
    cases hover

/-- A dead entry may be lost. -/
theorem EntryTracks.lost {entry entry' : Option Session} {standing : Option TokenStanding} {now : Nat}
    (h : EntryTracks entry standing now)
    (hlost : entry' = entry ∨ entry' = none ∧ ∃ e, entry = some e ∧ e.Dead now) : EntryTracks entry' standing now := by
  obtain hsame | ⟨hnone, e, he, hdead⟩ := hlost
  · exact hsame ▸ h
  · cases standing with
    | none => exact hnone
    | some s =>
      obtain ⟨hchain, hentry⟩ := h
      refine ⟨hchain, .inr ⟨hnone, ?_⟩⟩
      obtain ⟨e', he', hgrant, -, hexpires⟩ | ⟨hgone, -⟩ := hentry
      · cases he.symm.trans he'
        rw [Session.Dead, hgrant, hexpires] at hdead
        exact hdead
      · cases he.symm.trans hgone

theorem EntryTracks.live {entry : Option Session} {now : Nat}
    (h : EntryTracks entry standing now) (grant : GrantRecord) :
    (∃ e, entry = some e ∧ ¬ e.Dead now ∧ e.grant = grant) ↔
      ∃ s, standing = some s ∧ s.grant = grant ∧ isGrantActive grant now = true ∧ s.Unbroken now := by
  constructor
  · intro ⟨e, he, hlive, hgrant⟩
    cases standing with
    | none => cases he.symm.trans h
    | some s =>
      obtain ⟨hchain, ⟨e', he', hgrant', -, hexpires⟩ | ⟨hgone, -⟩⟩ := h
      · cases he.symm.trans he'
        rw [Session.Dead, not_or, hexpires] at hlive
        refine ⟨s, rfl, hgrant'.symm.trans hgrant, ?_, ?_⟩
        · rw [← hgrant]
          simpa using hlive.2
        · exact isChain_cons_cons.2 ⟨Nat.lt_of_not_le hlive.1, hchain⟩
      · cases he.symm.trans hgone
  · intro ⟨s, hs, hgrant, hactive, hunbroken⟩
    subst hs
    have hnow : now < s.last + s.ttlMs := (isChain_cons_cons.1 hunbroken).1
    obtain ⟨-, ⟨e, he, hgrant', -, hexpires⟩ | ⟨-, hover⟩⟩ := h
    · refine ⟨e, he, fun hdead => ?_, hgrant'.trans hgrant⟩
      rw [Session.Dead, hexpires, hgrant', hgrant, hactive] at hdead
      cases hdead with
      | inl hold => omega
      | inr hover => cases hover
    · rw [hgrant, hactive] at hover
      cases hover with
      | inl hold => omega
      | inr hover => cases hover

section runs
variable {M M' : Machine Sessions TimedTokenCall TokenAnswer}

theorem tokenStanding_snoc (calls : List TimedTokenCall) (c : TimedTokenCall) (t : String) :
    tokenStanding M (calls ++ [c]) t = TokenStanding.follow t (tokenStanding M calls t) (M.entry (M.run calls) c) := by
  rw [tokenStanding, trace_snoc, foldl_append]
  rfl

section
variable (hM : Answering M.step)
include hM

theorem step_tracks {s : Sessions} {standing : String → Option TokenStanding}
    (c : TimedTokenCall) (h : ∀ t, EntryTracks (s.get t) (standing t) c.now) (t : String) :
    EntryTracks ((M.step s c).1.get t) (TokenStanding.follow t (standing t) (M.entry s c)) c.now := by
  have hregister : ∀ token ttlMs grant label deviceId,
      EntryTracks ((M.step s ⟨.registerSessionToken token ttlMs grant label deviceId, c.now⟩).1.get t)
        (if t = token then some ⟨grant, ttlMs, c.now, []⟩ else standing t) c.now := by
    intro token ttlMs grant label deviceId
    have hregistered := hM.registered s token ttlMs c.now grant label deviceId t
    dsimp only at hregistered
    by_cases ht : t = token
    · rw [if_pos ht] at hregistered ⊢
      exact ⟨.singleton _, .inl hregistered⟩
    · rw [if_neg ht] at hregistered ⊢
      exact (h t).lost hregistered
  obtain ⟨call, now⟩ := c
  cases call with
  | issueSessionToken token ttlMs grant label deviceId =>
    rw [hM.issued]
    exact hregister token ttlMs grant label deviceId
  | registerSessionToken token ttlMs grant label deviceId => exact hregister token ttlMs grant label deviceId
  | grantForToken token =>
    by_cases hlive : ∃ e, s.get token = some e ∧ ¬ e.Dead now
    · obtain ⟨e, he, hnot⟩ := hlive
      simp only [TokenStanding.follow, Machine.entry, hM.accepted s token now e he hnot, get_set]
      by_cases ht : t = token
      · rw [if_pos ht, if_pos ⟨ht, by simp⟩, ht]
        have htracks := h token
        cases hstanding : standing token with
        | none =>
          rw [hstanding] at htracks
          cases he.symm.trans htracks
        | some d =>
          rw [hstanding] at htracks
          obtain ⟨hchain, ⟨e', he', hgrant, hrenew, hexpires⟩ | ⟨hgone, -⟩⟩ := htracks
          · cases he.symm.trans he'
            rw [Session.Dead, not_or, hexpires] at hnot
            refine ⟨isChain_cons_cons.2 ⟨Nat.lt_of_not_le hnot.1, hchain⟩, .inl ⟨_, rfl, hgrant, hrenew, ?_⟩⟩
            rw [← hrenew]
          · cases he.symm.trans hgone
      · rw [if_neg ht, if_neg fun hboth => ht hboth.1]
        exact h t
    · have hdead : ∀ e, s.get token = some e → e.Dead now := by
        intro e he
        by_contra hnot
        exact hlive ⟨e, he, hnot⟩
      obtain ⟨hout, hlost⟩ := hM.refused s token now hdead
      simp only [TokenStanding.follow, Machine.entry, hout]
      rw [if_neg fun hboth => hboth.2 rfl]
      exact (h t).lost (hlost t)
  | revokeSessionToken token =>
    rw [hM.revoked]
    simp only [TokenStanding.follow, Machine.entry, get_revokeSessionToken]
    by_cases ht : t = token
    · rw [if_pos ht, if_pos ht]
      rfl
    · rw [if_neg ht, if_neg ht]
      exact h t
  | revokeGrant grantId =>
    rw [hM.grantRevoked]
    simp only [TokenStanding.follow, Machine.entry]
    have htracks := h t
    have hget : ∀ entry, (s.revokeGrant grantId).1.get t = some entry ↔ s.get t = some entry ∧ entry.grant.id ≠ grantId :=
      fun entry => get_revokeGrant
    cases hstanding : standing t with
    | none =>
      rw [hstanding] at htracks
      cases hafter : (s.revokeGrant grantId).1.get t with
      | none => rfl
      | some entry => cases htracks.symm.trans ((hget entry).1 hafter).1
    | some d =>
      rw [hstanding] at htracks
      obtain ⟨hchain, hentry⟩ := htracks
      by_cases hid : d.grant.id = grantId
      · simp only [Option.filter, hid, ne_eq, not_true_eq_false, decide_false, Bool.false_eq_true, if_false]
        cases hafter : (s.revokeGrant grantId).1.get t with
        | none => rfl
        | some entry =>
          obtain ⟨hbefore, hne⟩ := (hget entry).1 hafter
          obtain ⟨e, he, hgrant, -⟩ | ⟨hgone, -⟩ := hentry
          · cases he.symm.trans hbefore
            exact absurd (hgrant ▸ hid) hne
          · cases hgone.symm.trans hbefore
      · simp only [Option.filter, hid, ne_eq, not_false_eq_true, decide_true, if_true]
        refine ⟨hchain, hentry.imp (fun hheld => ?_) fun hlost => ⟨?_, hlost.2⟩⟩
        · obtain ⟨e, he, hgrant, hrest⟩ := hheld
          exact ⟨e, (hget e).2 ⟨he, hgrant ▸ hid⟩, hgrant, hrest⟩
        · cases hafter : (s.revokeGrant grantId).1.get t with
          | none => rfl
          | some entry => cases hlost.1.symm.trans ((hget entry).1 hafter).1

theorem tracks_tokens (hinit : M.init = OrderedMap.empty) (calls : List TimedTokenCall) :
    TokensClocked calls → ∀ now, (∀ c ∈ calls, c.now ≤ now) →
      ∀ t, EntryTracks ((M.run calls).get t) (tokenStanding M calls t) now := by
  induction calls using List.reverseRecOn with
  | nil =>
    intro _ now _ t
    rw [run_nil, hinit]
    rfl
  | append_singleton calls c ih =>
    intro hclock now hnow t
    obtain ⟨hbefore, -, hlast⟩ := pairwise_append.1 hclock
    have htracks := ih hbefore c.now fun c' hc' => hlast c' hc' c (mem_singleton_self c)
    rw [run_snoc, tokenStanding_snoc]
    exact (step_tracks hM c htracks t).later (hnow c (by simp))

theorem lookup_iff (s : Sessions) (t : String) (now : Nat) (grant : GrantRecord) :
    (M.step s ⟨.grantForToken t, now⟩).2 = [.grant (some grant)] ↔
      ∃ e, s.get t = some e ∧ ¬ e.Dead now ∧ e.grant = grant := by
  by_cases hlive : ∃ e, s.get t = some e ∧ ¬ e.Dead now
  · obtain ⟨e, he, hnot⟩ := hlive
    rw [hM.accepted s t now e he hnot]
    constructor
    · intro h
      have hgrant : e.grant = grant := by simpa using h
      exact ⟨e, he, hnot, hgrant⟩
    · intro ⟨e', he', _, hgrant⟩
      cases he.symm.trans he'
      rw [hgrant]
  · have hdead : ∀ e, s.get t = some e → e.Dead now := by
      intro e he
      by_contra hnot
      exact hlive ⟨e, he, hnot⟩
    rw [(hM.refused s t now hdead).1]
    refine iff_of_false (by simp) fun h => ?_
    obtain ⟨e, he, hnot, -⟩ := h
    exact hnot (hdead e he)

theorem lookup_answers (s : Sessions) (t : String) (now : Nat) :
    ∃ grant, (M.step s ⟨.grantForToken t, now⟩).2 = [.grant grant] := by
  by_cases hlive : ∃ e, s.get t = some e ∧ ¬ e.Dead now
  · obtain ⟨e, he, hnot⟩ := hlive
    exact ⟨_, by rw [hM.accepted s t now e he hnot]⟩
  · refine ⟨none, (hM.refused s t now fun e he => ?_).1⟩
    by_contra hnot
    exact hlive ⟨e, he, hnot⟩

theorem lookup_alike (hM' : Answering M'.step) {s s' : Sessions} {t : String} {now : Nat}
    {standing : Option TokenStanding} (h : EntryTracks (s.get t) standing now) (h' : EntryTracks (s'.get t) standing now) :
    (M.step s ⟨.grantForToken t, now⟩).2 = (M'.step s' ⟨.grantForToken t, now⟩).2 := by
  have hiff : ∀ grant, (M.step s ⟨.grantForToken t, now⟩).2 = [.grant (some grant)] ↔
      (M'.step s' ⟨.grantForToken t, now⟩).2 = [.grant (some grant)] := fun grant => by
    rw [lookup_iff hM, lookup_iff hM', h.live, h'.live]
  obtain ⟨grant, hgrant⟩ := lookup_answers hM s t now
  obtain ⟨grant', hgrant'⟩ := lookup_answers hM' s' t now
  cases grant with
  | some g => rw [hgrant, ((hiff g).1 hgrant)]
  | none =>
    cases grant' with
    | none => rw [hgrant, hgrant']
    | some g => rw [(hiff g).2 hgrant', hgrant']

end

theorem lookups_snoc (calls : List TimedTokenCall) (c : TimedTokenCall) :
    lookups M (calls ++ [c]) = lookups M calls ++ (M.step (M.run calls) c).2.filter TokenAnswer.isGrant := by
  rw [lookups, outputs_snoc, filter_append, lookups]

theorem lookups_alike (hM : Answering M.step) (hM' : Answering M'.step) (hinit : M.init = OrderedMap.empty)
    (hinit' : M'.init = OrderedMap.empty) (calls : List TimedTokenCall) (hclock : TokensClocked calls) :
    lookups M calls = lookups M' calls ∧ ∀ t, tokenStanding M calls t = tokenStanding M' calls t := by
  induction calls using List.reverseRecOn with
  | nil => exact ⟨rfl, fun t => rfl⟩
  | append_singleton calls c ih =>
    obtain ⟨hbefore, -, hlast⟩ := pairwise_append.1 hclock
    have hnow : ∀ c' ∈ calls, c'.now ≤ c.now := fun c' hc' => hlast c' hc' c (mem_singleton_self c)
    obtain ⟨hlookups, hstanding⟩ := ih hbefore
    have htracks := tracks_tokens hM hinit calls hbefore c.now hnow
    have htracks' := tracks_tokens hM' hinit' calls hbefore c.now hnow
    simp only [tokenStanding_snoc, lookups_snoc, hlookups, hstanding]
    obtain ⟨call, now⟩ := c
    cases call with
    | issueSessionToken token ttlMs grant label deviceId =>
      refine ⟨?_, fun t => rfl⟩
      rw [hM.issued, hM'.issued, hM.session, hM'.session]
    | registerSessionToken token ttlMs grant label deviceId =>
      refine ⟨?_, fun t => rfl⟩
      rw [hM.session, hM'.session]
    | grantForToken token =>
      have hsame := lookup_alike hM hM' (htracks token) (hstanding token ▸ htracks' token)
      exact ⟨by rw [hsame], fun t => TokenStanding.follow_congr t _ rfl hsame⟩
    | revokeSessionToken token =>
      refine ⟨?_, fun t => rfl⟩
      rw [hM.revoked, hM'.revoked]
      rfl
    | revokeGrant grantId =>
      refine ⟨?_, fun t => rfl⟩
      rw [hM.grantRevoked, hM'.grantRevoked]
      rfl

end runs

/-- A token is good exactly while its last registration stands and no gap between its uses was as long as its ttl;
what the table forgets by itself never shows; and the revocation of a grant removes the tokens bound to it. -/
theorem token_windows (calls : List TimedTokenCall) (hclock : TokensClocked calls) :
    (∀ t now, (∀ c ∈ calls, c.now ≤ now) → ∀ grant,
      (sessionTokens.step (sessionTokens.run calls) ⟨.grantForToken t, now⟩).2 = [.grant (some grant)] ↔
        ∃ s, tokenStanding sessionTokens calls t = some s ∧ s.grant = grant ∧ isGrantActive grant now = true ∧
          s.Unbroken now) ∧
    lookups sessionTokens calls = lookups keptTokens calls ∧
    ∀ grantId now,
      (sessionTokens.step (sessionTokens.run calls) ⟨.revokeGrant grantId, now⟩).2 =
        [.revoked ((sessionTokens.run calls).revokeGrant grantId).2] ∧
      ∀ t, (t ∈ ((sessionTokens.run calls).revokeGrant grantId).2 ↔
          ∃ entry, (sessionTokens.run calls).get t = some entry ∧ entry.grant.id = grantId) ∧
        (sessionTokens.step (sessionTokens.run calls) ⟨.revokeGrant grantId, now⟩).1.get t =
          if t ∈ ((sessionTokens.run calls).revokeGrant grantId).2 then none else (sessionTokens.run calls).get t := by
  refine ⟨fun t now hnow grant => ?_, ?_, fun grantId now => ⟨rfl, fun t => ?_⟩⟩
  · rw [lookup_iff (M := sessionTokens) answering_answer]
    exact (tracks_tokens (M := sessionTokens) answering_answer rfl calls hclock now hnow t).live grant
  · exact (lookups_alike answering_answer answering_answerKept rfl rfl calls hclock).1
  · have hlisted : t ∈ ((sessionTokens.run calls).revokeGrant grantId).2 ↔
        ∃ entry, (sessionTokens.run calls).get t = some entry ∧ entry.grant.id = grantId := by
      simp only [Sessions.revokeGrant, mem_map, mem_filter, decide_eq_true_eq, get_eq_some]
      constructor
      · rintro ⟨e, ⟨hmem, hid⟩, ht⟩
        exact ⟨e.2, ht ▸ hmem, hid⟩
      · rintro ⟨entry, hmem, hid⟩
        exact ⟨(t, entry), ⟨hmem, hid⟩, rfl⟩
    refine ⟨hlisted, ?_⟩
    by_cases ht : t ∈ ((sessionTokens.run calls).revokeGrant grantId).2
    · rw [if_pos ht]
      obtain ⟨entry, hget, hid⟩ := hlisted.1 ht
      cases hafter : ((sessionTokens.run calls).revokeGrant grantId).1.get t with
      | none => exact hafter
      | some entry' =>
        obtain ⟨hbefore, hne⟩ := get_revokeGrant.1 hafter
        cases hget.symm.trans hbefore
        exact absurd hid hne
    · rw [if_neg ht]
      cases hbefore : (sessionTokens.run calls).get t with
      | none =>
        cases hafter : ((sessionTokens.run calls).revokeGrant grantId).1.get t with
        | none => exact hafter
        | some entry => cases hbefore.symm.trans (get_revokeGrant.1 hafter).1
      | some entry =>
        exact get_revokeGrant.2 ⟨hbefore, fun hid => ht (hlisted.2 ⟨entry, hbefore, hid⟩)⟩

/-- A day's token of the machine's own grant, used twice and then left alone for a day. -/
def idleDay : List TimedTokenCall :=
  [⟨.registerSessionToken "t" 86400000 fullGrant none none, 0⟩, ⟨.grantForToken "t", 80000000⟩,
    ⟨.registerSessionToken "u" 1000 fullGrant none none, 90000000⟩, ⟨.grantForToken "t", 160000000⟩]

theorem idleDay_windows :
    TokensClocked idleDay ∧ lookups sessionTokens idleDay = [.grant (some fullGrant), .grant (some fullGrant)] ∧
      lookups sessionTokens idleDay = lookups keptTokens idleDay :=
  have hclock : TokensClocked idleDay := by simp [TokensClocked, idleDay]
  ⟨hclock, by decide +kernel, (token_windows idleDay hclock).2.1⟩

end Mtmux.Relay
