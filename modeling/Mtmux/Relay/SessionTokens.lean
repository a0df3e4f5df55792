import Mtmux.Base.OrderedMap
import Mtmux.Relay.Grant

/-! The session tokens devices sign in with. The relay knows a token by its digest only, and so do
these tables. -/
namespace Mtmux.Relay
open Protocol OrderedMap

/-- What a live token may do. Its window is an idle one: `renewMs` from its last use. -/
structure Session where
  expiresAt : Nat
  renewMs : Nat
  grant : GrantRecord
  label : Option String
  deviceId : Option String

abbrev Sessions : Type := OrderedMap String Session

/-- What a lookup leaves of the table, the grant behind the token, and the device that used it. -/
structure TokenLookup where
  sessions : Sessions
  grant : Option GrantRecord
  used : Option String

namespace Sessions

def prune (sessions : Sessions) (now : Nat) : Sessions :=
  sessions.filter fun _ entry => decide (now < entry.expiresAt)

/-- Accept a token, minted here or derived elsewhere. -/
def registerSessionToken (sessions : Sessions) (token : String) (ttlMs now : Nat)
    (grant : GrantRecord) (label deviceId : Option String) : Sessions :=
  (sessions.prune now).set token
    { expiresAt := now + ttlMs
      renewMs := ttlMs
      grant := grant
      label := label.filter (· ≠ "")
      deviceId := deviceId.filter (· ≠ "") }

def labelForToken (sessions : Sessions) (token : String) (now : Nat) : Option String :=
  match sessions.get token with
  | none => none
  | some entry => if entry.expiresAt ≤ now then none else entry.label

/-- The grant behind a token, if it is live; its window begins anew. -/
def grantForToken (sessions : Sessions) (token : String) (now : Nat) : TokenLookup :=
  match sessions.get token with
  | none => ⟨sessions, none, none⟩
  | some entry =>
    if entry.expiresAt ≤ now then ⟨sessions.delete token, none, none⟩
    else if !isGrantActive entry.grant now then ⟨sessions.delete token, none, none⟩
    else
      { sessions := sessions.set token { entry with expiresAt := now + entry.renewMs }
        grant := some entry.grant
        used := entry.deviceId }

def deviceIdForTokenId (sessions : Sessions) (tokenId : String) : Option String :=
  (sessions.get tokenId).bind Session.deviceId

/-- Drop every token bound to a grant id, and say which. -/
def revokeGrant (sessions : Sessions) (grantId : String) : Sessions × List String :=
  (sessions.filter fun _ entry => entry.grant.id ≠ grantId,
    (sessions.entries.filter fun e => e.2.grant.id = grantId).map Prod.fst)

def revokeSessionToken (sessions : Sessions) (token : String) : Sessions × List String :=
  if sessions.has token then (sessions.delete token, [token]) else (sessions, [])

variable {sessions : Sessions}

variable {now : Nat} {t : String} {entry : Session}

theorem get_prune : (sessions.prune now).get t = some entry ↔ sessions.get t = some entry ∧ now < entry.expiresAt := by
  simp [prune, get_filter]

variable {token : String}

theorem get_register {ttlMs : Nat} {grant : GrantRecord} {label deviceId : Option String}
    (h : (sessions.registerSessionToken token ttlMs now grant label deviceId).get t = some entry) :
    (t = token ∧ entry.grant = grant ∧ entry.deviceId = deviceId.filter (· ≠ "")) ∨
      t ≠ token ∧ sessions.get t = some entry ∧ now < entry.expiresAt := by
  rw [registerSessionToken, get_set] at h
  split at h
  · rename_i ht
    cases h
    exact .inl ⟨ht, rfl, rfl⟩
  · rename_i ht
    exact .inr ⟨ht, get_prune.1 h⟩

/-- A lookup changes an entry only by renewing its window. -/
theorem get_grantForToken (h : (sessions.grantForToken token now).sessions.get t = some entry) :
    ∃ old, sessions.get t = some old ∧ entry.grant = old.grant ∧ entry.deviceId = old.deviceId := by
  unfold grantForToken at h
  cases hget : sessions.get token with
  | none =>
    rw [hget] at h
    exact ⟨entry, h, rfl, rfl⟩
  | some old =>
    rw [hget] at h
    dsimp only at h
    split at h
    · rw [get_delete] at h
      split at h
      · cases h
      · exact ⟨entry, h, rfl, rfl⟩
    · split at h
      · rw [get_delete] at h
        split at h
        · cases h
        · exact ⟨entry, h, rfl, rfl⟩
      · rw [get_set] at h
        split at h
        · rename_i ht
          cases h
          exact ⟨old, by rw [ht, hget], rfl, rfl⟩
        · exact ⟨entry, h, rfl, rfl⟩

theorem grantForToken_some {grant : GrantRecord} (h : (sessions.grantForToken token now).grant = some grant) :
    ∃ entry, sessions.get token = some entry ∧ entry.grant = grant ∧ now < entry.expiresAt ∧
      isGrantActive grant now = true := by
  unfold grantForToken at h
  cases hget : sessions.get token with
  | none =>
    rw [hget] at h
    cases h
  | some entry =>
    rw [hget] at h
    dsimp only at h
    split at h
    · cases h
    · rename_i hexpired
      split at h
      · cases h
      · rename_i hactive
        cases h
        exact ⟨entry, rfl, rfl, Nat.lt_of_not_le hexpired, by simpa using hactive⟩

theorem get_revokeGrant {grantId : String} : (sessions.revokeGrant grantId).1.get t = some entry ↔
      sessions.get t = some entry ∧ entry.grant.id ≠ grantId := by
  simp [revokeGrant, get_filter]

theorem get_revokeSessionToken (sessions : Sessions) (token t : String) :
    (sessions.revokeSessionToken token).1.get t = if t = token then none else sessions.get t := by
  unfold revokeSessionToken
  split
  · exact get_delete _ _ _
  · rename_i hhas
    split
    · rename_i ht
      rw [ht]
      simpa [OrderedMap.has] using hhas
    · rfl

end Sessions
end Mtmux.Relay
