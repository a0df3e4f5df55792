import Mtmux.Base.Text
import Mtmux.Relay.SessionTokens

/-! Registering a paired device's token with the relay: the body that is sent, and what is made of it. -/
namespace Mtmux.Relay.Registration
open Protocol OrderedMap List

/-- The length of a string in UTF-16 code units. -/
def length16 (text : String) : Nat := (text.toList.map fun c => if c.toNat < 0x10000 then 1 else 2).sum

def hexDigits (text : String) : Bool := text.length = 64 && text.toList.all fun c => c.isDigit || ('a' ≤ c && c ≤ 'f')

def acceptsScope : GrantScope → Bool
  | .all => true
  | .sessions listed => listed.length ≤ 64 && listed.all fun s => 1 ≤ length16 s.id && length16 s.id ≤ 32 && length16 s.name ≤ 256
  | .recordings listed => listed.length ≤ 64 && listed.all fun id => 1 ≤ length16 id && length16 id ≤ 64

/-- `GrantRecord.safeParse`, for a record whose fields have the right types. -/
def accepts (grant : GrantRecord) : Bool :=
  1 ≤ length16 grant.id && length16 grant.id ≤ 64 && length16 grant.label ≤ 128 && acceptsScope grant.scope &&
    hexDigits grant.tokenHash && grant.peerDeviceId.all fun id => length16 id ≤ 128

structure PairBody where
  token : String
  grant : Option GrantRecord
  notice : Option (String × String)
  ttlMs : Option Nat
  deviceId : Option String

section Json

def escaped (c : Char) : List Char :=
  if c = '"' then ['\\', '"'] else if c = '\\' then ['\\', '\\'] else if c = '\n' then ['\\', 'n']
  else if c = '\r' then ['\\', 'r'] else if c = '\t' then ['\\', 't'] else if c.toNat = 8 then ['\\', 'b']
  else if c.toNat = 12 then ['\\', 'f'] else if c.toNat < 16 then "\\u000".toList ++ Nat.toDigits 16 c.toNat
  else if c.toNat < 32 then "\\u00".toList ++ Nat.toDigits 16 c.toNat
  else [c]

def quoted (text : String) : List Char := '"' :: (text.toList.flatMap escaped ++ ['"'])

def array (items : List (List Char)) : List Char := '[' :: ([','].intercalate items ++ [']'])

def object (fields : List (String × List Char)) : List Char :=
  '\x7b' :: ([','].intercalate (fields.map fun field => quoted field.1 ++ ':' :: field.2) ++ ['\x7d'])

def number (n : Nat) : List Char := Nat.toDigits 10 n

def nullable (value : Option Nat) : List Char := value.elim "null".toList number

def boolean (b : Bool) : List Char := if b then "true".toList else "false".toList

def scopeText : GrantScope → List Char
  | .all => object [("kind", quoted "all")]
  | .sessions listed => object [("kind", quoted "sessions"),
      ("sessions", array (listed.map fun s => object [("id", quoted s.id), ("name", quoted s.name)]))]
  | .recordings listed => object [("kind", quoted "recordings"), ("recordings", array (listed.map quoted))]

def filesText : GrantFiles → List Char
  | .none => quoted "none"
  | .read => quoted "read"
  | .write => quoted "write"

def grantText (grant : GrantRecord) : List Char :=
  object ([("id", quoted grant.id), ("label", quoted grant.label), ("scope", scopeText grant.scope),
    ("readOnly", boolean grant.readOnly), ("files", filesText grant.files), ("createdAt", number grant.createdAt),
    ("expiresAt", nullable grant.expiresAt), ("revokedAt", nullable grant.revokedAt),
    ("tmuxServerPid", nullable grant.tmuxServerPid), ("tokenHash", quoted grant.tokenHash)] ++
    grant.peerDeviceId.toList.map fun id => ("peerDeviceId", quoted id))

/-- `JSON.stringify` of a body. -/
def stringify (body : PairBody) : List Char :=
  object ([("token", quoted body.token)] ++ (body.grant.toList.map fun grant => ("grant", grantText grant)) ++
    (body.notice.toList.flatMap fun notice => [("label", quoted notice.1), ("via", quoted notice.2)]) ++
    (body.ttlMs.toList.map fun ttl => ("ttlMs", number ttl)) ++ body.deviceId.toList.map fun id => ("deviceId", quoted id))

end Json

def utf8 (text : List Char) : List UInt8 := text.flatMap String.utf8EncodeChar

/-- What `registerDirectToken` sends. -/
def registerDirectToken (directToken : String) (grant : Option GrantRecord) (notice : Option (String × String))
    (ttlMs : Option Nat) (deviceId : Option String) : PairBody :=
  ⟨directToken, grant, notice, ttlMs, deviceId.filter (· ≠ "")⟩

def maxPairBodyBytes : Nat := 1024

/-- Chunk after chunk; a body over the limit is none. -/
def readBody (size : Nat) (read : List UInt8) : List (List UInt8) → Option (List UInt8)
  | [] => some read
  | chunk :: chunks =>
    if maxPairBodyBytes < size + chunk.length then none else readBody (size + chunk.length) (read ++ chunk) chunks

/-- `none` is an answer of 400; a label and a device id are cut to 128 units. `parse` is `JSON.parse` of the text. -/
def handleSessionRegistration (parse : List UInt8 → Option PairBody) (sessions : Sessions) (now : Nat)
    (raw : Option (List UInt8)) : Option Sessions :=
  match (raw.filter (· ≠ [])).bind parse with
  | none => none
  | some body =>
    if length16 body.token < 32 then none
    else if body.grant.any fun grant => !accepts grant then none
    else if body.ttlMs = some 0 then none
    else some (sessions.registerSessionToken body.token (body.ttlMs.getD (24 * 60 * 60 * 1000)) now
      (body.grant.getD fullGrant) (((body.notice.map fun notice => notice.1).filter (· ≠ "")).map (sliced 128))
      ((body.deviceId.filter (· ≠ "")).map (sliced 128)))

/-- The relay has the token with its grant afterwards, and no other token is new. -/
def Registered (sessions : Sessions) (body : PairBody) (answer : Option Sessions) : Prop :=
  ∃ after, answer = some after ∧ (after.get body.token).map Session.grant = some (body.grant.getD fullGrant) ∧
    ∀ other, other ≠ body.token → ∀ entry, after.get other = some entry → sessions.get other = some entry

section
variable {parse : List UInt8 → Option PairBody} {sessions : Sessions} {now : Nat}

theorem readBody_eq {size : Nat} (hsize : size ≤ maxPairBodyBytes) (read : List UInt8) (chunks : List (List UInt8)) :
    readBody size read chunks =
      if maxPairBodyBytes < size + chunks.flatten.length then none else some (read ++ chunks.flatten) := by
  induction chunks generalizing size read with
  | nil => simp [readBody, hsize]
  | cons chunk chunks ih =>
    rw [readBody, flatten_cons, length_append]
    by_cases hlong : maxPairBodyBytes < size + chunk.length
    · rw [if_pos hlong, if_pos (by omega)]
    · rw [if_neg hlong, ih (by omega), Nat.add_assoc, append_assoc]

theorem registered_some {after : Sessions} (body : PairBody) :
    Registered sessions body (some after) ↔ (after.get body.token).map Session.grant = some (body.grant.getD fullGrant) ∧
      ∀ other, other ≠ body.token → ∀ entry, after.get other = some entry → sessions.get other = some entry := by
  simp [Registered]

/-- A share is registered if and only if its body fits, its token is no shorter than 32 and its lifetime is not over. -/
theorem registered_iff (token : String) (grant : Option GrantRecord) (notice : Option (String × String)) (ttlMs : Option Nat)
    (deviceId : Option String) (chunks : List (List UInt8)) (haccepts : ∀ g ∈ grant, accepts g = true)
    (hsent : chunks.flatten = utf8 (stringify (registerDirectToken token grant notice ttlMs deviceId)))
    (hparse : parse chunks.flatten = some (registerDirectToken token grant notice ttlMs deviceId)) :
    Registered sessions (registerDirectToken token grant notice ttlMs deviceId)
        (handleSessionRegistration parse sessions now (readBody 0 [] chunks)) ↔
      (utf8 (stringify (registerDirectToken token grant notice ttlMs deviceId))).length ≤ maxPairBodyBytes ∧
        32 ≤ length16 token ∧ ttlMs ≠ some 0 := by
  have hnone (body : PairBody) : ¬ Registered sessions body none := by simp [Registered]
  rw [readBody_eq (Nat.zero_le _), Nat.zero_add, nil_append, ← hsent]
  by_cases hlong : maxPairBodyBytes < chunks.flatten.length
  · rw [if_pos hlong]
    exact iff_of_false (hnone _) fun h => by omega
  · have hne : chunks.flatten ≠ [] := by
      rw [hsent]
      simp [stringify, object, utf8]
    have hgrant : (grant.any fun grant => !accepts grant) = false := by
      cases grant with
      | none => rfl
      | some grant => simpa using haccepts grant rfl
    rw [if_neg hlong, handleSessionRegistration, Option.filter_some, if_pos (by simpa using hne), Option.bind_some, hparse]
    simp only [registerDirectToken, hgrant, Bool.false_eq_true, if_false]
    -- What is left is the token's length and the lifetime.
    by_cases hshort : length16 token < 32
    · rw [if_pos hshort]
      exact iff_of_false (hnone _) fun h => by omega
    · by_cases hover : ttlMs = some 0
      · subst hover
        simp [hshort, hnone]
      · simp only [if_neg hshort, hover, if_false, registered_some, Sessions.registerSessionToken, get_set,
          if_true, Option.map_some, true_and]
        refine iff_of_true (fun other hother entry hentry => ?_) ⟨by omega, by omega, hover⟩
        rw [if_neg hother] at hentry
        exact ((get_filter _ _ _ _).1 hentry).1

end

def thirtyTwo : String := "0123456789abcdef0123456789abcdef"

/-- `JSON.parse`, of this body. -/
def parsed (body : PairBody) (bytes : List UInt8) : Option PairBody :=
  if bytes = utf8 (stringify body) then some body else none

theorem registered_plain : Registered .empty ⟨thirtyTwo, none, none, none, none⟩
    (handleSessionRegistration (parsed ⟨thirtyTwo, none, none, none, none⟩) .empty 0
      (readBody 0 [] [utf8 (stringify ⟨thirtyTwo, none, none, none, none⟩)])) :=
  (registered_iff thirtyTwo none none none none [utf8 (stringify ⟨thirtyTwo, none, none, none, none⟩)] (by simp)
    (by simp [registerDirectToken]) (by simp [registerDirectToken, parsed])).2 (by decide +kernel)

/-- As many sessions as a share may have. -/
def longGrant : GrantRecord := { fullGrant with scope := .sessions (List.replicate 64 ⟨"$1", "n"⟩) }

theorem share_refused : accepts longGrant = true ∧ ∀ parse,
    ¬ Registered .empty (registerDirectToken thirtyTwo longGrant none none none)
      (handleSessionRegistration parse .empty 0
        (readBody 0 [] [utf8 (stringify (registerDirectToken thirtyTwo longGrant none none none))])) := by
  have hlong : maxPairBodyBytes < (utf8 (stringify (registerDirectToken thirtyTwo longGrant none none none))).length := by
    decide +kernel
  generalize utf8 (stringify (registerDirectToken thirtyTwo longGrant none none none)) = sent at hlong
  refine ⟨by decide +kernel, fun parse => ?_⟩
  rw [readBody_eq (Nat.zero_le _)]
  simp [hlong, handleSessionRegistration, Registered]

end Mtmux.Relay.Registration
