import Mtmux.Crypto.Bytes

/-! The key schedule behind a completed exchange, and short authentication strings. The
hash functions and the curve are parameters. -/
namespace Mtmux.Crypto

/-- What is taken from the hash and curve libraries. `sharedSecret` fails on a key
that is not a point or gives the all-zero secret. -/
structure Primitives where
  sha256 : Bytes → Bytes
  sha512 : Bytes → Bytes
  hmac : (key message : Bytes) → Bytes
  hkdf : (ikm salt info : Bytes) → (length : Nat) → Bytes
  publicKey : (secret : Bytes) → Bytes
  sharedSecret : (secret publicKey : Bytes) → Option Bytes

variable (P : Primitives)

structure SessionKeys where
  c2s : Bytes
  s2c : Bytes
  confirm : Bytes
  directToken : String
  deriving DecidableEq

inductive Direction where
  | c2s | s2c
  deriving DecidableEq

inductive Role where
  | cli | browser
  deriving DecidableEq

inductive SubkeyPurpose where
  | frame | descriptor
  deriving DecidableEq

def label : Direction → String
  | .c2s => "mtmux/v1 browser→cli"
  | .s2c => "mtmux/v1 cli→browser"

def subkeyLabel : SubkeyPurpose → Direction → String
  | .frame, .c2s => "mtmux/v2 frame browser→cli"
  | .frame, .s2c => "mtmux/v2 frame cli→browser"
  | .descriptor, .c2s => "mtmux/v2 descriptor browser→cli"
  | .descriptor, .s2c => "mtmux/v2 descriptor cli→browser"

def keyBytes : Nat := 32
def subkeySaltBytes : Nat := 16

def derive (isk transcript : Bytes) (label : String) : Bytes :=
  P.hkdf isk transcript (utf8ToBytes label) keyBytes

def deriveSessionKeys (isk transcript : Bytes) : SessionKeys where
  c2s := derive P isk transcript (label .c2s)
  s2c := derive P isk transcript (label .s2c)
  confirm := derive P isk transcript "mtmux/v1 confirm"
  directToken := bytesToHex (derive P isk transcript "mtmux/v1 direct-token")

/-- The key a single connection seals with. -/
def deriveSubkey (key salt : Bytes) (label : String) : Option Bytes :=
  if key.length ≠ keyBytes then none
  else if salt.length ≠ subkeySaltBytes then none
  else some (derive P key salt label)

def roleLabel : Role → String
  | .cli => "mtmux/v1 confirm cli"
  | .browser => "mtmux/v1 confirm browser"

def confirmationTag (confirmKey : Bytes) (role : Role) : Bytes :=
  P.hmac confirmKey (utf8ToBytes (roleLabel role))

def verifyConfirmation (confirmKey : Bytes) (role : Role) (tag : Bytes) : Bool :=
  constantTimeEqual (confirmationTag P confirmKey role) tag

/- Short authentication strings. -/

structure EphemeralKeyPair where
  secret : Bytes
  publicKey : Bytes

def newEphemeralKey (random : Bytes) : EphemeralKeyPair := ⟨random, P.publicKey random⟩

def sasDigits : Nat := 6

def commitDomain : Bytes := utf8ToBytes "mtmux/v1 rtp-commit"

def sasCommitment (publicKey : Bytes) (requestId : String) : Bytes :=
  P.sha256 (commitDomain ++ lvCat [publicKey, utf8ToBytes requestId])

def verifySasCommitment (commitment publicKey : Bytes) (requestId : String) : Bool :=
  constantTimeEqual commitment (sasCommitment P publicKey requestId)

def sasTranscript (requestId : String) (commitment browserPublicKey cliPublicKey : Bytes) : Bytes :=
  lvCat [utf8ToBytes requestId, commitment, browserPublicKey, cliPublicKey]

/-- A degenerate secret is refused, whoever produced it. -/
def sasSharedSecret (ownSecret peerPublicKey : Bytes) : Option Bytes :=
  match P.sharedSecret ownSecret peerPublicKey with
  | none => none
  | some shared => if shared.all (· = 0) then none else some shared

def bigEndian (bytes : Bytes) : Nat := bytes.foldl (fun value b => value * 256 + b.toNat) 0

def deriveSas (ikm transcript : Bytes) : String :=
  let digits := toString
    (bigEndian (P.hkdf ikm transcript (utf8ToBytes "mtmux/v1 sas") 8) % 10 ^ sasDigits)
  String.ofList (List.replicate (sasDigits - digits.length) '0') ++ digits

/-- The hashes do not collide: the derivation of a key in its secret, the tag in what it covers. -/
structure Primitives.Collisionless (P : Primitives) : Prop where
  sha512 : Function.Injective P.sha512
  hkdf : ∀ salt info, Function.Injective fun ikm => P.hkdf ikm salt info keyBytes
  hmac : ∀ key, Function.Injective (P.hmac key)

theorem deriveSessionKeys_inj {P : Primitives} (hP : P.Collisionless) {isk isk' transcript : Bytes}
    (h : deriveSessionKeys P isk transcript = deriveSessionKeys P isk' transcript) : isk = isk' := by
  have hc2s := congrArg SessionKeys.c2s h
  exact hP.hkdf _ _ hc2s

theorem verifyConfirmation_tag (key : Bytes) (role : Role) :
    verifyConfirmation P key role (confirmationTag P key role) = true := by
  simp [verifyConfirmation, constantTimeEqual]

theorem verifyConfirmation_role {P : Primitives} (hP : P.Collisionless) (key : Bytes)
    {role other : Role} (h : role ≠ other) : verifyConfirmation P key role (confirmationTag P key other) = false := by
  simp only [verifyConfirmation, constantTimeEqual, decide_eq_false_iff_not]
  intro htag
  have hlabel := utf8ToBytes_inj (hP.hmac key htag)
  cases role with
  | cli =>
    cases other with
    | cli => exact h rfl
    | browser => exact absurd hlabel (by decide)
  | browser =>
    cases other with
    | cli => exact absurd hlabel (by decide)
    | browser => exact h rfl

theorem verifySasCommitment_iff {commitment publicKey : Bytes} {requestId : String} :
    verifySasCommitment P commitment publicKey requestId = true ↔ commitment = sasCommitment P publicKey requestId := by
  simp [verifySasCommitment, constantTimeEqual]

end Mtmux.Crypto
