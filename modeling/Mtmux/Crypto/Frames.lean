import Mtmux.Crypto.KeySchedule

/-! Sealed frames: AES-GCM under a subkey of the connection, the counter on the wire and
the salt on frame 0. -/
namespace Mtmux.Crypto
open List Option

/-- AES-GCM as the platform has it; `decrypt` fails when the tag does not match. -/
structure Gcm where
  encrypt : (key iv data : Bytes) → Bytes
  decrypt : (key iv data : Bytes) → Option Bytes

def tagBytes : Nat := 16

/-- What the frames rely on: what was encrypted decrypts, and a tag of 16 bytes is added. -/
structure Gcm.Lawful (G : Gcm) : Prop where
  decrypts : ∀ key iv data, G.decrypt key iv (G.encrypt key iv data) = some data
  length : ∀ key iv data, (G.encrypt key iv data).length = data.length + tagBytes

variable (P : Primitives) (G : Gcm)

def counterBytes : Nat := 8
def maxCounter : Nat := 2 ^ 64 - 1

def directionTag : Direction → Bytes
  | .c2s => [0x63, 0x32, 0x73, 0x00]
  | .s2c => [0x73, 0x32, 0x63, 0x00]

def bigEndianBytes : (width value : Nat) → Bytes
  | 0, _ => []
  | width + 1, value => bigEndianBytes width (value / 256) ++ [UInt8.ofNat (value % 256)]

def nonceFor (direction : Direction) (counter : Nat) : Bytes :=
  directionTag direction ++ bigEndianBytes counterBytes counter

def readCounter (frame : Bytes) : Nat := bigEndian (frame.take counterBytes)

/-- `counter` is the number of the next frame. -/
structure FrameSealer where
  key : Bytes
  direction : Direction
  salt : Bytes
  counter : Nat
  deriving DecidableEq

namespace FrameSealer

def create (key : Bytes) (direction : Direction) (salt : Bytes) (purpose : SubkeyPurpose) :
    Option FrameSealer :=
  (deriveSubkey P key salt (subkeyLabel purpose direction)).map fun subkey =>
    ⟨subkey, direction, salt, 0⟩

def frameAt (s : FrameSealer) (counter : Nat) (plaintext : Bytes) : Bytes :=
  (if counter = 0 then s.salt else []) ++ (bigEndianBytes counterBytes counter ++
    G.encrypt s.key (nonceFor s.direction counter) plaintext)

def sealFrame (s : FrameSealer) (plaintext : Bytes) : Option (FrameSealer × Bytes) :=
  if maxCounter < s.counter then none
  else some ({ s with counter := s.counter + 1 }, s.frameAt G s.counter plaintext)

end FrameSealer

/-- `highest` is the highest counter accepted so far. -/
structure FrameOpener where
  key : Bytes
  direction : Direction
  highest : Option Nat
  deriving DecidableEq

namespace FrameOpener

def create (key : Bytes) (direction : Direction) (salt : Bytes) (purpose : SubkeyPurpose) :
    Option FrameOpener :=
  (deriveSubkey P key salt (subkeyLabel purpose direction)).map fun subkey =>
    ⟨subkey, direction, none⟩

/-- Only a frame known good advances `highest`. -/
def openFrame (o : FrameOpener) (frame : Bytes) : Option (FrameOpener × Bytes) :=
  if frame.length ≤ counterBytes then none
  else if ∃ highest ∈ o.highest, readCounter frame ≤ highest then none
  else
    (G.decrypt o.key (nonceFor o.direction (readCounter frame)) (frame.drop counterBytes)).map
      fun opened => ({ o with highest := some (readCounter frame) }, opened)

end FrameOpener

namespace StreamOpener

def bind (key : Bytes) (direction : Direction) (first : Bytes) (purpose : SubkeyPurpose) :
    Option (FrameOpener × Bytes) :=
  if first.length ≤ subkeySaltBytes + counterBytes then none
  else if readCounter (first.drop subkeySaltBytes) ≠ 0 then none
  else
    match FrameOpener.create P key direction (first.take subkeySaltBytes) purpose with
    | none => none
    | some opener => opener.openFrame G (first.drop subkeySaltBytes)

def receive (key : Bytes) (direction : Direction) :
    Option FrameOpener → Bytes → Option (FrameOpener × Bytes)
  | none, frame => bind P G key direction frame .frame
  | some opener, frame => opener.openFrame G frame

def receiveAll (key : Bytes) (direction : Direction) :
    Option FrameOpener → List Bytes → Option (Option FrameOpener × List Bytes)
  | opener, [] => some (opener, [])
  | opener, frame :: frames => do
    let (opener, plaintext) ← receive P G key direction opener frame
    let (opener, plaintexts) ← receiveAll key direction (some opener) frames
    return (opener, plaintext :: plaintexts)

end StreamOpener

def sealOnce (key : Bytes) (direction : Direction) (salt plaintext : Bytes)
    (purpose : SubkeyPurpose) : Option Bytes :=
  match FrameSealer.create P key direction salt purpose with
  | none => none
  | some sealer => (sealer.sealFrame G plaintext).map Prod.snd

def openOnce (key : Bytes) (direction : Direction) (frame : Bytes) (purpose : SubkeyPurpose) :
    Option Bytes :=
  (StreamOpener.bind P G key direction frame purpose).map Prod.snd

theorem length_bigEndianBytes (width value : Nat) : (bigEndianBytes width value).length = width := by
  induction width generalizing value with
  | zero => rfl
  | succ width ih => rw [bigEndianBytes, length_append, ih, length_singleton]

theorem bigEndian_snoc (bytes : Bytes) (b : UInt8) : bigEndian (bytes ++ [b]) = bigEndian bytes * 256 + b.toNat := by
  simp [bigEndian]

theorem bigEndian_bigEndianBytes {width value : Nat} (h : value < 256 ^ width) :
    bigEndian (bigEndianBytes width value) = value := by
  induction width generalizing value with
  | zero =>
    have hzero : value = 0 := by simpa using h
    rw [hzero]
    rfl
  | succ width ih =>
    have hdiv : value / 256 < 256 ^ width := by
      rw [Nat.pow_succ] at h
      exact Nat.div_lt_of_lt_mul (by rwa [Nat.mul_comm])
    have hlast : (UInt8.ofNat (value % 256)).toNat = value % 256 := by
      rw [UInt8.toNat_ofNat']
      omega
    rw [bigEndianBytes, bigEndian_snoc, ih hdiv, hlast]
    omega

theorem readCounter_append {counter : Nat} (h : counter ≤ maxCounter) (rest : Bytes) :
    readCounter (bigEndianBytes counterBytes counter ++ rest) = counter := by
  have hlen := length_bigEndianBytes counterBytes counter
  rw [readCounter, take_left' hlen]
  refine bigEndian_bigEndianBytes ?_
  have hmax : maxCounter < 256 ^ counterBytes := by decide
  omega

theorem bigEndian_lt (bytes : Bytes) : bigEndian bytes < 256 ^ bytes.length := by
  induction bytes using List.reverseRecOn with
  | nil => decide
  | append_singleton bytes b ih =>
    have hb := b.toNat_lt
    rw [bigEndian_snoc, length_append, length_singleton, Nat.pow_succ]
    omega

theorem bigEndianBytes_bigEndian (bytes : Bytes) : bigEndianBytes bytes.length (bigEndian bytes) = bytes := by
  induction bytes using List.reverseRecOn with
  | nil => rfl
  | append_singleton bytes b ih =>
    have hb := b.toNat_lt
    have hdiv : (bigEndian bytes * 256 + b.toNat) / 256 = bigEndian bytes := by omega
    have hmod : (bigEndian bytes * 256 + b.toNat) % 256 = b.toNat := by omega
    rw [bigEndian_snoc, length_append, length_singleton, bigEndianBytes, hdiv, hmod, ih,
      UInt8.ofNat_toNat]

theorem readCounter_spec {frame : Bytes} (h : counterBytes ≤ frame.length) : readCounter frame ≤ maxCounter ∧
      frame = bigEndianBytes counterBytes (readCounter frame) ++ frame.drop counterBytes := by
  have hlen : (frame.take counterBytes).length = counterBytes := length_take_of_le h
  have hback := bigEndianBytes_bigEndian (frame.take counterBytes)
  have hlt := bigEndian_lt (frame.take counterBytes)
  rw [hlen] at hback hlt
  have hmax : 256 ^ counterBytes = maxCounter + 1 := by decide
  rw [hmax] at hlt
  constructor
  · exact Nat.le_of_lt_succ hlt
  · rw [readCounter, hback, take_append_drop]

variable {P G} {o : FrameOpener}

theorem FrameOpener.openFrame_of_decrypt {counter : Nat}
    (hmax : counter ≤ maxCounter) (hnew : ∀ highest ∈ o.highest, highest < counter)
    {body plaintext : Bytes} (hbody : 0 < body.length)
    (hdec : G.decrypt o.key (nonceFor o.direction counter) body = some plaintext) :
    o.openFrame G (bigEndianBytes counterBytes counter ++ body) =
      some ({ o with highest := some counter }, plaintext) := by
  have hcounter := length_bigEndianBytes counterBytes counter
  have hread := readCounter_append hmax body
  have hlong : ¬ (bigEndianBytes counterBytes counter ++ body).length ≤ counterBytes := by
    rw [length_append, hcounter]
    omega
  have hfresh : ¬ ∃ highest ∈ o.highest, counter ≤ highest := by
    rintro ⟨highest, hmem, hle⟩
    have hlt := hnew highest hmem
    omega
  rw [openFrame, if_neg hlong, hread, if_neg hfresh, drop_left' hcounter, hdec]
  rfl

theorem FrameOpener.openFrame_body (hG : G.Lawful) {counter : Nat}
    (hmax : counter ≤ maxCounter) (hnew : ∀ highest ∈ o.highest, highest < counter) (plaintext : Bytes) :
    o.openFrame G (bigEndianBytes counterBytes counter ++ G.encrypt o.key (nonceFor o.direction counter) plaintext) =
      some ({ o with highest := some counter }, plaintext) := by
  apply openFrame_of_decrypt hmax hnew
  · rw [hG.length, tagBytes]
    omega
  · exact hG.decrypts _ _ _

theorem length_of_deriveSubkey {key salt subkey : Bytes} {label : String}
    (h : deriveSubkey P key salt label = some subkey) : salt.length = subkeySaltBytes := by
  by_contra hne
  simp [deriveSubkey, hne] at h

variable {purpose : SubkeyPurpose}

theorem StreamOpener.bind_salted {key salt subkey body plaintext : Bytes} {direction : Direction}
    (hsub : deriveSubkey P key salt (subkeyLabel purpose direction) = some subkey)
    (hbody : 0 < body.length) (hdec : G.decrypt subkey (nonceFor direction 0) body = some plaintext) :
    bind P G key direction (salt ++ (bigEndianBytes counterBytes 0 ++ body)) purpose =
      some (⟨subkey, direction, some 0⟩, plaintext) := by
  have hsalt := length_of_deriveSubkey hsub
  have hcounter := length_bigEndianBytes counterBytes 0
  have hlen : ¬ (salt ++ (bigEndianBytes counterBytes 0 ++ body)).length ≤
      subkeySaltBytes + counterBytes := by
    rw [length_append, length_append, hsalt, hcounter]
    omega
  have hzero := readCounter_append (Nat.zero_le maxCounter) body
  have hopener : FrameOpener.create P key direction salt purpose = some ⟨subkey, direction, none⟩ := by
    rw [FrameOpener.create, hsub, map_some]
  have hopen := FrameOpener.openFrame_of_decrypt (o := ⟨subkey, direction, none⟩)
    (Nat.zero_le maxCounter) (by simp) hbody hdec
  rw [bind, if_neg hlen, drop_left' hsalt, take_left' hsalt, hzero, if_neg (by simp),
    hopener]
  exact hopen

theorem StreamOpener.bind_frameAt (hG : G.Lawful) {key salt : Bytes} {direction : Direction}
    {s : FrameSealer}
    (hs : FrameSealer.create P key direction salt purpose = some s) (plaintext : Bytes) :
    bind P G key direction (s.frameAt G 0 plaintext) purpose = some (⟨s.key, s.direction, some 0⟩, plaintext) := by
  obtain ⟨subkey, hsub, rfl⟩ := map_eq_some_iff.1 hs
  simp only [FrameSealer.frameAt, if_true]
  apply bind_salted hsub
  · rw [hG.length, tagBytes]
    omega
  · exact hG.decrypts _ _ _

theorem openOnce_sealOnce (hG : G.Lawful) {key salt plaintext frame : Bytes}
    {direction : Direction}
    (h : sealOnce P G key direction salt plaintext purpose = some frame) :
    openOnce P G key direction frame purpose = some plaintext := by
  unfold sealOnce at h
  cases hs : FrameSealer.create P key direction salt purpose with
  | none => rw [hs] at h; cases h
  | some s =>
    have hzero : s.counter = 0 := by
      obtain ⟨subkey, -, rfl⟩ := map_eq_some_iff.1 hs
      rfl
    rw [hs] at h
    simp only [FrameSealer.sealFrame, hzero] at h
    cases h
    rw [openOnce, StreamOpener.bind_frameAt hG hs]
    rfl

namespace StreamOpener

theorem receiveAll_append {key : Bytes} {direction : Direction} {o o' : Option FrameOpener}
    {frames more plaintexts : List Bytes} (h : receiveAll P G key direction o frames = some (o', plaintexts)) :
    receiveAll P G key direction o (frames ++ more) =
      (receiveAll P G key direction o' more).map fun r => (r.1, plaintexts ++ r.2) := by
  induction frames generalizing o plaintexts with
  | nil =>
    cases h
    simp
  | cons frame frames ih =>
    rw [receiveAll] at h
    obtain ⟨⟨o₁, p⟩, h₁, h⟩ := bind_eq_some_iff.1 h
    obtain ⟨⟨o₂, ps⟩, h₂, h⟩ := bind_eq_some_iff.1 h
    cases h
    rw [cons_append, receiveAll, h₁]
    simp only [bind_eq_bind, bind_some, ih h₂]
    cases receiveAll P G key direction o' more <;> rfl

theorem receiveAll_bound {key : Bytes} {direction : Direction}
    {o' : Option FrameOpener} {frames plaintexts : List Bytes}
    (h : receiveAll P G key direction (some o) frames = some (o', plaintexts)) : ∃ opener, o' = some opener := by
  induction frames generalizing o plaintexts with
  | nil =>
    cases h
    exact ⟨o, rfl⟩
  | cons frame frames ih =>
    rw [receiveAll] at h
    obtain ⟨⟨o₁, p⟩, -, h⟩ := bind_eq_some_iff.1 h
    obtain ⟨⟨o₂, ps⟩, h₂, h⟩ := bind_eq_some_iff.1 h
    cases h
    exact ih h₂

theorem receiveAll_snoc {key : Bytes} {direction : Direction} {o o' : Option FrameOpener}
    {o'' : FrameOpener} {frames plaintexts : List Bytes} {frame plaintext : Bytes}
    (h : receiveAll P G key direction o frames = some (o', plaintexts))
    (hf : receive P G key direction o' frame = some (o'', plaintext)) :
    receiveAll P G key direction o (frames ++ [frame]) = some (some o'', plaintexts ++ [plaintext]) := by
  rw [receiveAll_append h, receiveAll, hf]
  rfl

theorem receiveAll_later (hG : G.Lawful) {key : Bytes} {direction : Direction} {s : FrameSealer}
    (plaintexts : List Bytes) (highest : Nat) (hmax : highest + plaintexts.length ≤ maxCounter) :
    receiveAll P G key direction (some ⟨s.key, s.direction, some highest⟩)
        (plaintexts.mapIdx fun i p => s.frameAt G (highest + 1 + i) p) =
      some (some ⟨s.key, s.direction, some (highest + plaintexts.length)⟩, plaintexts) := by
  induction plaintexts generalizing highest with
  | nil => rfl
  | cons p ps ih =>
    rw [length_cons] at hmax
    have hopen := FrameOpener.openFrame_body hG (o := ⟨s.key, s.direction, some highest⟩)
      (show highest + 1 ≤ maxCounter by omega) (by simp) p
    have hframe : s.frameAt G (highest + 1 + 0) p = bigEndianBytes counterBytes (highest + 1) ++
        G.encrypt s.key (nonceFor s.direction (highest + 1)) p := by
      rw [FrameSealer.frameAt, if_neg (by omega), nil_append, Nat.add_zero]
    have htail : (fun i p => s.frameAt G (highest + 1 + (i + 1)) p) =
        fun i p => s.frameAt G (highest + 1 + 1 + i) p := by
      funext i p
      rw [show highest + 1 + (i + 1) = highest + 1 + 1 + i by omega]
    rw [mapIdx_cons, hframe, htail, receiveAll, receive, hopen]
    simp only [bind_eq_bind, bind_some, ih (highest + 1) (by omega)]
    rw [length_cons, show highest + 1 + ps.length = highest + (ps.length + 1) by omega]
    rfl

theorem receiveAll_sealed (hG : G.Lawful) {key salt : Bytes} {direction : Direction}
    {s : FrameSealer} (hs : FrameSealer.create P key direction salt .frame = some s)
    (plaintexts : List Bytes) (hmax : plaintexts.length ≤ maxCounter + 1) :
    ∃ o, receiveAll P G key direction none (plaintexts.mapIdx fun i p => s.frameAt G i p) = some (o, plaintexts) := by
  cases plaintexts with
  | nil => exact ⟨none, rfl⟩
  | cons p ps =>
    have hlater := @receiveAll_later P G hG key direction s ps 0
      (by rw [length_cons] at hmax; omega)
    have htail : (fun i p => s.frameAt G (0 + 1 + i) p) = fun i p => s.frameAt G (i + 1) p := by
      funext i p
      rw [show 0 + 1 + i = i + 1 by omega]
    rw [htail] at hlater
    rw [mapIdx_cons, receiveAll, receive, bind_frameAt hG hs]
    simp only [bind_eq_bind, bind_some, hlater]
    exact ⟨_, rfl⟩

end StreamOpener

end Mtmux.Crypto
