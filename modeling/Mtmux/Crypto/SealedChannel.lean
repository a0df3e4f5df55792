import Mtmux.Crypto.Sealers

/-! One direction of a connection under an adversary: arbitrary byte strings are given one
after another to `bind` and then to the opener it returns. -/
namespace Mtmux.Crypto
open List Option

/-- AES-GCM opens what was encrypted under the key and nonce, and nothing else. -/
structure Gcm.Ideal (G : Gcm) (w : Sealers) : Prop where
  opens : ∀ e ∈ w.encryptions, G.decrypt e.key e.iv (G.encrypt e.key e.iv e.data) = some e.data
  only : ∀ {key iv sealed plaintext : Bytes}, G.decrypt key iv sealed = some plaintext →
    ∃ e ∈ w.encryptions, e.key = key ∧ e.iv = iv ∧ e.data = plaintext ∧
      sealed = G.encrypt key iv plaintext
  length : ∀ key iv data, (G.encrypt key iv data).length = data.length + tagBytes

variable (P : Primitives) (G : Gcm)

/-- `open`, with the state it leaves: `highest` moves once the frame is known good. -/
def FrameOpener.hear (o : FrameOpener) (frame : Bytes) : FrameOpener × Option Bytes :=
  if frame.length ≤ counterBytes then (o, none)
  else
    let counter := readCounter frame
    if ∃ highest ∈ o.highest, counter ≤ highest then (o, none)
    else
      match G.decrypt o.key (nonceFor o.direction counter) (frame.drop counterBytes) with
      | none => (o, none)
      | some opened => ({ o with highest := some counter }, some opened)

namespace StreamOpener

/-- A receiver is bound by the first frame that `bind` takes. -/
def hear (key : Bytes) (direction : Direction) (purpose : SubkeyPurpose) :
    Option FrameOpener → Bytes → Option FrameOpener × Option Bytes
  | none, frame =>
    match bind P G key direction frame purpose with
    | none => (none, none)
    | some (opener, plaintext) => (some opener, some plaintext)
  | some opener, frame => (some (opener.hear G frame).1, (opener.hear G frame).2)

/-- What is accepted, each plaintext with the frame it came in. -/
def hearAll (key : Bytes) (direction : Direction) (purpose : SubkeyPurpose) :
    Option FrameOpener → List Bytes → List (Bytes × Bytes)
  | _, [] => []
  | o, frame :: frames =>
    match hear P G key direction purpose o frame with
    | (o, none) => hearAll key direction purpose o frames
    | (o, some plaintext) => (frame, plaintext) :: hearAll key direction purpose o frames

end StreamOpener

namespace Sealing

def frames (g : Sealing) : List (Bytes × Bytes) :=
  g.plaintexts.mapIdx fun counter plaintext => (g.sealer.frameAt G counter plaintext, plaintext)

def Delivers (g : Sealing) (accepted : List (Bytes × Bytes)) : Prop :=
  accepted.Sublist (g.frames G) ∧ ∀ first ∈ accepted.head?, (g.frames G).head? = some first

def receive (g : Sealing) (frames : List Bytes) : List (Bytes × Bytes) :=
  StreamOpener.hearAll P G g.sessionKey g.sealer.direction g.purpose none frames

end Sealing

def Sealers.opening (w : Sealers) (key : Bytes) (direction : Direction) (purpose : SubkeyPurpose)
    (e : Encryption) : Option Bytes :=
  w.sealings[e.sealer]?.bind fun g =>
    if e.counter = 0 ∧ g.sessionKey = key ∧ g.sealer.direction = direction ∧ g.purpose = purpose then
      some (g.sealer.frameAt G 0 e.data)
    else none

def Sealers.openings (w : Sealers) (key : Bytes) (direction : Direction) (purpose : SubkeyPurpose) :
    List Bytes :=
  w.encryptions.filterMap (w.opening G key direction purpose)

def Sealers.OwnFirst (w : Sealers) (g : Sealing) (frames : List Bytes) : Prop :=
  ∀ frame ∈ frames.find? (· ∈ w.openings G g.sessionKey g.sealer.direction g.purpose),
    (g.frames G).head?.map Prod.fst = some frame

variable {P G}

theorem FrameOpener.hear_eq (o : FrameOpener) (frame : Bytes) :
    o.hear G frame = match o.openFrame G frame with
      | none => (o, none)
      | some (o', plaintext) => (o', some plaintext) := by
  simp only [hear, openFrame]
  split
  · rfl
  · split
    · rfl
    · cases G.decrypt o.key (nonceFor o.direction (readCounter frame))
        (frame.drop counterBytes) <;> rfl

theorem StreamOpener.hear_rejected {key : Bytes} {direction : Direction} {purpose : SubkeyPurpose}
    {o : Option FrameOpener} {frame : Bytes} (h : (hear P G key direction purpose o frame).2 = none) :
    (hear P G key direction purpose o frame).1 = o := by
  cases o with
  | none =>
    simp only [hear] at h ⊢
    cases hb : bind P G key direction frame purpose with
    | none => rfl
    | some r =>
      rw [hb] at h
      cases h
  | some o =>
    simp only [hear, FrameOpener.hear_eq] at h ⊢
    cases ho : o.openFrame G frame with
    | none => rfl
    | some r =>
      rw [ho] at h
      cases h

namespace Sealing

variable {g : Sealing}

theorem frames_getElem {counter : Nat} {plaintext : Bytes} (h : g.plaintexts[counter]? = some plaintext) :
    (g.frames G)[counter]? = some (g.sealer.frameAt G counter plaintext, plaintext) := by
  rw [frames, List.getElem?_mapIdx, h]
  rfl

theorem frames_given {counter : Nat} {sealed : Bytes × Bytes} (h : (g.frames G)[counter]? = some sealed) :
    ∃ plaintext, g.plaintexts[counter]? = some plaintext ∧
      sealed = (g.sealer.frameAt G counter plaintext, plaintext) := by
  rw [frames, List.getElem?_mapIdx] at h
  obtain ⟨plaintext, hgiven, heq⟩ := Option.map_eq_some_iff.1 h
  exact ⟨plaintext, hgiven, heq.symm⟩

theorem frames_plaintexts : (g.frames G).map Prod.snd = g.plaintexts := by
  apply ext_getElem?
  intro counter
  rw [frames, List.getElem?_map, List.getElem?_mapIdx, Option.map_map]
  cases g.plaintexts[counter]? <;> rfl

end Sealing

namespace Sealers

section channel

variable {w : Sealers} {salts : List Bytes} (hw : w.Sound P salts) (hP : P.Separating)
  (hG : G.Ideal w) {key : Bytes} {direction : Direction} {purpose : SubkeyPurpose}

include hw

variable {e : Encryption} {g : Sealing} {i : Nat}

theorem opening_unique {g' : Sealing}
    (hg : w.sealings[e.sealer]? = some g) (hg' : w.sealings[i]? = some g') {p p' : Bytes}
    (heq : g.sealer.frameAt G 0 p = g'.sealer.frameAt G 0 p') : g = g' := by
  have hsub := (hw.each hg).subkey
  have hsub' := (hw.each hg').subkey
  have hlen : g.sealer.salt.length = g'.sealer.salt.length := by
    rw [length_of_deriveSubkey hsub, length_of_deriveSubkey hsub']
  rw [FrameSealer.frameAt, FrameSealer.frameAt, if_pos rfl, if_pos rfl] at heq
  have hsame := hw.apart hg hg' (append_inj heq hlen).1
  rw [hsame, hg'] at hg
  exact (Option.some.inj hg).symm

include hG

theorem bind_made (he : e ∈ w.encryptions) (hg : w.sealings[e.sealer]? = some g) (hzero : e.counter = 0) :
    StreamOpener.bind P G g.sessionKey g.sealer.direction (g.sealer.frameAt G 0 e.data) g.purpose =
      some (⟨g.sealer.key, g.sealer.direction, some 0⟩, e.data) := by
  obtain ⟨g', hg', hmade⟩ := hw.made e he
  rw [hg] at hg'
  cases hg'
  have hdec := hG.opens e he
  rw [Encryption.iv, hzero, hmade.key, hmade.direction] at hdec
  have hbody : 0 < (G.encrypt g.sealer.key (nonceFor g.sealer.direction 0) e.data).length := by
    rw [hG.length, tagBytes]
    omega
  rw [FrameSealer.frameAt, if_pos rfl]
  exact StreamOpener.bind_salted (hw.each hg).subkey hbody hdec

variable {frame : Bytes}

theorem bind_opening (h : frame ∈ w.openings G key direction purpose) :
    ∃ r, StreamOpener.bind P G key direction frame purpose = some r := by
  obtain ⟨e, he, hopening⟩ := mem_filterMap.1 h
  obtain ⟨g, hg, hif⟩ := bind_eq_some_iff.1 hopening
  split at hif
  · rename_i hmatch
    obtain ⟨hzero, rfl, rfl, rfl⟩ := hmatch
    rw [← Option.some.inj hif]
    exact ⟨_, bind_made hw hG he hg hzero⟩
  · cases hif

theorem openFrame_made (he : e ∈ w.encryptions)
    (hg : w.sealings[e.sealer]? = some g) {highest : Nat} (hlater : highest < e.counter) :
    FrameOpener.openFrame G ⟨g.sealer.key, g.sealer.direction, some highest⟩ (g.sealer.frameAt G e.counter e.data) =
      some (⟨g.sealer.key, g.sealer.direction, some e.counter⟩, e.data) := by
  obtain ⟨g', hg', hmade⟩ := hw.made e he
  rw [hg] at hg'
  cases hg'
  have hdec := hG.opens e he
  rw [Encryption.iv, hmade.key, hmade.direction] at hdec
  rw [FrameSealer.frameAt, if_neg (by omega), nil_append]
  refine FrameOpener.openFrame_of_decrypt (hw.counter_le he) ?_ ?_ hdec
  · intro n hn
    rw [← Option.some.inj hn]
    exact hlater
  · rw [hG.length, tagBytes]
    omega

theorem hearAll_later (hall : w.Accounted) (hg : w.sealings[i]? = some g)
    (hdone : g.pending = []) (later : List (Bytes × Bytes)) (highest : Nat)
    (hdrop : (g.frames G).drop (highest + 1) = later) : StreamOpener.hearAll P G key direction purpose
      (some ⟨g.sealer.key, g.sealer.direction, some highest⟩) (later.map Prod.fst) = later := by
  induction later generalizing highest with
  | nil => rfl
  | cons first later ih =>
    have hget : (g.frames G)[highest + 1]? = some first := by
      rw [← List.head?_drop, hdrop, List.head?_cons]
    obtain ⟨plaintext, hgiven, rfl⟩ := Sealing.frames_given hget
    have hnext : (g.frames G).drop (highest + 1 + 1) = later := by
      rw [← drop_drop, hdrop]
      rfl
    obtain ⟨e, he, rfl, hcounter, rfl⟩ := (hall hg hgiven).resolve_left (by simp [hdone])
    have hopen := openFrame_made hw hG he hg (show highest < e.counter by omega)
    rw [hcounter] at hopen
    simp only [map_cons, StreamOpener.hearAll, StreamOpener.hear, FrameOpener.hear_eq, hopen]
    rw [ih (highest + 1) hnext]

theorem receive_frames (hall : w.Accounted) (hg : w.sealings[i]? = some g)
    (hdone : g.pending = []) : g.receive P G ((g.frames G).map Prod.fst) = g.frames G := by
  cases hf : g.frames G with
  | nil => rfl
  | cons first later =>
    have hget : (g.frames G)[0]? = some first := by rw [hf, List.getElem?_cons_zero]
    obtain ⟨plaintext, hgiven, rfl⟩ := Sealing.frames_given hget
    obtain ⟨e, he, rfl, hcounter, rfl⟩ := (hall hg hgiven).resolve_left (by simp [hdone])
    have hlater : StreamOpener.hearAll P G g.sessionKey g.sealer.direction g.purpose
        (some ⟨g.sealer.key, g.sealer.direction, some 0⟩) (later.map Prod.fst) = later :=
      hearAll_later hw hG hall hg hdone later 0 (by rw [hf]; rfl)
    rw [Sealing.receive, map_cons, StreamOpener.hearAll, StreamOpener.hear,
      bind_made hw hG he hg hcounter]
    simp only [hlater]

include hP

variable {plaintext : Bytes}

theorem decrypted (hg : w.sealings[i]? = some g) {counter : Nat} (hmax : counter ≤ maxCounter) {sealed : Bytes}
    (h : G.decrypt g.sealer.key (nonceFor g.sealer.direction counter) sealed = some plaintext) :
    ∃ e ∈ w.encryptions, e.sealer = i ∧ e.counter = counter ∧ e.data = plaintext ∧
      g.plaintexts[counter]? = some plaintext ∧
      sealed = G.encrypt g.sealer.key (nonceFor g.sealer.direction counter) plaintext := by
  obtain ⟨e, he, hkey, hiv, hdata, hsealed⟩ := hG.only h
  obtain ⟨g', hg', hmade⟩ := hw.made e he
  have hsealer : e.sealer = i := hw.sealer_unique hP hg' hg (hmade.key.symm.trans hkey)
  rw [hsealer, hg] at hg'
  cases hg'
  have hcounter : e.counter = counter := (nonceFor_inj (hw.counter_le he) hmax hiv).2
  have hgiven := hmade.given
  rw [hcounter, hdata] at hgiven
  exact ⟨e, he, hsealer, hcounter, hdata, hgiven, hsealed⟩

theorem opened (hg : w.sealings[i]? = some g) {highest : Nat} {o : FrameOpener}
    (h : FrameOpener.openFrame G ⟨g.sealer.key, g.sealer.direction, some highest⟩ frame = some (o, plaintext)) :
    ∃ counter, highest < counter ∧ (g.frames G)[counter]? = some (frame, plaintext) ∧
      o = ⟨g.sealer.key, g.sealer.direction, some counter⟩ := by
  unfold FrameOpener.openFrame at h
  split at h
  · cases h
  · rename_i hlong
    split at h
    · cases h
    · rename_i hfresh
      obtain ⟨opened, hdec, heq⟩ := map_eq_some_iff.1 h
      cases heq
      obtain ⟨hmax, hsplit⟩ := readCounter_spec (Nat.le_of_lt (Nat.lt_of_not_le hlong))
      obtain ⟨e, -, -, -, -, hgiven, hbody⟩ := decrypted hw hP hG hg hmax hdec
      have hlater : highest < readCounter frame :=
        Nat.lt_of_not_le fun hle => hfresh ⟨highest, rfl, hle⟩
      have hframe : frame = g.sealer.frameAt G (readCounter frame) plaintext := by
        rw [FrameSealer.frameAt, if_neg (by omega), nil_append, ← hbody]
        exact hsplit
      refine ⟨readCounter frame, hlater, ?_, rfl⟩
      rw [Sealing.frames_getElem hgiven, ← hframe]

theorem bound {o : FrameOpener} (h : StreamOpener.bind P G key direction frame purpose = some (o, plaintext)) :
    ∃ e ∈ w.encryptions, ∃ g, w.sealings[e.sealer]? = some g ∧ w.opening G key direction purpose e = some frame ∧
      (g.frames G)[0]? = some (frame, plaintext) ∧ o = ⟨g.sealer.key, g.sealer.direction, some 0⟩ := by
  unfold StreamOpener.bind at h
  split at h
  · cases h
  · rename_i hlong
    split at h
    · cases h
    · rename_i hcounter
      have hzero : readCounter (frame.drop subkeySaltBytes) = 0 := not_not.1 hcounter
      split at h
      · cases h
      · rename_i opener hopener
        obtain ⟨subkey, hsub, rfl⟩ := map_eq_some_iff.1 hopener
        unfold FrameOpener.openFrame at h
        split at h
        · cases h
        · rename_i hbody
          rw [if_neg (by simp), hzero] at h
          obtain ⟨opened, hdec, heq⟩ := map_eq_some_iff.1 h
          cases heq
          obtain ⟨e, he, hkey, -, hdata, -⟩ := hG.only hdec
          obtain ⟨g, hg, hmade⟩ := hw.made e he
          -- the subkey is the sealer's, so is what it was derived from
          have hsame := (hw.each hg).subkey
          rw [← hmade.key, hkey] at hsame
          obtain ⟨hsession, hsalt, hlabel⟩ := hP.subkey hsame hsub
          obtain ⟨hpurpose, hdirection⟩ := subkeyLabel_inj hlabel
          have hgkey : g.sealer.key = subkey := hmade.key.symm.trans hkey
          rw [← hgkey, ← hdirection] at hdec
          obtain ⟨e₀, he₀, hsealer₀, hcounter₀, hdata₀, hgiven, hsealed⟩ :=
            decrypted hw hP hG hg (Nat.zero_le maxCounter) hdec
          have hsplit := (readCounter_spec (Nat.le_of_lt (Nat.lt_of_not_le hbody))).2
          have hframe : frame = g.sealer.frameAt G 0 plaintext := by
            rw [FrameSealer.frameAt, if_pos rfl, hsalt, ← hsealed]
            rw [hzero] at hsplit
            rw [← hsplit, take_append_drop]
          refine ⟨e₀, he₀, g, hsealer₀ ▸ hg, ?_, ?_, ?_⟩
          · rw [opening, hsealer₀, hg, bind_some, hdata₀, hframe]
            exact if_pos ⟨hcounter₀, hsession, hdirection, hpurpose⟩
          · rw [Sealing.frames_getElem hgiven, ← hframe]
          · rw [hgkey, hdirection]

theorem hearAll_bound (hg : w.sealings[i]? = some g) (frames : List Bytes) (highest : Nat) :
    (StreamOpener.hearAll P G key direction purpose
      (some ⟨g.sealer.key, g.sealer.direction, some highest⟩) frames).Sublist ((g.frames G).drop (highest + 1)) := by
  induction frames generalizing highest with
  | nil => exact nil_sublist _
  | cons frame frames ih =>
    simp only [StreamOpener.hearAll, StreamOpener.hear, FrameOpener.hear_eq]
    cases ho : FrameOpener.openFrame G ⟨g.sealer.key, g.sealer.direction, some highest⟩ frame with
    | none => exact ih highest
    | some r =>
      obtain ⟨counter, hlater, hget, hr⟩ := opened hw hP hG hg (show _ = some (r.1, r.2) from ho)
      obtain ⟨hlt, hget'⟩ := List.getElem?_eq_some_iff.1 hget
      have hdrop : (g.frames G).drop counter = (frame, r.2) :: (g.frames G).drop (counter + 1) := by
        rw [drop_eq_getElem_cons hlt, hget']
      simp only [hr]
      have hcons := (ih counter).cons_cons (frame, r.2)
      rw [← hdrop] at hcons
      exact hcons.trans (drop_sublist_drop_left _ hlater)

theorem hearAll_cases (key : Bytes) (direction : Direction) (purpose : SubkeyPurpose) (frames : List Bytes) :
    frames.find? (· ∈ w.openings G key direction purpose) = none ∧
        StreamOpener.hearAll P G key direction purpose none frames = [] ∨
      ∃ e ∈ w.encryptions, ∃ g frame plaintext, w.sealings[e.sealer]? = some g ∧
        frames.find? (· ∈ w.openings G key direction purpose) = some frame ∧
        w.opening G key direction purpose e = some frame ∧ (g.frames G)[0]? = some (frame, plaintext) ∧
        (StreamOpener.hearAll P G key direction purpose none frames).head? = some (frame, plaintext) ∧
        (StreamOpener.hearAll P G key direction purpose none frames).Sublist (g.frames G) := by
  induction frames with
  | nil => exact Or.inl ⟨rfl, rfl⟩
  | cons frame frames ih =>
    rw [List.find?_cons]
    simp only [StreamOpener.hearAll, StreamOpener.hear]
    cases hb : StreamOpener.bind P G key direction frame purpose with
    | none =>
      have hnot : frame ∉ w.openings G key direction purpose := by
        intro hmem
        obtain ⟨r, hr⟩ := bind_opening hw hG hmem
        rw [hb] at hr
        cases hr
      simp only [hnot, decide_false]
      exact ih
    | some r =>
      obtain ⟨e, he, g, hg, hopening, hget, hr⟩ :=
        bound hw hP hG (show _ = some (r.1, r.2) from hb)
      have hmem : frame ∈ w.openings G key direction purpose :=
        mem_filterMap.2 ⟨e, he, hopening⟩
      have hlater : (StreamOpener.hearAll P G key direction purpose (some r.1) frames).Sublist
          ((g.frames G).drop 1) := by
        rw [hr]
        exact hearAll_bound hw hP hG hg frames 0
      obtain ⟨hlt, hfirst⟩ := List.getElem?_eq_some_iff.1 hget
      have hframes : g.frames G = (frame, r.2) :: (g.frames G).drop 1 := by
        rw [← hfirst]
        exact (drop_zero (l := g.frames G)).symm.trans (drop_eq_getElem_cons hlt)
      simp only [hmem, decide_true]
      refine Or.inr ⟨e, he, g, frame, r.2, hg, rfl, hopening, hget, rfl, ?_⟩
      rw [hframes]
      exact hlater.cons_cons (frame, r.2)

end channel

theorem plaintexts_of_delivers {g : Sealing} {accepted : List (Bytes × Bytes)} (h : g.Delivers G accepted) :
    (accepted.map Prod.snd).Sublist g.plaintexts ∧
      ∀ first ∈ (accepted.map Prod.snd).head?, g.plaintexts.head? = some first := by
  obtain ⟨hsub, hfirst⟩ := h
  have hplain := Sealing.frames_plaintexts (G := G) (g := g)
  constructor
  · rw [← hplain]
    exact hsub.map Prod.snd
  · intro first hmem
    rw [List.head?_map] at hmem
    obtain ⟨sealed, hsealed, rfl⟩ := map_eq_some_iff.1 hmem
    rw [← hplain, List.head?_map, hfirst sealed hsealed]
    rfl

theorem delivers_iff_ownFirst {w : Sealers} {salts : List Bytes} (hw : w.Sound P salts)
    (hP : P.Separating) (hG : G.Ideal w) {i : Nat} {g : Sealing} (hg : w.sealings[i]? = some g) (frames : List Bytes) :
    g.Delivers G (g.receive P G frames) ↔ w.OwnFirst G g frames := by
  rw [Sealing.receive, OwnFirst]
  cases hearAll_cases hw hP hG g.sessionKey g.sealer.direction g.purpose frames with
  | inl hnone =>
    rw [hnone.1, hnone.2]
    constructor
    · intro _ frame hframe
      cases hframe
    · intro _
      exact ⟨nil_sublist _, fun first hfirst => absurd hfirst (by simp)⟩
  | inr hfirst =>
    obtain ⟨e, -, g', frame, plaintext, hg', hfind, -, hget, hhead, hsub⟩ := hfirst
    rw [hfind]
    constructor
    · intro hdelivers frame' hframe'
      cases hframe'
      rw [hdelivers.2 (frame, plaintext) hhead]
      rfl
    · intro hown
      have hmap := hown frame rfl
      obtain ⟨first, hfirst, rfl⟩ := map_eq_some_iff.1 hmap
      rw [List.head?_eq_getElem?] at hfirst
      obtain ⟨p, -, rfl⟩ := Sealing.frames_given hfirst
      obtain ⟨p', -, heq⟩ := Sealing.frames_given hget
      have hsame : g' = g := opening_unique hw hg' hg (Prod.mk.inj heq).1.symm
      refine ⟨hsame ▸ hsub, ?_⟩
      intro d hd
      rw [hhead] at hd
      rw [List.head?_eq_getElem?, ← hsame, hget]
      exact hd

/-- The sealed channel of every sealer, whatever is fed to its receiver. -/
theorem sealed_channel (hP : P.Separating) (events : List SealEvent)
    (hsalts : (saltsOf events).Nodup) (hG : G.Ideal (run P events)) {i : Nat} {g : Sealing}
    (hg : (run P events).sealings[i]? = some g) : (∀ frames : List Bytes,
      (g.Delivers G (g.receive P G frames) ↔ (run P events).OwnFirst G g frames) ∧ ((run P events).OwnFirst G g frames →
        ((g.receive P G frames).map Prod.snd).Sublist g.plaintexts ∧
        ∀ first ∈ ((g.receive P G frames).map Prod.snd).head?, g.plaintexts.head? = some first)) ∧
    (∀ o frame, (StreamOpener.hear P G g.sessionKey g.sealer.direction g.purpose o frame).2 = none →
      (StreamOpener.hear P G g.sessionKey g.sealer.direction g.purpose o frame).1 = o) ∧
    (g.pending = [] → g.receive P G ((g.frames G).map Prod.fst) = g.frames G) := by
  have hw := sound_run (P := P) events hsalts
  refine ⟨?_, ?_, ?_⟩
  · intro frames
    have hiff := delivers_iff_ownFirst hw hP hG hg frames
    exact ⟨hiff, fun hown => plaintexts_of_delivers (hiff.2 hown)⟩
  · intro o frame
    exact StreamOpener.hear_rejected
  · exact receive_frames hw hG (accounted_run events hsalts) hg

/-- AES-GCM that keeps the ciphertexts it made. -/
def idealGcm (w : Sealers) : Gcm where
  encrypt key iv data := data ++ (iv ++ key ++ List.replicate tagBytes 0).take tagBytes
  decrypt key iv sealed :=
    (w.encryptions.find? fun e => e.key = key ∧ e.iv = iv ∧
      e.data ++ (iv ++ key ++ List.replicate tagBytes 0).take tagBytes = sealed).map
      Encryption.data

theorem idealGcm_ideal (w : Sealers) : (idealGcm w).Ideal w := by
  refine ⟨?_, ?_, ?_⟩
  · intro e he
    cases hfind : w.encryptions.find? (fun e' => e'.key = e.key ∧ e'.iv = e.iv ∧
        e'.data ++ (e.iv ++ e.key ++ List.replicate tagBytes 0).take tagBytes =
          (idealGcm w).encrypt e.key e.iv e.data) with
    | none =>
      have hnot := List.find?_eq_none.1 hfind e he
      simp [idealGcm] at hnot
    | some e' =>
      have hsame := List.find?_some hfind
      have hdata := append_cancel_right (of_decide_eq_true hsame).2.2
      calc (idealGcm w).decrypt e.key e.iv ((idealGcm w).encrypt e.key e.iv e.data)
          = some e'.data := congrArg (Option.map Encryption.data) hfind
        _ = some e.data := by rw [hdata]
  · intro key iv sealed plaintext h
    obtain ⟨e, hfind, hdata⟩ := map_eq_some_iff.1 h
    have hsame := List.find?_some hfind
    simp only [decide_eq_true_eq] at hsame
    refine ⟨e, mem_of_find?_eq_some hfind, hsame.1, hsame.2.1, hdata, ?_⟩
    rw [← hsame.2.2, hdata]
    rfl
  · intro key iv data
    have hlong : tagBytes ≤ (iv ++ key ++ List.replicate tagBytes 0).length := by
      rw [length_append, length_replicate]
      omega
    rw [idealGcm, length_append, length_take_of_le hlong]

theorem reconnected_sealed_channel : ∃ g, (run plainPrimitives reconnected).sealings[1]? = some g ∧
      g.receive plainPrimitives (idealGcm (run plainPrimitives reconnected))
        ((g.frames (idealGcm (run plainPrimitives reconnected))).map Prod.fst) =
          g.frames (idealGcm (run plainPrimitives reconnected)) := by
  have hlen : 1 < (run plainPrimitives reconnected).sealings.length := by decide +kernel
  have hdone : ∀ g ∈ (run plainPrimitives reconnected).sealings[1]?, g.pending = [] := by
    decide +kernel
  have hg := List.getElem?_eq_getElem hlen
  exact ⟨_, hg, (sealed_channel plainPrimitives_separating reconnected (by decide)
    (idealGcm_ideal _) hg).2.2 (hdone _ hg)⟩

/-- The frames of the first connection, fed to a receiver of the second. -/
def replayed (w : Sealers) : Option (List Bytes × List Bytes) := do
  let old ← w.sealings[0]?
  let fresh ← w.sealings[1]?
  return ((fresh.receive plainPrimitives (idealGcm w) ((old.frames (idealGcm w)).map Prod.fst)).map
    Prod.snd, fresh.plaintexts)

/-- A connection recorded earlier is accepted in place of a new one of the same pairing. -/
theorem old_connection_replays : (saltsOf reconnected).Nodup ∧ plainPrimitives.Separating ∧
      (idealGcm (run plainPrimitives reconnected)).Ideal (run plainPrimitives reconnected) ∧
      replayed (run plainPrimitives reconnected) = some ([[10], [11]], [[12]]) ∧
      ¬ [[10], [11]].Sublist ([[12]] : List Bytes) :=
  ⟨by decide, plainPrimitives_separating, idealGcm_ideal _, by decide +kernel, by decide⟩

end Sealers
end Mtmux.Crypto
