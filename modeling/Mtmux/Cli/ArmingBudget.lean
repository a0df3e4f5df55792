import Mtmux.Cli.ArmingPlace

/-! Does arming go on until its budget is spent, and no longer? -/
namespace Mtmux.Cli
open OrderedMap Machine List

def ArmingOutput.isPaired : ArmingOutput → Bool
  | .paired _ => true
  | _ => false

/-- A completed pairing and a human's word give both halves a fresh budget. -/
def resets (x : ArmingEntry) : Bool :=
  (match x.event with
    | .rearm => true
    | _ => false) || x.out.any ArmingOutput.isPaired

def wrongSince (entries : List ArmingEntry) : Nat :=
  entries.foldl (fun n x => if resets x then 0 else n + (wrongCode x).toNat) 0

def idleSince (entries : List ArmingEntry) : Bool :=
  entries.foldl (fun called x => !resets x && (called || x.out.contains .idle)) false

namespace ArmingState
variable {s t : ArmingState} {opts : HostingOptions} {half : Half}

/-- No call of `hostPairing`, no timer and no handler is outstanding. -/
structure AtRest (s : ArmingState) : Prop where
  calls : s.calls.keys = []
  pending : s.pending.keys = []
  handlers : s.handlers.keys = []
  heard : ∀ id p, s.hosted.get id = some p → p.settled.isSome = true → p.heard = true

theorem atRest_of_entries (hcalls : s.calls.keys = [] ∧ s.pending.keys = [] ∧ s.handlers.keys = [])
    (hheard : ∀ x ∈ s.hosted.entries, x.2.settled.isSome = true → x.2.heard = true) : s.AtRest where
  calls := hcalls.1
  pending := hcalls.2.1
  handlers := hcalls.2.2
  heard id p hp := hheard (id, p) ((get_eq_some _ _ _).1 hp)

def HasCode (s : ArmingState) (half : Half) : Prop :=
  ∃ id p, s.live half = some id ∧ s.hosted.get id = some p ∧ p.standing = true

theorem Orderly.at_rest (h : s.Orderly) (hrest : s.AtRest) (half : Half) :
    s.HasCode half ∨ s.Exhausted half ∧ s.Placed half none := by
  obtain ⟨place, hplaced, hfunded⟩ := h.placed half
  cases place with
  | none => exact .inr ⟨hfunded, hplaced⟩
  | some q =>
    have hhas := (hplaced.has q).2 rfl
    cases q with
    | calling c =>
      obtain ⟨d, hd, -⟩ := hhas
      have hmem := (s.calls.mem_keys c).2 ⟨d, hd⟩
      rw [hrest.calls] at hmem
      cases hmem
    | waiting i =>
      obtain ⟨d, hd, -⟩ := hhas
      have hmem := (s.pending.mem_keys i).2 ⟨d, hd⟩
      rw [hrest.pending] at hmem
      cases hmem
    | finishing id =>
      obtain ⟨stage, hstage, -⟩ := hhas
      have hmem := (s.handlers.mem_keys id).2 ⟨stage, hstage⟩
      rw [hrest.handlers] at hmem
      cases hmem
    | shown id =>
      obtain ⟨p, hp, hhalf, hround, hheard⟩ := hhas
      refine .inl ⟨id, p, hplaced.live, hp, ?_⟩
      have hopen : p.settled = none := by
        by_contra hsettled
        have hlater := hrest.heard id p hp (Option.isSome_iff_ne_none.2 hsettled)
        rw [hheard] at hlater
        cases hlater
      have hcancelled := (h.bounded.unsettled id p hp hopen).2.2
      simp [HostedPairing.standing, hopen, hcancelled]

theorem armRound_calling (s : ArmingState) (cause : ArmCause) : (s.armRound cause).1.Has .typed (.calling s.next) :=
  ⟨⟨.typed, s.round, .whole s.next cause⟩, by simp [armRound, armHalf, andThen, get_set],
    rfl, rfl⟩

theorem Placed.idle {q : HalfPlace} (h : s.Placed half none) : ¬ s.Has half q :=
  fun hq => nomatch (h.has q).1 hq

variable {e : ArmingEvent}

theorem resets_of (he : e ≠ .rearm) (hout : ∀ o ∈ (s.step opts e).2, ∀ id, o ≠ .paired id) :
    resets ((armingMachine opts).entry s e) = false := by
  have hpaired : (s.step opts e).2.any ArmingOutput.isPaired = false := by
    rw [any_eq_false]
    intro o ho
    cases o with
    | paired id => exact absurd rfl (hout _ ho id)
    | _ => simp [ArmingOutput.isPaired]
  change (_ || (s.step opts e).2.any ArmingOutput.isPaired) = false
  rw [hpaired, Bool.or_false]
  cases e with
  | rearm => exact absurd rfl he
  | _ => rfl

section Outputs
variable {half : Half} {myRound : Nat} {err : Option PairingErrorKind} {jitter : ℚ} {o : ArmingOutput}

theorem cancelLive_out (h : o ∈ (s.cancelLive half).2) : ∃ id, o = .cancelled id := by
  unfold cancelLive at h
  split at h
  · cases h
  · unfold cancel at h
    split at h
    · cases h
    · split at h
      · cases h
      · exact ⟨_, mem_singleton.1 h⟩

theorem scheduleRearm_out {round delayMs : Nat} {reason : RearmReason}
    (h : o ∈ (s.scheduleRearm half round reason delayMs).2) : o = .hostPairing half := by
  unfold scheduleRearm at h
  split at h
  · exact mem_singleton.1 h
  · cases h

theorem failed_out (h : o ∈ (s.failed half myRound err jitter).2) :
    (∃ warning wrong delayMs, o = .warned half warning wrong delayMs) ∨ o = .hostPairing half ∨ o = .idle := by
  unfold failed at h
  split at h
  · cases h
  · simp only [andThen, mem_append, mem_map] at h
    obtain ⟨warning, -, rfl⟩ | h := h
    · exact .inl ⟨warning, _, _, rfl⟩
    · split at h
      · exact .inr (.inl (scheduleRearm_out h))
      · split at h
        · exact .inr (.inr (mem_singleton.1 h))
        · cases h

end Outputs

theorem hear_not_paired (s : ArmingState) (id : Nat) (p : HostedPairing) (jitter : ℚ) (i : Nat) :
    ArmingOutput.paired i ∉ (s.hear id p jitter).2 := by
  intro h
  unfold hear at h
  split at h
  · unfold paired at h
    dsimp only at h
    split at h
    · cases h
    · simp only [andThen, mem_append] at h
      obtain h | h := h
      · obtain ⟨j, heq⟩ := cancelLive_out h
        cases heq
      · cases mem_singleton.1 h
  · obtain ⟨warning, wrong, delayMs, heq⟩ | heq | heq := failed_out h
    · cases heq
    · cases heq
    · cases heq
  · cases h

theorem Orderly.idle_step (h : s.Orderly) (heffect : Effect s opts e) (hfree : ∀ half, (s.step opts e).1.Placed half none) :
    resets ((armingMachine opts).entry s e) = false ∧ ((∀ half, s.Placed half none) ∨ .idle ∈ (s.step opts e).2) := by
  cases heffect with
  | same hbounded halike hround hcodes hout hguess hrearm =>
    exact ⟨resets_of hrearm fun o ho id => (hout o ho .typed id).2,
      .inl fun half => (hfree half).alike (halike half).symm⟩
  | @settles id p outcome hp hopen =>
    refine ⟨resets_of (by simp) ?_, .inl fun half => ?_⟩
    · intro o ho i
      simp only [ArmingState.step, hp, hopen, Option.isSome_none, Bool.false_eq_true, if_false] at ho
      cases outcome with
      | ok result =>
        rw [mem_singleton.1 ho]
        simp
      | error failure => cases ho
    · have hpost := hfree half
      rw [step_settles hp hopen] at hpost
      exact hpost.alike (alike_settled hp outcome half).symm
  | @shows call c code hc hround =>
    have hlive := (hfree c.half).live
    simp only [ArmingState.step, hc] at hlive
    rw [ArmingState.answers_some] at hlive
    simp at hlive
  | @retries call c myRound reason hc hround horigin =>
    have hagain : _ ∧ ∃ q, (s.answers opts call c none).1.Has c.half q := h.answers_again hc hround horigin
    obtain ⟨-, q, hq⟩ := hagain
    simp only [ArmingState.step, hc] at hfree
    exact absurd hq (hfree c.half).idle
  | @ends id p jitter hp hheard hsettled hround =>
    rw [step_hears opts hp hheard hsettled] at hfree
    refine ⟨resets_of (by simp) ?_, .inr ?_⟩
    · intro o ho i heq
      rw [step_hears opts hp hheard hsettled, heq] at ho
      exact hear_not_paired s id p jitter i ho
    · rw [step_hears opts hp hheard hsettled]
      obtain ⟨outcome, houtcome⟩ := Option.isSome_iff_exists.1 hsettled
      cases outcome with
      | ok result =>
        have hhas : (s.hear id p jitter).1.Has .typed (.finishing id) := hear_paired_finishing hp houtcome hround jitter
        exact absurd hhas (hfree .typed).idle
      | error failure =>
        obtain ⟨reason, warned, hhear, -⟩ := hear_charged id jitter houtcome hround
        rw [hhear] at hfree ⊢
        simp only [andThen, mem_append] at hfree ⊢
        cases hdecided : (s.decided p failure jitter).rearm with
        | true =>
          simp only [hdecided, if_true] at hfree
          obtain ⟨new, hadds⟩ := (h.bounded.charged hp houtcome jitter).adds_scheduleRearm
            p.half hround reason (s.decided p failure jitter).delayMs
          exact absurd ((hadds.has p.half new).2 (.inl ⟨rfl, rfl⟩)) (hfree p.half).idle
        | false =>
          simp only [hdecided, Bool.false_eq_true, if_false] at hfree ⊢
          refine .inr ?_
          rw [(hfree .typed).live, (hfree .scan).live]
          simp
  | @completes id jitter hstage hfinishing =>
    simp only [ArmingState.step, hstage] at hfree
    exact absurd (armRound_calling _ _) (hfree .typed).idle
  | @fires timer t ht hround =>
    simp only [ArmingState.step, ht] at hfree
    have hadds := (h.bounded.deleteTimer timer).adds_armHalf t.half (.again t.round t.reason)
    exact absurd ((hadds.has t.half _).2 (.inl ⟨rfl, rfl⟩)) (hfree t.half).idle
  | rearm => exact absurd (armRound_calling _ _) (hfree .typed).idle

/-- A typed code was claimed with a wrong one, and the loop has not heard of it yet. -/
def Unbilled (s : ArmingState) : Prop :=
  ∃ id p failure, s.hosted.get id = some p ∧ p.half = .typed ∧ p.round = s.round ∧
    p.heard = false ∧ p.settled = some (.error failure) ∧ failure.isGuess = true

/-- The wrong codes are charged to the typed half, but for one that is about to be. -/
def Covers (n : Nat) (s : ArmingState) : Prop :=
  (∀ id, ¬ s.Finishing id) → n ≤ (s.failures .typed).wrong ∨
    s.Unbilled ∧ n ≤ (s.failures .typed).wrong + 1

variable {n : Nat}

theorem Covers.of_same (h : Covers n s) (hfinishing : ∀ id, s.Finishing id → t.Finishing id)
    (hfailures : t.failures .typed = s.failures .typed) (hunbilled : s.Unbilled → t.Unbilled) : Covers n t := by
  intro hnone
  rw [hfailures]
  exact (h fun id hid => hnone id (hfinishing id hid)).imp id fun hlater =>
    ⟨hunbilled hlater.1, hlater.2⟩

theorem Covers.kept {n : Nat} (h : Covers n s) (hkept : Kept s t) : Covers n t := by
  refine h.of_same ?_ (by rw [hkept.failures]) ?_
  · unfold Finishing
    rw [hkept.handlers, hkept.hosted, hkept.round]
    exact fun id hid => hid
  · unfold Unbilled
    rw [hkept.hosted, hkept.round]
    exact id

theorem Unbilled.showing (h : s.Unbilled) : ∃ id p failure, s.Has .typed (.shown id) ∧
    s.hosted.get id = some p ∧ p.settled = some (.error failure) ∧ failure.isGuess = true := by
  obtain ⟨id, p, failure, hp, hhalf, hround, hheard, hsettled, hguess⟩ := h
  exact ⟨id, p, failure, ⟨p, hp, hhalf, hround, hheard⟩, hp, hsettled, hguess⟩

theorem Placed.covered {place : HalfPlace} (h : s.Placed .typed (some place))
    (hcovers : Covers n s) (hplace : ∀ id, place ≠ .finishing id)
    (hcode : ∀ id p failure, place = .shown id → s.hosted.get id = some p →
      p.settled = some (.error failure) → failure.isGuess = false) : n ≤ (s.failures .typed).wrong := by
  have hnone (id : Nat) : ¬ s.Finishing id := fun hid => hplace id (Option.some.inj ((h.has (.finishing id)).1 hid))
  obtain hle | ⟨hunbilled, -⟩ := hcovers hnone
  · exact hle
  · obtain ⟨id, p, failure, hshowing, hp, hsettled, hguess⟩ := hunbilled.showing
    rw [hcode id p failure (Option.some.inj ((h.has _).1 hshowing)) hp hsettled] at hguess
    cases hguess

variable {id : Nat} {p : HostedPairing}

theorem Orderly.covers_charged (h : s.Orderly) (hcovers : Covers n s)
    {failure : ExchangeFailure} (hp : s.hosted.get id = some p) (hhalf : p.half = .typed) (hheard : p.heard = false)
    (hsettled : p.settled = some (.error failure)) (hround : p.round = s.round) (jitter : ℚ) :
    n ≤ (s.decided p failure jitter).state.wrong := by
  have hhas : s.Has .typed (.shown id) := ⟨p, hp, hhalf, hround, hheard⟩
  have hplaced := (h.at hhas).1
  have hnone (id : Nat) : ¬ s.Finishing id := fun hid => nomatch (hplaced.has (.finishing id)).1 hid
  unfold ArmingState.decided
  rw [hhalf]
  by_cases hguess : failure.isGuess = true
  · have hcharged : (rearmDecision (some failure.kind) (s.failures .typed) (limitsFor .typed)
        jitter).state.wrong = (s.failures .typed).wrong + 1 := by
      cases hkind : failure.kind <;>
        simp [ExchangeFailure.isGuess, hkind, rearmDecision] at hguess ⊢
    rw [hcharged]
    obtain hle | ⟨-, hle⟩ := hcovers hnone
    · omega
    · exact hle
  · have hle : n ≤ (s.failures .typed).wrong := by
      refine hplaced.covered hcovers (by simp) ?_
      intro i q failure' heq hq hsettled'
      cases heq
      rw [hp] at hq
      cases hq
      rw [hsettled] at hsettled'
      cases hsettled'
      simpa using hguess
    refine hle.trans ?_
    cases hkind : failure.kind <;> simp [rearmDecision]

theorem wrongCode_error (hp : s.hosted.get id = some p) (hopen : p.settled = none) (failure : ExchangeFailure) :
    wrongCode ((armingMachine opts).entry s (.settles id (.error failure))) =
      (failure.isGuess && decide (p.half = .typed)) := by
  simp [wrongCode, Machine.entry, hp, hopen]

theorem Orderly.covers_settles (h : s.Orderly) (hcovers : Covers n s)
    (hp : s.hosted.get id = some p) (hopen : p.settled = none) (outcome : Except ExchangeFailure PairingResult) :
    Covers (n + (wrongCode ((armingMachine opts).entry s (.settles id outcome))).toNat)
      (s.step opts (.settles id outcome)).1 := by
  rw [step_settles hp hopen]
  have hfinishing (i : Nat) : _ ↔ s.Finishing i := (alike_settled hp outcome .typed).has (.finishing i)
  have hsame : Covers n { s with hosted := s.hosted.set id { p with settled := some outcome } } := by
    refine hcovers.of_same (fun i hi => (hfinishing i).2 hi) rfl ?_
    rintro ⟨i, q, failure, hq, hrest⟩
    refine ⟨i, q, failure, ?_, hrest⟩
    simp only [get_set]
    rw [if_neg, hq]
    rintro rfl
    rw [hp] at hq
    cases hq
    rw [hopen] at hrest
    cases hrest.2.2.2.1
  cases outcome with
  | ok result => exact hsame
  | error failure =>
    rw [wrongCode_error hp hopen]
    by_cases hwrong : (failure.isGuess && decide (p.half = .typed)) = true
    · rw [hwrong]
      rw [Bool.and_eq_true, decide_eq_true_eq] at hwrong
      obtain ⟨hround, hheard, -⟩ := h.bounded.unsettled id p hp hopen
      have hhas : s.Has .typed (.shown id) := ⟨p, hp, hwrong.2, hround, hheard⟩
      have hle : n ≤ (s.failures .typed).wrong := by
        refine (h.at hhas).1.covered hcovers nofun ?_
        intro i q failure' heq hq hsettled
        cases heq
        rw [hp] at hq
        cases hq
        rw [hopen] at hsettled
        cases hsettled
      intro _
      refine .inr ⟨⟨id, { p with settled := some (.error failure) }, failure,
        by rw [get_set, if_pos rfl], hwrong.2, hround, hheard, rfl, hwrong.1⟩, ?_⟩
      exact Nat.succ_le_succ hle
    · rw [Bool.not_eq_true] at hwrong
      rw [hwrong]
      exact hsame

theorem Orderly.covers_ends (h : s.Orderly) (hcovers : Covers n s)
    (hp : s.hosted.get id = some p) (hheard : p.heard = false)
    (hsettled : p.settled.isSome = true) (hround : p.round = s.round) (jitter : ℚ) :
    Covers n (s.hear id p jitter).1 := by
  obtain ⟨outcome, houtcome⟩ := Option.isSome_iff_exists.1 hsettled
  cases outcome with
  | ok result =>
    intro hnone
    exact absurd (hear_paired_finishing hp houtcome hround jitter) (hnone id)
  | error failure =>
    obtain ⟨reason, warned, hhear, -⟩ := hear_charged id jitter houtcome hround
    have hkept : Kept (s.charged id p failure jitter) (s.hear id p jitter).1 := by
      rw [hhear]
      simp only [andThen]
      split
      · exact scheduleRearm_kept _ _ _ _ _
      · exact Kept.refl _
    refine Covers.kept ?_ hkept
    by_cases hhalf : p.half = .typed
    · have hle := h.covers_charged hcovers hp hhalf hheard houtcome hround jitter
      intro _
      refine .inl ?_
      simp only [ArmingState.charged, ← hhalf, Function.update_self]
      exact hle
    · refine hcovers.of_same (fun i hi => (has_heard hp .typed (.finishing i)).2 ⟨by simp, hi⟩) ?_ ?_
      · exact Function.update_of_ne (Ne.symm hhalf) ..
      · rintro ⟨i, q, failure', hq, hhalf', hrest⟩
        refine ⟨i, q, failure', ?_, hhalf', hrest⟩
        simp only [ArmingState.charged, get_set]
        rw [if_neg, hq]
        rintro rfl
        rw [hp] at hq
        cases hq
        exact hhalf hhalf'

theorem resets_paired (id : Nat) (h : .paired id ∈ (s.step opts e).2) :
    resets ((armingMachine opts).entry s e) = true := by
  have hany : (s.step opts e).2.any ArmingOutput.isPaired = true :=
    any_eq_true.2 ⟨.paired id, h, rfl⟩
  change (_ || (s.step opts e).2.any ArmingOutput.isPaired) = true
  rw [hany, Bool.or_true]

theorem step_completes (hstage : s.handlers.get id = some .addingPeer) (jitter : ℚ) :
    s.step opts (.stored id true jitter) = s.complete id := by
  simp only [step, hstage, stored, if_true]

theorem Orderly.covers_step (h : s.Orderly) (heffect : Effect s opts e)
    (hcovers : Covers n s) :
    Covers (if resets ((armingMachine opts).entry s e) then 0
      else n + (wrongCode ((armingMachine opts).entry s e)).toNat) (s.step opts e).1 := by
  have hfresh (t : ArmingState) : Covers 0 t := fun _ => .inl (Nat.zero_le _)
  split
  · exact hfresh _
  · rename_i hresets
    cases heffect with
    | same hbounded halike hround hcodes hout hguess hrearm =>
      rw [hguess]
      refine hcovers.of_same (fun id hid => ((halike .typed).has (.finishing id)).2 hid)
        (halike .typed).failures ?_
      rintro ⟨id, p, failure, hp, hhalf, hround', hheard, hrest⟩
      exact ⟨id, p, failure, hcodes id p hp hround' hheard, hhalf, hround ▸ hround', hheard, hrest⟩
    | settles outcome hp hopen => exact h.covers_settles hcovers hp hopen outcome
    | @shows call c code hc hround =>
      have hother {id : Nat} {p : HostedPairing} (hp : s.hosted.get id = some p) : id ≠ s.next := by
        rintro rfl
        rw [h.tidy.fresh _ (Nat.le_refl _)] at hp
        cases hp
      simp only [ArmingState.step, hc]
      rw [ArmingState.answers_some]
      refine hcovers.of_same ?_ rfl ?_
      · rintro id ⟨stage, hstage, p, hp, hround'⟩
        exact ⟨stage, hstage, p, by rw [get_set, if_neg (hother hp), hp], hround'⟩
      · rintro ⟨id, p, failure, hp, hrest⟩
        exact ⟨id, p, failure, by rw [get_set, if_neg (hother hp), hp], hrest⟩
    | @retries call c myRound reason hc hround horigin =>
      simp only [ArmingState.step, hc]
      exact hcovers.kept (answers_none opts s call c)
    | ends jitter hp hheard hsettled hround =>
      rw [step_hears opts hp hheard hsettled]
      exact h.covers_ends hcovers hp hheard hsettled hround jitter
    | @completes id jitter hstage hfinishing =>
      refine absurd (resets_paired id ?_) hresets
      rw [step_completes hstage]
      simp [ArmingState.complete, andThen]
    | @fires timer t ht hround =>
      simp only [ArmingState.step, ht]
      exact hcovers.kept ⟨rfl, rfl, rfl, rfl, rfl, Nat.le_succ _⟩
    | rearm => exact absurd rfl hresets

theorem announce_out (s : ArmingState) (origin : ArmOrigin) :
    ∀ o ∈ s.announce opts origin, ∀ half, o ≠ .hostPairing half := by
  intro o ho half
  unfold announce at ho
  split at ho
  · rw [mem_singleton.1 ho]
    exact nofun
  · cases ho
  · split at ho
    · cases ho
    · split at ho
      · rw [mem_singleton.1 ho]
        exact nofun
      · rw [mem_singleton.1 ho]
        exact nofun
      · rw [mem_singleton.1 ho]
        exact nofun

theorem Orderly.arms (h : s.Orderly) (heffect : Effect s opts e)
    (hcovers : Covers n s) (harms : .hostPairing .typed ∈ (s.step opts e).2) :
    resets ((armingMachine opts).entry s e) = true ∨ n ≤ 7 := by
  cases heffect with
  | same hbounded halike hround hcodes hout hguess hrearm => exact absurd rfl (hout _ harms .typed 0).1
  | @settles id p outcome hp hopen =>
    simp only [ArmingState.step, hp, hopen, Option.isSome_none, Bool.false_eq_true, if_false] at harms
    cases outcome with
    | ok result => cases mem_singleton.1 harms
    | error failure => cases harms
  | @shows call c code hc hround =>
    simp only [ArmingState.step, hc] at harms
    exact absurd rfl (announce_out _ c.origin _ harms .typed)
  | @retries call c myRound reason hc hround horigin =>
    simp only [ArmingState.step, hc] at harms
    exact absurd rfl (answers_none_out s call c _ harms .typed 0).1
  | @ends id p jitter hp hheard hsettled hround =>
    rw [step_hears opts hp hheard hsettled] at harms
    obtain ⟨outcome, houtcome⟩ := Option.isSome_iff_exists.1 hsettled
    cases outcome with
    | ok result =>
      simp only [ArmingState.hear, houtcome, ArmingState.paired, hround, ne_eq, not_true_eq_false,
        if_false, andThen, mem_append] at harms
      obtain hcancel | hregister := harms
      · obtain ⟨i, heq⟩ := cancelLive_out hcancel
        cases heq
      · cases mem_singleton.1 hregister
    | error failure =>
      obtain ⟨reason, warned, hhear, hwarned⟩ := hear_charged id jitter houtcome hround
      rw [hhear] at harms
      simp only [andThen, mem_append] at harms
      obtain hwarn | hgo := harms
      · obtain ⟨warning, wrong, delayMs, heq⟩ := hwarned _ hwarn
        cases heq
      · split at hgo
        · rename_i hdecided
          have hhalf : p.half = .typed := (ArmingOutput.hostPairing.inj (scheduleRearm_out hgo)).symm
          have hle := h.covers_charged hcovers hp hhalf hheard houtcome hround jitter
          have hhas : s.Has .typed (.shown id) := ⟨p, hp, hhalf, hround, hheard⟩
          have hlt := (rearmDecision_spends (kind_ne failure) (s.failures p.half)
            (limitsFor p.half) jitter).2 hdecided (hhalf ▸ (h.at hhas).2 rfl)
          have hmax : (limitsFor p.half).wrong = 8 := by
            rw [hhalf]
            rfl
          refine .inr ?_
          unfold ArmingState.decided at hle
          omega
        · split at hgo
          · cases mem_singleton.1 hgo
          · cases hgo
  | @completes id jitter hstage hfinishing =>
    refine .inl (resets_paired id ?_)
    rw [step_completes hstage]
    simp [ArmingState.complete, andThen]
  | @fires timer t ht hround =>
    simp only [ArmingState.step, ht] at harms
    have hhalf : t.half = .typed := (ArmingOutput.hostPairing.inj (mem_singleton.1 harms)).symm
    have hhas : s.Has .typed (.waiting timer) := ⟨t, ht, hhalf, hround⟩
    have hle := (h.at hhas).1.covered hcovers (by simp) fun _ _ _ heq => by cases heq
    have hlt : (s.failures .typed).wrong < 8 := (h.at hhas).2 rfl
    omega
  | rearm => exact .inl rfl

end ArmingState

variable {opts : HostingOptions} {es : List ArmingEvent}

section
variable (h : ∀ x ∈ (armingMachine opts).trace es, Steady opts x = true)
include h

theorem orderly_run :
    ((armingMachine opts).run es).Orderly := by
  refine (armingMachine opts).trace_invariant (fun s _ => s.Orderly) ArmingState.orderly_init ?_ h
  exact fun es e hbefore hlast => hbefore.step (hbefore.effect hlast)

theorem covers_run :
    ArmingState.Covers (wrongSince ((armingMachine opts).trace es)) ((armingMachine opts).run es) := by
  induction es using List.reverseRecOn with
  | nil => exact fun _ => .inl (Nat.zero_le _)
  | append_singleton es e ih =>
    rw [trace_snoc, forall_mem_append, forall_mem_singleton] at h
    have hbefore := orderly_run h.1
    have hstep := hbefore.covers_step (hbefore.effect h.2) (ih h.1)
    rw [run_snoc, trace_snoc]
    unfold wrongSince at hstep ⊢
    rw [foldl_append]
    exact hstep

theorem idle_run
    (hfree : ∀ half, ((armingMachine opts).run es).Placed half none) : idleSince ((armingMachine opts).trace es) = true := by
  induction es using List.reverseRecOn with
  | nil => exact absurd (ArmingState.armRound_calling _ _) (hfree .typed).idle
  | append_singleton es e ih =>
    rw [trace_snoc, forall_mem_append, forall_mem_singleton] at h
    rw [run_snoc] at hfree
    have hbefore := orderly_run h.1
    obtain ⟨hresets, hidle⟩ := hbefore.idle_step (hbefore.effect h.2) hfree
    rw [trace_snoc]
    unfold idleSince at ih ⊢
    rw [foldl_append]
    simp only [foldl_cons, foldl_nil, hresets, Bool.not_false, Bool.true_and,
      Bool.or_eq_true]
    obtain hold | hcalled := hidle
    · exact .inl (ih h.1 hold)
    · exact .inr (contains_iff_mem.2 hcalled)

end

/-- In a run in which nothing of an ended round comes back, no arming call of a whole round fails and
every handler comes to its end, a half at rest has a code or has spent its budget, `onIdle` was called
if neither has one, and the typed half is armed after at most seven wrong codes. -/
theorem arming_kept (opts : HostingOptions) (es : List ArmingEvent)
    (h : ∀ x ∈ (armingMachine opts).trace es, Steady opts x = true) : (((armingMachine opts).run es).AtRest →
      (∀ half, ((armingMachine opts).run es).HasCode half ∨ ((armingMachine opts).run es).Exhausted half) ∧
      ((∀ half, ¬ ((armingMachine opts).run es).HasCode half) → idleSince ((armingMachine opts).trace es) = true)) ∧
    ∀ before e after, es = before ++ e :: after → .hostPairing .typed ∈
        ((armingMachine opts).entry ((armingMachine opts).run before) e).out →
      resets ((armingMachine opts).entry ((armingMachine opts).run before) e) = true ∨
        wrongSince ((armingMachine opts).trace before) ≤ 7 := by
  refine ⟨?_, ?_⟩
  · intro hrest
    have horderly := orderly_run h
    refine ⟨fun half => (horderly.at_rest hrest half).imp id And.left, ?_⟩
    intro hnone
    exact idle_run h fun half => ((horderly.at_rest hrest half).resolve_left (hnone half)).2
  · intro before e after hes harms
    have hprefix : ∀ x ∈ (armingMachine opts).trace (before ++ [e]), Steady opts x = true := by
      exact forall_trace_before h (by rw [hes, append_cons])
    rw [trace_snoc, forall_mem_append, forall_mem_singleton] at hprefix
    have hbefore := orderly_run hprefix.1
    exact hbefore.arms (hbefore.effect hprefix.2) (covers_run hprefix.1) harms

/-- A typed code expires and is replaced, and a wrong code burns the next. -/
def expiredRun : List ArmingEvent :=
  [.answers 0 (some "049111111"), .answers 1 (some "0503kq9XvT2"), .settles 2 (.error .timedOut),
    .hears 2 0, .answers 4 (some "051222222"), .settles 5 (.error .noMatch), .hears 5 0,
    .answers 6 (some "052333333")]

theorem arming_kept_expired : (∀ half, ((armingMachine sampleHosting).run expiredRun).HasCode half ∨
      ((armingMachine sampleHosting).run expiredRun).Exhausted half) ∧
    ∀ before e after, expiredRun = before ++ e :: after → .hostPairing .typed ∈
        ((armingMachine sampleHosting).entry ((armingMachine sampleHosting).run before) e).out →
      resets ((armingMachine sampleHosting).entry ((armingMachine sampleHosting).run before) e) = true ∨
        wrongSince ((armingMachine sampleHosting).trace before) ≤ 7 := by
  have hkept := arming_kept sampleHosting expiredRun (all_eq_true.1 (by decide +kernel))
  exact ⟨(hkept.1 (ArmingState.atRest_of_entries (by decide +kernel) (by decide +kernel))).1, hkept.2⟩

/-- A browser pairs, and the write of its record fails. -/
def deadRun : List ArmingEvent :=
  [.answers 0 (some "049111111"), .answers 1 (some "0503kq9XvT2"),
    .settles 2 (.ok ⟨⟨[], [], [], ""⟩, "Phone"⟩), .hears 2 0, .hears 3 0, .registered 2 true,
    .stored 2 false 0]

/-- A typed code is guessed at, and its replacement comes at once or when its timer fires. -/
def guessed (id next : Nat) : List ArmingEvent :=
  [.settles id (.error .noMatch), .hears id 0, .answers next (some "054444444")]

def guessedLater (id timer : Nat) : List ArmingEvent :=
  [.settles id (.error .noMatch), .hears id 0, .fires timer,
    .answers (timer + 1) (some "055555555")]

/-- A human asks for fresh codes while the timer of a lost code runs; two typed codes are guessed at,
one six times and once more, and then the other. -/
def eighthGuessRun : List ArmingEvent :=
  [.answers 0 (some "049111111"), .answers 1 (some "0503kq9XvT2"), .settles 2 (.error .lost),
    .hears 2 0, .rearm, .answers 5 (some "051222222"), .answers 6 (some "0523kq9XvT2"), .fires 4,
    .answers 9 (some "053333333")] ++
  guessed 7 11 ++ guessed 12 13 ++ guessed 14 15 ++ guessedLater 16 17 ++ guessedLater 19 20 ++
  guessedLater 22 23 ++
  [.settles 25 (.error .noMatch), .hears 25 0, .settles 10 (.error .noMatch), .hears 10 0]

/-- Both halves are dead with their budgets whole; and a typed code is asked for after eight wrong
ones. -/
theorem not_arming_kept : (((armingMachine sampleHosting).run deadRun).AtRest ∧
      ∀ half, ¬ ((armingMachine sampleHosting).run deadRun).HasCode half ∧
        ¬ ((armingMachine sampleHosting).run deadRun).Exhausted half) ∧
    (.hostPairing .typed ∈ ((armingMachine sampleHosting).entry
        ((armingMachine sampleHosting).run eighthGuessRun) (.fires 26)).out ∧
      resets ((armingMachine sampleHosting).entry
        ((armingMachine sampleHosting).run eighthGuessRun) (.fires 26)) = false ∧
      wrongSince ((armingMachine sampleHosting).trace eighthGuessRun) = 8) := by
  refine ⟨⟨ArmingState.atRest_of_entries (by decide +kernel) (by decide +kernel), ?_⟩, by decide +kernel⟩
  · intro half
    have hlive : ((armingMachine sampleHosting).run deadRun).live half = none := by
      cases half with
      | typed | scan => decide +kernel
    refine ⟨?_, ?_⟩
    · rintro ⟨id, p, hid, -⟩
      rw [hlive] at hid
      cases hid
    · unfold ArmingState.Exhausted
      cases half with
      | typed | scan => decide +kernel

end Mtmux.Cli
