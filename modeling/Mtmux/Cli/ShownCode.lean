import Mtmux.Cli.ArmingLoop

/-! Is the code on the screen the only one that can be claimed? -/
namespace Mtmux.Cli
open OrderedMap Machine Option

abbrev ArmingEntry : Type := Machine.Entry ArmingState ArmingEvent ArmingOutput

/-- The codes that can be claimed are the ones on the screen, and of the current round. -/
structure OneCode (opts : HostingOptions) (s : ArmingState) : Prop where
  one : ∀ id id' p p', s.hosted.get id = some p → s.hosted.get id' = some p' →
    p.standing = true → p'.standing = true → p.half = p'.half → id = id'
  /-- What is not `live` any more, or of an ended round, has been cancelled or has settled. -/
  replaced : ∀ id p, s.hosted.get id = some p → s.live p.half ≠ some id → p.standing = false
  ended : ∀ id p, s.hosted.get id = some p → p.round ≠ s.round → p.standing = false
  typed : ∀ id p, s.hosted.get id = some p → p.standing = true → p.half = .typed →
    (s.inviteNow opts).code = some p.code
  scan : ∀ id p, s.hosted.get id = some p → p.standing = true → p.half = .scan →
    (s.inviteNow opts).url = some (joinUrl opts.appOrigin p.code)

/-- A browser was let in and has its descriptor, and what is done about it has not come to the keys
yet. -/
def ArmingState.Handling (s : ArmingState) (id : Nat) : Prop :=
  ∃ p result, s.hosted.get id = some p ∧ p.settled = some (.ok result) ∧
    (p.heard = false ∨ s.handlers.get id = some .registering)

/-- One step leaves one code, and drops no browser that was let in before the agent has its keys. -/
structure Shown (opts : HostingOptions) (x : ArmingEntry) : Prop where
  codes : OneCode opts x.post
  keys : ∀ id, x.pre.Handling id → x.post.Handling id ∨ .addSessionKeys id ∈ x.out

/-- The half has no code that can be claimed on the screen. -/
def ArmingState.Vacant (s : ArmingState) (half : Half) : Prop :=
  ∀ id p, s.live half = some id → s.hosted.get id = some p → p.standing = false

/-- Nothing of an ended round is used. -/
structure Watched (opts : HostingOptions) (x : ArmingEntry) : Prop where
  /-- A code comes in the round that asked for it, and its half has no other. -/
  answers : ∀ call c code, x.event = .answers call (some code) → x.pre.calls.get call = some c →
    c.round = x.pre.round ∧ x.pre.Vacant c.half
  /-- The end of a code is heard before its half has another. -/
  hears : ∀ id jitter p, x.event = .hears id jitter → x.pre.hosted.get id = some p →
    p.heard = false → p.settled.isSome = true → p.round = x.pre.round → x.pre.Vacant p.half
  /-- A completed pairing is heard before its round ends. -/
  overtaken : ∀ id jitter p result, x.event = .hears id jitter → x.pre.hosted.get id = some p →
    p.heard = false → p.settled = some (.ok result) → p.round = x.pre.round
  /-- The relay does not refuse a share. -/
  registered : ∀ id, x.event = .registered id false → x.pre.handlers.get id = some .registering →
    opts.grants = false

namespace HostedPairing

def cancel (p : HostedPairing) : HostedPairing :=
  if p.cancelled then p
  else { p with cancelled := true, settled := some (p.settled.getD (.error .aborted)) }

theorem cancel_standing (p : HostedPairing) : p.cancel.standing = false := by
  unfold cancel standing
  split
  · rename_i hcancelled
    simp [hcancelled]
  · simp

theorem cancel_cancel (p : HostedPairing) : p.cancel.cancel = p.cancel := by
  have hcancelled : p.cancel.cancelled = true := by
    unfold cancel
    split
    · assumption
    · rfl
  generalize p.cancel = q at hcancelled
  simp [cancel, hcancelled]

theorem cancel_same (p : HostedPairing) : p.cancel.half = p.half ∧ p.cancel.round = p.round ∧ p.cancel.heard = p.heard ∧
    ∀ result, p.settled = some (.ok result) → p.cancel.settled = some (.ok result) := by
  unfold cancel
  split
  · exact ⟨rfl, rfl, rfl, fun _ h => h⟩
  · refine ⟨rfl, rfl, rfl, ?_⟩
    intro result hsettled
    simp [hsettled]

end HostedPairing

namespace ArmingState
variable {s t : ArmingState} {opts : HostingOptions}

/-- Every code that can be claimed is live and of the current round. -/
def Watch (s : ArmingState) : Prop :=
  ∀ id p, s.hosted.get id = some p → p.standing = true →
    s.live p.half = some id ∧ p.round = s.round

variable {half : Half} {id : Nat} {p : HostedPairing}

theorem codeOf_live (hlive : s.live half = some id) (hp : s.hosted.get id = some p) : s.codeOf half = some p.code := by
  simp [codeOf, hlive, hp]

theorem oneCode_iff : OneCode opts s ↔ s.Watch := by
  constructor
  · intro h id p hp hstanding
    refine ⟨?_, ?_⟩
    · by_contra hgone
      have hfalse := h.replaced id p hp hgone
      rw [hfalse] at hstanding
      cases hstanding
    · by_contra hended
      have hfalse := h.ended id p hp hended
      rw [hfalse] at hstanding
      cases hstanding
  · intro h
    refine ⟨?_, ?_, ?_, ?_, ?_⟩
    · intro id id' p p' hp hp' hstanding hstanding' hhalf
      have hlive := (h id p hp hstanding).1
      rw [hhalf, (h id' p' hp' hstanding').1] at hlive
      exact (Option.some.inj hlive).symm
    · intro id p hp hgone
      by_contra hstanding
      exact hgone (h id p hp (by simpa using hstanding)).1
    · intro id p hp hended
      by_contra hstanding
      exact hended (h id p hp (by simpa using hstanding)).2
    · intro id p hp hstanding hhalf
      exact codeOf_live (hhalf ▸ (h id p hp hstanding).1) hp
    · intro id p hp hstanding hhalf
      have hcode := codeOf_live (hhalf ▸ (h id p hp hstanding).1) hp
      simp [inviteNow, hcode]

/-- Ids are new, a live code is of its half, and a handler is about a pairing of an ended round that
was heard. -/
structure Tidy (s : ArmingState) : Prop where
  fresh : ∀ id, s.next ≤ id → s.hosted.get id = none
  live : ∀ half id, s.live half = some id → ∃ p, s.hosted.get id = some p ∧ p.half = half
  handler : ∀ id stage, s.handlers.get id = some stage → ∃ p result, s.hosted.get id = some p ∧
    p.settled = some (.ok result) ∧ p.heard = true ∧ p.round < s.round

/-- What an arming call or a timer leaves alone. -/
structure Kept (s t : ArmingState) : Prop where
  hosted : t.hosted = s.hosted
  live : t.live = s.live
  handlers : t.handlers = s.handlers
  round : t.round = s.round
  failures : t.failures = s.failures
  next : s.next ≤ t.next

theorem Kept.refl (s : ArmingState) : Kept s s := ⟨rfl, rfl, rfl, rfl, rfl, Nat.le_refl _⟩

theorem Kept.trans {u : ArmingState} (h : Kept s t) (h' : Kept t u) : Kept s u :=
  ⟨h'.hosted.trans h.hosted, h'.live.trans h.live, h'.handlers.trans h.handlers,
    h'.round.trans h.round, h'.failures.trans h.failures, h.next.trans h'.next⟩

theorem armHalf_kept (s : ArmingState) (half : Half) (origin : ArmOrigin) :
    Kept s (s.armHalf half origin).1 := ⟨rfl, rfl, rfl, rfl, rfl, Nat.le_succ _⟩

theorem armRound_kept (s : ArmingState) (cause : ArmCause) : Kept s (s.armRound cause).1 :=
  (armHalf_kept s _ _).trans (armHalf_kept _ _ _)

theorem scheduleRearm_kept (s : ArmingState) (half : Half) (round : Nat) (reason : RearmReason)
    (delayMs : Nat) : Kept s (s.scheduleRearm half round reason delayMs).1 := by
  unfold scheduleRearm
  split
  · exact armHalf_kept s half _
  · exact ⟨rfl, rfl, rfl, rfl, rfl, Nat.le_succ _⟩

theorem Tidy.kept (h : s.Tidy) (hkept : Kept s t) : t.Tidy := by
  refine ⟨?_, ?_, ?_⟩
  · intro id hid
    rw [hkept.hosted]
    exact h.fresh id (hkept.next.trans hid)
  · intro half id hlive
    rw [hkept.hosted]
    rw [hkept.live] at hlive
    exact h.live half id hlive
  · intro id stage hstage
    rw [hkept.hosted, hkept.round]
    rw [hkept.handlers] at hstage
    exact h.handler id stage hstage

def Cut (hosted hosted' : OrderedMap Nat HostedPairing) (gone : Nat → Prop) : Prop :=
  ∀ i, (gone i → hosted'.get i = (hosted.get i).map HostedPairing.cancel) ∧
    (¬ gone i → hosted'.get i = hosted.get i)

variable {hosted hosted' : OrderedMap Nat HostedPairing} {gone : Nat → Prop} {i : Nat} {q : HostedPairing}

theorem Cut.get (h : Cut hosted hosted' gone) (hq : hosted.get i = some q) :
    ∃ q', hosted'.get i = some q' ∧ (q' = q ∨ q' = q.cancel) := by
  by_cases hi : gone i
  · exact ⟨q.cancel, by rw [(h i).1 hi, hq]; rfl, .inr rfl⟩
  · exact ⟨q, by rw [(h i).2 hi, hq], .inl rfl⟩

theorem Cut.standing (h : Cut hosted hosted' gone) (hq : hosted'.get i = some q)
    (hstanding : q.standing = true) : ¬ gone i ∧ hosted.get i = some q := by
  by_cases hi : gone i
  · rw [(h i).1 hi] at hq
    obtain ⟨q, -, rfl⟩ := map_eq_some_iff.1 hq
    rw [q.cancel_standing] at hstanding
    cases hstanding
  · exact ⟨hi, by rw [← hq, (h i).2 hi]⟩

variable {hosted'' : OrderedMap Nat HostedPairing}

theorem Cut.trans {gone' : Nat → Prop} (h : Cut hosted hosted' gone) (h' : Cut hosted' hosted'' gone') :
    Cut hosted hosted'' fun i => gone i ∨ gone' i := by
  intro i
  refine ⟨?_, ?_⟩
  · intro hi
    by_cases hi' : gone' i
    · rw [(h' i).1 hi']
      by_cases hi : gone i
      · rw [(h i).1 hi, map_map]
        congr 1
        funext q
        exact q.cancel_cancel
      · rw [(h i).2 hi]
    · rw [(h' i).2 hi', (h i).1 (hi.resolve_right hi')]
  · intro hi
    rw [(h' i).2 fun hi' => hi (.inr hi'), (h i).2 fun hi' => hi (.inl hi')]

theorem cancelLive_cut (s : ArmingState) (half : Half) : ∃ hosted,
    (s.cancelLive half).1 = { s with hosted := hosted } ∧
    Cut s.hosted hosted fun i => s.live half = some i := by
  unfold cancelLive
  cases hlive : s.live half with
  | none => exact ⟨s.hosted, rfl, fun i => ⟨nofun, fun _ => rfl⟩⟩
  | some id =>
    simp only [cancel]
    cases hp : s.hosted.get id with
    | none =>
      refine ⟨s.hosted, rfl, fun i => ⟨?_, fun _ => rfl⟩⟩
      intro hi
      cases hi
      rw [hp]
      rfl
    | some p =>
      by_cases hcancelled : p.cancelled = true
      · refine ⟨s.hosted, by simp [hcancelled], fun i => ⟨?_, fun _ => rfl⟩⟩
        intro hi
        cases hi
        simp [hp, HostedPairing.cancel, hcancelled]
      · refine ⟨s.hosted.set id p.cancel, ?_, ?_⟩
        · simp [hcancelled, HostedPairing.cancel]
        · intro i
          rw [get_set]
          refine ⟨?_, ?_⟩
          · intro hi
            cases hi
            simp [hp]
          · intro hi
            rw [if_neg fun heq => hi (by rw [heq])]

variable {myRound : Nat} {err : Option PairingErrorKind} {jitter : ℚ}

theorem failed_ended (h : myRound ≠ s.round) : s.failed half myRound err jitter = (s, []) := by
  simp [failed, h]

theorem failed_kept (h : myRound = s.round) (half : Half)
    (err : Option PairingErrorKind) (jitter : ℚ) :
    ∃ failures, Kept { s with live := Function.update s.live half none, failures := failures }
      (s.failed half myRound err jitter).1 := by
  refine ⟨Function.update s.failures half
    (rearmDecision err (s.failures half) (limitsFor half) jitter).state, ?_⟩
  simp only [failed, h, ne_eq, not_true_eq_false, if_false, andThen]
  split
  · exact scheduleRearm_kept _ _ _ _ _
  · exact Kept.refl _

theorem hear_ended (h : p.round ≠ s.round) :
    s.hear id p jitter = ({ s with hosted := s.hosted.set id { p with heard := true } }, []) := by
  unfold hear
  split
  · simp [paired, h]
  · exact failed_ended h
  · rfl

theorem hear_failed (id : Nat) (jitter : ℚ) {failure : ExchangeFailure}
    (hsettled : p.settled = some (.error failure)) (hround : p.round = s.round) :
    ∃ failures, Kept { s with
      hosted := s.hosted.set id { p with heard := true }
      live := Function.update s.live p.half none
      failures := failures } (s.hear id p jitter).1 := by
  have heq : s.hear id p jitter =
      { s with hosted := s.hosted.set id { p with heard := true } }.failed p.half p.round
        (some failure.kind) jitter := by simp only [hear, hsettled]
  rw [heq]
  exact failed_kept (s := { s with hosted := s.hosted.set id { p with heard := true } }) hround _ _ _

theorem hear_paired (id : Nat) (jitter : ℚ) {result : PairingResult}
    (hsettled : p.settled = some (.ok result)) (hround : p.round = s.round) :
    ∃ hosted, (s.hear id p jitter).1 = { s with
      round := s.round + 1
      hosted := hosted
      live := fun _ => none
      handlers := s.handlers.set id .registering } ∧
    Cut (s.hosted.set id { p with heard := true }) hosted fun i => s.live p.half.other = some i := by
  have hhear : s.hear id p jitter =
      { s with hosted := s.hosted.set id { p with heard := true } }.paired id p := by
    simp only [hear, hsettled]
  obtain ⟨hosted, heq, hcut⟩ := cancelLive_cut { s with
    hosted := s.hosted.set id { p with heard := true }
    round := s.round + 1 } p.half.other
  refine ⟨hosted, ?_, hcut⟩
  rw [hhear]
  unfold paired
  rw [if_neg (not_not_intro hround)]
  simp only [andThen]
  rw [heq]

theorem rearm_eq (s : ArmingState) : ∃ hosted, s.rearm.1 = ({ s with
      round := s.round + 1
      failures := fun _ => noFailures
      hosted := hosted
      live := fun _ => none }.armRound .rearm).1 ∧
    Cut s.hosted hosted fun i => s.live .typed = some i ∨ s.live .scan = some i := by
  unfold rearm
  simp only [andThen]
  obtain ⟨typed, htyped, hcut⟩ := cancelLive_cut { s with
    round := s.round + 1
    failures := fun _ => noFailures } .typed
  rw [htyped]
  obtain ⟨hosted, hscan, hcut'⟩ := cancelLive_cut { s with
    round := s.round + 1
    failures := fun _ => noFailures
    hosted := typed } .scan
  rw [hscan]
  exact ⟨hosted, rfl, hcut.trans hcut'⟩

/-- What may become of a hosted pairing: it ends, and its end is heard. -/
structure Grown (p p' : HostedPairing) : Prop where
  half : p'.half = p.half
  round : p'.round = p.round
  settled : ∀ result, p.settled = some (.ok result) → p'.settled = some (.ok result)
  heard : p.heard = true → p'.heard = true

theorem Grown.refl (p : HostedPairing) : Grown p p := ⟨rfl, rfl, fun _ h => h, id⟩

theorem Grown.hear (p : HostedPairing) : Grown p { p with heard := true } :=
  ⟨rfl, rfl, fun _ h => h, fun _ => rfl⟩

theorem Grown.settle (hopen : p.settled = none) (outcome : Except ExchangeFailure PairingResult) :
    Grown p { p with settled := some outcome } := by
  refine ⟨rfl, rfl, ?_, id⟩
  intro result hsettled
  rw [hopen] at hsettled
  cases hsettled

variable {p' : HostedPairing}

theorem Grown.trans {p'' : HostedPairing} (h : Grown p p') (h' : Grown p' p'') : Grown p p'' :=
  ⟨h'.half.trans h.half, h'.round.trans h.round, fun r hr => h'.settled r (h.settled r hr),
    fun hr => h'.heard (h.heard hr)⟩

theorem Grown.cancel (p : HostedPairing) : Grown p p.cancel :=
  ⟨p.cancel_same.1, p.cancel_same.2.1, p.cancel_same.2.2.2, fun h => by rw [p.cancel_same.2.2.1, h]⟩

/-- No pairing comes or goes, and each may only grow. -/
structure GrownAll (hosted hosted' : OrderedMap Nat HostedPairing) : Prop where
  none : ∀ i, hosted.get i = none → hosted'.get i = none
  some : ∀ i p, hosted.get i = some p → ∃ p', hosted'.get i = some p' ∧ Grown p p'

theorem GrownAll.refl (hosted : OrderedMap Nat HostedPairing) : GrownAll hosted hosted :=
  ⟨fun _ h => h, fun _ p hp => ⟨p, hp, Grown.refl p⟩⟩

theorem GrownAll.trans (h : GrownAll hosted hosted') (h' : GrownAll hosted' hosted'') : GrownAll hosted hosted'' := by
  refine ⟨fun i hi => h'.none i (h.none i hi), ?_⟩
  intro i p hp
  obtain ⟨p', hp', hgrown⟩ := h.some i p hp
  obtain ⟨p'', hp'', hgrown'⟩ := h'.some i p' hp'
  exact ⟨p'', hp'', hgrown.trans hgrown'⟩

theorem grownAll_set (hp : hosted.get id = some p) (hgrown : Grown p p') : GrownAll hosted (hosted.set id p') := by
  refine ⟨?_, ?_⟩
  · intro i hi
    rw [get_set, if_neg, hi]
    rintro rfl
    rw [hp] at hi
    cases hi
  · intro i q hq
    rw [get_set]
    split
    · rename_i heq
      rw [heq, hp] at hq
      cases hq
      exact ⟨p', rfl, hgrown⟩
    · exact ⟨q, hq, Grown.refl q⟩

theorem Cut.grown (h : Cut hosted hosted' gone) : GrownAll hosted hosted' := by
  refine ⟨?_, ?_⟩
  · intro i hi
    by_cases hgone : gone i
    · rw [(h i).1 hgone, hi]
      rfl
    · rw [(h i).2 hgone, hi]
  · intro i p hp
    obtain ⟨p', hp', rfl | rfl⟩ := h.get hp
    · exact ⟨p', hp', Grown.refl p'⟩
    · exact ⟨_, hp', Grown.cancel p⟩

theorem Tidy.grown (h : s.Tidy) (hgrown : GrownAll s.hosted t.hosted)
    (hlive : ∀ half id, t.live half = some id → s.live half = some id)
    (hhandler : ∀ id stage, t.handlers.get id = some stage → (∃ stage, s.handlers.get id = some stage) ∨
      ∃ p result, t.hosted.get id = some p ∧ p.settled = some (.ok result) ∧ p.heard = true ∧ p.round < t.round)
    (hround : s.round ≤ t.round) (hnext : s.next ≤ t.next) : t.Tidy := by
  refine ⟨?_, ?_, ?_⟩
  · intro id hid
    exact hgrown.none id (h.fresh id (hnext.trans hid))
  · intro half id hlive'
    obtain ⟨p, hp, hhalf⟩ := h.live half id (hlive half id hlive')
    obtain ⟨p', hp', hgrown'⟩ := hgrown.some id p hp
    exact ⟨p', hp', hgrown'.half.trans hhalf⟩
  · intro id stage hstage
    obtain ⟨stage', hold⟩ | hnew := hhandler id stage hstage
    · obtain ⟨p, result, hp, hsettled, hheard, hbefore⟩ := h.handler id stage' hold
      obtain ⟨p', hp', hgrown'⟩ := hgrown.some id p hp
      refine ⟨p', result, hp', hgrown'.settled result hsettled, hgrown'.heard hheard, ?_⟩
      rw [hgrown'.round]
      omega
    · exact hnew

theorem update_none {live : Half → Option Nat} {half' : Half}
    (h : Function.update live half none half' = some id) : half' ≠ half ∧ live half' = some id := by
  by_cases heq : half' = half
  · rw [heq, Function.update_self] at h
    cases h
  · rw [Function.update_of_ne heq] at h
    exact ⟨heq, h⟩

theorem answers_some (s : ArmingState) (call : Nat) (c : ArmCall) (code : String) :
    (s.answers opts call c (some code)).1 = { s with
      calls := s.calls.delete call
      hosted := s.hosted.set s.next ⟨c.half, c.round, code, false, none, false⟩
      live := Function.update s.live c.half (some s.next)
      next := s.next + 1 } := rfl

theorem answers_none (opts : HostingOptions) (s : ArmingState) (call : Nat) (c : ArmCall) :
    Kept s (s.answers opts call c none).1 := by
  have hdelete : Kept s { s with calls := s.calls.delete call } :=
    ⟨rfl, rfl, rfl, rfl, rfl, Nat.le_refl _⟩
  simp only [answers]
  split
  · exact hdelete.trans (scheduleRearm_kept _ _ _ _ _)
  · exact ⟨rfl, rfl, rfl, rfl, rfl, Nat.le_refl _⟩
  · exact hdelete

variable {stage : HandlerStage}

theorem Tidy.stored_false (h : s.Tidy) (hstage : s.handlers.get id = some stage) (jitter : ℚ) :
    s.stored id stage false jitter = ({ s with handlers := s.handlers.delete id }, []) := by
  obtain ⟨p, result, hp, -, -, hbefore⟩ := h.handler id stage hstage
  simp only [stored, Bool.false_eq_true, if_false, hp]
  exact failed_ended (by simpa using Nat.ne_of_lt hbefore)

theorem complete_kept (s : ArmingState) (id : Nat) :
    Kept { s with handlers := s.handlers.delete id, failures := fun _ => noFailures }
      (s.complete id).1 := armRound_kept _ _

variable {handlers : OrderedMap Nat HandlerStage}

theorem get_handlers_delete (h : (handlers.delete id).get i = some stage) : i ≠ id ∧ handlers.get i = some stage := by
  rw [get_delete] at h
  split at h
  · cases h
  · rename_i hne
    exact ⟨hne, h⟩

theorem get_handlers_set {stage' stage'' : HandlerStage} (hid : handlers.get id = some stage'')
    (h : (handlers.set id stage').get i = some stage) : ∃ stage, handlers.get i = some stage := by
  rw [get_set] at h
  split at h
  · rename_i heq
    exact ⟨stage'', by rw [heq, hid]⟩
  · exact ⟨stage, h⟩

/-! ### One step -/

section Watched
variable {call : Nat} {code : String}

variable {e : ArmingEvent}

theorem watched_of (hanswers : ∀ call code, e ≠ .answers call (some code))
    (hhears : ∀ id jitter, e ≠ .hears id jitter) (hregistered : ∀ id, e ≠ .registered id false) :
    Watched opts ((armingMachine opts).entry s e) where
  answers call _ code he := absurd he (hanswers call code)
  hears id jitter _ he := absurd he (hhears id jitter)
  overtaken id jitter _ _ he := absurd he (hhears id jitter)
  registered id he := absurd he (hregistered id)

theorem watched_answers_iff : Watched opts ((armingMachine opts).entry s (.answers call (some code))) ↔
    ∀ c, s.calls.get call = some c → c.round = s.round ∧ s.Vacant c.half := by
  refine ⟨fun h c hc => h.answers call c code rfl hc, fun h => ⟨?_, nofun, nofun, nofun⟩⟩
  intro call' c code' he hc
  cases he
  exact h c hc

theorem watched_hears_iff : Watched opts ((armingMachine opts).entry s (.hears id jitter)) ↔
    ∀ p, s.hosted.get id = some p → p.heard = false → p.settled.isSome = true →
      (p.round = s.round → s.Vacant p.half) ∧ ∀ result, p.settled = some (.ok result) → p.round = s.round := by
  constructor
  · intro h p hp hheard hsettled
    exact ⟨h.hears id jitter p rfl hp hheard hsettled, fun result => h.overtaken id jitter p result rfl hp hheard⟩
  · intro h
    refine ⟨nofun, ?_, ?_, nofun⟩
    · intro id' jitter' p he hp hheard hsettled
      cases he
      exact (h p hp hheard hsettled).1
    · intro id' jitter' p result he hp hheard hsettled
      cases he
      exact (h p hp hheard (by rw [hsettled]; rfl)).2 result hsettled

theorem watched_registered_iff : Watched opts ((armingMachine opts).entry s (.registered id false)) ↔
    (s.handlers.get id = some .registering → opts.grants = false) := by
  refine ⟨fun h => h.registered id rfl, fun h => ⟨nofun, nofun, nofun, ?_⟩⟩
  intro id' he
  cases he
  exact h

end Watched

theorem step_hears (opts : HostingOptions) (hp : s.hosted.get id = some p) (hheard : p.heard = false)
    (hsettled : p.settled.isSome = true) (jitter : ℚ) : s.step opts (.hears id jitter) = s.hear id p jitter := by
  have hopen : p.settled.isNone = false := by simpa using hsettled
  simp [ArmingState.step, hp, hheard, hopen]

/-- What one step makes of the codes and of the handlers; what else it does is `Kept`. -/
inductive Becomes (opts : HostingOptions) (s : ArmingState) : ArmingEvent → ArmingState → Prop
  | quiet {e : ArmingEvent} (hwatched : Watched opts ((armingMachine opts).entry s e)) : Becomes opts s e s
  | answers {call : Nat} {c : ArmCall} {code : String} (hc : s.calls.get call = some c) :
      Becomes opts s (.answers call (some code)) { s with
        hosted := s.hosted.set s.next ⟨c.half, c.round, code, false, none, false⟩
        live := Function.update s.live c.half (some s.next)
        next := s.next + 1 }
  | settles {id : Nat} {p : HostedPairing} (outcome : Except ExchangeFailure PairingResult)
      (hp : s.hosted.get id = some p) (hopen : p.settled = none) : Becomes opts s (.settles id outcome)
        { s with hosted := s.hosted.set id { p with settled := some outcome } }
  | late {id : Nat} {p : HostedPairing} {jitter : ℚ} (hp : s.hosted.get id = some p) (hheard : p.heard = false)
      (hsettled : p.settled.isSome = true) (hround : p.round ≠ s.round)
      (hout : (s.step opts (.hears id jitter)).2 = []) : Becomes opts s (.hears id jitter)
        { s with hosted := s.hosted.set id { p with heard := true } }
  | fails {id : Nat} {p : HostedPairing} {jitter : ℚ} {failure : ExchangeFailure} (failures : Half → RearmState)
      (hp : s.hosted.get id = some p) (hheard : p.heard = false) (hsettled : p.settled = some (.error failure))
      (hround : p.round = s.round) : Becomes opts s (.hears id jitter) { s with
        hosted := s.hosted.set id { p with heard := true }
        live := Function.update s.live p.half none
        failures := failures }
  | pairs {id : Nat} {p : HostedPairing} {jitter : ℚ} {result : PairingResult} {hosted : OrderedMap Nat HostedPairing}
      (hp : s.hosted.get id = some p) (hheard : p.heard = false) (hsettled : p.settled = some (.ok result))
      (hround : p.round = s.round)
      (hcut : Cut (s.hosted.set id { p with heard := true }) hosted fun i => s.live p.half.other = some i) :
      Becomes opts s (.hears id jitter) { s with
        round := s.round + 1
        hosted := hosted
        live := fun _ => none
        handlers := s.handlers.set id .registering }
  | refused {id : Nat} (hstage : s.handlers.get id = some .registering) (hgrants : opts.grants = true)
      (hout : (s.step opts (.registered id false)).2 = [.notShared id]) :
      Becomes opts s (.registered id false) { s with handlers := s.handlers.delete id }
  | registers {id : Nat} {ok : Bool} (stage : HandlerStage) (hstage : s.handlers.get id = some .registering)
      (hok : ok = false → opts.grants = false) (hout : .addSessionKeys id ∈ (s.step opts (.registered id ok)).2) :
      Becomes opts s (.registered id ok) { s with handlers := s.handlers.set id stage }
  | stores {id : Nat} {ok : Bool} {jitter : ℚ} {stage : HandlerStage} {handlers : OrderedMap Nat HandlerStage}
      (failures : Half → RearmState) (hstage : s.handlers.get id = some stage) (hother : stage ≠ .registering)
      (hhandlers : handlers = s.handlers.delete id ∨ ∃ stage, handlers = s.handlers.set id stage) :
      Becomes opts s (.stored id ok jitter) { s with handlers := handlers, failures := failures }
  | rearms {hosted : OrderedMap Nat HostedPairing}
      (hcut : Cut s.hosted hosted fun i => s.live .typed = some i ∨ s.live .scan = some i) : Becomes opts s .rearm { s with
        round := s.round + 1
        failures := fun _ => noFailures
        hosted := hosted
        live := fun _ => none }

theorem Tidy.step_becomes (opts : HostingOptions) (h : s.Tidy) (e : ArmingEvent) :
    ∃ u, Becomes opts s e u ∧ Kept u (s.step opts e).1 := by
  cases e with
  | answers call answer =>
    simp only [ArmingState.step]
    cases answer with
    | none =>
      refine ⟨s, .quiet (watched_of nofun nofun nofun), ?_⟩
      split
      · exact Kept.refl s
      · exact answers_none opts s call _
    | some code =>
      cases hc : s.calls.get call with
      | none => exact ⟨s, .quiet (watched_answers_iff.2 fun c hc' => by rw [hc] at hc'; cases hc'), Kept.refl s⟩
      | some c => exact ⟨_, .answers hc, rfl, rfl, rfl, rfl, rfl, Nat.le_refl _⟩
  | settles id outcome =>
    simp only [ArmingState.step]
    have hquiet : Becomes opts s (.settles id outcome) s := .quiet (watched_of nofun nofun nofun)
    split
    · exact ⟨s, hquiet, Kept.refl s⟩
    · rename_i p hp
      split
      · exact ⟨s, hquiet, Kept.refl s⟩
      · rename_i hopen
        exact ⟨_, .settles outcome hp (by simpa using hopen), Kept.refl _⟩
  | hears id jitter =>
    by_cases hready : ∃ p, s.hosted.get id = some p ∧ p.heard = false ∧ p.settled.isSome = true
    · obtain ⟨p, hp, hheard, hsettled⟩ := hready
      have hstep := step_hears opts hp hheard hsettled jitter
      by_cases hround : p.round = s.round
      · rw [hstep]
        obtain ⟨outcome, houtcome⟩ := isSome_iff_exists.1 hsettled
        cases outcome with
        | error failure =>
          obtain ⟨failures, hkept⟩ := hear_failed id jitter houtcome hround
          exact ⟨_, .fails failures hp hheard houtcome hround, hkept⟩
        | ok result =>
          obtain ⟨hosted, heq, hcut⟩ := hear_paired id jitter houtcome hround
          exact ⟨_, .pairs hp hheard houtcome hround hcut, heq ▸ Kept.refl _⟩
      · have hended := @hear_ended s id p jitter hround
        refine ⟨_, .late hp hheard hsettled hround (by rw [hstep, hended]), ?_⟩
        rw [hstep, hended]
        exact Kept.refl _
    · refine ⟨s, .quiet (watched_hears_iff.2 fun p hp hheard hsettled => absurd ⟨p, hp, hheard, hsettled⟩ hready), ?_⟩
      simp only [ArmingState.step]
      split
      · exact Kept.refl s
      · rename_i p hp
        rw [if_pos]
        · exact Kept.refl s
        · by_contra hidle
          simp only [Bool.or_eq_true, not_or, Bool.not_eq_true] at hidle
          exact hready ⟨p, hp, hidle.1, by simpa using hidle.2⟩
  | registered id ok =>
    by_cases hstage : s.handlers.get id = some .registering
    · have hstep : s.step opts (.registered id ok) = s.registered opts id ok := by simp [ArmingState.step, hstage]
      by_cases hshare : (opts.grants && !ok) = true
      · obtain ⟨hgrants, rfl⟩ : opts.grants = true ∧ ok = false := by simpa using hshare
        have hrefused : s.registered opts id false = ({ s with handlers := s.handlers.delete id }, [.notShared id]) :=
          if_pos hshare
        rw [hstep, hrefused]
        exact ⟨_, .refused hstage hgrants (by rw [hstep, hrefused]), Kept.refl _⟩
      · have hok : ok = false → opts.grants = false := by
          rintro rfl
          simpa using hshare
        have hregistered : ∃ stage, (s.registered opts id ok).1 = { s with handlers := s.handlers.set id stage } ∧
            .addSessionKeys id ∈ (s.registered opts id ok).2 := by
          rw [ArmingState.registered, if_neg hshare]
          split
          · exact ⟨_, rfl, by simp⟩
          · exact ⟨_, rfl, by simp⟩
        obtain ⟨stage, heq, hout⟩ := hregistered
        exact ⟨_, .registers stage hstage hok (hstep ▸ hout), by rw [hstep, heq]; exact Kept.refl _⟩
    · refine ⟨s, .quiet ?_, by simp [ArmingState.step, hstage, Kept.refl]⟩
      cases ok with
      | true => exact watched_of nofun nofun nofun
      | false => exact watched_registered_iff.2 fun hstage' => absurd hstage' hstage
  | stored id ok jitter =>
    simp only [ArmingState.step]
    have hquiet : Becomes opts s (.stored id ok jitter) s := .quiet (watched_of nofun nofun nofun)
    split
    · exact ⟨s, hquiet, Kept.refl s⟩
    · exact ⟨s, hquiet, Kept.refl s⟩
    · rename_i stage hother hstage
      cases ok with
      | false =>
        rw [h.stored_false hstage]
        exact ⟨_, .stores s.failures hstage hother (.inl rfl), Kept.refl _⟩
      | true =>
        cases stage with
        | registering => exact absurd rfl hother
        | addingGrant => exact ⟨_, .stores s.failures hstage hother (.inr ⟨_, rfl⟩), Kept.refl _⟩
        | addingPeer => exact ⟨_, .stores _ hstage hother (.inl rfl), complete_kept s id⟩
  | fires timer =>
    refine ⟨s, .quiet (watched_of nofun nofun nofun), ?_⟩
    simp only [ArmingState.step]
    split
    · exact Kept.refl s
    · exact ⟨rfl, rfl, rfl, rfl, rfl, Nat.le_succ _⟩
  | rearm =>
    obtain ⟨hosted, hrearm, hcut⟩ := s.rearm_eq
    exact ⟨_, .rearms hcut, hrearm ▸ armRound_kept _ _⟩

theorem Tidy.unused (h : s.Tidy) (hp : s.hosted.get id = some p) : id ≠ s.next := by
  rintro rfl
  rw [h.fresh _ (Nat.le_refl _)] at hp
  cases hp

theorem Tidy.becomes (h : s.Tidy) (hbecomes : Becomes opts s e t) : t.Tidy := by
  cases hbecomes with
  | quiet hwatched => exact h
  | @answers call c code hc =>
    refine ⟨?_, ?_, ?_⟩
    · intro id hid
      have hid : s.next + 1 ≤ id := hid
      simp only [get_set]
      rw [if_neg (by omega)]
      exact h.fresh id (by omega)
    · intro half id hlive
      simp only [get_set] at hlive ⊢
      by_cases hhalf : half = c.half
      · rw [hhalf, Function.update_self] at hlive
        cases hlive
        rw [if_pos rfl]
        exact ⟨_, rfl, hhalf.symm⟩
      · rw [Function.update_of_ne hhalf] at hlive
        obtain ⟨p, hp, hold⟩ := h.live half id hlive
        rw [if_neg (h.unused hp)]
        exact ⟨p, hp, hold⟩
    · intro id stage hstage
      obtain ⟨p, result, hp, hrest⟩ := h.handler id stage hstage
      simp only [get_set]
      rw [if_neg (h.unused hp)]
      exact ⟨p, result, hp, hrest⟩
  | settles outcome hp hopen =>
    exact h.grown (grownAll_set hp (Grown.settle hopen outcome)) (fun half i hlive => hlive)
      (fun i stage hstage => .inl ⟨stage, hstage⟩) (Nat.le_refl _) (Nat.le_refl _)
  | late hp =>
    exact h.grown (grownAll_set hp (Grown.hear _)) (fun half i hlive => hlive)
      (fun i stage hstage => .inl ⟨stage, hstage⟩) (Nat.le_refl _) (Nat.le_refl _)
  | fails failures hp =>
    exact h.grown (grownAll_set hp (Grown.hear _)) (fun half i hlive => (update_none hlive).2)
      (fun i stage hstage => .inl ⟨stage, hstage⟩) (Nat.le_refl _) (Nat.le_refl _)
  | @pairs id p jitter result hosted hp hheard hsettled hround hcut =>
    refine h.grown ((grownAll_set hp (Grown.hear p)).trans hcut.grown) (fun half i hlive => by cases hlive) ?_
      (Nat.le_succ _) (Nat.le_refl _)
    intro i stage hstage
    simp only [get_set] at hstage
    split at hstage
    · rename_i hi
      rw [hi]
      obtain ⟨q, hq, hq'⟩ := hcut.grown.some id { p with heard := true } (by rw [get_set, if_pos rfl])
      refine .inr ⟨q, result, hq, hq'.settled result hsettled, hq'.heard rfl, ?_⟩
      change q.round < s.round + 1
      rw [hq'.round]
      change p.round < s.round + 1
      omega
    · exact .inl ⟨stage, hstage⟩
  | refused hstage =>
    exact h.grown (GrownAll.refl _) (fun half i hlive => hlive)
      (fun i stage hi => .inl ⟨stage, (get_handlers_delete hi).2⟩) (Nat.le_refl _) (Nat.le_refl _)
  | registers stage hstage =>
    exact h.grown (GrownAll.refl _) (fun half i hlive => hlive)
      (fun i stage hi => .inl (get_handlers_set hstage hi)) (Nat.le_refl _) (Nat.le_refl _)
  | stores failures hstage hother hhandlers =>
    refine h.grown (GrownAll.refl _) (fun half i hlive => hlive) (fun i stage hi => .inl ?_) (Nat.le_refl _)
      (Nat.le_refl _)
    obtain rfl | ⟨stage', rfl⟩ := hhandlers
    · exact ⟨stage, (get_handlers_delete hi).2⟩
    · exact get_handlers_set hstage hi
  | rearms hcut =>
    exact h.grown hcut.grown (fun half i hlive => by cases hlive) (fun i stage hstage => .inl ⟨stage, hstage⟩)
      (Nat.le_succ _) (Nat.le_refl _)

theorem Tidy.step (opts : HostingOptions) (h : s.Tidy) (e : ArmingEvent) : (s.step opts e).1.Tidy := by
  obtain ⟨u, hbecomes, hkept⟩ := h.step_becomes opts e
  exact (h.becomes hbecomes).kept hkept

theorem Tidy.answers (opts : HostingOptions) (h : s.Tidy) {call : Nat} {c : ArmCall} (hc : s.calls.get call = some c)
    (answer : Option String) : (s.answers opts call c answer).1.Tidy := by
  simpa [ArmingState.step, hc] using h.step opts (.answers call answer)

theorem Tidy.hear (h : s.Tidy) (hp : s.hosted.get id = some p) (hheard : p.heard = false)
    (hsettled : p.settled.isSome = true) (jitter : ℚ) : (s.hear id p jitter).1.Tidy :=
  step_hears ⟨"", false⟩ hp hheard hsettled jitter ▸ h.step _ _

/-! ### The codes -/

theorem not_standing (hsettled : p.settled.isSome = true) : p.standing = false := by
  unfold HostedPairing.standing
  rw [Bool.and_eq_false_iff, isNone_eq_false_iff]
  exact .inr hsettled

theorem standing_set (hq : (s.hosted.set id p').get i = some q) (hsettled : p'.settled.isSome = true)
    (hstanding : q.standing = true) : i ≠ id ∧ s.hosted.get i = some q := by
  rw [get_set] at hq
  split at hq
  · cases hq
    rw [not_standing hsettled] at hstanding
    cases hstanding
  · rename_i hne
    exact ⟨hne, hq⟩

theorem Vacant.apart (h : s.Vacant half) (hwatch : s.Watch) (hp : s.hosted.get id = some p)
    (hstanding : p.standing = true) : p.half ≠ half := by
  rintro rfl
  rw [h id p (hwatch id p hp hstanding).1 hp] at hstanding
  cases hstanding

theorem Tidy.watch_answers (h : s.Tidy) (hwatch : s.Watch) (c : ArmCall) (code : String) :
    { s with
      hosted := s.hosted.set s.next ⟨c.half, c.round, code, false, none, false⟩
      live := Function.update s.live c.half (some s.next)
      next := s.next + 1 }.Watch ↔ c.round = s.round ∧ s.Vacant c.half := by
  constructor
  · intro hpost
    refine ⟨?_, ?_⟩
    · exact (hpost s.next ⟨c.half, c.round, code, false, none, false⟩ (by rw [get_set, if_pos rfl]) rfl).2
    · intro id p hlive hp
      by_contra hstanding
      obtain ⟨q, hq, hhalf⟩ := h.live c.half id hlive
      cases hp.symm.trans hq
      have hlive' := (hpost id p (by rw [get_set, if_neg (h.unused hp), hp]) (by simpa using hstanding)).1
      simp only [hhalf, Function.update_self] at hlive'
      exact h.unused hp (Option.some.inj hlive').symm
  · rintro ⟨hround, hvacant⟩ id p hp hstanding
    simp only [get_set] at hp
    split at hp
    · rename_i hid
      cases hp
      refine ⟨?_, hround⟩
      simp [hid]
    · obtain ⟨hlive, hround'⟩ := hwatch id p hp hstanding
      refine ⟨?_, hround'⟩
      simp only [Function.update_of_ne (hvacant.apart hwatch hp hstanding)]
      exact hlive

/-- A code that stands in a half where another one has ended stands afterwards too. -/
theorem Tidy.standing_stays (h : s.Tidy) (hp : s.hosted.get id = some p) (hsettled : p.settled.isSome = true)
    (hlive : s.live p.half = some i) (hq : s.hosted.get i = some q) (hstanding : q.standing = true) :
    (s.hosted.set id { p with heard := true }).get i = some q ∧ q.half = p.half := by
  obtain ⟨q', hq', hhalf⟩ := h.live p.half i hlive
  cases hq.symm.trans hq'
  refine ⟨?_, hhalf⟩
  rw [get_set, if_neg, hq]
  rintro rfl
  cases hp.symm.trans hq
  rw [not_standing hsettled] at hstanding
  cases hstanding

/-- The end of a code of the current round clears its half: that leaves one code if and only if the
half had no other. -/
theorem Tidy.watch_fails (h : s.Tidy) (hwatch : s.Watch) (hp : s.hosted.get id = some p)
    (hsettled : p.settled.isSome = true) (failures : Half → RearmState) : { s with
      hosted := s.hosted.set id { p with heard := true }
      live := Function.update s.live p.half none
      failures := failures }.Watch ↔ s.Vacant p.half := by
  constructor
  · intro hpost i q hlive hq
    by_contra hstanding
    obtain ⟨hset, hhalf⟩ := h.standing_stays hp hsettled hlive hq (by simpa using hstanding)
    have hlive' := (hpost i q hset (by simpa using hstanding)).1
    simp [hhalf] at hlive'
  · intro hvacant i q hq hstanding
    obtain ⟨hne, hq⟩ := standing_set hq hsettled hstanding
    obtain ⟨hlive, hround⟩ := hwatch i q hq hstanding
    refine ⟨?_, hround⟩
    simp only [Function.update_of_ne (hvacant.apart hwatch hq hstanding)]
    exact hlive

theorem Tidy.watch_pairs (h : s.Tidy) (hwatch : s.Watch) (hp : s.hosted.get id = some p)
    (hsettled : p.settled.isSome = true)
    (hcut : Cut (s.hosted.set id { p with heard := true }) hosted fun i => s.live p.half.other = some i)
    (ht : t.hosted = hosted) (hlive' : t.live = fun _ => none) : t.Watch ↔ s.Vacant p.half := by
  constructor
  · intro hpost i q hlive hq
    by_contra hstanding
    obtain ⟨hset, hhalf⟩ := h.standing_stays hp hsettled hlive hq (by simpa using hstanding)
    have hkeeps : hosted.get i = some q := by
      rw [(hcut i).2, hset]
      intro hgone
      obtain ⟨q', hq', hhalf'⟩ := h.live p.half.other i hgone
      cases hq.symm.trans hq'
      rw [hhalf] at hhalf'
      cases hp' : p.half <;> simp [hp', Half.other] at hhalf'
    have hnone := (hpost i q (ht ▸ hkeeps) (by simpa using hstanding)).1
    rw [hlive'] at hnone
    cases hnone
  · intro hvacant i q hq hstanding
    rw [ht] at hq
    obtain ⟨hkeeps, hset⟩ := hcut.standing hq hstanding
    obtain ⟨hne, hold⟩ := standing_set hset hsettled hstanding
    have hside : q.half = p.half.other := by
      have hhalf := hvacant.apart hwatch hold hstanding
      cases hp' : p.half <;> cases hq' : q.half <;> simp [hp', hq', Half.other] at hhalf ⊢
    exact absurd (hside ▸ (hwatch i q hold hstanding).1) hkeeps

/-! ### The browsers that were let in -/

theorem Handling.of_grown (h : s.Handling i)
    (hgrown : ∀ q, s.hosted.get i = some q → ∃ q', t.hosted.get i = some q' ∧ Grown q q' ∧ q'.heard = q.heard)
    (hhandlers : s.handlers.get i = some .registering → t.handlers.get i = some .registering) : t.Handling i := by
  obtain ⟨q, result, hq, hsettled, hunder⟩ := h
  obtain ⟨q', hq', hgrown', hheard⟩ := hgrown q hq
  refine ⟨q', result, hq', hgrown'.settled result hsettled, ?_⟩
  rw [hheard]
  exact hunder.imp id hhandlers

theorem Cut.handling (h : Cut s.hosted hosted gone) (hq : s.hosted.get i = some q) :
    ∃ q', hosted.get i = some q' ∧ Grown q q' ∧ q'.heard = q.heard := by
  obtain ⟨q', hq', rfl | rfl⟩ := h.get hq
  · exact ⟨q', hq', Grown.refl q', rfl⟩
  · exact ⟨_, hq', Grown.cancel q, q.cancel_same.2.2.1⟩

theorem handling_set (h : s.Handling i)
    (hp : s.hosted.get id = some p) (hgrown : Grown p p') (hheard : i = id → p'.heard = p.heard)
    (hhosted : t.hosted = s.hosted.set id p') (hhandlers : t.handlers = s.handlers) : t.Handling i := by
  refine h.of_grown ?_ (fun hregistering => by rw [hhandlers, hregistering])
  intro q hq
  rw [hhosted, get_set]
  split
  · rename_i heq
    rw [heq, hp] at hq
    cases hq
    exact ⟨p', rfl, hgrown, hheard heq⟩
  · exact ⟨q, hq, Grown.refl q, rfl⟩

/-- A pairing that is heard too late is not handled. -/
theorem Tidy.not_handling_heard (h : s.Tidy) (hp : s.hosted.get id = some p) (hheard : p.heard = false)
    (hhosted : t.hosted = s.hosted.set id { p with heard := true }) (hhandlers : t.handlers = s.handlers) :
    ¬ t.Handling id := by
  rintro ⟨q, result, hq, -, hunder⟩
  rw [hhosted, get_set, if_pos rfl] at hq
  cases hq
  obtain hunheard | hstage := hunder
  · cases hunheard
  · obtain ⟨q, result, hq, -, hheard', -⟩ := h.handler id _ (hhandlers ▸ hstage)
    cases hp.symm.trans hq
    rw [hheard] at hheard'
    cases hheard'

/-- The handler of another pairing gets on. -/
theorem handling_other (h : s.Handling i) (hhosted : t.hosted = s.hosted)
    (hhandlers : s.handlers.get i = some .registering → t.handlers.get i = s.handlers.get i) : t.Handling i :=
  h.of_grown (fun q hq => ⟨q, by rw [hhosted, hq], Grown.refl q, rfl⟩)
    fun hregistering => (hhandlers hregistering).trans hregistering

theorem Handling.pairs (h : s.Handling i) (hsettled : p.settled = some (.ok result))
    (hcut : Cut (s.hosted.set id { p with heard := true }) hosted fun i => s.live p.half.other = some i)
    (ht : t.hosted = hosted) (hhandlers : t.handlers = s.handlers.set id .registering) : t.Handling i := by
  by_cases hid : i = id
  · rw [hid]
    obtain ⟨q, hq, hgrown⟩ := hcut.grown.some id { p with heard := true } (by rw [get_set, if_pos rfl])
    refine ⟨q, result, ht ▸ hq, hgrown.settled result hsettled, .inr ?_⟩
    rw [hhandlers, get_set, if_pos rfl]
  · refine h.of_grown ?_ ?_
    · intro q hq
      rw [ht]
      apply hcut.handling (s := { s with hosted := s.hosted.set id { p with heard := true } })
      rw [get_set, if_neg hid, hq]
    · intro hregistering
      rw [hhandlers, get_set, if_neg hid, hregistering]

theorem shown_iff_of (hkept : Kept t (s.step opts e).1) :
    Shown opts ((armingMachine opts).entry s e) ↔
      t.Watch ∧ ∀ i, s.Handling i → t.Handling i ∨ .addSessionKeys i ∈ (s.step opts e).2 := by
  have hwatch : (s.step opts e).1.Watch ↔ t.Watch := by
    unfold Watch
    rw [hkept.hosted, hkept.live, hkept.round]
  have hhandling (i : Nat) : (s.step opts e).1.Handling i ↔ t.Handling i := by
    unfold Handling
    rw [hkept.hosted, hkept.handlers]
  constructor
  · intro h
    exact ⟨hwatch.1 (oneCode_iff.1 h.codes), fun i hi => (h.keys i hi).imp_left (hhandling i).1⟩
  · rintro ⟨h, hkeys⟩
    exact ⟨oneCode_iff.2 (hwatch.2 h), fun i hi => (hkeys i hi).imp_left (hhandling i).2⟩

/-- One step leaves one code, and drops no browser, if and only if nothing of an ended round is
used. -/
theorem Tidy.step_shown_iff (h : s.Tidy) (hwatch : s.Watch) (e : ArmingEvent) :
    Shown opts ((armingMachine opts).entry s e) ↔ Watched opts ((armingMachine opts).entry s e) := by
  obtain ⟨u, hbecomes, hkept⟩ := h.step_becomes opts e
  rw [shown_iff_of hkept]
  cases hbecomes with
  | quiet hwatched => exact iff_of_true ⟨hwatch, fun i hi => .inl hi⟩ hwatched
  | @answers call c code hc =>
    have hiff := h.watch_answers hwatch c code
    rw [watched_answers_iff, hiff]
    constructor
    · rintro ⟨hpost, -⟩ c' hc'
      cases hc.symm.trans hc'
      exact hpost
    · intro hall
      refine ⟨hall c hc, fun i hi => .inl (hi.of_grown ?_ id)⟩
      intro q hq
      exact ⟨q, by rw [get_set, if_neg (h.unused hq), hq], Grown.refl q, rfl⟩
  | settles outcome hp hopen =>
    refine iff_of_true ⟨?_, fun i hi => .inl ?_⟩ (watched_of nofun nofun nofun)
    · intro i q hq hstanding
      exact hwatch i q (standing_set hq rfl hstanding).2 hstanding
    · exact handling_set hi hp (Grown.settle hopen outcome) (fun _ => rfl) rfl rfl
  | @late id p jitter hp hheard hsettled hround hout =>
    rw [watched_hears_iff, hout]
    constructor
    · rintro ⟨-, hkeys⟩ p' hp' - -
      cases hp.symm.trans hp'
      refine ⟨fun heq => absurd heq hround, fun result houtcome => ?_⟩
      obtain hunder | hsent := hkeys id ⟨p, result, hp, houtcome, .inl hheard⟩
      · exact absurd hunder (h.not_handling_heard hp hheard rfl rfl)
      · cases hsent
    · intro hall
      refine ⟨fun i q hq hstanding => ?_, fun i hi => .inl ?_⟩
      · exact hwatch i q (standing_set hq hsettled hstanding).2 hstanding
      · have hne : i ≠ id := by
          rintro rfl
          obtain ⟨q, result, hq, hok, -⟩ := hi
          cases hp.symm.trans hq
          exact hround ((hall p hp hheard hsettled).2 result hok)
        exact handling_set hi hp (Grown.hear p) (fun heq => absurd heq hne) rfl rfl
  | @fails id p jitter failure failures hp hheard hsettled hround =>
    have hended : p.settled.isSome = true := by rw [hsettled]; rfl
    rw [watched_hears_iff, h.watch_fails hwatch hp hended]
    constructor
    · rintro ⟨hvacant, -⟩ p' hp' - -
      cases hp.symm.trans hp'
      exact ⟨fun _ => hvacant, fun _ _ => hround⟩
    · intro hall
      refine ⟨(hall p hp hheard hended).1 hround, fun i hi => .inl ?_⟩
      have hne : i ≠ id := by
        rintro rfl
        obtain ⟨q, result, hq, hok, -⟩ := hi
        cases hp.symm.trans hq
        rw [hsettled] at hok
        cases hok
      exact handling_set hi hp (Grown.hear p) (fun heq => absurd heq hne) rfl rfl
  | @pairs id p jitter result hosted hp hheard hsettled hround hcut =>
    have hended : p.settled.isSome = true := by rw [hsettled]; rfl
    rw [watched_hears_iff, h.watch_pairs hwatch hp hended hcut rfl rfl]
    constructor
    · rintro ⟨hvacant, -⟩ p' hp' - -
      cases hp.symm.trans hp'
      exact ⟨fun _ => hvacant, fun _ _ => hround⟩
    · intro hall
      exact ⟨(hall p hp hheard hended).1 hround, fun i hi => .inl (hi.pairs hsettled hcut rfl rfl)⟩
  | @refused id hstage hgrants hout =>
    rw [watched_registered_iff, hout]
    refine iff_of_false ?_ fun hno => by simp [hno hstage] at hgrants
    rintro ⟨-, hkeys⟩
    obtain ⟨p, result, hp, hsettled, hheard, -⟩ := h.handler id _ hstage
    obtain ⟨q, result', hq, -, hunder⟩ | hsent := hkeys id ⟨p, result, hp, hsettled, .inr hstage⟩
    · have hq : s.hosted.get id = some q := hq
      cases hp.symm.trans hq
      rw [hheard] at hunder
      simp [get_delete] at hunder
    · simp at hsent
  | @registers id ok stage hstage hok hout =>
    refine iff_of_true ⟨hwatch, fun i hi => ?_⟩ ?_
    · by_cases hid : i = id
      · exact .inr (hid ▸ hout)
      · refine .inl (handling_other hi rfl fun _ => ?_)
        rw [get_set, if_neg hid]
    · cases ok with
      | true => exact watched_of nofun nofun nofun
      | false => exact watched_registered_iff.2 fun _ => hok rfl
  | @stores id ok jitter stage handlers failures hstage hother hhandlers =>
    refine iff_of_true ⟨hwatch, fun i hi => .inl (handling_other hi rfl fun hregistering => ?_)⟩
      (watched_of nofun nofun nofun)
    have hid : i ≠ id := by
      rintro rfl
      exact hother (Option.some.inj (hstage.symm.trans hregistering))
    obtain rfl | ⟨stage', rfl⟩ := hhandlers
    · rw [get_delete, if_neg hid]
    · rw [get_set, if_neg hid]
  | rearms hcut =>
    refine iff_of_true ⟨?_, fun i hi => .inl (hi.of_grown (fun q hq => hcut.handling hq) id)⟩
      (watched_of nofun nofun nofun)
    intro i q hq hstanding
    obtain ⟨hkeeps, hold⟩ := hcut.standing hq hstanding
    have hlive := (hwatch i q hold hstanding).1
    cases hhalf : q.half with
    | typed => exact absurd (.inl (hhalf ▸ hlive)) hkeeps
    | scan => exact absurd (.inr (hhalf ▸ hlive)) hkeeps

end ArmingState

theorem tidy_run (opts : HostingOptions) (es : List ArmingEvent) : ((armingMachine opts).run es).Tidy := by
  refine (armingMachine opts).run_invariant ?_ (fun s e h => h.step opts e) es
  have hempty : ArmingState.empty.Tidy :=
    ⟨fun _ _ => rfl, nofun, nofun⟩
  exact hempty.kept (ArmingState.armRound_kept _ _)

theorem watch_of_shown {opts : HostingOptions} {es : List ArmingEvent}
    (h : ∀ x ∈ (armingMachine opts).trace es, Shown opts x) : ((armingMachine opts).run es).Watch := by
  induction es using List.reverseRecOn with
  | nil =>
    intro id p hp
    cases hp
  | append_singleton es e _ =>
    rw [run_snoc]
    obtain ⟨-, hlast⟩ := forall_trace_snoc h
    exact ArmingState.oneCode_iff.1 hlast.codes

/-- In a run at most one code of each half can be claimed, the one on the screen, and no browser that
was let in is dropped, if and only if nothing of an ended round is used. -/
theorem shown_iff (opts : HostingOptions) (es : List ArmingEvent) :
    (∀ x ∈ (armingMachine opts).trace es, Shown opts x) ↔ ∀ x ∈ (armingMachine opts).trace es, Watched opts x := by
  refine run_induction (P := fun es => (∀ x ∈ (armingMachine opts).trace es, Shown opts x) ↔
    ∀ x ∈ (armingMachine opts).trace es, Watched opts x) (by simp [trace_nil]) ?_ es
  intro es e ih
  simp only [trace_snoc, List.forall_mem_append, List.forall_mem_singleton]
  rw [ih]
  refine and_congr_right fun hbefore => ?_
  exact (tidy_run opts es).step_shown_iff (watch_of_shown (ih.2 hbefore)) e

def sampleHosting : HostingOptions := ⟨"https://app.mtmux.com", false⟩

def twoCodesRun : List ArmingEvent :=
  [.answers 0 (some "049111111"), .answers 1 (some "0503kq9XvT2"), .settles 2 (.error .lost),
    .hears 2 0, .rearm, .answers 5 (some "051222222"), .fires 4, .answers 8 (some "052333333")]

/-- A human asks for fresh codes while `hostPairing` is out, and a browser claims what it brings. -/
def droppedBrowserRun : List ArmingEvent :=
  [.answers 0 (some "049111111"), .answers 1 (some "0503kq9XvT2"), .settles 2 (.error .noMatch),
    .hears 2 0, .rearm, .answers 4 (some "051222222"),
    .settles 7 (.ok ⟨⟨[], [], [], ""⟩, "Phone"⟩), .hears 7 0]

/-- Two typed codes can be claimed, of which the screen shows one; and a browser that was sent its
descriptor is forgotten. -/
theorem not_shown :
    ((((armingMachine sampleHosting).run twoCodesRun).hosted.values.filterMap fun p =>
        if p.standing && p.half = .typed then some p.code else none) = ["051222222", "052333333"] ∧
      (((armingMachine sampleHosting).run twoCodesRun).inviteNow sampleHosting).code =
        some "052333333" ∧
      .establish 7 ∈ (armingMachine sampleHosting).outputs droppedBrowserRun ∧
      .addSessionKeys 7 ∉ (armingMachine sampleHosting).outputs droppedBrowserRun ∧
      ((armingMachine sampleHosting).run droppedBrowserRun).handlers.keys = []) ∧
    ¬ (∀ x ∈ (armingMachine sampleHosting).trace twoCodesRun, Shown sampleHosting x) ∧
    ¬ ∀ x ∈ (armingMachine sampleHosting).trace droppedBrowserRun, Shown sampleHosting x := by
  refine ⟨by decide +kernel, ?_, ?_⟩
  · intro h
    have hcodes := (h ((armingMachine sampleHosting).entry
      ((armingMachine sampleHosting).run (twoCodesRun.take 7)) (.answers 8 (some "052333333")))
      (((armingMachine sampleHosting).mem_trace _ _).2 ⟨_, _, [], rfl, rfl⟩)).codes
    have hfirst : (((armingMachine sampleHosting).run twoCodesRun).hosted.get 7).any
        (fun p => p.standing && p.half = .typed) = true := by decide +kernel
    have hsecond : (((armingMachine sampleHosting).run twoCodesRun).hosted.get 9).any
        (fun p => p.standing && p.half = .typed) = true := by decide +kernel
    obtain ⟨p, hp, hp'⟩ := (any_eq_true ..).1 hfirst
    obtain ⟨q, hq, hq'⟩ := (any_eq_true ..).1 hsecond
    simp only [Bool.and_eq_true, decide_eq_true_eq] at hp' hq'
    have hsame := hcodes.one 7 9 p q hp hq hp'.1 hq'.1 (hp'.2.trans hq'.2.symm)
    cases hsame
  · intro h
    have hkeys := (h ((armingMachine sampleHosting).entry
      ((armingMachine sampleHosting).run (droppedBrowserRun.take 7)) (.hears 7 0))
      (((armingMachine sampleHosting).mem_trace _ _).2 ⟨_, _, [], rfl, rfl⟩)).keys 7
    have hbefore : (((armingMachine sampleHosting).run (droppedBrowserRun.take 7)).hosted.get 7).any
        (fun p => p.settled.any Except.isOk && !p.heard) = true := by
      decide +kernel
    have hafter : (((armingMachine sampleHosting).run droppedBrowserRun).hosted.get 7).any
        HostedPairing.heard = true ∧
        ((armingMachine sampleHosting).run droppedBrowserRun).handlers.get 7 = none := by
      decide +kernel
    obtain ⟨p, hp, hp'⟩ := (any_eq_true ..).1 hbefore
    obtain ⟨q, hq, hheard⟩ := (any_eq_true ..).1 hafter.1
    rw [Bool.and_eq_true] at hp'
    have hunder : ((armingMachine sampleHosting).run (droppedBrowserRun.take 7)).Handling 7 := by
      obtain ⟨hok, hunheard⟩ := hp'
      obtain ⟨outcome, hsettled, hok⟩ := (any_eq_true ..).1 hok
      cases outcome with
      | ok result => exact ⟨p, result, hp, hsettled, .inl (by simpa using hunheard)⟩
      | error failure => cases hok
    obtain ⟨r, result, hr, -, hlater⟩ | hsent := hkeys hunder
    · have hr : ((armingMachine sampleHosting).run droppedBrowserRun).hosted.get 7 = some r := hr
      rw [hq] at hr
      cases hr
      obtain hunheard | hstage := hlater
      · rw [hheard] at hunheard
        cases hunheard
      · have hstage : ((armingMachine sampleHosting).run droppedBrowserRun).handlers.get 7 =
            some .registering := hstage
        rw [hafter.2] at hstage
        cases hstage
    · exact absurd hsent (by decide +kernel)

end Mtmux.Cli
