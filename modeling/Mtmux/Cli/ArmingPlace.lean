import Mtmux.Cli.ShownCode

/-! Where each half of the arming loop is in the current round: it has exactly one thing going on, as
long as nothing of an ended round comes back. -/
namespace Mtmux.Cli
open OrderedMap Option

/-- Nothing of an ended round comes back, no half is given up by an arming call that nobody retries,
and the handler of a completed pairing comes to its end. -/
def Steady (opts : HostingOptions) (x : ArmingEntry) : Bool :=
  match x.event with
  | .fires timer => (x.pre.pending.get timer).all fun t => t.round = x.pre.round
  | .answers call (some _) => (x.pre.calls.get call).all fun c => c.round = x.pre.round
  | .answers call none => (x.pre.calls.get call).all fun c => c.round ≠ x.pre.round ||
      match c.origin with
      | .again _ _ => true
      | .whole _ _ | .orphan => false
  | .registered id false => !opts.grants || !current x.pre id .registering
  | .stored id false _ => !current x.pre id .addingGrant && !current x.pre id .addingPeer
  | .stored id true _ => x.pre.handlers.get id ≠ some .addingPeer || current x.pre id .addingPeer
  | _ => true
where
  /-- Is the handler at this stage, in the round that it began? -/
  current (s : ArmingState) (id : Nat) (stage : HandlerStage) : Bool :=
    decide (s.handlers.get id = some stage) &&
      (s.hosted.get id).any fun p => p.round + 1 = s.round

def ExchangeFailure.isGuess (failure : ExchangeFailure) : Bool :=
  failure.kind = .noMatch || failure.kind = .failed

/-- Does a typed code end because it was claimed with a wrong one? -/
def wrongCode (x : ArmingEntry) : Bool :=
  match x.event with
  | .settles id (.error failure) => failure.isGuess &&
      (x.pre.hosted.get id).any fun p => p.half = .typed && p.settled.isNone
  | _ => false

/-- One of the budgets of the half is spent. -/
def ArmingState.Exhausted (s : ArmingState) (half : Half) : Prop :=
  (limitsFor half).expiries ≤ (s.failures half).expiries ∨
    (limitsFor half).wrong ≤ (s.failures half).wrong ∨ (limitsFor half).lost ≤ (s.failures half).lost

inductive HalfPlace where
  | calling (call : Nat)
  | waiting (timer : Nat)
  | shown (id : Nat)
  | finishing (id : Nat)

def HalfPlace.armed : HalfPlace → Bool
  | .calling _ | .waiting _ | .shown _ => true
  | .finishing _ => false

def HalfPlace.code : HalfPlace → Option Nat
  | .shown id => some id
  | _ => none

namespace ArmingState
variable {s t u : ArmingState} {opts : HostingOptions} {half half' : Half} {old new : HalfPlace}
  {place : Option HalfPlace}

/-- The handler of the pairing that ended the round before. -/
def Finishing (s : ArmingState) (id : Nat) : Prop :=
  ∃ stage, s.handlers.get id = some stage ∧ ∃ p, s.hosted.get id = some p ∧ p.round + 1 = s.round

/-- Does this go on for the half in the current round? -/
def Has (s : ArmingState) (half : Half) : HalfPlace → Prop
  | .calling call => ∃ c, s.calls.get call = some c ∧ c.half = half ∧ c.round = s.round
  | .waiting timer => ∃ t, s.pending.get timer = some t ∧ t.half = half ∧ t.round = s.round
  | .shown id => ∃ p, s.hosted.get id = some p ∧ p.half = half ∧ p.round = s.round ∧ p.heard = false
  | .finishing id => s.Finishing id

/-- The one thing that goes on for the half, if there is any. -/
structure Placed (s : ArmingState) (half : Half) (place : Option HalfPlace) : Prop where
  has : ∀ q, s.Has half q ↔ place = some q
  live : s.live half = place.bind HalfPlace.code

/-- A half with nothing going on has spent one of its budgets, and one that is armed has wrong codes
left. -/
def Funded (s : ArmingState) (half : Half) : Option HalfPlace → Prop
  | none => s.Exhausted half
  | some q => q.armed = true → (s.failures half).wrong < (limitsFor half).wrong

/-- Rounds and ids of what is outstanding; a code that has not ended is of the current round. -/
structure Bounded (s : ArmingState) : Prop where
  calls : ∀ call c, s.calls.get call = some c → call < s.next ∧ c.round ≤ s.round ∧
    ∀ round reason, c.origin = .again round reason → round = c.round
  pending : ∀ timer t, s.pending.get timer = some t → timer < s.next ∧ t.round ≤ s.round
  hosted : ∀ id p, s.hosted.get id = some p → p.round ≤ s.round
  unsettled : ∀ id p, s.hosted.get id = some p → p.settled = none →
    p.round = s.round ∧ p.heard = false ∧ p.cancelled = false

/-- What goes on for the half is the same in both states. -/
structure Alike (half : Half) (s t : ArmingState) : Prop where
  has : ∀ q, t.Has half q ↔ s.Has half q
  live : t.live half = s.live half
  failures : t.failures half = s.failures half

theorem Alike.refl (half : Half) (s : ArmingState) : Alike half s s := ⟨fun _ => Iff.rfl, rfl, rfl⟩

theorem Alike.trans (h : Alike half s t) (h' : Alike half t u) : Alike half s u :=
  ⟨fun q => (h'.has q).trans (h.has q), h'.live.trans h.live, h'.failures.trans h.failures⟩

theorem Alike.symm (h : Alike half s t) : Alike half t s :=
  ⟨fun q => (h.has q).symm, h.live.symm, h.failures.symm⟩

theorem Placed.alike (h : s.Placed half place) (halike : Alike half s t) : t.Placed half place :=
  ⟨fun q => (halike.has q).trans (h.has q), halike.live.trans h.live⟩

theorem Funded.alike (h : s.Funded half place) (halike : Alike half s t) : t.Funded half place := by
  cases place with
  | none =>
    unfold Funded Exhausted
    rw [halike.failures]
    exact h
  | some q =>
    unfold Funded
    rw [halike.failures]
    exact h

/-- One thing more goes on, for the half. -/
structure Adds (s t : ArmingState) (half : Half) (new : HalfPlace) : Prop where
  has : ∀ half' q, t.Has half' q ↔ q = new ∧ half = half' ∨ s.Has half' q
  live : t.live half = new.code.or (s.live half)
  others : ∀ half', half' ≠ half → t.live half' = s.live half'
  failures : t.failures = s.failures

theorem Adds.placed (h : Adds s t half new) (hfree : s.Placed half none) : t.Placed half (some new) := by
  refine ⟨?_, ?_⟩
  · intro q
    rw [h.has, hfree.has]
    simp [eq_comm]
  · rw [h.live, hfree.live]
    simp

theorem Adds.alike (h : Adds s t half new) (hne : half' ≠ half) : Alike half' s t := by
  refine ⟨?_, h.others half' hne, by rw [h.failures]⟩
  intro q
  rw [h.has]
  simp [Ne.symm hne]

/-- One thing that went on for the half is over. -/
structure Drops (s t : ArmingState) (half : Half) (old : HalfPlace) : Prop where
  has : ∀ half' q, t.Has half' q ↔ q ≠ old ∧ s.Has half' q
  live : s.live half = old.code → t.live half = none
  others : ∀ half', half' ≠ half → t.live half' = s.live half' ∧ t.failures half' = s.failures half'

theorem Drops.placed (h : Drops s t half old) (hplaced : s.Placed half (some old)) : t.Placed half none := by
  refine ⟨?_, h.live hplaced.live⟩
  intro q
  rw [h.has, hplaced.has]
  simp [eq_comm]

theorem alike_of_has (h : ∀ q, t.Has half q ↔ q ≠ old ∧ s.Has half q) (hnone : ¬ s.Has half old)
    (hlive : t.live half = s.live half) (hfailures : t.failures half = s.failures half) : Alike half s t := by
  refine ⟨?_, hlive, hfailures⟩
  intro q
  rw [h]
  refine ⟨And.right, fun hq => ⟨?_, hq⟩⟩
  rintro rfl
  exact hnone hq

theorem Has.half_eq (h : s.Has half old) (h' : s.Has half' old) (harmed : old.armed = true) : half' = half := by
  cases old with
  | finishing id => cases harmed
  | _ =>
    obtain ⟨a, ha, rfl, -⟩ := h
    obtain ⟨b, hb, rfl, -⟩ := h'
    cases ha.symm.trans hb
    rfl

/-- Each half has one place in the current round. -/
structure Orderly (s : ArmingState) : Prop where
  tidy : s.Tidy
  bounded : s.Bounded
  placed : ∀ half, ∃ place, s.Placed half place ∧ s.Funded half place

section
variable (h : s.Orderly)
include h

theorem Orderly.alike (htidy : t.Tidy) (hbounded : t.Bounded)
    (halike : ∀ half, Alike half s t) : t.Orderly := by
  refine ⟨htidy, hbounded, fun half => ?_⟩
  obtain ⟨place, hplaced, hfunded⟩ := h.placed half
  exact ⟨place, hplaced.alike (halike half), hfunded.alike (halike half)⟩

theorem Orderly.at (hhas : s.Has half old) : s.Placed half (some old) ∧ s.Funded half (some old) := by
  obtain ⟨place, hplaced⟩ := h.placed half
  exact (hplaced.1.has old).1 hhas ▸ hplaced

theorem Orderly.drops (hhas : s.Has half old) (harmed : old.armed = true) (hdrops : Drops s t half old) :
    t.Placed half none ∧ ∀ half', half' ≠ half → ∃ place, t.Placed half' place ∧ t.Funded half' place := by
  refine ⟨hdrops.placed (h.at hhas).1, fun half' hne => ?_⟩
  obtain ⟨place, hplaced, hfunded⟩ := h.placed half'
  obtain ⟨hlive, hfailures⟩ := hdrops.others half' hne
  have halike := alike_of_has (hdrops.has half') (fun hhas' => hne (hhas.half_eq hhas' harmed)) hlive hfailures
  exact ⟨place, hplaced.alike halike, hfunded.alike halike⟩

/-- One thing that a half has is over, and another one begins. -/
theorem Orderly.moves (hhas : s.Has half old) (harmed : old.armed = true) (hdrops : Drops s t half old)
    (hadds : Adds t u half new) (hbudget : (u.failures half).wrong < (limitsFor half).wrong) (htidy : u.Tidy)
    (hbounded : u.Bounded) : u.Orderly := by
  obtain ⟨hfree, hothers⟩ := h.drops hhas harmed hdrops
  refine ⟨htidy, hbounded, fun half' => ?_⟩
  by_cases hne : half' = half
  · rw [hne]
    exact ⟨some new, hadds.placed hfree, fun _ => hbudget⟩
  · obtain ⟨place, hplaced, hfunded⟩ := hothers half' hne
    exact ⟨place, hplaced.alike (hadds.alike hne), hfunded.alike (hadds.alike hne)⟩

end

section
variable (h : s.Bounded)
include h

theorem Bounded.new_call : s.calls.get s.next = none := by
  by_contra hsome
  obtain ⟨c, hc⟩ := ne_none_iff_exists'.1 hsome
  exact absurd (h.calls _ c hc).1 (Nat.lt_irrefl _)

theorem Bounded.new_timer : s.pending.get s.next = none := by
  by_contra hsome
  obtain ⟨t, ht⟩ := ne_none_iff_exists'.1 hsome
  exact absurd (h.pending _ t ht).1 (Nat.lt_irrefl _)

theorem Bounded.adds_armHalf (half : Half) (origin : ArmOrigin) :
    Adds s (s.armHalf half origin).1 half (.calling s.next) := by
  refine ⟨?_, rfl, fun _ _ => rfl, rfl⟩
  intro half' q
  cases q with
  | calling c =>
    simp only [Has, ArmingState.armHalf, exists_set_new h.new_call]
    simp
  | _ => simp [Has, Finishing, ArmingState.armHalf]

theorem Bounded.armHalf (half : Half) {origin : ArmOrigin}
    (horigin : ∀ round reason, origin = .again round reason → round = s.round) : (s.armHalf half origin).1.Bounded := by
  refine ⟨forall_set ?_ ⟨Nat.lt_succ_self _, Nat.le_refl _, horigin⟩, ?_, h.hosted, h.unsettled⟩
  · exact fun call c hc => ⟨Nat.lt_succ_of_lt (h.calls call c hc).1, (h.calls call c hc).2⟩
  · exact fun timer t ht => ⟨Nat.lt_succ_of_lt (h.pending timer t ht).1, (h.pending timer t ht).2⟩

theorem Bounded.armRound (hfree : ∀ half, s.Placed half none)
    (hfailures : ∀ half, s.failures half = noFailures) (cause : ArmCause)
    (htidy : (s.armRound cause).1.Tidy) : (s.armRound cause).1.Orderly := by
  have hfirst := @Bounded.armHalf _ h .typed (.whole s.next cause) nofun
  have htyped := h.adds_armHalf .typed (.whole s.next cause)
  have hscan := hfirst.adds_armHalf .scan (.whole s.next cause)
  refine ⟨htidy, hfirst.armHalf .scan nofun, fun half => ?_⟩
  have hbudget : (s.failures half).wrong < (limitsFor half).wrong := by
    rw [hfailures]
    cases half with
    | typed | scan => decide
  cases half with
  | typed => exact ⟨_, (htyped.placed (hfree .typed)).alike (hscan.alike (by decide)), fun _ => hbudget⟩
  | scan => exact ⟨_, hscan.placed ((hfree .scan).alike (htyped.alike (by decide))), fun _ => hbudget⟩

theorem Bounded.has_setTimer (timer : RearmTimer) (half : Half) (q : HalfPlace) :
    ({ s with pending := s.pending.set s.next timer, next := s.next + 1 } : ArmingState).Has half q ↔
      q = .waiting s.next ∧ timer.half = half ∧ timer.round = s.round ∨ s.Has half q := by
  cases q with
  | waiting i =>
    simp only [Has, exists_set_new h.new_timer]
    simp
  | _ => simp [Has, Finishing]

theorem Bounded.setTimer (timer : RearmTimer) (hround : timer.round ≤ s.round) :
    ({ s with pending := s.pending.set s.next timer, next := s.next + 1 } : ArmingState).Bounded := by
  refine ⟨?_, forall_set ?_ ⟨Nat.lt_succ_self _, hround⟩, h.hosted, h.unsettled⟩
  · exact fun call c hc => ⟨Nat.lt_succ_of_lt (h.calls call c hc).1, (h.calls call c hc).2⟩
  · exact fun i t ht => ⟨Nat.lt_succ_of_lt (h.pending i t ht).1, (h.pending i t ht).2⟩

variable {round : Nat}

theorem Bounded.scheduleRearm (half : Half) (hround : round = s.round)
    (reason : RearmReason) (delayMs : Nat) : (s.scheduleRearm half round reason delayMs).1.Bounded := by
  unfold ArmingState.scheduleRearm
  split
  · refine h.armHalf half ?_
    intro r reason' heq
    cases heq
    exact hround
  · exact h.setTimer ⟨half, round, reason, delayMs⟩ (Nat.le_of_eq hround)

/-- The half is armed at once or its timer is set. -/
theorem Bounded.adds_scheduleRearm (half : Half) (hround : round = s.round) (reason : RearmReason) (delayMs : Nat) :
    ∃ new, Adds s (s.scheduleRearm half round reason delayMs).1 half new := by
  unfold ArmingState.scheduleRearm
  split
  · exact ⟨_, h.adds_armHalf half _⟩
  · refine ⟨.waiting s.next, ?_, rfl, fun _ _ => rfl, rfl⟩
    intro half' q
    rw [h.has_setTimer]
    simp [hround]

theorem Bounded.alike_stale (hround : round ≠ s.round)
    (half half' : Half) (reason : RearmReason) {delayMs : Nat} (hdelay : delayMs ≠ 0) :
    Alike half' s (s.scheduleRearm half round reason delayMs).1 := by
  unfold ArmingState.scheduleRearm
  rw [if_neg hdelay]
  refine ⟨?_, rfl, rfl⟩
  intro q
  rw [h.has_setTimer]
  simp [hround]

end

theorem has_deleteCall (s : ArmingState) (call : Nat) (half : Half) (q : HalfPlace) :
    ({ s with calls := s.calls.delete call } : ArmingState).Has half q ↔ q ≠ .calling call ∧ s.Has half q := by
  cases q with
  | calling c =>
    simp only [Has, exists_delete]
    simp
  | _ => simp [Has, Finishing]

theorem drops_deleteCall (s : ArmingState) (call : Nat) (half : Half) :
    Drops s { s with calls := s.calls.delete call } half (.calling call) :=
  ⟨s.has_deleteCall call, id, fun _ _ => ⟨rfl, rfl⟩⟩

theorem Bounded.deleteCall (h : s.Bounded) (call : Nat) :
    ({ s with calls := s.calls.delete call } : ArmingState).Bounded :=
  { h with calls := forall_delete h.calls call }

theorem drops_deleteTimer (s : ArmingState) (timer : Nat) (half : Half) :
    Drops s { s with pending := s.pending.delete timer } half (.waiting timer) := by
  refine ⟨?_, id, fun _ _ => ⟨rfl, rfl⟩⟩
  intro half' q
  cases q with
  | waiting i =>
    simp only [Has, exists_delete]
    simp
  | _ => simp [Has, Finishing]

theorem Bounded.deleteTimer (h : s.Bounded) (timer : Nat) :
    ({ s with pending := s.pending.delete timer } : ArmingState).Bounded :=
  { h with pending := forall_delete h.pending timer }

variable {id call : Nat} {p : HostedPairing}

/-- A code whose end is heard is not on the screen any more. -/
theorem has_heard (hp : s.hosted.get id = some p) (half : Half) (q : HalfPlace) :
    ({ s with hosted := s.hosted.set id { p with heard := true } } : ArmingState).Has half q ↔
      q ≠ .shown id ∧ s.Has half q := by
  cases q with
  | shown i =>
    simp only [Has, exists_set]
    simp
  | finishing i =>
    simp only [Has, Finishing, ne_eq, reduceCtorEq, not_false_eq_true, true_and]
    exact exists_congr fun _ => and_congr_right fun _ => exists_set_same hp Iff.rfl
  | _ => simp [Has]

theorem alike_settled (hp : s.hosted.get id = some p) (outcome : Except ExchangeFailure PairingResult) (half : Half) :
    Alike half s { s with hosted := s.hosted.set id { p with settled := some outcome } } := by
  refine ⟨?_, rfl, rfl⟩
  intro q
  cases q with
  | shown i => exact exists_set_same hp Iff.rfl
  | finishing i => exact exists_congr fun _ => and_congr_right fun _ => exists_set_same hp Iff.rfl
  | _ => rfl

theorem Bounded.setCode (h : s.Bounded) (p' : HostedPairing)
    (hp : s.hosted.get id = some p) (hround : p'.round = p.round) (hsettled : p'.settled.isSome = true) :
    ({ s with hosted := s.hosted.set id p' } : ArmingState).Bounded := by
  refine ⟨h.calls, h.pending, forall_set h.hosted ?_, forall_set h.unsettled ?_⟩
  · rw [hround]
    exact h.hosted id p hp
  · intro hopen
    rw [hopen] at hsettled
    cases hsettled

variable {c : ArmCall}

theorem Tidy.adds_code (h : s.Tidy) (hround : c.round = s.round) (code : String) :
    Adds s { s with
      hosted := s.hosted.set s.next ⟨c.half, c.round, code, false, none, false⟩
      live := Function.update s.live c.half (some s.next)
      next := s.next + 1 } c.half (.shown s.next) := by
  have hnew := h.fresh s.next (Nat.le_refl _)
  refine ⟨?_, by simp [HalfPlace.code], fun half hne => Function.update_of_ne hne .., rfl⟩
  intro half q
  cases q with
  | shown i =>
    simp only [Has, exists_set_new hnew, hround]
    simp
  | finishing i =>
    simp only [Has, Finishing, exists_set_new hnew, hround]
    simp
  | _ => simp [Has]

theorem Bounded.addCode (h : s.Bounded) (hround : c.round = s.round) (code : String) :
    ({ s with
      hosted := s.hosted.set s.next ⟨c.half, c.round, code, false, none, false⟩
      live := Function.update s.live c.half (some s.next)
      next := s.next + 1 } : ArmingState).Bounded := by
  refine ⟨?_, ?_, forall_set h.hosted (Nat.le_of_eq hround), forall_set h.unsettled fun _ => ⟨hround, rfl, rfl⟩⟩
  · exact fun call c hc => ⟨Nat.lt_succ_of_lt (h.calls call c hc).1, (h.calls call c hc).2⟩
  · exact fun i t ht => ⟨Nat.lt_succ_of_lt (h.pending i t ht).1, (h.pending i t ht).2⟩

theorem Orderly.answers_some (h : s.Orderly)
    (hc : s.calls.get call = some c) (hround : c.round = s.round) (code : String) :
    (s.answers opts call c (some code)).1.Orderly := by
  have hhas : s.Has c.half (.calling call) := ⟨c, hc, rfl, hround⟩
  have htidy : ({ s with calls := s.calls.delete call } : ArmingState).Tidy :=
    h.tidy.kept ⟨rfl, rfl, rfl, rfl, rfl, Nat.le_refl _⟩
  exact h.moves hhas rfl (s.drops_deleteCall call c.half) (htidy.adds_code hround code) ((h.at hhas).2 rfl)
    (h.tidy.answers opts hc (some code)) ((h.bounded.deleteCall call).addCode hround code)

variable {round : Nat} {reason : RearmReason}

theorem answers_again (s : ArmingState) (call : Nat) (horigin : c.origin = .again round reason) :
    (s.answers opts call c none).1 =
      ({ s with calls := s.calls.delete call }.scheduleRearm c.half round reason rearmRetryMs).1 := by
  simp only [answers, horigin, andThen]

/-- The half waits, and arms again when the timer fires. -/
theorem Orderly.answers_again (h : s.Orderly) (hc : s.calls.get call = some c) (hcurrent : c.round = s.round)
    (horigin : c.origin = .again round reason) : (s.answers opts call c none).1.Orderly ∧
      ∃ q, (s.answers opts call c none).1.Has c.half q := by
  have hround := ((h.bounded.calls call c hc).2.2 round reason horigin).trans hcurrent
  have hhas : s.Has c.half (.calling call) := ⟨c, hc, rfl, hcurrent⟩
  have hbounded := h.bounded.deleteCall call
  obtain ⟨new, hadds⟩ := hbounded.adds_scheduleRearm c.half hround reason rearmRetryMs
  have htidy := h.tidy.answers opts hc none
  rw [ArmingState.answers_again s call horigin] at htidy ⊢
  refine ⟨h.moves hhas rfl (s.drops_deleteCall call c.half) hadds ?_ htidy
    (hbounded.scheduleRearm c.half hround reason _), new, (hadds.has c.half new).2 (.inl ⟨rfl, rfl⟩)⟩
  rw [hadds.failures]
  exact (h.at hhas).2 rfl

theorem Bounded.answers_stale (opts : HostingOptions) (h : s.Bounded)
    (hc : s.calls.get call = some c) (hstale : c.round ≠ s.round) : (s.answers opts call c none).1.Bounded ∧
      ∀ half, Alike half s (s.answers opts call c none).1 := by
  obtain ⟨-, hle, hagain⟩ := h.calls call c hc
  have hbounded := h.deleteCall call
  have hgone (half : Half) : Alike half s { s with calls := s.calls.delete call } := by
    refine alike_of_has (s.has_deleteCall call half) ?_ rfl rfl
    rintro ⟨d, hd, -, hround⟩
    cases hc.symm.trans hd
    exact hstale hround
  cases horigin : c.origin with
  | again round reason =>
    have hround := hagain round reason horigin
    rw [ArmingState.answers_again s call horigin]
    refine ⟨?_, fun half => (hgone half).trans
      (hbounded.alike_stale (fun heq => hstale (hround ▸ heq)) _ _ _ (by decide))⟩
    unfold ArmingState.scheduleRearm
    rw [if_neg (by decide)]
    exact hbounded.setTimer ⟨c.half, round, reason, rearmRetryMs⟩ (hround ▸ hle)
  | orphan =>
    have hanswers : (s.answers opts call c none).1 = { s with calls := s.calls.delete call } := by
      simp only [answers, horigin]
    rw [hanswers]
    exact ⟨hbounded, hgone⟩
  | whole first cause =>
    obtain ⟨f, hanswers, hf⟩ : ∃ f : ArmCall → ArmCall,
        (s.answers opts call c none).1 = { s with calls := (s.calls.delete call).mapValues f } ∧
        ∀ d, (f d).half = d.half ∧ (f d).round = d.round ∧
          ∀ round reason, (f d).origin = .again round reason → d.origin = .again round reason := by
      refine ⟨fun d => if d.origin = .whole first cause then { d with origin := .orphan } else d, ?_, ?_⟩
      · simp only [answers, horigin]
      · intro d
        dsimp only
        split
        · exact ⟨rfl, rfl, by simp⟩
        · exact ⟨rfl, rfl, fun _ _ heq => heq⟩
    rw [hanswers]
    refine ⟨{ hbounded with calls := ?_ }, ?_⟩
    · intro i d hd
      simp only [get_mapValues] at hd
      obtain ⟨b, hb, rfl⟩ := map_eq_some_iff.1 hd
      obtain ⟨hlt, hle, hagain⟩ := hbounded.calls i b hb
      obtain ⟨-, hround, horigin'⟩ := hf b
      rw [hround]
      exact ⟨hlt, hle, fun round reason heq => hagain round reason (horigin' round reason heq)⟩
    · intro half
      refine (hgone half).trans ⟨?_, rfl, rfl⟩
      intro q
      cases q with
      | calling i =>
        simp only [Has, get_mapValues, map_eq_some_iff]
        constructor
        · rintro ⟨-, ⟨b, hb, rfl⟩, hhalf, hround⟩
          exact ⟨b, hb, (hf b).1 ▸ hhalf, (hf b).2.1 ▸ hround⟩
        · rintro ⟨d, hd, hhalf, hround⟩
          exact ⟨f d, ⟨d, hd, rfl⟩, (hf d).1.trans hhalf, (hf d).2.1.trans hround⟩
      | _ => rfl

theorem rearmDecision_spends {kind : PairingErrorKind} (hkind : kind ≠ .tooManyPeers)
    (state : RearmState) (max : RearmLimits) (jitter : ℚ) :
    let decision := rearmDecision (some kind) state max jitter
    (decision.rearm = false → max.expiries ≤ decision.state.expiries ∨
      max.wrong ≤ decision.state.wrong ∨ max.lost ≤ decision.state.lost) ∧
    (decision.rearm = true → state.wrong < max.wrong → decision.state.wrong < max.wrong) := by
  cases kind with
  | tooManyPeers => exact absurd rfl hkind
  | _ =>
    simp only [rearmDecision, getD_some, decide_eq_false_iff_not, decide_eq_true_eq]
    omega

theorem kind_ne (failure : ExchangeFailure) : failure.kind ≠ .tooManyPeers := by
  cases failure with
  | _ => exact nofun

def decided (s : ArmingState) (p : HostedPairing) (failure : ExchangeFailure) (jitter : ℚ) :
    RearmDecision :=
  rearmDecision (some failure.kind) (s.failures p.half) (limitsFor p.half) jitter

def charged (s : ArmingState) (id : Nat) (p : HostedPairing) (failure : ExchangeFailure)
    (jitter : ℚ) : ArmingState :=
  { s with
    hosted := s.hosted.set id { p with heard := true }
    live := Function.update s.live p.half none
    failures := Function.update s.failures p.half (s.decided p failure jitter).state }

variable {failure : ExchangeFailure}

theorem hear_charged (id : Nat) (jitter : ℚ)
    (hsettled : p.settled = some (.error failure)) (hround : p.round = s.round) :
    ∃ reason warned, (s.hear id p jitter = andThen (s.charged id p failure jitter, warned) fun t =>
      if (s.decided p failure jitter).rearm then
        t.scheduleRearm p.half p.round reason (s.decided p failure jitter).delayMs
      else (t, if (t.live .typed).isNone && (t.live .scan).isNone then [.idle] else [])) ∧
      ∀ o ∈ warned, ∃ warning wrong delayMs, o = .warned p.half warning wrong delayMs := by
  have hhear : s.hear id p jitter =
      { s with hosted := s.hosted.set id { p with heard := true } }.failed p.half p.round
        (some failure.kind) jitter := by simp only [hear, hsettled]
  rw [hhear]
  unfold failed
  rw [if_neg (not_not_intro hround)]
  refine ⟨_, _, rfl, ?_⟩
  intro o ho
  obtain ⟨warning, -, rfl⟩ := List.mem_map.1 ho
  exact ⟨warning, _, _, rfl⟩

theorem Bounded.charged (h : s.Bounded)
    (hp : s.hosted.get id = some p) (hsettled : p.settled = some (.error failure)) (jitter : ℚ) :
    (s.charged id p failure jitter).Bounded := by
  have hset := h.setCode { p with heard := true } hp rfl (by rw [hsettled]; rfl)
  exact { hset with }

theorem drops_charged (hp : s.hosted.get id = some p) (failure : ExchangeFailure) (jitter : ℚ) :
    Drops s (s.charged id p failure jitter) p.half (.shown id) := by
  refine ⟨fun half q => has_heard hp half q, fun _ => Function.update_self .., fun half hne => ?_⟩
  exact ⟨Function.update_of_ne hne .., Function.update_of_ne hne ..⟩

theorem Orderly.hear_failed (h : s.Orderly) (hp : s.hosted.get id = some p) (hheard : p.heard = false)
    (hsettled : p.settled = some (.error failure)) (hround : p.round = s.round) (jitter : ℚ) :
    (s.hear id p jitter).1.Orderly := by
  have hhas : s.Has p.half (.shown id) := ⟨p, hp, rfl, hround, hheard⟩
  have htidy := h.tidy.hear hp hheard (by rw [hsettled]; rfl) jitter
  obtain ⟨reason, warned, hhear, -⟩ := hear_charged id jitter hsettled hround
  have hbounded := h.bounded.charged hp hsettled jitter
  have hdrops := drops_charged hp failure jitter
  have hspends := rearmDecision_spends (kind_ne failure) (s.failures p.half) (limitsFor p.half) jitter
  have hfailures : (s.charged id p failure jitter).failures p.half =
      (s.decided p failure jitter).state := Function.update_self ..
  rw [hhear] at htidy ⊢
  simp only [andThen] at htidy ⊢
  cases hdecided : (s.decided p failure jitter).rearm with
  | true =>
    simp only [hdecided, if_true] at htidy ⊢
    obtain ⟨new, hadds⟩ := hbounded.adds_scheduleRearm p.half hround reason (s.decided p failure jitter).delayMs
    refine h.moves hhas rfl hdrops hadds ?_ htidy (hbounded.scheduleRearm p.half hround reason _)
    rw [hadds.failures, hfailures]
    exact hspends.2 hdecided ((h.at hhas).2 rfl)
  | false =>
    simp only [hdecided, Bool.false_eq_true, if_false] at htidy ⊢
    obtain ⟨hfree, hothers⟩ := h.drops hhas rfl hdrops
    refine ⟨htidy, hbounded, fun half => ?_⟩
    by_cases hne : half = p.half
    · rw [hne]
      refine ⟨none, hfree, ?_⟩
      unfold Funded Exhausted
      rw [hfailures]
      exact hspends.1 hdecided
    · exact hothers half hne

theorem cancel_settled (h : p.settled = none → p.cancelled = false) : p.cancel.settled ≠ none := by
  unfold HostedPairing.cancel
  split
  · rename_i hcancelled
    intro hnone
    rw [h hnone] at hcancelled
    cases hcancelled
  · simp

theorem Cut.closed {hosted hosted' : OrderedMap Nat HostedPairing} {gone : Nat → Prop} (h : Cut hosted hosted' gone)
    (hopen : ∀ i q, hosted.get i = some q → q.settled = none → gone i ∧ q.cancelled = false) :
    ∀ i q, hosted'.get i = some q → q.settled ≠ none := by
  intro i q hq
  by_cases hi : gone i
  · rw [(h i).1 hi] at hq
    obtain ⟨q', hq', rfl⟩ := map_eq_some_iff.1 hq
    exact cancel_settled fun hnone => (hopen i q' hq' hnone).2
  · rw [(h i).2 hi] at hq
    exact fun hnone => hi (hopen i q hq hnone).1

/-- A round ends: nothing that is outstanding is of the new one, but for handlers. -/
theorem Bounded.ended (h : s.Bounded) {hosted : OrderedMap Nat HostedPairing}
    (hgrown : GrownAll s.hosted hosted)
    (hclosed : ∀ id p, hosted.get id = some p → p.settled ≠ none) (failures : Half → RearmState)
    (handlers : OrderedMap Nat HandlerStage) :
    let t : ArmingState := { s with
      round := s.round + 1
      failures := failures
      hosted := hosted
      live := fun _ => none
      handlers := handlers }
    t.Bounded ∧ ∀ half q, t.Has half q → ∃ id, q = .finishing id ∧ t.Finishing id := by
  have hround {id : Nat} {p' : HostedPairing} (hp' : hosted.get id = some p') : p'.round ≤ s.round := by
    cases hp : s.hosted.get id with
    | none =>
      rw [hgrown.none id hp] at hp'
      cases hp'
    | some p =>
      obtain ⟨q, hq, hgrown'⟩ := hgrown.some id p hp
      cases hp'.symm.trans hq
      rw [hgrown'.round]
      exact h.hosted id p hp
  refine ⟨⟨?_, ?_, ?_, ?_⟩, ?_⟩
  · intro call c hc
    obtain ⟨hlt, hle, hagain⟩ := h.calls call c hc
    exact ⟨hlt, Nat.le_succ_of_le hle, hagain⟩
  · intro timer t ht
    obtain ⟨hlt, hle⟩ := h.pending timer t ht
    exact ⟨hlt, Nat.le_succ_of_le hle⟩
  · exact fun id p hp => Nat.le_succ_of_le (hround hp)
  · exact fun id p hp hopen => absurd hopen (hclosed id p hp)
  · intro half q hq
    cases q with
    | calling c =>
      obtain ⟨d, hd, -, heq⟩ := hq
      exact absurd (heq ▸ (h.calls c d hd).2.1) (Nat.not_succ_le_self _)
    | waiting i =>
      obtain ⟨d, hd, -, heq⟩ := hq
      exact absurd (heq ▸ (h.pending i d hd).2) (Nat.not_succ_le_self _)
    | shown id =>
      obtain ⟨p, hp, -, heq, -⟩ := hq
      exact absurd (heq ▸ hround hp) (Nat.not_succ_le_self _)
    | finishing id => exact ⟨id, rfl, hq⟩

theorem Orderly.open_live (h : s.Orderly) (hp : s.hosted.get id = some p) (hopen : p.settled = none) :
    s.live p.half = some id ∧ p.cancelled = false := by
  obtain ⟨hround, hheard, hcancelled⟩ := h.bounded.unsettled id p hp hopen
  have hhas : s.Has p.half (.shown id) := ⟨p, hp, rfl, hround, hheard⟩
  exact ⟨(h.at hhas).1.live, hcancelled⟩

/-- The handler of an ended round is not about the round that ends now. -/
theorem Tidy.not_finishing {i : Nat} {stage : HandlerStage} {q : HostedPairing} {hosted : OrderedMap Nat HostedPairing}
    (h : s.Tidy) (hgrown : GrownAll s.hosted hosted) (hstage : s.handlers.get i = some stage)
    (hq : hosted.get i = some q) : q.round + 1 ≠ s.round + 1 := by
  obtain ⟨p, result, hp, -, -, hlt⟩ := h.handler i stage hstage
  obtain ⟨q', hq', hgrown'⟩ := hgrown.some i p hp
  cases hq.symm.trans hq'
  rw [hgrown'.round]
  omega

/-- A human asks for fresh codes. -/
theorem Orderly.rearm (h : s.Orderly) : s.rearm.1.Orderly := by
  have htidy : s.rearm.1.Tidy := h.tidy.step ⟨"", false⟩ .rearm
  obtain ⟨hosted, hrearm, hcut⟩ := s.rearm_eq
  rw [hrearm] at htidy ⊢
  have hclosed := hcut.closed fun i q hq hopen => by
    obtain ⟨hlive, hcancelled⟩ := h.open_live hq hopen
    refine ⟨?_, hcancelled⟩
    cases hhalf : q.half with
    | typed => exact .inl (hhalf ▸ hlive)
    | scan => exact .inr (hhalf ▸ hlive)
  obtain ⟨hbounded, hended⟩ := h.bounded.ended hcut.grown hclosed (fun _ => noFailures) s.handlers
  refine hbounded.armRound (fun half => ⟨fun q => iff_of_false (fun hq => ?_) nofun, rfl⟩) (fun _ => rfl) .rearm htidy
  obtain ⟨i, -, stage, hstage, p, hp, heq⟩ := hended half q hq
  exact h.tidy.not_finishing hcut.grown hstage hp heq

theorem hear_paired_finishing {result : PairingResult}
    (hp : s.hosted.get id = some p) (hsettled : p.settled = some (.ok result))
    (hround : p.round = s.round) (jitter : ℚ) : (s.hear id p jitter).1.Finishing id := by
  obtain ⟨hosted, heq, hcut⟩ := ArmingState.hear_paired id jitter hsettled hround
  rw [heq]
  obtain ⟨q, hq, hgrown⟩ := ((grownAll_set hp (Grown.hear p)).trans hcut.grown).some id p hp
  refine ⟨.registering, by rw [get_set, if_pos rfl], q, hq, ?_⟩
  change q.round + 1 = s.round + 1
  rw [hgrown.round, hround]

theorem Orderly.hear_paired (h : s.Orderly) {result : PairingResult}
    (hp : s.hosted.get id = some p) (hheard : p.heard = false)
    (hsettled : p.settled = some (.ok result)) (hround : p.round = s.round) (jitter : ℚ) :
    (s.hear id p jitter).1.Orderly := by
  have htidy := h.tidy.hear hp hheard (by rw [hsettled]; rfl) jitter
  have hhas : s.Has p.half (.shown id) := ⟨p, hp, rfl, hround, hheard⟩
  have hshown := (h.at hhas).1.live
  have hfinishing := hear_paired_finishing hp hsettled hround jitter
  obtain ⟨hosted, heq, hcut⟩ := ArmingState.hear_paired id jitter hsettled hround
  rw [heq] at htidy hfinishing ⊢
  have hgrown := (grownAll_set hp (Grown.hear p)).trans hcut.grown
  have hclosed := hcut.closed fun i q hq hopen => by
    rw [get_set] at hq
    split at hq
    · cases hq
      cases hsettled.symm.trans hopen
    · rename_i hne
      obtain ⟨hlive, hcancelled⟩ := h.open_live hq hopen
      have hhalf : q.half ≠ p.half := fun hsame => hne (some.inj (hlive.symm.trans (hsame ▸ hshown)))
      exact ⟨Half.eq_other hhalf ▸ hlive, hcancelled⟩
  obtain ⟨hbounded, hended⟩ := h.bounded.ended hgrown hclosed s.failures (s.handlers.set id .registering)
  refine ⟨htidy, hbounded, fun half => ⟨some (.finishing id), ⟨fun q => ⟨fun hq => ?_, ?_⟩, rfl⟩, nofun⟩⟩
  · obtain ⟨i, rfl, stage, hstage, p', hp', heq'⟩ := hended half q hq
    rw [get_set] at hstage
    split at hstage
    · rename_i hi
      rw [hi]
    · exact absurd heq' (h.tidy.not_finishing hgrown hstage hp')
  · rintro heq
    cases heq
    exact hfinishing

theorem steady_again (hsteady : Steady opts ((armingMachine opts).entry s (.answers call none)) = true)
    (hc : s.calls.get call = some c) (hround : c.round = s.round) : ∃ round reason, c.origin = .again round reason := by
  simp only [Steady, Machine.entry, hc, all_some, Bool.or_eq_true] at hsteady
  obtain hstale | hagain := hsteady
  · exact absurd hround (of_decide_eq_true hstale)
  · split at hagain
    · exact ⟨_, _, by assumption⟩
    · cases hagain
    · cases hagain

theorem current_iff (s : ArmingState) (id : Nat) (stage : HandlerStage) :
    Steady.current s id stage = true ↔ s.handlers.get id = some stage ∧ s.Finishing id := by
  simp only [Steady.current, Bool.and_eq_true, decide_eq_true_eq, any_eq_true]
  constructor
  · rintro ⟨hstage, p, hp, hround⟩
    exact ⟨hstage, stage, hstage, p, hp, hround⟩
  · rintro ⟨hstage, -, -, p, hp, hround⟩
    exact ⟨hstage, p, hp, hround⟩

theorem alike_handlers_set {stage : HandlerStage} (hstage : s.handlers.get id = some stage) (stage' : HandlerStage) :
    Alike half s { s with handlers := s.handlers.set id stage' } := by
  refine ⟨?_, rfl, rfl⟩
  intro q
  cases q with
  | finishing i => exact exists_set_same hstage Iff.rfl
  | _ => rfl

theorem has_deleteHandler (s : ArmingState) (id : Nat) (half : Half) (q : HalfPlace) :
    ({ s with handlers := s.handlers.delete id } : ArmingState).Has half q ↔ q ≠ .finishing id ∧ s.Has half q := by
  cases q with
  | finishing i =>
    simp only [Has, Finishing, exists_delete]
    simp
  | _ => simp [Has]

theorem Orderly.complete (h : s.Orderly) (hfinishing : s.Finishing id)
    (htidy : (s.complete id).1.Tidy) : (s.complete id).1.Orderly := by
  have hbounded : ({ s with
      handlers := s.handlers.delete id
      failures := fun _ => noFailures } : ArmingState).Bounded :=
    ⟨h.bounded.calls, h.bounded.pending, h.bounded.hosted, h.bounded.unsettled⟩
  refine hbounded.armRound (fun half => ?_) (fun _ => rfl) .paired htidy
  have hhas : s.Has half (.finishing id) := hfinishing
  have hplaced := (h.at hhas).1
  refine ⟨fun q => (s.has_deleteHandler id half q).trans ?_, hplaced.live⟩
  rw [hplaced.has]
  simp [eq_comm]

theorem Orderly.hears (h : s.Orderly)
    (hp : s.hosted.get id = some p) (hheard : p.heard = false) (hsettled : p.settled.isSome = true)
    (hround : p.round = s.round) (jitter : ℚ) : (s.hear id p jitter).1.Orderly := by
  obtain ⟨outcome, houtcome⟩ := Option.isSome_iff_exists.1 hsettled
  cases outcome with
  | error failure => exact h.hear_failed hp hheard houtcome hround jitter
  | ok result => exact h.hear_paired hp hheard houtcome hround jitter

/-- What a steady step can do. Mostly it is nothing to either half. -/
inductive Effect (s : ArmingState) (opts : HostingOptions) : ArmingEvent → Prop
  | same {e : ArmingEvent} (bounded : (s.step opts e).1.Bounded)
      (alike : ∀ half, Alike half s (s.step opts e).1) (round : (s.step opts e).1.round = s.round)
      (codes : ∀ id p, s.hosted.get id = some p → p.round = s.round → p.heard = false →
        (s.step opts e).1.hosted.get id = some p)
      (out : ∀ o ∈ (s.step opts e).2, ∀ half id, o ≠ .hostPairing half ∧ o ≠ .paired id)
      (guess : wrongCode ((armingMachine opts).entry s e) = false) (rearm : e ≠ .rearm) :
      Effect s opts e
  | settles {id : Nat} {p : HostedPairing} (outcome : Except ExchangeFailure PairingResult)
      (hosted : s.hosted.get id = some p) (unsettled : p.settled = none) :
      Effect s opts (.settles id outcome)
  | shows {call : Nat} {c : ArmCall} (code : String) (calls : s.calls.get call = some c)
      (round : c.round = s.round) : Effect s opts (.answers call (some code))
  | retries {call : Nat} {c : ArmCall} {myRound : Nat} {reason : RearmReason}
      (calls : s.calls.get call = some c) (round : c.round = s.round)
      (origin : c.origin = .again myRound reason) : Effect s opts (.answers call none)
  | ends {id : Nat} {p : HostedPairing} (jitter : ℚ) (hosted : s.hosted.get id = some p)
      (heard : p.heard = false) (settled : p.settled.isSome = true) (round : p.round = s.round) :
      Effect s opts (.hears id jitter)
  | completes {id : Nat} (jitter : ℚ) (handlers : s.handlers.get id = some .addingPeer)
      (finishing : s.Finishing id) : Effect s opts (.stored id true jitter)
  | fires {timer : Nat} {t : RearmTimer} (pending : s.pending.get timer = some t)
      (round : t.round = s.round) : Effect s opts (.fires timer)
  | rearm : Effect s opts .rearm

variable {e : ArmingEvent}

theorem Bounded.effect_handlers (h : s.Bounded)
    {handlers : OrderedMap Nat HandlerStage} {out : List ArmingOutput}
    (hstep : s.step opts e = ({ s with handlers := handlers }, out))
    (halike : ∀ half, Alike half s { s with handlers := handlers })
    (hout : ∀ o ∈ out, ∀ half id, o ≠ .hostPairing half ∧ o ≠ .paired id)
    (hguess : wrongCode ((armingMachine opts).entry s e) = false) (he : e ≠ .rearm) :
    Effect s opts e := by
  refine .same ?_ ?_ ?_ ?_ ?_ hguess he
  · rw [hstep]
    exact { h with }
  · rw [hstep]
    exact halike
  · rw [hstep]
  · rw [hstep]
    exact fun id p hp _ _ => hp
  · rw [hstep]
    exact hout

theorem Bounded.effect_idle (h : s.Bounded) (hstep : s.step opts e = (s, []))
    (hguess : wrongCode ((armingMachine opts).entry s e) = false) (he : e ≠ .rearm) : Effect s opts e :=
  h.effect_handlers hstep (fun half => Alike.refl half s) (by simp) hguess he

theorem answers_none_out (s : ArmingState) (call : Nat) (c : ArmCall) :
    ∀ o ∈ (s.answers opts call c none).2, ∀ half id, o ≠ .hostPairing half ∧ o ≠ .paired id := by
  intro o ho half id
  simp only [answers] at ho
  split at ho
  · simp only [andThen, List.mem_append, List.mem_singleton] at ho
    obtain rfl | ho := ho
    · simp
    · unfold scheduleRearm at ho
      rw [if_neg (by decide)] at ho
      cases ho
  · cases ho
  · cases ho

theorem Orderly.effect_hears (h : s.Orderly) (id : Nat) (jitter : ℚ) : Effect s opts (.hears id jitter) := by
  by_cases hready : ∃ p, s.hosted.get id = some p ∧ p.heard = false ∧ p.settled.isSome = true
  · obtain ⟨p, hp, hheard, hsettled⟩ := hready
    by_cases hround : p.round = s.round
    · exact .ends jitter hp hheard hsettled hround
    · have hstep : s.step opts (.hears id jitter) = s.hear id p jitter := by
        have hopen : p.settled.isNone = false := by simpa using hsettled
        simp [step, hp, hheard, hopen]
      rw [hear_ended hround] at hstep
      refine .same ?_ ?_ ?_ ?_ ?_ rfl (by simp)
      · rw [hstep]
        exact h.bounded.setCode _ hp rfl hsettled
      · rw [hstep]
        refine fun half => alike_of_has (has_heard hp half) ?_ rfl rfl
        rintro ⟨q, hq, -, hround', -⟩
        cases hp.symm.trans hq
        exact hround hround'
      · rw [hstep]
      · rw [hstep]
        intro i q hq hround' _
        simp only [get_set]
        rw [if_neg, hq]
        rintro rfl
        rw [hp] at hq
        cases hq
        exact hround hround'
      · rw [hstep]
        simp
  · refine h.bounded.effect_idle ?_ rfl (by simp)
    simp only [step]
    split
    · rfl
    · rename_i p hp
      rw [if_pos]
      by_contra hidle
      simp only [Bool.or_eq_true, not_or, Bool.not_eq_true] at hidle
      exact hready ⟨p, hp, hidle.1, by simpa using hidle.2⟩

theorem Orderly.effect_registered (h : s.Orderly) {ok : Bool}
    (hsteady : Steady opts ((armingMachine opts).entry s (.registered id ok)) = true) :
    Effect s opts (.registered id ok) := by
  by_cases hstage : s.handlers.get id = some .registering
  · have hstep : s.step opts (.registered id ok) = s.registered opts id ok := by
      simp [step, hstage]
    unfold ArmingState.registered at hstep
    split at hstep
    · rename_i hrefused
      refine h.bounded.effect_handlers hstep ?_ (by simp) rfl (by simp)
      intro half
      refine alike_of_has (s.has_deleteHandler id half) (fun hfinishing => ?_) rfl rfl
      rw [Bool.and_eq_true, Bool.not_eq_true'] at hrefused
      obtain ⟨hgrants, rfl⟩ := hrefused
      have hcurrent := (current_iff s id .registering).2 ⟨hstage, hfinishing⟩
      simp [Steady, Machine.entry, hgrants, hcurrent] at hsteady
    · split at hstep
      · exact h.bounded.effect_handlers hstep (fun half => alike_handlers_set hstage _) (by simp) rfl
          (by simp)
      · exact h.bounded.effect_handlers hstep (fun half => alike_handlers_set hstage _) (by simp) rfl
          (by simp)
  · exact h.bounded.effect_idle (by simp [step, hstage]) rfl (by simp)

theorem Orderly.effect_stored (h : s.Orderly) {ok : Bool} {jitter : ℚ}
    (hsteady : Steady opts ((armingMachine opts).entry s (.stored id ok jitter)) = true) :
    Effect s opts (.stored id ok jitter) := by
  have hfails {stage : HandlerStage} (hstage : s.handlers.get id = some stage)
      (hne : stage ≠ .registering) (hok : ok = false) : Effect s opts (.stored id ok jitter) := by
    have hstep : s.step opts (.stored id ok jitter) =
        ({ s with handlers := s.handlers.delete id }, []) := by
      rw [hok, ← h.tidy.stored_false hstage jitter]
      cases stage with
      | registering => exact absurd rfl hne
      | addingGrant | addingPeer => simp only [step, hstage]
    refine h.bounded.effect_handlers hstep ?_ (by simp) rfl (by simp)
    intro half
    refine alike_of_has (s.has_deleteHandler id half) (fun hfinishing => ?_) rfl rfl
    have hcurrent := (current_iff s id stage).2 ⟨hstage, hfinishing⟩
    rw [hok] at hsteady
    cases stage with
    | registering => exact hne rfl
    | addingGrant | addingPeer => simp [Steady, Machine.entry, hcurrent] at hsteady
  cases hstage : s.handlers.get id with
  | none => exact h.bounded.effect_idle (by simp only [step, hstage]) rfl (by simp)
  | some stage =>
    cases stage with
    | registering => exact h.bounded.effect_idle (by simp only [step, hstage]) rfl (by simp)
    | addingGrant =>
      cases ok with
      | false => exact hfails hstage (by simp) rfl
      | true =>
        have hstep : s.step opts (.stored id true jitter) =
            ({ s with handlers := s.handlers.set id .addingPeer }, [.addPeer id]) := by
          simp only [step, hstage, stored, if_true]
        exact h.bounded.effect_handlers hstep (fun half => alike_handlers_set hstage _) (by simp) rfl
          (by simp)
    | addingPeer =>
      cases ok with
      | false => exact hfails hstage (by simp) rfl
      | true =>
        have hcurrent : Steady.current s id .addingPeer = true := by
          simpa [Steady, Machine.entry, hstage] using hsteady
        exact .completes jitter hstage ((current_iff s id .addingPeer).1 hcurrent).2

theorem Orderly.effect (h : s.Orderly)
    (hsteady : Steady opts ((armingMachine opts).entry s e) = true) : Effect s opts e := by
  cases e with
  | answers call answer =>
    cases hc : s.calls.get call with
    | none => exact h.bounded.effect_idle (by simp only [step, hc]) rfl (by simp)
    | some c =>
      cases answer with
      | some code =>
        have hround : c.round = s.round := by
          simp only [Steady, Machine.entry, hc, all_some] at hsteady
          exact of_decide_eq_true hsteady
        exact .shows code hc hround
      | none =>
        by_cases hround : c.round = s.round
        · obtain ⟨myRound, reason, horigin⟩ := steady_again hsteady hc hround
          exact .retries hc hround horigin
        · obtain ⟨hbounded, halike⟩ := h.bounded.answers_stale opts hc hround
          have hkept := answers_none opts s call c
          have hstep : s.step opts (.answers call none) = s.answers opts call c none := by
            simp only [step, hc]
          refine .same ?_ ?_ ?_ ?_ ?_ rfl (by simp)
          · rw [hstep]
            exact hbounded
          · rw [hstep]
            exact halike
          · rw [hstep, hkept.round]
          · rw [hstep, hkept.hosted]
            exact fun id p hp _ _ => hp
          · rw [hstep]
            exact s.answers_none_out call c
  | settles id outcome =>
    by_cases hopen : ∃ p, s.hosted.get id = some p ∧ p.settled = none
    · obtain ⟨p, hp, hsettled⟩ := hopen
      exact .settles outcome hp hsettled
    · refine h.bounded.effect_idle ?_ ?_ (by simp)
      · simp only [step]
        split
        · rfl
        · rename_i p hp
          rw [if_pos]
          rw [isSome_iff_ne_none]
          exact fun hnone => hopen ⟨p, hp, hnone⟩
      · cases outcome with
        | ok result => rfl
        | error failure =>
          simp only [wrongCode, Machine.entry, Bool.and_eq_false_iff]
          refine .inr ?_
          rw [any_eq_false]
          intro p hp
          have hsettled : p.settled.isSome = true :=
            isSome_iff_ne_none.2 fun hnone => hopen ⟨p, hp, hnone⟩
          simp [hsettled]
  | hears id jitter => exact h.effect_hears id jitter
  | registered id ok => exact h.effect_registered hsteady
  | stored id ok jitter => exact h.effect_stored hsteady
  | fires timer =>
    cases ht : s.pending.get timer with
    | none => exact h.bounded.effect_idle (by simp only [step, ht]) rfl (by simp)
    | some t =>
      have hround : t.round = s.round := by
        simp only [Steady, Machine.entry, ht, all_some] at hsteady
        exact of_decide_eq_true hsteady
      exact .fires ht hround
  | rearm => exact .rearm

theorem step_settles (hp : s.hosted.get id = some p)
    (hopen : p.settled = none) (outcome : Except ExchangeFailure PairingResult) :
    (s.step opts (.settles id outcome)).1 =
      { s with hosted := s.hosted.set id { p with settled := some outcome } } := by
  simp only [step, hp, hopen, isSome_none, Bool.false_eq_true, if_false]

theorem Orderly.fires (h : s.Orderly) {t : RearmTimer}
    (ht : s.pending.get timer = some t) (hround : t.round = s.round) : (s.step opts (.fires timer)).1.Orderly := by
  have hhas : s.Has t.half (.waiting timer) := ⟨t, ht, rfl, hround⟩
  have htidy := h.tidy.step opts (.fires timer)
  simp only [ArmingState.step, ht] at htidy ⊢
  have hbounded := h.bounded.deleteTimer timer
  refine h.moves hhas rfl (s.drops_deleteTimer timer t.half) (hbounded.adds_armHalf t.half _) ((h.at hhas).2 rfl)
    htidy (hbounded.armHalf t.half ?_)
  intro r reason heq
  cases heq
  exact hround

theorem Orderly.step (h : s.Orderly) (heffect : Effect s opts e) : (s.step opts e).1.Orderly := by
  have htidy := h.tidy.step opts e
  cases heffect with
  | same hbounded halike => exact h.alike htidy hbounded halike
  | settles outcome hp hopen =>
    rw [step_settles hp hopen] at htidy ⊢
    exact h.alike htidy (h.bounded.setCode _ hp rfl rfl) fun half => alike_settled hp outcome half
  | shows code hc hround =>
    simp only [ArmingState.step, hc]
    exact h.answers_some hc hround code
  | retries hc hround horigin =>
    simp only [ArmingState.step, hc]
    exact (h.answers_again hc hround horigin).1
  | ends jitter hp hheard hsettled hround =>
    rw [step_hears opts hp hheard hsettled]
    exact h.hears hp hheard hsettled hround jitter
  | completes jitter hstage hfinishing =>
    simp only [ArmingState.step, hstage] at htidy ⊢
    exact h.complete hfinishing htidy
  | fires ht hround => exact h.fires ht hround
  | rearm => exact h.rearm

theorem orderly_init : ArmingState.init.Orderly := by
  have hempty : ArmingState.empty.Tidy := ⟨fun _ _ => rfl, nofun, nofun⟩
  have hbounded : ArmingState.empty.Bounded := ⟨nofun, nofun, nofun, nofun⟩
  have hfree (half : Half) : ArmingState.empty.Placed half none := by
    refine ⟨fun q => iff_of_false ?_ nofun, rfl⟩
    cases q with
    | _ => exact nofun
  exact hbounded.armRound hfree (fun _ => rfl) .boot (hempty.kept (armRound_kept _ _))

end ArmingState
end Mtmux.Cli
