import Mtmux.Cli.ApprovalIntegrity

/-! Does a call that is decided let go of every channel, and does the timer of an approval window
leave the next one alone? -/
namespace Mtmux.Cli
open Machine List

abbrev AccessEntry : Type := Machine.Entry AccessState AccessEvent AccessOutput

def AccessState.NoneHeld (s : AccessState) : Prop :=
  ∀ call c, s.calls.get call = some c → c.concluded = true →
    (∀ p, s.ask = some p → p.call ≠ call) ∧ ∀ p, s.offer = some p → p.call ≠ call

/-- What one step leaves behind. -/
structure Released (x : AccessEntry) : Prop where
  slots : x.post.NoneHeld
  /-- The timer of a window that is over leaves the window that is open, and what is in front of it. -/
  timer : ∀ window, x.event = .windowTimer window →
    (∀ w, x.pre.waiter = some w → w.window ≠ window) →
    x.post.waiter = x.pre.waiter ∧ x.post.offer = x.pre.offer

/-- No call is concluded while it waits in front of an approval window, and no window is open when
the timer of one that it replaced fires. -/
structure Withdrawn (x : AccessEntry) : Prop where
  offer : ∀ call c result, x.event = .conclude call → x.pre.calls.get call = some c →
    c.settled = some result → c.concluded = false → ∀ p, x.pre.offer = some p → p.call = call →
    p.parked = true
  timer : ∀ window, x.event = .windowTimer window → window ∈ x.pre.timers →
    (∀ w, x.pre.waiter = some w → w.window ≠ window) → x.pre.waiter = none

def AccessEvent.starts : AccessEvent → Nat → Prop
  | .start call _ _, i => i = call
  | _, _ => False

namespace AccessState
variable {s : AccessState} {yes : Nat → Prop} {outs : List AccessOutput}

/-- No call concludes, and only the requests that `begun` tells come in front of a window. -/
structure Still (begun : LiveOffer → Prop) (s s' : AccessState) : Prop where
  concluded : ∀ call c', s'.calls.get call = some c' → c'.concluded = true →
    ∃ c, s.calls.get call = some c ∧ c.concluded = true
  offer : ∀ p, s'.offer = some p → s.offer = some p ∨ p.parked = true ∨ begun p

variable {begun : LiveOffer → Prop}

variable {s' : AccessState}

theorem Still.of_same (hcalls : s'.calls = s.calls) (hoffer : s'.offer = s.offer) : Still begun s s' :=
  ⟨fun _ c' hc' hconcluded => ⟨c', hcalls ▸ hc', hconcluded⟩, fun _ hp => .inl (hoffer ▸ hp)⟩

theorem Still.trans {s'' : AccessState} (h : Still begun s s') (h' : Still begun s' s'') : Still begun s s'' := by
  refine ⟨?_, ?_⟩
  · intro call c'' hc'' hconcluded
    obtain ⟨c', hc', hconcluded'⟩ := h'.concluded call c'' hc'' hconcluded
    exact h.concluded call c' hc' hconcluded'
  · intro p hp
    obtain hold | hnew := h'.offer p hp
    · exact h.offer p hold
    · exact .inr hnew

theorem settle_concluded (c : AccessCall) (kind : ChannelKind) (answer : Option Bool) :
    (c.settle kind answer).concluded = c.concluded := by
  cases kind with
  | _ => rfl

theorem still_settle (s : AccessState) (kind : ChannelKind) (call : Nat) (answer : Option Bool) :
    Still begun s (s.settle kind call answer).1 := by
  refine ⟨?_, fun p hp => .inl hp⟩
  intro i c' hc' hconcluded
  rw [get_settle] at hc'
  split at hc'
  · obtain ⟨c, hc, rfl⟩ := Option.map_eq_some_iff.1 hc'
    rw [settle_concluded] at hconcluded
    exact ⟨c, hc, hconcluded⟩
  · exact ⟨c', hc', hconcluded⟩

variable {call : Nat}

theorem still_set {d : AccessCall} (hd : d.concluded = true → ∃ c, s.calls.get call = some c ∧ c.concluded = true) :
    Still begun s (s.set call d) := by
  refine ⟨?_, fun p hp => .inl hp⟩
  intro i c' hc' hconcluded
  rw [get_set_call] at hc'
  split at hc'
  · rename_i hi
    cases hc'
    rw [hi]
    exact hd hconcluded
  · exact ⟨c', hc', hconcluded⟩

theorem Path.still {begun : Nat → Prop} {o o' : Option (ChannelKind × Nat)} {r : AccessStep}
    {ms : List (ChannelKind × Nat)} (h : Path begun yes o s r o' ms) :
    Still (fun p => begun p.call) s r.1 := by
  induction h with
  | aside _ _ offer _ calls _ => exact Still.of_same calls offer
  | follows _ _ _ ihfirst ihnext => exact ihfirst.trans ihnext
  | settles _ _ _ _ => exact still_settle _ _ _ _
  | closesOffer _ => exact ⟨fun call c' hc' hconcluded => ⟨c', hc', hconcluded⟩, fun p hp => (by cases hp)⟩
  | @opensOffer s _ call park c _ was _ _ unparked =>
    refine ⟨fun call c' hc' hconcluded => ⟨c', hc', hconcluded⟩, ?_⟩
    intro p hp
    cases hp
    cases park with
    | true => exact .inr (.inl rfl)
    | false => exact .inr (.inr (unparked rfl))
  | skips was _ _ _ _ => exact still_set fun hconcluded => ⟨_, was, hconcluded⟩
  | lacks was _ _ => exact still_set fun hconcluded => ⟨_, was, hconcluded⟩
  | _ => exact Still.of_same rfl rfl

/-- What the abort of a call takes out of its channels. -/
def withdraw (s : AccessState) (call : Nat) : AccessState :=
  ((s.withdrawAsk call).1.withdrawPark call).1

theorem withdraw_offer (s : AccessState) (call : Nat) (p : LiveOffer) :
    (s.withdraw call).offer = some p ↔ s.offer = some p ∧ ¬ (p.call = call ∧ p.parked = true) := by
  have hask := (s.withdrawAsk_free call).2
  unfold AccessState.withdraw AccessState.withdrawPark
  split
  · rename_i hpark
    rw [(settlePending_offer _ false).1]
    simp only [hask] at hpark
    constructor
    · intro hp
      cases hp
    · rintro ⟨hp, hother⟩
      simp [hp] at hpark
      exact absurd hpark hother
  · rename_i hother
    simp only [hask] at hother ⊢
    constructor
    · intro hp
      refine ⟨hp, ?_⟩
      simpa [hp] using hother
    · exact And.left

/-- A call that concludes is marked, after its channels were told to stop. -/
theorem conclude_state (s : AccessState) (call : Nat) (result : AccessPromptResult) :
    (s.conclude call result).1.offer = (s.withdraw call).offer ∧
    ∀ i, (s.conclude call result).1.calls.get i = if i = call then
      ((s.withdraw call).calls.get call).map fun c => { c with concluded := true }
      else (s.withdraw call).calls.get i := by
  have hconclude : (s.conclude call result).1 = ((s.withdraw call).onCall call fun c =>
      ((s.withdraw call).set call { c with concluded := true }, [.resolved call result])).1 := rfl
  rw [hconclude]
  unfold AccessState.onCall
  split
  · rename_i hnone
    refine ⟨rfl, ?_⟩
    intro i
    split
    · rename_i hi
      rw [hi, hnone]
      rfl
    · rfl
  · rename_i c hc
    refine ⟨rfl, ?_⟩
    intro i
    rw [get_set_call, hc]
    rfl

theorem Goes.still {e : AccessEvent} {r : AccessStep} (h : Goes yes s e r) (he : ∀ call, e ≠ .conclude call) :
    Still (fun p => e.starts p.call ∧ s.calls.get p.call = none) s r.1 := by
  have weaken {t t' : AccessState} (hstill : Still (fun _ => False) t t') :
      Still (fun p => e.starts p.call ∧ s.calls.get p.call = none) t t' :=
    ⟨hstill.concluded, fun p hp => (hstill.offer p hp).imp id fun h => h.imp id False.elim⟩
  cases h with
  | moves path => exact weaken path.still
  | @starts call req deps _ _ fresh path _ =>
    have hset : Still (fun p => p.call = call) s (s.set call ⟨req, deps, .asking, .offering, 2, none, none, false⟩) :=
      still_set (by simp)
    have hstill := hset.trans path.still
    refine ⟨hstill.concluded, fun p hp => (hstill.offer p hp).imp id fun h => h.imp id ?_⟩
    rintro rfl
    exact ⟨rfl, fresh⟩
  | @parks call c _ was _ path =>
    have hset : Still (fun _ => False) s (s.set call { c with chain := .parking }) :=
      still_set fun hconcluded => ⟨c, was, hconcluded⟩
    exact weaken (hset.trans path.still)
  | chains was _ _ _ _ _ => exact still_set fun hconcluded => ⟨_, was, hconcluded⟩
  | @hearsApp call c answer was _ =>
    exact still_set fun hconcluded => ⟨c, was, (c.hearApp_same answer).2 ▸ hconcluded⟩
  | @hearsLocal call c result was _ =>
    exact still_set fun hconcluded => ⟨c, was, (c.hearLocal_same result).2 ▸ hconcluded⟩
  | @concludes call _ _ _ _ _ => exact absurd rfl (he call)

variable {yes : Nat → Prop} {outs : List AccessOutput}

/-- What is open in the app or held for `mtmux approve` is a request nobody has decided. -/
structure Awaited (s : AccessState) : Prop where
  ask : ∀ p c, s.ask = some p → s.calls.get p.call = some c → c.concluded = false
  parked : ∀ p c, s.offer = some p → p.parked = true → s.calls.get p.call = some c →
    c.concluded = false

theorem Consistent.awaited (h : Consistent yes none outs s) : s.Awaited := by
  refine ⟨?_, ?_⟩
  · intro p c hp hc
    obtain ⟨d, hd, -, hconcluded⟩ := h.ask p hp
    rw [hd] at hc
    cases hc
    exact hconcluded
  · intro p c hp hparked hc
    obtain ⟨d, hd, -, hconcluded⟩ := h.offer p hp
    rw [hd] at hc
    cases hc
    exact hconcluded hparked

theorem Awaited.noneHeld_iff (h : s.Awaited) : s.NoneHeld ↔ ∀ p c, s.offer = some p →
    s.calls.get p.call = some c → c.concluded = true → p.parked = true := by
  constructor
  · intro hnone p c hp hc hconcluded
    exact absurd rfl ((hnone p.call c hc hconcluded).2 p hp)
  · intro hplain call c hc hconcluded
    refine ⟨?_, ?_⟩
    · intro p hp hcall
      rw [← hcall] at hc
      have hwaits := h.ask p c hp hc
      rw [hwaits] at hconcluded
      cases hconcluded
    · intro p hp hcall
      rw [← hcall] at hc
      have hwaits := h.parked p c hp (hplain p c hp hc hconcluded) hc
      rw [hwaits] at hconcluded
      cases hconcluded

theorem NoneHeld.still (h : s.NoneHeld) (hawaited : s'.Awaited) {begun : LiveOffer → Prop} (hstill : Still begun s s')
    (hbegun : ∀ p, begun p → s.calls.get p.call = none) : s'.NoneHeld := by
  rw [hawaited.noneHeld_iff]
  intro p c' hp hc' hconcluded
  obtain ⟨c, hc, hbefore⟩ := hstill.concluded p.call c' hc' hconcluded
  obtain hold | hparked | hnew := hstill.offer p hp
  · exact absurd rfl ((h p.call c hc hbefore).2 p hold)
  · exact hparked
  · rw [hbegun p hnew] at hc
    cases hc

/-- A call that concludes holds nothing afterwards if and only if it was not waiting in front of an
approval window. -/
theorem Consistent.noneHeld_conclude (h : Consistent yes none outs s) (hnone : s.NoneHeld)
    {c : AccessCall} (hc : s.calls.get call = some c) (result : AccessPromptResult) :
    (s.conclude call result).1.NoneHeld ↔ ∀ p, s.offer = some p → p.call = call → p.parked = true := by
  obtain ⟨hoffer, hcalls⟩ := s.conclude_state call result
  have hwithdraw : Path (fun _ => False) yes none s
      (andThen (s.withdrawAsk call) fun s => s.withdrawPark call) none [] := h.path_withdraw call
  obtain ⟨b, hb, -⟩ := hwithdraw.keeps.calm hc
  have hd : (s.conclude call result).1.calls.get call = some { b with concluded := true } := by
    have hb : (s.withdraw call).calls.get call = some b := hb
    rw [hcalls, if_pos rfl, hb]
    rfl
  constructor
  · intro hpost p hp hcall
    by_contra hplain
    have hleft : (s.conclude call result).1.offer = some p := by
      rw [hoffer, withdraw_offer]
      exact ⟨hp, fun hparked => hplain hparked.2⟩
    exact (hpost call _ hd rfl).2 p hleft hcall
  · intro hplain
    have hawaited : (s.conclude call result).1.Awaited := Consistent.awaited (h.conclude call result)
    rw [hawaited.noneHeld_iff]
    intro p e hp he he'
    rw [hoffer, withdraw_offer] at hp
    by_cases hcall : p.call = call
    · exact hplain p hp.1 hcall
    · rw [hcalls, if_neg hcall] at he
      obtain ⟨b, hb, hbefore⟩ := hwithdraw.still.concluded p.call e he he'
      exact absurd rfl ((hnone p.call b hb hbefore).2 p hp.1)

theorem windowTimer_waiter (s : AccessState) (authToken : String) (window : Nat) :
    (window ∈ s.timers → (s.step authToken (.windowTimer window)).1.waiter = none) ∧
    (window ∉ s.timers ∨ s.waiter = none → (s.step authToken (.windowTimer window)).1.waiter = s.waiter ∧
      (s.step authToken (.windowTimer window)).1.offer = s.offer) := by
  simp only [AccessState.step, contains_eq_mem, decide_eq_true_eq]
  refine ⟨?_, ?_⟩
  · intro hmem
    rw [if_pos hmem]
    unfold AccessState.dropWaiter
    split
    · rename_i hnone
      exact hnone
    · simp only [AccessState.andThen]
      unfold AccessState.settlePending
      split
      · rfl
      · rfl
  · intro hidle
    split
    · rename_i hmem
      obtain hout | hnone := hidle
      · exact absurd hmem hout
      · unfold AccessState.dropWaiter
        simp [hnone]
    · exact ⟨rfl, rfl⟩

/-- One step lets go of what is decided if and only if nothing stuck was in its way. -/
theorem Consistent.step_released_iff (h : Consistent yes none outs s) (hnone : s.NoneHeld) {authToken : String}
    {e : AccessEvent} {yes' : Nat → Prop} (hgoes : Goes yes' s e (s.step authToken e))
    (hpost : ((s.step authToken e).1).Awaited) :
    Released ((accessMachine authToken).entry s e) ↔ Withdrawn ((accessMachine authToken).entry s e) := by
  have hslots (he : ∀ call, e ≠ .conclude call) : (s.step authToken e).1.NoneHeld :=
    hnone.still hpost (hgoes.still he) fun p hp => hp.2
  have htimer (window : Nat) (he : e = .windowTimer window)
      (hother : ∀ w, s.waiter = some w → w.window ≠ window) :
      ((s.step authToken e).1.waiter = s.waiter ∧ (s.step authToken e).1.offer = s.offer) ↔
        (window ∈ s.timers → s.waiter = none) := by
    rw [he]
    obtain ⟨hfires, hidle⟩ := s.windowTimer_waiter authToken window
    constructor
    · rintro ⟨hwaiter, -⟩ hmem
      rw [← hwaiter, hfires hmem]
    · intro hgone
      apply hidle
      by_cases hmem : window ∈ s.timers
      · exact .inr (hgone hmem)
      · exact .inl hmem
  constructor
  · intro hreleased
    refine ⟨?_, ?_⟩
    · intro call c result he hc hsettled hopen p hp hcall
      have hslots := hreleased.slots
      change e = .conclude call at he
      change s.calls.get call = some c at hc
      have hstep : (s.step authToken e).1 = (s.conclude call result).1 := by
        simp [he, AccessState.step, AccessState.onCall, hc, hsettled, hopen]
      change (s.step authToken e).1.NoneHeld at hslots
      rw [hstep, h.noneHeld_conclude hnone hc] at hslots
      exact hslots p hp hcall
    · intro window he hmem hother
      exact (htimer window he hother).1 (hreleased.timer window he hother) hmem
  · intro hwithdrawn
    refine ⟨?_, ?_⟩
    · change (s.step authToken e).1.NoneHeld
      by_cases he : ∃ call, e = .conclude call
      · obtain ⟨call, rfl⟩ := he
        simp only [AccessState.step]
        unfold AccessState.onCall
        split
        · exact hnone
        · rename_i c hc
          dsimp only
          split
          · rename_i result hsettled
            split
            · exact hnone
            · rename_i hopen
              rw [h.noneHeld_conclude hnone hc]
              exact hwithdrawn.offer call c result rfl hc hsettled (by simpa using hopen)
          · exact hnone
      · exact hslots fun call hcall => he ⟨call, hcall⟩
    · intro window he hother
      exact (htimer window he hother).2 fun hmem => hwithdrawn.timer window he hmem hother

end AccessState

theorem noneHeld_of_released {authToken : String} {es : List AccessEvent}
    (h : ∀ x ∈ (accessMachine authToken).trace es, Released x) : ((accessMachine authToken).run es).NoneHeld := by
  induction es using List.reverseRecOn with
  | nil =>
    intro call c hc
    cases hc
  | append_singleton es e _ =>
    rw [run_snoc]
    obtain ⟨-, hlast⟩ := forall_trace_snoc h
    exact hlast.slots

/-- In a run decided calls hold nothing and spent windows do nothing if and only if no call
concludes in front of an approval window and no window is open when the timer of one that it
replaced fires. -/
theorem released_iff (authToken : String) (es : List AccessEvent) :
    (∀ x ∈ (accessMachine authToken).trace es, Released x) ↔ ∀ x ∈ (accessMachine authToken).trace es, Withdrawn x := by
  refine run_induction (P := fun es =>
    (∀ x ∈ (accessMachine authToken).trace es, Released x) ↔
      ∀ x ∈ (accessMachine authToken).trace es, Withdrawn x) (by simp [trace_nil]) ?_ es
  intro es e ih
  simp only [trace_snoc, forall_mem_append, forall_mem_singleton]
  rw [ih]
  refine and_congr_right fun hbefore => ?_
  have hpost := (@consistent_run authToken (es ++ [e])).awaited
  rw [run_snoc] at hpost
  exact (@consistent_run authToken es).step_released_iff (noneHeld_of_released (ih.2 hbefore)) (goes_run es e) hpost

/-- A phone answers in the app while somebody runs `mtmux approve`, and a second device comes. -/
def stuckRun : List AccessEvent :=
  let here : ControlPeer := ⟨"127.0.0.1", some "machine"⟩
  let deps : AccessDeps := ⟨.present, .present, .absent⟩
  [.approvers [7] true, .wait 1 here "a" none, .start 1 ⟨some "4821", "Phone", "", some .code⟩ deps,
    .resolveDeviceApproval 1 true, .hearApp 1, .conclude 1,
    .start 2 ⟨some "7306", "Tablet", "", some .code⟩ deps]

/-- A second `mtmux approve` takes over a window that ran out, before its timer fires. -/
def replacedWindowRun : List AccessEvent :=
  let here : ControlPeer := ⟨"127.0.0.1", some "machine"⟩
  [.wait 1 here "a" none, .tick 300000, .wait 2 here "b" none, .windowTimer 0]

/-- The first device is let in, but its request stays in front of the window and the second device
is refused there; and the timer of the first window closes the second. -/
theorem not_released : ((AccessOutput.resolved 1 .approved ∈ (accessMachine "machine").outputs stuckRun ∧
        AccessOutput.settled .offer 2 (some false) ∈ (accessMachine "machine").outputs stuckRun ∧
        ((accessMachine "machine").run stuckRun).offer.map LiveOffer.call = some 1) ∧
      ((accessMachine "machine").run (replacedWindowRun.take 3)).waiter.map Waiter.sessionId = some "b" ∧
        ((accessMachine "machine").run replacedWindowRun).waiter = none) ∧
    ¬ (∀ x ∈ (accessMachine "machine").trace stuckRun, Released x) ∧
    ¬ ∀ x ∈ (accessMachine "machine").trace replacedWindowRun, Released x := by
  refine ⟨by decide +kernel, ?_, ?_⟩
  · intro h
    have hmem : (accessMachine "machine").entry ((accessMachine "machine").run (stuckRun.take 5))
        (.conclude 1) ∈ (accessMachine "machine").trace stuckRun :=
      ((accessMachine "machine").mem_trace _ _).2 ⟨_, _, stuckRun.drop 6, rfl, rfl⟩
    have hconcluded : (((accessMachine "machine").run (stuckRun.take 6)).calls.get 1).any
        AccessCall.concluded = true := by decide +kernel
    have hheld : ((accessMachine "machine").run (stuckRun.take 6)).offer.any
        (fun p => p.call = 1) = true := by decide +kernel
    obtain ⟨c, hc, hc'⟩ := (Option.any_eq_true ..).1 hconcluded
    obtain ⟨p, hp, hcall⟩ := (Option.any_eq_true ..).1 hheld
    exact ((h _ hmem).slots 1 c hc hc').2 p hp (of_decide_eq_true hcall)
  · intro h
    have hmem : (accessMachine "machine").entry
        ((accessMachine "machine").run (replacedWindowRun.take 3)) (.windowTimer 0) ∈
        (accessMachine "machine").trace replacedWindowRun :=
      ((accessMachine "machine").mem_trace _ _).2 ⟨_, _, [], rfl, rfl⟩
    have hlater : ((accessMachine "machine").run (replacedWindowRun.take 3)).waiter.all
        (fun w => w.window ≠ 0) = true := by decide +kernel
    have hkept := (h _ hmem).timer 0 rfl fun w hw =>
      of_decide_eq_true ((Option.all_eq_true ..).1 hlater w hw)
    exact absurd hkept.1 (by decide +kernel)

end Mtmux.Cli
