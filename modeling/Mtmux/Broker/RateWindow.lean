import Mtmux.Base.Machine
import Mtmux.Base.SlidingWindow
import Mtmux.Broker.RateLimit

/-! A limiter is a window that slides over the calls it has let pass, key by key. -/
namespace Mtmux.Broker
open SlidingWindow OrderedMap Machine RateLimiter List

inductive RateCall where
  | take (key : String)
  | retryAfterMs (key : String)

inductive RateAnswer where
  | taken (ok : Bool)
  | wait (ms : Nat)

structure TimedCall where
  call : RateCall
  now : Nat

def RateCall.key : RateCall → String
  | .take key | .retryAfterMs key => key

namespace RateLimiter

def answer (l : RateLimiter) (c : TimedCall) : RateLimiter × List RateAnswer :=
  match c.call with
  | .take key => ((l.take key c.now).1, [.taken (l.take key c.now).2])
  | .retryAfterMs key => ((l.retryAfterMs key c.now).1, [.wait (l.retryAfterMs key c.now).2])

def takeUnswept (l : RateLimiter) (key : String) (now : Nat) : RateLimiter × Bool :=
  let (l, times) := l.prune key now
  if l.limit ≤ times.length then (l, false)
  else ({ l with hits := l.hits.set key (times ++ [now]) }, true)

def answerUnswept (l : RateLimiter) (c : TimedCall) : RateLimiter × List RateAnswer :=
  match c.call with
  | .take key => ((l.takeUnswept key c.now).1, [.taken (l.takeUnswept key c.now).2])
  | .retryAfterMs key => ((l.retryAfterMs key c.now).1, [.wait (l.retryAfterMs key c.now).2])

def live (l : RateLimiter) (key : String) (now : Nat) : List Nat := within l.windowMs now ((l.hits.get key).getD [])

theorem prune_times (l : RateLimiter) (key : String) (now : Nat) : (l.prune key now).2 = l.live key now := by
  unfold prune
  dsimp only
  split <;> rfl

theorem get_prune (l : RateLimiter) (key : String) (now : Nat) (k : String) :
    ((l.prune key now).1.hits.get k).getD [] = if k = key then l.live key now else (l.hits.get k).getD [] := by
  unfold prune
  dsimp only
  split
  · rename_i h
    rw [get_delete]
    split
    · exact h.symm
    · rfl
  · rw [get_set]
    split <;> rfl

/-- What `limit` and `windowMs` a call leaves, and of each key the live hits with those that the call adds. -/
structure Answers (l after : RateLimiter) (now : Nat) (added : String → List Nat) : Prop where
  limit : after.limit = l.limit
  windowMs : after.windowMs = l.windowMs
  live : ∀ k later, now ≤ later → after.live k later = l.live k later ++ within l.windowMs later (added k)

theorem Answers.trans {l mid after : RateLimiter} {now : Nat} {added : String → List Nat}
    (h : Answers l mid now fun _ => []) (h' : Answers mid after now added) : Answers l after now added where
  limit := h'.limit.trans h.limit
  windowMs := h'.windowMs.trans h.windowMs
  live := fun k later hlater => by
    rw [h'.live k later hlater, h.live k later hlater, h.windowMs]
    simp [within]

theorem prune_answers (l : RateLimiter) (key : String) (now : Nat) : Answers l (l.prune key now).1 now fun _ => [] := by
  have hwindow : (l.prune key now).1.windowMs = l.windowMs := by
    unfold prune
    dsimp only
    split <;> rfl
  refine ⟨?_, hwindow, fun k later hlater => ?_⟩
  · unfold prune
    dsimp only
    split <;> rfl
  · rw [RateLimiter.live, hwindow, get_prune]
    by_cases hk : k = key
    · rw [if_pos hk, hk, RateLimiter.live, within_within hlater]
      simp [RateLimiter.live, within]
    · rw [if_neg hk]
      simp [RateLimiter.live, within]

theorem sweep_answers (l : RateLimiter) (now : Nat) : Answers l (l.sweep now) now fun _ => [] := by
  unfold sweep
  split
  · exact ⟨rfl, rfl, fun k later _ => by simp [within]⟩
  · refine ⟨rfl, rfl, fun k later hlater => ?_⟩
    simp only [RateLimiter.live, within, filter_nil, append_nil]
    cases hget : l.hits.get k with
    | none =>
      have hnone : (l.hits.filter fun _ times => !times.all fun t => t + l.windowMs ≤ now).get k = none := by
        rw [get_eq_none, OrderedMap.mem_keys]
        rintro ⟨v, hv⟩
        rw [get_filter, hget] at hv
        cases hv.1
      rw [hnone]
    | some times =>
      cases hold : times.all fun t => decide (t + l.windowMs ≤ now) with
      | false =>
        have hkept : (l.hits.filter fun _ times => !times.all fun t => t + l.windowMs ≤ now).get k = some times :=
          (get_filter ..).2 ⟨hget, by simp [hold]⟩
        rw [hkept]
      | true =>
        have hnone : (l.hits.filter fun _ times => !times.all fun t => t + l.windowMs ≤ now).get k = none := by
          rw [get_eq_none, OrderedMap.mem_keys]
          rintro ⟨v, hv⟩
          rw [get_filter, hget] at hv
          obtain ⟨hv, hv'⟩ := hv
          cases hv
          simp [hold] at hv'
        rw [hnone]
        refine (filter_eq_nil_iff.2 fun t ht => ?_).symm
        have hle : t + l.windowMs ≤ now := by simpa using all_eq_true.1 hold t ht
        simp only [decide_eq_true_eq]
        omega

theorem takeUnswept_ok (l : RateLimiter) (key : String) (now : Nat) :
    (l.takeUnswept key now).2 = decide ((l.live key now).length < l.limit) := by
  unfold takeUnswept
  simp only [prune_times, (l.prune_answers key now).limit]
  split
  · rename_i h
    exact (decide_eq_false (Nat.not_lt.2 h)).symm
  · rename_i h
    exact (decide_eq_true (Nat.not_le.1 h)).symm

theorem takeUnswept_answers (l : RateLimiter) (key : String) (now : Nat) :
    Answers l (l.takeUnswept key now).1 now
      fun k => if (l.live key now).length < l.limit ∧ k = key then [now] else [] := by
  have hprune := l.prune_answers key now
  unfold takeUnswept
  simp only [prune_times, hprune.limit]
  split
  · rename_i h
    have hfull : ¬ (l.live key now).length < l.limit := Nat.not_lt.2 h
    simpa only [hfull, false_and, if_false] using hprune
  · rename_i h
    have hroom : (l.live key now).length < l.limit := Nat.not_le.1 h
    refine ⟨rfl, hprune.windowMs, fun k later hlater => ?_⟩
    have hbefore := hprune.live k later hlater
    simp only [hroom, true_and]
    simp only [RateLimiter.live, hprune.windowMs, get_set] at hbefore ⊢
    by_cases hk : k = key
    · rw [if_pos hk, if_pos hk, Option.getD_some, within_append, within_within hlater, hk]
    · rw [if_neg hk, if_neg hk, hbefore]

theorem take_eq (l : RateLimiter) (key : String) (now : Nat) : l.take key now = (l.sweep now).takeUnswept key now := rfl

theorem retryAfterMs_state (l : RateLimiter) (key : String) (now : Nat) :
    (l.retryAfterMs key now).1 = (l.prune key now).1 := by
  unfold retryAfterMs
  dsimp only
  split
  · rfl
  · split <;> rfl

/-- The answer of `retryAfterMs`, from the live hits. -/
def waitFor (limit windowMs now : Nat) : List Nat → Nat
  | [] => 0
  | oldest :: rest => if (oldest :: rest).length < limit then 0 else oldest + windowMs - now

theorem retryAfterMs_wait (l : RateLimiter) (key : String) (now : Nat) :
    (l.retryAfterMs key now).2 = waitFor l.limit l.windowMs now (l.live key now) := by
  have hprune := l.prune_answers key now
  unfold retryAfterMs
  simp only [prune_times, hprune.limit, hprune.windowMs]
  cases l.live key now with
  | nil => rfl
  | cons oldest rest =>
    simp only [waitFor]
    split <;> rfl

end RateLimiter

def rateLimiter (limit windowMs : Nat) : Machine RateLimiter TimedCall RateAnswer :=
  ⟨.createRateLimiter limit windowMs, RateLimiter.answer⟩

/-- The limiter that never sweeps. -/
def unsweptLimiter (limit windowMs : Nat) : Machine RateLimiter TimedCall RateAnswer :=
  ⟨.createRateLimiter limit windowMs, RateLimiter.answerUnswept⟩

def passed (k : String) (x : Machine.Entry RateLimiter TimedCall RateAnswer) : Option Nat :=
  match x.event.call, x.out with
  | .take key, [.taken true] => if key = k then some x.event.now else none
  | _, _ => none

/-- The times at which a run took a unit of `k`. -/
def granted (M : Machine RateLimiter TimedCall RateAnswer) (calls : List TimedCall) (k : String) : List Nat :=
  (M.trace calls).filterMap (passed k)

/-- The clock does not go back. -/
def Clocked (calls : List TimedCall) : Prop := calls.Pairwise fun c c' => c.now ≤ c'.now

/-- What a call answers, and the hits it adds, from the live hits of its key. -/
structure Windowed (step : RateLimiter → TimedCall → RateLimiter × List RateAnswer) : Prop where
  take : ∀ (l : RateLimiter) key now, (step l ⟨.take key, now⟩).2 = [.taken (decide ((l.live key now).length < l.limit))]
  taken : ∀ (l : RateLimiter) key now, l.Answers (step l ⟨.take key, now⟩).1 now
    fun k => if (l.live key now).length < l.limit ∧ k = key then [now] else []
  wait : ∀ (l : RateLimiter) key now, (step l ⟨.retryAfterMs key, now⟩).2 =
    [.wait (RateLimiter.waitFor l.limit l.windowMs now (l.live key now))]
  waited : ∀ (l : RateLimiter) key now, l.Answers (step l ⟨.retryAfterMs key, now⟩).1 now fun _ => []

theorem windowed_answer : Windowed RateLimiter.answer where
  take l key now := by
    have hsweep := l.sweep_answers now
    have hlive := hsweep.live key now (Nat.le_refl _)
    simp only [within, filter_nil, append_nil] at hlive
    simp only [RateLimiter.answer, take_eq, takeUnswept_ok, hsweep.limit, hlive]
  taken l key now := by
    have hsweep := l.sweep_answers now
    have hlive := hsweep.live key now (Nat.le_refl _)
    simp only [within, filter_nil, append_nil] at hlive
    have htake := (l.sweep now).takeUnswept_answers key now
    simp only [hlive, hsweep.limit] at htake
    exact hsweep.trans htake
  wait l key now := by simp only [RateLimiter.answer, retryAfterMs_wait]
  waited l key now := by
    simp only [RateLimiter.answer, retryAfterMs_state]
    exact l.prune_answers key now

theorem windowed_answerUnswept : Windowed RateLimiter.answerUnswept where
  take l key now := by simp only [RateLimiter.answerUnswept, takeUnswept_ok]
  taken l key now := l.takeUnswept_answers key now
  wait l key now := windowed_answer.wait l key now
  waited l key now := windowed_answer.waited l key now

section runs
variable {M M' : Machine RateLimiter TimedCall RateAnswer} {limit windowMs : Nat}

theorem granted_snoc (calls : List TimedCall) (c : TimedCall) (k : String) :
    granted M (calls ++ [c]) k = granted M calls k ++ (passed k (M.entry (M.run calls) c)).toList := by
  rw [granted, trace_snoc, filterMap_append, granted]
  cases h : passed k (M.entry (M.run calls) c) <;> simp [h]

variable {k : String}

theorem passed_some {x : Machine.Entry RateLimiter TimedCall RateAnswer} {t : Nat}
    (h : passed k x = some t) : x.event.now = t := by
  unfold passed at h
  split at h
  · split at h
    · exact Option.some.inj h
    · cases h
  · cases h

theorem mem_granted {calls : List TimedCall} {t : Nat} (h : t ∈ granted M calls k) : ∃ c ∈ calls, c.now = t := by
  obtain ⟨x, hx, hpassed⟩ := mem_filterMap.1 h
  obtain ⟨before, c, after, rfl, rfl⟩ := (M.mem_trace calls x).1 hx
  exact ⟨c, by simp, passed_some hpassed⟩

theorem passed_take (hM : Windowed M.step) (l : RateLimiter) (key : String) (now : Nat) (k : String) :
    (passed k (M.entry l ⟨.take key, now⟩)).toList =
      if (l.live key now).length < l.limit ∧ k = key then [now] else [] := by
  simp only [passed, Machine.entry, hM.take]
  by_cases hroom : (l.live key now).length < l.limit
  · simp only [hroom, decide_true, true_and]
    by_cases hk : key = k
    · rw [if_pos hk, if_pos hk.symm, Option.toList_some]
    · rw [if_neg hk, if_neg (fun e => hk e.symm), Option.toList_none]
  · simp only [hroom, decide_false, false_and, if_false, Option.toList_none]

theorem passed_retryAfterMs (l : RateLimiter) (key : String) (now : Nat) (k : String) :
    passed k (M.entry l ⟨.retryAfterMs key, now⟩) = none := rfl

theorem step_answers (hM : Windowed M.step) (l : RateLimiter) (c : TimedCall) :
    l.Answers (M.step l c).1 c.now fun k => (passed k (M.entry l c)).toList := by
  obtain ⟨call, now⟩ := c
  cases call with
  | take key =>
    simp only [passed_take hM]
    exact hM.taken l key now
  | retryAfterMs key =>
    simp only [passed_retryAfterMs]
    exact hM.waited l key now

/-- The live hits of a run are the units it took that are in the window. -/
structure Tracks (bound width : Nat) (l : RateLimiter) (log : String → List Nat) (now : Nat) : Prop where
  limit : l.limit = bound
  windowMs : l.windowMs = width
  live : ∀ k later, now ≤ later → l.live k later = within width later (log k)

theorem tracks_run (hM : Windowed M.step) (hinit : M.init = .createRateLimiter limit windowMs) (calls : List TimedCall) :
    Clocked calls → ∀ now, (∀ c ∈ calls, c.now ≤ now) → Tracks limit windowMs (M.run calls) (granted M calls) now := by
  induction calls using List.reverseRecOn with
  | nil =>
    intro _ now _
    rw [run_nil, hinit]
    exact ⟨rfl, rfl, fun k later _ => rfl⟩
  | append_singleton calls c ih =>
    intro hclock now hnow
    obtain ⟨hbefore, -, hlast⟩ := pairwise_append.1 hclock
    have htracks := ih hbefore c.now fun c' hc' => hlast c' hc' c (mem_singleton_self c)
    have hstep := step_answers hM (M.run calls) c
    have hc : c.now ≤ now := hnow c (by simp)
    rw [run_snoc]
    refine ⟨hstep.limit.trans htracks.limit, hstep.windowMs.trans htracks.windowMs, fun k later hlater => ?_⟩
    rw [hstep.live k later (by omega), htracks.live k later (by omega), htracks.windowMs, granted_snoc, within_append]

theorem granted_limited (hM : Windowed M.step) (hinit : M.init = .createRateLimiter limit windowMs)
    (calls : List TimedCall) (hclock : Clocked calls) (k : String) : Limited windowMs limit (granted M calls k) := by
  induction calls using List.reverseRecOn with
  | nil => exact .nil
  | append_singleton calls c ih =>
    obtain ⟨hbefore, -, hlast⟩ := pairwise_append.1 hclock
    have hnow : ∀ c' ∈ calls, c'.now ≤ c.now := fun c' hc' => hlast c' hc' c (mem_singleton_self c)
    have htracks := tracks_run hM hinit calls hbefore c.now hnow
    obtain ⟨call, now⟩ := c
    rw [granted_snoc]
    cases call with
    | take key =>
      rw [passed_take hM, htracks.limit, htracks.live key now (Nat.le_refl _)]
      split
      · rename_i h
        refine (ih hbefore).snoc (fun t ht => ?_) (h.2 ▸ h.1)
        obtain ⟨c', hc', rfl⟩ := mem_granted ht
        exact hnow c' hc'
      · rw [append_nil]
        exact ih hbefore
    | retryAfterMs key =>
      rw [passed_retryAfterMs, Option.toList_none, append_nil]
      exact ih hbefore

theorem outputs_alike (hM : Windowed M.step) (hM' : Windowed M'.step) (hinit : M.init = .createRateLimiter limit windowMs)
    (hinit' : M'.init = .createRateLimiter limit windowMs) (calls : List TimedCall) (hclock : Clocked calls) :
    M.outputs calls = M'.outputs calls ∧ ∀ k, granted M calls k = granted M' calls k := by
  induction calls using List.reverseRecOn with
  | nil => exact ⟨rfl, fun k => rfl⟩
  | append_singleton calls c ih =>
    obtain ⟨hbefore, -, hlast⟩ := pairwise_append.1 hclock
    have hnow : ∀ c' ∈ calls, c'.now ≤ c.now := fun c' hc' => hlast c' hc' c (mem_singleton_self c)
    have htracks := tracks_run hM hinit calls hbefore c.now hnow
    have htracks' := tracks_run hM' hinit' calls hbefore c.now hnow
    obtain ⟨houtputs, hgranted⟩ := ih hbefore
    have hlive : ∀ k, (M.run calls).live k c.now = (M'.run calls).live k c.now := fun k => by
      rw [htracks.live k _ (Nat.le_refl _), htracks'.live k _ (Nat.le_refl _), hgranted]
    obtain ⟨call, now⟩ := c
    cases call with
    | take key =>
      refine ⟨?_, fun k => ?_⟩
      · rw [outputs_snoc, outputs_snoc, houtputs, hM.take, hM'.take, hlive, htracks.limit, htracks'.limit]
      · rw [granted_snoc, granted_snoc, hgranted, passed_take hM, passed_take hM', hlive, htracks.limit, htracks'.limit]
    | retryAfterMs key =>
      refine ⟨?_, fun k => ?_⟩
      · rw [outputs_snoc, outputs_snoc, houtputs, hM.wait, hM'.wait, hlive, htracks.limit, htracks'.limit,
          htracks.windowMs, htracks'.windowMs]
      · rw [granted_snoc, granted_snoc, hgranted, passed_retryAfterMs, passed_retryAfterMs]

theorem granted_others (calls others : List TimedCall) (h : ∀ c ∈ others, c.call.key ≠ k) :
    granted M (calls ++ others) k = granted M calls k := by
  induction others using List.reverseRecOn with
  | nil => simp
  | append_singleton others c ih =>
    rw [← append_assoc, granted_snoc, ih fun c' hc' => h c' (mem_append_left _ hc')]
    have hkey := h c (by simp)
    have hnone : passed k (M.entry (M.run (calls ++ others)) c) = none := by
      unfold passed
      split
      · rename_i key hcall _
        rw [show c.call = .take key from hcall] at hkey
        exact if_neg hkey
      · rfl
    rw [hnone, Option.toList_none, append_nil]

theorem refused_until (hM : Windowed M.step) (hinit : M.init = .createRateLimiter limit windowMs) (hlimit : 1 ≤ limit)
    {calls : List TimedCall} {t : Nat} (hclock : Clocked calls) (hnow : ∀ c ∈ calls, c.now ≤ t)
    (hrefused : (M.step (M.run calls) ⟨.take k, t⟩).2 = [.taken false]) :
    ∃ ms, (M.step (M.run (calls ++ [⟨.take k, t⟩])) ⟨.retryAfterMs k, t⟩).2 = [.wait ms] ∧
      ∀ others, (∀ c ∈ others, c.call.key ≠ k) → Clocked (calls ++ [⟨.take k, t⟩] ++ [⟨.retryAfterMs k, t⟩] ++ others) →
        ∀ later, t ≤ later → (∀ c ∈ others, c.now ≤ later) →
          (later < t + ms → (M.step (M.run (calls ++ [⟨.take k, t⟩] ++ [⟨.retryAfterMs k, t⟩] ++ others))
            ⟨.take k, later⟩).2 = [.taken false]) ∧
          (later = t + ms → (M.step (M.run (calls ++ [⟨.take k, t⟩] ++ [⟨.retryAfterMs k, t⟩] ++ others))
            ⟨.take k, later⟩).2 = [.taken true]) := by
  have htracks := tracks_run hM hinit calls hclock t hnow
  have hlimited := granted_limited hM hinit calls hclock k
  rw [hM.take, htracks.limit, htracks.live k t (Nat.le_refl _)] at hrefused
  have hfull : limit ≤ (within windowMs t (granted M calls k)).length := by
    have hdecided : decide ((within windowMs t (granted M calls k)).length < limit) = false := by
      simpa using hrefused
    exact Nat.not_lt.1 (of_decide_eq_false hdecided)
  have hatmost : (within windowMs t (granted M calls k)).length ≤ limit :=
    hlimited.within_le fun x hx => by
      obtain ⟨c, hc, rfl⟩ := mem_granted hx
      exact hnow c hc
  -- The refusal and the question about it take no unit.
  have htaken : granted M (calls ++ [⟨.take k, t⟩]) k = granted M calls k := by
    rw [granted_snoc, passed_take hM, htracks.limit, htracks.live k t (Nat.le_refl _), if_neg (by omega),
      append_nil]
  have hasked : granted M (calls ++ [⟨.take k, t⟩] ++ [⟨.retryAfterMs k, t⟩]) k = granted M calls k := by
    rw [granted_snoc, passed_retryAfterMs, Option.toList_none, append_nil, htaken]
  cases hwindow : within windowMs t (granted M calls k) with
  | nil =>
    rw [hwindow, length_nil] at hfull
    omega
  | cons oldest rest =>
    have hlive : t < oldest + windowMs := by
      have hmem : oldest ∈ within windowMs t (granted M calls k) := by rw [hwindow]; exact mem_cons_self
      simpa using (mem_filter.1 hmem).2
    have htracks' : Tracks limit windowMs (M.run (calls ++ [⟨.take k, t⟩])) (granted M (calls ++ [⟨.take k, t⟩])) t := by
      refine tracks_run hM hinit _ ?_ t fun c hc => ?_
      · refine pairwise_append.2 ⟨hclock, pairwise_singleton _ _, fun c hc c' hc' => ?_⟩
        rw [mem_singleton.1 hc']
        exact hnow c hc
      · cases mem_append.1 hc with
        | inl hbefore => exact hnow c hbefore
        | inr hlast => exact Nat.le_of_eq (by rw [mem_singleton.1 hlast])
    refine ⟨oldest + windowMs - t, ?_, fun others hothers hclock' later hle hlater => ?_⟩
    · rw [hM.wait, htracks'.live k t (Nat.le_refl _), htracks'.limit, htracks'.windowMs, htaken, hwindow]
      have hnot : ¬ (oldest :: rest).length < limit := by rw [← hwindow]; omega
      simp only [RateLimiter.waitFor, if_neg hnot]
    · have hafter := tracks_run hM hinit _ hclock' later fun c hc => by
        simp only [mem_append, mem_singleton] at hc
        obtain ((hc | rfl) | rfl) | hc := hc
        · exact Nat.le_trans (hnow c hc) hle
        · exact hle
        · exact hle
        · exact hlater c hc
      rw [hM.take, hafter.limit, hafter.live k later (Nat.le_refl _), granted_others _ _ hothers, hasked]
      constructor
      · intro hsoon
        rw [within_until hlimited.sorted hwindow hle (by omega), ← hwindow]
        simp only [decide_eq_false (Nat.not_lt.2 hfull)]
      · intro hdue
        have hroom := within_after hwindow hle (by omega : oldest + windowMs ≤ later)
        have hlt : (within windowMs later (granted M calls k)).length < limit := by omega
        simp only [decide_eq_true hlt]

end runs

/-- A limiter gives a unit exactly when fewer than `limit` were given in the window that ends now. -/
theorem limiter_slides (limit windowMs : Nat) (hlimit : 1 ≤ limit) (calls : List TimedCall) (hclock : Clocked calls) :
    (∀ k t, (∀ c ∈ calls, c.now ≤ t) →
      ((rateLimiter limit windowMs).step ((rateLimiter limit windowMs).run calls) ⟨.take k, t⟩).2 =
        [.taken (decide (((granted (rateLimiter limit windowMs) calls k).filter fun x =>
          decide (t < x + windowMs ∧ x ≤ t)).length < limit))]) ∧
    (∀ k a, ((granted (rateLimiter limit windowMs) calls k).filter fun x =>
        decide (a ≤ x ∧ x < a + windowMs)).length ≤ limit ∧
      ((granted (rateLimiter limit windowMs) calls k).filter fun x =>
        decide (a < x ∧ x ≤ a + windowMs)).length ≤ limit) ∧
    (rateLimiter limit windowMs).outputs calls = (unsweptLimiter limit windowMs).outputs calls ∧
    ∀ k t, (∀ c ∈ calls, c.now ≤ t) →
      ((rateLimiter limit windowMs).step ((rateLimiter limit windowMs).run calls) ⟨.take k, t⟩).2 = [.taken false] →
      ∃ ms, ((rateLimiter limit windowMs).step ((rateLimiter limit windowMs).run (calls ++ [⟨.take k, t⟩]))
          ⟨.retryAfterMs k, t⟩).2 = [.wait ms] ∧ ∀ others, (∀ c ∈ others, c.call.key ≠ k) →
          Clocked (calls ++ [⟨.take k, t⟩] ++ [⟨.retryAfterMs k, t⟩] ++ others) →
          ∀ later, t ≤ later → (∀ c ∈ others, c.now ≤ later) →
            (later < t + ms → ((rateLimiter limit windowMs).step ((rateLimiter limit windowMs).run
              (calls ++ [⟨.take k, t⟩] ++ [⟨.retryAfterMs k, t⟩] ++ others)) ⟨.take k, later⟩).2 = [.taken false]) ∧
            (later = t + ms → ((rateLimiter limit windowMs).step ((rateLimiter limit windowMs).run
              (calls ++ [⟨.take k, t⟩] ++ [⟨.retryAfterMs k, t⟩] ++ others)) ⟨.take k, later⟩).2 = [.taken true]) := by
  have hlimited := fun k => granted_limited (M := rateLimiter limit windowMs) windowed_answer rfl calls hclock k
  refine ⟨fun k t hnow => ?_, fun k a => ⟨?_, ?_⟩, ?_, fun k t hnow hrefused => ?_⟩
  · have htracks := tracks_run (M := rateLimiter limit windowMs) windowed_answer rfl calls hclock t hnow
    have hwindow : within windowMs t (granted (rateLimiter limit windowMs) calls k) =
        (granted (rateLimiter limit windowMs) calls k).filter fun x => decide (t < x + windowMs ∧ x ≤ t) := by
      refine filter_congr fun x hx => ?_
      obtain ⟨c, hc, rfl⟩ := mem_granted hx
      simp [hnow c hc]
    have htake := windowed_answer.take ((rateLimiter limit windowMs).run calls) k t
    rwa [htracks.limit, htracks.live k t (Nat.le_refl _), hwindow] at htake
  · refine (hlimited k).span fun x y hx hy => ?_
    simp only [decide_eq_true_eq] at hx hy
    omega
  · refine (hlimited k).span fun x y hx hy => ?_
    simp only [decide_eq_true_eq] at hx hy
    omega
  · exact (outputs_alike windowed_answer windowed_answerUnswept rfl rfl calls hclock).1
  · exact refused_until windowed_answer rfl hlimit hclock hnow hrefused

/-- Two callers, the first of them twice in one minute. -/
theorem one_a_minute : (1 ≤ 1 ∧ Clocked [⟨.take "ip", 1000⟩, ⟨.take "other", 2000⟩, ⟨.take "ip", 60999⟩]) ∧
      (rateLimiter 1 60000).outputs [⟨.take "ip", 1000⟩, ⟨.take "other", 2000⟩, ⟨.take "ip", 60999⟩] =
        (unsweptLimiter 1 60000).outputs [⟨.take "ip", 1000⟩, ⟨.take "other", 2000⟩, ⟨.take "ip", 60999⟩] :=
  have hclock : Clocked [⟨.take "ip", 1000⟩, ⟨.take "other", 2000⟩, ⟨.take "ip", 60999⟩] := by
    simp [Clocked]
  ⟨⟨Nat.le_refl _, hclock⟩, (limiter_slides 1 60000 (Nat.le_refl _) _ hclock).2.2.1⟩

end Mtmux.Broker
