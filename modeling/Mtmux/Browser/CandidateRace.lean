import Mtmux.Base.Machine

/-! The race for a direct route: every candidate is dialled, sent the token, and the first to say that it has
accepted it wins. -/
namespace Mtmux.Browser
open Machine List

def usableCandidates (pageProtocol : Option String) (candidates : List String) : List String :=
  if pageProtocol = some "https:" then candidates.filter fun c => !("http://".toList.isPrefixOf c.toList)
  else candidates

/-- `http://host:port` becomes `ws://host:port/_relay`. -/
def probeUrlFor (candidate : String) : String :=
  (if "http".toList.isPrefixOf candidate.toList then "ws" ++ String.ofList (candidate.toList.drop 4)
    else candidate) ++ "/_relay"

/-- What an endpoint does with the socket of its probe. Nothing can be said over a socket before it is open. -/
inductive EndpointAct where
  | opens
  | tells (raw : String)
  | closes
  | waits

/-- What was sent to it. -/
structure AuthMessage where
  token : String

/-- Whatever an endpoint does, it decides by the token as far as it knows it, by what it has been sent and by how
often it has acted. -/
abbrev Endpoint : Type := (token : String) → (received : List AuthMessage) → (acted : Nat) → EndpointAct

def Ignorant (endpoint : Endpoint) : Prop := ∀ token token', endpoint token = endpoint token'

inductive ProbeOutcome where
  | running
  | resolved
  | rejected
  deriving DecidableEq

structure Probe where
  candidate : String
  outcome : ProbeOutcome
  opened : Bool
  closed : Bool
  acted : Nat
  received : List AuthMessage
  heard : List String

structure Race where
  probes : List Probe
  /-- The result, once there is one: the winner's place among the candidates. -/
  ended : Option (Option Nat)

/-- The i-th endpoint acts, or the time is up. -/
inductive RaceEvent where
  | acts (i : Nat)
  | timeout

section
variable (connects : String → Bool) (typeOf : String → Option String) (endpoints : Nat → Endpoint)

/-- A candidate that cannot be dialled is rejected at once. -/
def Probe.start (candidate : String) : Probe :=
  ⟨candidate, if connects (probeUrlFor candidate) then .running else .rejected, false,
    !connects (probeUrlFor candidate), 0, [], []⟩

/-- The token is sent as soon as the socket is open. -/
def Probe.onOpen (token : String) (p : Probe) : Probe :=
  { p with opened := true, received := p.received ++ [⟨token⟩] }

/-- What cannot be read, and what is of another type, is ignored. -/
def Probe.onMessage (raw : String) (p : Probe) : Probe :=
  if p.outcome ≠ .running then p
  else
    match typeOf raw with
    | some "auth:success" => { p with outcome := .resolved }
    | some "auth:error" => { p with outcome := .rejected }
    | _ => p

def Probe.onClose (p : Probe) : Probe :=
  { p with closed := true, outcome := if p.outcome = .running then .rejected else p.outcome }

def Probe.act (token : String) (act : EndpointAct) (probe : Probe) : Probe :=
  let p := { probe with acted := probe.acted + 1 }
  if p.closed then p
  else
    match act with
    | .opens => if p.opened then p else p.onOpen token
    | .tells raw => if p.opened then { p.onMessage typeOf raw with heard := p.heard ++ [raw] } else p
    | .closes => p.onClose
    | .waits => p

namespace Race

def settle (s : Race) (i : Nat) : Race :=
  if (s.probes[i]?).any fun p => decide (p.outcome = .resolved) then { s with ended := some (some i) }
  else if s.probes.all fun p => decide (p.outcome = .rejected) then { s with ended := some none }
  else s

def begin (pageProtocol : Option String) (candidates : List String) (token : String) : Race :=
  let usable := usableCandidates pageProtocol candidates
  if usable = [] ∨ token = "" then ⟨[], some none⟩
  else
    let probes := usable.map (Probe.start connects)
    ⟨probes, if probes.all fun p => decide (p.outcome = .rejected) then some none else none⟩

/-- Once the race is over every socket is closed. -/
def step (token : String) (s : Race) (e : RaceEvent) : Race :=
  if s.ended.isSome then s
  else
    match e with
    | .timeout => { s with ended := some none }
    | .acts i =>
      match s.probes[i]? with
      | none => s
      | some p => settle { s with
          probes := s.probes.set i (p.act typeOf token (endpoints i token p.received p.acted)) } i

end Race

def raceMachine (pageProtocol : Option String) (candidates : List String) (token : String) :
    Machine Race RaceEvent Unit :=
  ⟨Race.begin connects pageProtocol candidates token, fun s e => (Race.step typeOf endpoints token s e, [])⟩

/-- What the i-th endpoint has said. -/
def Race.heardFrom (s : Race) (i : Nat) : List String := ((s.probes[i]?).map (·.heard)).getD []

def Race.sentTo (s : Race) (i : Nat) : List AuthMessage := ((s.probes[i]?).map (·.received)).getD []

/-- The endpoint that wins has known the token; and whoever is sent the token has proved before that it knows it: it
has said what it would not have said with another token. -/
structure ProvesBefore (pageProtocol : Option String) (candidates : List String) (token : String)
    (es : List RaceEvent) : Prop where
  winner : ∀ i, ((raceMachine connects typeOf endpoints pageProtocol candidates token).run es).ended =
    some (some i) → ¬ Ignorant (endpoints i)
  sent : ∀ before e after i, es = before ++ e :: after →
    ((raceMachine connects typeOf endpoints pageProtocol candidates token).run (before ++ [e])).sentTo i ≠
      ((raceMachine connects typeOf endpoints pageProtocol candidates token).run before).sentTo i →
    ∃ raw ∈ ((raceMachine connects typeOf endpoints pageProtocol candidates token).run before).heardFrom i,
      ∃ token', raw ∉
        ((raceMachine connects typeOf endpoints pageProtocol candidates token').run before).heardFrom i

def NobodyOpens (pageProtocol : Option String) (candidates : List String) (token : String)
    (es : List RaceEvent) : Prop :=
  ∀ x ∈ (raceMachine connects typeOf endpoints pageProtocol candidates token).trace es, x.pre.ended = none →
    ∀ i p, x.event = .acts i → x.pre.probes[i]? = some p → p.closed = false → p.opened = false →
      endpoints i token p.received p.acted ≠ .opens

end

section Runs
variable {connects : String → Bool} {typeOf : String → Option String} {endpoints : Nat → Endpoint}
  {pageProtocol : Option String} {candidates : List String} {token : String}

/-- Over a socket that has not been open nothing has come. -/
def Probe.Silent (p : Probe) : Prop := p.opened = false → p.heard = [] ∧ p.outcome ≠ .resolved

theorem silent_start (candidate : String) : (Probe.start connects candidate).Silent := by
  intro _
  refine ⟨rfl, ?_⟩
  unfold Probe.start
  dsimp only
  split
  · simp
  · simp

theorem silent_act {p : Probe} (h : p.Silent) (act : EndpointAct) : (p.act typeOf token act).Silent := by
  unfold Probe.act
  dsimp only
  split
  · exact h
  · cases act with
    | opens =>
      dsimp only
      split
      · exact h
      · intro hopened
        cases hopened
    | tells raw =>
      dsimp only
      split
      · rename_i hopened
        intro hclosed
        have hsame : ∀ q : Probe, (q.onMessage typeOf raw).opened = q.opened := by
          intro q
          unfold Probe.onMessage
          split
          · rfl
          · split <;> rfl
        change (Probe.onMessage typeOf raw _).opened = false at hclosed
        rw [hsame] at hclosed
        exact absurd hopened (by simpa using hclosed)
      · exact h
    | closes =>
      intro hopened
      obtain ⟨hheard, houtcome⟩ := h hopened
      refine ⟨hheard, ?_⟩
      dsimp only [Probe.onClose]
      split
      · simp
      · exact houtcome
    | waits => exact h

theorem act_sent (typeOf : String → Option String) (token : String) {p : Probe} {act : EndpointAct}
    (h : p.closed = false → p.opened = false → act ≠ .opens) :
    (p.act typeOf token act).received = p.received ∧ (p.act typeOf token act).opened = p.opened := by
  unfold Probe.act
  dsimp only
  split
  · exact ⟨rfl, rfl⟩
  · rename_i hclosed
    cases act with
    | opens =>
      dsimp only
      split
      · exact ⟨rfl, rfl⟩
      · rename_i hopened
        exact absurd rfl (h (by simpa using hclosed) (by simpa using hopened))
    | tells raw =>
      dsimp only
      split
      · unfold Probe.onMessage
        split
        · exact ⟨rfl, rfl⟩
        · split <;> exact ⟨rfl, rfl⟩
      · exact ⟨rfl, rfl⟩
    | closes | waits => exact ⟨rfl, rfl⟩

structure Race.Sound (s : Race) : Prop where
  silent : ∀ p ∈ s.probes, p.Silent
  won : ∀ i, s.ended = some (some i) → ∃ p, s.probes[i]? = some p ∧ p.outcome = .resolved

theorem settle_probes (s : Race) (i : Nat) : (s.settle i).probes = s.probes := by
  unfold Race.settle
  split
  · rfl
  · split
    · rfl
    · rfl

variable {s : Race}

theorem sound_settle (hsilent : ∀ p ∈ s.probes, p.Silent) (hover : s.ended = none) (i : Nat) : (s.settle i).Sound := by
  refine ⟨by rw [settle_probes]; exact hsilent, ?_⟩
  intro j hj
  rw [settle_probes]
  unfold Race.settle at hj
  split at hj
  · rename_i hresolved
    cases hj
    cases hp : s.probes[i]? with
    | none =>
      rw [hp] at hresolved
      cases hresolved
    | some p =>
      rw [hp] at hresolved
      exact ⟨p, rfl, of_decide_eq_true hresolved⟩
  · split at hj
    · cases hj
    · rw [hover] at hj
      cases hj

theorem sound_begin : (Race.begin connects pageProtocol candidates token).Sound := by
  unfold Race.begin
  dsimp only
  split
  · refine ⟨by simp, ?_⟩
    intro i hi
    cases hi
  · refine ⟨?_, ?_⟩
    · intro p hp
      obtain ⟨candidate, -, rfl⟩ := mem_map.1 hp
      exact silent_start candidate
    · intro i hi
      dsimp only at hi
      split at hi
      · cases hi
      · cases hi

theorem sound_step (h : s.Sound) (e : RaceEvent) : (s.step typeOf endpoints token e).Sound := by
  unfold Race.step
  split
  · exact h
  · rename_i hover
    have hnone : s.ended = none := by simpa using hover
    cases e with
    | timeout =>
      refine ⟨h.silent, ?_⟩
      intro i hi
      cases hi
    | acts i =>
      dsimp only
      split
      · exact h
      · rename_i p hp
        have hsilent : ∀ q ∈ s.probes.set i (p.act typeOf token (endpoints i token p.received p.acted)),
            q.Silent := by
          intro q hq
          cases mem_or_eq_of_mem_set hq with
          | inl hold => exact h.silent q hold
          | inr hnew =>
            rw [hnew]
            exact silent_act (h.silent p (mem_of_getElem? hp)) _
        exact sound_settle (s := { s with
          probes := s.probes.set i (p.act typeOf token (endpoints i token p.received p.acted)) }) hsilent hnone i

theorem sound_run (es : List RaceEvent) :
    ((raceMachine connects typeOf endpoints pageProtocol candidates token).run es).Sound :=
  run_invariant (I := Race.Sound) _ sound_begin (fun _ e h => sound_step h e) es

/-! ### What is sent -/

def StaysShut (endpoints : Nat → Endpoint) (token : String) (s : Race) (e : RaceEvent) : Prop :=
  s.ended = none → ∀ i p, e = .acts i → s.probes[i]? = some p → p.closed = false → p.opened = false →
    endpoints i token p.received p.acted ≠ .opens

theorem step_sent {e : RaceEvent} (h : StaysShut endpoints token s e) (i : Nat) :
    (s.step typeOf endpoints token e).sentTo i = s.sentTo i ∧
      ((s.step typeOf endpoints token e).probes[i]?).map (·.opened) = (s.probes[i]?).map (·.opened) := by
  unfold Race.step
  split
  · exact ⟨rfl, rfl⟩
  · rename_i hover
    have hnone : s.ended = none := by simpa using hover
    cases e with
    | timeout => exact ⟨rfl, rfl⟩
    | acts j =>
      dsimp only
      split
      · exact ⟨rfl, rfl⟩
      · rename_i p hp
        obtain ⟨hreceived, hopened⟩ := act_sent typeOf token (h hnone j p rfl hp)
        unfold Race.sentTo
        rw [settle_probes, List.getElem?_set]
        by_cases hij : j = i
        · subst hij
          have hbound : j < s.probes.length := (List.getElem?_eq_some_iff.1 hp).1
          rw [if_pos rfl, if_pos hbound, hp]
          simp only [Option.map_some, Option.getD_some]
          exact ⟨hreceived, by rw [hopened]⟩
        · rw [if_neg hij]
          exact ⟨rfl, rfl⟩

/-- An endpoint that opens its socket has said nothing yet and is sent the token at once. -/
theorem step_opens (h : s.Sound) {i : Nat} {p : Probe} (hover : s.ended = none)
    (hp : s.probes[i]? = some p) (hclosed : p.closed = false) (hopened : p.opened = false)
    (hact : endpoints i token p.received p.acted = .opens) :
    (s.step typeOf endpoints token (.acts i)).sentTo i = s.sentTo i ++ [⟨token⟩] ∧ s.heardFrom i = [] := by
  have hbound : i < s.probes.length := (List.getElem?_eq_some_iff.1 hp).1
  constructor
  · have hnew : (p.act typeOf token (endpoints i token p.received p.acted)).received = p.received ++ [⟨token⟩] := by
      rw [hact]
      unfold Probe.act
      dsimp only
      rw [if_neg (by simp [hclosed]), if_neg (by simp [hopened])]
      rfl
    unfold Race.step
    rw [if_neg (by simp [hover])]
    dsimp only
    rw [hp]
    dsimp only
    unfold Race.sentTo
    rw [settle_probes, List.getElem?_set, if_pos rfl, if_pos hbound, hp]
    exact hnew
  · unfold Race.heardFrom
    rw [hp]
    exact (h.silent p (mem_of_getElem? hp) hopened).1

theorem unopened_step {e : RaceEvent} (hunopened : ∀ p ∈ s.probes, p.opened = false)
    (h : StaysShut endpoints token s e) :
    ∀ p ∈ (s.step typeOf endpoints token e).probes, p.opened = false := by
  intro p hp
  obtain ⟨i, hi⟩ := List.getElem?_of_mem hp
  obtain ⟨-, hopened⟩ : (s.step typeOf endpoints token e).sentTo i = s.sentTo i ∧ _ := step_sent h i
  rw [hi] at hopened
  cases hold : s.probes[i]? with
  | none =>
    rw [hold] at hopened
    cases hopened
  | some q =>
    rw [hold] at hopened
    have hq := hunopened q (mem_of_getElem? hold)
    simp only [Option.map_some, Option.some.injEq] at hopened
    rw [hopened, hq]

theorem unopened_run {es : List RaceEvent}
    (h : NobodyOpens connects typeOf endpoints pageProtocol candidates token es) :
    ∀ p ∈ ((raceMachine connects typeOf endpoints pageProtocol candidates token).run es).probes, p.opened = false := by
  refine traced_invariant (I := fun _ s _ => ∀ p ∈ Race.probes s, p.opened = false)
    (C := fun _ x => StaysShut endpoints token x.pre x.event) _ ?_ ?_ ?_
  · intro p hp
    change p ∈ (Race.begin connects pageProtocol candidates token).probes at hp
    unfold Race.begin at hp
    dsimp only at hp
    split at hp
    · simp at hp
    · obtain ⟨candidate, -, rfl⟩ := mem_map.1 hp
      rfl
  · intro es s tr e hunopened hnobody
    exact unopened_step hunopened hnobody
  · intro before x after htrace
    exact h x (by simp [htrace])

/-- An endpoint has proved what it knows before it is sent the token, and every winner has known it, exactly when
nobody opens a socket while the race is on: the token goes out with the opening itself. -/
theorem proves_before (connects : String → Bool) (typeOf : String → Option String) (endpoints : Nat → Endpoint)
    (pageProtocol : Option String) (candidates : List String) (token : String) (es : List RaceEvent) :
    ProvesBefore connects typeOf endpoints pageProtocol candidates token es ↔
      NobodyOpens connects typeOf endpoints pageProtocol candidates token es := by
  constructor
  · intro h x hx hover i p he hp hclosed hopened hact
    obtain ⟨before, e, after, hes, rfl⟩ := (mem_trace _ es x).1 hx
    have he' : e = .acts i := he
    subst he'
    obtain ⟨hsent, hheard⟩ := step_opens (sound_run before) hover hp hclosed hopened hact
    have hchanged : ((raceMachine connects typeOf endpoints pageProtocol candidates token).run
        (before ++ [.acts i])).sentTo i ≠
        ((raceMachine connects typeOf endpoints pageProtocol candidates token).run before).sentTo i := by
      rw [run_snoc]
      intro hsame
      have hlength := congrArg List.length (hsent.symm.trans hsame)
      simp at hlength
    obtain ⟨raw, hraw, -⟩ := h.sent before _ after i hes hchanged
    rw [hheard] at hraw
    simp at hraw
  · intro h
    refine ⟨?_, ?_⟩
    · intro i hi
      obtain ⟨p, hp, hresolved⟩ := (sound_run es).won i hi
      have hmem := mem_of_getElem? hp
      exact absurd hresolved ((sound_run es).silent p hmem (unopened_run h p hmem)).2
    · intro before e after i hes hchanged
      have hnobody : StaysShut endpoints token _ e := h _ ((mem_trace _ es _).2 ⟨before, e, after, hes, rfl⟩)
      rw [run_snoc] at hchanged
      exact absurd (step_sent hnobody i).1 hchanged

end Runs

/-! An unrelated host holds an address the machine has advertised. It takes every socket and says at once that it has
accepted it. -/

def impostorAddress : String := "http://192.168.1.20:14100"

def impostorTypes (raw : String) : Option String :=
  if raw = "\x7b\"type\":\"auth:success\"\x7d" then some "auth:success" else none

def impostor : Endpoint := fun _ _ acted =>
  match acted with
  | 0 => .opens
  | 1 => .tells "\x7b\"type\":\"auth:success\"\x7d"
  | _ => .waits

theorem not_proves_before :
    ¬ ∀ (connects : String → Bool) (typeOf : String → Option String) (endpoints : Nat → Endpoint)
      (pageProtocol : Option String) (candidates : List String) (token : String) (es : List RaceEvent),
      ProvesBefore connects typeOf endpoints pageProtocol candidates token es := by
  intro hall
  have h := (hall (fun _ => true) impostorTypes (fun _ => impostor) (some "http:") [impostorAddress] "pinned"
    [.acts 0, .acts 0]).winner 0 (by decide +kernel)
  exact h fun _ _ => rfl

end Mtmux.Browser
