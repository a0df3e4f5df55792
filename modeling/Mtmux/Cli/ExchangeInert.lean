import Mtmux.Cli.ExchangeSafety
import Mtmux.Cli.PairingClient

/-! When a settled run and a peer that was ruled out stay quiet. -/
namespace Mtmux.Cli
open Protocol Crypto OrderedMap Machine List

namespace Exchange
variable {opts : ExchangeOptions}

def waits (x : Exchange) (peer : String) : Bool := x.confirms.values.any fun c => c.peer = peer

/-- The peers ruled out in a run. -/
def retiredIn (opts : ExchangeOptions) (es : List ExchangeEvent) : List String :=
  ((runExchange opts).trace es).filterMap fun x => retires opts x.pre x.event

/-- The peers `admit` was called for in a run. -/
def askedIn (opts : ExchangeOptions) (es : List ExchangeEvent) : List String :=
  ((runExchange opts).outputs es).filterMap ExchangeOut.asksFor

/-- A settled run sends nothing and asks nobody, nobody is asked about a peer twice, and no
descriptor leaves for a peer that was ruled out. -/
structure Inert (opts : ExchangeOptions) (es : List ExchangeEvent) : Prop where
  settled : ∀ x ∈ (runExchange opts).trace es, x.pre.settled = true →
    ∀ o ∈ x.out, o.isSend = false ∧ o.asksFor = none
  asked : (askedIn opts es).Nodup
  retired : ∀ before e after, es = before ++ e :: after → ∀ peer ∈ retiredIn opts before,
    ∀ blob, .send (.toPeer peer (.establish blob)) ∉
      ((runExchange opts).step ((runExchange opts).run before) e).2

/-- A share that is answered, or a tag that is, delivered to a settled run. -/
def late (opts : ExchangeOptions) (x : Exchange) : ExchangeEvent → Bool
  | .message (.peerShare peer shareHex ad sidHex) =>
    x.settled && match hexToBytes shareHex, hexToBytes sidHex with
      | some share, some sid =>
        match x.derivedFor opts ⟨peer, share, ad, sid⟩ with
        | some (.reject _) => true
        | some (.attempt _) => opts.side = .mailbox
        | none => false
      | _, _ => false
  | .message (.peerConfirm peer tagHex) =>
    x.settled && match (hexToBytes tagHex).bind (x.verifiedFor opts peer) with
      | some verifies => !verifies || opts.admits || opts.side = .claim
      | none => false
  | _ => false

/-- While a confirmation of a peer is suspended, a failure names it, or another tag arrives
that does not verify or would ask again. -/
def meddles (opts : ExchangeOptions) (x : Exchange) : ExchangeEvent → Bool
  | .message (.failed (some peer) _) => x.waits peer
  | .message (.peerConfirm peer tagHex) =>
    x.waits peer && match (hexToBytes tagHex).bind (x.verifiedFor opts peer) with
      | some verifies => !verifies || opts.admits
      | none => false
  | _ => false

/-- Nothing that is answered comes after the end, nothing comes between a tag and what
follows from it, and no peer comes back. -/
structure Orderly (opts : ExchangeOptions) (es : List ExchangeEvent) : Prop where
  onTime : ∀ x ∈ (runExchange opts).trace es, late opts x.pre x.event = false
  undisturbed : ∀ x ∈ (runExchange opts).trace es, meddles opts x.pre x.event = false
  final : ∀ before e after, es = before ++ e :: after → ∀ peer ∈ retiredIn opts before,
    takes opts ((runExchange opts).run before) e ≠ some peer

theorem retiredIn_snoc (es : List ExchangeEvent) (e : ExchangeEvent) : retiredIn opts (es ++ [e]) =
      retiredIn opts es ++ (retires opts ((runExchange opts).run es) e).toList := by
  rw [retiredIn, trace_snoc, filterMap_append]
  cases hretires : retires opts ((runExchange opts).run es) e with
  | none | some _ => simp [retiredIn, Machine.entry, hretires]

theorem askedIn_snoc (es : List ExchangeEvent) (e : ExchangeEvent) : askedIn opts (es ++ [e]) = askedIn opts es ++
      (((runExchange opts).run es).step opts e).2.filterMap ExchangeOut.asksFor := by
  rw [askedIn, outputs_snoc, filterMap_append]
  rfl

variable {x : Exchange} {peer : String}

theorem waits_iff : x.waits peer = true ↔ ∃ call c, x.confirms.get call = some c ∧ c.peer = peer := by
  simp only [waits, OrderedMap.values, any_map, any_eq_true, Function.comp_apply,
    decide_eq_true_eq]
  constructor
  · intro h
    obtain ⟨⟨call, c⟩, hmem, hpeer⟩ := h
    exact ⟨call, c, (get_eq_some _ _ _).2 hmem, hpeer⟩
  · intro h
    obtain ⟨call, c, hget, hpeer⟩ := h
    exact ⟨(call, c), (get_eq_some _ _ _).1 hget, hpeer⟩

theorem peer_ne_of_waits (h : x.waits peer = false) {call : Nat}
    {c : Confirm} (hc : x.confirms.get call = some c) : c.peer ≠ peer := by
  intro hpeer
  have hwaits : x.waits peer = true := waits_iff.2 ⟨call, c, hc, hpeer⟩
  rw [h] at hwaits
  cases hwaits

/-- What an orderly run keeps: who was ruled out is in no table, who is suspended is in the
other one too, and a peer that was asked about is suspended or gone. -/
structure Calm (opts : ExchangeOptions) (x : Exchange) (retired asked : List String) : Prop where
  gone : ∀ peer ∈ retired, x.attempts.get peer = none
  held : ∀ call c, x.confirms.get call = some c → x.attempts.get c.peer ≠ none
  asked : ∀ peer ∈ asked, x.settled = true ∨ peer ∈ retired ∨
    ∃ call c, x.confirms.get call = some c ∧ c.peer = peer
  single : opts.admits = true → ∀ call call' c c', x.confirms.get call = some c →
    x.confirms.get call' = some c' → c.peer = c'.peer → call = call'
  gated : opts.admits = false → ∀ call c, x.confirms.get call = some c → c.stage = .sealing
  fresh : ∀ call c, x.confirms.get call = some c → call < x.calls

theorem Calm.same {x y : Exchange} {retired asked : List String} (h : Calm opts x retired asked)
    (attempts : y.attempts = x.attempts) (confirms : y.confirms = x.confirms)
    (calls : y.calls = x.calls) (settled : x.settled = true → y.settled = true) : Calm opts y retired asked := by
  refine ⟨?_, ?_, fun peer hpeer => ?_, ?_, ?_, ?_⟩
  · rw [attempts]; exact h.gone
  · rw [attempts, confirms]; exact h.held
  · rw [confirms]
    exact (h.asked peer hpeer).imp settled id
  · rw [confirms]; exact h.single
  · rw [confirms]; exact h.gated
  · rw [confirms, calls]; exact h.fresh

variable {asked retired : List String}

theorem Calm.dropped {y : Exchange} {call : Nat} (h : Calm opts x retired asked) (attempts : y.attempts = x.attempts)
    (confirms : y.confirms = x.confirms.delete call) (calls : y.calls = x.calls)
    (settled : y.settled = true) : Calm opts y retired asked := by
  have hget (k : Nat) (c : Confirm) (hc : y.confirms.get k = some c) :
      x.confirms.get k = some c := by
    rw [confirms] at hc
    exact get_of_get_delete hc
  refine ⟨?_, fun k c hc => ?_, fun peer hpeer => Or.inl settled, fun ha k k' c c' hc hc' => ?_,
    fun ha k c hc => h.gated ha k c (hget k c hc), fun k c hc => ?_⟩
  · rw [attempts]; exact h.gone
  · rw [attempts]; exact h.held k c (hget k c hc)
  · exact h.single ha k k' c c' (hget k c hc) (hget k' c' hc')
  · rw [calls]; exact h.fresh k c (hget k c hc)

theorem Calm.ruledOut {y : Exchange} (h : Calm opts x retired asked) (attempts : y.attempts = x.attempts.delete peer)
    (back : ∀ k c, y.confirms.get k = some c → x.confirms.get k = some c ∧ c.peer ≠ peer)
    (forth : ∀ k c, x.confirms.get k = some c → c.peer ≠ peer → y.confirms.get k = some c)
    (calls : y.calls = x.calls) (settled : x.settled = true → y.settled = true) :
    Calm opts y (retired ++ [peer]) asked := by
  refine ⟨fun p hp => ?_, fun k c hc => ?_, fun p hp => ?_, fun ha k k' c c' hc hc' => ?_,
    fun ha k c hc => h.gated ha k c (back k c hc).1, fun k c hc => ?_⟩
  · rw [attempts, get_delete]
    split
    · rfl
    · rename_i hne
      cases mem_append.1 hp with
      | inl hp => exact h.gone p hp
      | inr hp => exact absurd (mem_singleton.1 hp) hne
  · obtain ⟨hx, hne⟩ := back k c hc
    rw [attempts, get_delete, if_neg hne]
    exact h.held k c hx
  · cases h.asked p hp with
    | inl hs => exact Or.inl (settled hs)
    | inr hrest =>
      cases hrest with
      | inl hgone => exact Or.inr (Or.inl (mem_append_left _ hgone))
      | inr hwaits =>
        obtain ⟨k, c, hc, hpeer⟩ := hwaits
        cases decEq c.peer peer with
        | isTrue he =>
          rw [he] at hpeer
          exact Or.inr (Or.inl (mem_append_right _ (mem_singleton.2 hpeer.symm)))
        | isFalse hne => exact Or.inr (Or.inr ⟨k, c, forth k c hc hne, hpeer⟩)
  · exact h.single ha k k' c c' (back k c hc).1 (back k' c' hc').1
  · rw [calls]; exact h.fresh k c (back k c hc).1

variable {attempt : Attempt}

theorem Calm.taken (h : Calm opts x retired asked) (hnew : peer ∉ retired) :
    Calm opts { x.counted with attempts := x.attempts.set peer attempt } retired asked := by
  refine { h with gone := fun p hp => ?_, held := fun k c hc => ?_ }
  · have hne : p ≠ peer := fun he => hnew (he ▸ hp)
    simp only [get_set, if_neg hne]
    exact h.gone p hp
  · simp only [get_set]
    split
    · simp
    · exact h.held k c hc

theorem Calm.verified (h : Calm opts x retired asked)
    (known : x.attempts.get peer = some attempt)
    (alone : opts.admits = true → x.waits peer = false) {more : List String}
    (hmore : ∀ p ∈ more, p = peer) :
    Calm opts { x with
      confirms := x.confirms.set x.calls
        ⟨peer, attempt, if opts.admits then .admitting else .sealing⟩
      calls := x.calls + 1 } retired (asked ++ more) := by
  have hold (k : Nat) (c : Confirm) (hc : x.confirms.get k = some c) : k ≠ x.calls := by
    have hlt := h.fresh k c hc
    omega
  refine ⟨h.gone, fun k c hc => ?_, fun p hp => ?_, fun ha k k' c c' hc hc' he => ?_,
    fun ha k c hc => ?_, fun k c hc => ?_⟩
  · simp only [get_set] at hc
    split at hc
    · cases hc
      simp [known]
    · exact h.held k c hc
  · cases mem_append.1 hp with
    | inl hp =>
      refine (h.asked p hp).imp id (Or.imp id fun hwaits => ?_)
      obtain ⟨k, c, hc, hpeer⟩ := hwaits
      refine ⟨k, c, ?_, hpeer⟩
      simp only [get_set, if_neg (hold k c hc)]
      exact hc
    | inr hp =>
      rw [hmore p hp]
      refine Or.inr (Or.inr ⟨x.calls,
        ⟨peer, attempt, if opts.admits then .admitting else .sealing⟩, ?_, rfl⟩)
      simp only [get_set, if_pos]
  · have hother (j : Nat) (d : Confirm) (hd : x.confirms.get j = some d) : d.peer ≠ peer :=
      peer_ne_of_waits (alone ha) hd
    simp only [get_set] at hc hc'
    split at hc
    · rename_i hk
      cases hc
      split at hc'
      · rename_i hk'
        rw [hk, hk']
      · exact absurd he.symm (hother k' c' hc')
    · split at hc'
      · cases hc'
        exact absurd he (hother k c hc)
      · exact h.single ha k k' c c' hc hc' he
  · simp only [get_set] at hc
    split at hc
    · cases hc
      rw [ha]
      rfl
    · exact h.gated ha k c hc
  · simp only [get_set] at hc
    split at hc
    · simp only
      omega
    · have hlt := h.fresh k c hc
      simp only
      omega

theorem Calm.allowed {call : Nat}
    (h : Calm opts x retired asked)
    (was : x.confirms.get call = some ⟨peer, attempt, .admitting⟩) :
    Calm opts { x with confirms := x.confirms.set call ⟨peer, attempt, .sealing⟩ } retired
      asked := by
  -- The entry keeps its peer, so every lookup finds what it found before, up to the stage.
  have hget (k : Nat) (c : Confirm)
      (hc : (x.confirms.set call ⟨peer, attempt, .sealing⟩).get k = some c) :
      ∃ c', x.confirms.get k = some c' ∧ c'.peer = c.peer := by
    rw [get_set] at hc
    split at hc
    · rename_i hk
      cases hc
      rw [hk]
      exact ⟨_, was, rfl⟩
    · exact ⟨c, hc, rfl⟩
  refine ⟨h.gone, fun k c hc => ?_, fun p hp => ?_, fun ha k k' c c' hc hc' he => ?_,
    fun ha k c hc => ?_, fun k c hc => ?_⟩
  · obtain ⟨c', hc', hpeer⟩ := hget k c hc
    rw [← hpeer]
    exact h.held k c' hc'
  · refine (h.asked p hp).imp id (Or.imp id fun hwaits => ?_)
    obtain ⟨k, c, hc, hpeer⟩ := hwaits
    cases decEq k call with
    | isTrue hk =>
      rw [hk, was] at hc
      cases hc
      exact ⟨call, ⟨peer, attempt, .sealing⟩, by simp, hpeer⟩
    | isFalse hk => exact ⟨k, c, by simpa [hk] using hc, hpeer⟩
  · obtain ⟨d, hd, hpeer⟩ := hget k c hc
    obtain ⟨d', hd', hpeer'⟩ := hget k' c' hc'
    exact h.single ha k k' d d' hd hd' (by rw [hpeer, hpeer', he])
  · cases h.gated ha call _ was
  · obtain ⟨c', hc', -⟩ := hget k c hc
    exact h.fresh k c' hc'

theorem asks_none {out : List ExchangeOut} (h : ∀ o ∈ out, o.isPlain = true) : out.filterMap ExchangeOut.asksFor = [] :=
  filterMap_eq_nil_iff.2 fun o ho => (plain_iff.1 (h o ho)).2.2.1

theorem Calm.step (h : Calm opts x retired asked)
    {e : ExchangeEvent} (honTime : late opts x e = false) (hundisturbed : meddles opts x e = false)
    (hfinal : ∀ peer ∈ retired, takes opts x e ≠ some peer) :
    Calm opts (x.step opts e).1 (retired ++ (retires opts x e).toList)
        (asked ++ (x.step opts e).2.filterMap ExchangeOut.asksFor) ∧
      (asked.Nodup → (asked ++ (x.step opts e).2.filterMap ExchangeOut.asksFor).Nodup) := by
  have heffect : Effect opts x e (x.step opts e) := step_effect x e
  generalize x.step opts e = next at heffect ⊢
  -- Every case but an accepted tag asks nobody.
  have hquiet (hplain : ∀ o ∈ next.2, o.isPlain = true) {gone : List String}
      (hcalm : Calm opts next.1 (retired ++ gone) asked) :
      Calm opts next.1 (retired ++ gone) (asked ++ next.2.filterMap ExchangeOut.asksFor) ∧
        (asked.Nodup → (asked ++ next.2.filterMap ExchangeOut.asksFor).Nodup) := by
    rw [asks_none hplain, append_nil]
    exact ⟨hcalm, id⟩
  cases heffect with
  | idle spares takesNone hidle =>
    rw [spares]
    refine hquiet (fun o ho => (hidle.plain o ho).1) ?_
    rw [Option.toList_none, append_nil]
    exact h.same hidle.attempts hidle.confirms hidle.calls hidle.settled
  | @failed peer reason _ unsent hruled =>
    refine hquiet hruled.plain (h.ruledOut hruled.attempts (fun k c hc => ?_) (fun k c hc _ => ?_)
      hruled.calls hruled.settled)
    · rw [hruled.confirms] at hc
      exact ⟨hc, peer_ne_of_waits hundisturbed hc⟩
    · rw [hruled.confirms]
      exact hc
  | @rejected peer shareHex ad sidHex share sid reason _ shareOk sidOk derives hruled =>
    have hretires : retires opts x (.message (.peerShare peer shareHex ad sidHex)) = some peer := by
      simp only [retires, shareOk, sidOk, derives]
    rw [hretires]
    have hfresh := (derivedFor_some derives).1
    refine hquiet hruled.plain (h.ruledOut hruled.attempts (fun k c hc => ?_) (fun k c hc _ => ?_)
      hruled.calls hruled.settled)
    · rw [hruled.confirms] at hc
      refine ⟨hc, fun hpeer => h.held k c hc ?_⟩
      rw [hpeer]
      exact hfresh
    · rw [hruled.confirms]
      exact hc
  | @taken peer shareHex ad sidHex share sid attempt shareOk sidOk derives =>
    have hretires : retires opts x (.message (.peerShare peer shareHex ad sidHex)) = none := by
      simp only [retires, shareOk, sidOk, derives]
    have htakes : takes opts x (.message (.peerShare peer shareHex ad sidHex)) = some peer := by
      simp only [takes, shareOk, sidOk, derives]
    have hasks : (greeting opts attempt).filterMap ExchangeOut.asksFor = [] := by
      refine filterMap_eq_nil_iff.2 fun o ho => ?_
      cases greeting_out ho with
      | inl ho => rw [ho]; rfl
      | inr ho => rw [ho]; rfl
    rw [hretires, Option.toList_none, append_nil, hasks, append_nil]
    exact ⟨h.taken fun hmem => hfinal peer hmem htakes, id⟩
  | @mistaken peer tagHex tag _ tagOk fails hruled =>
    have hretires : retires opts x (.message (.peerConfirm peer tagHex)) = some peer := by
      simp only [retires, tagOk, Option.bind_some, fails]
    have halone : x.waits peer = false := by
      simpa [meddles, tagOk, fails] using hundisturbed
    rw [hretires]
    refine hquiet hruled.plain (h.ruledOut hruled.attempts (fun k c hc => ?_) (fun k c hc _ => ?_)
      hruled.calls hruled.settled)
    · rw [hruled.confirms] at hc
      exact ⟨hc, peer_ne_of_waits halone hc⟩
    · rw [hruled.confirms]
      exact hc
  | @verified peer tagHex tag attempt tagOk known verifies =>
    have hverified : x.verifiedFor opts peer tag = some true := by
      rw [verifiedFor, known, Option.map_some, verifies]
    have hretires : retires opts x (.message (.peerConfirm peer tagHex)) = none := by
      simp only [retires, tagOk, Option.bind_some, hverified]
    have halone (ha : opts.admits = true) : x.waits peer = false := by
      simpa [meddles, tagOk, hverified, ha] using hundisturbed
    have hunsettled (ha : opts.admits = true) : x.settled = false := by
      simpa [late, tagOk, hverified, ha] using honTime
    have hasks : (ownAnswer opts attempt ++ [if opts.admits then
        ExchangeOut.ask x.calls peer (peerLabel attempt)
          else .sealFor x.calls attempt.keys]).filterMap ExchangeOut.asksFor =
        if opts.admits then [peer] else [] := by
      have hnone : (ownAnswer opts attempt).filterMap ExchangeOut.asksFor = [] := by
        refine filterMap_eq_nil_iff.2 fun o ho => ?_
        rw [(ownAnswer_out ho).1]
        rfl
      rw [filterMap_append, hnone, nil_append]
      split
      · rfl
      · rfl
    rw [hretires, Option.toList_none, append_nil, hasks]
    refine ⟨h.verified known halone fun p hp => ?_, fun hnodup => ?_⟩
    · split at hp
      · exact mem_singleton.1 hp
      · cases hp
    · split
      · rename_i ha
        refine nodup_append.2 ⟨hnodup, nodup_singleton _, fun p hp q hq he => ?_⟩
        rw [mem_singleton.1 hq] at he
        rw [he] at hp
        cases h.asked peer hp with
        | inl hsettled =>
          rw [hunsettled ha] at hsettled
          cases hsettled
        | inr hrest =>
          cases hrest with
          | inl hgone =>
            rw [h.gone peer hgone] at known
            cases known
          | inr hwaits =>
            obtain ⟨k, c, hc, hpeer⟩ := hwaits
            exact peer_ne_of_waits (halone ha) hc hpeer
      · rw [append_nil]
        exact hnodup
  | @refused call answer peer attempt _ unsettled was no hruled =>
    have hretires : retires opts x (.admitted call answer) = some peer := by
      simp only [retires, was]
      exact if_neg (by simp [unsettled, no])
    have hadmits : opts.admits = true := by
      cases ha : opts.admits with
      | true => rfl
      | false => cases h.gated ha call _ was
    rw [hretires]
    refine hquiet hruled.plain (h.ruledOut hruled.attempts (fun k c hc => ?_)
      (fun k c hc hne => ?_) hruled.calls hruled.settled)
    · rw [hruled.confirms] at hc
      have hx := get_of_get_delete hc
      refine ⟨hx, fun hpeer => ?_⟩
      have hcall := h.single hadmits k call c _ hx was hpeer
      rw [hcall, get_delete, if_pos rfl] at hc
      cases hc
    · rw [hruled.confirms, get_delete, if_neg]
      · exact hc
      · intro hk
        rw [hk, was] at hc
        cases hc
        exact hne rfl
  | @allowed call peer attempt unsettled was =>
    have hretires : retires opts x (.admitted call (some true)) = none := by
      simp [retires, was]
    refine hquiet (fun o ho => ?_) ?_
    · rw [mem_singleton.1 ho]
      rfl
    · rw [hretires, Option.toList_none, append_nil]
      exact h.allowed was
  | dropped spares takesNone settles hidle =>
    rw [spares]
    refine hquiet (fun o ho => (hidle.plain o ho).1) ?_
    rw [Option.toList_none, append_nil]
    exact h.dropped hidle.attempts hidle.confirms hidle.calls settles
  | @established call peer attempt blob unsettled sealing =>
    have hasks : asked ++ List.filterMap ExchangeOut.asksFor
        [.send (.toPeer peer (.establish (bytesToBase64Url blob))), .close,
          .resolve ⟨attempt.keys, peerLabel attempt⟩] = asked := append_nil asked
    have hretires : retires opts x (.sealed call (.ok blob)) = none := rfl
    rw [hasks, hretires, Option.toList_none, append_nil]
    exact ⟨h.dropped rfl rfl rfl rfl, id⟩

/-- What a settled run says when nothing that is answered comes. -/
theorem step_silent (hsettled : x.settled = true) {e : ExchangeEvent} (honTime : late opts x e = false) :
    ∀ o ∈ (x.step opts e).2, o.isSend = false ∧ o.asksFor = none := by
  have hplain {out : List ExchangeOut} (h : ∀ o ∈ out, o.isPlain = true ∧ o.isSend = false) :
      ∀ o ∈ out, o.isSend = false ∧ o.asksFor = none := fun o ho =>
    ⟨(h o ho).2, (plain_iff.1 (h o ho).1).2.2.1⟩
  have hcontra (hunsettled : x.settled = false) : False := by
    rw [hsettled] at hunsettled
    cases hunsettled
  have heffect : Effect opts x e (x.step opts e) := step_effect x e
  generalize x.step opts e = next at heffect ⊢
  cases heffect with
  | idle spares takesNone hidle => exact hplain hidle.plain
  | failed unsent hruled => exact hplain fun o ho => ⟨hruled.plain o ho, unsent o ho⟩
  | rejected shareOk sidOk derives hruled => simp [late, hsettled, shareOk, sidOk, derives] at honTime
  | taken shareOk sidOk derives =>
    have hside : opts.side ≠ .mailbox := by
      simpa [late, hsettled, shareOk, sidOk, derives] using honTime
    intro o ho
    unfold greeting at ho
    split at ho
    · rename_i hmailbox
      exact absurd hmailbox hside
    · cases ho
  | mistaken tagOk fails hruled => simp [late, hsettled, tagOk, fails] at honTime
  | verified tagOk known verifies =>
    have hside : opts.admits = false ∧ opts.side ≠ .claim := by
      simpa [late, hsettled, tagOk, verifiedFor, known, verifies] using honTime
    intro o ho
    cases mem_append.1 ho with
    | inl ho => exact absurd (ownAnswer_out ho).2 hside.2
    | inr ho =>
      rw [mem_singleton.1 ho, if_neg (by simp [hside.1])]
      exact ⟨rfl, rfl⟩
  | refused unsettled was no hruled => exact (hcontra unsettled).elim
  | allowed unsettled was => exact (hcontra unsettled).elim
  | dropped spares takesNone settles hidle => exact hplain hidle.plain
  | established unsettled sealing => exact (hcontra unsettled).elim

variable {es : List ExchangeEvent}

theorem Orderly.begins {fs : List ExchangeEvent} (h : Orderly opts (es ++ fs)) : Orderly opts es := by
  refine ⟨forall_trace_before h.onTime rfl, forall_trace_before h.undisturbed rfl, ?_⟩
  intro before e after hes
  exact h.final before e (after ++ fs) (by simp [hes])

theorem run_calm (h : Orderly opts es) : Calm opts ((runExchange opts).run es) (retiredIn opts es) (askedIn opts es) ∧
      (askedIn opts es).Nodup := by
  induction es using List.reverseRecOn with
  | nil =>
    refine ⟨⟨fun p hp => ?_, fun k c hc => ?_, fun p hp => ?_, fun _ k k' c c' hc => ?_,
      fun _ k c hc => ?_, fun k c hc => ?_⟩, nodup_nil⟩
    · cases hp
    · cases hc
    · cases hp
    · cases hc
    · cases hc
    · cases hc
  | append_singleton es e ih =>
    obtain ⟨hcalm, hnodup⟩ := ih h.begins
    have hlast : (runExchange opts).entry ((runExchange opts).run es) e ∈
        (runExchange opts).trace (es ++ [e]) := by
      rw [trace_snoc]
      exact mem_append_right _ (mem_singleton.2 rfl)
    have hstep := hcalm.step (h.onTime _ hlast) (h.undisturbed _ hlast)
      (h.final es e [] rfl)
    rw [retiredIn_snoc, askedIn_snoc, run_snoc]
    exact ⟨hstep.1, hstep.2 hnodup⟩

/-- An orderly run is inert once settled, asks about each peer once at most, and lets no peer
in that was ruled out. -/
theorem inert_of_orderly (opts : ExchangeOptions) (es : List ExchangeEvent) (h : Orderly opts es) : Inert opts es := by
  refine ⟨fun x hx hsettled => ?_, (run_calm h).2, fun before e after hes peer hpeer blob ho => ?_⟩
  · obtain ⟨before, e, after, hes, rfl⟩ := ((runExchange opts).mem_trace es x).1 hx
    exact step_silent hsettled (h.onTime _ hx)
  · have hbefore : Orderly opts before := by
      rw [hes] at h
      exact h.begins
    have hcalm := (run_calm hbefore).1
    have hstep : (runExchange opts).step ((runExchange opts).run before) e =
      ((runExchange opts).run before).step opts e := rfl
    rw [hstep] at ho
    cases @step_lets_in opts ((runExchange opts).run before) e with
    | inl hnone => cases (hnone _ ho).1
    | inr hone =>
      obtain ⟨call, peer', attempt, blob', -, -, hsealing, hout⟩ := hone
      rw [hout] at ho
      simp only [mem_cons, not_mem_nil, or_false, reduceCtorEq, ExchangeOut.send.injEq,
        PairingClientMessage.toPeer.injEq] at ho
      exact hcalm.held call _ hsealing (hcalm.gone _ (ho.1 ▸ hpeer))

/-- A browser claims the code, the owner says yes, and the descriptor leaves. -/
def hostedOnce : List ExchangeEvent :=
  [sampleShare, sampleConfirm 81, .admitted 0 (some true), .sealed 0 (.ok [1]), .socketClose]

theorem inert_of_orderly_hosted : Inert sampleHost hostedOnce := by
  refine inert_of_orderly sampleHost _ ⟨by decide +kernel, by decide +kernel, ?_⟩
  intro before e after hes peer hpeer
  have hnone : retiredIn sampleHost hostedOnce = [] := by decide +kernel
  have hsub := ((runExchange sampleHost).trace_begins before (e :: after)).subset
  rw [← hes] at hsub
  obtain ⟨x, hx, hretires⟩ := mem_filterMap.1 hpeer
  have hmem : peer ∈ retiredIn sampleHost hostedOnce :=
    mem_filterMap.2 ⟨x, hsub hx, hretires⟩
  rw [hnone] at hmem
  cases hmem

/-- The tag again while the gate is asked, and the tag after the run timed out. -/
theorem asked_again_and_late : ¬ Inert sampleHost [sampleShare, sampleConfirm 81, sampleConfirm 81] ∧
      ¬ Inert sampleHost [sampleShare, .timeout, sampleConfirm 81] ∧
      ¬ Inert sampleClaim [sampleShare, sampleConfirm 125,
        .message (.failed (some "peer-1") .peerGone), .sealed 0 (.ok [1])] := by
  refine ⟨fun h => ?_, fun h => ?_, fun h => ?_⟩
  · have htwice : ¬ (askedIn sampleHost [sampleShare, sampleConfirm 81, sampleConfirm 81]).Nodup := by
      decide +kernel
    exact htwice h.asked
  · have hsettled := h.settled ((runExchange sampleHost).entry
      ((runExchange sampleHost).run [sampleShare, .timeout]) (sampleConfirm 81))
      (((runExchange sampleHost).mem_trace _ _).2 ⟨[sampleShare, .timeout], sampleConfirm 81, [],
        rfl, rfl⟩) (by decide +kernel)
    have hask : .ask 0 "peer-1" "phone" ∈ ((runExchange sampleHost).entry
        ((runExchange sampleHost).run [sampleShare, .timeout]) (sampleConfirm 81)).out := by
      decide +kernel
    cases (hsettled _ hask).2
  · have hretired := h.retired [sampleShare, sampleConfirm 125,
      .message (.failed (some "peer-1") .peerGone)] (.sealed 0 (.ok [1])) [] rfl "peer-1"
      (by decide +kernel) (bytesToBase64Url [1])
    exact hretired (by decide +kernel)

end Exchange
end Mtmux.Cli
