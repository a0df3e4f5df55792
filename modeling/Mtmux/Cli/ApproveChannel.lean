import Mtmux.Cli.AccessConsistent
import Mtmux.Cli.AccessQuestion

/-! What `mtmux approve` shows of a request, and what the server's own terminal shows of it. -/
namespace Mtmux.Cli
open List

structure Question where
  lines : List Line
  question : String
  deriving DecidableEq

def promptShows (req : AccessRequest) : Question := ⟨renderAccessRequest .peer req, promptQuestion req⟩

/-- The request as it is read out of the reply. -/
def received (sas : Option String) (deviceLabel accountEmail : String) : AccessRequest :=
  ⟨⟨sas, deviceLabel, accountEmail, none⟩, none⟩

def approveShows (sas : Option String) (deviceLabel accountEmail : String) : Question :=
  ⟨renderAccessRequest .peer (received sas deviceLabel accountEmail), "  Matches what your browser shows? [y/N] "⟩

theorem received_digits (req : AccessPromptInput) :
    (received req.digits req.deviceLabel req.accountEmail).digits = req.digits := by
  change (req.sas.filter (· ≠ "")).filter (· ≠ "") = req.sas.filter (· ≠ "")
  cases req.sas with
  | none => rfl
  | some sas => by_cases hempty : sas = "" <;> simp [hempty]

/-- The two agree on a request with digits that no returning device makes, and on nothing else. -/
theorem shows_same (req : AccessRequest) : approveShows req.digits req.deviceLabel req.accountEmail = promptShows req ↔
      req.via ≠ some .returning ∧ req.digits.isSome = true := by
  constructor
  · intro hsame
    have hquestion : "  Matches what your browser shows? [y/N] " = promptQuestion req :=
      congrArg Question.question hsame
    unfold promptQuestion at hquestion
    split at hquestion
    · exact absurd hquestion (by decide)
    · rename_i hvia
      split at hquestion
      · rename_i hdigits
        exact ⟨hvia, hdigits⟩
      · exact absurd hquestion (by decide)
  · rintro ⟨hvia, hdigits⟩
    have hquestion : promptQuestion req = "  Matches what your browser shows? [y/N] " := by
      unfold promptQuestion
      rw [if_neg hvia, if_pos hdigits]
    have hlines : renderAccessRequest .peer (received req.digits req.deviceLabel req.accountEmail) =
        renderAccessRequest .peer req := by
      have hno : (received req.digits req.deviceLabel req.accountEmail).via ≠ some .returning := fun h => by cases h
      unfold renderAccessRequest
      rw [if_neg hno, if_neg hvia, received_digits]
      cases hsome : req.digits with
      | none => simp [hsome] at hdigits
      | some sas => rfl
    unfold approveShows promptShows
    rw [hlines, hquestion]

namespace AccessState
variable {s : AccessState} {P : Nat → AccessPromptInput → Prop}

/-- The calls' requests, and that which is offered, are such as `P` knows. -/
structure Traced (P : Nat → AccessPromptInput → Prop) (s : AccessState) : Prop where
  calls : ∀ call c, s.calls.get call = some c → P call c.req
  offer : ∀ p, s.offer = some p → P p.call p.offer

structure Told (P : Nat → AccessPromptInput → Prop) (r : AccessStep) : Prop where
  traced : Traced P r.1
  tells : ∀ poll id sas deviceLabel accountEmail, .reply poll (.request id sas deviceLabel accountEmail) ∈ r.2 →
    ∃ p, r.1.offer = some p ∧ p.id = id ∧ sas = p.offer.digits ∧ deviceLabel = p.offer.deviceLabel ∧
      accountEmail = p.offer.accountEmail

theorem Traced.silent {r : AccessStep} (h : Traced P r.1) (hout : ∀ o ∈ r.2, isRequest o = false) : Told P r := by
  refine ⟨h, fun poll id sas deviceLabel accountEmail hmem => ?_⟩
  have hno := hout _ hmem
  cases hno

theorem Traced.same {t : AccessState} (h : Traced P s) (hcalls : t.calls = s.calls) (hoffer : t.offer = s.offer) :
    Traced P t := ⟨by rw [hcalls]; exact h.calls, by rw [hoffer]; exact h.offer⟩

variable {call : Nat} {c : AccessCall}

theorem Traced.set (h : Traced P s) (hc : P call c.req) : Traced P (s.set call c) := by
  refine ⟨fun i d hd => ?_, h.offer⟩
  rw [get_set_call] at hd
  by_cases hi : i = call
  · rw [if_pos hi] at hd
    cases hd
    exact hi ▸ hc
  · rw [if_neg hi] at hd
    exact h.calls i d hd

theorem Traced.settle (h : Traced P s) (kind : ChannelKind) (call : Nat) (answer : Option Bool) :
    Traced P (s.settle kind call answer).1 := by
  refine ⟨fun i d hd => ?_, h.offer⟩
  rw [get_settle] at hd
  by_cases hi : i = call
  · rw [if_pos hi] at hd
    obtain ⟨c, hc, hcd⟩ := Option.map_eq_some_iff.1 hd
    have hreq : d.req = c.req := by
      rw [← hcd]
      cases kind <;> rfl
    rw [hreq]
    exact h.calls i c (hi ▸ hc)
  · rw [if_neg hi] at hd
    exact h.calls i d hd

theorem Path.told {begun yes : Nat → Prop} {o o' : Option (ChannelKind × Nat)} {r : AccessStep}
    {ms : List (ChannelKind × Nat)} (h : Path begun yes o s r o' ms) (htraced : Traced P s) : Told P r := by
  induction h with
  | aside _ _ offer _ calls silent =>
    exact Traced.silent (htraced.same calls offer) fun o ho => not_request_of_silent (silent o ho)
  | @follows _ _ _ s r f _ _ _ _ stays ihfirst ihnext =>
    have hfirst := ihfirst htraced
    have hnext := ihnext hfirst.traced
    refine ⟨hnext.traced, fun poll id sas deviceLabel accountEmail hmem => ?_⟩
    cases mem_append.1 hmem with
    | inl hmem =>
      obtain ⟨p, hp, hrest⟩ := hfirst.tells poll id sas deviceLabel accountEmail hmem
      cases stays with
      | inl hout => cases hout _ hmem
      | inr hoffer => exact ⟨p, hoffer.trans hp, hrest⟩
    | inr hmem => exact hnext.tells poll id sas deviceLabel accountEmail hmem
  | made => exact Traced.silent htraced (by simp [isRequest])
  | @tells _ s p waiter poll offer =>
    refine ⟨htraced.same rfl rfl, fun poll id sas deviceLabel accountEmail hmem => ?_⟩
    cases mem_singleton.1 hmem
    exact ⟨p, offer, rfl, rfl, rfl, rfl⟩
  | settles _ _ _ _ => exact (htraced.settle _ _ _).silent (by simp [AccessState.settle, isRequest])
  | closesAsk _ silent =>
    exact Traced.silent (htraced.same rfl rfl) fun o ho => not_request_of_silent (silent o ho)
  | closesOffer _ => exact Traced.silent ⟨htraced.calls, fun _ hp => by cases hp⟩ (by simp)
  | opensAsk _ _ _ silent =>
    exact Traced.silent (htraced.same rfl rfl) fun o ho => not_request_of_silent (silent o ho)
  | @opensOffer s _ call park c _ was _ _ _ =>
    refine Traced.silent ⟨htraced.calls, fun p hp => ?_⟩ (by simp)
    cases hp
    exact htraced.calls call c was
  | @skips s call c chain out was _ _ _ silent =>
    exact (htraced.set (c := { c with chain := chain }) (htraced.calls call c was)).silent fun o ho =>
      not_request_of_silent (silent o ho)
  | @lacks s call c was _ _ =>
    exact (htraced.set (c := { c with app := .answered none }) (htraced.calls call c was)).silent (by simp)

theorem hearLocal_req (c : AccessCall) (result : Option AccessPromptResult) : (c.hearLocal result).req = c.req := by
  unfold AccessCall.hearLocal AccessCall.abstain
  dsimp only
  split
  · split <;> rfl
  · rfl
  · split <;> rfl

theorem hearApp_req (c : AccessCall) (answer : Option Bool) : (c.hearApp answer).req = c.req := by
  unfold AccessCall.hearApp AccessCall.abstain
  dsimp only
  split
  · rfl
  · rfl
  · split <;> rfl

theorem Goes.told {yes : Nat → Prop} {e : AccessEvent} {r : AccessStep} (h : Goes yes s e r) (htraced : Traced P s)
    (hstart : ∀ call req deps, e = .start call req deps → P call req) : Told P r := by
  cases h with
  | moves path => exact path.told htraced
  | @starts call req deps _ _ _ path _ => exact path.told (htraced.set (hstart call req deps rfl))
  | @parks call c r was _ path =>
    have hheld := path.told (htraced.set (c := { c with chain := .parking }) (htraced.calls call c was))
    refine ⟨hheld.traced, fun poll id sas deviceLabel accountEmail hmem => ?_⟩
    exact hheld.tells poll id sas deviceLabel accountEmail (by simpa using hmem)
  | @chains _ call c chain out was _ _ _ _ silent =>
    exact (htraced.set (c := { c with chain := chain }) (htraced.calls call c was)).silent fun o ho =>
      not_request_of_silent (silent o ho)
  | @hearsApp call c answer was _ =>
    exact (htraced.set ((hearApp_req c answer).symm ▸ htraced.calls call c was)).silent (by simp)
  | @hearsLocal call c result was _ =>
    exact (htraced.set ((hearLocal_req c result).symm ▸ htraced.calls call c was)).silent (by simp)
  | @concludes call c result _ _ path =>
    have hleft := path.told htraced
    rw [conclude_eq]
    generalize AccessState.andThen (s.withdrawAsk call) (fun s => s.withdrawPark call) = r at hleft ⊢
    have hmarked : Traced P (r.1.onCall call fun c =>
        (r.1.set call { c with concluded := true }, [.resolved call result])).1 ∧
        (r.1.onCall call fun c => (r.1.set call { c with concluded := true }, [.resolved call result])).1.offer =
          r.1.offer ∧ ∀ o ∈ (r.1.onCall call fun c =>
        (r.1.set call { c with concluded := true }, [.resolved call result])).2, isRequest o = false := by
      unfold AccessState.onCall
      split
      · exact ⟨hleft.traced, rfl, by simp⟩
      · rename_i d hd
        exact ⟨hleft.traced.set (hleft.traced.calls call d hd), rfl, by simp [isRequest]⟩
    obtain ⟨hmarked, hoffer, hout⟩ := hmarked
    refine ⟨hmarked, fun poll id sas deviceLabel accountEmail hmem => ?_⟩
    cases mem_append.1 hmem with
    | inl hmem =>
      obtain ⟨p, hp, hrest⟩ := hleft.tells poll id sas deviceLabel accountEmail hmem
      exact ⟨p, hoffer.trans hp, hrest⟩
    | inr hmem => cases hout _ hmem

end AccessState

/-- The call was asked for with this request. -/
def Started (es : List AccessEvent) (call : Nat) (req : AccessPromptInput) : Prop :=
  ∃ deps, .start call req deps ∈ es

theorem requests_traced (authToken : String) (es fs : List AccessEvent) :
    AccessState.Traced (Started (es ++ fs)) ((accessMachine authToken).run es) := by
  induction es using List.reverseRecOn generalizing fs with
  | nil => exact ⟨fun _ _ h => (by cases h), fun _ h => (by cases h)⟩
  | append_singleton es e ih =>
    rw [(accessMachine authToken).run_snoc, append_assoc]
    refine ((goes_run es e).told (ih ([e] ++ fs)) fun call req deps hstart => ?_).traced
    exact ⟨deps, by rw [hstart]; simp⟩

/-- The reply to a poll is the request of a call, and `mtmux approve` shows it as the server's own terminal does if
and only if it has digits and no returning device makes it. -/
theorem approve_asks_the_same (authToken : String) (transport : Nat → Option AccessTransport) (es : List AccessEvent)
    (x : Machine.Entry AccessState AccessEvent AccessOutput) (hx : x ∈ (accessMachine authToken).trace es)
    (poll id : Nat) (sas : Option String) (deviceLabel accountEmail : String)
    (hreply : .reply poll (.request id sas deviceLabel accountEmail) ∈ x.out) :
    ∃ p, x.post.offer = some p ∧ p.id = id ∧ Started es p.call p.offer ∧
      (approveShows sas deviceLabel accountEmail = promptShows ⟨p.offer, transport p.call⟩ ↔
        p.offer.via ≠ some .returning ∧ p.offer.digits.isSome = true) := by
  obtain ⟨before, e, after, hes, rfl⟩ := ((accessMachine authToken).mem_trace es x).1 hx
  have htraced := requests_traced authToken before (e :: after)
  rw [← hes] at htraced
  have htold := (goes_run before e).told htraced fun call req deps hstart =>
    ⟨deps, by rw [hes, hstart]; simp⟩
  obtain ⟨p, hp, hid, hsas, hlabel, haccount⟩ := htold.tells poll id sas deviceLabel accountEmail hreply
  refine ⟨p, hp, hid, htold.traced.offer p hp, ?_⟩
  rw [hsas, hlabel, haccount]
  exact shows_same ⟨p.offer, transport p.call⟩

def localPeer : ControlPeer := ⟨"127.0.0.1", some "token"⟩

def returningDevice : AccessPromptInput := ⟨none, "Pixel 8", "", some .returning⟩

def dashboardRequest : AccessPromptInput := ⟨some "482173", "Firefox on Mac", "you@example.org", some .request⟩

/-- Somebody has run `mtmux approve`, and a device asks. -/
def asksWindow (req : AccessPromptInput) : List AccessEvent :=
  [.wait 1 localPeer "window" none, .start 1 req ⟨.absent, .present, .absent⟩]

theorem dashboard_request_asked_the_same : approveShows (some "482173") "Firefox on Mac" "you@example.org" =
    promptShows ⟨dashboardRequest, none⟩ := by
  have htrace : (accessMachine "token").entry ((accessMachine "token").run [.wait 1 localPeer "window" none])
      (.start 1 dashboardRequest ⟨.absent, .present, .absent⟩) ∈
        (accessMachine "token").trace (asksWindow dashboardRequest) :=
    ((accessMachine "token").mem_trace _ _).2 ⟨[.wait 1 localPeer "window" none], _, [], rfl, rfl⟩
  have hoffer : ((accessMachine "token").run (asksWindow dashboardRequest)).offer =
      some ⟨1, 1, false, dashboardRequest⟩ := by decide +kernel
  obtain ⟨p, hp, -, -, hsame⟩ := approve_asks_the_same "token" (fun _ => none) _ _ htrace 1 1 (some "482173")
    "Firefox on Mac" "you@example.org" (by decide +kernel)
  have hp : ((accessMachine "token").run (asksWindow dashboardRequest)).offer = some p := hp
  rw [hoffer] at hp
  cases hp
  exact hsame.2 (by decide)

/-- A device that comes back is said to have entered the code, and digits are asked about that nobody shows. -/
theorem returning_device_entered_the_code :
    .reply 1 (.request 1 none "Pixel 8" "") ∈ (accessMachine "token").outputs (asksWindow returningDevice) ∧
    approveShows none "Pixel 8" "" =
      ⟨renderCodePairing .peer returningDevice, "  Matches what your browser shows? [y/N] "⟩ ∧
    approveShows none "Pixel 8" "" ≠ promptShows ⟨returningDevice, some .tunnel⟩ := by
  refine ⟨by decide +kernel, by decide +kernel, by decide +kernel⟩

end Mtmux.Cli
