import Mtmux.Base.Machine
import Mtmux.Broker.PairingInvariant
import Mtmux.Broker.LinkInvariant

/-! The broker as one machine: any interleaving of the two halves' events, the
sweeper, and a clock that only moves forward. -/
namespace Mtmux.Broker
open Protocol List

structure BrokerConfig where
  pairing : PairingConfig
  link : LinkConfig
  ttlMs : Nat
  mailboxLimit : Nat
  claimLimit : Nat
  slotClaimLimit : Nat
  globalClaimLimit : Nat

structure System where
  now : Nat
  pairing : Pairing
  link : Link

inductive BrokerEvent where
  | tick (ms : Nat)
  | pairing (event : PairingEvent)
  | link (event : LinkEvent)
  | sweep

inductive BrokerOut where
  | pairing (out : PairingOut)
  | link (out : LinkOut)
  deriving DecidableEq

namespace System
variable (cfg : BrokerConfig)

def create : System where
  now := 0
  pairing :=
    { store := MailboxStore.create cfg.ttlMs
      claimPayloads := OrderedMap.empty
      mailboxLimiter := RateLimiter.create cfg.mailboxLimit
      claimLimiter := RateLimiter.create cfg.claimLimit
      slotClaimLimiter := RateLimiter.create cfg.slotClaimLimit
      globalClaimLimiter := RateLimiter.create cfg.globalClaimLimit
      sockets := OrderedMap.empty
      nextSocket := 0
      drawn := 0 }
  link := Link.create

def sweepAll (b : System) : System × List BrokerOut :=
  let pairing := b.pairing.sweep b.now
  let (link, out) := (b.link.sweepRequests b.now).sweepTunnels b.now
  ({ b with pairing := pairing, link := link }, out.map .link)

def step (b : System) : BrokerEvent → System × List BrokerOut
  | .tick ms => ({ b with now := b.now + ms }, [])
  | .pairing event =>
    let (pairing, out) := b.pairing.step cfg.pairing b.now event
    ({ b with pairing := pairing }, out.map .pairing)
  | .link event =>
    let (link, out) := b.link.step cfg.link b.now event
    ({ b with link := link }, out.map .link)
  | .sweep => sweepAll b

def machine : Machine System BrokerEvent BrokerOut := ⟨create cfg, step cfg⟩

variable {cfg}

theorem mem_step_pairing {b : System} {e : BrokerEvent} {o : PairingOut}
    (h : .pairing o ∈ (step cfg b e).2) : ∃ event, e = .pairing event ∧
      o ∈ (b.pairing.step cfg.pairing b.now event).2 := by
  cases e with
  | tick ms => cases h
  | pairing event => exact ⟨event, rfl, by simpa [step] using h⟩
  | link event => simp [step] at h
  | sweep => simp [step, sweepAll] at h

theorem mem_step_link {b : System} {e : BrokerEvent} {o : LinkOut} (h : .link o ∈ (step cfg b e).2) :
    (∃ event, e = .link event ∧ o ∈ (b.link.step cfg.link b.now event).2) ∨
      e = .sweep ∧ o ∈ ((b.link.sweepRequests b.now).sweepTunnels b.now).2 := by
  cases e with
  | tick ms => cases h
  | pairing event => simp [step] at h
  | link event => exact Or.inl ⟨event, rfl, by simpa [step] using h⟩
  | sweep => exact Or.inr ⟨rfl, by simpa [step, sweepAll] using h⟩

theorem step_pairing (cfg : BrokerConfig) (b : System) (e : BrokerEvent) : (step cfg b e).1.pairing = b.pairing ∨
      (step cfg b e).1.pairing = b.pairing.sweep b.now ∨ ∃ event, e = .pairing event ∧
        (step cfg b e).1.pairing = (b.pairing.step cfg.pairing b.now event).1 := by
  cases e with
  | tick ms => exact Or.inl rfl
  | pairing event => exact Or.inr (Or.inr ⟨event, rfl, rfl⟩)
  | link event => exact Or.inl rfl
  | sweep => exact Or.inr (Or.inl rfl)

theorem create_pairing_inv : Pairing.Inv cfg.pairing (create cfg).pairing where
  wf := by constructor <;> intro _ <;> simp [create, MailboxStore.create]
  burned := by intro m hm; cases hm
  sunk := by intro k c hk; cases hk
  held := by intro k m e hk; cases hk
  fresh := fun _ _ => rfl

section
variable (hr : Function.Injective cfg.pairing.rnd)
include hr

theorem step_pairing_inv (b : System) (e : BrokerEvent)
    (h : Pairing.Inv cfg.pairing b.pairing) : Pairing.Inv cfg.pairing (step cfg b e).1.pairing ∧
      b.pairing.store.Grows (step cfg b e).1.pairing.store := by
  obtain he | he | ⟨event, -, he⟩ := step_pairing cfg b e
  · rw [he]; exact ⟨h, (MailboxStore.Quiet.refl _).grows⟩
  · rw [he]; exact Pairing.sweep_inv h
  · rw [he]; exact Pairing.step_inv hr h event

theorem run_pairing_inv (es : List BrokerEvent) :
    Pairing.Inv cfg.pairing ((machine cfg).run es).pairing :=
  (machine cfg).run_invariant create_pairing_inv
    (fun b e h => (step_pairing_inv hr b e h).1) es

theorem run_pairing_grows (es es' : List BrokerEvent) :
    ((machine cfg).run es).pairing.store.Grows ((machine cfg).run (es ++ es')).pairing.store := by
  induction es' using List.reverseRecOn with
  | nil => rw [append_nil]; exact (MailboxStore.Quiet.refl _).grows
  | append_singleton es' e ih =>
    rw [← append_assoc, Machine.run_snoc]
    exact ih.trans (step_pairing_inv hr _ e (run_pairing_inv hr (es ++ es'))).2

end

theorem step_link (cfg : BrokerConfig) (b : System) (e : BrokerEvent) : (step cfg b e).1.link = b.link ∨
      (step cfg b e).1.link = ((b.link.sweepRequests b.now).sweepTunnels b.now).1 ∨ ∃ event, e = .link event ∧
        (step cfg b e).1.link = (b.link.step cfg.link b.now event).1 := by
  cases e with
  | tick _ | pairing _ => exact Or.inl rfl
  | link event => exact Or.inr (Or.inr ⟨event, rfl, rfl⟩)
  | sweep => exact Or.inr (Or.inl rfl)

theorem step_link_inv (b : System) (e : BrokerEvent) (h : b.link.Inv) : (step cfg b e).1.link.Inv := by
  obtain he | he | ⟨event, -, he⟩ := step_link cfg b e
  · rw [he]; exact h
  · rw [he]; exact h.frame (Link.sweep_frame (fun _ _ => False) b.now b.link)
  · rw [he]; exact Link.step_inv h event

theorem run_link_inv (cfg : BrokerConfig) (es : List BrokerEvent) : ((machine cfg).run es).link.Inv :=
  (machine cfg).run_invariant Link.create_inv step_link_inv es

theorem run_link_wf (hmac : Function.Injective cfg.link.mac) (es : List BrokerEvent) :
    ((machine cfg).run es).link.registry.Wf cfg.link.mac := by
  have hboth := (machine cfg).run_invariant
    (I := fun b => b.link.Inv ∧ b.link.registry.Wf cfg.link.mac)
    ⟨Link.create_inv, by
      constructor <;> intros <;>
        simp_all [machine, create, Link.create, TunnelRegistry.create]⟩
    (fun b e h => by
      refine ⟨step_link_inv b e h.1, ?_⟩
      obtain he | he | ⟨event, -, he⟩ := step_link cfg b e
      · exact he ▸ h.2
      · exact he ▸ h.2.touches (Link.sweep_frame (fun _ _ => False) b.now b.link).registry
      · exact he ▸ Link.step_wf hmac h.1 h.2 event) es
  exact hboth.2

/-- Ids that never repeat: the k-th has k + 1 letters. -/
def numbered (k : Nat) : String := String.ofList (List.replicate (k + 1) 'i')

theorem numbered_injective : Function.Injective numbered := by
  intro j k h
  have hlen := congrArg String.length h
  simp only [numbered, String.length_ofList, length_replicate] at hlen
  omega

/-- A small broker with such ids, on which runs can be computed. -/
def sample : BrokerConfig where
  pairing := ⟨numbered, minProtocolVersion⟩
  link :=
    { rnd := numbered
      quotas := ⟨10, 1, 16⟩
      mac := id
      verifyChallenge := fun publicKey challenge signature => signature = publicKey ++ challenge
      deviceIdFor := id
      metering := true }
  ttlMs := mailboxTtlMs
  mailboxLimit := 10
  claimLimit := 5
  slotClaimLimit := 4
  globalClaimLimit := 200

/-- Slot 492 parked, quoted and joined: mailbox `i`, claim `ii`, handle `iii`. -/
def joined : List BrokerEvent :=
  [.pairing (.pairNew "a" ⟨some 2, none⟩ (fun _ _ => "492") 0),
    .pairing (.pairClaim "b" ⟨some 2, some ⟨"492", "s", "a", "d"⟩⟩),
    .pairing (.attachMailbox "i"),
    .pairing (.attachClaim "ii")]

/-- Device `d` registers on socket 0, and again on socket 1. -/
def reconnected : List BrokerEvent :=
  [.link .attachAgent,
    .link (.message 0 (.tunnel (.register "d" "d" "i" "di"))),
    .link .attachAgent,
    .link (.message 1 (.tunnel (.register "d" "d" "ii" "dii")))]

end System
end Mtmux.Broker
