import Mtmux.Broker.System
import Mtmux.Broker.LinkOutputs

/-! Which stream frames the broker forwards. The agent's side looks its tunnel and
the stream up for every frame; the browser's side uses what it captured when it
attached, whatever has become of it. -/
namespace Mtmux.Broker
open TunnelRegistry List

namespace TunnelRegistry
variable {reg : TunnelRegistry} {now : Nat}

def Carries (reg : TunnelRegistry) (now r : Nat) (sid : String) : Prop :=
  ∃ tunnel : Tunnel, reg.objs[r]? = some tunnel ∧ reg.tunnels.get tunnel.id = some r ∧
    now < tunnel.expiresAt ∧ (tunnel.streams.get sid).isSome

end TunnelRegistry

namespace Link
variable {cfg : LinkConfig} {now : Nat} {l : Link}

variable {e : LinkEvent} {data sid : String}

theorem frame_to_agent {r k : Nat} (ho : .toAgent r k (.streamFrame sid data) ∈ (step cfg now l e).2) :
    ∃ (sock : Nat) (t : String) (tunnel : Tunnel), e = .message sock (.tunnel (.streamFrame sid data)) ∧
      l.sockets.get sock = some (.browser t r sid) ∧ l.registry.objs[r]? = some tunnel ∧
      tunnel.bytes + data.length ≤ cfg.quotas.maxBytes := by
  obtain ⟨out, hmem, he⟩ := emits_of_mem ho rfl
  cases he with
  | nothing => cases hmem
  | @browserFrame sock r t sid data tunnel socket obj room =>
    cases mem_singleton.1 hmem
    exact ⟨sock, t, tunnel, rfl, socket, obj, room⟩
  | flushed =>
    obtain ⟨message, -, hm⟩ := mem_map.1 hmem
    cases hm
  | agentFrame | usage | reply | request | reveal => cases mem_singleton.1 hmem

theorem frame_to_browser {r k : Nat} (ho : .toBrowser r k (.streamFrame sid data) ∈ (step cfg now l e).2) :
    ∃ (t : String) (tunnel : Tunnel), l.registry.tunnels.get t = some r ∧
      l.registry.objs[r]? = some tunnel ∧ now < tunnel.expiresAt ∧ (tunnel.streams.get sid).isSome := by
  obtain ⟨out, hmem, he⟩ := emits_of_mem ho rfl
  cases he with
  | nothing => cases hmem
  | @agentFrame sock r i challenge t sid data tunnel stream socket current obj live opened browser =>
    cases mem_singleton.1 hmem
    exact ⟨t, tunnel, current, obj, live, by rw [opened]; rfl⟩
  | flushed =>
    obtain ⟨message, -, hm⟩ := mem_map.1 hmem
    cases hm
  | browserFrame | usage | reply | request | reveal => cases mem_singleton.1 hmem

/-- A browser's frame for a stream that is not live, while the registration it
captured has room for it. -/
def DeadFrame (cfg : LinkConfig) (now : Nat) (l : Link) (e : LinkEvent) : Prop :=
  ∃ (k r : Nat) (t sid data : String) (tunnel : Tunnel),
    e = .message k (.tunnel (.streamFrame sid data)) ∧
    l.sockets.get k = some (.browser t r sid) ∧ l.registry.objs[r]? = some tunnel ∧
    tunnel.bytes + data.length ≤ cfg.quotas.maxBytes ∧ ¬ l.registry.Carries now r sid

theorem frame_carried (h : Inv l) (hdead : ¬ DeadFrame cfg now l e) {r k : Nat}
    (ho : .toAgent r k (.streamFrame sid data) ∈ (step cfg now l e).2 ∨
      .toBrowser r k (.streamFrame sid data) ∈ (step cfg now l e).2) : l.registry.Carries now r sid := by
  rcases ho with ho | ho
  · obtain ⟨sock, t, tunnel, rfl, hk, hobj, hroom⟩ := frame_to_agent ho
    by_contra hc
    exact hdead ⟨sock, r, t, sid, data, tunnel, rfl, hk, hobj, hroom, hc⟩
  · obtain ⟨t, tunnel, hcur, hobj, hx, hopen⟩ := frame_to_browser ho
    obtain ⟨tunnel', hobj', hid⟩ := h.mapped hcur
    rw [hobj] at hobj'
    cases hobj'
    exact ⟨tunnel, hobj, by rw [hid]; exact hcur, hx, hopen⟩

theorem deadFrame_forwarded (hd : DeadFrame cfg now l e) :
    ∃ r k sid data, .toAgent r k (.streamFrame sid data) ∈ (step cfg now l e).2 ∧ ¬ l.registry.Carries now r sid := by
  obtain ⟨k, r, t, sid, data, tunnel, rfl, hk, hobj, hroom, hc⟩ := hd
  refine ⟨r, tunnel.agent, sid, data, ?_, hc⟩
  simp only [step, hk, browserMessage, ne_eq, not_true_eq_false, if_false]
  rw [charge_of_room hobj hroom]
  simp [hobj]

theorem browser_close_open {k r : Nat} {t : String} {raw : LinkFrame}
    (hk : l.sockets.get k = some (.browser t r sid)) {a i : Nat} {sid' : String} {reason : Option String}
    (ho : .toAgent a i (.streamClose sid' reason) ∈ (step cfg now l (.message k raw)).2) :
    ∃ tunnel : Tunnel, l.registry.objs[r]? = some tunnel ∧ (tunnel.streams.get sid).isSome := by
  simp only [step, hk, browserMessage] at ho
  split at ho
  · split at ho
    · simp at ho
    · rcases mem_append.1 ho with ho | ho
      · obtain ⟨tunnel, j, hobj, hs, -⟩ := mem_closeStream ho
        exact ⟨tunnel, hobj, hs⟩
      · simp at ho
  · next named data =>
    split at ho
    · simp at ho
    · rcases hc : l.registry.charge cfg.quotas r data.length with ⟨reg', _ | _, out'⟩
      · rw [hc] at ho
        rcases mem_append.1 ho with ho | ho
        · obtain ⟨_, _, he | he⟩ := charge_false hc _ ho <;> cases he
        · simp at ho
      · rw [hc] at ho
        obtain ⟨tunnel, -, he⟩ := mem_map.1 ho
        cases he
  · simp at ho
  · simp at ho

end Link

namespace System
variable {cfg : BrokerConfig}

def ForwardsLive (x : Machine.Entry System BrokerEvent BrokerOut) : Prop :=
  ∀ r k sid data, .link (.toAgent r k (.streamFrame sid data)) ∈ x.out ∨
      .link (.toBrowser r k (.streamFrame sid data)) ∈ x.out →
    x.pre.link.registry.Carries x.pre.now r sid

def SilentOnceGone (x : Machine.Entry System BrokerEvent BrokerOut) : Prop :=
  ∀ k t r sid raw, x.event = .link (.message k raw) →
    x.pre.link.sockets.get k = some (.browser t r sid) →
    (¬ ∃ tunnel : Tunnel, x.pre.link.registry.objs[r]? = some tunnel ∧
      x.pre.link.registry.tunnels.get tunnel.id = some r ∧ (tunnel.streams.get sid).isSome) →
    ∀ a i sid', (∀ data, .link (.toAgent a i (.streamFrame sid' data)) ∉ x.out) ∧
      ∀ reason, .link (.toAgent a i (.streamClose sid' reason)) ∉ x.out

/-- The broker forwards through live streams only exactly when no browser sends a
frame for one that is not. -/
theorem dead_stream_silent_iff (cfg : BrokerConfig) (hmac : Function.Injective cfg.link.mac) (es : List BrokerEvent) :
    (∀ x ∈ (machine cfg).trace es, ForwardsLive x ∧ SilentOnceGone x) ↔
      ∀ x ∈ (machine cfg).trace es, ∀ e, x.event = .link e → ¬ Link.DeadFrame cfg.link x.pre.now x.pre.link e := by
  refine forall₂_congr fun x hx => ?_
  obtain ⟨before, a, after, -, rfl⟩ := ((machine cfg).mem_trace es x).1 hx
  have hinv := run_link_inv cfg before
  have hwf := run_link_wf hmac before
  constructor
  · rintro ⟨hlive, -⟩ e he hdead
    have ha : a = .link e := he
    subst ha
    obtain ⟨r, k, sid, data, hmem, hc⟩ := Link.deadFrame_forwarded hdead
    exact hc (hlive r k sid data (Or.inl (mem_map_of_mem hmem)))
  · intro hno
    have hframe : ForwardsLive ((machine cfg).entry ((machine cfg).run before) a) := by
      intro r k sid data ho
      have hsweep : ∀ {o : LinkOut}, o.isSalient = true → .link o ∈
          (step cfg ((machine cfg).run before) a).2 → ∃ e, a = .link e ∧
            o ∈ (((machine cfg).run before).link.step cfg.link ((machine cfg).run before).now e).2 := by
        intro o hf ho
        rcases mem_step_link ho with ⟨e, he, hmem⟩ | ⟨-, hmem⟩
        · exact ⟨e, he, hmem⟩
        · rw [sweepIds_plain _ _ _ o hmem] at hf
          cases hf
      rcases ho with ho | ho
      · obtain ⟨e, rfl, hmem⟩ := hsweep rfl ho
        exact Link.frame_carried hinv (hno e rfl) (Or.inl hmem)
      · obtain ⟨e, rfl, hmem⟩ := hsweep rfl ho
        exact Link.frame_carried hinv (hno e rfl) (Or.inr hmem)
    refine ⟨hframe, ?_⟩
    intro k t r sid raw he hk hgone i j sid'
    have ha : a = .link (.message k raw) := he
    subst ha
    constructor
    · intro data ho
      obtain ⟨o, hmem, hlink⟩ := mem_map.1 ho
      cases hlink
      have hk' : ((machine cfg).run before).link.sockets.get k = some (.browser t r sid) := hk
      obtain ⟨tunnel, hobj, hcur, -, hopen⟩ := hframe i j sid' data (Or.inl ho)
      have hstep : .toAgent i j (.streamFrame sid' data) ∈ (((machine cfg).run before).link.step
          cfg.link ((machine cfg).run before).now (.message k raw)).2 := hmem
      obtain ⟨sock, t', old, he', hsock, -⟩ := Link.frame_to_agent hstep
      cases he'
      rw [hk'] at hsock
      cases hsock
      exact hgone ⟨tunnel, hobj, hcur, hopen⟩
    · intro reason ho
      obtain ⟨o, hmem, hlink⟩ := mem_map.1 ho
      cases hlink
      obtain ⟨tunnel, hobj, hopen⟩ := Link.browser_close_open hk hmem
      refine hgone ⟨tunnel, hobj, ?_, hopen⟩
      -- a registration that is not current has no open stream
      by_contra hcur
      rw [hwf.idle hobj hcur] at hopen
      cases hopen

/-- Browser 1 is attached to device `d`, which then closes its stream. -/
def closedByAgent : List BrokerEvent :=
  [.link .attachAgent,
    .link (.message 0 (.tunnel (.register "d" "d" "i" "di"))),
    .link (.attachTunnel "tnl-d:0"),
    .link (.message 0 (.tunnel (.streamClose "str-ii" none)))]

theorem dead_stream_silent_closedByAgent :
    closedByAgent ≠ [] ∧ ∀ x ∈ (machine sample).trace closedByAgent, ForwardsLive x ∧ SilentOnceGone x := by
  refine ⟨cons_ne_nil _ _, ?_⟩
  refine (dead_stream_silent_iff sample (fun _ _ h => h) closedByAgent).2 fun x hx e he hdead => ?_
  obtain ⟨before, a, after, hes, rfl⟩ := ((machine sample).mem_trace closedByAgent x).1 hx
  obtain ⟨k, r, t, sid, data, tunnel, rfl, -⟩ := hdead
  have ha : a = .link (.message k (.tunnel (.streamFrame sid data))) := he
  have hmem : a ∈ closedByAgent := by rw [hes]; simp
  rw [ha] at hmem
  simp [closedByAgent] at hmem

theorem dead_stream_forwards_closedByAgent : ¬ ∀ x ∈ (machine sample).trace
        (closedByAgent ++ [.link (.message 1 (.tunnel (.streamFrame "str-ii" "f")))]),
      ForwardsLive x ∧ SilentOnceGone x := by
  intro h
  have hmem := ((machine sample).mem_trace _ _).2
    ⟨closedByAgent, .link (.message 1 (.tunnel (.streamFrame "str-ii" "f"))), [], rfl, rfl⟩
  obtain ⟨tunnel, hobj, -, -, hopen⟩ := (h _ hmem).1 0 0 "str-ii" "f" (Or.inl (by decide +kernel))
  have hclosed : (((machine sample).run closedByAgent).link.registry.objs[0]?).map
      (fun tunnel => (tunnel.streams.get "str-ii").isSome) = some false := by decide +kernel
  have hobj' : ((machine sample).run closedByAgent).link.registry.objs[0]? = some tunnel := hobj
  rw [hobj', Option.map_some, Option.some.injEq] at hclosed
  rw [hclosed] at hopen
  cases hopen

end System
end Mtmux.Broker
