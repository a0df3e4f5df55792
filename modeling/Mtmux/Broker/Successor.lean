import Mtmux.Broker.System

/-! A device that reconnects gets a new registration under its old tunnel id. This
module says exactly when events of the old one reach the new one: handlers that
kept the id resolve it to whatever is registered now. -/
namespace Mtmux.Broker
open Protocol TunnelRegistry

namespace TunnelRegistry
variable {reg reg' reg'' : TunnelRegistry} {now : Nat}

/-- Registration `b` is still registered if it was, with its streams open and its
byte count as before. -/
def Untouched (reg reg' : TunnelRegistry) (b : Nat) : Prop :=
  ∀ tunnel : Tunnel, reg.objs[b]? = some tunnel → ∃ tunnel', reg'.objs[b]? = some tunnel' ∧
    tunnel'.id = tunnel.id ∧
    (reg.tunnels.get tunnel.id = some b → reg'.tunnels.get tunnel.id = some b) ∧
    (∀ sid, (tunnel.streams.get sid).isSome → (tunnel'.streams.get sid).isSome) ∧
    tunnel'.bytes = tunnel.bytes

theorem Untouched.refl (reg : TunnelRegistry) (b : Nat) : Untouched reg reg b :=
  fun tunnel hobj => ⟨tunnel, hobj, rfl, fun h => h, fun _ h => h, rfl⟩

variable {b : Nat}

theorem Untouched.trans (h : Untouched reg reg' b) (h' : Untouched reg' reg'' b) : Untouched reg reg'' b := by
  intro tunnel hobj
  obtain ⟨tunnel', hobj', hid, hreg, hst, hby⟩ := h tunnel hobj
  obtain ⟨tunnel'', hobj'', hid', hreg', hst', hby'⟩ := h' tunnel' hobj'
  refine ⟨tunnel'', hobj'', hid'.trans hid, fun hr => ?_, fun sid hs => hst' sid (hst sid hs),
    hby'.trans hby⟩
  rw [hid] at hreg'
  exact hreg' (hreg hr)

theorem update_untouched {r : Nat} (hne : b ≠ r) (f : Tunnel → Tunnel) : Untouched reg (reg.update r f) b := by
  intro tunnel hobj
  exact ⟨tunnel, by rw [objs_update, if_neg hne, hobj], rfl, fun h => h, fun _ h => h, rfl⟩

theorem drop_untouched (hm : reg.Mapped) {t : String} {reason : TunnelClosedReason}
    (hne : reg.tunnels.get t ≠ some b) : Untouched reg (reg.drop t reason).1 b := by
  obtain ⟨hmap, hobjs⟩ := drop_spec reg hm t reason
  intro tunnel hobj
  refine ⟨tunnel, by rw [hobjs, if_neg hne, hobj], rfl, fun hr => ?_, fun _ h => h, rfl⟩
  rw [hmap, if_neg, hr]
  intro hid
  rw [hid] at hr
  exact hne hr

theorem not_untouched_of_gone (hm : reg.Mapped) {t : String}
    (hcur : reg.tunnels.get t = some b) (hgone : reg'.tunnels.get t = none) : ¬ Untouched reg reg' b := by
  intro h
  obtain ⟨tunnel, hobj, hid⟩ := hm hcur
  obtain ⟨tunnel', -, -, hreg, -⟩ := h tunnel hobj
  rw [hid] at hreg
  rw [hreg hcur] at hgone
  cases hgone

theorem drop_gone (hm : reg.Mapped) (t : String) (reason : TunnelClosedReason) :
    (reg.drop t reason).1.tunnels.get t = none := by
  rw [(drop_spec reg hm t reason).1, if_pos rfl]

theorem closeStream_untouched_iff {r : Nat} {tunnel : Tunnel} (hobj : reg.objs[b]? = some tunnel)
    (sid : String) (reason : Option String) : Untouched reg (reg.closeStream r sid reason).1 b ↔
      ¬ (r = b ∧ (tunnel.streams.get sid).isSome) := by
  constructor
  · rintro h ⟨rfl, hs⟩
    obtain ⟨stream, hstream⟩ := Option.isSome_iff_exists.1 hs
    obtain ⟨tunnel', hobj', -, -, hst, -⟩ := h tunnel hobj
    have hclosed := hst sid hs
    simp only [closeStream, hobj, hstream, objs_update, if_true, Option.map_some,
      Option.some.injEq] at hobj'
    subst hobj'
    simp at hclosed
  · intro hne
    unfold closeStream
    split
    · exact Untouched.refl reg b
    · next found hfound =>
      split
      · exact Untouched.refl reg b
      · next stream hstream =>
        refine update_untouched (fun he => hne ⟨he.symm, ?_⟩) _
        subst he
        rw [hobj] at hfound
        cases hfound
        rw [hstream]
        rfl

theorem addBytes_mapped (hm : reg.Mapped) (r bytes : Nat) : (reg.addBytes r bytes).Mapped :=
  have h : Touch (fun _ _ => True) reg (reg.addBytes r bytes) := addBytes_touch reg (Or.inl trivial)
  h.quiet.mapped hm

theorem addBytes_untouched {r bytes : Nat} (h : ¬ (r = b ∧ 0 < bytes)) : Untouched reg (reg.addBytes r bytes) b := by
  by_cases hr : b = r
  · subst hr
    have hz : bytes = 0 := by
      by_contra hn
      exact h ⟨rfl, Nat.pos_of_ne_zero hn⟩
    intro tunnel hobj
    refine ⟨{ tunnel with bytes := tunnel.bytes + bytes }, ?_, rfl, fun h => h, fun _ h => h, ?_⟩
    · rw [addBytes, objs_update, if_pos rfl, hobj, Option.map_some]
    · rw [hz, Nat.add_zero]
  · exact update_untouched hr _

theorem charge_untouched_iff (hm : reg.Mapped) (quotas : Quotas) {r : Nat} (bytes : Nat)
    {charged tunnel : Tunnel} (hr : reg.objs[r]? = some charged) (hb : reg.objs[b]? = some tunnel) :
    Untouched reg (reg.charge quotas r bytes).1 b ↔ ¬ (r = b ∧ 0 < bytes) ∧
      ¬ (quotas.maxBytes < charged.bytes + bytes ∧ reg.tunnels.get charged.id = some b) := by
  have hsum : ∀ {reg' : TunnelRegistry}, r = b → Untouched reg reg' b →
      (∀ i : Nat, (reg'.objs[i]?).map Tunnel.bytes = ((reg.addBytes r bytes).objs[i]?).map Tunnel.bytes) →
      bytes = 0 := by
    intro reg' he hun hbytes
    subst he
    obtain ⟨tunnel', hobj', -, -, -, hby⟩ := hun tunnel hb
    have hi := hbytes r
    rw [hobj', addBytes, objs_update, if_pos rfl, hb] at hi
    simp only [Option.map_some, Option.some.injEq] at hi
    omega
  unfold charge
  rw [hr]
  dsimp only
  split
  · next hover =>
    have hm' : (reg.addBytes r bytes).Mapped := addBytes_mapped hm r bytes
    have hdropped := drop_spec (reg.addBytes r bytes) hm' charged.id .quotaExceeded
    constructor
    · intro hun
      refine ⟨fun ⟨he, hpos⟩ => ?_, fun ⟨_, hcur⟩ => ?_⟩
      · have hz := hsum he hun fun i => by
          rw [hdropped.2]
          split
          · cases (reg.addBytes r bytes).objs[i]? <;> rfl
          · rfl
        omega
      · exact not_untouched_of_gone hm hcur (drop_gone hm' charged.id .quotaExceeded) hun
    · rintro ⟨hfree, hcur⟩
      exact (addBytes_untouched hfree).trans (drop_untouched hm' fun h => hcur ⟨hover, h⟩)
  · next hunder =>
    constructor
    · intro hun
      refine ⟨fun ⟨he, hpos⟩ => ?_, fun ⟨hover, _⟩ => hunder hover⟩
      have hz := hsum he hun fun _ => rfl
      omega
    · rintro ⟨hfree, -⟩
      exact addBytes_untouched hfree

theorem get_untouched (hm : reg.Mapped) {t : String}
    (hne : reg.tunnels.get t ≠ some b) : Untouched reg (reg.get t now).1 b := by
  unfold get
  split
  · exact Untouched.refl reg b
  · split
    · exact drop_untouched hm hne
    · exact Untouched.refl reg b

end TunnelRegistry

namespace Link
variable {cfg : LinkConfig} {now : Nat} {l : Link}

def Replaces (reg : TunnelRegistry) (a b : Nat) : Prop :=
  ∃ old new : Tunnel, reg.objs[a]? = some old ∧ reg.objs[b]? = some new ∧
    old.deviceId = new.deviceId ∧ a < b

inductive FromReplaced (l : Link) (b : Nat) : LinkEvent → Prop where
  | agentMessage {a : Nat} {old : Tunnel} {raw : LinkFrame} (older : Replaces l.registry a b)
      (own : l.registry.objs[a]? = some old) : FromReplaced l b (.message old.agent raw)
  | agentClose {a : Nat} {old : Tunnel} (older : Replaces l.registry a b)
      (own : l.registry.objs[a]? = some old) : FromReplaced l b (.close old.agent)
  | ownerAnswer {a : Nat} {owner : Option String} (older : Replaces l.registry a b) :
    FromReplaced l b (.ownerAnswer a owner)
  | checkAnswer {a : Nat} {allowed : Bool} {reason : Option String}
      (older : Replaces l.registry a b) : FromReplaced l b (.checkAnswer a allowed reason)
  | meterFailed {a : Nat} (older : Replaces l.registry a b) : FromReplaced l b (.meterFailed a)
  | browserMessage {a k : Nat} {t sid : String} {raw : LinkFrame} (older : Replaces l.registry a b)
      (attached : l.sockets.get k = some (.browser t a sid)) : FromReplaced l b (.message k raw)

/-- What serving an agent's message does to the registration it resolves to. -/
def Hits (quotas : Quotas) (now : Nat) (tunnel : Tunnel) (msg : TunnelClientMessage) : Prop :=
  tunnel.expiresAt ≤ now ∨
    match msg with
    | .streamClose sid _ => (tunnel.streams.get sid).isSome
    | .streamFrame _ data => 0 < data.length ∨ quotas.maxBytes < tunnel.bytes
    | _ => False

inductive Reaches (cfg : LinkConfig) (now : Nat) (l : Link) (b : Nat) : LinkEvent → Prop where
  | agentMessage {k : Nat} {challenge t : String} {tunnel : Tunnel} {msg : TunnelClientMessage}
      (socket : l.sockets.get k = some (.agent challenge (some t)))
      (current : l.registry.tunnels.get t = some b) (obj : l.registry.objs[b]? = some tunnel)
      (hits : Hits cfg.quotas now tunnel msg) : Reaches cfg now l b (.message k (.tunnel msg))
  | agentClose {k : Nat} {challenge t : String}
      (socket : l.sockets.get k = some (.agent challenge (some t)))
      (current : l.registry.tunnels.get t = some b) : Reaches cfg now l b (.close k)
  | blocked {a : Nat} {old : Tunnel} {reason : Option String}
      (waiting : l.meters.get a = some .decision) (obj : l.registry.objs[a]? = some old)
      (current : l.registry.tunnels.get old.id = some b) :
    Reaches cfg now l b (.checkAnswer a false reason)
  | overrun {k a : Nat} {t sid data : String} {old : Tunnel}
      (socket : l.sockets.get k = some (.browser t a sid)) (obj : l.registry.objs[a]? = some old)
      (excess : cfg.quotas.maxBytes < old.bytes + data.length)
      (current : l.registry.tunnels.get old.id = some b) :
    Reaches cfg now l b (.message k (.tunnel (.streamFrame sid data)))

theorem agentServe_untouched_iff (hm : l.registry.Mapped) {b : Nat} {new : Tunnel}
    (hb : l.registry.objs[b]? = some new) (k : Nat) (t : String) (msg : TunnelClientMessage) :
    l.registry.Untouched (agentServe cfg now l k t msg).1.registry b ↔
      ¬ (l.registry.tunnels.get t = some b ∧ Hits cfg.quotas now new msg) := by
  unfold agentServe
  rcases hg : l.registry.get t now with ⟨reg, _ | ⟨r, found⟩, out⟩
  · dsimp only
    rcases get_none hg with ⟨hc, rfl, -⟩ | ⟨r, found, hc, hx, rfl, -⟩
    · refine iff_of_true (TunnelRegistry.Untouched.refl _ b) fun ⟨hcur, _⟩ => ?_
      rw [hm.current_none hc] at hcur
      cases hcur
    · obtain ⟨hcur, hobj⟩ := current_eq_some.1 hc
      by_cases hrb : l.registry.tunnels.get t = some b
      · refine iff_of_false (not_untouched_of_gone hm hrb
          (drop_gone hm t .expired)) fun h => h ⟨hrb, Or.inl ?_⟩
        rw [hcur] at hrb
        cases hrb
        rw [hb] at hobj
        cases hobj
        exact hx
      · exact iff_of_true (drop_untouched hm hrb) fun h => hrb h.1
  · obtain ⟨rfl, -, hcur, hobj, hx⟩ := get_some hg
    have hid : found.id = t := by
      obtain ⟨found', hobj', hid⟩ := hm hcur
      rw [hobj] at hobj'
      cases hobj'
      exact hid
    have hlive : r = b → ¬ new.expiresAt ≤ now := by
      rintro rfl
      rw [hb] at hobj
      cases hobj
      omega
    have hres : l.registry.tunnels.get t = some b ↔ r = b := by rw [hcur, Option.some.injEq]
    rw [hres]
    cases msg with
    | streamClose sid reason =>
      refine (closeStream_untouched_iff hb sid reason).trans (not_congr ?_)
      exact and_congr_right fun he => by simp [Hits, hlive he]
    | streamFrame sid data =>
      have hsame : r = b → found.bytes = new.bytes := by
        rintro rfl
        rw [hb] at hobj
        cases hobj
        rfl
      have hch := charge_untouched_iff hm cfg.quotas data.length hobj hb
      rw [hid, hres] at hch
      have hgoal : (¬ (r = b ∧ 0 < data.length) ∧
          ¬ (cfg.quotas.maxBytes < found.bytes + data.length ∧ r = b)) ↔
          ¬ (r = b ∧ Hits cfg.quotas now new (.streamFrame sid data)) := by
        simp only [Hits]
        by_cases he : r = b
        · have hnx := hlive he
          have hby := hsame he
          simp only [he, true_and, and_true, hnx, false_or]
          omega
        · simp [he]
      rw [← hgoal, ← hch]
      dsimp only
      rcases l.registry.charge cfg.quotas r data.length with ⟨reg', _ | _, out'⟩ <;> exact Iff.rfl
    | reply message =>
      have hs := agentReply_same now l found message
      dsimp only
      refine iff_of_true ?_ fun ⟨he, hh⟩ => ?_
      · rw [hs.registry]
        exact TunnelRegistry.Untouched.refl _ b
      · rcases hh with hh | hh
        · exact hlive he hh
        · exact hh
    | register deviceId publicKey answered signature =>
      refine iff_of_true (TunnelRegistry.Untouched.refl _ b) fun ⟨he, hh⟩ => ?_
      rcases hh with hh | hh
      · exact hlive he hh
      · exact hh

theorem step_untouched_iff (h : Inv l) {b : Nat} {e : LinkEvent} (hf : FromReplaced l b e) :
    l.registry.Untouched (step cfg now l e).1.registry b ↔ ¬ Reaches cfg now l b e := by
  have hrefl := TunnelRegistry.Untouched.refl l.registry b
  cases hf with
  | @agentMessage a old raw older own =>
    obtain ⟨-, new, -, hb, -, -⟩ := older
    rcases h.handled own with ⟨challenge, hk⟩ | hk
    · simp only [step, hk]
      cases raw with
      | tunnel msg =>
        refine (agentServe_untouched_iff h.mapped hb old.agent old.id msg).trans (not_congr ?_)
        constructor
        · rintro ⟨hcur, hits⟩
          exact .agentMessage hk hcur hb hits
        · intro hr
          cases hr with
          | agentMessage socket current obj hits =>
            rw [hk] at socket
            cases socket
            rw [hb] at obj
            cases obj
            exact ⟨current, hits⟩
          | overrun socket obj excess current =>
            rw [hk] at socket
            cases socket
      | request _ | malformed => exact iff_of_true hrefl fun hr => by cases hr
    · simp only [step, hk]
      refine iff_of_true hrefl fun hr => ?_
      cases hr with
      | agentMessage socket current obj hits => rw [hk] at socket; cases socket
      | overrun socket obj excess current => rw [hk] at socket; cases socket
  | @agentClose a old older own =>
    rcases h.handled own with ⟨challenge, hk⟩ | hk
    · simp only [step, hk, agentGone]
      have hq : l.registry.Quiet (l.registry.get old.id now).1 := l.registry.get_quiet old.id now
      have hm' : (l.registry.get old.id now).1.Mapped := hq.mapped h.mapped
      by_cases hcur : l.registry.tunnels.get old.id = some b
      · exact iff_of_false (not_untouched_of_gone h.mapped hcur
          (drop_gone hm' old.id .agentGone)) fun hr => hr (.agentClose hk hcur)
      · refine iff_of_true ((get_untouched h.mapped hcur).trans
          (drop_untouched hm' fun hc =>
            hcur (hq.kept hc))) fun hr => ?_
        cases hr with
        | agentClose socket current =>
          rw [hk] at socket
          cases socket
          exact hcur current
    · simp only [step, hk]
      refine iff_of_true hrefl fun hr => ?_
      cases hr with
      | agentClose socket current => rw [hk] at socket; cases socket
  | @ownerAnswer a owner older =>
    obtain ⟨old, new, -, -, -, hlt⟩ := older
    refine iff_of_true ?_ fun hr => by cases hr
    simp only [step, ownerAnswer]
    split
    · exact hrefl
    · exact update_untouched (by omega) _
    · exact hrefl
  | @checkAnswer a allowed reason older =>
    obtain ⟨old, new, ha, -, -, hlt⟩ := older
    simp only [step, checkAnswer]
    split
    · next hw =>
      cases allowed with
      | true => exact iff_of_true hrefl fun hr => by cases hr
      | false =>
        have hm' : (l.registry.update a fun tunnel =>
            { tunnel with blocked := some (reason.getD "Plan limit reached") }).Mapped := by
          refine TunnelRegistry.Quiet.mapped (update_quiet _ a ?_) h.mapped
          intro tunnel
          rfl
        simp only [Bool.false_eq_true, if_false, block, ha]
        by_cases hcur : l.registry.tunnels.get old.id = some b
        · exact iff_of_false (not_untouched_of_gone h.mapped hcur
            (drop_gone hm' old.id .quotaExceeded))
            fun hr => hr (.blocked hw ha hcur)
        · refine iff_of_true ((update_untouched (by omega) _).trans
            (drop_untouched hm' hcur)) fun hr => ?_
          cases hr with
          | blocked waiting obj current =>
            rw [ha] at obj
            cases obj
            exact hcur current
    · next hw =>
      refine iff_of_true hrefl fun hr => ?_
      cases hr with
      | blocked waiting obj current => exact hw waiting
  | @meterFailed a older => exact iff_of_true hrefl fun hr => by cases hr
  | @browserMessage a k t sid raw older attached =>
    obtain ⟨old, new, ha, hb, -, hlt⟩ := older
    simp only [step, attached]
    have hother : ∀ {raw}, (∀ data, raw ≠ .tunnel (.streamFrame sid data)) →
        ¬ Reaches cfg now l b (.message k raw) := by
      intro raw hne hr
      cases hr with
      | agentMessage socket current obj hits => rw [attached] at socket; cases socket
      | overrun socket obj excess current =>
        rw [attached] at socket
        cases socket
        exact hne _ rfl
    unfold browserMessage
    split
    · split
      · exact iff_of_true hrefl (hother (by simp))
      · next reason _ =>
        refine iff_of_true ?_ (hother (by simp))
        exact (closeStream_untouched_iff hb sid reason).2 fun h => by omega
    · next named data =>
      split
      · next hne =>
        refine iff_of_true hrefl (hother fun d he => hne ?_)
        cases he
        rfl
      · next hnamed =>
        have hsid : named = sid := not_not.1 hnamed
        subst hsid
        have hch := charge_untouched_iff h.mapped cfg.quotas data.length ha hb
        have hgoal : (¬ (a = b ∧ 0 < data.length) ∧
            ¬ (cfg.quotas.maxBytes < old.bytes + data.length ∧
              l.registry.tunnels.get old.id = some b)) ↔
            ¬ Reaches cfg now l b (.message k (.tunnel (.streamFrame named data))) := by
          constructor
          · rintro ⟨-, hover⟩ hr
            cases hr with
            | agentMessage socket current obj hits => rw [attached] at socket; cases socket
            | overrun socket obj excess current =>
              rw [attached] at socket
              cases socket
              rw [ha] at obj
              cases obj
              exact hover ⟨excess, current⟩
          · intro hr
            exact ⟨fun h => by omega, fun h => hr (.overrun attached ha h.1 h.2)⟩
        rw [← hgoal, ← hch]
        rcases l.registry.charge cfg.quotas a data.length with ⟨reg', _ | _, out'⟩ <;> exact Iff.rfl
    · exact iff_of_true hrefl (hother (by rename_i hne; intro data he; cases he; exact hne _ _ rfl))
    · exact iff_of_true hrefl (hother (by rename_i hne; intro data he; cases he; exact hne _ rfl))

end Link

namespace System

/-- Whatever a replaced registration's sockets and metering do leaves the one
that replaced it alone. -/
def SparesSuccessors (x : Machine.Entry System BrokerEvent BrokerOut) : Prop :=
  ∀ e b, x.event = .link e → Link.FromReplaced x.pre.link b e →
    x.pre.link.registry.Untouched x.post.link.registry b

def ReachesNoSuccessor (cfg : BrokerConfig) (x : Machine.Entry System BrokerEvent BrokerOut) :
    Prop :=
  ∀ e b, x.event = .link e → Link.FromReplaced x.pre.link b e →
    ¬ Link.Reaches cfg.link x.pre.now x.pre.link b e

theorem successors_spared_iff (cfg : BrokerConfig) (es : List BrokerEvent) :
    (∀ x ∈ (machine cfg).trace es, SparesSuccessors x) ↔ ∀ x ∈ (machine cfg).trace es, ReachesNoSuccessor cfg x := by
  refine forall₂_congr fun x hx => ?_
  obtain ⟨before, a, after, -, rfl⟩ := ((machine cfg).mem_trace es x).1 hx
  have hinv := run_link_inv cfg before
  refine forall₄_congr fun e b he hf => ?_
  have ha : a = .link e := he
  subst ha
  exact Link.step_untouched_iff hinv hf

theorem successor_dropped_by_stale_close :
    ¬ ∀ x ∈ (machine sample).trace (reconnected ++ [.link (.close 0)]), SparesSuccessors x := by
  intro h
  have hmem := ((machine sample).mem_trace _ _).2
    ⟨reconnected, .link (.close 0), [], rfl, rfl⟩
  have hold : (((machine sample).run reconnected).link.registry.objs[0]?).map
      (fun tunnel => (tunnel.agent, tunnel.deviceId)) = some (0, "d") := by decide +kernel
  have hnew : (((machine sample).run reconnected).link.registry.objs[1]?).map
      (fun tunnel => (tunnel.id, tunnel.deviceId)) = some ("tnl-d:0", "d") := by decide +kernel
  obtain ⟨old, hobj, he⟩ := Option.map_eq_some_iff.1 hold
  obtain ⟨new, hobj', he'⟩ := Option.map_eq_some_iff.1 hnew
  obtain ⟨hagent, hdev⟩ := Prod.mk.inj he
  obtain ⟨hid, hdev'⟩ := Prod.mk.inj he'
  have hfrom : Link.FromReplaced ((machine sample).run reconnected).link 1 (.close old.agent) :=
    .agentClose ⟨old, new, hobj, hobj', hdev.trans hdev'.symm, Nat.zero_lt_one⟩ hobj
  rw [hagent] at hfrom
  have hsame := h _ hmem (.close 0) 1 rfl hfrom
  have hcur : ((machine sample).run reconnected).link.registry.tunnels.get "tnl-d:0" = some 1 := by
    decide +kernel
  have hgone : (step sample ((machine sample).run reconnected)
      (.link (.close 0))).1.link.registry.tunnels.get "tnl-d:0" = none := by decide +kernel
  exact not_untouched_of_gone (run_link_inv sample reconnected).mapped hcur hgone hsame

end System
end Mtmux.Broker
