import Mtmux.Broker.Link
import Mtmux.Broker.RegistryInvariant

/-! The invariant of the tunnel half: sockets, registrations and metering name each
other consistently. -/
namespace Mtmux.Broker
open Protocol OrderedMap TunnelRegistry Tunnel

namespace Link
variable {cfg : LinkConfig} {now : Nat} {l l' : Link} {free : Debt → Nat → Prop}

/-- Operations on the requests touch nothing else. -/
structure SameLinks (l l' : Link) : Prop where
  registry : l'.registry = l.registry
  sockets : l'.sockets = l.sockets
  nextSocket : l'.nextSocket = l.nextSocket
  meters : l'.meters = l.meters
  drawn : l'.drawn = l.drawn

theorem SameLinks.refl (l : Link) : SameLinks l l := ⟨rfl, rfl, rfl, rfl, rfl⟩

theorem SameLinks.trans {l'' : Link} (h : SameLinks l l') (h' : SameLinks l' l'') : SameLinks l l'' :=
  ⟨h'.registry.trans h.registry, h'.sockets.trans h.sockets, h'.nextSocket.trans h.nextSocket,
    h'.meters.trans h.meters, h'.drawn.trans h.drawn⟩

theorem dropRequest_same (l : Link) (requestId : String) : SameLinks l (l.dropRequest requestId) := by
  unfold dropRequest
  split <;> exact ⟨rfl, rfl, rfl, rfl, rfl⟩

theorem liveRequest_same (now : Nat) (l : Link) (requestId : String) : SameLinks l (liveRequest now l requestId).1 := by
  unfold liveRequest
  split
  · exact SameLinks.refl l
  · split
    · exact dropRequest_same l requestId
    · exact SameLinks.refl l

theorem toBrowser_same (l : Link) (request : AccessRequest) (message : RequestServerMessage) :
    SameLinks l (toBrowser l request message).1 := by
  unfold toBrowser
  split
  · exact SameLinks.refl l
  · dsimp only
    split <;> exact ⟨rfl, rfl, rfl, rfl, rfl⟩

theorem agentReply_same (now : Nat) (l : Link) (tunnel : Tunnel) (message : RequestServerMessage) :
    SameLinks l (agentReply now l tunnel message).1 := by
  have hlive := liveRequest_same now l message.requestId
  unfold agentReply
  split
  · next he => rw [he] at hlive; exact hlive
  · next l₁ request he =>
    rw [he] at hlive
    split
    · exact hlive
    · have htold := hlive.trans (toBrowser_same l₁ request message)
      dsimp only
      split
      · exact htold.trans (dropRequest_same _ _)
      · exact htold

theorem sweepRequests_same (now : Nat) (l : Link) : SameLinks l (sweepRequests now l) := by
  unfold sweepRequests
  generalize l.requests.keys = ids
  induction ids generalizing l with
  | nil => exact SameLinks.refl l
  | cons id ids ih => exact (liveRequest_same now l id).trans (ih _)

theorem requestForward_same (l : Link) (requestId : String) (live : AccessRequest) (r : Nat)
    (tunnel : Tunnel) (msg : RequestClientMessage) : SameLinks l (requestForward l requestId live r tunnel msg).1 := by
  unfold requestForward
  split <;> split <;> exact ⟨rfl, rfl, rfl, rfl, rfl⟩

/-- What a handler does to the tunnels: it leaves the metering alone, and the socket table is `table` then. -/
structure Frame (free : Debt → Nat → Prop) (table : OrderedMap Nat LinkHandle) (l l' : Link) : Prop where
  registry : l.registry.Touches free l'.registry
  sockets : l'.sockets = table
  nextSocket : l'.nextSocket = l.nextSocket
  meters : l'.meters = l.meters
  drawn : l.drawn ≤ l'.drawn

variable {table : OrderedMap Nat LinkHandle}

theorem Frame.refl (l : Link) : Frame free l.sockets l l :=
  ⟨TunnelRegistry.Touches.refl _, rfl, rfl, rfl, Nat.le_refl _⟩

/-- The registry of the state moves, and then nothing but requests. -/
theorem Frame.of_same {reg : TunnelRegistry} (hreg : l.registry.Touches free reg)
    (hs : SameLinks { l with registry := reg } l') : Frame free l.sockets l l' :=
  { hs with registry := by rw [hs.registry]; exact hreg, drawn := Nat.le_of_eq hs.drawn.symm }

structure Inv (l : Link) : Prop where
  mapped : l.registry.Mapped
  registered : ∀ {k challenge t}, l.sockets.get k = some (.agent challenge (some t)) →
    ∃ (r : Nat) (tunnel : Tunnel), l.registry.objs[r]? = some tunnel ∧ tunnel.agent = k ∧
      tunnel.id = t
  handled : ∀ {r : Nat} {tunnel : Tunnel}, l.registry.objs[r]? = some tunnel →
    (∃ challenge, l.sockets.get tunnel.agent = some (.agent challenge (some tunnel.id))) ∨
      l.sockets.get tunnel.agent = none
  unique : ∀ {r r' : Nat} {tunnel tunnel' : Tunnel}, l.registry.objs[r]? = some tunnel →
    l.registry.objs[r']? = some tunnel' → tunnel.agent = tunnel'.agent → r = r'
  captured : ∀ {k t r sid}, l.sockets.get k = some (.browser t r sid) →
    ∃ tunnel : Tunnel, l.registry.objs[r]? = some tunnel ∧ tunnel.id = t
  fresh : ∀ k, l.nextSocket ≤ k → l.sockets.get k = none
  old : ∀ {r : Nat} {tunnel : Tunnel}, l.registry.objs[r]? = some tunnel →
    tunnel.agent < l.nextSocket
  metered : ∀ {r stage}, l.meters.get r = some stage → r < l.registry.objs.length

theorem create_inv : Inv create := by
  constructor <;> intros <;> simp_all [create, TunnelRegistry.create, TunnelRegistry.Mapped]

/-- Handlers that leave the socket table alone. -/
theorem Inv.next (h : Inv l) (hq : l.registry.Quiet l'.registry) (hs : l'.sockets = l.sockets)
    (hn : l.nextSocket ≤ l'.nextSocket)
    (hm : ∀ {r stage}, l'.meters.get r = some stage → ∃ stage', l.meters.get r = some stage') : Inv l' where
  mapped := hq.mapped h.mapped
  registered := by
    intro k challenge t hk
    rw [hs] at hk
    obtain ⟨r, tunnel, hobj, ha, hid⟩ := h.registered hk
    obtain ⟨tunnel', hobj', he⟩ := hq.forth hobj
    obtain ⟨hid', -, -, -, ha'⟩ := core_eq he
    exact ⟨r, tunnel', hobj', ha'.trans ha, hid'.trans hid⟩
  handled := by
    intro r tunnel' hobj'
    obtain ⟨tunnel, hobj, he⟩ := hq.back hobj'
    obtain ⟨hid, -, -, -, ha⟩ := core_eq he
    rw [hs, ← ha, ← hid]
    exact h.handled hobj
  unique := by
    intro r r' tunnel tunnel' hobj hobj' ha
    obtain ⟨tunnel₀, hobj₀, he⟩ := hq.back hobj
    obtain ⟨tunnel₁, hobj₁, he'⟩ := hq.back hobj'
    exact h.unique hobj₀ hobj₁ ((core_eq he).2.2.2.2.trans
      (ha.trans (core_eq he').2.2.2.2.symm))
  captured := by
    intro k t r sid hk
    rw [hs] at hk
    obtain ⟨tunnel, hobj, hid⟩ := h.captured hk
    obtain ⟨tunnel', hobj', he⟩ := hq.forth hobj
    exact ⟨tunnel', hobj', (core_eq he).1.trans hid⟩
  fresh := by
    intro k hk
    rw [hs]
    exact h.fresh k (Nat.le_trans hn hk)
  old := by
    intro r tunnel' hobj'
    obtain ⟨tunnel, hobj, he⟩ := hq.back hobj'
    rw [← (core_eq he).2.2.2.2]
    exact Nat.lt_of_lt_of_le (h.old hobj) hn
  metered := by
    intro r stage hr
    obtain ⟨stage', hr'⟩ := hm hr
    rw [hq.length]
    exact h.metered hr'

theorem Inv.addSocket (h : Inv l) {x : LinkHandle} (hx : ∀ challenge t, x ≠ .agent challenge (some t))
    (hb : ∀ t r sid, x = .browser t r sid → ∃ tunnel : Tunnel, l.registry.objs[r]? = some tunnel ∧ tunnel.id = t) :
    Inv { l with sockets := l.sockets.set l.nextSocket x, nextSocket := l.nextSocket + 1 } where
  __ := h
  registered := by
    intro k challenge t hk
    rw [get_set] at hk
    split at hk
    · exact absurd (Option.some.inj hk) (hx challenge t)
    · exact h.registered hk
  handled := by
    intro r tunnel hobj
    have hne : tunnel.agent ≠ l.nextSocket := Nat.ne_of_lt (h.old hobj)
    simp only [get_set, if_neg hne]
    exact h.handled hobj
  captured := by
    intro k t r sid hk
    rw [get_set] at hk
    split at hk
    · exact hb t r sid (Option.some.inj hk)
    · exact h.captured hk
  fresh := by
    intro k hk
    dsimp only at hk
    rw [get_set, if_neg (by omega)]
    exact h.fresh k (by omega)
  old := fun hobj => Nat.lt_succ_of_lt (h.old hobj)

theorem Inv.deleteSocket (h : Inv l) (k : Nat) : Inv { l with sockets := l.sockets.delete k } where
  __ := h
  registered := by
    intro i challenge t hi
    exact h.registered (get_of_delete hi)
  handled := by
    intro r tunnel hobj
    simp only [get_delete]
    split
    · exact Or.inr rfl
    · exact h.handled hobj
  captured := by
    intro i t r sid hi
    exact h.captured (get_of_delete hi)
  fresh := by
    intro i hi
    rw [get_delete]
    split
    · rfl
    · exact h.fresh i hi

theorem Inv.register (h : Inv l) {k : Nat} {challenge : String} {reg₀ : TunnelRegistry}
    {tunnel : Tunnel} {meters : OrderedMap Nat MeterStage}
    (hk : l.sockets.get k = some (.agent challenge none)) (hq : l.registry.Quiet reg₀)
    (ha : tunnel.agent = k)
    (hm : ∀ {r stage}, meters.get r = some stage →
      r = reg₀.objs.length ∨ ∃ stage', l.meters.get r = some stage') :
    Inv { l with
      registry := reg₀.install tunnel
      sockets := l.sockets.set k (.agent challenge (some tunnel.id))
      meters := meters } := by
  have hlt : ∀ {r : Nat} {other : Tunnel}, reg₀.objs[r]? = some other → r ≠ reg₀.objs.length :=
    fun hobj => Nat.ne_of_lt (List.getElem?_eq_some_iff.1 hobj).1
  -- no registration so far was made on this socket
  have hfree : ∀ {r : Nat} {other : Tunnel}, l.registry.objs[r]? = some other → other.agent ≠ k := by
    rintro r other hobj rfl
    rcases h.handled hobj with ⟨ch, hs⟩ | hs <;> rw [hk] at hs <;> cases hs
  have hknext : k < l.nextSocket := by
    by_contra hn
    rw [h.fresh k (by omega)] at hk
    cases hk
  constructor
  case mapped => exact install_mapped (hq.mapped h.mapped) tunnel
  case registered =>
    intro i ch t hi
    rw [get_set] at hi
    split at hi
    · next he =>
      cases hi
      refine ⟨reg₀.objs.length, tunnel, ?_, ha.trans he.symm, rfl⟩
      rw [objs_install, if_pos rfl]
    · obtain ⟨r, other, hobj, hoa, hoid⟩ := h.registered hi
      obtain ⟨other', hobj', he⟩ := hq.forth hobj
      obtain ⟨hid', -, -, -, ha'⟩ := core_eq he
      refine ⟨r, other', ?_, ha'.trans hoa, hid'.trans hoid⟩
      rw [objs_install, if_neg (hlt hobj'), hobj']
  case handled =>
    intro r other hobj
    rw [objs_install] at hobj
    simp only [get_set]
    split at hobj
    · cases hobj
      exact Or.inl ⟨challenge, by rw [if_pos ha]⟩
    · obtain ⟨other₀, hobj₀, he⟩ := hq.back hobj
      obtain ⟨hid, -, -, -, ha'⟩ := core_eq he
      rw [if_neg (by rw [← ha']; exact hfree hobj₀), ← ha', ← hid]
      exact h.handled hobj₀
  case unique =>
    intro r r' other other' hobj hobj' hsame
    rw [objs_install] at hobj hobj'
    split at hobj
    · split at hobj'
      · omega
      · cases hobj
        obtain ⟨other₀, hobj₀, he⟩ := hq.back hobj'
        exact absurd ((core_eq he).2.2.2.2.trans (hsame.symm.trans ha)) (hfree hobj₀)
    · obtain ⟨other₀, hobj₀, he⟩ := hq.back hobj
      split at hobj'
      · cases hobj'
        exact absurd ((core_eq he).2.2.2.2.trans (hsame.trans ha)) (hfree hobj₀)
      · obtain ⟨other₁, hobj₁, he'⟩ := hq.back hobj'
        exact h.unique hobj₀ hobj₁ ((core_eq he).2.2.2.2.trans
          (hsame.trans (core_eq he').2.2.2.2.symm))
  case captured =>
    intro i t r sid hi
    rw [get_set] at hi
    split at hi
    · cases hi
    · obtain ⟨other, hobj, hid⟩ := h.captured hi
      obtain ⟨other', hobj', he⟩ := hq.forth hobj
      refine ⟨other', ?_, (core_eq he).1.trans hid⟩
      rw [objs_install, if_neg (hlt hobj'), hobj']
  case fresh =>
    intro i hi
    dsimp only at hi
    rw [get_set, if_neg (by omega)]
    exact h.fresh i hi
  case old =>
    intro r other hobj
    rw [objs_install] at hobj
    split at hobj
    · cases hobj
      exact ha ▸ hknext
    · obtain ⟨other₀, hobj₀, he⟩ := hq.back hobj
      rw [← (core_eq he).2.2.2.2]
      exact h.old hobj₀
  case metered =>
    intro r stage hr
    simp only [TunnelRegistry.install, List.length_append, List.length_singleton]
    rcases hm hr with rfl | ⟨stage', hr'⟩
    · omega
    · have := h.metered hr'
      rw [← hq.length] at this
      omega

theorem agentRegister_cases (cfg : LinkConfig) (now : Nat) (l : Link) (k : Nat)
    (challenge : String) (msg : TunnelClientMessage) :
    (∃ why, agentRegister cfg now l k challenge msg = (l, [.close k 1008 why])) ∨
    ∃ deviceId publicKey answered signature reg₀ tunnel out,
      msg = .register deviceId publicKey answered signature ∧
      answered = challenge ∧ cfg.verifyChallenge publicKey challenge signature = true ∧
      cfg.deviceIdFor publicKey = deviceId ∧
      (∀ free, l.registry.Touches free reg₀) ∧
      (l.registry.Wf cfg.mac → reg₀.byDeviceId.get deviceId = none) ∧
      (∀ o ∈ out, ∃ existing, o ∈ (l.registry.drop existing .agentGone).2) ∧
      tunnel.deviceId = deviceId ∧ (∃ e, tunnel.id = deriveTunnelId cfg.mac deviceId e) ∧
      tunnel.agent = k ∧ tunnel.createdAt = now ∧ tunnel.bytes = 0 ∧ tunnel.userId = none ∧
      tunnel.streams = OrderedMap.empty ∧
      agentRegister cfg now l k challenge msg =
        ({ l with
            registry := reg₀.install tunnel
            sockets := l.sockets.set k (.agent challenge (some tunnel.id))
            meters := if cfg.metering then l.meters.set reg₀.objs.length .owner else l.meters },
          out ++ [.send k (.ready tunnel.id)]) := by
  cases msg with
  | register deviceId publicKey answered signature =>
    unfold agentRegister
    dsimp only
    split
    · next hok =>
      obtain ⟨reg₀, tunnel, out, ht, hfree, he, hd, hid, ha, hcr, hby, hu, hst, hout⟩ :=
        register_eq cfg.quotas cfg.mac l.registry deviceId publicKey k now
      rw [he]
      exact Or.inr ⟨deviceId, publicKey, answered, signature, reg₀, tunnel, out, rfl, hok.1, hok.2.1,
        hok.2.2, ht, hfree, hout, hd, hid, ha, hcr, hby, hu, hst, rfl⟩
    · exact Or.inl ⟨_, rfl⟩
  | _ => exact Or.inl ⟨_, rfl⟩

def Served (l : Link) (t : String) (msg : TunnelClientMessage) (d : Debt) (r : Nat) : Prop :=
  d = .bytes ∧ l.registry.tunnels.get t = some r ∧ ∃ sid data, msg = .streamFrame sid data

theorem agentServe_frame (cfg : LinkConfig) (now : Nat) (l : Link) (k : Nat) (t : String) (msg : TunnelClientMessage) :
    Frame (Served l t msg) l.sockets l (agentServe cfg now l k t msg).1 := by
  have hget : l.registry.Touches (Served l t msg) (l.registry.get t now).1 :=
    l.registry.get_touches t now
  unfold agentServe
  rcases hg : l.registry.get t now with ⟨reg, _ | ⟨r, tunnel⟩, out⟩
  · rw [hg] at hget
    exact .of_same hget (.refl _)
  · rw [hg] at hget
    obtain ⟨-, -, hcur, -⟩ := get_some hg
    cases msg with
    | streamClose streamId reason => exact .of_same (hget.trans (reg.closeStream_touches r streamId reason)) (.refl _)
    | streamFrame streamId data =>
      have hch : reg.Touches (Served l t (.streamFrame streamId data))
          (reg.charge cfg.quotas r data.length).1 :=
        reg.charge_touches cfg.quotas (Or.inl ⟨rfl, hcur, streamId, data, rfl⟩)
      dsimp only
      rcases hc : reg.charge cfg.quotas r data.length with ⟨reg', _ | _, out'⟩ <;>
        rw [hc] at hch <;> exact .of_same (hget.trans hch) (.refl _)
    | reply message => exact .of_same hget (agentReply_same now { l with registry := reg } tunnel message)
    | register deviceId publicKey answered signature => exact .of_same hget (.refl _)

theorem requestMessage_frame (free : Debt → Nat → Prop) (now : Nat) (l : Link) (k : Nat) (requestId : String)
    (raw : LinkFrame) : Frame free l.sockets l (requestMessage now l k requestId raw).1 := by
  have hrefl : l.registry.Touches free l.registry := TunnelRegistry.Touches.refl l.registry
  cases raw with
  | request msg =>
    have hlive := liveRequest_same now l requestId
    unfold requestMessage
    rcases hl : liveRequest now l requestId with ⟨l₁, _ | live⟩
    · rw [hl] at hlive
      exact .of_same hrefl hlive
    · rw [hl] at hlive
      have hby : l₁.registry.Touches free (l₁.registry.byDevice live.deviceId now).1 :=
        l₁.registry.byDevice_touches live.deviceId now
      have hmoved {reg : TunnelRegistry} : SameLinks { l with registry := reg } { l₁ with registry := reg } :=
        { hlive with registry := rfl }
      dsimp only
      rcases hd : l₁.registry.byDevice live.deviceId now with ⟨reg, _ | ⟨r, tunnel⟩, out⟩
      · rw [hd, hlive.registry] at hby
        exact .of_same hby (hmoved.trans (dropRequest_same { l₁ with registry := reg } requestId))
      · rw [hd, hlive.registry] at hby
        exact .of_same hby (hmoved.trans (requestForward_same { l₁ with registry := reg } requestId live r tunnel msg))
  | tunnel _ | malformed => exact .refl l

/-- The registration a browser's message may charge. -/
def Sent (r : Nat) (sid : String) (raw : LinkFrame) (d : Debt) (i : Nat) : Prop :=
  d = .bytes ∧ i = r ∧ ∃ data, raw = .tunnel (.streamFrame sid data) ∧ 0 < data.length

theorem browserMessage_frame (cfg : LinkConfig) (l : Link) (k r : Nat) (sid : String) (raw : LinkFrame) :
    Frame (Sent r sid raw) l.sockets l (browserMessage cfg l k r sid raw).1 := by
  unfold browserMessage
  split
  · split
    · exact .refl l
    · next reason _ => exact .of_same (l.registry.closeStream_touches r sid reason) (.refl _)
  · next named data =>
    split
    · exact .refl l
    · next hnamed =>
      have hsid : named = sid := not_not.1 hnamed
      subst hsid
      have hfree : Sent r named (.tunnel (.streamFrame named data)) .bytes r ∨ data.length = 0 := by
        rcases Nat.eq_zero_or_pos data.length with hz | hpos
        · exact Or.inr hz
        · exact Or.inl ⟨rfl, rfl, data, rfl, hpos⟩
      have hch := l.registry.charge_touches cfg.quotas hfree
      rcases hc : l.registry.charge cfg.quotas r data.length with ⟨reg', _ | _, out'⟩ <;>
        rw [hc] at hch <;> exact .of_same hch (.refl _)
  · exact .refl l
  · exact .refl l

theorem pairRequest_frame (free : Debt → Nat → Prop) (cfg : LinkConfig) (now : Nat) (l : Link)
    (deviceId deviceLabel accountEmail : String) :
    Frame free l.sockets l (pairRequest cfg now l deviceId deviceLabel accountEmail).1 := by
  have hby : l.registry.Touches free (l.registry.byDevice deviceId now).1 :=
    l.registry.byDevice_touches deviceId now
  unfold pairRequest
  rcases hd : l.registry.byDevice deviceId now with ⟨reg, _ | found, out⟩
  · rw [hd] at hby
    exact .of_same hby (.refl _)
  · rw [hd] at hby
    dsimp only
    split
    · exact ⟨hby, rfl, rfl, rfl, Nat.le_succ _⟩
    · next existing _ =>
      have hlive := liveRequest_same now { l with registry := reg } existing
      split
      · next he =>
        rw [he] at hlive
        exact .of_same hby hlive
      · next l₁ he =>
        rw [he] at hlive
        have hframe : Frame free l.sockets l l₁ := .of_same hby hlive
        exact { hframe with drawn := Nat.le_succ_of_le hframe.drawn }

theorem block_frame (free : Debt → Nat → Prop) (l : Link) (r : Nat) (reason : String) :
    Frame free l.sockets l (block l r reason).1 := by
  unfold block
  split
  · exact .refl l
  · refine .of_same (TunnelRegistry.Touches.trans (TunnelRegistry.Touch.touches (.rewrite _ r _ ?_ ?_ ?_))
      (TunnelRegistry.Touch.drop _ _ _).touches) (.refl _)
    · intro tunnel
      rfl
    · intro d _ tunnel
      cases d <;> rfl
    · intro tunnel he
      exact he

theorem agentGone_frame (free : Debt → Nat → Prop) (cfg : LinkConfig) (now : Nat) (l : Link) (k : Nat) (t : Option String) :
    Frame free (l.sockets.delete k) l (agentGone cfg now l k t).1 := by
  cases t with
  | none => exact ⟨TunnelRegistry.Touches.refl _, rfl, rfl, rfl, Nat.le_refl _⟩
  | some t =>
    exact ⟨(l.registry.get_touches t now).trans (TunnelRegistry.Touch.drop _ t .agentGone).touches,
      rfl, rfl, rfl, Nat.le_refl _⟩

theorem browserGone_frame (free : Debt → Nat → Prop) (now : Nat) (l : Link) (k : Nat) (t sid : String) :
    Frame free (l.sockets.delete k) l (browserGone now l k t sid).1 := by
  have hget : l.registry.Touches free (l.registry.get t now).1 := l.registry.get_touches t now
  unfold browserGone
  rcases hg : l.registry.get t now with ⟨reg, _ | ⟨r, tunnel⟩, out⟩
  · rw [hg] at hget
    exact ⟨hget, rfl, rfl, rfl, Nat.le_refl _⟩
  · rw [hg] at hget
    exact ⟨hget.trans (reg.closeStream_touches r sid _), rfl, rfl, rfl, Nat.le_refl _⟩

theorem requestGone_frame (free : Debt → Nat → Prop) (l : Link) (k : Nat) (requestId : String) :
    Frame free (l.sockets.delete k) l (requestGone l k requestId) := by
  have hs := dropRequest_same { l with sockets := l.sockets.delete k } requestId
  exact { hs with registry := by rw [requestGone, hs.registry]; exact TunnelRegistry.Touches.refl _, drawn := Nat.le_of_eq hs.drawn.symm }

/-- The registration an owner's answer may charge to an account. -/
def Resolved (l : Link) (r : Nat) (owner : Option String) (d : Debt) (i : Nat) : Prop :=
  d = .owner ∧ i = r ∧ l.meters.get r = some .owner ∧ owner ≠ none

theorem ownerAnswer_frame (l : Link) (r : Nat) (owner : Option String) :
    l.registry.Touches (Resolved l r owner) (ownerAnswer l r owner).registry ∧
      (ownerAnswer l r owner).sockets = l.sockets ∧ (ownerAnswer l r owner).nextSocket = l.nextSocket ∧
      (ownerAnswer l r owner).drawn = l.drawn ∧
      ∀ {i stage}, (ownerAnswer l r owner).meters.get i = some stage →
        (∃ stage', l.meters.get i = some stage') ∧ (stage = .owner → l.meters.get i = some .owner ∧ i ≠ r) := by
  have hrefl : ∀ {free : Debt → Nat → Prop}, l.registry.Touches free l.registry :=
    TunnelRegistry.Touches.refl l.registry
  unfold ownerAnswer
  split
  · refine ⟨hrefl, rfl, rfl, rfl, fun {i stage} hi => ?_⟩
    rw [get_delete] at hi
    split at hi
    · cases hi
    · next hne => exact ⟨⟨stage, hi⟩, fun howner => ⟨howner ▸ hi, hne⟩⟩
  · next hr =>
    refine ⟨TunnelRegistry.Touch.touches (.rewrite _ r _ ?_ ?_ ?_), rfl, rfl, rfl, fun {i stage} hi => ?_⟩
    · intro tunnel
      rfl
    · intro d hfree tunnel
      cases d with
      | bytes => rfl
      | owner => exact absurd ⟨rfl, rfl, hr, by simp⟩ hfree
    · intro tunnel he
      exact he
    · rw [get_set] at hi
      split at hi
      · next he =>
        cases hi
        exact ⟨⟨_, he ▸ hr⟩, fun howner => nomatch howner⟩
      · next hne => exact ⟨⟨stage, hi⟩, fun howner => ⟨howner ▸ hi, hne⟩⟩
  · next hnone hsome =>
    refine ⟨hrefl, rfl, rfl, rfl, fun {i stage} hi => ⟨⟨stage, hi⟩, ?_⟩⟩
    rintro rfl
    refine ⟨hi, ?_⟩
    rintro rfl
    exact hnone hi (Option.eq_none_iff_forall_ne_some.2 fun u => hsome u hi)

theorem attachTunnelSocket_cases (free : Debt → Nat → Prop) (cfg : LinkConfig) (now : Nat) (l : Link) (t : String) :
    (l.registry.Touches free (attachTunnelSocket cfg now l t).1.registry ∧
      (attachTunnelSocket cfg now l t).1.sockets = l.sockets ∧
      (attachTunnelSocket cfg now l t).1.nextSocket = l.nextSocket + 1 ∧
      (attachTunnelSocket cfg now l t).1.meters = l.meters ∧ (attachTunnelSocket cfg now l t).1.drawn = l.drawn) ∨
    ∃ r, ∃ tunnel : Tunnel, l.registry.tunnels.get t = some r ∧
      l.registry.objs[r]? = some tunnel ∧ now < tunnel.expiresAt ∧
      (attachTunnelSocket cfg now l t).1 = { l with
        registry := (l.registry.openStream cfg.quotas r ("str-" ++ cfg.rnd l.drawn)
          l.nextSocket now).1
        sockets := l.sockets.set l.nextSocket (.browser t r ("str-" ++ cfg.rnd l.drawn))
        nextSocket := l.nextSocket + 1
        drawn := l.drawn + 1 } := by
  have hget : l.registry.Touches free (l.registry.get t now).1 := l.registry.get_touches t now
  unfold attachTunnelSocket
  rcases hg : l.registry.get t now with ⟨reg, _ | ⟨r, tunnel⟩, out⟩
  · rw [hg] at hget
    exact Or.inl ⟨hget, rfl, rfl, rfl, rfl⟩
  · rw [hg] at hget
    obtain ⟨rfl, -, hcur, hobj, hx⟩ := get_some hg
    dsimp only
    rcases hop : l.registry.openStream cfg.quotas r ("str-" ++ cfg.rnd l.drawn) l.nextSocket now with
      ⟨reg', _ | _, out'⟩
    · exact Or.inl ⟨hget, rfl, rfl, rfl, rfl⟩
    · exact Or.inr ⟨r, tunnel, hcur, hobj, hx, by rw [hop]⟩

theorem attachRequestSocket_cases (now : Nat) (l : Link) (requestId : String) :
    (attachRequestSocket now l requestId).1.registry = l.registry ∧
      (attachRequestSocket now l requestId).1.nextSocket = l.nextSocket + 1 ∧
      (attachRequestSocket now l requestId).1.meters = l.meters ∧
      (attachRequestSocket now l requestId).1.drawn = l.drawn ∧
      ((attachRequestSocket now l requestId).1.sockets = l.sockets ∨ (attachRequestSocket now l requestId).1.sockets =
          l.sockets.set l.nextSocket (.request requestId)) := by
  have hlive := liveRequest_same now { l with nextSocket := l.nextSocket + 1 } requestId
  unfold attachRequestSocket
  dsimp only
  split
  · next he =>
    rw [he] at hlive
    exact ⟨hlive.registry, hlive.nextSocket, hlive.meters, hlive.drawn, Or.inl hlive.sockets⟩
  · next l₁ request he =>
    rw [he] at hlive
    split
    · exact ⟨hlive.registry, hlive.nextSocket, hlive.meters, hlive.drawn, Or.inl hlive.sockets⟩
    · exact ⟨hlive.registry, hlive.nextSocket, hlive.meters, hlive.drawn, Or.inr (by rw [← hlive.sockets])⟩

theorem checkAnswer_frame (free : Debt → Nat → Prop) (l : Link) (r : Nat) (allowed : Bool) (reason : Option String) :
    l.registry.Touches free (checkAnswer l r allowed reason).1.registry ∧
      (checkAnswer l r allowed reason).1.sockets = l.sockets ∧
      (checkAnswer l r allowed reason).1.nextSocket = l.nextSocket ∧
      (∀ {i stage}, (checkAnswer l r allowed reason).1.meters.get i = some stage → l.meters.get i = some stage) ∧
      l.drawn ≤ (checkAnswer l r allowed reason).1.drawn := by
  have hrefl : l.registry.Touches free l.registry := TunnelRegistry.Touches.refl l.registry
  have hdel : ∀ {i stage}, (l.meters.delete r).get i = some stage → l.meters.get i = some stage := by
    intro i stage hi
    exact get_of_delete hi
  unfold checkAnswer
  split
  · dsimp only
    split
    · exact ⟨hrefl, rfl, rfl, hdel, Nat.le_refl _⟩
    · obtain ⟨h1, h2, h3, h4, h5⟩ := block_frame free { l with meters := l.meters.delete r } r
        (reason.getD "Plan limit reached")
      exact ⟨h1, h2, h3, fun hi => hdel (by rw [h4] at hi; exact hi), h5⟩
  · exact ⟨hrefl, rfl, rfl, fun hi => hi, Nat.le_refl _⟩

theorem Inv.frame (h : Inv l) (hf : Frame free l.sockets l l') : Inv l' :=
  h.next hf.registry.quiet hf.sockets (Nat.le_of_eq hf.nextSocket.symm)
    fun {_ stage} hr => ⟨stage, by rw [← hf.meters, hr]⟩

theorem Inv.gone (h : Inv l) {k : Nat} (hf : Frame free (l.sockets.delete k) l l') : Inv l' := by
  refine (h.deleteSocket k).next hf.registry.quiet hf.sockets (Nat.le_of_eq hf.nextSocket.symm) ?_
  intro r stage hr
  exact ⟨stage, by rw [← hf.meters, hr]⟩

def Charged (l : Link) : LinkEvent → Debt → Nat → Prop
  | .message k raw => fun d i =>
    match l.sockets.get k with
    | some (.agent _ (some t)) => ∃ msg, raw = .tunnel msg ∧ Served l t msg d i
    | some (.browser _ r sid) => Sent r sid raw d i
    | _ => False
  | .ownerAnswer r owner => Resolved l r owner
  | _ => fun _ _ => False

/-- What one event does to the tunnels, the sockets and the metering. -/
inductive Turn (cfg : LinkConfig) (l : Link) : LinkEvent → Link → Prop
  | framed {e : LinkEvent} {l' : Link} (frame : Frame (Charged l e) l.sockets l l')
      (silent : ∀ r owner, e ≠ .ownerAnswer r owner) : Turn cfg l e l'
  | gone {k : Nat} {l' : Link} (frame : Frame (fun _ _ => False) (l.sockets.delete k) l l') : Turn cfg l (.close k) l'
  | attached {e : LinkEvent} {l' : Link} {x : LinkHandle}
      (valid : Inv l → l.registry.Touches (Charged l e) l'.registry ∧
        ∀ t r sid, x = .browser t r sid → ∃ tunnel : Tunnel, l.registry.objs[r]? = some tunnel ∧ tunnel.id = t)
      (sockets : l'.sockets = l.sockets ∨ l'.sockets = l.sockets.set l.nextSocket x)
      (nextSocket : l'.nextSocket = l.nextSocket + 1) (meters : l'.meters = l.meters) (drawn : l.drawn ≤ l'.drawn)
      (agent : ∀ challenge t, x ≠ .agent challenge (some t)) (request : ∀ id, x = .request id → e = .attachRequest id)
      (silent : ∀ r owner, e ≠ .ownerAnswer r owner) : Turn cfg l e l'
  | registered {raw : LinkFrame} {challenge : String} {reg₀ : TunnelRegistry} {tunnel : Tunnel} {epoch : Nat}
      {meters : OrderedMap Nat MeterStage} (socket : l.sockets.get tunnel.agent = some (.agent challenge none))
      (touches : ∀ free, l.registry.Touches free reg₀) (user : tunnel.userId = none)
      (free : l.registry.Wf cfg.mac → reg₀.byDeviceId.get tunnel.deviceId = none)
      (id : tunnel.id = deriveTunnelId cfg.mac tunnel.deviceId epoch)
      (metered : ∀ {r stage}, meters.get r = some stage → r = reg₀.objs.length ∨ l.meters.get r = some stage) :
      Turn cfg l (.message tunnel.agent raw) { l with
        registry := reg₀.install tunnel
        sockets := l.sockets.set tunnel.agent (.agent challenge (some tunnel.id))
        meters := meters }
  | metered {e : LinkEvent} {l' : Link} (registry : l.registry.Touches (Charged l e) l'.registry)
      (sockets : l'.sockets = l.sockets) (nextSocket : l'.nextSocket = l.nextSocket) (drawn : l.drawn ≤ l'.drawn)
      (meters : ∀ {r stage}, l'.meters.get r = some stage → (∃ stage', l.meters.get r = some stage') ∧
        (stage = .owner → l.meters.get r = some .owner ∧ ∀ u, e ≠ .ownerAnswer r (some u))) : Turn cfg l e l'

theorem step_turn (cfg : LinkConfig) (now : Nat) (l : Link) (e : LinkEvent) : Turn cfg l e (step cfg now l e).1 := by
  cases e with
  | pairRequest deviceId deviceLabel accountEmail =>
    exact .framed (pairRequest_frame _ cfg now l deviceId deviceLabel accountEmail) (by simp)
  | attachAgent =>
    exact .attached (x := .agent (cfg.rnd l.drawn) none) (fun _ => ⟨TunnelRegistry.Touches.refl _, by simp⟩) (.inr rfl) rfl rfl
      (Nat.le_succ _) (by simp) (by simp) (by simp)
  | attachRequest requestId =>
    obtain ⟨hr, hn, hm, hd, hs⟩ := attachRequestSocket_cases now l requestId
    refine .attached (fun _ => ⟨?_, by simp⟩) hs hn hm (Nat.le_of_eq hd.symm) (by simp) (by simp) (by simp)
    simp only [step]
    rw [hr]
    exact TunnelRegistry.Touches.refl _
  | attachTunnel t =>
    rcases attachTunnelSocket_cases (Charged l (.attachTunnel t)) cfg now l t with
      ⟨ht, hs, hn, hm, hd⟩ | ⟨r, tunnel, hcur, hobj, -, he⟩
    · exact .attached (x := .agent "" none) (fun _ => ⟨ht, by simp⟩) (.inl hs) hn hm (Nat.le_of_eq hd.symm) (by simp)
        (by simp) (by simp)
    · have hid : Inv l → tunnel.id = t := by
        intro h
        obtain ⟨tunnel', hobj', hid⟩ := h.mapped hcur
        rw [hobj] at hobj'
        cases hobj'
        exact hid
      simp only [step]
      rw [he]
      refine .attached (x := .browser t r ("str-" ++ cfg.rnd l.drawn)) (fun h => ⟨?_, ?_⟩) (.inr rfl) rfl rfl
        (Nat.le_succ _) (by simp) (by simp) (by simp)
      · exact openStream_touches hobj (by rw [hid h]; exact hcur)
      · rintro t' r' sid ⟨⟩
        exact ⟨tunnel, hobj, hid h⟩
  | message k raw =>
    simp only [step]
    split
    · exact .framed (.refl l) (by simp)
    · next challenge t hk =>
      unfold agentMessage
      split
      · next msg =>
        rcases agentRegister_cases cfg now l k challenge msg with ⟨why, he⟩ |
          ⟨d, pk, ans, sig, reg₀, tunnel, out, -, -, -, -, ht, hfree, -, rfl, ⟨epoch, hid⟩, rfl, -, -, hu, -, he⟩
        · rw [he]
          exact .framed (.refl l) (by simp)
        · rw [he]
          refine .registered hk ht hu hfree hid fun {r stage} hr => ?_
          split at hr
          · rw [get_set] at hr
            split at hr
            · next heq => exact .inl heq
            · exact .inr hr
          · exact .inr hr
      · next msg t =>
        have hframe := agentServe_frame cfg now l k t msg
        refine .framed { hframe with registry := hframe.registry.mono fun d i hi => ?_ } (by simp)
        simp only [Charged, hk]
        exact ⟨msg, rfl, hi⟩
      · exact .framed (.refl l) (by simp)
    · next requestId _ => exact .framed (requestMessage_frame _ now l k requestId raw) (by simp)
    · next t r sid hk =>
      have hframe := browserMessage_frame cfg l k r sid raw
      refine .framed { hframe with registry := hframe.registry.mono fun d i hi => ?_ } (by simp)
      simp only [Charged, hk]
      exact hi
  | close k =>
    simp only [step]
    split
    · exact .framed (.refl l) (by simp)
    · next t _ => exact .gone (agentGone_frame _ cfg now l k t)
    · next requestId _ => exact .gone (requestGone_frame _ l k requestId)
    · next t r sid _ => exact .gone (browserGone_frame _ now l k t sid)
  | ownerAnswer r owner =>
    obtain ⟨h1, h2, h3, h4, h5⟩ := ownerAnswer_frame l r owner
    refine .metered h1 h2 h3 (Nat.le_of_eq h4.symm) fun hi => ⟨(h5 hi).1, fun howner => ⟨((h5 hi).2 howner).1, ?_⟩⟩
    rintro u ⟨⟩
    exact ((h5 hi).2 howner).2 rfl
  | checkAnswer r allowed reason =>
    obtain ⟨h1, h2, h3, h4, h5⟩ := checkAnswer_frame _ l r allowed reason
    exact .metered h1 h2 h3 h5 fun {_ stage} hi => ⟨⟨stage, h4 hi⟩, fun howner => ⟨howner ▸ h4 hi, by simp⟩⟩
  | meterFailed r =>
    refine .metered (TunnelRegistry.Touches.refl _) rfl rfl (Nat.le_refl _) fun {i stage} hi => ?_
    simp only [step, get_delete] at hi
    split at hi
    · cases hi
    · exact ⟨⟨stage, hi⟩, fun howner => ⟨howner ▸ hi, by simp⟩⟩
  | revoke t =>
    exact .framed ⟨(TunnelRegistry.Touch.drop l.registry t .revoked).touches, rfl, rfl, rfl, Nat.le_refl _⟩ (by simp)

theorem step_inv (h : Inv l) (e : LinkEvent) : Inv (step cfg now l e).1 := by
  have hturn := step_turn cfg now l e
  generalize (step cfg now l e).1 = l' at hturn ⊢
  cases hturn with
  | framed frame => exact h.frame frame
  | gone frame => exact h.gone frame
  | attached valid sockets nextSocket meters drawn agent =>
    obtain ⟨ht, hb⟩ := valid h
    rcases sockets with hs | hs
    · exact h.next ht.quiet hs (by omega) fun {_ stage} hi => ⟨stage, by rw [← meters]; exact hi⟩
    · exact (h.addSocket agent hb).next ht.quiet hs (Nat.le_of_eq nextSocket.symm)
        fun {_ stage} hi => ⟨stage, by rw [← meters]; exact hi⟩
  | registered socket touches user free id metered =>
    exact h.register socket (touches fun _ _ => False).quiet rfl fun hr => (metered hr).imp_right fun hold => ⟨_, hold⟩
  | metered registry sockets nextSocket drawn meters =>
    exact h.next registry.quiet sockets (Nat.le_of_eq nextSocket.symm) fun hi => (meters hi).1

theorem step_registry (h : Inv l) (e : LinkEvent) : l.registry.Touches (Charged l e) (step cfg now l e).1.registry ∨
    ∃ (reg₀ : TunnelRegistry) (tunnel : Tunnel) (epoch : Nat), (∀ free, l.registry.Touches free reg₀) ∧
      tunnel.userId = none ∧ l.sockets.get tunnel.agent ≠ none ∧ (∃ raw, e = .message tunnel.agent raw) ∧
      (l.registry.Wf cfg.mac → reg₀.byDeviceId.get tunnel.deviceId = none) ∧
      tunnel.id = deriveTunnelId cfg.mac tunnel.deviceId epoch ∧
      (step cfg now l e).1.registry = reg₀.install tunnel := by
  have hturn := step_turn cfg now l e
  generalize (step cfg now l e).1 = l' at hturn ⊢
  cases hturn with
  | framed frame => exact .inl frame.registry
  | gone frame => exact .inl frame.registry
  | attached valid => exact .inl (valid h).1
  | metered registry => exact .inl registry
  | @registered raw challenge reg₀ tunnel epoch meters socket touches user free id metered =>
    exact .inr ⟨reg₀, tunnel, epoch, touches, user, by rw [socket]; simp, ⟨raw, rfl⟩, free, id, rfl⟩

theorem step_wf (hmac : Function.Injective cfg.mac) (h : Inv l) (hw : l.registry.Wf cfg.mac)
    (e : LinkEvent) : (step cfg now l e).1.registry.Wf cfg.mac := by
  rcases step_registry h e with ht | ⟨reg₀, tunnel, epoch, ht, -, -, -, hfree, hid, he⟩
  · exact hw.touches ht
  · rw [he]
    exact (hw.touches (ht fun _ _ => False)).install hmac hid (hfree hw)

theorem sweep_frame (free : Debt → Nat → Prop) (now : Nat) (l : Link) :
    Frame free l.sockets l (sweepTunnels now (sweepRequests now l)).1 := by
  have hs := sweepRequests_same now l
  refine { hs with registry := ?_, drawn := Nat.le_of_eq hs.drawn.symm }
  simp only [sweepTunnels, TunnelRegistry.sweep]
  rw [hs.registry]
  exact sweepIds_touches now _ _

end Link
end Mtmux.Broker
