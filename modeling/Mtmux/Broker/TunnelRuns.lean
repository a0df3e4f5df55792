import Mathlib.Data.List.Induction
import Mtmux.Base.Text
import Mtmux.Broker.RegistryInvariant

/-! Any run of the tunnel registry's operations. A caller may keep a tunnel that the
registry has let go of, so a stream is opened or charged on any registration ever made. -/
namespace Mtmux.Broker
open Protocol OrderedMap List
namespace TunnelRegistry

inductive RegistryOp where
  | register (deviceId publicKey : String) (agent now : Nat)
  | get (tunnelId : String) (now : Nat)
  | byDevice (deviceId : String) (now : Nat)
  | close (tunnelId : String) (reason : TunnelClosedReason)
  | openStream (r : Nat) (id : String) (browser now : Nat)
  | closeStream (r : Nat) (streamId : String) (reason : Option String)
  | charge (r bytes : Nat)
  | sweep (now : Nat)
  deriving DecidableEq

/-- The registry, and the lengths that were charged in time to be forwarded. -/
structure RegistryRun where
  reg : TunnelRegistry
  forwarded : List (Nat × Nat)

def RegistryRun.total (run : RegistryRun) (r : Nat) : Nat :=
  ((run.forwarded.filter (·.1 = r)).map Prod.snd).sum

section
variable (quotas : Quotas) (mac : String → String)

def RegistryRun.perform (run : RegistryRun) : RegistryOp → RegistryRun
  | .register deviceId publicKey agent now =>
    { run with reg := (run.reg.register quotas mac deviceId publicKey agent now).1 }
  | .get tunnelId now => { run with reg := (run.reg.get tunnelId now).1 }
  | .byDevice deviceId now => { run with reg := (run.reg.byDevice deviceId now).1 }
  | .close tunnelId reason => { run with reg := (run.reg.drop tunnelId reason).1 }
  | .openStream r id browser now =>
    { run with reg := (run.reg.openStream quotas r id browser now).1 }
  | .closeStream r streamId reason => { run with reg := (run.reg.closeStream r streamId reason).1 }
  | .charge r bytes =>
    { reg := (run.reg.charge quotas r bytes).1
      forwarded :=
        if (run.reg.charge quotas r bytes).2.1 then run.forwarded ++ [(r, bytes)]
        else run.forwarded }
  | .sweep now => { run with reg := (run.reg.sweep now).1 }

def RegistryRun.performAll (run : RegistryRun) (ops : List RegistryOp) : RegistryRun :=
  ops.foldl (RegistryRun.perform quotas mac) run

def runFrom (ops : List RegistryOp) : RegistryRun :=
  RegistryRun.performAll quotas mac ⟨create, []⟩ ops

end

def epochOf (reg : TunnelRegistry) (deviceId : String) : Nat := (reg.epochs.get deviceId).getD 0

def nextId (mac : String → String) (reg : TunnelRegistry) (deviceId : String) : String :=
  deriveTunnelId mac deviceId (reg.epochOf deviceId)

/-- Derived ids tell device and epoch. -/
structure IdsApart (mac : String → String) : Prop where
  derive : ∀ {d d' : String} {e e' : Nat},
    deriveTunnelId mac d e = deriveTunnelId mac d' e' → d = d' ∧ e = e'

/-- The map and the device index agree, and what is current has the current epoch's id. -/
structure Agreed (mac : String → String) (reg : TunnelRegistry) : Prop where
  mapped : ∀ {t : String} {r : Nat}, reg.tunnels.get t = some r →
    ∃ tunnel : Tunnel, reg.objs[r]? = some tunnel ∧ tunnel.id = t ∧
      reg.byDeviceId.get tunnel.deviceId = some t
  device : ∀ {d t : String}, reg.byDeviceId.get d = some t →
    t = reg.nextId mac d ∧ ∃ (r : Nat) (tunnel : Tunnel), reg.tunnels.get t = some r ∧
      reg.objs[r]? = some tunnel ∧ tunnel.deviceId = d
  given : ∀ {r : Nat} {tunnel : Tunnel}, reg.objs[r]? = some tunnel →
    ∃ e ≤ reg.epochOf tunnel.deviceId, tunnel.id = deriveTunnelId mac tunnel.deviceId e

structure Ages (reg reg' : TunnelRegistry) : Prop where
  objs : ∀ {r : Nat} {tunnel : Tunnel}, reg.objs[r]? = some tunnel →
    ∃ tunnel' : Tunnel, reg'.objs[r]? = some tunnel' ∧ tunnel'.core = tunnel.core ∧
      tunnel.bytes ≤ tunnel'.bytes
  epochs : ∀ d, reg.epochOf d ≤ reg'.epochOf d

variable {reg reg' reg'' : TunnelRegistry} {mac : String → String} {quotas : Quotas}

theorem Ages.refl (reg : TunnelRegistry) : Ages reg reg :=
  ⟨fun h => ⟨_, h, rfl, Nat.le_refl _⟩, fun _ => Nat.le_refl _⟩

theorem Ages.trans (h : Ages reg reg') (h' : Ages reg' reg'') : Ages reg reg'' := by
  constructor
  · intro r tunnel hobj
    obtain ⟨tunnel', hobj', hcore, hbytes⟩ := h.objs hobj
    obtain ⟨tunnel'', hobj'', hcore', hbytes'⟩ := h'.objs hobj'
    exact ⟨tunnel'', hobj'', hcore'.trans hcore, Nat.le_trans hbytes hbytes'⟩
  · intro d
    exact Nat.le_trans (h.epochs d) (h'.epochs d)

theorem Agreed.toMapped (h : Agreed mac reg) : reg.Mapped := by
  intro t r ht
  obtain ⟨tunnel, hobj, hid, -⟩ := h.mapped ht
  exact ⟨tunnel, hobj, hid⟩

variable {tunnel : Tunnel}

theorem Agreed.current_id (h : Agreed mac reg) {t : String} {r : Nat} (hc : reg.current t = some (r, tunnel)) :
    tunnel.id = t ∧ t = reg.nextId mac tunnel.deviceId ∧ reg.byDeviceId.get tunnel.deviceId = some t := by
  obtain ⟨ht, hobj⟩ := current_eq_some.1 hc
  obtain ⟨tunnel', hobj', hid, hdev⟩ := h.mapped ht
  rw [hobj] at hobj'
  cases hobj'
  exact ⟨hid, (h.device hdev).1, hdev⟩

theorem Agreed.drop_cases (h : Agreed mac reg) (t : String) (reason : TunnelClosedReason) :
    reg.current t = none ∧ (reg.drop t reason).1 = reg ∨
    ∃ r tunnel, reg.current t = some (r, tunnel) ∧ (reg.drop t reason).1 =
      { objs := reg.objs.modify r fun tunnel => { tunnel with streams := OrderedMap.empty }
        tunnels := reg.tunnels.delete t
        byDeviceId := reg.byDeviceId.delete tunnel.deviceId
        epochs :=
          if reason = .revoked then
            reg.epochs.set tunnel.deviceId (reg.epochOf tunnel.deviceId + 1)
          else reg.epochs } := by
  unfold drop
  cases hc : reg.current t with
  | none => exact Or.inl ⟨rfl, rfl⟩
  | some found =>
    obtain ⟨r, tunnel⟩ := found
    refine Or.inr ⟨r, tunnel, rfl, ?_⟩
    simp only [if_pos (h.current_id hc).2.2]
    rfl

def holder (reg : TunnelRegistry) (t : String) : Option String :=
  (reg.current t).map fun found => found.2.deviceId

section
variable (h : Agreed mac reg)
include h

theorem Agreed.epochOf_drop (t : String) (reason : TunnelClosedReason)
    (d : String) :
    (reg.drop t reason).1.epochOf d =
      if reason = .revoked ∧ reg.holder t = some d then reg.epochOf d + 1 else reg.epochOf d := by
  cases h.drop_cases t reason with
  | inl hnone =>
    rw [hnone.2, holder, hnone.1, if_neg]
    rintro ⟨-, hholder⟩
    cases hholder
  | inr hsome =>
    obtain ⟨r, tunnel, hc, heq⟩ := hsome
    rw [heq, epochOf, holder, hc, Option.map_some]
    by_cases hreason : reason = .revoked
    · rw [if_pos hreason, get_set]
      by_cases hd : d = tunnel.deviceId
      · rw [if_pos hd, if_pos ⟨hreason, congrArg some hd.symm⟩, hd]
        rfl
      · rw [if_neg hd, if_neg fun hboth => hd (Option.some.inj hboth.2).symm]
        rfl
    · rw [if_neg hreason, if_neg fun hboth => hreason hboth.1]
      rfl

theorem Agreed.drop_ages (t : String) (reason : TunnelClosedReason) :
    Ages reg (reg.drop t reason).1 := by
  constructor
  · intro r tunnel hobj
    have hsame := (drop_spec reg h.toMapped t reason).2 r
    rw [hobj] at hsame
    split at hsame
    · exact ⟨_, hsame, rfl, Nat.le_refl _⟩
    · exact ⟨_, hsame, rfl, Nat.le_refl _⟩
  · intro d
    rw [h.epochOf_drop]
    split
    · exact Nat.le_succ _
    · exact Nat.le_refl _

theorem Agreed.drop (t : String) (reason : TunnelClosedReason) :
    Agreed mac (reg.drop t reason).1 := by
  have hages := h.drop_ages t reason
  have hquiet := drop_quiet reg t reason
  have hepoch := h.epochOf_drop t reason
  cases h.drop_cases t reason with
  | inl hnone =>
    rw [hnone.2]
    exact h
  | inr hsome =>
    obtain ⟨r, tunnel, hc, heq⟩ := hsome
    obtain ⟨hid, hnext, hindex⟩ := h.current_id hc
    have htunnels : (reg.drop t reason).1.tunnels = reg.tunnels.delete t := by rw [heq]
    have hdevices : (reg.drop t reason).1.byDeviceId = reg.byDeviceId.delete tunnel.deviceId := by
      rw [heq]
    -- another device's id is another one
    have hother : ∀ {d a : String}, d ≠ tunnel.deviceId → reg.byDeviceId.get d = some a → a ≠ t := by
      intro d a hd ha hat
      obtain ⟨-, i, other, hcur, hobj, hdev⟩ := h.device ha
      rw [hat] at hcur
      obtain ⟨ht, hobj'⟩ := current_eq_some.1 hc
      rw [ht] at hcur
      cases hcur
      rw [hobj'] at hobj
      cases hobj
      exact hd hdev.symm
    refine ⟨?_, ?_, ?_⟩
    · intro a i ha
      rw [htunnels, get_delete] at ha
      split at ha
      · cases ha
      · rename_i hne
        obtain ⟨other, hobj, hoid, hdev⟩ := h.mapped ha
        obtain ⟨other', hobj', hcore, -⟩ := hages.objs hobj
        obtain ⟨hid', hdev', -⟩ := Tunnel.core_eq hcore
        refine ⟨other', hobj', hid'.trans hoid, ?_⟩
        have hd : other.deviceId ≠ tunnel.deviceId := by
          intro hsame
          rw [hsame, hindex] at hdev
          exact hne (Option.some.inj hdev).symm
        rw [hdevices, get_delete, hdev', if_neg hd, hdev]
    · intro d a ha
      rw [hdevices, get_delete] at ha
      split at ha
      · cases ha
      · rename_i hd
        obtain ⟨hnext', i, other, hcur, hobj, hdev⟩ := h.device ha
        obtain ⟨other', hobj', hcore, -⟩ := hages.objs hobj
        have hkept : (reg.drop t reason).1.epochOf d = reg.epochOf d := by
          rw [hepoch, if_neg]
          rintro ⟨-, hholder⟩
          rw [holder, hc] at hholder
          exact hd (Option.some.inj hholder).symm
        refine ⟨?_, i, other', ?_, hobj', (Tunnel.core_eq hcore).2.1.trans hdev⟩
        · rw [nextId, hkept]
          exact hnext'
        · rw [htunnels, get_delete, if_neg (hother hd ha), hcur]
    · intro i other' hobj'
      obtain ⟨other, hobj, hcore⟩ := hquiet.back hobj'
      obtain ⟨hid', hdev', -⟩ := Tunnel.core_eq hcore
      obtain ⟨e, he, hder⟩ := h.given hobj
      rw [← hid', ← hdev']
      exact ⟨e, Nat.le_trans he (hages.epochs _), hder⟩

/-- A change of streams and bytes. -/
theorem Agreed.update (r : Nat) {f : Tunnel → Tunnel}
    (hf : ∀ tunnel, (f tunnel).core = tunnel.core) (hbytes : ∀ tunnel, tunnel.bytes ≤ (f tunnel).bytes) :
    Agreed mac (reg.update r f) ∧ Ages reg (reg.update r f) := by
  have hquiet : Quiet reg (reg.update r f) := update_quiet reg r hf
  have hages : Ages reg (reg.update r f) := by
    refine ⟨?_, fun _ => Nat.le_refl _⟩
    intro i tunnel hobj
    have hget := objs_update reg r i f
    rw [hobj] at hget
    split at hget
    · exact ⟨_, hget, hf tunnel, hbytes tunnel⟩
    · exact ⟨_, hget, rfl, Nat.le_refl _⟩
  refine ⟨⟨?_, ?_, ?_⟩, hages⟩
  · intro t i ht
    obtain ⟨tunnel, hobj, hid, hdev⟩ := h.mapped ht
    obtain ⟨tunnel', hobj', hcore, -⟩ := hages.objs hobj
    obtain ⟨hid', hdev', -⟩ := Tunnel.core_eq hcore
    exact ⟨tunnel', hobj', hid'.trans hid, hdev'.symm ▸ hdev⟩
  · intro d t ht
    obtain ⟨hnext, i, tunnel, hcur, hobj, hdev⟩ := h.device ht
    obtain ⟨tunnel', hobj', hcore, -⟩ := hages.objs hobj
    exact ⟨hnext, i, tunnel', hcur, hobj', (Tunnel.core_eq hcore).2.1.trans hdev⟩
  · intro i tunnel' hobj'
    obtain ⟨tunnel, hobj, hcore⟩ := hquiet.back hobj'
    obtain ⟨hid', hdev', -⟩ := Tunnel.core_eq hcore
    obtain ⟨e, he, hder⟩ := h.given hobj
    rw [← hid', ← hdev']
    exact ⟨e, he, hder⟩

theorem Agreed.install (hmac : IdsApart mac) (hid : tunnel.id = reg.nextId mac tunnel.deviceId)
    (hfree : reg.byDeviceId.get tunnel.deviceId = none) :
    Agreed mac (reg.install tunnel) ∧ Ages reg (reg.install tunnel) := by
  have hlt : ∀ {i : Nat} {other : Tunnel}, reg.objs[i]? = some other → i < reg.objs.length :=
    fun hobj => (List.getElem?_eq_some_iff.1 hobj).1
  have hold : ∀ {i : Nat} {other : Tunnel}, reg.objs[i]? = some other →
      (reg.install tunnel).objs[i]? = some other := by
    intro i other hobj
    rw [objs_install, if_neg (Nat.ne_of_lt (hlt hobj)), hobj]
  have hnew : (reg.install tunnel).objs[reg.objs.length]? = some tunnel := by
    rw [objs_install, if_pos rfl]
  -- no device that has a tunnel is this one, so no current id is the new one
  have hapart : ∀ {d t : String}, reg.byDeviceId.get d = some t →
      d ≠ tunnel.deviceId ∧ t ≠ tunnel.id := by
    intro d t ht
    have hd : d ≠ tunnel.deviceId := by
      intro hsame
      rw [hsame, hfree] at ht
      cases ht
    refine ⟨hd, ?_⟩
    intro hsame
    rw [(h.device ht).1, hid] at hsame
    exact hd (hmac.derive hsame).1
  refine ⟨⟨?_, ?_, ?_⟩, ⟨fun hobj => ⟨_, hold hobj, rfl, Nat.le_refl _⟩, fun _ => Nat.le_refl _⟩⟩
  · intro t i ht
    simp only [TunnelRegistry.install, get_set] at ht
    split at ht
    · rename_i heq
      cases ht
      refine ⟨tunnel, hnew, heq.symm, ?_⟩
      simp only [TunnelRegistry.install, get_set, if_true, heq]
    · obtain ⟨other, hobj, hoid, hdev⟩ := h.mapped ht
      refine ⟨other, hold hobj, hoid, ?_⟩
      simp only [TunnelRegistry.install, get_set, if_neg (hapart hdev).1]
      exact hdev
  · intro d t ht
    simp only [TunnelRegistry.install, get_set] at ht
    split at ht
    · rename_i heq
      cases ht
      refine ⟨by rw [heq]; exact hid, reg.objs.length, tunnel, ?_, hnew, heq.symm⟩
      simp only [TunnelRegistry.install, get_set, if_true]
    · obtain ⟨hnext, i, other, hcur, hobj, hdev⟩ := h.device ht
      refine ⟨hnext, i, other, ?_, hold hobj, hdev⟩
      simp only [TunnelRegistry.install, get_set, if_neg (hapart ht).2]
      exact hcur
  · intro i other hobj
    rw [objs_install] at hobj
    split at hobj
    · cases hobj
      exact ⟨reg.epochOf tunnel.deviceId, Nat.le_refl _, hid⟩
    · exact h.given hobj

end

structure Sane (quotas : Quotas) (mac : String → String) (reg : TunnelRegistry) : Prop where
  agreed : Agreed mac reg
  room : ∀ {r : Nat} {tunnel : Tunnel}, reg.objs[r]? = some tunnel →
    tunnel.streams.size ≤ quotas.maxStreams

/-- An operation that moves no epoch. -/
structure Calm (quotas : Quotas) (mac : String → String) (reg reg' : TunnelRegistry) : Prop where
  sane : Sane quotas mac reg'
  ages : Ages reg reg'
  same : ∀ d, reg'.epochOf d = reg.epochOf d

theorem Sane.calm (h : Sane quotas mac reg) : Calm quotas mac reg reg :=
  ⟨h, Ages.refl reg, fun _ => rfl⟩

theorem Calm.trans (h : Calm quotas mac reg reg') (h' : Calm quotas mac reg' reg'') : Calm quotas mac reg reg'' :=
  ⟨h'.sane, h.ages.trans h'.ages, fun d => (h'.same d).trans (h.same d)⟩

section
variable (h : Sane quotas mac reg)
include h

theorem Sane.drop (t : String) (reason : TunnelClosedReason) :
    Sane quotas mac (reg.drop t reason).1 := by
  refine ⟨h.agreed.drop t reason, ?_⟩
  intro r tunnel hobj
  rw [(drop_spec reg h.agreed.toMapped t reason).2] at hobj
  split at hobj
  · obtain ⟨tunnel', -, rfl⟩ := Option.map_eq_some_iff.1 hobj
    exact Nat.zero_le _
  · exact h.room hobj

theorem Sane.drop_calm (t : String) {reason : TunnelClosedReason}
    (hreason : reason ≠ .revoked) : Calm quotas mac reg (reg.drop t reason).1 := by
  refine ⟨h.drop t reason, h.agreed.drop_ages t reason, ?_⟩
  intro d
  rw [h.agreed.epochOf_drop, if_neg fun hboth => hreason hboth.1]

theorem Sane.update (r : Nat) {f : Tunnel → Tunnel}
    (hcore : ∀ tunnel, (f tunnel).core = tunnel.core) (hbytes : ∀ tunnel, tunnel.bytes ≤ (f tunnel).bytes)
    (hroom : ∀ tunnel, reg.objs[r]? = some tunnel → (f tunnel).streams.size ≤ quotas.maxStreams) :
    Calm quotas mac reg (reg.update r f) := by
  obtain ⟨hagreed, hages⟩ := h.agreed.update r hcore hbytes
  refine ⟨⟨hagreed, ?_⟩, hages, fun _ => rfl⟩
  intro i tunnel hobj
  rw [objs_update] at hobj
  split at hobj
  · rename_i heq
    obtain ⟨tunnel', hobj', rfl⟩ := Option.map_eq_some_iff.1 hobj
    exact hroom tunnel' (heq ▸ hobj')
  · exact h.room hobj

theorem Sane.get (t : String) (now : Nat) : Calm quotas mac reg (reg.get t now).1 := by
  unfold TunnelRegistry.get
  split
  · exact h.calm
  · split
    · exact h.drop_calm t (by decide)
    · exact h.calm

theorem Sane.byDevice (d : String) (now : Nat) :
    Calm quotas mac reg (reg.byDevice d now).1 := by
  unfold TunnelRegistry.byDevice
  split
  · exact h.calm
  · exact h.get _ now

theorem Sane.sweepIds (now : Nat) (ids : List String) :
    Calm quotas mac reg (reg.sweepIds now ids).1 := by
  induction ids generalizing reg with
  | nil => exact h.calm
  | cons t ids ih =>
    have hget := h.get t now
    exact hget.trans (ih hget.sane)

theorem Sane.openStream (r : Nat) (id : String) (browser now : Nat) :
    Calm quotas mac reg (reg.openStream quotas r id browser now).1 := by
  unfold TunnelRegistry.openStream
  split
  · exact h.calm
  · rename_i tunnel hobj
    split
    · exact h.calm
    · split
      · exact h.calm
      · rename_i hfew
        refine h.update r (fun _ => rfl) (fun _ => Nat.le_refl _) ?_
        intro tunnel' hobj'
        rw [hobj] at hobj'
        cases hobj'
        have hle := tunnel.streams.size_set_le id ⟨id, now, some browser⟩
        exact Nat.le_trans hle (by omega)

theorem Sane.closeStream (r : Nat) (streamId : String)
    (reason : Option String) : Calm quotas mac reg (reg.closeStream r streamId reason).1 := by
  unfold TunnelRegistry.closeStream
  split
  · exact h.calm
  · split
    · exact h.calm
    · refine h.update r (fun _ => rfl) (fun _ => Nat.le_refl _) ?_
      intro tunnel hobj
      exact Nat.le_trans (tunnel.streams.size_delete_le streamId) (h.room hobj)

theorem Sane.addBytes (r bytes : Nat) : Calm quotas mac reg (reg.addBytes r bytes) := by
  refine h.update r (fun _ => rfl) (fun _ => Nat.le_add_right _ _) ?_
  intro tunnel hobj
  have hroom := h.room hobj
  exact hroom

theorem Sane.charge (r bytes : Nat) : Calm quotas mac reg (reg.charge quotas r bytes).1 := by
  have hadd := h.addBytes r bytes
  unfold TunnelRegistry.charge
  split
  · exact h.calm
  · split
    · exact hadd.trans (hadd.sane.drop_calm _ (by decide))
    · exact hadd

theorem Sane.install (hmac : IdsApart mac) (hid : tunnel.id = reg.nextId mac tunnel.deviceId)
    (hfree : reg.byDeviceId.get tunnel.deviceId = none)
    (hempty : tunnel.streams = OrderedMap.empty) : Calm quotas mac reg (reg.install tunnel) := by
  obtain ⟨hagreed, hages⟩ := h.agreed.install hmac hid hfree
  refine ⟨⟨hagreed, ?_⟩, hages, fun _ => rfl⟩
  intro i other hobj
  rw [objs_install] at hobj
  split at hobj
  · cases hobj
    rw [hempty]
    exact Nat.zero_le _
  · exact h.room hobj

end

def newTunnel (quotas : Quotas) (mac : String → String) (reg : TunnelRegistry)
    (d publicKey : String) (agent now : Nat) : Tunnel :=
  ⟨reg.nextId mac d, d, publicKey, now, now + quotas.maxMinutes * 60000, 0, none, none, agent,
    OrderedMap.empty⟩

theorem Sane.register_eq (h : Sane quotas mac reg) (d publicKey : String) (agent now : Nat) :
    ∃ mid out, Calm quotas mac reg mid ∧ mid.byDeviceId.get d = none ∧ reg.register quotas mac d publicKey agent now =
        (mid.install (newTunnel quotas mac mid d publicKey agent now),
          (mid.objs.length, newTunnel quotas mac mid d publicKey agent now), out) := by
  unfold TunnelRegistry.register
  cases hd : reg.byDeviceId.get d with
  | none => exact ⟨reg, [], h.calm, hd, rfl⟩
  | some existing =>
    refine ⟨(reg.drop existing .agentGone).1, (reg.drop existing .agentGone).2,
      h.drop_calm existing (by decide), ?_, rfl⟩
    obtain ⟨-, r, tunnel, hcur, hobj, hdev⟩ := h.agreed.device hd
    have hc := current_eq_some.2 ⟨hcur, hobj⟩
    cases h.agreed.drop_cases existing .agentGone with
    | inl hnone =>
      rw [hc] at hnone
      cases hnone.1
    | inr hsome =>
      obtain ⟨r', tunnel', hc', heq⟩ := hsome
      rw [hc] at hc'
      cases hc'
      rw [heq]
      simp [hdev]

theorem Sane.register (h : Sane quotas mac reg) (hmac : IdsApart mac) (d publicKey : String) (agent now : Nat) :
    Calm quotas mac reg (reg.register quotas mac d publicKey agent now).1 ∧
      (reg.register quotas mac d publicKey agent now).2.1.2.id = reg.nextId mac d ∧
      (reg.register quotas mac d publicKey agent now).1.byDeviceId.get d = some (reg.nextId mac d) := by
  obtain ⟨mid, out, hcalm, hfree, heq⟩ := h.register_eq d publicKey agent now
  have hnext : mid.nextId mac d = reg.nextId mac d := by rw [nextId, hcalm.same, nextId]
  rw [heq]
  refine ⟨hcalm.trans (hcalm.sane.install hmac rfl hfree rfl), hnext, ?_⟩
  simp only [TunnelRegistry.install, get_set, newTunnel, if_true]
  exact congrArg some hnext

namespace RegistryRun

variable {run : RegistryRun}

theorem perform_sane (h : Sane quotas mac run.reg) (hmac : IdsApart mac) (op : RegistryOp) :
    Sane quotas mac (run.perform quotas mac op).reg ∧ Ages run.reg (run.perform quotas mac op).reg ∧
      ∀ d, (∀ t, run.reg.holder t = some d → op ≠ .close t .revoked) →
        (run.perform quotas mac op).reg.epochOf d = run.reg.epochOf d := by
  have hcalm : ∀ {reg' : TunnelRegistry}, Calm quotas mac run.reg reg' →
      Sane quotas mac reg' ∧ Ages run.reg reg' ∧
        ∀ d, (∀ t, run.reg.holder t = some d → op ≠ .close t .revoked) →
          reg'.epochOf d = run.reg.epochOf d :=
    fun hc => ⟨hc.sane, hc.ages, fun d _ => hc.same d⟩
  cases op with
  | register d publicKey agent now => exact hcalm (h.register hmac d publicKey agent now).1
  | get t now => exact hcalm (h.get t now)
  | byDevice d now => exact hcalm (h.byDevice d now)
  | close t reason =>
    refine ⟨h.drop t reason, h.agreed.drop_ages t reason, ?_⟩
    intro d hno
    have hepoch := h.agreed.epochOf_drop t reason d
    rw [if_neg] at hepoch
    · exact hepoch
    · rintro ⟨rfl, hholder⟩
      exact hno t hholder rfl
  | openStream r id browser now => exact hcalm (h.openStream r id browser now)
  | closeStream r streamId reason => exact hcalm (h.closeStream r streamId reason)
  | charge r bytes => exact hcalm (h.charge r bytes)
  | sweep now => exact hcalm (h.sweepIds now _)

theorem performAll_sane (h : Sane quotas mac run.reg) (hmac : IdsApart mac) (ops : List RegistryOp) :
    Sane quotas mac (run.performAll quotas mac ops).reg ∧ Ages run.reg (run.performAll quotas mac ops).reg := by
  induction ops generalizing run with
  | nil => exact ⟨h, Ages.refl _⟩
  | cons op ops ih =>
    obtain ⟨hsane, hages, -⟩ := perform_sane h hmac op
    obtain ⟨hsane', hages'⟩ := ih hsane
    exact ⟨hsane', hages.trans hages'⟩

theorem performAll_nextId (h : Sane quotas mac run.reg) (hmac : IdsApart mac) {d : String}
    (ops : List RegistryOp) (hops : ∀ op ∈ ops, op ≠ .close (run.reg.nextId mac d) .revoked) :
    (run.performAll quotas mac ops).reg.nextId mac d = run.reg.nextId mac d := by
  induction ops generalizing run with
  | nil => rfl
  | cons op ops ih =>
    obtain ⟨hsane, -, hepoch⟩ := perform_sane h hmac op
    have hsame : (run.perform quotas mac op).reg.nextId mac d = run.reg.nextId mac d := by
      rw [nextId, hepoch d, nextId]
      intro t hholder heq
      -- the tunnel current under an id of this device is under its next id
      obtain ⟨found, hc, rfl⟩ := Option.map_eq_some_iff.1 hholder
      have hid := (h.agreed.current_id (show _ = some (found.1, found.2) from hc)).2.1
      exact hops op (mem_cons_self ..) (hid ▸ heq)
    have hrest := ih hsane fun op' hop' => by
      rw [hsame]
      exact hops op' (mem_cons_of_mem _ hop')
    exact hrest.trans hsame

end RegistryRun

theorem sane_create (quotas : Quotas) (mac : String → String) : Sane quotas mac create := by
  refine ⟨⟨fun ht => ?_, fun hd => ?_, fun hobj => ?_⟩, fun hobj => ?_⟩
  · cases ht
  · cases hd
  · cases hobj
  · cases hobj

theorem sane_runFrom (hmac : IdsApart mac) (ops : List RegistryOp) : Sane quotas mac (runFrom quotas mac ops).reg :=
  have h : Sane quotas mac (RegistryRun.mk create []).reg := sane_create quotas mac
  (RegistryRun.performAll_sane h hmac ops).1

structure RegistryRun.Paid (quotas : Quotas) (run : RegistryRun) : Prop where
  within : ∀ r, run.total r ≤ quotas.maxBytes
  counted : ∀ {r : Nat} {tunnel : Tunnel}, run.reg.objs[r]? = some tunnel →
    run.total r ≤ tunnel.bytes
  absent : ∀ {r : Nat}, run.reg.objs[r]? = none → run.total r = 0

namespace RegistryRun

variable {run : RegistryRun}

theorem total_append (forwarded : List (Nat × Nat)) (r bytes i : Nat) :
    total ⟨reg, forwarded ++ [(r, bytes)]⟩ i =
      total ⟨reg', forwarded⟩ i + if r = i then bytes else 0 := by
  unfold total
  rw [filter_append, map_append, sum_append]
  by_cases h : r = i <;> simp [h]

theorem Paid.ages (h : run.Paid quotas) (hages : Ages run.reg reg') : Paid quotas ⟨reg', run.forwarded⟩ := by
  have hnone : ∀ {r : Nat}, reg'.objs[r]? = none → run.reg.objs[r]? = none := by
    intro r hr
    cases hobj : run.reg.objs[r]? with
    | none => rfl
    | some tunnel =>
      obtain ⟨tunnel', hobj', -⟩ := hages.objs hobj
      rw [hr] at hobj'
      cases hobj'
  refine ⟨h.within, ?_, fun hr => h.absent (hnone hr)⟩
  intro r tunnel' hobj'
  cases hobj : run.reg.objs[r]? with
  | none =>
    have hzero : total ⟨reg', run.forwarded⟩ r = 0 := h.absent hobj
    rw [hzero]
    exact Nat.zero_le _
  | some tunnel =>
    obtain ⟨tunnel'', hobj'', -, hbytes⟩ := hages.objs hobj
    rw [hobj'] at hobj''
    cases hobj''
    exact Nat.le_trans (h.counted hobj) hbytes

theorem Paid.charge (h : run.Paid quotas) (hs : Sane quotas mac run.reg) (r bytes : Nat) :
    Paid quotas (run.perform quotas mac (.charge r bytes)) := by
  have hages := (hs.charge r bytes).ages
  simp only [perform]
  by_cases hok : (run.reg.charge quotas r bytes).2.1 = true
  · rw [if_pos hok]
    have hpaid := h.ages hages
    -- it went through: the tunnel has room for the bytes and counts them
    obtain ⟨tunnel, hobj, hroom, hreg⟩ : ∃ tunnel, run.reg.objs[r]? = some tunnel ∧
        tunnel.bytes + bytes ≤ quotas.maxBytes ∧
        (run.reg.charge quotas r bytes).1 = run.reg.addBytes r bytes := by
      unfold TunnelRegistry.charge at hok ⊢
      split at hok
      · cases hok
      · rename_i tunnel hobj
        split at hok
        · cases hok
        · rename_i hover
          refine ⟨tunnel, hobj, by omega, ?_⟩
          rw [if_neg hover]
    have hcounted := h.counted hobj
    have htotal : ∀ i, total ⟨(run.reg.charge quotas r bytes).1, run.forwarded ++ [(r, bytes)]⟩ i =
        run.total i + if r = i then bytes else 0 := fun i => total_append run.forwarded r bytes i
    refine ⟨?_, ?_, ?_⟩
    · intro i
      rw [htotal]
      by_cases hi : r = i
      · rw [if_pos hi, ← hi]
        omega
      · rw [if_neg hi]
        exact h.within i
    · intro i other hother
      rw [htotal]
      by_cases hi : r = i
      · subst hi
        simp only [hreg, addBytes, objs_update, if_true, hobj] at hother
        cases hother
        rw [if_pos rfl]
        exact Nat.add_le_add_right hcounted bytes
      · rw [if_neg hi]
        exact hpaid.counted hother
    · intro i hi
      rw [htotal]
      have hne : r ≠ i := by
        rintro rfl
        obtain ⟨tunnel', hobj', -⟩ := hages.objs hobj
        simp only at hi
        rw [hi] at hobj'
        cases hobj'
      rw [if_neg hne]
      exact hpaid.absent hi
  · rw [if_neg hok]
    exact h.ages hages

theorem Paid.perform (h : run.Paid quotas) (hs : Sane quotas mac run.reg) (hmac : IdsApart mac)
    (op : RegistryOp) : Paid quotas (run.perform quotas mac op) := by
  have hages := (perform_sane hs hmac op).2.1
  cases op with
  | charge r bytes => exact h.charge hs r bytes
  | _ => exact h.ages hages

end RegistryRun

theorem paid_runFrom (hmac : IdsApart mac) (ops : List RegistryOp) : (runFrom quotas mac ops).Paid quotas := by
  induction ops using List.reverseRecOn with
  | nil => exact ⟨fun _ => Nat.zero_le _, fun _ => Nat.zero_le _, fun _ => rfl⟩
  | append_singleton ops op ih =>
    have hlast : runFrom quotas mac (ops ++ [op]) =
        (runFrom quotas mac ops).perform quotas mac op := by
      rw [runFrom, RegistryRun.performAll, foldl_append]
      rfl
    rw [hlast]
    exact ih.perform (sane_runFrom hmac ops) hmac op

theorem Agreed.byDevice_iff (h : Agreed mac reg) (d : String) (now r : Nat) (tunnel : Tunnel) :
    (reg.byDevice d now).2.1 = some (r, tunnel) ↔
      reg.tunnels.get tunnel.id = some r ∧ reg.objs[r]? = some tunnel ∧ tunnel.deviceId = d ∧
        now < tunnel.expiresAt := by
  constructor
  · intro hby
    unfold TunnelRegistry.byDevice at hby
    split at hby
    · cases hby
    · rename_i t ht
      unfold TunnelRegistry.get at hby
      split at hby
      · cases hby
      · rename_i r' tunnel' hc
        split at hby
        · cases hby
        · rename_i hlive
          cases hby
          obtain ⟨hcur, hobj⟩ := current_eq_some.1 hc
          obtain ⟨-, i, other, hcur', hobj', hdev⟩ := h.device ht
          rw [hcur] at hcur'
          cases hcur'
          rw [hobj] at hobj'
          cases hobj'
          rw [(h.current_id hc).1]
          exact ⟨hcur, hobj, hdev, by simpa [expired] using hlive⟩
  · rintro ⟨hcur, hobj, rfl, hlive⟩
    have hc := current_eq_some.2 ⟨hcur, hobj⟩
    have hlate : ¬ expired tunnel.expiresAt now = true := by simpa [expired] using hlive
    simp only [TunnelRegistry.byDevice, (h.current_id hc).2.2, TunnelRegistry.get, hc, if_neg hlate]

/-- What the registry promises of every state. -/
structure Kept (quotas : Quotas) (run : RegistryRun) : Prop where
  one : ∀ {t t' : String} {r r' : Nat} {tunnel tunnel' : Tunnel},
    run.reg.current t = some (r, tunnel) → run.reg.current t' = some (r', tunnel') →
    tunnel.deviceId = tunnel'.deviceId → t = t' ∧ r = r'
  byDevice : ∀ d now r tunnel, (run.reg.byDevice d now).2.1 = some (r, tunnel) ↔
    run.reg.tunnels.get tunnel.id = some r ∧ run.reg.objs[r]? = some tunnel ∧
      tunnel.deviceId = d ∧ now < tunnel.expiresAt
  streams : ∀ {r : Nat} {tunnel : Tunnel}, run.reg.objs[r]? = some tunnel →
    tunnel.streams.size ≤ quotas.maxStreams
  forwarded : ∀ r, run.total r ≤ quotas.maxBytes

theorem kept_runFrom (hmac : IdsApart mac) (ops : List RegistryOp) : Kept quotas (runFrom quotas mac ops) := by
  have hs : Sane quotas mac (runFrom quotas mac ops).reg := sane_runFrom hmac ops
  refine ⟨?_, hs.agreed.byDevice_iff, hs.room, (paid_runFrom hmac ops).within⟩
  intro t t' r r' tunnel tunnel' hc hc' hdev
  have hid := (hs.agreed.current_id hc).2.1
  have hid' := (hs.agreed.current_id hc').2.1
  have ht : t = t' := by rw [hid, hid', hdev]
  rw [ht, hc'] at hc
  cases hc
  exact ⟨ht, rfl⟩

def idGiven (quotas : Quotas) (mac : String → String) (reg : TunnelRegistry) (d publicKey : String)
    (agent now : Nat) : String :=
  (reg.register quotas mac d publicKey agent now).2.1.2.id

theorem Sane.idGiven (h : Sane quotas mac reg) (hmac : IdsApart mac) (d publicKey : String)
    (agent now : Nat) : reg.idGiven quotas mac d publicKey agent now = reg.nextId mac d :=
  (h.register hmac d publicKey agent now).2.1

/-- Whether a revocation of `t` takes it from its device `d`: the tunnel is there to be dropped,
or the device was given another id already. -/
def Revocable (mac : String → String) (reg : TunnelRegistry) (t d : String) : Prop :=
  reg.current t ≠ none ∨ reg.nextId mac d ≠ t

theorem Sane.revoked_epoch (h : Sane quotas mac reg) (hmac : IdsApart mac) {d : String} {e : Nat}
    (he : e ≤ reg.epochOf d) (hrev : reg.Revocable mac (deriveTunnelId mac d e) d) :
    e < (reg.drop (deriveTunnelId mac d e) .revoked).1.epochOf d := by
  rw [h.agreed.epochOf_drop]
  cases hc : reg.current (deriveTunnelId mac d e) with
  | none =>
    have hnext : reg.nextId mac d ≠ deriveTunnelId mac d e :=
      hrev.resolve_left fun hne => hne hc
    have hne : e ≠ reg.epochOf d := by
      rintro rfl
      exact hnext rfl
    rw [holder, hc, if_neg (by simp)]
    omega
  | some found =>
    have hid := (h.agreed.current_id (show _ = some (found.1, found.2) from hc)).2.1
    obtain ⟨hd, -⟩ := hmac.derive hid
    rw [holder, hc, if_pos ⟨rfl, congrArg some hd.symm⟩]
    omega

def RegistryRun.givenAfter (quotas : Quotas) (mac : String → String) (run : RegistryRun)
    (ops : List RegistryOp) (d publicKey : String) (agent now : Nat) : String :=
  (run.performAll quotas mac ops).reg.idGiven quotas mac d publicKey agent now

theorem Sane.revoked_iff {run : RegistryRun} (h : Sane quotas mac run.reg) (hmac : IdsApart mac)
    {r : Nat} (hobj : run.reg.objs[r]? = some tunnel) : (∀ later publicKey agent now,
      run.givenAfter quotas mac (.close tunnel.id .revoked :: later) tunnel.deviceId publicKey agent now ≠ tunnel.id) ↔
      run.reg.Revocable mac tunnel.id tunnel.deviceId := by
  obtain ⟨e, he, hid⟩ := h.agreed.given hobj
  have hclosed : Sane quotas mac (run.reg.drop tunnel.id .revoked).1 := h.drop tunnel.id .revoked
  constructor
  · intro hnever
    by_contra hnot
    rw [Revocable, not_or, not_not, not_not] at hnot
    apply hnever [] "" 0 0
    have hsame : (run.reg.drop tunnel.id .revoked).1 = run.reg := by
      simp only [TunnelRegistry.drop, hnot.1]
    calc run.givenAfter quotas mac [.close tunnel.id .revoked] tunnel.deviceId "" 0 0
        = (run.reg.drop tunnel.id .revoked).1.idGiven quotas mac tunnel.deviceId "" 0 0 := rfl
      _ = (run.reg.drop tunnel.id .revoked).1.nextId mac tunnel.deviceId := hclosed.idGiven hmac ..
      _ = tunnel.id := by rw [hsame, hnot.2]
  · intro hrev later publicKey agent now hagain
    have hrun : Sane quotas mac
        (RegistryRun.mk (run.reg.drop tunnel.id .revoked).1 run.forwarded).reg := hclosed
    obtain ⟨hsane, hages⟩ := RegistryRun.performAll_sane hrun hmac later
    have hnext := (hsane.idGiven hmac tunnel.deviceId publicKey agent now).symm.trans hagain
    have hlater := (hmac.derive (hnext.trans hid)).2
    have hmoved : e < (run.reg.drop tunnel.id .revoked).1.epochOf tunnel.deviceId := by
      have hrev' := hrev
      rw [hid] at hrev' ⊢
      exact h.revoked_epoch hmac he hrev'
    have hgrown := hages.epochs tunnel.deviceId
    simp only at hgrown
    omega

/-- The registry keeps its promises in every run, a revoked id returns exactly where it was not
revocable, and every other ending gives the id back. -/
theorem registry_promises (hmac : IdsApart mac) (ops : List RegistryOp) : Kept quotas (runFrom quotas mac ops) ∧
    (∀ (r : Nat) (tunnel : Tunnel), (runFrom quotas mac ops).reg.objs[r]? = some tunnel → ((∀ later publicKey agent now,
        (runFrom quotas mac ops).givenAfter quotas mac (.close tunnel.id .revoked :: later)
          tunnel.deviceId publicKey agent now ≠ tunnel.id) ↔
        (runFrom quotas mac ops).reg.Revocable mac tunnel.id tunnel.deviceId)) ∧
    (∀ d publicKey agent now later publicKey' agent' now', (∀ op ∈ later, op ≠ .close
        ((runFrom quotas mac ops).givenAfter quotas mac [] d publicKey agent now) .revoked) →
      (runFrom quotas mac ops).givenAfter quotas mac (.register d publicKey agent now :: later) d
          publicKey' agent' now' = (runFrom quotas mac ops).givenAfter quotas mac [] d publicKey agent now) := by
  have hs : Sane quotas mac (runFrom quotas mac ops).reg := sane_runFrom hmac ops
  refine ⟨kept_runFrom hmac ops, fun r tunnel hobj => hs.revoked_iff hmac hobj, ?_⟩
  intro d publicKey agent now later publicKey' agent' now' hlater
  have hcalm := (hs.register hmac d publicKey agent now).1
  have hregistered : Sane quotas mac ((runFrom quotas mac ops).perform quotas mac
      (.register d publicKey agent now)).reg := hcalm.sane
  have hgiven : (runFrom quotas mac ops).givenAfter quotas mac [] d publicKey agent now =
      ((runFrom quotas mac ops).perform quotas mac (.register d publicKey agent now)).reg.nextId
        mac d := by
    calc (runFrom quotas mac ops).givenAfter quotas mac [] d publicKey agent now
        = (runFrom quotas mac ops).reg.nextId mac d := hs.idGiven hmac ..
      _ = _ := by
        rw [nextId, nextId, ← hcalm.same d]
        rfl
  rw [hgiven] at hlater ⊢
  have hafter := (RegistryRun.performAll_sane hregistered hmac later).1
  exact (hafter.idGiven hmac ..).trans
    (RegistryRun.performAll_nextId hregistered hmac later hlater)

theorem idsApart_of_injective (hmac : Function.Injective mac) : IdsApart mac := by
  refine ⟨fun {d d' e e'} h => ?_⟩
  have hd : d = d' := deriveTunnelId_device hmac h
  subst hd
  have hmacs := hmac ((String.append_right_inj "tnl-").1 h)
  exact ⟨rfl, repr_inj ((String.append_right_inj (d ++ ":")).1 hmacs)⟩

def smallQuotas : Quotas := ⟨1000, 60, 2⟩

/-- A device that went offline, and was revoked then. -/
def lapsed : List RegistryOp :=
  [.register "dev" "key" 1 0, .close "tnl-dev:0" .agentGone, .close "tnl-dev:0" .revoked]

theorem lapsed_promises : Kept smallQuotas (runFrom smallQuotas id lapsed) ∧
    (∀ later publicKey agent now, (runFrom smallQuotas id (lapsed.take 1)).givenAfter smallQuotas id
      (.close "tnl-dev:0" .revoked :: later) "dev" publicKey agent now ≠ "tnl-dev:0") ∧
    (runFrom smallQuotas id lapsed).givenAfter smallQuotas id
      [.register "dev" "key" 2 5, .close "tnl-dev:0" .agentGone] "dev" "key" 3 9 = "tnl-dev:0" := by
  have hids : IdsApart id := idsApart_of_injective fun _ _ h => h
  refine ⟨(registry_promises hids lapsed).1, ?_, ?_⟩
  · exact ((registry_promises hids (lapsed.take 1)).2.1 0 _ rfl).2 (.inl (by decide +kernel))
  · exact (registry_promises hids lapsed).2.2 "dev" "key" 2 5 _ "key" 3 9 (by decide +kernel)

/-- A device revoked while it is offline comes back under the id that was revoked. -/
theorem offline_revocation_undone : IdsApart id ∧ create.idGiven smallQuotas id "dev" "key" 1 0 = "tnl-dev:0" ∧
      (runFrom smallQuotas id lapsed).reg.idGiven smallQuotas id "dev" "key" 2 9 = "tnl-dev:0" :=
  ⟨idsApart_of_injective fun _ _ h => h, by decide +kernel, by decide +kernel⟩

end TunnelRegistry
end Mtmux.Broker
