import Mathlib.Logic.Relation
import Mtmux.Broker.TunnelRegistry

/-! What the operations of the tunnel registry can do. -/
namespace Mtmux.Broker
open Protocol OrderedMap Tunnel List

/-- The part of a tunnel that is fixed at registration. -/
def Tunnel.core (tunnel : Tunnel) : String × String × Nat × Nat × Nat :=
  (tunnel.id, tunnel.deviceId, tunnel.createdAt, tunnel.expiresAt, tunnel.agent)

/-- The part that is settled at the end: what a registration owes, and who owes it. -/
inductive Debt where
  | bytes | owner

def Tunnel.debt (tunnel : Tunnel) : Debt → Nat × Option String
  | .bytes => (tunnel.bytes, none)
  | .owner => (0, tunnel.userId)

theorem Tunnel.core_eq {tunnel tunnel' : Tunnel} (h : tunnel.core = tunnel'.core) :
    tunnel.id = tunnel'.id ∧ tunnel.deviceId = tunnel'.deviceId ∧
      tunnel.createdAt = tunnel'.createdAt ∧ tunnel.expiresAt = tunnel'.expiresAt ∧ tunnel.agent = tunnel'.agent := by
  simpa [Tunnel.core] using h

namespace TunnelRegistry
variable {reg reg' reg'' : TunnelRegistry} {now : Nat}

theorem getElem_modify (objs : List Tunnel) (r i : Nat) (f : Tunnel → Tunnel) :
    (objs.modify r f)[i]? = if i = r then (objs[i]?).map f else objs[i]? := by
  rw [List.getElem?_modify]
  by_cases h : i = r
  · subst h
    cases objs[i]? <;> simp
  · have h' : ¬ r = i := fun he => h he.symm
    cases objs[i]? <;> simp [h, h']

theorem objs_update (reg : TunnelRegistry) (r i : Nat) (f : Tunnel → Tunnel) :
    (reg.update r f).objs[i]? = if i = r then (reg.objs[i]?).map f else reg.objs[i]? :=
  getElem_modify reg.objs r i f

/-- Every id of the map leads to a registration made under it. -/
def Mapped (reg : TunnelRegistry) : Prop :=
  ∀ {t r}, reg.tunnels.get t = some r → ∃ tunnel, reg.objs[r]? = some tunnel ∧ tunnel.id = t

variable {t : String} {r : Nat} {tunnel : Tunnel}

theorem current_eq_some :
    reg.current t = some (r, tunnel) ↔ reg.tunnels.get t = some r ∧ reg.objs[r]? = some tunnel := by
  unfold current
  cases reg.tunnels.get t with
  | none => simp
  | some r' =>
    simp only [Option.map_eq_some_iff, Prod.mk.injEq, Option.some.injEq]
    constructor
    · rintro ⟨tunnel', hobj, rfl, rfl⟩
      exact ⟨rfl, hobj⟩
    · rintro ⟨rfl, hobj⟩
      exact ⟨tunnel, hobj, rfl, rfl⟩

theorem Mapped.current_none (h : reg.Mapped) (hc : reg.current t = none) : reg.tunnels.get t = none := by
  cases ht : reg.tunnels.get t with
  | none => rfl
  | some r =>
    obtain ⟨tunnel, hobj, -⟩ := h ht
    rw [current_eq_some.2 ⟨ht, hobj⟩] at hc
    cases hc

/-- The registrations and what was fixed about them stay, and no id is given to
another one. -/
structure Quiet (reg reg' : TunnelRegistry) : Prop where
  obj : ∀ r : Nat, (reg'.objs[r]?).map Tunnel.core = (reg.objs[r]?).map Tunnel.core
  kept : ∀ {t r}, reg'.tunnels.get t = some r → reg.tunnels.get t = some r

theorem Quiet.refl (reg : TunnelRegistry) : Quiet reg reg := ⟨fun _ => rfl, fun h => h⟩

section
variable (h : Quiet reg reg')
include h

theorem Quiet.trans (h' : Quiet reg' reg'') : Quiet reg reg'' :=
  ⟨fun r => (h'.obj r).trans (h.obj r), fun ht => h.kept (h'.kept ht)⟩

theorem Quiet.forth (hobj : reg.objs[r]? = some tunnel) :
    ∃ tunnel', reg'.objs[r]? = some tunnel' ∧ tunnel'.core = tunnel.core :=
  exists_of_map_eq (h.obj r) hobj

theorem Quiet.back {r : Nat} {tunnel' : Tunnel} (hobj : reg'.objs[r]? = some tunnel') :
    ∃ tunnel, reg.objs[r]? = some tunnel ∧ tunnel.core = tunnel'.core :=
  exists_of_map_eq (h.obj r).symm hobj

theorem Quiet.length : reg'.objs.length = reg.objs.length := by
  have hle : ∀ {l l' : List Tunnel}, (∀ r : Nat, (l'[r]?).map Tunnel.core = (l[r]?).map Tunnel.core) →
      l'.length ≤ l.length := by
    intro l l' hobj
    have hnone : (l'[l.length]?).map Tunnel.core = none := by rw [hobj]; simp
    simpa using hnone
  exact Nat.le_antisymm (hle h.obj) (hle fun r => (h.obj r).symm)

theorem Quiet.mapped (hm : reg.Mapped) : reg'.Mapped := by
  intro t r ht
  obtain ⟨tunnel, hobj, hid⟩ := hm (h.kept ht)
  obtain ⟨tunnel', hobj', he⟩ := h.forth hobj
  exact ⟨tunnel', hobj', (core_eq he).1.trans hid⟩

end

theorem objs_modify_core (objs : List Tunnel) (r i : Nat) {f : Tunnel → Tunnel}
    (hf : ∀ tunnel, (f tunnel).core = tunnel.core) :
    ((objs.modify r f)[i]?).map Tunnel.core = (objs[i]?).map Tunnel.core := by
  rw [getElem_modify]
  split
  · cases objs[i]? <;> simp [hf]
  · rfl

/-- What a drop leaves: the registration under the id, if any, loses its streams
and its place. -/
theorem drop_spec (reg : TunnelRegistry) (hm : reg.Mapped) (t : String)
    (reason : TunnelClosedReason) :
    (∀ a, (reg.drop t reason).1.tunnels.get a = if a = t then none else reg.tunnels.get a) ∧
    (∀ i, (reg.drop t reason).1.objs[i]? =
      if reg.tunnels.get t = some i then
        (reg.objs[i]?).map fun tunnel => { tunnel with streams := OrderedMap.empty }
      else reg.objs[i]?) := by
  unfold drop
  cases hc : reg.current t with
  | none =>
    have ht := hm.current_none hc
    refine ⟨fun a => ?_, fun i => by simp [ht]⟩
    by_cases ha : a = t
    · simp [ha, ht]
    · simp [ha]
  | some found =>
    obtain ⟨r, tunnel⟩ := found
    obtain ⟨ht, -⟩ := current_eq_some.1 hc
    refine ⟨fun a => get_delete _ _ _, fun i => ?_⟩
    dsimp only
    rw [getElem_modify, ht]
    simp [eq_comm]

/-- The writes that leave the set of registrations alone. Only the debts in `free`
may change. -/
inductive Touch (free : Debt → Nat → Prop) : TunnelRegistry → TunnelRegistry → Prop where
  | drop (reg : TunnelRegistry) (t : String) (reason : TunnelClosedReason) :
    Touch free reg (reg.drop t reason).1
  | rewrite (reg : TunnelRegistry) (r : Nat) (f : Tunnel → Tunnel)
      (core : ∀ tunnel, (f tunnel).core = tunnel.core)
      (debt : ∀ d, ¬ free d r → ∀ tunnel, (f tunnel).debt d = tunnel.debt d)
      (streams : ∀ tunnel : Tunnel, tunnel.streams = OrderedMap.empty →
        (f tunnel).streams = OrderedMap.empty) :
    Touch free reg (reg.update r f)
  | opened (reg : TunnelRegistry) {r : Nat} {tunnel : Tunnel} (f : Tunnel → Tunnel)
      (obj : reg.objs[r]? = some tunnel) (current : reg.tunnels.get tunnel.id = some r)
      (core : ∀ tunnel, (f tunnel).core = tunnel.core)
      (debt : ∀ tunnel, (f tunnel).debt = tunnel.debt) :
    Touch free reg (reg.update r f)

variable {free : Debt → Nat → Prop}

theorem Touch.quiet (h : Touch free reg reg') : Quiet reg reg' := by
  cases h with
  | drop t reason =>
    unfold TunnelRegistry.drop
    split
    · exact Quiet.refl reg
    · refine ⟨fun i => objs_modify_core reg.objs _ i fun _ => rfl, fun {a r} ha => ?_⟩
      dsimp only at ha
      exact get_of_delete ha
  | rewrite r f core debt streams =>
    exact ⟨fun i => objs_modify_core reg.objs r i core, fun h => h⟩
  | opened f obj current core debt =>
    exact ⟨fun i => objs_modify_core reg.objs _ i core, fun h => h⟩

theorem Touch.debt (h : Touch free reg reg') {d : Debt} (hr : ¬ free d r) :
    (reg'.objs[r]?).map (·.debt d) = (reg.objs[r]?).map (·.debt d) := by
  cases h with
  | drop t reason =>
    unfold TunnelRegistry.drop
    split
    · rfl
    · dsimp only
      rw [getElem_modify]
      split
      · cases reg.objs[r]? <;> rfl
      · rfl
  | rewrite i f core debt streams =>
    rw [objs_update]
    split
    · next he =>
      subst he
      cases reg.objs[r]? <;> simp [debt d hr]
    · rfl
  | opened f obj current core debt =>
    rw [objs_update]
    split
    · cases reg.objs[r]? <;> simp [debt]
    · rfl

/-- Any number of such writes. -/
def Touches (free : Debt → Nat → Prop) : TunnelRegistry → TunnelRegistry → Prop :=
  Relation.ReflTransGen (Touch free)

theorem Touches.refl (reg : TunnelRegistry) : Touches free reg reg := Relation.ReflTransGen.refl

theorem Touches.trans (h : Touches free reg reg') (h' : Touches free reg' reg'') : Touches free reg reg'' :=
  Relation.ReflTransGen.trans h h'

theorem Touch.touches (h : Touch free reg reg') : Touches free reg reg' :=
  Relation.ReflTransGen.single h

variable {free' : Debt → Nat → Prop}

theorem Touch.mono (h : Touch free reg reg') (hf : ∀ d r, free d r → free' d r) : Touch free' reg reg' := by
  cases h with
  | drop t reason => exact .drop reg t reason
  | rewrite r f core debt streams =>
    exact .rewrite reg r f core (fun d hr => debt d fun h => hr (hf d r h)) streams
  | opened f obj current core debt => exact .opened reg f obj current core debt

theorem Touches.mono (h : Touches free reg reg') (hf : ∀ d r, free d r → free' d r) : Touches free' reg reg' := by
  induction h with
  | refl => exact Touches.refl reg
  | tail _ hlast ih => exact ih.trans (hlast.mono hf).touches

theorem Touches.debt (h : Touches free reg reg') {d : Debt} (hr : ¬ free d r) :
    (reg'.objs[r]?).map (·.debt d) = (reg.objs[r]?).map (·.debt d) := by
  induction h with
  | refl => rfl
  | tail _ hlast ih => exact (hlast.debt hr).trans ih

theorem Touches.quiet (h : Touches free reg reg') : Quiet reg reg' := by
  induction h with
  | refl => exact Quiet.refl reg
  | tail _ hlast ih => exact ih.trans hlast.quiet

theorem get_some {out : List LinkOut} (h : reg.get t now = (reg', some (r, tunnel), out)) :
    reg' = reg ∧ out = [] ∧ reg.tunnels.get t = some r ∧ reg.objs[r]? = some tunnel ∧ now < tunnel.expiresAt := by
  unfold get at h
  split at h
  · cases h
  · next found hc =>
    split at h
    · cases h
    · next hx =>
      cases h
      obtain ⟨ht, hobj⟩ := current_eq_some.1 hc
      exact ⟨rfl, rfl, ht, hobj, by simpa [expired] using hx⟩

theorem get_none {out : List LinkOut} (h : reg.get t now = (reg', none, out)) :
    (reg.current t = none ∧ reg' = reg ∧ out = []) ∨
      ∃ r tunnel, reg.current t = some (r, tunnel) ∧ tunnel.expiresAt ≤ now ∧
        reg' = (reg.drop t .expired).1 ∧ out = (reg.drop t .expired).2 := by
  unfold get at h
  split at h
  · next hc =>
    cases h
    exact Or.inl ⟨hc, rfl, rfl⟩
  · next r tunnel hc =>
    split at h
    · next hx =>
      cases h
      exact Or.inr ⟨r, tunnel, hc, by simpa [expired] using hx, rfl, rfl⟩
    · cases h

theorem get_live (ht : reg.tunnels.get t = some r) (hobj : reg.objs[r]? = some tunnel) (hx : now < tunnel.expiresAt) :
    reg.get t now = (reg, some (r, tunnel), []) := by
  unfold get
  rw [current_eq_some.2 ⟨ht, hobj⟩]
  dsimp only
  rw [if_neg (by simpa [expired] using hx)]

theorem get_touches (reg : TunnelRegistry) (t : String) (now : Nat) : Touches free reg (reg.get t now).1 := by
  unfold get
  split
  · exact Touches.refl reg
  · split
    · exact (Touch.drop reg t .expired).touches
    · exact Touches.refl reg

theorem byDevice_touches (reg : TunnelRegistry) (deviceId : String) (now : Nat) :
    Touches free reg (reg.byDevice deviceId now).1 := by
  unfold byDevice
  split
  · exact Touches.refl reg
  · exact get_touches reg _ now

theorem closeStream_touches (reg : TunnelRegistry) (r : Nat) (streamId : String)
    (reason : Option String) : Touches free reg (reg.closeStream r streamId reason).1 := by
  unfold closeStream
  split
  · exact Touches.refl reg
  · split
    · exact Touches.refl reg
    · refine Touch.touches (Touch.rewrite reg r _ ?_ ?_ ?_)
      · intro tunnel
        rfl
      · intro d _ tunnel
        cases d <;> rfl
      · intro tunnel he
        rw [he]
        rfl

theorem addBytes_touch (reg : TunnelRegistry) {bytes : Nat} (h : free .bytes r ∨ bytes = 0) :
    Touch free reg (reg.addBytes r bytes) := by
  refine .rewrite reg r _ ?_ ?_ ?_
  · intro tunnel
    rfl
  · intro d hr tunnel
    cases d with
    | bytes =>
      rw [h.resolve_left hr]
      rfl
    | owner => rfl
  · intro tunnel he
    exact he

theorem charge_touches (quotas : Quotas) (reg : TunnelRegistry) {bytes : Nat}
    (h : free .bytes r ∨ bytes = 0) : Touches free reg (reg.charge quotas r bytes).1 := by
  unfold charge
  split
  · exact Touches.refl reg
  · split
    · exact (addBytes_touch reg h).touches.trans (Touch.drop _ _ _).touches
    · exact (addBytes_touch reg h).touches

theorem sweepIds_touches (now : Nat) (ids : List String) (reg : TunnelRegistry) :
    Touches free reg (reg.sweepIds now ids).1 := by
  induction ids generalizing reg with
  | nil => exact Touches.refl reg
  | cons t ids ih => exact (get_touches reg t now).trans (ih _)

theorem openStream_touches {quotas : Quotas} {id : String} {browser : Nat} (hobj : reg.objs[r]? = some tunnel)
    (hcur : reg.tunnels.get tunnel.id = some r) : Touches free reg (reg.openStream quotas r id browser now).1 := by
  unfold openStream
  split
  · exact Touches.refl reg
  · split
    · exact Touches.refl reg
    · split
      · exact Touches.refl reg
      · refine Touch.touches (Touch.opened reg _ hobj hcur ?_ ?_)
        · intro tunnel
          rfl
        · intro tunnel
          rfl

/-- The map and the device index agree, ids are derived, and a registration that
is not current carries no stream. -/
structure Wf (mac : String → String) (reg : TunnelRegistry) : Prop where
  mapped : ∀ {t r}, reg.tunnels.get t = some r → ∃ tunnel : Tunnel, reg.objs[r]? = some tunnel ∧
    tunnel.id = t ∧ reg.byDeviceId.get tunnel.deviceId = some t
  device : ∀ {d t}, reg.byDeviceId.get d = some t → ∃ r, ∃ tunnel : Tunnel,
    reg.tunnels.get t = some r ∧ reg.objs[r]? = some tunnel ∧ tunnel.deviceId = d
  derived : ∀ {r : Nat} {tunnel : Tunnel}, reg.objs[r]? = some tunnel →
    ∃ e, tunnel.id = deriveTunnelId mac tunnel.deviceId e
  idle : ∀ {r : Nat} {tunnel : Tunnel}, reg.objs[r]? = some tunnel →
    reg.tunnels.get tunnel.id ≠ some r → tunnel.streams = OrderedMap.empty

variable {mac : String → String}

theorem Wf.toMapped (h : Wf mac reg) : reg.Mapped := by
  intro t r ht
  obtain ⟨tunnel, hobj, hid, -⟩ := h.mapped ht
  exact ⟨tunnel, hobj, hid⟩

theorem update_quiet (reg : TunnelRegistry) (r : Nat) {f : Tunnel → Tunnel}
    (hf : ∀ tunnel, (f tunnel).core = tunnel.core) : Quiet reg (reg.update r f) :=
  ⟨fun i => objs_modify_core reg.objs r i hf, fun h => h⟩

theorem get_quiet (reg : TunnelRegistry) (t : String) (now : Nat) : Quiet reg (reg.get t now).1 :=
  have h : Touches (fun _ _ => False) reg (reg.get t now).1 := get_touches reg t now
  h.quiet

theorem drop_quiet (reg : TunnelRegistry) (t : String) (reason : TunnelClosedReason) :
    Quiet reg (reg.drop t reason).1 :=
  have h : Touch (fun _ _ => False) reg (reg.drop t reason).1 := .drop reg t reason
  h.quiet

theorem Wf.drop (h : Wf mac reg) (t : String) (reason : TunnelClosedReason) : Wf mac (reg.drop t reason).1 := by
  cases hc : reg.current t with
  | none =>
    have he : reg.drop t reason = (reg, []) := by simp only [TunnelRegistry.drop, hc]
    rw [he]
    exact h
  | some found =>
    obtain ⟨r, tunnel⟩ := found
    obtain ⟨ht, hobj⟩ := current_eq_some.1 hc
    have hq : Quiet reg (reg.drop t reason).1 := drop_quiet reg t reason
    have hmap := (drop_spec reg h.toMapped t reason).1
    have hobjs := (drop_spec reg h.toMapped t reason).2
    have hby : (reg.drop t reason).1.byDeviceId = reg.byDeviceId.delete tunnel.deviceId := by
      obtain ⟨tunnel', hobj', -, hdev⟩ := h.mapped ht
      rw [hobj] at hobj'
      cases hobj'
      simp only [TunnelRegistry.drop, hc, if_pos hdev]
    constructor
    case mapped =>
      intro a i ha
      rw [hmap] at ha
      split at ha
      · cases ha
      · next hne =>
        obtain ⟨other, hother, hid, hdev⟩ := h.mapped ha
        obtain ⟨other', hother', he⟩ := hq.forth hother
        obtain ⟨hid', hdev', -⟩ := core_eq he
        refine ⟨other', hother', hid'.trans hid, ?_⟩
        rw [hby, get_delete, hdev', if_neg, hdev]
        intro hsame
        obtain ⟨tunnel', hobj', -, hdevt⟩ := h.mapped ht
        rw [hobj] at hobj'
        cases hobj'
        rw [hsame, hdevt] at hdev
        cases hdev
        exact hne rfl
    case device =>
      intro d a ha
      rw [hby, get_delete] at ha
      split at ha
      · cases ha
      · next hne =>
        obtain ⟨i, other, hcur, hother, hdev⟩ := h.device ha
        obtain ⟨other', hother', he⟩ := hq.forth hother
        refine ⟨i, other', ?_, hother', (core_eq he).2.1.trans hdev⟩
        rw [hmap, if_neg, hcur]
        rintro rfl
        rw [ht] at hcur
        cases hcur
        rw [hobj] at hother
        cases hother
        exact hne hdev.symm
    case derived =>
      intro i other' hother'
      obtain ⟨other, hother, he⟩ := hq.back hother'
      obtain ⟨hid, hdev, -⟩ := core_eq he
      rw [← hid, ← hdev]
      exact h.derived hother
    case idle =>
      intro i other' hother' hcur
      have hsame := hobjs i
      rw [hother'] at hsame
      split at hsame
      · obtain ⟨other, -, rfl⟩ := Option.map_eq_some_iff.1 hsame.symm
        rfl
      · next hne =>
        refine h.idle hsame.symm fun hcur' => hcur ?_
        rw [hmap, if_neg, hcur']
        intro hid
        rw [hid] at hcur'
        exact hne hcur'

theorem Wf.touch (h : Wf mac reg) (ht : Touch free reg reg') : Wf mac reg' := by
  have hq := ht.quiet
  have hrest : reg'.tunnels = reg.tunnels → reg'.byDeviceId = reg.byDeviceId →
      (∀ {r : Nat} {tunnel : Tunnel}, reg'.objs[r]? = some tunnel →
        reg'.tunnels.get tunnel.id ≠ some r → tunnel.streams = OrderedMap.empty) → Wf mac reg' := by
    intro htun hby hidle
    refine ⟨?_, ?_, ?_, hidle⟩
    · intro t r hcur
      rw [htun] at hcur
      obtain ⟨tunnel, hobj, hid, hdev⟩ := h.mapped hcur
      obtain ⟨tunnel', hobj', he⟩ := hq.forth hobj
      obtain ⟨hid', hdev', -⟩ := core_eq he
      exact ⟨tunnel', hobj', hid'.trans hid, by rw [hby, hdev', hdev]⟩
    · intro d t hd
      rw [hby] at hd
      obtain ⟨r, tunnel, hcur, hobj, hdev⟩ := h.device hd
      obtain ⟨tunnel', hobj', he⟩ := hq.forth hobj
      exact ⟨r, tunnel', by rw [htun, hcur], hobj', (core_eq he).2.1.trans hdev⟩
    · intro r tunnel' hobj'
      obtain ⟨tunnel, hobj, he⟩ := hq.back hobj'
      obtain ⟨hid, hdev, -⟩ := core_eq he
      rw [← hid, ← hdev]
      exact h.derived hobj
  cases ht with
  | drop t reason => exact h.drop t reason
  | rewrite r f core debt streams =>
    refine hrest rfl rfl fun {i tunnel'} hobj' hcur => ?_
    rw [objs_update] at hobj'
    split at hobj'
    · obtain ⟨tunnel, hobj, rfl⟩ := Option.map_eq_some_iff.1 hobj'
      rw [(core_eq (core tunnel)).1] at hcur
      exact streams tunnel (h.idle hobj hcur)
    · exact h.idle hobj' hcur
  | opened f obj current core debt =>
    refine hrest rfl rfl fun {i tunnel'} hobj' hcur => ?_
    rw [objs_update] at hobj'
    split at hobj'
    · next he =>
      subst he
      obtain ⟨tunnel, hobj, rfl⟩ := Option.map_eq_some_iff.1 hobj'
      rw [obj] at hobj
      cases hobj
      rw [(core_eq (core _)).1] at hcur
      exact absurd current hcur
    · exact h.idle hobj' hcur

theorem Wf.touches (h : Wf mac reg) (ht : Touches free reg reg') : Wf mac reg' := by
  induction ht with
  | refl => exact h
  | tail _ hlast ih => exact ih.touch hlast

theorem eq_of_append_sep {α : Type} {a : α} (x x' y y' : List α) (hx : a ∉ x) (hx' : a ∉ x')
    (h : x ++ a :: y = x' ++ a :: y') : y = y' := by
  induction x generalizing x' with
  | nil =>
    cases x' with
    | nil => simpa using h
    | cons b x' =>
      have hb : a = b := by simpa using (List.cons.inj h).1
      exact absurd (hb ▸ mem_cons_self) hx'
  | cons c x ih =>
    cases x' with
    | nil =>
      have hc : c = a := by simpa using (List.cons.inj h).1
      exact absurd (hc ▸ mem_cons_self) hx
    | cons b x' =>
      exact ih x' (fun hm => hx (mem_cons_of_mem c hm))
        (fun hm => hx' (mem_cons_of_mem b hm)) (List.cons.inj h).2

theorem colon_not_mem_toString (e : Nat) : ':' ∉ (toString e).toList := by
  intro hm
  have hd : (toString e).toList = Nat.toDigits 10 e := Nat.toList_repr
  rw [hd] at hm
  have hdigit := Nat.isDigit_of_mem_toDigits (by decide) (by decide) hm
  exact absurd hdigit (by decide)

theorem deriveTunnelId_device (hmac : Function.Injective mac) {d d' : String} {e e' : Nat}
    (h : deriveTunnelId mac d e = deriveTunnelId mac d' e') : d = d' := by
  have hmacs : mac (d ++ ":" ++ toString e) = mac (d' ++ ":" ++ toString e') := by
    have hl := congrArg String.toList h
    simp only [deriveTunnelId, String.toList_append, append_cancel_left_eq] at hl
    exact String.toList_injective hl
  have hl := congrArg (fun s => s.toList.reverse) (hmac hmacs)
  simp only [String.toList_append, reverse_append, append_assoc] at hl
  have hrev := eq_of_append_sep (a := ':') _ _ _ _
    (fun hm => colon_not_mem_toString e (mem_reverse.1 hm))
    (fun hm => colon_not_mem_toString e' (mem_reverse.1 hm)) hl
  exact String.toList_injective (reverse_injective hrev)

theorem register_eq (quotas : Quotas) (mac : String → String) (reg : TunnelRegistry)
    (deviceId publicKey : String) (agent now : Nat) : ∃ reg₀ tunnel out, (∀ free, Touches free reg reg₀) ∧
      (Wf mac reg → reg₀.byDeviceId.get deviceId = none) ∧ reg.register quotas mac deviceId publicKey agent now =
        (reg₀.install tunnel, (reg₀.objs.length, tunnel), out) ∧
      tunnel.deviceId = deviceId ∧ (∃ e, tunnel.id = deriveTunnelId mac deviceId e) ∧
      tunnel.agent = agent ∧ tunnel.createdAt = now ∧ tunnel.bytes = 0 ∧ tunnel.userId = none ∧
      tunnel.streams = OrderedMap.empty ∧ (∀ o ∈ out, ∃ existing, o ∈ (reg.drop existing .agentGone).2) := by
  unfold register
  cases hd : reg.byDeviceId.get deviceId with
  | none =>
    refine ⟨reg, _, _, fun _ => Touches.refl reg, fun _ => hd, rfl, ?_⟩
    exact ⟨rfl, ⟨_, rfl⟩, rfl, rfl, rfl, rfl, rfl, by simp⟩
  | some existing =>
    refine ⟨(reg.drop existing .agentGone).1, _, _, fun _ => (Touch.drop reg existing _).touches, ?_,
      rfl, ?_⟩
    · intro hw
      obtain ⟨r, tunnel, hcur, hobj, hdev⟩ := hw.device hd
      have hc := current_eq_some.2 ⟨hcur, hobj⟩
      simp [TunnelRegistry.drop, hc, hdev, hd]
    · exact ⟨rfl, ⟨_, rfl⟩, rfl, rfl, rfl, rfl, rfl, fun o ho => ⟨existing, ho⟩⟩

theorem objs_install (reg : TunnelRegistry) (tunnel : Tunnel) (i : Nat) :
    (reg.install tunnel).objs[i]? =
      if i = reg.objs.length then some tunnel else reg.objs[i]? := by
  simp only [install, List.getElem?_append]
  by_cases hlt : i < reg.objs.length
  · rw [if_pos hlt, if_neg (by omega)]
  · rw [if_neg hlt]
    by_cases he : i = reg.objs.length
    · simp [he]
    · rw [if_neg he, List.getElem?_eq_none (by simp; omega), List.getElem?_eq_none (by omega)]

theorem install_mapped (hm : reg.Mapped) (tunnel : Tunnel) : (reg.install tunnel).Mapped := by
  intro t r ht
  simp only [install, get_set] at ht
  rw [objs_install]
  split at ht
  · next he =>
    cases ht
    exact ⟨tunnel, by simp, he.symm⟩
  · obtain ⟨other, hother, hid⟩ := hm ht
    have hlt : r < reg.objs.length := (List.getElem?_eq_some_iff.1 hother).1
    exact ⟨other, by rw [if_neg (by omega), hother], hid⟩

theorem Wf.install (h : Wf mac reg) (hmac : Function.Injective mac) {e : Nat}
    (hid : tunnel.id = deriveTunnelId mac tunnel.deviceId e)
    (hfree : reg.byDeviceId.get tunnel.deviceId = none) : Wf mac (reg.install tunnel) := by
  have hlt : ∀ {r : Nat} {other : Tunnel}, reg.objs[r]? = some other → r < reg.objs.length :=
    fun hother => (List.getElem?_eq_some_iff.1 hother).1
  -- no current registration has the new id, since it would be the same device's
  have hnew : ∀ {r : Nat} {other : Tunnel}, reg.objs[r]? = some other →
      reg.tunnels.get other.id = some r → other.id ≠ tunnel.id := by
    intro r other hother hcur hsame
    obtain ⟨e', he'⟩ := h.derived hother
    obtain ⟨other', hother', -, hdev⟩ := h.mapped hcur
    rw [hother] at hother'
    cases hother'
    have hd : other.deviceId = tunnel.deviceId :=
      deriveTunnelId_device hmac (he'.symm.trans (hsame.trans hid))
    rw [hd, hfree] at hdev
    cases hdev
  constructor
  case mapped =>
    intro t r ht
    simp only [TunnelRegistry.install, get_set] at ht ⊢
    split at ht
    · next he =>
      cases ht
      exact ⟨tunnel, by simp, he.symm, by simp [he]⟩
    · obtain ⟨other, hother, hoid, hdev⟩ := h.mapped ht
      refine ⟨other, ?_, hoid, ?_⟩
      · have := objs_install reg tunnel r
        simp only [TunnelRegistry.install] at this
        rw [this, if_neg (Nat.ne_of_lt (hlt hother)), hother]
      · rw [if_neg, hdev]
        intro hd
        rw [hd, hfree] at hdev
        cases hdev
  case device =>
    intro d t hd
    simp only [TunnelRegistry.install, get_set] at hd ⊢
    split at hd
    · next he =>
      cases hd
      exact ⟨reg.objs.length, tunnel, by simp, by simp, he.symm⟩
    · obtain ⟨r, other, hcur, hother, hdev⟩ := h.device hd
      refine ⟨r, other, ?_, ?_, hdev⟩
      · obtain ⟨other', hother', hoid, -⟩ := h.mapped hcur
        rw [hother] at hother'
        cases hother'
        rw [if_neg, hcur]
        rw [← hoid]
        exact hnew hother (hoid ▸ hcur)
      · have := objs_install reg tunnel r
        simp only [TunnelRegistry.install] at this
        rw [this, if_neg (Nat.ne_of_lt (hlt hother)), hother]
  case derived =>
    intro r other hother
    rw [objs_install] at hother
    split at hother
    · cases hother
      exact ⟨e, hid⟩
    · exact h.derived hother
  case idle =>
    intro r other hother hcur
    rw [objs_install] at hother
    simp only [TunnelRegistry.install, get_set] at hcur
    split at hother
    · next he =>
      cases hother
      simp [he] at hcur
    · refine h.idle hother fun hcur' => ?_
      rw [if_neg (hnew hother hcur')] at hcur
      exact hcur hcur'

end TunnelRegistry
end Mtmux.Broker
