import Mtmux.Base.Ledger
import Mtmux.Broker.System
import Mtmux.Broker.LinkOutputs

/-! When a registration's usage is settled. The totals are read back through the
tunnel id when the agent's socket closes, so they are recorded once and in full only
if the registration is still the one under its id by then, and stays as it is
afterwards. -/
namespace Mtmux.Broker
open OrderedMap Machine TunnelRegistry Tunnel List

/-- A call of `recordUsage`: the registration, the account and the bytes. -/
abbrev Usage : Type := Nat × String × Nat

def LinkOut.usage : LinkOut → Option Usage
  | .recordUsage r userId bytes _ => some (r, userId, bytes)
  | _ => none

def BrokerOut.usage : BrokerOut → Option Usage
  | .link o => o.usage
  | .pairing _ => none

/-- The calls for registration `r`. -/
def settledFor (us : List Usage) (r : Nat) : List Usage := Ledger.postedTo Prod.fst us r

variable {us : List Usage}

theorem mem_settledFor {r : Nat} {x : Usage} : x ∈ settledFor us r ↔ x ∈ us ∧ x.1 = r := by
  simp [settledFor, Ledger.postedTo]

theorem usage_filter (out : List LinkOut) :
    (out.filter LinkOut.isSalient).filterMap LinkOut.usage = out.filterMap LinkOut.usage := by
  induction out with
  | nil => rfl
  | cons o out ih =>
    cases hs : o.isSalient with
    | true => rw [filter_cons_of_pos hs, filterMap_cons, filterMap_cons, ih]
    | false =>
      have hnone : o.usage = none := by
        cases o <;> first | rfl | cases hs
      rw [filter_cons_of_neg (by simp [hs]), filterMap_cons_none hnone, ih]

namespace Link
variable {cfg : LinkConfig} {now : Nat} {l l' : Link} {e : LinkEvent}

/-- What a step does to open sockets and to the owners being asked for. -/
structure Moves (l : Link) (e : LinkEvent) (l' : Link) : Prop where
  kept : ∀ {k}, l.sockets.get k ≠ none → e ≠ .close k → l'.sockets.get k ≠ none
  gone : ∀ {k}, k < l.nextSocket → l.sockets.get k = none → l'.sockets.get k = none
  asked : ∀ {r}, l'.meters.get r = some .owner →
    (l.meters.get r = some .owner ∧ ∀ u, e ≠ .ownerAnswer r (some u)) ∨
      r = l.registry.objs.length

theorem Moves.same (hs : l'.sockets = l.sockets) (hm : l'.meters = l.meters)
    (he : ∀ r u, e ≠ .ownerAnswer r u) : Moves l e l' where
  kept := fun hk _ => by rw [hs]; exact hk
  gone := fun _ hk => by rw [hs]; exact hk
  asked := fun hr => Or.inl ⟨by rw [← hm]; exact hr, fun u => he _ _⟩

theorem Moves.opened {x : LinkHandle} (hs : l'.sockets = l.sockets.set l.nextSocket x)
    (hm : l'.meters = l.meters) (he : ∀ r u, e ≠ .ownerAnswer r u) : Moves l e l' where
  kept := by
    intro k hk _
    rw [hs, get_set]
    split
    · simp
    · exact hk
  gone := by
    intro k hlt hk
    rw [hs, get_set, if_neg (by omega)]
    exact hk
  asked := fun hr => Or.inl ⟨by rw [← hm]; exact hr, fun u => he _ _⟩

theorem Moves.closed {k : Nat} (hs : l'.sockets = l.sockets.delete k) (hm : l'.meters = l.meters) :
    Moves l (.close k) l' where
  kept := by
    intro i hi hne
    rw [hs, get_delete, if_neg (fun h => hne (by rw [h]))]
    exact hi
  gone := by
    intro i _ hi
    rw [hs, get_delete]
    split
    · rfl
    · exact hi
  asked := fun hr => Or.inl ⟨by rw [← hm]; exact hr, fun u => by simp⟩

theorem step_moves (cfg : LinkConfig) (now : Nat) (l : Link) (e : LinkEvent) : Moves l e (step cfg now l e).1 := by
  have hturn := step_turn cfg now l e
  generalize (step cfg now l e).1 = l' at hturn
  cases hturn with
  | framed frame silent => exact .same frame.sockets frame.meters silent
  | gone frame => exact .closed frame.sockets frame.meters
  | attached valid sockets nextSocket meters drawn agent request silent =>
    rcases sockets with hs | hs
    · exact .same hs meters silent
    · exact .opened hs meters silent
  | registered socket touches user free id metered =>
    refine ⟨fun {i} hi _ => ?_, fun {i} _ hi => ?_, fun hr => ?_⟩
    · dsimp only
      rw [get_set]
      split
      · simp
      · exact hi
    · dsimp only
      rw [get_set, if_neg (fun h => by rw [h, socket] at hi; cases hi)]
      exact hi
    · cases metered hr with
      | inl hnew => exact .inr (hnew.trans (touches fun _ _ => False).quiet.length)
      | inr hold => exact .inl ⟨hold, by simp⟩
  | metered registry sockets nextSocket drawn meters =>
    exact ⟨fun hi _ => by rw [sockets]; exact hi, fun _ hi => by rw [sockets]; exact hi,
      fun hi => .inl ((meters hi).2 rfl)⟩

/-- The usages of a step, read off its outputs. -/
def usagesOf (out : List LinkOut) : List Usage := out.filterMap LinkOut.usage

theorem step_usages (cfg : LinkConfig) (now : Nat) (l : Link) (e : LinkEvent) : usagesOf (step cfg now l e).2 = [] ∨
    ∃ (k r : Nat) (challenge t u : String) (tunnel : Tunnel), e = .close k ∧
      l.sockets.get k = some (.agent challenge (some t)) ∧ l.registry.tunnels.get t = some r ∧
      l.registry.objs[r]? = some tunnel ∧ tunnel.owner = some u ∧
      usagesOf (step cfg now l e).2 = [(r, u, tunnel.bytes)] := by
  have hem := step_emits cfg now l e
  unfold usagesOf
  rw [← usage_filter]
  generalize (step cfg now l e).2.filter LinkOut.isSalient = out at hem
  cases hem with
  | nothing | browserFrame | agentFrame => exact Or.inl rfl
  | @usage k r challenge t u tunnel seconds socket current obj live owner =>
    exact Or.inr ⟨k, r, challenge, t, u, tunnel, rfl, socket, current, obj, owner, rfl⟩
  | reply => exact Or.inl rfl
  | flushed =>
    refine Or.inl (filterMap_eq_nil_iff.2 fun o ho => ?_)
    obtain ⟨message, -, rfl⟩ := mem_map.1 ho
    rfl
  | request | reveal => exact Or.inl rfl

variable {r : Nat} {u : String}

theorem usage_obj {b : Nat} (h : (r, u, b) ∈ usagesOf (step cfg now l e).2) :
    ∃ tunnel, l.registry.objs[r]? = some tunnel ∧ tunnel.owner = some u := by
  rcases step_usages cfg now l e with hno | ⟨k, i, ch, t, v, tunnel, -, -, -, hobj, hu, hone⟩
  · rw [hno] at h
    cases h
  · rw [hone] at h
    cases mem_singleton.1 h
    exact ⟨tunnel, hobj, hu⟩

variable {tunnel : Tunnel}

theorem close_usages {k : Nat} {challenge t u : String}
    (hmeter : cfg.metering = true) (hk : l.sockets.get k = some (.agent challenge (some t)))
    (hcur : l.registry.tunnels.get t = some r) (hobj : l.registry.objs[r]? = some tunnel)
    (hx : now < tunnel.expiresAt) (hu : tunnel.owner = some u) :
    usagesOf (step cfg now l (.close k)).2 = [(r, u, tunnel.bytes)] := by
  unfold usagesOf
  rw [← usage_filter]
  simp only [step, hk]
  rw [agentGone_salient, get_live hcur hobj hx]
  simp [settle, hu, hmeter, LinkOut.usage]

theorem close_unmapped (h : Inv l) {k : Nat} {challenge t : String}
    (hk : l.sockets.get k = some (.agent challenge (some t))) :
    (step cfg now l (.close k)).1.registry.tunnels.get t = none := by
  simp only [step, hk, agentGone]
  have hm : (l.registry.get t now).1.Mapped := (l.registry.get_quiet t now).mapped h.mapped
  have hdrop := ((l.registry.get t now).1.drop_spec hm t .agentGone).1 t
  rw [if_pos rfl] at hdrop
  exact hdrop

theorem charged_owner (h : Charged l e .owner r) : ∃ u, e = .ownerAnswer r (some u) ∧ l.meters.get r = some .owner := by
  cases e with
  | message k raw =>
    simp only [Charged] at h
    split at h
    · obtain ⟨msg, -, hd, -⟩ := h
      cases hd
    · exact absurd h.1 (by simp)
    · cases h
  | ownerAnswer i owner =>
    obtain ⟨-, rfl, hm, ho⟩ := h
    cases owner with
    | none => exact absurd rfl ho
    | some u => exact ⟨u, rfl, hm⟩
  | _ => cases h

theorem charged_bytes (h : Charged l e .bytes r) :
    (∃ k challenge t, l.sockets.get k = some (.agent challenge (some t)) ∧ l.registry.tunnels.get t = some r) ∨
    ∃ k t sid data, l.sockets.get k = some (.browser t r sid) ∧
      e = .message k (.tunnel (.streamFrame sid data)) ∧ 0 < data.length := by
  cases e with
  | message k raw =>
    simp only [Charged] at h
    split at h
    · next challenge t hk =>
      obtain ⟨msg, -, -, hcur, -⟩ := h
      exact Or.inl ⟨k, challenge, t, hk, hcur⟩
    · next t i sid hk =>
      obtain ⟨-, rfl, data, rfl, hpos⟩ := h
      exact Or.inr ⟨k, t, sid, data, hk, rfl, hpos⟩
    · cases h
  | ownerAnswer i owner => cases h.1
  | _ => cases h

/-- The registrations after a step: the old ones with the debts that were not charged
as they were, and possibly a new one without an owner. -/
structure Advances (l : Link) (e : LinkEvent) (l' : Link) : Prop where
  forth : ∀ {r : Nat} {tunnel : Tunnel}, l.registry.objs[r]? = some tunnel →
    ∃ tunnel', l'.registry.objs[r]? = some tunnel' ∧
      ∀ d, ¬ Charged l e d r → tunnel'.debt d = tunnel.debt d
  back : ∀ {r : Nat} {tunnel' : Tunnel}, l'.registry.objs[r]? = some tunnel' →
    (∃ tunnel, l.registry.objs[r]? = some tunnel ∧ tunnel'.core = tunnel.core ∧
      ∀ d, ¬ Charged l e d r → tunnel'.debt d = tunnel.debt d) ∨
    (r = l.registry.objs.length ∧ tunnel'.userId = none ∧ l'.sockets.get tunnel'.agent ≠ none)
  current : ∀ {t r}, l'.registry.tunnels.get t = some r →
    l.registry.tunnels.get t = some r ∨ r = l.registry.objs.length

theorem Advances.touches (ht : l.registry.Touches (Charged l e) l'.registry) : Advances l e l' := by
  have hdebt : ∀ {r : Nat} {tunnel tunnel' : Tunnel}, l.registry.objs[r]? = some tunnel →
      l'.registry.objs[r]? = some tunnel' → ∀ d, ¬ Charged l e d r →
      tunnel'.debt d = tunnel.debt d := by
    intro r tunnel tunnel' hobj hobj' d hd
    have hsame := ht.debt hd
    rw [hobj, hobj'] at hsame
    exact Option.some.inj hsame
  refine ⟨fun {r tunnel} hobj => ?_, fun {r tunnel'} hobj' => Or.inl ?_, fun hc => ?_⟩
  · obtain ⟨tunnel', hobj', -⟩ := ht.quiet.forth hobj
    exact ⟨tunnel', hobj', hdebt hobj hobj'⟩
  · obtain ⟨tunnel, hobj, hcore⟩ := ht.quiet.back hobj'
    exact ⟨tunnel, hobj, hcore.symm, hdebt hobj hobj'⟩
  · exact Or.inl (ht.quiet.kept hc)

theorem step_advances (h : Inv l) (e : LinkEvent) : Advances l e (step cfg now l e).1 := by
  rcases @step_registry cfg now l h e with
    ht | ⟨reg₀, new, epoch, ht, hu, hopen, ⟨raw, rfl⟩, -, -, he⟩
  · exact .touches ht
  · have ht' := ht (Charged l (.message new.agent raw))
    have hlen : reg₀.objs.length = l.registry.objs.length := ht'.quiet.length
    have hold : ∀ {r : Nat} {tunnel : Tunnel}, reg₀.objs[r]? = some tunnel →
        r ≠ reg₀.objs.length := fun hobj => Nat.ne_of_lt (List.getElem?_eq_some_iff.1 hobj).1
    have hmid : Advances l (.message new.agent raw) { l with registry := reg₀ } := .touches ht'
    refine ⟨fun {r tunnel} hobj => ?_, fun {r tunnel'} hobj' => ?_, fun {t r} hc => ?_⟩
    · obtain ⟨tunnel', hobj', hdebt⟩ := hmid.forth hobj
      refine ⟨tunnel', ?_, hdebt⟩
      rw [he, objs_install, if_neg (hold hobj')]
      exact hobj'
    · rw [he, objs_install] at hobj'
      split at hobj'
      · next hr =>
        cases hobj'
        refine Or.inr ⟨hr.trans hlen, hu, (step_moves cfg now l _).kept hopen (by simp)⟩
      · rcases hmid.back hobj' with hb | ⟨hr, -⟩
        · exact Or.inl hb
        · exact absurd (hr.trans hlen.symm) (hold hobj')
    · rw [he] at hc
      simp only [TunnelRegistry.install] at hc
      rw [get_set] at hc
      split at hc
      · cases hc
        exact Or.inr hlen
      · exact hmid.current hc

structure Punctual (now : Nat) (l : Link) (e : LinkEvent) : Prop where
  close : ∀ {r : Nat} {tunnel : Tunnel}, l.registry.objs[r]? = some tunnel →
    e = .close tunnel.agent → l.sockets.get tunnel.agent ≠ none → tunnel.owner ≠ none →
    l.registry.tunnels.get tunnel.id = some r ∧ now < tunnel.expiresAt
  owner : ∀ {r : Nat} {tunnel : Tunnel} {u : String}, l.registry.objs[r]? = some tunnel →
    e = .ownerAnswer r (some u) → l.meters.get r = some .owner → u ≠ "" →
    l.sockets.get tunnel.agent ≠ none
  bytes : ∀ {k r : Nat} {tunnel : Tunnel} {t sid data : String},
    l.registry.objs[r]? = some tunnel → e = .message k (.tunnel (.streamFrame sid data)) →
    l.sockets.get k = some (.browser t r sid) → tunnel.owner ≠ none → 0 < data.length →
    l.sockets.get tunnel.agent ≠ none

/-- The calls so far against the registrations. -/
structure Accounts (us : List Usage) (l : Link) : Prop where
  unresolved : ∀ {r : Nat} {tunnel : Tunnel}, l.meters.get r = some .owner →
    l.registry.objs[r]? = some tunnel → tunnel.userId = none
  owned : ∀ {r u b}, (r, u, b) ∈ us →
    ∃ tunnel, l.registry.objs[r]? = some tunnel ∧ tunnel.owner = some u
  pending : ∀ {r : Nat} {tunnel : Tunnel}, l.registry.objs[r]? = some tunnel →
    l.registry.tunnels.get tunnel.id = some r →
    settledFor us r = [] ∧ l.sockets.get tunnel.agent ≠ none
  settled : ∀ {r : Nat} {tunnel : Tunnel} {u : String}, l.registry.objs[r]? = some tunnel →
    tunnel.owner = some u → l.sockets.get tunnel.agent = none →
    settledFor us r = [(r, u, tunnel.bytes)]

theorem create_accounts : Accounts [] create := by
  constructor <;> intros <;> simp_all [create, TunnelRegistry.create]

theorem owner_of_debt {tunnel' : Tunnel} (h : tunnel'.debt .owner = tunnel.debt .owner) :
    tunnel'.userId = tunnel.userId ∧ tunnel'.owner = tunnel.owner := by
  have hu : tunnel'.userId = tunnel.userId := (Prod.mk.inj h).2
  exact ⟨hu, by rw [Tunnel.owner, Tunnel.owner, hu]⟩

theorem owner_none (h : tunnel.userId = none) : tunnel.owner = none := by
  rw [Tunnel.owner, h]
  rfl

theorem Accounts.not_charged (ha : Accounts us l)
    (hobj : l.registry.objs[r]? = some tunnel) (hu : tunnel.owner ≠ none) : ¬ Charged l e .owner r := by
  intro hc
  obtain ⟨u, -, hm⟩ := charged_owner hc
  exact hu (owner_none (ha.unresolved hm hobj))

section Step
variable {us : List Usage} (h : Inv l) (ha : Accounts us l)
include h ha

variable {r : Nat} {tunnel' : Tunnel}

theorem Accounts.step_unresolved (hm : (step cfg now l e).1.meters.get r = some .owner)
    (hobj' : (step cfg now l e).1.registry.objs[r]? = some tunnel') : tunnel'.userId = none := by
  rcases (step_advances h e).back hobj' with ⟨tunnel, hobj, -, hdebt⟩ | ⟨-, hu, -⟩
  · rcases (step_moves cfg now l e).asked hm with ⟨hm', hne⟩ | hr
    · have hfree : ¬ Charged l e .owner r := by
        intro hc
        obtain ⟨u, he, -⟩ := charged_owner hc
        exact hne u he
      rw [(owner_of_debt (hdebt .owner hfree)).1]
      exact ha.unresolved hm' hobj
    · have hlt := (List.getElem?_eq_some_iff.1 hobj).1
      omega
  · exact hu

theorem Accounts.step_owned {b : Nat} (hmem : (r, u, b) ∈ us ++ usagesOf (step cfg now l e).2) :
    ∃ tunnel', (step cfg now l e).1.registry.objs[r]? = some tunnel' ∧ tunnel'.owner = some u := by
  have hold : ∃ tunnel, l.registry.objs[r]? = some tunnel ∧ tunnel.owner = some u := by
    rcases mem_append.1 hmem with hmem | hmem
    · exact ha.owned hmem
    · exact usage_obj hmem
  obtain ⟨tunnel, hobj, hu⟩ := hold
  obtain ⟨tunnel', hobj', hdebt⟩ := (@step_advances cfg now l h e).forth hobj
  refine ⟨tunnel', hobj', ?_⟩
  rw [(owner_of_debt (hdebt .owner (ha.not_charged hobj (by simp [hu])))).2, hu]

theorem Accounts.step_pending (hobj' : (step cfg now l e).1.registry.objs[r]? = some tunnel')
    (hcur' : (step cfg now l e).1.registry.tunnels.get tunnel'.id = some r) :
    settledFor (us ++ usagesOf (step cfg now l e).2) r = [] ∧
      (step cfg now l e).1.sockets.get tunnel'.agent ≠ none := by
  rcases (step_advances h e).back hobj' with ⟨tunnel, hobj, hcore, -⟩ | ⟨hr, -, hopen⟩
  · have hlt := (List.getElem?_eq_some_iff.1 hobj).1
    obtain ⟨hid, -, -, -, hagent⟩ := core_eq hcore
    rw [hid] at hcur'
    have hcur : l.registry.tunnels.get tunnel.id = some r :=
      ((step_advances h e).current hcur').resolve_right (by omega)
    obtain ⟨hnone, hopen⟩ := ha.pending hobj hcur
    -- closing the socket would have taken the id away
    have hclose : e ≠ .close tunnel.agent := by
      rintro rfl
      rcases h.handled hobj with ⟨ch, hk⟩ | hk
      · rw [close_unmapped h hk] at hcur'
        cases hcur'
      · exact hopen hk
    refine ⟨?_, by rw [hagent]; exact (step_moves cfg now l e).kept hopen hclose⟩
    rw [settledFor, Ledger.postedTo_append, ← settledFor, hnone, nil_append]
    rcases step_usages cfg now l e with hno | ⟨k, i, ch, t, v, old, rfl, hk, hcurt, -, -, hone⟩
    · rw [hno]
      rfl
    · refine filter_eq_nil_iff.2 fun x hx => ?_
      rw [hone] at hx
      cases mem_singleton.1 hx
      simp only [decide_eq_true_eq]
      rintro rfl
      obtain ⟨other, hother, ht⟩ := h.mapped hcurt
      rw [hobj] at hother
      cases hother
      rw [ht, close_unmapped h hk] at hcur'
      cases hcur'
  · refine ⟨filter_eq_nil_iff.2 fun x hx => ?_, hopen⟩
    obtain ⟨i, u, b⟩ := x
    have hi : i < l.registry.objs.length := by
      rcases mem_append.1 hx with hx | hx
      · obtain ⟨tunnel, hobj, -⟩ := ha.owned hx
        exact (List.getElem?_eq_some_iff.1 hobj).1
      · obtain ⟨tunnel, hobj, -⟩ := usage_obj hx
        exact (List.getElem?_eq_some_iff.1 hobj).1
    simp only [decide_eq_true_eq]
    omega

theorem Accounts.step_closed (hp : Punctual now l e) {tunnel : Tunnel}
    (hobj : l.registry.objs[r]? = some tunnel) (hobj' : (step cfg now l e).1.registry.objs[r]? = some tunnel')
    (hdebt : ∀ d, ¬ Charged l e d r → tunnel'.debt d = tunnel.debt d)
    (hu : tunnel'.owner = some u) (hgone : l.sockets.get tunnel.agent = none) :
    settledFor (us ++ usagesOf (step cfg now l e).2) r = [(r, u, tunnel'.bytes)] := by
  have hcur : ∀ {t}, l.registry.tunnels.get t ≠ some r := by
    intro t ht
    obtain ⟨other, hother, hid⟩ := h.mapped ht
    rw [hobj] at hother
    cases hother
    exact (ha.pending hobj (by rw [hid]; exact ht)).2 hgone
  have hfree : ¬ Charged l e .owner r := by
    intro hc
    obtain ⟨v, rfl, hm⟩ := charged_owner hc
    have hset : (ownerAnswer l r (some v)).registry.objs[r]? =
        some { tunnel with userId := some v } := by
      simp only [ownerAnswer, hm, objs_update, if_pos, hobj, Option.map_some]
    simp only [step] at hobj'
    rw [hset] at hobj'
    cases hobj'
    refine hp.owner hobj rfl hm ?_ hgone
    rintro rfl
    simp [Tunnel.owner] at hu
  have hu' : tunnel.owner = some u := by rw [← (owner_of_debt (hdebt .owner hfree)).2, hu]
  have hbytes : ¬ Charged l e .bytes r := by
    intro hc
    rcases charged_bytes hc with ⟨k, ch, t, -, ht⟩ | ⟨k, t, sid, data, hk, he, hpos⟩
    · exact hcur ht
    · exact hp.bytes hobj he hk (by simp [hu']) hpos hgone
  have hb : tunnel'.bytes = tunnel.bytes := (Prod.mk.inj (hdebt .bytes hbytes)).1
  have hnew : settledFor (usagesOf (step cfg now l e).2) r = [] := by
    rcases step_usages cfg now l e with hno | ⟨k, i, ch, t, v, old, -, -, ht, -, -, hone⟩
    · rw [hno]
      rfl
    · refine filter_eq_nil_iff.2 fun x hx => ?_
      rw [hone] at hx
      cases mem_singleton.1 hx
      simp only [decide_eq_true_eq]
      rintro rfl
      exact hcur ht
  rw [settledFor] at hnew
  rw [settledFor, Ledger.postedTo_append, hnew, ← settledFor, ha.settled hobj hu' hgone, hb,
    append_nil]

theorem Accounts.step_settled (hmeter : cfg.metering = true) (hp : Punctual now l e)
    (hobj' : (step cfg now l e).1.registry.objs[r]? = some tunnel') (hu : tunnel'.owner = some u)
    (hgone' : (step cfg now l e).1.sockets.get tunnel'.agent = none) :
    settledFor (us ++ usagesOf (step cfg now l e).2) r = [(r, u, tunnel'.bytes)] := by
  rcases (step_advances h e).back hobj' with ⟨tunnel, hobj, hcore, hdebt⟩ | ⟨-, -, hopen⟩
  · obtain ⟨-, -, -, -, hagent⟩ := core_eq hcore
    rw [hagent] at hgone'
    rcases h.handled hobj with ⟨ch, hk⟩ | hgone
    · -- the socket was open, so this is its close
      have he : e = .close tunnel.agent := by
        by_contra hne
        exact (step_moves cfg now l e).kept (by rw [hk]; simp) hne hgone'
      subst he
      have hown := owner_of_debt (hdebt .owner (by simp [Charged]))
      have hb : tunnel'.bytes = tunnel.bytes := (Prod.mk.inj (hdebt .bytes (by simp [Charged]))).1
      have hu' : tunnel.owner = some u := by rw [← hown.2, hu]
      obtain ⟨hcur, hx⟩ := hp.close hobj rfl (by rw [hk]; simp) (by simp [hu'])
      have hnone := (ha.pending hobj hcur).1
      rw [settledFor] at hnone
      rw [settledFor, Ledger.postedTo_append, hnone, close_usages hmeter hk hcur hobj hx hu', hb]
      simp [Ledger.postedTo]
    · exact ha.step_closed h hp hobj hobj' hdebt hu hgone
  · exact absurd hgone' hopen

theorem Accounts.step (hmeter : cfg.metering = true) (hp : Punctual now l e) :
    Accounts (us ++ usagesOf (step cfg now l e).2) (step cfg now l e).1 :=
  ⟨fun hm hobj => ha.step_unresolved h hm hobj, fun hmem => ha.step_owned h hmem,
    fun hobj hcur => ha.step_pending h hobj hcur,
    fun hobj hu hgone => ha.step_settled h hmeter hp hobj hu hgone⟩

end Step

/-- Writes that charge nothing and move no socket keep the accounts. -/
theorem Accounts.touches (ha : Accounts us l)
    (ht : l.registry.Touches (fun _ _ => False) l'.registry) (hs : l'.sockets = l.sockets)
    (hm : l'.meters = l.meters) : Accounts us l' := by
  have hback : ∀ {r : Nat} {tunnel' : Tunnel}, l'.registry.objs[r]? = some tunnel' →
      ∃ tunnel, l.registry.objs[r]? = some tunnel ∧ tunnel'.core = tunnel.core ∧
        tunnel'.debt = tunnel.debt := by
    intro r tunnel' hobj'
    obtain ⟨tunnel, hobj, hcore⟩ := ht.quiet.back hobj'
    refine ⟨tunnel, hobj, hcore.symm, funext fun d => ?_⟩
    have hsame : (l'.registry.objs[r]?).map (·.debt d) = (l.registry.objs[r]?).map (·.debt d) :=
      ht.debt fun h => h
    rw [hobj, hobj'] at hsame
    exact Option.some.inj hsame
  constructor
  case unresolved =>
    intro r tunnel' hr hobj'
    obtain ⟨tunnel, hobj, -, hdebt⟩ := hback hobj'
    rw [(owner_of_debt (congrFun hdebt .owner)).1]
    exact ha.unresolved (by rw [← hm, hr]) hobj
  case owned =>
    intro r u b hmem
    obtain ⟨tunnel, hobj, hu⟩ := ha.owned hmem
    obtain ⟨tunnel', hobj', -⟩ := ht.quiet.forth hobj
    obtain ⟨tunnel₀, hobj₀, -, hdebt⟩ := hback hobj'
    rw [hobj] at hobj₀
    cases hobj₀
    exact ⟨tunnel', hobj', by rw [(owner_of_debt (congrFun hdebt .owner)).2, hu]⟩
  case pending =>
    intro r tunnel' hobj' hcur'
    obtain ⟨tunnel, hobj, hcore, -⟩ := hback hobj'
    obtain ⟨hid, -, -, -, hagent⟩ := core_eq hcore
    rw [hs, hagent]
    exact ha.pending hobj (by rw [← hid]; exact ht.quiet.kept hcur')
  case settled =>
    intro r tunnel' u hobj' hu hgone
    obtain ⟨tunnel, hobj, hcore, hdebt⟩ := hback hobj'
    have hbytes : tunnel'.bytes = tunnel.bytes := (Prod.mk.inj (congrFun hdebt .bytes)).1
    rw [hbytes]
    refine ha.settled hobj ?_ ?_
    · rw [← (owner_of_debt (congrFun hdebt .owner)).2, hu]
    · rw [← (core_eq hcore).2.2.2.2, ← hs, hgone]

end Link

/-- What was recorded for an account, and what was charged to it. -/
def recordedFor (us : List Usage) (u : String) : Nat :=
  ((us.filter fun x => x.2.1 = u).map fun x => x.2.2).sum

def chargedTo (l : Link) (u : String) : Nat :=
  ((l.registry.objs.filter fun tunnel => tunnel.owner = some u).map Tunnel.bytes).sum

/-- Every owned registration that is over was recorded exactly once and in full, and
per account the records add up to the charges. -/
structure SettledOnce (us : List Usage) (l : Link) : Prop where
  once : ∀ (r : Nat) (tunnel : Tunnel) (u : String), l.registry.objs[r]? = some tunnel →
    tunnel.owner = some u → l.sockets.get tunnel.agent = none →
    settledFor us r = [(r, u, tunnel.bytes)]
  total : ∀ u, (∀ tunnel ∈ l.registry.objs, tunnel.owner = some u →
    l.sockets.get tunnel.agent = none) → recordedFor us u = chargedTo l u

theorem Link.Accounts.settledOnce {l : Link} (ha : Link.Accounts us l) : SettledOnce us l where
  once := fun _ _ _ hobj hu hgone => ha.settled hobj hu hgone
  total := by
    intro u hover
    have hsum := Ledger.total_eq Prod.fst (fun x : Usage => if x.2.1 = u then x.2.2 else 0)
      (fun tunnel : Tunnel => if tunnel.owner = some u then tunnel.bytes else 0) l.registry.objs us
      (fun x hx => by
        obtain ⟨tunnel, hobj, -⟩ := ha.owned hx
        exact (List.getElem?_eq_some_iff.1 hobj).1)
      (fun r tunnel hobj => by
        split
        · next hu =>
          have hmem := mem_of_getElem? hobj
          have hone := ha.settled hobj hu (hover tunnel hmem hu)
          rw [settledFor] at hone
          simp [hone]
        · next hu =>
          refine sum_eq_zero fun n hn => ?_
          obtain ⟨x, hx, rfl⟩ := mem_map.1 hn
          obtain ⟨hmem, rfl⟩ := mem_settledFor.1 hx
          obtain ⟨tunnel', hobj', hu'⟩ := ha.owned hmem
          rw [hobj] at hobj'
          cases hobj'
          exact if_neg fun he => hu (by rw [hu', he]))
    rw [sum_map_ite, sum_map_ite] at hsum
    simpa [recordedFor, chargedTo] using hsum

namespace System
variable {cfg : BrokerConfig}

/-- The calls of `recordUsage` in a run. -/
def usages (out : List BrokerOut) : List Usage := out.filterMap BrokerOut.usage

theorem usages_append (out out' : List BrokerOut) : usages (out ++ out') = usages out ++ usages out' :=
  filterMap_append

theorem usages_link (out : List LinkOut) : usages (out.map .link) = Link.usagesOf out := by
  rw [usages, filterMap_map]
  rfl

def PunctualStep (x : Machine.Entry System BrokerEvent BrokerOut) : Prop :=
  ∀ e, x.event = .link e → Link.Punctual x.pre.now x.pre.link e

theorem step_accounts (hmeter : cfg.link.metering = true) {b : System}
    (h : b.link.Inv) (ha : Link.Accounts us b.link) (e : BrokerEvent) (hp : PunctualStep ((machine cfg).entry b e)) :
    Link.Accounts (us ++ usages (step cfg b e).2) (step cfg b e).1.link := by
  cases e with
  | tick ms => simpa [step, usages] using ha
  | pairing event =>
    have hno : usages ((b.pairing.step cfg.pairing b.now event).2.map .pairing) = [] := by
      rw [usages, filterMap_map]
      exact filterMap_eq_nil_iff.2 fun _ _ => rfl
    simp only [step]
    rw [hno, append_nil]
    exact ha
  | link event =>
    simp only [step]
    rw [usages_link]
    exact ha.step h hmeter (hp event rfl)
  | sweep =>
    obtain ⟨ht, hs, -, hm, -⟩ := Link.sweep_frame (fun _ _ => False) b.now b.link
    have hno : usages (step cfg b .sweep).2 = [] := by
      simp only [step, sweepAll]
      rw [usages_link, Link.usagesOf, ← usage_filter]
      simp only [Link.sweepTunnels, TunnelRegistry.sweep]
      rw [(sweepIds_plain _ _ _).filter]
      rfl
    rw [hno, append_nil]
    exact ha.touches ht hs hm

theorem run_accounts (hmeter : cfg.link.metering = true) (es : List BrokerEvent)
    (hp : ∀ x ∈ (machine cfg).trace es, PunctualStep x) :
    Link.Accounts (usages ((machine cfg).outputs es)) ((machine cfg).run es).link := by
  refine (machine cfg).trace_invariant (fun s outs => Link.Accounts (usages outs) s.link) Link.create_accounts ?_ hp
  intro es e hbefore hlast
  rw [usages_append]
  exact step_accounts hmeter (run_link_inv cfg es) hbefore e hlast

/-- In a run of such steps every ended registration with an owner is recorded once,
with all its bytes. -/
theorem usage_settled_once (cfg : BrokerConfig) (hmeter : cfg.link.metering = true)
    (es : List BrokerEvent) (hp : ∀ x ∈ (machine cfg).trace es, PunctualStep x) :
    SettledOnce (usages ((machine cfg).outputs es)) ((machine cfg).run es).link :=
  (run_accounts hmeter es hp).settledOnce

/-- Device `d` of account `u` registers on socket 0 and sends three bytes. -/
def metered : List BrokerEvent :=
  [.link .attachAgent,
    .link (.message 0 (.tunnel (.register "d" "d" "i" "di"))),
    .link (.ownerAnswer 0 (some "u")),
    .link (.message 0 (.tunnel (.streamFrame "s" "abc")))]

theorem usage_settled_once_metered : SettledOnce (usages ((machine sample).outputs (metered ++ [.link (.close 0)])))
      ((machine sample).run (metered ++ [.link (.close 0)])).link := by
  refine usage_settled_once sample rfl _ fun x hx e he => ?_
  have hopen : ∀ {b : System}, b.link.registry.objs.map Tunnel.agent = [0] →
      (b.link.sockets.get 0).isSome → ∀ {r : Nat} {tunnel : Tunnel},
      b.link.registry.objs[r]? = some tunnel → b.link.sockets.get tunnel.agent ≠ none := by
    intro b hagents hsome r tunnel hobj
    have hmem : tunnel.agent ∈ [0] := hagents ▸ mem_map_of_mem (mem_of_getElem? hobj)
    rw [mem_singleton.1 hmem]
    exact Option.isSome_iff_ne_none.1 hsome
  simp only [Machine.trace, metered, cons_append, nil_append, Machine.traceFrom,
    mem_cons, not_mem_nil, or_false] at hx
  rcases hx with rfl | rfl | rfl | rfl | rfl <;> cases he
  · constructor <;> intros <;> simp_all
  · constructor <;> intros <;> simp_all
  · refine ⟨by simp, fun hobj _ _ _ => hopen (by decide +kernel) (by decide +kernel) hobj, by simp⟩
  · refine ⟨by simp, by simp, fun hobj _ _ _ _ => ?_⟩
    exact hopen (by decide +kernel) (by decide +kernel) hobj
  · refine ⟨fun {r tunnel} hobj _ _ _ => ?_, by simp, by simp⟩
    have hobjs : ((machine sample).run metered).link.registry.objs.map
        (fun tunnel => (tunnel.id, tunnel.expiresAt)) = [("tnl-d:0", 60000)] := by decide +kernel
    have hcur : ((machine sample).run metered).link.registry.tunnels.get "tnl-d:0" = some 0 := by
      decide +kernel
    have hobj' : ((machine sample).run metered).link.registry.objs[r]? = some tunnel := hobj
    have hr := congrArg (fun objs => objs[r]?) hobjs
    simp only [List.getElem?_map, hobj', Option.map_some] at hr
    obtain ⟨hlt, heq⟩ := List.getElem?_eq_some_iff.1 hr.symm
    have hr0 : r = 0 := by simpa using hlt
    subst hr0
    obtain ⟨hid, hx⟩ := Prod.mk.inj heq
    rw [← hid, ← hx]
    exact ⟨hcur, by decide +kernel⟩

/-- It reconnects on socket 1, and only then is its first socket seen to close. -/
theorem usage_lost_by_reconnect : ¬ SettledOnce (usages ((machine sample).outputs (metered ++ [.link .attachAgent,
        .link (.message 1 (.tunnel (.register "d" "d" "ii" "dii"))), .link (.close 0)])))
      ((machine sample).run (metered ++ [.link .attachAgent,
        .link (.message 1 (.tunnel (.register "d" "d" "ii" "dii"))), .link (.close 0)])).link := by
  intro h
  have hobj : (((machine sample).run (metered ++ [.link .attachAgent,
      .link (.message 1 (.tunnel (.register "d" "d" "ii" "dii"))),
      .link (.close 0)])).link.registry.objs[0]?).map
        (fun tunnel => (tunnel.owner, tunnel.agent)) = some (some "u", 0) := by decide +kernel
  obtain ⟨tunnel, htunnel, heq⟩ := Option.map_eq_some_iff.1 hobj
  obtain ⟨hu, hagent⟩ := Prod.mk.inj heq
  have hone := h.once 0 tunnel "u" htunnel hu (by rw [hagent]; decide +kernel)
  have hnone : settledFor (usages ((machine sample).outputs (metered ++ [.link .attachAgent,
      .link (.message 1 (.tunnel (.register "d" "d" "ii" "dii"))), .link (.close 0)]))) 0 = [] := by
    decide +kernel
  rw [hnone] at hone
  cases hone

end System
end Mtmux.Broker
