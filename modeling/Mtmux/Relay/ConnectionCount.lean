import Mtmux.Base.OrderedMap
import Mtmux.Base.Machine

/-! The table of connections and the count of each address, with removals that wait and may run twice. -/
namespace OrderedMap
variable {κ ν : Type*} [DecidableEq κ]

theorem filter_delete (m : OrderedMap κ ν) (k : κ) (p : κ → ν → Bool) : (m.delete k).filter p = (m.filter p).delete k := by
  simp only [delete, filter, mk.injEq]
  rw [List.filter_filter, List.filter_filter]
  simp only [Bool.and_comm]

variable [DecidableEq ν]

/-- How many keys have this value. -/
def holding (m : OrderedMap κ ν) (v : ν) : Nat := (m.filter fun _ w => w = v).size

variable {m : OrderedMap κ ν}

theorem holding_set_new {k : κ} (h : m.get k = none) (v w : ν) :
    (m.set k v).holding w = m.holding w + if v = w then 1 else 0 := by
  have hnot : k ∉ m.keys := (m.get_eq_none k).1 h
  rw [set, dif_neg hnot]
  by_cases hsame : v = w
  · simp [holding, filter, size, hsame]
  · simp [holding, filter, size, hsame]

theorem holding_delete {k : κ} {v : ν} (h : m.get k = some v) (w : ν) :
    (m.delete k).holding w + (if v = w then 1 else 0) = m.holding w := by
  rw [holding, filter_delete]
  by_cases hsame : v = w
  · have hget : (m.filter fun _ u => u = w).get k = some v := (m.get_filter _ k v).2 ⟨h, by simpa using hsame⟩
    rw [if_pos hsame, size_delete hget, holding]
  · have hget : (m.filter fun _ u => u = w).get k = none := by
      rw [Option.eq_none_iff_forall_ne_some]
      intro u hu
      obtain ⟨hu, hw⟩ := (m.get_filter _ k u).1 hu
      rw [h] at hu
      cases hu
      exact hsame (of_decide_eq_true hw)
    rw [if_neg hsame, delete_of_absent hget, Nat.add_zero, holding]

end OrderedMap

namespace Mtmux.Relay.ConnectionCount

def maxConnections : Nat := 100
def maxConnectionsPerIp : Nat := 10

/-- What a connection holds when its removal looks: its clone, and partial files of uploads. -/
structure Held where
  cloneSession : Bool
  uploads : Nat

/-- What a removal waits for. The close handler waits for the queue of messages first. -/
inductive Stage where
  | drain
  | clone
  | watchers
  | uploads (left : Nat)
  deriving DecidableEq

structure Removal where
  id : Nat
  remoteAddress : String
  stage : Stage

/-- `sockets` are the connections whose close event has not been fired. -/
structure State where
  nextId : Nat
  connections : OrderedMap Nat String
  ipCounts : OrderedMap String Nat
  sockets : OrderedMap Nat String
  removals : List Removal

inductive Event where
  | accept (remoteAddress : Option String)
  | close (id : Nat)
  | disconnect (id : Nat) (held : Held)
  | resume (n : Nat) (held : Held)

inductive Answer where
  | atCapacity (remoteAddress : String)
  | tooMany (remoteAddress : String)
  | connected (id : Nat)

namespace State

def getIpCount (s : State) (ip : String) : Nat := (s.ipCounts.get ip).getD 0

def createConnection (s : State) (remoteAddress : String) : State where
  nextId := s.nextId + 1
  connections := s.connections.set s.nextId remoteAddress
  ipCounts := if remoteAddress = "" then s.ipCounts else s.ipCounts.set remoteAddress (s.getIpCount remoteAddress + 1)
  sockets := s.sockets.set s.nextId remoteAddress
  removals := s.removals

def accept (s : State) (peer : Option String) : State × List Answer :=
  let remoteAddress := peer.getD "unknown"
  if maxConnections ≤ s.connections.size then (s, [.atCapacity remoteAddress])
  else if maxConnectionsPerIp ≤ s.getIpCount remoteAddress then (s, [.tooMany remoteAddress])
  else (s.createConnection remoteAddress, [.connected s.nextId])

/-- Where `removeConnection` waits first. -/
def firstAwait (held : Held) : Stage := if held.cloneSession then .clone else .watchers

/-- The end of `removeConnection`: the count goes down and the connection is out of the table. -/
def release (s : State) (id : Nat) (remoteAddress : String) : State :=
  let next := (s.ipCounts.get remoteAddress).getD 1 - 1
  { s with
    ipCounts :=
      if remoteAddress = "" then s.ipCounts
      else if next = 0 then s.ipCounts.delete remoteAddress else s.ipCounts.set remoteAddress next
    connections := s.connections.delete id }

def goOn (s : State) (n : Nat) (removal : Removal) (held : Held) : State :=
  match removal.stage with
  | .drain => { s with removals := s.removals.set n { removal with stage := firstAwait held } }
  | .clone => { s with removals := s.removals.set n { removal with stage := .watchers } }
  | .watchers => { s with removals := s.removals.set n { removal with stage := .uploads held.uploads } }
  | .uploads (left + 1) => { s with removals := s.removals.set n { removal with stage := .uploads left } }
  | .uploads 0 => { s.release removal.id removal.remoteAddress with removals := s.removals.eraseIdx n }

def step (s : State) : Event → State × List Answer
  | .accept peer => s.accept peer
  | .close id =>
    match s.sockets.get id with
    | none => (s, [])
    | some address => ({ s with sockets := s.sockets.delete id, removals := s.removals ++ [⟨id, address, .drain⟩] }, [])
  | .disconnect id held =>
    match s.connections.get id with
    | none => (s, [])
    | some address => ({ s with removals := s.removals ++ [⟨id, address, firstAwait held⟩] }, [])
  | .resume n held =>
    match s.removals[n]? with
    | none => (s, [])
    | some removal => (s.goOn n removal held, [])

def connectionsFrom (s : State) (address : String) : Nat := s.connections.holding address

end State

def relay : Machine State Event Answer := ⟨⟨1, .empty, .empty, .empty, []⟩, State.step⟩

/-- A removal takes the count down for a connection that is out of the table, while its address has others in it. -/
def strays (s : State) : Event → Bool
  | .resume n _ => s.removals[n]?.any fun removal =>
      removal.stage = .uploads 0 && s.connections.get removal.id = none && removal.remoteAddress ≠ "" &&
        s.connectionsFrom removal.remoteAddress ≠ 0
  | _ => false

/-- Each address is charged for the connections it has, which are never too many. -/
structure Accounted (es : List Event) : Prop where
  counts : ∀ before after, es = before ++ after → ∀ address, address ≠ "" →
    (relay.run before).getIpCount address = (relay.run before).connectionsFrom address
  capped : ∀ before after, es = before ++ after → ∀ address, address ≠ "" →
    (relay.run before).connectionsFrom address ≤ maxConnectionsPerIp
  welcome : ∀ x ∈ relay.trace es, ∀ address, address ≠ "" → .tooMany address ∈ x.out → x.pre.connectionsFrom address ≠ 0

/-! ### What a removal knows of its connection -/

/-- A removal, or a socket, has the address that the table has, if the connection is still there. -/
def Fits (s : State) (id : Nat) (address : String) : Prop :=
  id < s.nextId ∧ ∀ other, s.connections.get id = some other → other = address

structure Wf (s : State) : Prop where
  fresh : ∀ id, s.nextId ≤ id → s.connections.get id = none
  removals : ∀ removal ∈ s.removals, Fits s removal.id removal.remoteAddress
  sockets : ∀ id address, s.sockets.get id = some address → Fits s id address

/-- A step without an effect on the table and the counts. -/
structure Quiet (s t : State) : Prop where
  nextId : t.nextId = s.nextId
  connections : t.connections = s.connections
  ipCounts : t.ipCounts = s.ipCounts
  removals : ∀ removal ∈ t.removals, Fits s removal.id removal.remoteAddress
  sockets : ∀ id address, t.sockets.get id = some address → Fits s id address

/-- What a step can do. -/
inductive Does (s : State) (e : Event) : State → Prop where
  | quiet {t : State} (h : Quiet s t) (hstrays : strays s e = false) : Does s e t
  | created (address : String) (hroom : s.getIpCount address < maxConnectionsPerIp) (hstrays : strays s e = false) :
      Does s e (s.createConnection address)
  | released (n : Nat) (removal : Removal) (hmem : removal ∈ s.removals)
      (hstrays : strays s e = (s.connections.get removal.id = none && removal.remoteAddress ≠ "" &&
        s.connectionsFrom removal.remoteAddress ≠ 0)) :
      Does s e { s.release removal.id removal.remoteAddress with removals := s.removals.eraseIdx n }

section Steps
variable {s : State}

theorem Wf.quiet (h : Wf s) : Quiet s s := ⟨rfl, rfl, rfl, h.removals, h.sockets⟩

variable {address : String} {removal : Removal}

theorem Wf.begins (h : Wf s) {id : Nat} (hfits : Fits s id address) (stage : Stage)
    (hmem : removal ∈ s.removals ++ [⟨id, address, stage⟩]) : Fits s removal.id removal.remoteAddress := by
  cases List.mem_append.1 hmem with
  | inl hold => exact h.removals removal hold
  | inr hnew =>
    obtain rfl := List.mem_singleton.1 hnew
    exact hfits

theorem Wf.waits (h : Wf s) {n : Nat} (hn : s.removals[n]? = some removal) (stage : Stage) :
    Quiet s { s with removals := s.removals.set n { removal with stage } } := by
  refine ⟨rfl, rfl, rfl, fun other hmem => ?_, h.sockets⟩
  cases List.mem_or_eq_of_mem_set hmem with
  | inl hold => exact h.removals other hold
  | inr hnew =>
    subst hnew
    exact h.removals removal (List.mem_of_getElem? hn)

theorem Wf.does (h : Wf s) (e : Event) : Does s e (s.step e).1 := by
  cases e with
  | accept peer =>
    simp only [State.step, State.accept]
    split
    · exact .quiet h.quiet rfl
    · split
      · exact .quiet h.quiet rfl
      · rename_i hroom
        exact .created _ (Nat.lt_of_not_le hroom) rfl
  | close id =>
    simp only [State.step]
    cases hsocket : s.sockets.get id with
    | none => exact .quiet h.quiet rfl
    | some address =>
      refine .quiet ⟨rfl, rfl, rfl, fun removal => h.begins (h.sockets id address hsocket) _, ?_⟩ rfl
      intro other found hget
      rw [OrderedMap.get_delete] at hget
      split at hget
      · cases hget
      · exact h.sockets other found hget
  | disconnect id held =>
    simp only [State.step]
    cases hget : s.connections.get id with
    | none => exact .quiet h.quiet rfl
    | some address =>
      have hfits : Fits s id address := by
        refine ⟨Nat.lt_of_not_le fun hle => ?_, fun other hother => ?_⟩
        · rw [h.fresh id hle] at hget
          cases hget
        · rw [hget] at hother
          exact (Option.some.inj hother).symm
      exact .quiet ⟨rfl, rfl, rfl, fun removal => h.begins hfits _, h.sockets⟩ rfl
  | resume n held =>
    simp only [State.step]
    cases hn : s.removals[n]? with
    | none => exact .quiet h.quiet (by simp [strays, hn])
    | some removal =>
      obtain ⟨id, address, stage⟩ := removal
      cases stage with
      | uploads left =>
        cases left with
        | succ left => exact .quiet (h.waits hn _) (by simp [strays, hn])
        | zero => exact .released n ⟨id, address, .uploads 0⟩ (List.mem_of_getElem? hn) (by simp [strays, hn])
      | _ => exact .quiet (h.waits hn _) (by simp [strays, hn])

theorem Fits.release {id : Nat} (h : Fits s id address) (other : Nat) (peer : String) :
    Fits (s.release other peer) id address := by
  refine ⟨h.1, fun found hget => h.2 found ?_⟩
  change (s.connections.delete other).get id = some found at hget
  rw [OrderedMap.get_delete] at hget
  split at hget
  · cases hget
  · exact hget

theorem Fits.created {id : Nat} (h : Fits s id address) (peer : String) :
    Fits (s.createConnection peer) id address := by
  refine ⟨Nat.lt_succ_of_lt h.1, fun found hget => h.2 found ?_⟩
  change (s.connections.set s.nextId peer).get id = some found at hget
  rwa [OrderedMap.get_set, if_neg (Nat.ne_of_lt h.1)] at hget

theorem Wf.step (h : Wf s) (e : Event) : Wf (s.step e).1 := by
  have hdoes := h.does e
  generalize (s.step e).1 = t at hdoes ⊢
  cases hdoes with
  | quiet hquiet =>
    have hsame {id : Nat} {address : String} (hfits : Fits s id address) : Fits t id address := by
      refine ⟨hquiet.nextId ▸ hfits.1, ?_⟩
      rw [hquiet.connections]
      exact hfits.2
    refine ⟨?_, fun removal hmem => hsame (hquiet.removals removal hmem), fun id address hget => hsame (hquiet.sockets id address hget)⟩
    rw [hquiet.nextId, hquiet.connections]
    exact h.fresh
  | created address =>
    refine ⟨fun id hle => ?_, fun removal hmem => (h.removals removal hmem).created address, fun id peer hget => ?_⟩
    · change (s.connections.set s.nextId address).get id = none
      have hne : id ≠ s.nextId := Nat.ne_of_gt hle
      rw [OrderedMap.get_set, if_neg hne]
      exact h.fresh id (Nat.le_of_succ_le hle)
    · change (s.sockets.set s.nextId address).get id = some peer at hget
      rw [OrderedMap.get_set] at hget
      split at hget
      · rename_i hid
        cases hget
        subst hid
        refine ⟨Nat.lt_succ_self _, fun found hfound => ?_⟩
        change (s.connections.set s.nextId address).get s.nextId = some found at hfound
        rw [OrderedMap.get_set, if_pos rfl] at hfound
        exact (Option.some.inj hfound).symm
      · exact (h.sockets id peer hget).created address
  | released n removal hmem =>
    refine ⟨fun id hle => ?_, fun other hother => ?_, fun id address hget => (h.sockets id address hget).release removal.id removal.remoteAddress⟩
    · change (s.connections.delete removal.id).get id = none
      rw [OrderedMap.get_delete, h.fresh id hle, ite_self]
    · exact (h.removals other (List.mem_of_mem_eraseIdx hother)).release removal.id removal.remoteAddress

theorem wf_run (es : List Event) : Wf (relay.run es) :=
  relay.run_invariant ⟨fun _ _ => rfl, fun _ hmem => (by cases hmem), fun _ _ hget => (by cases hget)⟩ (fun _ e h => h.step e) es

/-! ### Counts -/

/-- The counts are those of the table. -/
def Counted (s : State) : Prop := ∀ address, address ≠ "" → s.getIpCount address = s.connectionsFrom address

theorem getIpCount_release (s : State) (id : Nat) {ip : String} (hip : ip ≠ "") (address : String) :
    (s.release id ip).getIpCount address = if address = ip then s.getIpCount address - 1 else s.getIpCount address := by
  unfold State.getIpCount State.release
  simp only [if_neg hip]
  by_cases hsame : address = ip
  · subst hsame
    rw [if_pos rfl]
    cases hget : s.ipCounts.get address with
    | none => simp
    | some n =>
      by_cases hlast : n - 1 = 0
      · simp [hlast]
      · simp [hlast]
  · rw [if_neg hsame]
    split
    · rw [OrderedMap.get_delete, if_neg hsame]
    · rw [OrderedMap.get_set, if_neg hsame]

theorem Counted.created (hs : Wf s) (h : Counted s) (peer : String) : Counted (s.createConnection peer) := by
  intro address haddress
  have hheld := OrderedMap.holding_set_new (hs.fresh s.nextId (Nat.le_refl _)) peer address
  change ((s.createConnection peer).ipCounts.get address).getD 0 = (s.connections.set s.nextId peer).holding address
  rw [hheld]
  unfold State.createConnection
  have hcount := h address haddress
  unfold State.getIpCount State.connectionsFrom at hcount
  by_cases hpeer : peer = ""
  · subst hpeer
    rw [if_neg (Ne.symm haddress), Nat.add_zero]
    exact hcount
  · simp only [if_neg hpeer]
    rw [OrderedMap.get_set]
    by_cases hsame : address = peer
    · subst hsame
      simp [State.getIpCount, hcount]
    · rw [if_neg hsame, if_neg (Ne.symm hsame), hcount, Nat.add_zero]

/-- The count of a removal is right if it is of a connection of the table, or if its address has none in it. -/
theorem Counted.released (hs : Wf s) (h : Counted s) (hmem : removal ∈ s.removals) (n : Nat) :
    Counted { s.release removal.id removal.remoteAddress with removals := s.removals.eraseIdx n } ↔
      ¬ (s.connections.get removal.id = none ∧ removal.remoteAddress ≠ "" ∧ s.connectionsFrom removal.remoteAddress ≠ 0) := by
  obtain ⟨id, ip, stage⟩ := removal
  have hfits := hs.removals _ hmem
  constructor
  · rintro hcounted ⟨hgone, hip, hothers⟩
    have hafter := hcounted ip hip
    change (s.release id ip).getIpCount ip = (s.connections.delete id).holding ip at hafter
    rw [getIpCount_release s id hip, if_pos rfl, OrderedMap.delete_of_absent hgone, h ip hip] at hafter
    change _ = s.connectionsFrom ip at hafter
    simp only at hothers
    omega
  · intro hstray address haddress
    change (s.release id ip).getIpCount address = (s.connections.delete id).holding address
    have hcount := h address haddress
    cases hget : s.connections.get id with
    | none =>
      rw [OrderedMap.delete_of_absent hget]
      change _ = s.connectionsFrom address
      by_cases hip : ip = ""
      · rw [← hcount]
        simp [State.release, State.getIpCount, hip]
      · rw [getIpCount_release s id hip, hcount]
        split
        · rename_i hsame
          subst hsame
          have hnone : s.connectionsFrom address = 0 := by
            by_contra hothers
            exact hstray ⟨hget, hip, hothers⟩
          omega
        · rfl
    | some other =>
      obtain rfl := hfits.2 other hget
      have hheld := OrderedMap.holding_delete hget address
      change _ = s.connectionsFrom address at hheld
      by_cases hip : other = ""
      · have hne : other ≠ address := fun hsame => haddress (hsame ▸ hip)
        rw [if_neg hne, Nat.add_zero] at hheld
        rw [hheld, ← hcount]
        simp [State.release, State.getIpCount, hip]
      · rw [getIpCount_release s id hip, hcount]
        by_cases hsame : address = other
        · rw [if_pos hsame.symm] at hheld
          rw [if_pos hsame]
          omega
        · rw [if_neg (Ne.symm hsame)] at hheld
          rw [if_neg hsame]
          omega

theorem Counted.step (hs : Wf s) (h : Counted s) (e : Event) : Counted (s.step e).1 ↔ strays s e = false := by
  have hdoes := hs.does e
  generalize (s.step e).1 = t at hdoes ⊢
  cases hdoes with
  | quiet hquiet hstrays =>
    refine iff_of_true (fun address haddress => ?_) hstrays
    unfold State.getIpCount State.connectionsFrom
    rw [hquiet.ipCounts, hquiet.connections]
    exact h address haddress
  | created address hroom hstrays => exact iff_of_true (h.created hs address) hstrays
  | released n removal hmem hstrays =>
    rw [h.released hs hmem n, hstrays]
    simp

end Steps

/-! ### Runs -/

theorem counted_iff (es : List Event) :
    (∀ before after, es = before ++ after → Counted (relay.run before)) ↔ ∀ x ∈ relay.trace es, strays x.pre x.event = false := by
  constructor
  · intro h x hx
    obtain ⟨before, e, after, hes, rfl⟩ := (relay.mem_trace es x).1 hx
    have hafter := h (before ++ [e]) after (by simp [hes])
    rw [Machine.run_snoc] at hafter
    exact ((h before (e :: after) hes).step (wf_run before) e).1 hafter
  · intro h before
    induction before using List.reverseRecOn with
    | nil => exact fun _ _ _ _ => rfl
    | append_singleton before e ih =>
      intro after hes
      have hsplit : es = before ++ e :: after := by simp [hes]
      rw [Machine.run_snoc]
      exact ((ih _ hsplit).step (wf_run before) e).2 (h _ ((relay.mem_trace es _).2 ⟨before, e, after, hsplit, rfl⟩))

/-- As long as the counts are right, the cap holds. -/
theorem capped_of_counted {es : List Event} (h : ∀ before after, es = before ++ after → Counted (relay.run before))
    {before after : List Event} (hes : es = before ++ after) (address : String) (haddress : address ≠ "") :
    (relay.run before).connectionsFrom address ≤ maxConnectionsPerIp := by
  induction before using List.reverseRecOn generalizing after with
  | nil => exact Nat.zero_le _
  | append_singleton before e ih =>
    have hsplit : es = before ++ e :: after := by simp [hes]
    have hbefore := ih hsplit
    have hcount := h before _ hsplit address haddress
    have hwf := wf_run before
    have hdoes := hwf.does e
    rw [Machine.run_snoc]
    change ((relay.run before).step e).1.connectionsFrom address ≤ _
    generalize ((relay.run before).step e).1 = t at hdoes ⊢
    cases hdoes with
    | quiet hquiet =>
      unfold State.connectionsFrom
      rw [hquiet.connections]
      exact hbefore
    | created peer hroom =>
      have hheld := OrderedMap.holding_set_new (hwf.fresh _ (Nat.le_refl _)) peer address
      change (OrderedMap.set _ _ _).holding address ≤ _
      rw [hheld]
      change (relay.run before).connectionsFrom address + _ ≤ _
      split
      · rename_i hsame
        subst hsame
        omega
      · exact hbefore
    | released n removal =>
      change ((relay.run before).connections.delete removal.id).holding address ≤ _
      cases hget : (relay.run before).connections.get removal.id with
      | none =>
        rw [OrderedMap.delete_of_absent hget]
        exact hbefore
      | some other =>
        have hheld := OrderedMap.holding_delete hget address
        change _ = (relay.run before).connectionsFrom address at hheld
        omega

theorem count_of_tooMany {s : State} {e : Event} {address : String} (h : .tooMany address ∈ (s.step e).2) :
    maxConnectionsPerIp ≤ s.getIpCount address := by
  cases e with
  | accept peer =>
    simp only [State.step, State.accept] at h
    split at h
    · simp at h
    · split at h
      · rename_i hfull
        simp only [List.mem_singleton, Answer.tooMany.injEq] at h
        exact h ▸ hfull
      · simp at h
  | _ =>
    simp only [State.step] at h
    split at h
    · cases h
    · cases h

/-- The counts of a run are those of its table exactly when no removal comes to its end a second time while its address
has other connections. -/
theorem accounted_iff (es : List Event) : Accounted es ↔ ∀ x ∈ relay.trace es, strays x.pre x.event = false := by
  rw [← counted_iff]
  constructor
  · exact fun h before after hes => h.counts before after hes
  · intro h
    refine ⟨fun before after hes => h before after hes, fun before after hes => capped_of_counted h hes, ?_⟩
    intro x hx address haddress hrefused hnone
    obtain ⟨before, e, after, hes, rfl⟩ := (relay.mem_trace es x).1 hx
    have hfull := count_of_tooMany hrefused
    have hcount := h before _ hes address haddress
    change (relay.run before).connectionsFrom address = 0 at hnone
    rw [hcount, hnone] at hfull
    exact absurd hfull (by decide)

/-- The owner hangs up one of two connections of an address, and then its close event comes. -/
def hungUpRun : List Event :=
  [.accept (some "::1"), .accept (some "::1"), .disconnect 1 ⟨false, 0⟩, .resume 0 ⟨false, 0⟩, .resume 0 ⟨false, 0⟩,
    .close 1, .resume 0 ⟨false, 0⟩, .resume 0 ⟨false, 0⟩, .resume 0 ⟨false, 0⟩]

/-- The other connection is not counted any more. -/
theorem hungUp_uncounted : ¬ Accounted hungUpRun := by
  intro h
  have hcount := h.counts hungUpRun [] (List.append_nil _).symm "::1" (by decide)
  exact absurd hcount (by decide)

end Mtmux.Relay.ConnectionCount
