import Mtmux.Cli.RestoreOrigin
import Mtmux.Cli.TrustCredits

/-! Does removing a device in the panel kill every credential it was given? The removal reaches the
token of its record and the keys of the tunnel that is up. -/
namespace Mtmux.Cli
open Relay OrderedMap Machine TrustState List

/-- Is the device let in by a step of its pairing? -/
def pairs (d : String) (x : TrustEntry) : Bool :=
  x.out.any fun o =>
    match o with
    | .registered _ _ (some d') | .admitted d' => decide (d' = d)
    | _ => false

def removedSince (tr : List TrustEntry) (d : String) : Bool :=
  tr.foldl (fun removed x => (removed && !pairs d x) || x.out.contains (.revoked d)) false

def TokenOf (tr : List TrustEntry) (token d : String) : Prop :=
  ∃ x ∈ tr, ∃ grant, .registered token grant (some d) ∈ x.out ∨ .restored token grant d ∈ x.out

/-- No token of a removed device has a grant, no tunnel has its keys, and no restart brings it back. -/
structure RemovalFinal (hashToken : String → String) (es : List TrustEvent) : Prop where
  tokens : ∀ before after, es = before ++ after → ∀ d,
    removedSince ((trustMachine hashToken).trace before) d = true → ∀ token,
      TokenOf ((trustMachine hashToken).trace before) token d → ∀ now,
        (((trustMachine hashToken).run before).sessions.grantForToken token now).grant = none
  keys : ∀ before after, es = before ++ after → ∀ d,
    removedSince ((trustMachine hashToken).trace before) d = true →
      ¬ ((trustMachine hashToken).run before).Rings d
  restarts : ∀ before later after, es = before ++ .restores later :: after → ∀ d,
    removedSince ((trustMachine hashToken).trace before) d = true → ∀ token grant d',
      .restored token grant d' ∈ ((trustMachine hashToken).entry
        ((trustMachine hashToken).run before) (.restores later)).out →
      d' ≠ d ∧ ¬ TokenOf ((trustMachine hashToken).trace before) token d

namespace TrustState

/-- Is the panel about to drop the record of the device? -/
def removing (s : TrustState) (d : String) : Bool :=
  s.jobs.values.any fun work =>
    match work.job with
    | .loading _ (.revoked d') | .writing _ _ _ (.revoked d') => decide (d' = d)
    | _ => false

def rings (a : TunnelAgent) (d : String) : Bool :=
  a.keyring.any fun entry => decide (entry.deviceId = some d)

/-- Are the live credentials of the device the token of its record and keys of the tunnel that is up,
and does it have no more than its record? -/
def withinReach (s : TrustState) (d : String) : Bool :=
  let record := s.peers.find? fun p => p.deviceId = d
  let token := (record.bind PeerRecord.directToken).filter (· ≠ "")
  (s.sessions.entries.all fun e => decide (e.2.deviceId = some d → token = some e.1)) &&
    (s.agents.zipIdx.all fun a => decide (record.isSome = true ∧ s.hosted = some a.2) || !rings a.1 d) &&
    !s.pairing d

end TrustState

/-- A removal in the panel finds all there is of the device, and while it is under way and for as long
as it stands nothing brings the device back: no registration of it is answered before the removal is
over, no tunnel is started with the keys of the devices that were restored, and no write puts back
what was read before the record was dropped. -/
def reached (tr : List TrustEntry) (x : TrustEntry) : Bool :=
  match x.event with
  | .reads id =>
    match x.pre.jobs.get id with
    | some ⟨_, .listing (.panel d)⟩ => x.pre.withinReach d
    | _ => true
  | .registered id _ _ _ =>
    match x.pre.jobs.get id with
    | some ⟨_, .registering p⟩ => !p.deviceId.any x.pre.removing
    | _ => true
  | .signedInLocally _ _ draw _ => !x.pre.removing ("local-" ++ draw)
  | .startAgent => x.pre.trusted.all fun entry =>
      !entry.deviceId.any fun d => x.pre.removing d || removedSince tr d
  | .writes id =>
    match x.pre.jobs.get id with
    | some ⟨_, .writing edit _ written _⟩ => written.all fun p =>
        p.directToken.isNone || decide (edit = .addPeer p) || !removedSince tr p.deviceId
    | _ => true
  | _ => true

section Owners
variable {hashToken : String → String} {es : List TrustEvent} {token : String}

/-- The token is one that the run brings in, for this device or for none. -/
def Issued (es : List TrustEvent) (token : String) (device : Option String) : Prop :=
  (token, device) ∈ es.filterMap TrustEvent.issues

variable {device : Option String}

theorem Issued.snoc (h : Issued es token device) (e : TrustEvent) : Issued (es ++ [e]) token device := by
  rw [Issued, filterMap_append]
  exact mem_append_left _ h

theorem Issued.of_event {e : TrustEvent} (h : e.issues = some (token, device)) : Issued (es ++ [e]) token device := by
  rw [Issued, filterMap_append]
  refine mem_append_right _ ?_
  simp [h]

theorem Issued.unique {device' : Option String}
    (hes : ((es.filterMap TrustEvent.issues).map Prod.fst).Nodup) (h : Issued es token device)
    (h' : Issued es token device') : device = device' :=
  congrArg Prod.snd (inj_on_of_nodup_map hes h h' rfl)

theorem Issued.ne {d : String} (h : Issued es token (some d)) : d ≠ "" := by
  obtain ⟨e, -, he⟩ := mem_filterMap.1 h
  unfold TrustEvent.issues at he
  split at he
  · cases he
    exact browserId_ne _
  · cases he
    exact browserId_ne _
  · cases he
  · cases he
  · cases he
    intro heq
    have hlength := congrArg String.length heq
    simp at hlength
  · cases he

def PeerRecord.Owned (es : List TrustEvent) (p : PeerRecord) : Prop :=
  ∀ token, p.directToken = some token → Issued es token (some p.deviceId)

theorem PeerRecord.Owned.snoc {p : PeerRecord} (h : p.Owned es) (e : TrustEvent) :
    p.Owned (es ++ [e]) := fun token htoken => (h token htoken).snoc e

theorem PeerRecord.Owned.same {p q : PeerRecord} (h : q.Owned es) (hsame : p.Same q) : p.Owned es := by
  intro token htoken
  rw [hsame.deviceId]
  exact h token (hsame.directToken ▸ htoken)

/-- What a job has in hand was brought in, and a removal in the panel is of this process and serves the
device it was asked about. -/
def Job.Sound (es : List TrustEvent) (s : TrustState) (own : Bool) : Job → Prop
  | .registering p | .sealing p | .addingGrant p _ => Issued es p.token p.deviceId
  | .listing who => ∀ d, who = .panel d → own = true ∧ s.serving = true
  | .loading edit afterwards => (∀ p, edit = .addPeer p → p.Owned es) ∧
      ∀ d, afterwards = .revoked d → edit = .removePeer d ∧ own = true ∧ s.serving = true
  | .writing edit loaded written afterwards => edit.apply loaded = some written ∧
      (∀ p ∈ written, p.Owned es) ∧
      ∀ d, afterwards = .revoked d → edit = .removePeer d ∧ own = true ∧ s.serving = true
  | _ => True

theorem record_owned {p : Pairing} (now : Nat) (h : Issued es p.token p.deviceId)
    (hvia : ∀ g, p.via ≠ .share g) : (p.record now).Owned es := by
  intro t ht
  unfold Pairing.deviceId at h
  split at h
  · rename_i agent d grant hcode
    have ht : p.token = t := by simpa [Pairing.record, hcode] using ht
    have hd : (p.record now).deviceId = d := by simp [Pairing.record, Pairing.deviceId, hcode]
    rw [hd, ← ht]
    exact h
  · rename_i agent d hrequest
    have ht : p.token = t := by simpa [Pairing.record, hrequest] using ht
    have hd : (p.record now).deviceId = d := by simp [Pairing.record, Pairing.deviceId, hrequest]
    rw [hd, ← ht]
    exact h
  · rename_i hpair
    simp [Pairing.record, hpair] at ht
  · rename_i g hshare
    exact absurd hshare (hvia g)

variable {s : TrustState}

theorem Job.Sound.snoc {own : Bool} {job : Job} (h : job.Sound es s own)
    (e : TrustEvent) : job.Sound (es ++ [e]) s own := by
  cases job with
  | listing who => exact h
  | loading edit next => exact ⟨fun p hp => (h.1 p hp).snoc e, h.2⟩
  | writing edit loaded written next => exact ⟨h.1, fun p hp => (h.2.1 p hp).snoc e, h.2.2⟩
  | revokingToken _ | revokingGrant _ => trivial
  | _ => exact Issued.snoc h e

theorem Job.Sound.serves {s' : TrustState} {own : Bool} {job : Job} (h : job.Sound es s own)
    (hserving : own = true → s.serving = true → s'.serving = true) : job.Sound es s' own := by
  have hgo : ∀ {q : Prop}, q ∧ own = true ∧ s.serving = true → q ∧ own = true ∧ s'.serving = true :=
    fun hq => ⟨hq.1, hq.2.1, hserving hq.2.1 hq.2.2⟩
  cases job with
  | listing who => exact fun d hd => ⟨(h d hd).1, hserving (h d hd).1 (h d hd).2⟩
  | loading edit next => exact ⟨h.1, fun d hd => hgo (h.2 d hd)⟩
  | writing edit loaded written next => exact ⟨h.1, h.2.1, fun d hd => hgo (h.2.2 d hd)⟩
  | _ => exact h

theorem serving_iff : s.serving = true ↔ s.phase = .serving := by
  unfold TrustState.serving
  cases s.phase <;> simp

theorem arises_sound {e : TrustEvent} {out : List TrustOutput} {i : Nat} {w : Work}
    (h : TrustState.Arises hashToken s e out i w) (hjobs : ∀ i w, s.jobs.get i = some w → w.job.Sound es s w.own)
    (hpeers : ∀ p ∈ s.peers, p.Owned es) : w.job.Sound (es ++ [e]) s w.own := by
  have hadd : ∀ {p : Pairing} {now : Nat} {next : AfterEdit} {own : Bool},
      Issued es p.token p.deviceId → (∀ g, p.via ≠ .share g) → (∀ d, next ≠ .revoked d) →
      (Job.loading (.addPeer (p.record now)) next).Sound (es ++ [e]) s own := by
    intro p now next own hissued hvia hnext
    refine ⟨?_, fun d hd => absurd hd (hnext d)⟩
    intro peer hpeer
    cases hpeer
    exact (record_owned now hissued hvia).snoc e
  cases h with
  | registering hissued _ => exact Issued.of_event hissued
  | @sealing id own p hjob _ =>
    have hold : Issued es p.token p.deviceId := hjobs _ _ hjob
    exact hold.snoc e
  | @addingGrant id own p grant hjob _ _ =>
    have hold : Issued es p.token p.deviceId := hjobs _ _ hjob
    exact hold.snoc e
  | addingCode _ hjob hvia _ _ hnext => exact hadd (hjobs _ _ hjob) (by simp [hvia]) hnext
  | addingPair hjob hvia hnext => exact hadd (hjobs _ _ hjob) (by simp [hvia]) hnext
  | addingRequest hjob hvia hnext => exact hadd (hjobs _ _ hjob) (by simp [hvia]) hnext
  | addingShare hjob hvia hnext => exact hadd (hjobs _ _ hjob) hvia hnext
  | @removing id own d peer _ hjob _ =>
    refine ⟨fun p hp => (by cases hp), ?_⟩
    intro d' hd'
    cases hd'
    obtain ⟨hown, hserving⟩ := hjobs _ _ hjob d rfl
    exact ⟨rfl, hown, hserving⟩
  | loading hedit hnext => exact ⟨fun p hp => absurd hp (hedit p), fun d hd => absurd hd (hnext d)⟩
  | writing hjob happly =>
    obtain ⟨hadded, hrevoked⟩ := hjobs _ _ hjob
    refine ⟨happly, ?_, hrevoked⟩
    intro p hp
    obtain hedit | ⟨⟨q, hq, hsame⟩, -⟩ := mem_apply happly hp
    · exact (hadded p hedit).snoc e
    · exact ((hpeers q hq).same hsame).snoc e
  | listing hpanel => exact hpanel
  | revokingToken | revokingGrant => trivial

/-- Wherever a credential is, it is one that was brought in for its device. -/
structure Kept (es : List TrustEvent) (s : TrustState) (tr : List TrustEntry) : Prop where
  jobs : ∀ i w, s.jobs.get i = some w → w.job.Sound es s w.own
  peers : ∀ p ∈ s.peers, p.Owned es
  booting : ∀ peers now, s.phase = .booting peers now → ∀ p ∈ peers, p.Owned es
  sessions : ∀ token entry, s.sessions.get token = some entry →
    ∃ device, Issued es token device ∧ entry.deviceId = device.filter (· ≠ "")
  said : ∀ x ∈ tr, ∀ o ∈ x.out, ∀ token device, opens o = some (token, device) → Issued es token device

theorem Kept.snoc {tr : List TrustEntry} (h : Kept es s tr) (e : TrustEvent) :
    Kept (es ++ [e]) (s.step hashToken e).1 (tr ++ [(trustMachine hashToken).entry s e]) := by
  have hnow : ∀ o ∈ (s.step hashToken e).2, ∀ token device, opens o = some (token, device) →
      Issued (es ++ [e]) token device := by
    intro o ho token device hopens
    cases step_says hashToken ho with
    | @registered id now own handled inTime p he hjob =>
      cases hopens
      have hissued : Issued es p.token p.deviceId := h.jobs _ _ hjob
      exact hissued.snoc e
    | signedIn he =>
      cases hopens
      exact Issued.of_event (by rw [he]; rfl)
    | restored _ hphase hp htoken _ =>
      cases hopens
      exact (h.booting _ _ hphase _ hp token htoken).snoc e
    | _ => cases hopens
  obtain ⟨hpeers, hphases⟩ := step_file hashToken s e
  refine ⟨?_, ?_, ?_, ?_, ?_⟩
  · intro i w hw
    have hserving : w.own = true → s.serving = true → (s.step hashToken e).1.serving = true := by
      intro hown hserving
      obtain hphase | hphase | ⟨share, now, rfl, -⟩ := hphases
      · exact serving_iff.2 (hphase.trans (serving_iff.1 hserving))
      · exact serving_iff.2 hphase
      · have hfilter := ((get_filter _ _ _ _).1 hw).2
        simp [hown] at hfilter
    obtain hold | hnew := step_jobs hashToken s e i w hw
    · exact ((h.jobs i w hold).snoc e).serves hserving
    · exact (arises_sound hnew h.jobs h.peers).serves hserving
  · intro p hp
    obtain hsame | ⟨id, own, edit, loaded, next, rfl, hjob⟩ := hpeers
    · exact (h.peers p (hsame ▸ hp)).snoc e
    · exact ((h.jobs _ _ hjob).2.1 p hp).snoc _
  · intro peers now hphase p hp
    obtain hsame | hserving | ⟨share, now', rfl, hbooting⟩ := hphases
    · exact (h.booting peers now (hsame.symm.trans hphase) p hp).snoc e
    · cases hserving.symm.trans hphase
    · cases hbooting.symm.trans hphase
      exact (h.peers p hp).snoc _
  · intro token entry hget
    obtain ⟨old, hold, hsame⟩ | ⟨o, ho, device, hopens, hdevice⟩ := step_sessions hashToken s e hget
    · obtain ⟨device, hissued, hdevice⟩ := h.sessions token old hold
      exact ⟨device, hissued.snoc e, hsame.symm.trans hdevice⟩
    · exact ⟨device, hnow o ho token device hopens, hdevice⟩
  · intro x hx
    obtain hx | hx := mem_append.1 hx
    · exact fun o ho token device hopens => (h.said x hx o ho token device hopens).snoc e
    · rw [mem_singleton.1 hx]
      exact hnow

theorem kept_run (hashToken : String → String) (es : List TrustEvent) :
    Kept es ((trustMachine hashToken).run es) ((trustMachine hashToken).trace es) := by
  refine (trustMachine hashToken).traced_invariant (I := Kept) (C := fun _ _ => True) ?_ ?_ fun _ _ _ _ => trivial
  · refine ⟨?_, ?_, ?_, ?_, ?_⟩
    · exact fun i w hw => by cases hw
    · exact fun p hp => by cases hp
    · intro peers now hphase p hp
      cases hphase
      cases hp
    · exact fun token entry hget => by cases hget
    · exact fun x hx => by cases hx
  · exact fun es s tr e h _ => h.snoc e

/-- A token opens the door of no device but the one it was brought in for: in memory, in the records, and in all that is
registered or restored. -/
theorem credentials_stay (hashToken : String → String) (es : List TrustEvent) :
    (∀ token entry, ((trustMachine hashToken).run es).sessions.get token = some entry →
      ∃ device, Issued es token device ∧ entry.deviceId = device.filter (· ≠ "")) ∧
    (∀ p ∈ ((trustMachine hashToken).run es).peers, p.Owned es) ∧ ∀ x ∈ (trustMachine hashToken).trace es,
      (∀ token grant device, .registered token grant device ∈ x.out → Issued es token device) ∧
        ∀ token grant d, .restored token grant d ∈ x.out → Issued es token (some d) :=
  ⟨(kept_run hashToken es).sessions, (kept_run hashToken es).peers, fun x hx =>
    ⟨fun token _ device ho => (kept_run hashToken es).said x hx _ ho token device rfl,
      fun token _ d ho => (kept_run hashToken es).said x hx _ ho token (some d) rfl⟩⟩

end Owners

/-- No live credential of the device is left, and no job brings one. -/
structure Cut (s : TrustState) (d : String) : Prop where
  sessions : ∀ token entry, s.sessions.get token = some entry → entry.deviceId ≠ some d
  rings : ¬ s.Rings d
  jobs : ∀ i w, s.jobs.get i = some w → w.job.holds d = false

/-- Nor does a record have one. -/
structure Clean (s : TrustState) (d : String) : Prop extends Cut s d where
  peers : ∀ p ∈ s.peers, p.deviceId = d → p.directToken = none
  booting : ∀ peers now, s.phase = .booting peers now → ∀ p ∈ peers, p.deviceId = d →
    p.directToken = none

section Cut
variable {hashToken : String → String} {s : TrustState} {e : TrustEvent} {d : String}

theorem not_pairs {x : TrustEntry} : pairs d x = false ↔
    (∀ token grant, .registered token grant (some d) ∉ x.out) ∧ .admitted d ∉ x.out := by
  unfold pairs
  rw [any_eq_false]
  constructor
  · intro h
    refine ⟨fun token grant ho => ?_, fun ho => ?_⟩
    · exact h _ ho (by simp)
    · exact h _ ho (by simp)
  · rintro ⟨hregistered, hadmitted⟩ o ho
    split
    · intro hd
      rw [decide_eq_true_eq] at hd
      exact hregistered _ _ (hd ▸ ho)
    · intro hd
      rw [decide_eq_true_eq] at hd
      exact hadmitted (hd ▸ ho)
    · simp

theorem not_holds_record {p : Pairing} {now : Nat} {next : AfterEdit}
    (h : p.via ≠ .pair → p.deviceId.getD (browserId now) ≠ d) :
    (Job.loading (.addPeer (p.record now)) next).holds d = false := by
  by_cases hvia : p.via = .pair
  · simp [Job.holds, Pairing.record, hvia]
  · simp [Job.holds, Pairing.record, h hvia]

/-- A step that does not let the device in brings no job that holds a credential of it. -/
theorem arises_cut {out : List TrustOutput} {i : Nat} {w : Work} (h : TrustState.Arises hashToken s e out i w)
    (hjobs : ∀ i w, s.jobs.get i = some w → w.job.holds d = false)
    (hregistered : ∀ token grant, .registered token grant (some d) ∉ out)
    (hadmitted : .admitted d ∉ out) : w.job.holds d = false := by
  have htaken : ∀ {p : Pairing}, TrustState.Taken out p → p.deviceId ≠ some d := by
    intro p ho hd
    rw [TrustState.Taken, hd] at ho
    exact hregistered _ _ ho
  have hdevice : ∀ {p : Pairing} {d' : String}, p.deviceId = some d' → d' ≠ d → ∀ {now : Nat},
      p.via ≠ .pair → p.deviceId.getD (browserId now) ≠ d := by
    intro p d' hd' hne now _
    rw [hd']
    exact hne
  cases h with
  | registering _ _ => rfl
  | sealing _ ho => simpa [Job.holds] using htaken ho
  | addingGrant _ ho _ => simpa [Job.holds] using htaken ho
  | @addingCode id now agent own handled inTime p d' next _ _ hvia ho _ _ =>
    have hd' : p.deviceId = some d' := by simp [Pairing.deviceId, hvia]
    refine not_holds_record (hdevice hd' ?_)
    rintro rfl
    exact hadmitted ho
  | addingPair _ hvia _ => exact not_holds_record fun hne => absurd hvia hne
  | @addingRequest id now agent own p d' next hjob hvia _ =>
    have hold := hjobs _ _ hjob
    have hd' : p.deviceId = some d' := by simp [Pairing.deviceId, hvia]
    refine not_holds_record (hdevice hd' ?_)
    rintro rfl
    simp [Job.holds, hd'] at hold
  | @addingShare id now own p grant next hjob hvia _ =>
    have hold : p.deviceId ≠ some d := by simpa [Job.holds] using hjobs _ _ hjob
    refine not_holds_record fun hpair => ?_
    cases hd' : p.deviceId with
    | none =>
      unfold Pairing.deviceId at hd'
      split at hd'
      · cases hd'
      · cases hd'
      · rename_i hvia'
        exact absurd hvia' hpair
      · rename_i g hvia'
        exact absurd hvia' (hvia g)
    | some d' =>
      rintro rfl
      exact hold hd'
  | removing _ _ _ => rfl
  | @loading id own edit next hedit _ =>
    cases edit with
    | addPeer p => exact absurd rfl (hedit p)
    | _ => rfl
  | @writing id own edit written next hjob _ =>
    have hold := hjobs _ _ hjob
    cases edit with
    | addPeer p => exact hold
    | _ => rfl
  | listing _ | revokingToken | revokingGrant => rfl

theorem Cut.step (h : Cut s d) (hpairs : pairs d ((trustMachine hashToken).entry s e) = false)
    (hrestored : ∀ token grant, .restored token grant d ∉ (s.step hashToken e).2)
    (htunnel : e = .startAgent → ∀ entry ∈ s.trusted, entry.deviceId ≠ some d) : Cut (s.step hashToken e).1 d := by
  obtain ⟨hregistered, hadmitted⟩ := not_pairs.1 hpairs
  refine ⟨?_, ?_, ?_⟩
  · intro token entry hget hd
    obtain ⟨old, hold, hsame⟩ | ⟨o, ho, device, hopens, hdevice⟩ := step_sessions hashToken s e hget
    · exact h.sessions token old hold (hsame.trans hd)
    · obtain ⟨rfl, -⟩ := Option.filter_eq_some_iff.1 (hdevice.symm.trans hd)
      unfold opens at hopens
      split at hopens
      · cases hopens
        exact hregistered _ _ ho
      · cases hopens
        exact hrestored _ _ ho
      · cases hopens
  · intro hrings
    obtain hold | ho | ⟨he, entry, hentry, hd⟩ := step_rings hashToken s e hrings
    · exact h.rings hold
    · exact hadmitted ho
    · exact htunnel he entry hentry hd
  · intro i w hw
    obtain hold | hnew := step_jobs hashToken s e i w hw
    · exact h.jobs i w hold
    · exact arises_cut hnew h.jobs hregistered hadmitted

theorem not_pairing (h : s.pairing d = false) {i : Nat} {w : Work} (hw : s.jobs.get i = some w) :
    w.job.holds d = false := by
  cases hholds : w.job.holds d with
  | false => rfl
  | true =>
    rw [pairing_of_holds hw hholds] at h
    cases h

theorem removing_iff : s.removing d = true ↔ ∃ i w, s.jobs.get i = some w ∧
    ((∃ edit, w.job = .loading edit (.revoked d)) ∨
      ∃ edit loaded written, w.job = .writing edit loaded written (.revoked d)) := by
  unfold TrustState.removing
  rw [any_eq_true]
  constructor
  · rintro ⟨w, hmem, hjob⟩
    obtain ⟨⟨i, w'⟩, hentry, rfl⟩ := mem_map.1 hmem
    refine ⟨i, w', (s.jobs.get_eq_some i w').2 hentry, ?_⟩
    split at hjob
    · rename_i edit d' heq
      rw [decide_eq_true_eq] at hjob
      exact .inl ⟨edit, hjob ▸ heq⟩
    · rename_i edit loaded written d' heq
      rw [decide_eq_true_eq] at hjob
      exact .inr ⟨edit, loaded, written, hjob ▸ heq⟩
    · cases hjob
  · rintro ⟨i, w, hw, ⟨edit, hjob⟩ | ⟨edit, loaded, written, hjob⟩⟩
    · exact ⟨w, mem_map.2 ⟨(i, w), (s.jobs.get_eq_some i w).1 hw, rfl⟩, by simp [hjob]⟩
    · exact ⟨w, mem_map.2 ⟨(i, w), (s.jobs.get_eq_some i w).1 hw, rfl⟩, by simp [hjob]⟩

theorem within_reach (h : s.withinReach d = true) :
    (∀ token entry, s.sessions.get token = some entry → entry.deviceId = some d →
      ((s.peers.find? fun p => p.deviceId = d).bind PeerRecord.directToken).filter (· ≠ "") = some token) ∧
    (∀ i a, s.agents[i]? = some a → ((s.peers.find? fun p => p.deviceId = d).isSome = true ∧ s.hosted = some i) ∨
        ∀ entry ∈ a.keyring, entry.deviceId ≠ some d) ∧ ∀ i w, s.jobs.get i = some w → w.job.holds d = false := by
  simp only [TrustState.withinReach, Bool.and_eq_true] at h
  obtain ⟨⟨hsessions, hagents⟩, hpairing⟩ := h
  refine ⟨?_, ?_, fun i w hw => not_pairing (by simpa using hpairing) hw⟩
  · intro token entry hget hd
    have hmem := (s.sessions.get_eq_some token entry).1 hget
    exact of_decide_eq_true (all_eq_true.1 hsessions _ hmem) hd
  · intro i a ha
    have hmem : (a, i) ∈ s.agents.zipIdx := mem_zipIdx_iff_getElem?.2 ha
    have hall := all_eq_true.1 hagents _ hmem
    simp only [Bool.or_eq_true, decide_eq_true_eq, Bool.not_eq_true'] at hall
    refine hall.imp id fun hnone entry hentry hd => ?_
    have hone := any_eq_false.1 hnone entry hentry
    simp [hd] at hone

theorem cut_of_found {id : Nat} {own : Bool} {peer : PeerRecord}
    (hjob : s.jobs.get id = some ⟨own, .listing (.panel d)⟩)
    (hpeer : s.peers.find? (fun p => p.deviceId = d) = some peer) (h : s.withinReach d = true) :
    Cut (s.step hashToken (.reads id)).1 d := by
  obtain ⟨hsessions, hrings, hjobs⟩ := within_reach h
  obtain ⟨hless, hsub⟩ := s.cutOff_spec peer
  have hd : peer.deviceId = d := by simpa using List.find?_some hpeer
  have hstep : s.step hashToken (.reads id) =
      ((s.cutOff peer).goOn id own (.loading (.removePeer d) (.revoked d)), []) := by
    simp only [TrustState.step, hjob, TrustState.listed, hpeer]
  rw [hstep]
  refine ⟨?_, ?_, ?_⟩
  · intro token entry hget hdevice
    obtain ⟨hold, hne⟩ := hless token entry hget
    have htoken := hsessions token entry hold hdevice
    rw [hpeer] at htoken
    exact hne htoken
  · rintro ⟨a, ha, entry, hentry, hdevice⟩
    obtain ⟨i, hi⟩ := List.getElem?_of_mem ha
    obtain ⟨old, hold, hkept, hgone⟩ := hsub i a hi
    obtain ⟨-, hhosted⟩ | hnone := hrings i old hold
    · rw [hd] at hgone
      exact hgone hhosted entry hentry hdevice
    · exact hnone entry (hkept entry hentry) hdevice
  · intro i w hw
    have hw : (s.jobs.set id ⟨own, .loading (.removePeer d) (.revoked d)⟩).get i = some w := hw
    rw [get_set] at hw
    split at hw
    · cases hw
      rfl
    · exact hjobs i w hw

/-- A step that is neither of a registration nor a sign-in lets nobody in whose pairing is not under
way. -/
theorem pairs_cases (hcut : Cut s d) (h : pairs d ((trustMachine hashToken).entry s e) = true) :
    (∃ id handled inTime now own p, e = .registered id handled inTime now ∧
      s.jobs.get id = some ⟨own, .registering p⟩ ∧ p.deviceId = some d) ∨
    ∃ token label draw now, e = .signedInLocally token label draw now ∧ "local-" ++ draw = d := by
  obtain ⟨o, ho, hpairs⟩ := any_eq_true.1 h
  have hsays := step_says hashToken ho
  cases hsays with
  | @registered id now own handled inTime p he hjob =>
    refine .inl ⟨id, handled, inTime, now, own, p, he, hjob, ?_⟩
    cases hd : p.deviceId with
    | none => simp [hd] at hpairs
    | some d' =>
      rw [hd] at hpairs
      exact congrArg some (of_decide_eq_true hpairs)
  | @signedIn token draw label now he =>
    exact .inr ⟨token, label, draw, now, he, of_decide_eq_true hpairs⟩
  | @admitted id now own handled inTime p d' he hjob hd =>
    refine .inl ⟨id, handled, inTime, now, own, p, he, hjob, ?_⟩
    rw [hd]
    exact congrArg some (of_decide_eq_true hpairs)
  | @sealed id now own ok p d' he hjob hd =>
    have hold : p.deviceId ≠ some d := by simpa [Job.holds] using hcut.jobs _ _ hjob
    refine absurd ?_ hold
    rw [hd]
    exact congrArg some (of_decide_eq_true hpairs)
  | _ => cases hpairs

end Cut

/-- What holds in a run whose steps are all within reach. -/
structure Safe (s : TrustState) (tr : List TrustEntry) : Prop where
  cut : ∀ d, s.removing d = true → Cut s d
  clean : ∀ d, removedSince tr d = true → Clean s d

section Safe
variable {hashToken : String → String} {s : TrustState} {tr : List TrustEntry} {e : TrustEvent} {d : String}

theorem removedSince_snoc {x : TrustEntry} :
    removedSince (tr ++ [x]) d = ((removedSince tr d && !pairs d x) || x.out.contains (.revoked d)) := by
  simp [removedSince]

/-- While a removal is under way, or for as long as it stands, a step within reach leaves nothing of
the device. -/
theorem Cut.removing_step (hcut : Cut s d) (hserving : s.phase = .serving)
    (hx : reached tr ((trustMachine hashToken).entry s e) = true) (hremoving : s.removing d = true) :
    Cut (s.step hashToken e).1 d := by
  refine hcut.step ?_ ?_ ?_
  · rw [Bool.eq_false_iff]
    intro hpairs
    obtain ⟨id, handled, inTime, now, own, p, rfl, hjob, hd⟩ | ⟨token, label, draw, now, rfl, rfl⟩ :=
      pairs_cases hcut hpairs
    · simp [reached, Machine.entry, hjob, hd, hremoving] at hx
    · simp [reached, Machine.entry, hremoving] at hx
  · intro token grant ho
    cases step_says hashToken ho with
    | restored _ hphase => cases hserving.symm.trans hphase
  · rintro rfl entry hentry hdevice
    have hall := all_eq_true.1 hx entry hentry
    simp [hdevice, Machine.entry, hremoving] at hall

theorem Clean.removed_step (hclean : Clean s d) (hx : reached tr ((trustMachine hashToken).entry s e) = true)
    (hremoved : removedSince tr d = true) (hpairs : pairs d ((trustMachine hashToken).entry s e) = false) :
    Clean (s.step hashToken e).1 d := by
  obtain ⟨hpeers, hphases⟩ := step_file hashToken s e
  refine ⟨hclean.toCut.step hpairs ?_ ?_, ?_, ?_⟩
  · intro token grant ho
    cases step_says hashToken ho with
    | restored _ hphase hp htoken _ => cases (hclean.booting _ _ hphase _ hp rfl).symm.trans htoken
  · rintro rfl entry hentry hdevice
    have hall := all_eq_true.1 hx entry hentry
    simp [hdevice, hremoved] at hall
  · intro p hp hd
    obtain hsame | ⟨id, own, edit, loaded, next, rfl, hjob⟩ := hpeers
    · exact hclean.peers p (hsame ▸ hp) hd
    · by_contra htoken
      have htoken : p.directToken.isSome = true := Option.isSome_iff_ne_none.2 htoken
      simp only [reached, Machine.entry, hjob] at hx
      have hall := all_eq_true.1 hx p hp
      simp only [Bool.or_eq_true, Option.isNone_iff_eq_none, decide_eq_true_eq,
        Bool.not_eq_true'] at hall
      obtain (hnone | hedit) | hnot := hall
      · simp [hnone] at htoken
      · have hold := hclean.jobs _ _ hjob
        rw [hedit] at hold
        simp [Job.holds, hd, htoken] at hold
      · rw [hd, hremoved] at hnot
        cases hnot
  · intro peers now hphase p hp hd
    obtain hsame | hserving | ⟨share, now', rfl, hbooting⟩ := hphases
    · exact hclean.booting peers now (hsame.symm.trans hphase) p hp hd
    · cases hserving.symm.trans hphase
    · cases hbooting.symm.trans hphase
      exact hclean.peers p hp hd

/-- The removal of a device is over: nothing live is left of it, and the file has no record of it. -/
theorem Cut.clean_of_over (hcut : Cut s d) (hfile : (∃ id, e = .reads id) ∨ ∃ id, e = .writes id)
    (hserving : s.serving = true) (hpeers : ∀ p ∈ (s.step hashToken e).1.peers, p.deviceId ≠ d) :
    Clean (s.step hashToken e).1 d := by
  have hphase : (s.step hashToken e).1.phase = .serving := by
    obtain hsame | hsame | ⟨share, now, rfl, -⟩ := (step_file hashToken s e).2
    · exact hsame.trans (serving_iff.1 hserving)
    · exact hsame
    · obtain ⟨id, heq⟩ | ⟨id, heq⟩ := hfile <;> cases heq
  have hnext : Cut (s.step hashToken e).1 d := by
    refine hcut.step ?_ ?_ ?_
    · rw [Bool.eq_false_iff]
      intro hpairs
      obtain ⟨id, handled, inTime, now, own, p, rfl, -⟩ | ⟨token, label, draw, now, rfl, -⟩ :=
        pairs_cases hcut hpairs
      · obtain ⟨id, heq⟩ | ⟨id, heq⟩ := hfile <;> cases heq
      · obtain ⟨id, heq⟩ | ⟨id, heq⟩ := hfile <;> cases heq
    · intro token grant ho
      cases step_says hashToken ho with
      | restored _ hbooting => cases (serving_iff.1 hserving).symm.trans hbooting
    · rintro rfl
      obtain ⟨id, heq⟩ | ⟨id, heq⟩ := hfile <;> cases heq
  refine ⟨hnext, fun p hp hd => absurd hd (hpeers p hp), ?_⟩
  intro peers now hbooting
  cases hphase.symm.trans hbooting

variable {es : List TrustEvent}

theorem Safe.revoked (h : Safe s tr) (hkept : Kept es s tr) (hx : reached tr ((trustMachine hashToken).entry s e) = true)
    (ho : .revoked d ∈ (s.step hashToken e).2) : Clean (s.step hashToken e).1 d := by
  have hsame : ∀ {id : Nat}, e = .reads id → (s.step hashToken e).1.peers = s.peers := by
    rintro id rfl
    obtain hsame | ⟨_, _, _, _, _, heq, -⟩ := (step_file hashToken s (.reads id)).1
    · exact hsame
    · cases heq
  cases step_says hashToken ho with
  | @unknown id own _ he hjob hpeer =>
    have hserving := (hkept.jobs _ _ hjob d rfl).2
    have hwithin : s.withinReach d = true := by
      simpa [reached, Machine.entry, he, hjob] using hx
    obtain ⟨hsessions, hrings, hjobs⟩ := within_reach hwithin
    have hcut : Cut s d := by
      refine ⟨?_, ?_, hjobs⟩
      · intro token entry hget hdevice
        have htoken := hsessions token entry hget hdevice
        rw [hpeer] at htoken
        cases htoken
      · rintro ⟨a, ha, entry, hentry, hdevice⟩
        obtain ⟨i, hi⟩ := List.getElem?_of_mem ha
        obtain ⟨hsome, -⟩ | hnone := hrings i a hi
        · rw [hpeer] at hsome
          cases hsome
        · exact hnone entry hentry hdevice
    refine hcut.clean_of_over (.inl ⟨_, he⟩) hserving ?_
    rw [hsame he]
    intro p hp
    simpa using List.find?_eq_none.1 hpeer p hp
  | @gone id own edit _ he hjob happly =>
    obtain ⟨hedit, -, hserving⟩ := (hkept.jobs _ _ hjob).2 d rfl
    have hcut := h.cut d (removing_iff.2 ⟨id, _, hjob, .inl ⟨edit, rfl⟩⟩)
    refine hcut.clean_of_over (.inl ⟨_, he⟩) hserving ?_
    rw [hsame he]
    rw [hedit] at happly
    exact fun p hp => removePeer_none happly hp
  | @dropped id own edit loaded written _ he hjob =>
    obtain ⟨happly, -, hrevoked⟩ := hkept.jobs _ _ hjob
    obtain ⟨hedit, -, hserving⟩ := hrevoked d rfl
    have hcut := h.cut d (removing_iff.2 ⟨id, _, hjob, .inr ⟨edit, loaded, written, rfl⟩⟩)
    refine hcut.clean_of_over (.inr ⟨id, he⟩) hserving ?_
    rw [he, (writes_spec hashToken hjob).1.1]
    rw [hedit] at happly
    exact fun p hp => ((mem_removePeer happly).1 hp).2

/-- A step of another event than the one that begins a removal has it under way already. -/
theorem removing_step (hremoving : (s.step hashToken e).1.removing d = true) : s.removing d = true ∨
    ∃ id own peer, e = .reads id ∧ s.jobs.get id = some ⟨own, .listing (.panel d)⟩ ∧
      s.peers.find? (fun p => p.deviceId = d) = some peer := by
  obtain ⟨i, w, hw, hjob⟩ := removing_iff.1 hremoving
  obtain hold | hnew := step_jobs hashToken s e i w hw
  · exact .inl (removing_iff.2 ⟨i, w, hold, hjob⟩)
  · cases hnew with
    | @removing id own d' peer he hlisting hpeer =>
      obtain ⟨edit, heq⟩ | ⟨edit, loaded, written, heq⟩ := hjob
      · cases heq
        exact .inr ⟨_, own, peer, he, hlisting, hpeer⟩
      · cases heq
    | @writing id own edit written next hloading happly =>
      obtain ⟨edit, heq⟩ | ⟨edit, loaded, written, heq⟩ := hjob
      · cases heq
      · cases heq
        exact .inl (removing_iff.2 ⟨_, _, hloading, .inl ⟨_, rfl⟩⟩)
    | addingCode _ _ _ _ _ hnext | addingPair _ _ hnext | addingRequest _ _ hnext
    | addingShare _ _ hnext | loading _ hnext =>
      obtain ⟨edit, heq⟩ | ⟨edit, loaded, written, heq⟩ := hjob
      · cases heq
        exact absurd rfl (hnext d)
      · cases heq
    | _ =>
      obtain ⟨edit, heq⟩ | ⟨edit, loaded, written, heq⟩ := hjob
      · cases heq
      · cases heq

theorem Safe.snoc (h : Safe s tr) (hkept : Kept es s tr) (hx : reached tr ((trustMachine hashToken).entry s e) = true) :
    Safe (s.step hashToken e).1 (tr ++ [(trustMachine hashToken).entry s e]) := by
  refine ⟨?_, ?_⟩
  · intro d hremoving
    obtain hold | ⟨id, own, peer, he, hlisting, hpeer⟩ := removing_step hremoving
    · have hserving : s.phase = .serving := by
        obtain ⟨i, w, hw, ⟨edit, hjob⟩ | ⟨edit, loaded, written, hjob⟩⟩ := removing_iff.1 hold
        · have hsound := hkept.jobs i w hw
          rw [hjob] at hsound
          exact serving_iff.1 (hsound.2 d rfl).2.2
        · have hsound := hkept.jobs i w hw
          rw [hjob] at hsound
          exact serving_iff.1 (hsound.2.2 d rfl).2.2
      exact (h.cut d hold).removing_step hserving hx hold
    · have hwithin : s.withinReach d = true := by
        simpa [reached, Machine.entry, he, hlisting] using hx
      subst he
      exact cut_of_found hlisting hpeer hwithin
  · intro d hremoved
    rw [removedSince_snoc] at hremoved
    by_cases ho : .revoked d ∈ (s.step hashToken e).2
    · exact h.revoked hkept hx ho
    · have hnot : ((trustMachine hashToken).entry s e).out.contains (.revoked d) = false := by
        rw [Bool.eq_false_iff]
        exact fun hc => ho (contains_iff_mem.1 hc)
      rw [hnot, Bool.or_false, Bool.and_eq_true] at hremoved
      exact (h.clean d hremoved.1).removed_step hx hremoved.1 (by simpa using hremoved.2)

end Safe

/-- Is every step of the run within reach, with the steps before it? -/
def reachedFrom (before : List TrustEntry) : List TrustEntry → Bool
  | [] => true
  | x :: tr => reached before x && reachedFrom (before ++ [x]) tr

theorem reached_of_split {before mid after : List TrustEntry} {x : TrustEntry}
    (h : reachedFrom before (mid ++ x :: after) = true) : reached (before ++ mid) x = true := by
  induction mid generalizing before with
  | nil =>
    rw [nil_append, reachedFrom, Bool.and_eq_true] at h
    simpa using h.1
  | cons y mid ih =>
    rw [cons_append, reachedFrom, Bool.and_eq_true] at h
    simpa using ih h.2

variable {hashToken : String → String}

theorem safe_run {before after : List TrustEvent}
    (h : reachedFrom [] ((trustMachine hashToken).trace (before ++ after)) = true) :
    Safe ((trustMachine hashToken).run before) ((trustMachine hashToken).trace before) := by
  refine ((trustMachine hashToken).traced_invariant (I := fun es s tr => Kept es s tr ∧ Safe s tr)
    (C := fun tr x => reached tr x = true) ⟨kept_run hashToken [], ?_⟩ ?_ ?_).2
  · refine ⟨?_, ?_⟩
    · intro d hd
      obtain ⟨i, w, hw, -⟩ := removing_iff.1 hd
      cases hw
    · exact fun d hd => by cases hd
  · exact fun es s tr e ih hx => ⟨ih.1.snoc e, ih.2.snoc ih.1 hx⟩
  · intro done x rest htr
    obtain ⟨later, hlater⟩ := (trustMachine hashToken).trace_begins before after
    rw [← hlater, htr, append_assoc, cons_append] at h
    exact reached_of_split h

/-- In a run whose steps are within reach, removing a device kills every credential it was given. -/
theorem removal_final (hashToken : String → String) (es : List TrustEvent)
    (hdistinct : ((es.filterMap TrustEvent.issues).map Prod.fst).Nodup)
    (hreached : reachedFrom [] ((trustMachine hashToken).trace es) = true) : RemovalFinal hashToken es := by
  have hissued : ∀ {before after : List TrustEvent}, es = before ++ after → ∀ {token device device'},
      Issued before token device → Issued before token device' → device = device' := by
    intro before after hes token device device' h h'
    refine Issued.unique ?_ h h'
    rw [hes, filterMap_append, map_append] at hdistinct
    exact (nodup_append.1 hdistinct).1
  have howned : ∀ {before : List TrustEvent} {token d}, TokenOf ((trustMachine hashToken).trace before)
      token d → Issued before token (some d) := by
    rintro before token d ⟨x, hx, grant, ho | ho⟩
    · exact (kept_run hashToken before).said x hx _ ho token (some d) rfl
    · exact (kept_run hashToken before).said x hx _ ho token (some d) rfl
  refine ⟨?_, ?_, ?_⟩
  · intro before after hes d hremoved token htoken now
    have hclean := (safe_run (hes ▸ hreached)).clean d hremoved
    cases hgrant : (((trustMachine hashToken).run before).sessions.grantForToken token now).grant with
    | none => rfl
    | some grant =>
      obtain ⟨entry, hget, -⟩ := Sessions.grantForToken_some hgrant
      obtain ⟨device, hdevice, hnamed⟩ := (kept_run hashToken before).sessions token entry hget
      have hd : device = some d := hissued hes hdevice (howned htoken)
      refine absurd ?_ (hclean.sessions token entry hget)
      rw [hnamed, hd]
      simp [(howned htoken).ne]
  · intro before after hes d hremoved
    exact ((safe_run (hes ▸ hreached)).clean d hremoved).rings
  · intro before later after hes d hremoved token grant d' ho
    have hclean := (safe_run (hes ▸ hreached)).clean d hremoved
    cases step_says hashToken ho with
    | @restored _ _ now _ peers p _ hphase hp htoken _ =>
      have hne : p.deviceId ≠ d := by
        intro hd
        cases (hclean.booting peers now hphase p hp hd).symm.trans htoken
      refine ⟨hne, fun hof => hne ?_⟩
      exact Option.some.inj (hissued hes
        ((kept_run hashToken before).booting peers now hphase p hp token htoken) (howned hof))

def removalBy (job : Nat) (d : String) : List TrustEvent :=
  [.revokes d, .reads job, .reads job, .writes job]

theorem removal_final_paired : RemovalFinal id
    (pairedRun ++ [.openTunnel, .startAgent, .tunnelUp 0] ++ removalBy 1 "browser-rs" ++
      [.usesToken sampleToken 3000, .boots none 4000, .restores 4000]) :=
  removal_final id _ (by decide +kernel) (by decide +kernel)

def otherToken : String := "60303ae22b998861bce3b28f33eec1be"

/-- A code and a request are answered in the same millisecond. -/
def twinRun : List TrustEvent :=
  startedRun ++ [.codePaired 0 sampleKeys "Phone" "" 1000, .registered 0 true true 1000, .reads 0,
    .writes 0, .accessApproved 0 ⟨[], [], [], otherToken⟩ "Phone" 1000, .registered 1 true true 1000,
    .sealed 1 true 1000, .reads 1, .writes 1] ++ removalBy 2 "browser-rs"

def earlyRun : List TrustEvent :=
  pairedRun ++ removalBy 1 "browser-rs" ++ [.openTunnel, .startAgent]

/-- The first token of two that a device was given under one id outlives its removal; and a tunnel that
is opened after the removal of a device that was restored has its keys. -/
theorem not_removal_final : ¬ RemovalFinal id twinRun ∧ ¬ RemovalFinal id earlyRun := by
  refine ⟨?_, ?_⟩
  · intro h
    have hremoved : removedSince ((trustMachine id).trace twinRun) "browser-rs" = true := by
      decide +kernel
    have htoken : ((trustMachine id).trace twinRun).any (fun x => x.out.contains
        (.registered sampleToken none (some "browser-rs"))) = true := by decide +kernel
    have hlive : (((trustMachine id).run twinRun).sessions.grantForToken sampleToken 2000).grant =
        some fullGrant := by decide +kernel
    obtain ⟨x, hx, ho⟩ := any_eq_true.1 htoken
    have hdead := h.tokens twinRun [] (append_nil _).symm "browser-rs" hremoved sampleToken
      ⟨x, hx, none, .inl (contains_iff_mem.1 ho)⟩ 2000
    rw [hlive] at hdead
    cases hdead
  · intro h
    have hremoved : removedSince ((trustMachine id).trace earlyRun) "browser-rs" = true := by
      decide +kernel
    have hrings : ((trustMachine id).run earlyRun).agents.any (fun a => a.keyring.any fun entry =>
        decide (entry.deviceId = some "browser-rs")) = true := by decide +kernel
    obtain ⟨a, ha, hkeys⟩ := any_eq_true.1 hrings
    obtain ⟨entry, hentry, hd⟩ := any_eq_true.1 hkeys
    exact h.keys earlyRun [] (append_nil _).symm "browser-rs" hremoved
      ⟨a, ha, entry, hentry, of_decide_eq_true hd⟩

end Mtmux.Cli
