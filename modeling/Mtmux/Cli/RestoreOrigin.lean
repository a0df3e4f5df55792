import Mtmux.Cli.TrustSteps

/-! Does a restart widen a credential? What a restart registers it reads from two files, and a record
gets into the first only after its token was registered and its share is in the second. -/
namespace Mtmux.Cli
open Crypto Protocol OrderedMap Machine TrustState List

def TrustEvent.isBoot : TrustEvent → Bool
  | .boots _ _ => true
  | _ => false

def sharesOf (hashToken : String → String) (tr : List TrustEntry) : List GrantRecord :=
  tr.filterMap fun x => x.pre.built hashToken x.event

def Standing (tr : List TrustEntry) (token : String) (grant : Option GrantRecord) (deviceId : String) :
    Prop :=
  ∃ before x after, tr = before ++ x :: after ∧
    .registered token grant (some deviceId) ∈ x.out ∧ ∀ y ∈ after, .removed deviceId ∉ y.out

/-- What a restart registers was registered in an earlier life with the same share, for a device that
was not removed by the time the records were read. Its share has neither expired nor been revoked. -/
def NeverWidens (hashToken : String → String) (es : List TrustEvent) : Prop :=
  ∀ before later after, es = before ++ .restores later :: after → ∀ token grant deviceId,
    .restored token grant deviceId ∈ ((trustMachine hashToken).entry
      ((trustMachine hashToken).run before) (.restores later)).out →
    ∃ earlier share now since, before = earlier ++ .boots share now :: since ∧
      (∀ e ∈ since, e.isBoot = false) ∧
      Standing ((trustMachine hashToken).trace earlier) token grant deviceId ∧
      ∀ g, grant = some g → isGrantActive g now = true ∧
        ∀ x ∈ (trustMachine hashToken).trace before, .grantRevoked g.id ∉ x.out

/-- Nothing was written to the file between its being read for this write and the write. -/
def oneAfterAnother (x : TrustEntry) : Bool :=
  match x.event with
  | .writes id =>
    match x.pre.jobs.get id with
    | some ⟨_, .writing _ loaded _ _⟩ => decide (loaded = x.pre.peers)
    | _ => true
  | _ => true

/-- Does the job hold a credential of the device that the relay was asked to take and the file does not
have? -/
def Job.holds (deviceId : String) : Job → Bool
  | .sealing p | .addingGrant p _ => decide (p.deviceId = some deviceId)
  | .loading (.addPeer peer) _ | .writing (.addPeer peer) _ _ _ =>
    decide (peer.deviceId = deviceId) && peer.directToken.isSome
  | _ => false

def TrustState.pairing (s : TrustState) (deviceId : String) : Bool :=
  s.jobs.values.any fun work => work.job.holds deviceId

def recorded (x : TrustEntry) : Bool :=
  match x.event with
  | .registered id handled _ _ =>
    match x.pre.jobs.get id with
    | some ⟨_, .registering p⟩ =>
      match p.via with
      | .code _ _ none => handled && x.pre.serving && decide (32 ≤ p.token.length)
      | _ => true
    | _ => true
  | .writes id =>
    match x.pre.jobs.get id with
    | some ⟨_, .writing (.removePeer deviceId) _ _ _⟩ => !x.pre.pairing deviceId
    | _ => true
  | _ => true

section Standing
variable {hashToken : String → String} {tr : List TrustEntry} {x : TrustEntry}
variable {token deviceId : String} {grant : Option GrantRecord}

theorem Standing.snoc (h : Standing tr token grant deviceId) (hx : .removed deviceId ∉ x.out) :
    Standing (tr ++ [x]) token grant deviceId := by
  obtain ⟨before, y, after, htr, hy, hkept⟩ := h
  refine ⟨before, y, after ++ [x], by simp [htr], hy, ?_⟩
  intro z hz
  obtain hz | hz := mem_append.1 hz
  · exact hkept z hz
  · rw [mem_singleton.1 hz]
    exact hx

theorem Standing.begins (hx : .registered token grant (some deviceId) ∈ x.out) :
    Standing (tr ++ [x]) token grant deviceId :=
  ⟨tr, x, [], rfl, hx, fun y hy => by cases hy⟩

/-- What a record in the file has behind it. -/
def Backed (hashToken : String → String) (tr : List TrustEntry) (peer : PeerRecord) : Prop :=
  ∀ token, peer.directToken = some token → ∃ grant, Standing tr token grant peer.deviceId ∧
    peer.grantId = grant.map GrantRecord.id ∧ ∀ g, grant = some g → g ∈ sharesOf hashToken tr

variable {g : GrantRecord}

theorem mem_sharesOf_snoc : g ∈ sharesOf hashToken (tr ++ [x]) ↔
    g ∈ sharesOf hashToken tr ∨ x.pre.built hashToken x.event = some g := by
  simp [sharesOf]

theorem Backed.snoc {peer : PeerRecord} (h : Backed hashToken tr peer)
    (hx : peer.directToken.isSome = true → .removed peer.deviceId ∉ x.out) : Backed hashToken (tr ++ [x]) peer := by
  intro token htoken
  obtain ⟨grant, hstanding, hid, hmade⟩ := h token htoken
  refine ⟨grant, hstanding.snoc (hx (by simp [htoken])), hid, ?_⟩
  exact fun g hg => mem_sharesOf_snoc.2 (.inl (hmade g hg))

theorem Backed.same {peer q : PeerRecord} (h : Backed hashToken tr q) (hsame : peer.Same q) :
    Backed hashToken tr peer := by
  intro token htoken
  obtain ⟨grant, hstanding, hid, hmade⟩ := h token (hsame.directToken ▸ htoken)
  exact ⟨grant, hsame.deviceId ▸ hstanding, hsame.grantId.trans hid, hmade⟩

/-- What a job has behind it. -/
def Job.Backed (hashToken : String → String) (tr : List TrustEntry) : Job → Prop
  | .registering p => ∀ g, p.grant = some g → g ∈ sharesOf hashToken tr
  | .sealing p => ∀ d, p.deviceId = some d → Standing tr p.token p.grant d
  | .addingGrant p grant => p.grant = some grant ∧ grant ∈ sharesOf hashToken tr ∧
      ∀ d, p.deviceId = some d → Standing tr p.token p.grant d
  | .loading edit _ => ∀ peer, edit = .addPeer peer → Cli.Backed hashToken tr peer
  | .writing edit loaded written _ => edit.apply loaded = some written ∧
      ∀ peer, edit = .addPeer peer → Cli.Backed hashToken tr peer
  | _ => True

theorem Job.Backed.snoc {job : Job} (h : job.Backed hashToken tr)
    (hx : ∀ d, job.holds d = true → .removed d ∉ x.out) : job.Backed hashToken (tr ++ [x]) := by
  have held : ∀ {peer : PeerRecord}, peer.directToken.isSome = true →
      (decide (peer.deviceId = peer.deviceId) && peer.directToken.isSome) = true := by simp
  cases job with
  | registering p => exact fun g hg => mem_sharesOf_snoc.2 (.inl (h g hg))
  | sealing p => exact fun d hd => (h d hd).snoc (hx d (by simpa [Job.holds] using hd))
  | addingGrant p grant =>
    refine ⟨h.1, mem_sharesOf_snoc.2 (.inl h.2.1), ?_⟩
    exact fun d hd => (h.2.2 d hd).snoc (hx d (by simpa [Job.holds] using hd))
  | loading edit next =>
    intro peer hpeer
    refine (h peer hpeer).snoc fun htoken => hx _ ?_
    rw [hpeer]
    exact held htoken
  | writing edit loaded written next =>
    refine ⟨h.1, ?_⟩
    intro peer hpeer
    refine (h.2 peer hpeer).snoc fun htoken => hx _ ?_
    rw [hpeer]
    exact held htoken
  | _ => trivial

end Standing

section Sourced
variable {hashToken : String → String} {tr : List TrustEntry} {x : TrustEntry} {s : TrustState}

theorem Job.Backed.record {p : Pairing} (now : Nat)
    (hstanding : ∀ d, p.deviceId = some d → Standing tr p.token p.grant d)
    (hdevice : p.via ≠ .pair → p.deviceId.isSome = true) (hmade : ∀ g, p.grant = some g → g ∈ sharesOf hashToken tr) :
    Cli.Backed hashToken tr (p.record now) := by
  intro token htoken
  by_cases hvia : p.via = .pair
  · simp [Pairing.record, hvia] at htoken
  · obtain ⟨d, hd⟩ := Option.isSome_iff_exists.1 (hdevice hvia)
    have htoken : p.token = token := by simpa [Pairing.record, hvia] using htoken
    have hrecord : (p.record now).deviceId = d := by simp [Pairing.record, hd]
    rw [hrecord, ← htoken]
    exact ⟨p.grant, hstanding d hd, rfl, hmade⟩

/-- What arises has behind it what its stage needs. -/
theorem arises_backed {i : Nat} {w : Work} (h : TrustState.Arises hashToken x.pre x.event x.out i w)
    (hjobs : ∀ i w, x.pre.jobs.get i = some w → w.job.Backed hashToken tr)
    (hquiet : ∀ d, .removed d ∉ x.out) (hrecorded : recorded x = true) : w.job.Backed hashToken (tr ++ [x]) := by
  cases h with
  | registering _ hgrant => exact fun g hg => mem_sharesOf_snoc.2 (.inr (hgrant ▸ hg))
  | @sealing id own p hjob htaken =>
    intro d hd
    refine .begins ?_
    rw [← hd]
    exact htaken
  | @addingGrant id own p grant hjob htaken hgrant =>
    refine ⟨hgrant, mem_sharesOf_snoc.2 (.inl (hjobs _ _ hjob grant hgrant)), ?_⟩
    intro d hd
    refine .begins ?_
    rw [← hd]
    exact htaken
  | @addingCode id now agent own handled answered p d next he hjob hvia _ htaken _ =>
    have hgot : handled = true ∧ x.pre.serving = true ∧ 32 ≤ p.token.length := by
      simpa [recorded, he, hjob, hvia, and_assoc] using hrecorded
    have hregistered := htaken hgot.1 hgot.2.1 hgot.2.2
    intro peer hpeer
    cases hpeer
    refine Job.Backed.record now ?_ ?_ ?_
    · intro d hd
      refine .begins ?_
      rw [← hd]
      exact hregistered
    · simp [Pairing.deviceId, hvia]
    · simp [Pairing.grant, hvia]
  | @addingPair id now own p next hjob hvia _ =>
    intro peer hpeer token htoken
    cases hpeer
    simp [Pairing.record, hvia] at htoken
  | @addingRequest id now agent own p d next hjob hvia _ =>
    intro peer hpeer
    cases hpeer
    refine Job.Backed.record now ?_ ?_ ?_
    · exact fun d hd => (hjobs _ _ hjob d hd).snoc (hquiet d)
    · simp [Pairing.deviceId, hvia]
    · simp [Pairing.grant, hvia]
  | @addingShare id now own p grant next hjob hvia _ =>
    obtain ⟨hgrant, hmade, hstanding⟩ := hjobs _ _ hjob
    intro peer hpeer
    cases hpeer
    refine Job.Backed.record now ?_ ?_ ?_
    · exact fun d hd => (hstanding d hd).snoc (hquiet d)
    · intro _
      unfold Pairing.grant at hgrant
      unfold Pairing.deviceId
      split at hgrant
      · rename_i hcode
        simp [hcode]
      · rename_i hshare
        exact absurd hshare (hvia _)
      · cases hgrant
      · cases hgrant
    · intro g hg
      rw [hgrant] at hg
      cases hg
      exact mem_sharesOf_snoc.2 (.inl hmade)
  | removing _ _ _ => exact fun peer hpeer => by cases hpeer
  | loading hedit _ => exact fun peer hpeer => absurd hpeer (hedit peer)
  | writing hjob happly =>
    exact ⟨happly, fun peer hpeer => (hjobs _ _ hjob peer hpeer).snoc fun _ => hquiet _⟩
  | listing _ | revokingToken | revokingGrant => trivial

theorem plain_backed {i : Nat} {w : Work}
    (h : ∀ s e out, TrustState.Arises hashToken s e out i w) : w.job.Backed hashToken tr := by
  have hnone : ∀ i w, TrustState.init.jobs.get i ≠ some w := fun i w hw => by cases hw
  cases h .init .tunnelDown [] with
  | registering hissued _ => cases hissued
  | sealing hjob _ => exact absurd hjob (hnone _ _)
  | addingGrant hjob _ _ => exact absurd hjob (hnone _ _)
  | addingCode _ hjob _ _ _ _ => exact absurd hjob (hnone _ _)
  | addingPair hjob _ _ => exact absurd hjob (hnone _ _)
  | addingRequest hjob _ _ => exact absurd hjob (hnone _ _)
  | addingShare hjob _ _ => exact absurd hjob (hnone _ _)
  | removing _ hjob _ => exact absurd hjob (hnone _ _)
  | writing hjob _ => exact absurd hjob (hnone _ _)
  | loading hedit _ => exact fun peer hpeer => absurd hpeer (hedit peer)
  | _ => trivial

/-- What the records have behind them: those of the file, those about to be written, and those a
restart has read. -/
structure Sourced (hashToken : String → String) (es : List TrustEvent) (s : TrustState) (tr : List TrustEntry) :
    Prop where
  peers : ∀ p ∈ s.peers, Backed hashToken tr p
  jobs : ∀ i w, s.jobs.get i = some w → w.job.Backed hashToken tr
  booting : ∀ peers now, s.phase = .booting peers now →
    ∀ p ∈ peers, ∃ earlier share since, es = earlier ++ .boots share now :: since ∧
      (∀ e ∈ since, e.isBoot = false) ∧ Backed hashToken ((trustMachine hashToken).trace earlier) p

theorem Sourced.init : Sourced hashToken [] .init [] where
  peers p hp := by cases hp
  jobs i w hw := by cases hw
  booting peers now hphase p hp := by
    cases hphase
    cases hp

theorem pairing_of_holds {i : Nat} {w : Work} {d : String} (hw : s.jobs.get i = some w)
    (hd : w.job.holds d = true) : s.pairing d = true :=
  any_eq_true.2 ⟨w, mem_map.2 ⟨(i, w), (s.jobs.get_eq_some i w).1 hw, rfl⟩, hd⟩

variable {es : List TrustEvent} {e : TrustEvent}

/-- The records that a restart has read are those of the file at its start. -/
theorem Sourced.boots (h : Sourced hashToken es s ((trustMachine hashToken).trace es)) {peers : List PeerRecord}
    {now : Nat} (hphase : (s.step hashToken e).1.phase = .booting peers now) : ∀ p ∈ peers, ∃ earlier share since,
      es ++ [e] = earlier ++ .boots share now :: since ∧ (∀ e ∈ since, e.isBoot = false) ∧
        Backed hashToken ((trustMachine hashToken).trace earlier) p := by
  intro p hp
  obtain hsame | hserving | ⟨share, now', rfl, hboots⟩ := (step_file hashToken s e).2
  · cases hboot : e.isBoot with
    | false =>
      obtain ⟨earlier, share, since, rfl, hsince, hbacked⟩ := h.booting peers now (hsame ▸ hphase) p hp
      refine ⟨earlier, share, since ++ [e], by simp, ?_, hbacked⟩
      rw [forall_mem_append, forall_mem_singleton]
      exact ⟨hsince, hboot⟩
    | true =>
      cases e with
      | boots share now' =>
        cases hphase
        exact ⟨es, share, [], rfl, nofun, h.peers p hp⟩
      | _ => cases hboot
  · cases hserving.symm.trans hphase
  · cases hboots.symm.trans hphase
    exact ⟨es, share, [], rfl, nofun, h.peers p hp⟩

theorem Sourced.writes {id : Nat} {own : Bool} {edit : PeerEdit} {loaded written : List PeerRecord} {next : AfterEdit}
    (h : Sourced hashToken es s ((trustMachine hashToken).trace es))
    (hjob : s.jobs.get id = some ⟨own, .writing edit loaded written next⟩) (hloaded : loaded = s.peers)
    (hrecorded : recorded ((trustMachine hashToken).entry s (.writes id)) = true) :
    Sourced hashToken (es ++ [.writes id]) (s.step hashToken (.writes id)).1
      ((trustMachine hashToken).trace es ++ [(trustMachine hashToken).entry s (.writes id)]) := by
  obtain ⟨⟨hpeers, -, -⟩, hjobs⟩ := writes_spec hashToken hjob
  obtain ⟨happly, hadded⟩ := h.jobs id _ hjob
  have hremoved {d : String} (hd : .removed d ∈ (s.step hashToken (.writes id)).2) : edit = .removePeer d := by
    cases step_says hashToken hd with
    | removed he hjob' =>
      cases he
      cases hjob.symm.trans hjob'
      rfl
  refine ⟨?_, ?_, fun peers now hphase => h.boots hphase⟩
  · intro p hp
    have hp : p ∈ written := hpeers ▸ hp
    obtain hedit | ⟨⟨q, hq, hsame⟩, hne⟩ := mem_apply happly hp
    · refine (hadded p hedit).snoc fun _ hgone => ?_
      cases hedit.symm.trans (hremoved hgone)
    · refine ((h.peers q (hloaded ▸ hq)).same hsame).snoc fun _ hgone => ?_
      exact hne _ (hremoved hgone) rfl
  · intro i w hw
    obtain hold | hnew := hjobs i w hw
    · refine (h.jobs i w hold).snoc fun d hd hgone => ?_
      have hedit := hremoved hgone
      have hnone : s.pairing d = false := by
        simpa [recorded, Machine.entry, hjob, hedit] using hrecorded
      rw [pairing_of_holds hold hd] at hnone
      cases hnone
    · exact plain_backed hnew

theorem Sourced.snoc (h : Sourced hashToken es s ((trustMachine hashToken).trace es))
    (hserial : oneAfterAnother ((trustMachine hashToken).entry s e) = true)
    (hrecorded : recorded ((trustMachine hashToken).entry s e) = true) :
    Sourced hashToken (es ++ [e]) (s.step hashToken e).1
      ((trustMachine hashToken).trace es ++ [(trustMachine hashToken).entry s e]) := by
  by_cases hwrites : ∃ id own edit loaded written next, e = .writes id ∧
      s.jobs.get id = some ⟨own, .writing edit loaded written next⟩
  · obtain ⟨id, own, edit, loaded, written, next, rfl, hjob⟩ := hwrites
    simp only [oneAfterAnother, Machine.entry, hjob] at hserial
    exact h.writes hjob (of_decide_eq_true hserial) hrecorded
  · have hquiet : ∀ d, .removed d ∉ (s.step hashToken e).2 := by
      intro d hd
      cases step_says hashToken hd with
      | removed he hjob => exact hwrites ⟨_, _, _, _, _, _, he, hjob⟩
    refine ⟨?_, ?_, fun peers now hphase => h.boots hphase⟩
    · intro p hp
      obtain hsame | ⟨id, own, edit, loaded, next, he, hjob⟩ := (step_file hashToken s e).1
      · exact (h.peers p (hsame ▸ hp)).snoc fun _ => hquiet _
      · exact absurd ⟨id, own, edit, loaded, _, next, he, hjob⟩ hwrites
    · intro i w hw
      obtain hold | hnew := step_jobs hashToken s e i w hw
      · exact (h.jobs i w hold).snoc fun d _ => hquiet d
      · exact arises_backed hnew h.jobs hquiet hrecorded

end Sourced

variable {hashToken : String → String}

theorem sourced_run {es : List TrustEvent} (hserial : ∀ x ∈ (trustMachine hashToken).trace es, oneAfterAnother x = true)
    (hrecorded : ∀ x ∈ (trustMachine hashToken).trace es, recorded x = true) :
    Sourced hashToken es ((trustMachine hashToken).run es) ((trustMachine hashToken).trace es) := by
  induction es using List.reverseRecOn with
  | nil => exact .init
  | append_singleton es e ih =>
    rw [trace_snoc, forall_mem_append, forall_mem_singleton] at hserial hrecorded
    rw [run_snoc, trace_snoc]
    exact (ih hserial.1 hrecorded.1).snoc hserial.2 hrecorded.2

/-- The job has a share that is not in its file yet. -/
def Job.brings (g : GrantRecord) : Job → Prop
  | .registering p => p.grant = some g
  | .addingGrant _ grant => grant = g
  | _ => False

structure Filed (hashToken : String → String) (tr : List TrustEntry) (s : TrustState) : Prop where
  rows : ∀ g ∈ s.grants, ∃ made ∈ sharesOf hashToken tr, g.id = made.id ∧
    (g = made ∨ g.revokedAt.isSome = true)
  brought : ∀ i w g, s.jobs.get i = some w → w.job.brings g →
    g ∈ sharesOf hashToken tr ∧ (∀ row ∈ s.grants, row.id ≠ g.id) ∧
      ∀ j w' g', s.jobs.get j = some w' → w'.job.brings g' → g'.id = g.id → j = i
  spent : ∀ x ∈ tr, ∀ id, .grantRevoked id ∈ x.out → id ∈ (sharesOf hashToken tr).map GrantRecord.id ∧
    (∀ g ∈ s.grants, g.id = id → g.revokedAt.isSome = true) ∧
    ∀ i w g, s.jobs.get i = some w → w.job.brings g → g.id ≠ id

section Filed
variable {hashToken : String → String} {tr : List TrustEntry} {x : TrustEntry} {s : TrustState}

theorem brings_arises {e : TrustEvent} {out : List TrustOutput} {i : Nat} {w : Work}
    (h : TrustState.Arises hashToken s e out i w) (hg : w.job.brings g) : i = s.next ∧ s.built hashToken e = some g ∨
      ∃ w', s.jobs.get i = some w' ∧ w'.job.brings g := by
  cases h with
  | registering _ hgrant => exact .inl ⟨rfl, hgrant.symm.trans hg⟩
  | addingGrant hjob _ hgrant =>
    cases hg
    exact .inr ⟨_, hjob, hgrant⟩
  | _ => cases hg

structure Filing (hashToken : String → String) (x : TrustEntry) (s' : TrustState) : Prop where
  brings : ∀ i w g, s'.jobs.get i = some w → w.job.brings g →
    i = x.pre.next ∧ x.pre.built hashToken x.event = some g ∨
      ∃ w', x.pre.jobs.get i = some w' ∧ w'.job.brings g
  rows : ∀ row ∈ s'.grants,
    (∃ old ∈ x.pre.grants, row.id = old.id ∧ (row = old ∨ row.revokedAt.isSome = true)) ∨
      ∃ i w, x.pre.jobs.get i = some w ∧ w.job.brings row ∧
        ∀ w' g, s'.jobs.get i = some w' → ¬ w'.job.brings g
  revoked : ∀ id, .grantRevoked id ∈ x.out → (∃ row ∈ x.pre.grants, row.id = id) ∧
    ∀ row ∈ s'.grants, row.id = id → row.revokedAt.isSome = true

theorem Filed.step {s' : TrustState} (h : Filed hashToken tr x.pre) (hx : Filing hashToken x s')
    (hids : ((sharesOf hashToken (tr ++ [x])).map GrantRecord.id).Nodup) : Filed hashToken (tr ++ [x]) s' := by
  have hold : ∀ {g}, g ∈ sharesOf hashToken tr → g ∈ sharesOf hashToken (tr ++ [x]) :=
    fun hg => mem_sharesOf_snoc.2 (.inl hg)
  have hfresh : ∀ {g g'}, x.pre.built hashToken x.event = some g → g' ∈ sharesOf hashToken tr →
      g'.id ≠ g.id := by
    intro g g' hg hg' heq
    have hlist : sharesOf hashToken (tr ++ [x]) = sharesOf hashToken tr ++ [g] := by
      simp [sharesOf, hg]
    rw [hlist, map_append, nodup_append] at hids
    exact hids.2.2 g'.id (mem_map_of_mem hg') g.id (by simp) heq
  have hrow : ∀ {row}, row ∈ x.pre.grants → ∃ made ∈ sharesOf hashToken tr, row.id = made.id := by
    intro row hrow
    obtain ⟨made, hmade, hid, -⟩ := h.rows row hrow
    exact ⟨made, hmade, hid⟩
  refine ⟨?_, ?_, ?_⟩
  · intro row hmem
    obtain ⟨old, hmem, hid, hrow⟩ | ⟨i, w, hw, hbrings, -⟩ := hx.rows row hmem
    · obtain ⟨made, hmade, hsame, hstate⟩ := h.rows old hmem
      refine ⟨made, hold hmade, hid.trans hsame, ?_⟩
      obtain rfl | hrevoked := hrow
      · exact hstate
      · exact .inr hrevoked
    · exact ⟨row, hold (h.brought i w row hw hbrings).1, rfl, .inl rfl⟩
  · intro i w g hw hg
    obtain ⟨hi, hbuilt⟩ | ⟨w₀, hw₀, hg₀⟩ := hx.brings i w g hw hg
    · refine ⟨mem_sharesOf_snoc.2 (.inr hbuilt), ?_, ?_⟩
      · intro row hmem
        obtain ⟨old, hmem, hid, -⟩ | ⟨j, w', hw', hbrings, -⟩ := hx.rows row hmem
        · obtain ⟨made, hmade, hsame⟩ := hrow hmem
          rw [hid, hsame]
          exact hfresh hbuilt hmade
        · exact hfresh hbuilt (h.brought j w' row hw' hbrings).1
      · intro j w' g' hw' hg' heq
        obtain ⟨hj, -⟩ | ⟨w₁, hw₁, hg₁⟩ := hx.brings j w' g' hw' hg'
        · rw [hi, hj]
        · exact absurd heq (hfresh hbuilt (h.brought j w₁ g' hw₁ hg₁).1)
    · obtain ⟨hmade, hrows, hone⟩ := h.brought i w₀ g hw₀ hg₀
      refine ⟨hold hmade, ?_, ?_⟩
      · intro row hmem
        obtain ⟨old, hmem, hid, -⟩ | ⟨j, w', hw', hbrings, hgone⟩ := hx.rows row hmem
        · rw [hid]
          exact hrows old hmem
        · intro heq
          have hj : j = i := hone j w' row hw' hbrings heq
          exact hgone w g (hj ▸ hw) hg
      · intro j w' g' hw' hg' heq
        obtain ⟨-, hbuilt⟩ | ⟨w₁, hw₁, hg₁⟩ := hx.brings j w' g' hw' hg'
        · exact absurd heq.symm (hfresh hbuilt hmade)
        · exact hone j w₁ g' hw₁ hg₁ heq
  · intro y hy id hid
    obtain hy | hy := mem_append.1 hy
    · obtain ⟨hmade, hrows, hbrings⟩ := h.spent y hy id hid
      refine ⟨?_, ?_, ?_⟩
      · obtain ⟨g, hg, rfl⟩ := mem_map.1 hmade
        exact mem_map_of_mem (hold hg)
      · intro row hmem heq
        obtain ⟨old, hmem, hsame, rfl | hrevoked⟩ | ⟨i, w, hw, hg, -⟩ := hx.rows row hmem
        · exact hrows row hmem heq
        · exact hrevoked
        · exact absurd heq (hbrings i w row hw hg)
      · intro i w g hw hg
        obtain ⟨-, hbuilt⟩ | ⟨w₀, hw₀, hg₀⟩ := hx.brings i w g hw hg
        · obtain ⟨g', hg', rfl⟩ := mem_map.1 hmade
          exact (hfresh hbuilt hg').symm
        · exact hbrings i w₀ g hw₀ hg₀
    · rw [mem_singleton] at hy
      rw [hy] at hid
      obtain ⟨⟨row, hmem, hrowid⟩, hrevoked⟩ := hx.revoked id hid
      obtain ⟨made, hmade, hsame⟩ := hrow hmem
      refine ⟨?_, hrevoked, ?_⟩
      · rw [← hrowid, hsame]
        exact mem_map_of_mem (hold hmade)
      · intro i w g hw hg
        obtain ⟨-, hbuilt⟩ | ⟨w₀, hw₀, hg₀⟩ := hx.brings i w g hw hg
        · rw [← hrowid, hsame]
          exact (hfresh hbuilt hmade).symm
        · rw [← hrowid]
          exact ((h.brought i w₀ g hw₀ hg₀).2.1 row hmem).symm

theorem revoke_rows {grants written : List GrantRecord} {grantId : String} {now : Nat}
    (h : GrantsStore.revoke grants grantId now = some written) : (∃ row ∈ grants, row.id = grantId) ∧
      (∀ row ∈ written, ∃ old ∈ grants, row.id = old.id ∧ (row = old ∨ row.revokedAt.isSome = true)) ∧
      ∀ row ∈ written, row.id = grantId → row.revokedAt.isSome = true := by
  unfold GrantsStore.revoke at h
  split at h
  · cases h
  · rename_i target htarget
    split at h
    · cases h
    · cases h
      refine ⟨⟨target, mem_of_find?_eq_some htarget, by simpa using List.find?_some htarget⟩, ?_, ?_⟩
      · intro row hrow
        obtain ⟨old, hold, rfl⟩ := mem_map.1 hrow
        refine ⟨old, hold, ?_⟩
        split
        · exact ⟨rfl, .inr rfl⟩
        · exact ⟨rfl, .inl rfl⟩
      · intro row hrow hid
        obtain ⟨old, hold, rfl⟩ := mem_map.1 hrow
        split
        · rfl
        · rename_i hne
          rw [if_neg hne] at hid
          exact absurd hid hne

theorem Filing.of_same {s' : TrustState} (hjobs : ∀ i w g, s'.jobs.get i = some w → w.job.brings g →
      i = x.pre.next ∧ x.pre.built hashToken x.event = some g ∨ ∃ w', x.pre.jobs.get i = some w' ∧ w'.job.brings g)
    (hgrants : ∀ row ∈ s'.grants, row ∈ x.pre.grants) (hout : ∀ id, .grantRevoked id ∉ x.out) :
    Filing hashToken x s' where
  brings := hjobs
  rows row hrow := .inl ⟨row, hgrants row hrow, rfl, .inl rfl⟩
  revoked id hid := absurd hid (hout id)

theorem filing_step (s : TrustState) (e : TrustEvent) :
    Filing hashToken ((trustMachine hashToken).entry s e) (s.step hashToken e).1 := by
  have hbrings : ∀ i w g, (s.step hashToken e).1.jobs.get i = some w → w.job.brings g →
      i = s.next ∧ s.built hashToken e = some g ∨ ∃ w', s.jobs.get i = some w' ∧ w'.job.brings g := by
    intro i w g hw hg
    obtain hold | hnew := step_jobs hashToken s e i w hw
    · exact .inr ⟨w, hold, hg⟩
    · exact brings_arises hnew hg
  have hsame (hgrants : ∀ row ∈ (s.step hashToken e).1.grants, row ∈ s.grants) (he : ∀ id now, e ≠ .shellRevokes id now) :
      Filing hashToken ((trustMachine hashToken).entry s e) (s.step hashToken e).1 := by
    refine .of_same hbrings hgrants fun id hid => ?_
    cases step_says hashToken hid with
    | grantRevoked hrevokes => exact he _ _ hrevokes
  cases hmarks : e.marks with
  | false =>
    refine hsame (fun row hrow => (step_quiet hashToken hmarks).grants ▸ hrow) ?_
    rintro id now rfl
    cases hmarks
  | true =>
    cases e with
    | boots share now => exact hsame (fun row hrow => hrow) (by simp)
    | restores later => exact hsame (fun row hrow => (restores_spec hashToken s later).2.1 ▸ hrow) (by simp)
    | addsGrant id now =>
      obtain hnone | ⟨own, p, grant, hjob, hgrants, -, -, hjobs⟩ := addsGrant_spec hashToken s id now
      · exact hsame (fun row hrow => by rwa [hnone] at hrow) (by simp)
      · have hgone : ∀ w g, (s.step hashToken (.addsGrant id now)).1.jobs.get id = some w →
            ¬ w.job.brings g := by
          intro w g hw hg
          obtain ⟨hne, -⟩ | ⟨next, -, rfl, -⟩ := hjobs id w hw
          · exact hne rfl
          · cases hg
        refine ⟨hbrings, ?_, fun id hid => by cases step_says hashToken hid with | grantRevoked he => cases he⟩
        intro row hrow
        rw [hgrants, GrantsStore.add, mem_append, mem_filter, mem_singleton] at hrow
        obtain ⟨hrow, -⟩ | rfl := hrow
        · exact .inl ⟨row, hrow, rfl, .inl rfl⟩
        · exact .inr ⟨id, _, hjob, rfl, hgone⟩
    | writes id =>
      refine hsame (fun row hrow => ?_) (by simp)
      cases hjob : s.jobs.get id with
      | none => simpa [TrustState.step, hjob] using hrow
      | some work =>
        obtain ⟨own, job⟩ := work
        cases job with
        | writing edit loaded written next => exact (writes_spec hashToken hjob).1.2.1 ▸ hrow
        | _ => simpa [TrustState.step, hjob] using hrow
    | shellRevokes grantId now =>
      obtain hnone | ⟨grants, hwritten, hgrants, -⟩ := shellRevokes_spec hashToken s grantId now
      · refine .of_same hbrings (fun row hrow => by rwa [hnone] at hrow) fun id hid => ?_
        have hout : .grantRevoked id ∈ (s.step hashToken (.shellRevokes grantId now)).2 := hid
        rw [hnone] at hout
        cases hout
      · obtain ⟨hthere, hrows, hmarked⟩ := revoke_rows hwritten
        refine ⟨hbrings, fun row hrow => .inl (hrows row (hgrants ▸ hrow)), ?_⟩
        intro id hid
        cases step_says hashToken hid with
        | grantRevoked he =>
          cases he
          exact ⟨hthere, fun row hrow => hmarked row (hgrants ▸ hrow)⟩
    | prunes maxAgeMs now => exact hsame (fun row hrow => (mem_filter.1 hrow).1) (by simp)
    | _ => cases hmarks

end Filed

theorem filed_run {es : List TrustEvent}
    (hids : ((sharesOf hashToken ((trustMachine hashToken).trace es)).map GrantRecord.id).Nodup) :
    Filed hashToken ((trustMachine hashToken).trace es) ((trustMachine hashToken).run es) := by
  induction es using List.reverseRecOn with
  | nil =>
    refine ⟨?_, ?_, ?_⟩
    · exact fun g hg => by cases hg
    · exact fun i w g hw => by cases hw
    · exact fun x hx => by cases hx
  | append_singleton es e ih =>
    rw [trace_snoc] at hids
    have hbefore : ((sharesOf hashToken ((trustMachine hashToken).trace es)).map GrantRecord.id).Nodup := by
      rw [sharesOf, filterMap_append, map_append] at hids
      exact (nodup_append.1 hids).1
    rw [trace_snoc, run_snoc]
    exact (ih hbefore).step (filing_step _ _) hids

theorem share_id_ne {tr : List TrustEntry} (h : g ∈ sharesOf hashToken tr) : g.id ≠ "" := by
  have hbuilt : ∀ (share : ShareOptions) (draw : String) (now : Nat) (token : String),
      (share.buildGrant hashToken draw now token).id ≠ "" := by
    intro share draw now token heq
    have hlength := congrArg String.length heq
    simp [ShareOptions.buildGrant, GrantsStore.newGrantId] at hlength
  obtain ⟨x, -, hx⟩ := mem_filterMap.1 h
  unfold TrustState.built at hx
  split at hx
  · obtain ⟨share, -, rfl⟩ := Option.map_eq_some_iff.1 hx
    exact hbuilt _ _ _ _
  · cases hx
    exact hbuilt _ _ _ _
  · cases hx

/-- In a run in which the relay gets every registration of a full pairing, and no device is removed
while a pairing of it is between its registration and its record, a restart never widens a
credential. -/
theorem never_widens (hashToken : String → String) (es : List TrustEvent)
    (hserial : ∀ x ∈ (trustMachine hashToken).trace es, oneAfterAnother x = true)
    (hids : ((sharesOf hashToken ((trustMachine hashToken).trace es)).map GrantRecord.id).Nodup)
    (hrecorded : ∀ x ∈ (trustMachine hashToken).trace es, recorded x = true) : NeverWidens hashToken es := by
  intro before later after hes token grant deviceId hrestored
  have hbegins : (trustMachine hashToken).trace before <+: (trustMachine hashToken).trace es := by
    rw [hes]
    exact (trustMachine hashToken).trace_begins before _
  have hsourced :=
    sourced_run (fun x hx => hserial x (hbegins.subset hx)) fun x hx => hrecorded x (hbegins.subset hx)
  have hfiled : Filed hashToken ((trustMachine hashToken).trace before)
      ((trustMachine hashToken).run before) :=
    filed_run (hids.sublist ((hbegins.sublist.filterMap _).map _))
  obtain ⟨peers, now, p, rfl, hphase, hp, htoken, hscoped⟩ : ∃ peers now p, deviceId = PeerRecord.deviceId p ∧
      ((trustMachine hashToken).run before).phase = .booting peers now ∧ p ∈ peers ∧ p.directToken = some token ∧
      Scoped (GrantsStore.active ((trustMachine hashToken).run before).grants now) p grant := by
    cases step_says hashToken hrestored with
    | restored _ hphase hp htoken hscoped => exact ⟨_, _, _, rfl, hphase, hp, htoken, hscoped⟩
  obtain ⟨earlier, share, since, hbefore, hsince, hbacked⟩ := hsourced.booting peers now hphase p hp
  obtain ⟨made, hstanding, hid, hmade⟩ := hbacked token htoken
  have hlived : ∀ g, g ∈ sharesOf hashToken ((trustMachine hashToken).trace earlier) →
      g ∈ sharesOf hashToken ((trustMachine hashToken).trace before) := by
    intro g hg
    have hlonger := (trustMachine hashToken).trace_begins earlier (.boots share now :: since)
    rw [← hbefore] at hlonger
    exact (hlonger.sublist.filterMap _).subset hg
  have hsame : grant = made ∧ ∀ g, grant = some g → isGrantActive g now = true ∧
      g ∈ ((trustMachine hashToken).run before).grants := by
    cases grant with
    | none =>
      cases made with
      | none => exact ⟨rfl, fun g hg => by cases hg⟩
      | some m =>
        have hnone : p.grantId.filter (· ≠ "") = none := hscoped
        rw [hid] at hnone
        exact absurd (share_id_ne (hmade m rfl)) (by simpa using hnone)
    | some g =>
      obtain ⟨hactive, hgid⟩ := hscoped
      obtain ⟨hrow, halive⟩ := mem_filter.1 hactive
      cases made with
      | none => cases hgid.symm.trans hid
      | some m =>
        have hgm : g.id = m.id := Option.some.inj (hgid.symm.trans hid)
        obtain ⟨m', hm', hsame, rfl | hrevoked⟩ := hfiled.rows g hrow
        · have heq : g = m := inj_on_of_nodup_map
            (hids.sublist ((hbegins.sublist.filterMap _).map _)) hm' (hlived m (hmade m rfl)) hgm
          rw [heq] at halive hrow ⊢
          refine ⟨rfl, fun g' hg' => ?_⟩
          cases hg'
          exact ⟨halive, hrow⟩
        · simp [isGrantActive, Option.isSome_iff_ne_none.1 hrevoked] at halive
  refine ⟨earlier, share, now, since, hbefore, hsince, hsame.1 ▸ hstanding, ?_⟩
  intro g hg
  obtain ⟨halive, hrow⟩ := hsame.2 g hg
  refine ⟨halive, fun x hx hrevoked => ?_⟩
  have hmarked := (hfiled.spent x hx g.id hrevoked).2.1 g hrow rfl
  simp [isGrantActive, Option.isSome_iff_ne_none.1 hmarked] at halive

def sampleToken : String := "9f86d081884c7d659a2feaa0c55ad015"

def sampleKeys : SessionKeys := ⟨[], [], [], sampleToken⟩

def startedRun : List TrustEvent :=
  [.boots none 0, .restores 0, .openTunnel, .startAgent, .tunnelUp 0]

def pairedRun : List TrustEvent :=
  startedRun ++ [.codePaired 0 sampleKeys "Phone" "" 1000, .registered 0 true true 1000, .reads 0,
    .writes 0, .boots none 2000, .restores 2000]

def guestShare : ShareOptions := ⟨"guest", .all, true, .none, none⟩

def guestKeys (c : Char) : SessionKeys := ⟨[], [], [], String.ofList (replicate 32 c)⟩

/-- Two guests pair after a restart that shares, and the share of the first is revoked. -/
def sharedRun : List TrustEvent :=
  pairedRun ++ [.boots (some guestShare) 3000, .restores 3000, .openTunnel, .startAgent, .tunnelUp 0,
    .codePaired 0 (guestKeys 'a') "Guest" "a" 4000, .registered 1 true true 4000, .addsGrant 1 4000,
    .reads 1, .writes 1, .codePaired 0 (guestKeys 'b') "Friend" "b" 5000, .registered 2 true true 5000,
    .addsGrant 2 5000, .reads 2, .writes 2, .shellRevokes "grn_a" 6000, .told 3 true, .boots none 7000,
    .restores 7000]

theorem never_widens_paired : NeverWidens id sharedRun :=
  never_widens id sharedRun (all_eq_true.1 (by decide +kernel)) (by decide +kernel)
    (all_eq_true.1 (by decide +kernel))

/-- The relay does not get the registration, and the browser is remembered all the same. -/
def unregisteredRun : List TrustEvent :=
  startedRun ++ [.codePaired 0 sampleKeys "Phone" "" 1000, .registered 0 false false 1000, .reads 0,
    .writes 0, .boots none 2000]

/-- A restart registers a token that no relay had before. -/
theorem not_never_widens : ((trustMachine id).outputs unregisteredRun = [.admitted "browser-rs", .paired "browser-rs"] ∧
      ((trustMachine id).step ((trustMachine id).run unregisteredRun) (.restores 2000)).2 =
        [.restored sampleToken none "browser-rs"]) ∧ ¬ NeverWidens id (unregisteredRun ++ [.restores 2000]) := by
  have hout : (trustMachine id).outputs unregisteredRun =
      [.admitted "browser-rs", .paired "browser-rs"] := by decide +kernel
  have hrestored : ((trustMachine id).step ((trustMachine id).run unregisteredRun) (.restores 2000)).2 =
      [.restored sampleToken none "browser-rs"] := by decide +kernel
  refine ⟨⟨hout, hrestored⟩, ?_⟩
  intro h
  obtain ⟨earlier, share, now, since, hsplit, -, hstanding, -⟩ :=
    h unregisteredRun 2000 [] rfl sampleToken none "browser-rs" (by
      rw [Machine.entry, hrestored]
      exact mem_singleton_self _)
  obtain ⟨before, x, after, htr, hx, -⟩ := hstanding
  have hbegins := (trustMachine id).trace_begins earlier (.boots share now :: since)
  rw [← hsplit, htr] at hbegins
  have hmem : TrustOutput.registered sampleToken none (some "browser-rs") ∈
      (trustMachine id).outputs unregisteredRun :=
    mem_flatMap.2 ⟨x, hbegins.subset (by simp), hx⟩
  rw [hout] at hmem
  simp at hmem

end Mtmux.Cli
