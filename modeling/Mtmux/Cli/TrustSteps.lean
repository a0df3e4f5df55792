import Mtmux.Cli.TrustedDevices

/-! What one step makes of the work in hand and of the two files. Where a job comes from is said once,
with what its stage has behind it. -/
namespace Mtmux.Cli
open Crypto Protocol Relay OrderedMap List

abbrev TrustEntry : Type := Machine.Entry TrustState TrustEvent TrustOutput

theorem browserId_ne (now : Nat) : browserId now ≠ "" := by
  intro h
  have hlength := congrArg String.length h
  simp [browserId] at hlength

/-- The token a pairing derives or the relay mints, and the device it is said to be of. -/
def TrustEvent.issues : TrustEvent → Option (String × Option String)
  | .codePaired _ derived _ _ now | .accessApproved _ derived _ now =>
    some (derived.directToken, some (browserId now))
  | .shellPairs derived _ | .shellShares _ derived _ _ _ => some (derived.directToken, none)
  | .signedInLocally token _ draw _ => some (token, some ("local-" ++ draw))
  | _ => none

/-- The steps that write a file or change the phase. -/
def TrustEvent.marks : TrustEvent → Bool
  | .boots _ _ | .restores _ | .addsGrant _ _ | .writes _ | .shellRevokes _ _ | .prunes _ _ => true
  | _ => false

section Restore
variable {active : List GrantRecord} {now later : Nat} {peers : List PeerRecord}

/-- The scope a record comes back with: that of its share, or none where it never had one. -/
def Scoped (active : List GrantRecord) (peer : PeerRecord) : Option GrantRecord → Prop
  | none => peer.grantId.filter (· ≠ "") = none
  | some grant => grant ∈ active ∧ peer.grantId = some grant.id

theorem restorePeer_cases (r : RestoreResult) (peer : PeerRecord) : ((restorePeer active now later r peer).out = r.out ∧
      (restorePeer active now later r peer).sessions = r.sessions ∧
      (restorePeer active now later r peer).trusted = r.trusted) ∨
    ∃ token grant, peer.directToken = some token ∧ token ≠ "" ∧ Scoped active peer grant ∧
      (restorePeer active now later r peer).out = r.out ++ [.restored token grant peer.deviceId] ∧
      (restorePeer active now later r peer).sessions =
        r.sessions.registerSessionToken token (peerLifetimeRemainingMs peer now) later
          (grant.getD fullGrant) (some peer.label) (some peer.deviceId) ∧
      ∀ entry ∈ (restorePeer active now later r peer).trusted,
        entry ∈ r.trusted ∨ entry.deviceId = some peer.deviceId := by
  unfold restorePeer
  dsimp only
  split
  · exact .inl ⟨rfl, rfl, rfl⟩
  · split
    · exact .inl ⟨rfl, rfl, rfl⟩
    · rename_i hscope
      split
      · exact .inl ⟨rfl, rfl, rfl⟩
      · rename_i token htoken
        obtain ⟨hstored, hne⟩ := Option.filter_eq_some_iff.1 htoken
        generalize hfound : ((peer.grantId.filter (· ≠ "")).bind fun id =>
          active.reverse.find? fun g => g.id = id) = grant at hscope
        have hscoped : Scoped active peer grant := by
          cases grant with
          | none =>
            cases hid : peer.grantId.filter (· ≠ "") with
            | none => exact hid
            | some id =>
              rw [hid] at hscope
              exact absurd rfl hscope
          | some grant =>
            obtain ⟨id, hid, hfind⟩ := Option.bind_eq_some_iff.1 hfound
            have hgrant : grant.id = id := by simpa using List.find?_some hfind
            rw [hgrant.symm] at hid
            exact ⟨mem_reverse.1 (mem_of_find?_eq_some hfind),
              (Option.filter_eq_some_iff.1 hid).1⟩
        refine .inr ⟨token, grant, hstored, by simpa using hne, hscoped, ?_⟩
        cases peer.sessionKeys with
        | none => exact ⟨rfl, rfl, fun entry hentry => .inl hentry⟩
        | some keys =>
          refine ⟨rfl, rfl, ?_⟩
          intro entry hentry
          obtain hold | hnew := mem_append.1 hentry
          · exact .inl hold
          · rw [mem_singleton] at hnew
            rw [hnew]
            exact .inr rfl

/-- What a restart registers is in the file it read, with a share that is active. -/
theorem restored_spec {grants : List GrantRecord} {sessions : Sessions} {o : TrustOutput}
    (ho : o ∈ (restoreTrustedDevices peers grants now later sessions).out) :
    ∃ p ∈ peers, ∃ token grant, o = .restored token grant p.deviceId ∧ p.directToken = some token ∧
      Scoped (GrantsStore.active grants now) p grant := by
  have hfold : ∀ (l : List PeerRecord) (r : RestoreResult), (∀ p ∈ l, p ∈ peers) →
      (∀ o ∈ r.out, ∃ p ∈ peers, ∃ token grant, o = .restored token grant p.deviceId ∧
        p.directToken = some token ∧ Scoped (GrantsStore.active grants now) p grant) →
      ∀ o ∈ (l.foldl (restorePeer (GrantsStore.active grants now) now later) r).out,
        ∃ p ∈ peers, ∃ token grant, o = .restored token grant p.deviceId ∧
          p.directToken = some token ∧ Scoped (GrantsStore.active grants now) p grant := by
    intro l
    induction l with
    | nil => exact fun r _ hr => hr
    | cons p l ih =>
      intro r hl hr
      refine ih _ (fun q hq => hl q (mem_cons_of_mem _ hq)) ?_
      obtain ⟨hout, -, -⟩ | ⟨token, grant, htoken, -, hscoped, hout, -, -⟩ :=
        @restorePeer_cases (GrantsStore.active grants now) now later r p
      · rw [hout]
        exact hr
      · rw [hout]
        intro o ho
        obtain ho | ho := mem_append.1 ho
        · exact hr o ho
        · rw [mem_singleton] at ho
          exact ⟨p, hl p mem_cons_self, token, grant, ho, htoken, hscoped⟩
  exact hfold peers _ (fun p hp => hp) (fun o ho => by cases ho) o ho

end Restore

namespace TrustState
variable (hashToken : String → String)

def built (s : TrustState) : TrustEvent → Option GrantRecord
  | .codePaired _ derived _ draw now =>
    s.share.map fun share => share.buildGrant hashToken draw now derived.directToken
  | .shellShares share derived _ draw now => some (share.buildGrant hashToken draw now derived.directToken)
  | _ => none

def Taken (out : List TrustOutput) (p : Pairing) : Prop :=
  .registered p.token p.grant p.deviceId ∈ out

/-- A job that was not there before the step, and what it comes from. -/
inductive Arises (s : TrustState) (e : TrustEvent) (out : List TrustOutput) : Nat → Work → Prop
  | registering {own : Bool} {p : Pairing} (hissued : e.issues = some (p.token, p.deviceId))
      (hgrant : p.grant = s.built hashToken e) : Arises s e out s.next ⟨own, .registering p⟩
  | sealing {id : Nat} {own : Bool} {p : Pairing}
      (hjob : s.jobs.get id = some ⟨own, .registering p⟩) (htaken : Taken out p) :
      Arises s e out id ⟨own, .sealing p⟩
  | addingGrant {id : Nat} {own : Bool} {p : Pairing} {grant : GrantRecord}
      (hjob : s.jobs.get id = some ⟨own, .registering p⟩) (htaken : Taken out p)
      (hgrant : p.grant = some grant) : Arises s e out id ⟨own, .addingGrant p grant⟩
  | addingCode {id now agent : Nat} {own handled answered : Bool} {p : Pairing} {d : String}
      {next : AfterEdit} (he : e = .registered id handled answered now) (hjob : s.jobs.get id = some ⟨own, .registering p⟩)
      (hvia : p.via = .code agent d none) (hadmitted : .admitted d ∈ out)
      (htaken : handled = true → s.serving = true → 32 ≤ p.token.length → Taken out p)
      (hnext : ∀ d, next ≠ .revoked d) :
      Arises s e out id ⟨own, .loading (.addPeer (p.record now)) next⟩
  | addingPair {id now : Nat} {own : Bool} {p : Pairing} {next : AfterEdit}
      (hjob : s.jobs.get id = some ⟨own, .registering p⟩) (hvia : p.via = .pair)
      (hnext : ∀ d, next ≠ .revoked d) :
      Arises s e out id ⟨own, .loading (.addPeer (p.record now)) next⟩
  | addingRequest {id now agent : Nat} {own : Bool} {p : Pairing} {d : String} {next : AfterEdit}
      (hjob : s.jobs.get id = some ⟨own, .sealing p⟩) (hvia : p.via = .request agent d) (hnext : ∀ d, next ≠ .revoked d) :
      Arises s e out id ⟨own, .loading (.addPeer (p.record now)) next⟩
  | addingShare {id now : Nat} {own : Bool} {p : Pairing} {grant : GrantRecord} {next : AfterEdit}
      (hjob : s.jobs.get id = some ⟨own, .addingGrant p grant⟩) (hvia : ∀ g, p.via ≠ .share g)
      (hnext : ∀ d, next ≠ .revoked d) :
      Arises s e out id ⟨own, .loading (.addPeer (p.record now)) next⟩
  | removing {id : Nat} {own : Bool} {d : String} {peer : PeerRecord} (he : e = .reads id)
      (hjob : s.jobs.get id = some ⟨own, .listing (.panel d)⟩)
      (hpeer : s.peers.find? (fun p => p.deviceId = d) = some peer) :
      Arises s e out id ⟨own, .loading (.removePeer d) (.revoked d)⟩
  | loading {id : Nat} {own : Bool} {edit : PeerEdit} {next : AfterEdit}
      (hedit : ∀ p, edit ≠ .addPeer p) (hnext : ∀ d, next ≠ .revoked d) :
      Arises s e out id ⟨own, .loading edit next⟩
  | writing {id : Nat} {own : Bool} {edit : PeerEdit} {written : List PeerRecord} {next : AfterEdit}
      (hjob : s.jobs.get id = some ⟨own, .loading edit next⟩)
      (happly : edit.apply s.peers = some written) :
      Arises s e out id ⟨own, .writing edit s.peers written next⟩
  | listing {id : Nat} {own : Bool} {who : Remover}
      (hpanel : ∀ d, who = .panel d → own = true ∧ s.serving = true) :
      Arises s e out id ⟨own, .listing who⟩
  | revokingToken {id : Nat} {own : Bool} {token : String} :
      Arises s e out id ⟨own, .revokingToken token⟩
  | revokingGrant {id : Nat} {own : Bool} {grantId : String} :
      Arises s e out id ⟨own, .revokingGrant grantId⟩

def JobsFrom (s : TrustState) (e : TrustEvent) (r : TrustStep) : Prop :=
  ∀ i w, r.1.jobs.get i = some w → s.jobs.get i = some w ∨ Arises hashToken s e r.2 i w

/-- A step that leaves both files and the phase as they are. -/
structure Quiet (s : TrustState) (e : TrustEvent) (r : TrustStep) : Prop where
  jobs : JobsFrom hashToken s e r
  peers : r.1.peers = s.peers
  grants : r.1.grants = s.grants
  phase : r.1.phase = s.phase

variable {hashToken} {s t : TrustState} {e : TrustEvent} {w : Work}

theorem Arises.mono {out : List TrustOutput} {i : Nat}
    (h : Arises hashToken t e out i w) (hjobs : t.jobs = s.jobs) (hpeers : t.peers = s.peers)
    (hnext : t.next = s.next) (hshare : t.share = s.share) (hphase : t.phase = s.phase) :
    Arises hashToken s e out i w := by
  have hserving : t.serving = s.serving := by simp [serving, hphase]
  have hbuilt : t.built hashToken e = s.built hashToken e := by
    cases e <;> simp [built, hshare]
  cases h with
  | registering hissued hgrant =>
    rw [hnext]
    exact .registering hissued (hgrant.trans hbuilt)
  | sealing hjob htaken => exact .sealing (hjobs ▸ hjob) htaken
  | addingGrant hjob htaken hgrant => exact .addingGrant (hjobs ▸ hjob) htaken hgrant
  | addingCode he hjob hvia hadmitted htaken hnext =>
    exact .addingCode he (hjobs ▸ hjob) hvia hadmitted (fun h1 h2 => htaken h1 (hserving ▸ h2)) hnext
  | addingPair hjob hvia hnext => exact .addingPair (hjobs ▸ hjob) hvia hnext
  | addingRequest hjob hvia hnext => exact .addingRequest (hjobs ▸ hjob) hvia hnext
  | addingShare hjob hvia hnext => exact .addingShare (hjobs ▸ hjob) hvia hnext
  | removing he hjob hpeer => exact .removing he (hjobs ▸ hjob) (hpeers ▸ hpeer)
  | loading hedit hnext => exact .loading hedit hnext
  | writing hjob happly =>
    rw [hpeers] at happly ⊢
    exact .writing (hjobs ▸ hjob) happly
  | listing hpanel => exact .listing fun d hd => ⟨(hpanel d hd).1, hserving ▸ (hpanel d hd).2⟩
  | revokingToken => exact .revokingToken
  | revokingGrant => exact .revokingGrant

section Frames
variable {out : List TrustOutput} {id : Nat}

theorem Quiet.of_set {s' : TrustState} (hjobs : s'.jobs = s.jobs.set id w)
    (h : Arises hashToken s e out id w) (hpeers : s'.peers = s.peers) (hgrants : s'.grants = s.grants)
    (hphase : s'.phase = s.phase) : Quiet hashToken s e (s', out) := by
  refine ⟨?_, hpeers, hgrants, hphase⟩
  unfold JobsFrom
  rw [hjobs]
  exact forall_set (fun _ _ => .inl) (.inr h)

theorem Quiet.of_sub {s' : TrustState} (hjobs : ∀ i w, s'.jobs.get i = some w → s.jobs.get i = some w)
    (hpeers : s'.peers = s.peers) (hgrants : s'.grants = s.grants) (hphase : s'.phase = s.phase) :
    Quiet hashToken s e (s', out) :=
  ⟨fun i w hw => .inl (hjobs i w hw), hpeers, hgrants, hphase⟩

theorem Quiet.same : Quiet hashToken s e (s, out) :=
  .of_sub (fun _ _ h => h) rfl rfl rfl

theorem Quiet.finish : Quiet hashToken s e (s.finish id, out) :=
  .of_sub (forall_delete (fun _ _ h => h) id) rfl rfl rfl

theorem Quiet.goOn {own : Bool} {job : Job} (h : Arises hashToken s e out id ⟨own, job⟩) :
    Quiet hashToken s e (s.goOn id own job, out) :=
  .of_set rfl h rfl rfl rfl

theorem Quiet.begin {own : Bool} {job : Job} (h : Arises hashToken s e out s.next ⟨own, job⟩) :
    Quiet hashToken s e (s.begin own job, out) :=
  .of_set rfl h rfl rfl rfl

theorem Quiet.after {r : TrustStep} (h : Quiet hashToken t e r) (hjobs : t.jobs = s.jobs)
    (hpeers : t.peers = s.peers) (hgrants : t.grants = s.grants) (hphase : t.phase = s.phase)
    (hnext : t.next = s.next) (hshare : t.share = s.share) : Quiet hashToken s e r := by
  refine ⟨?_, h.peers.trans hpeers, h.grants.trans hgrants, h.phase.trans hphase⟩
  intro i w hw
  obtain hold | hnew := h.jobs i w hw
  · exact .inl (hjobs ▸ hold)
  · exact .inr (hnew.mono hjobs hpeers hnext hshare hphase)

end Frames

variable {id now : Nat} {ok own : Bool} {p : Pairing}

/-- The handler behind a registration that the relay took, or that it did not. -/
theorem answered_quiet {handled inTime : Bool} (he : e = .registered id handled inTime now)
    (hjob : s.jobs.get id = some ⟨own, .registering p⟩) {out : List TrustOutput}
    (hok : ok = true → Taken out p) (htaken : handled = true → s.serving = true → 32 ≤ p.token.length → Taken out p) :
    Quiet hashToken s e ((s.answered id own p ok now).1, out ++ (s.answered id own p ok now).2) := by
  unfold answered
  split
  · rename_i agent d grant hvia
    split
    · exact .finish
    · rename_i hyes
      have hyes : ok = true := by simpa using hyes
      simp only [andThen, append_nil]
      refine Quiet.of_set rfl (.addingGrant hjob ?_ (by simp [Pairing.grant, hvia])) rfl rfl rfl
      exact mem_append_left _ (hok hyes)
  · rename_i agent d hvia
    simp only [andThen, append_nil]
    refine Quiet.of_set rfl (.addingCode he hjob hvia ?_ ?_ ?_) rfl rfl rfl
    · refine mem_append_right _ ?_
      simp [admitKeys, Pairing.deviceId, hvia]
    · exact fun h1 h2 h3 => mem_append_left _ (htaken h1 h2 h3)
    · exact fun d hd => by cases hd
  · split
    · exact .finish
    · rename_i hyes
      have hyes : ok = true := by simpa using hyes
      rw [append_nil]
      exact .goOn (.sealing hjob (hok hyes))
  · rename_i hvia
    split
    · exact .finish
    · exact .of_set rfl (.addingPair hjob hvia fun d hd => by cases hd) rfl rfl rfl
  · rename_i grant hvia
    split
    · exact .finish
    · rename_i hyes
      have hyes : ok = true := by simpa using hyes
      rw [append_nil]
      exact .goOn (.addingGrant hjob (hok hyes) (by simp [Pairing.grant, hvia]))

theorem registered_quiet {handled answered : Bool} (he : e = .registered id handled answered now)
    (hjob : s.jobs.get id = some ⟨own, .registering p⟩) :
    Quiet hashToken s e (s.registered id own p handled answered now) := by
  unfold registered
  split
  · rename_i hnone
    have hquiet : Quiet hashToken s e ((s.answered id own p false now).1, [] ++ (s.answered id own p false now).2) := by
      refine answered_quiet he hjob (fun h => by cases h) ?_
      intro hhandled hserving hlength
      simp [hhandled, hserving, pairSession, Nat.not_lt.2 hlength] at hnone
    exact hquiet
  · rename_i sessions _
    have htaken : Taken [TrustOutput.registered p.token p.grant p.deviceId] p := mem_singleton_self _
    let t : TrustState := { s with sessions := sessions }
    have htjob : t.jobs.get id = some ⟨own, .registering p⟩ := hjob
    have hrest : Quiet hashToken t e ((t.answered id own p answered now).1,
        [.registered p.token p.grant p.deviceId] ++ (t.answered id own p answered now).2) :=
      answered_quiet he htjob (fun _ => htaken) fun _ _ _ => htaken
    exact hrest.after (s := s) rfl rfl rfl rfl rfl rfl

theorem sealed_quiet (hjob : s.jobs.get id = some ⟨own, .sealing p⟩) :
    Quiet hashToken s e (s.sealed id own p ok now) := by
  unfold sealed
  split
  · rename_i agent d hvia
    split
    · exact .of_set rfl (.addingRequest hjob hvia fun d hd => by cases hd) rfl rfl rfl
    · exact .finish
  · exact .same

/-- Every job of `t` is one of `s`, or one that any step may bring. -/
def PlainJobs (hashToken : String → String) (s t : TrustState) : Prop :=
  ∀ i w, t.jobs.get i = some w → s.jobs.get i = some w ∨ ∀ s e out, Arises hashToken s e out i w

theorem PlainJobs.finish : PlainJobs hashToken s (s.finish id) :=
  forall_delete (fun _ _ => .inl) id

theorem removeNext_plain (rest : List PeerRecord) : PlainJobs hashToken s (s.removeNext id own rest) := by
  cases rest with
  | nil => exact .finish
  | cons peer rest =>
    exact forall_set (fun _ _ => .inl) (.inr fun s e out => .loading (fun p hp => by cases hp) fun d hd => by cases hd)

theorem removeNext_files (s : TrustState) (id : Nat) (own : Bool) (rest : List PeerRecord) :
    (s.removeNext id own rest).peers = s.peers ∧ (s.removeNext id own rest).grants = s.grants ∧
      (s.removeNext id own rest).phase = s.phase := by
  cases rest with
  | nil | cons _ _ => exact ⟨rfl, rfl, rfl⟩

theorem PlainJobs.quiet {out : List TrustOutput} (h : PlainJobs hashToken s t)
    (hfiles : t.peers = s.peers ∧ t.grants = s.grants ∧ t.phase = s.phase) : Quiet hashToken s e (t, out) :=
  ⟨fun i w hw => (h i w hw).imp_right fun h => h _ _ _, hfiles.1, hfiles.2.1, hfiles.2.2⟩

theorem listed_quiet {who : Remover} (he : e = .reads id) (hjob : s.jobs.get id = some ⟨own, .listing who⟩) :
    Quiet hashToken s e (s.listed id own who) := by
  cases who with
  | panel deviceId =>
    simp only [listed]
    split
    · exact .finish
    · rename_i peer hpeer
      exact .of_set rfl (.removing he hjob hpeer) rfl rfl rfl
  | panelAll => exact (removeNext_plain _).quiet (s.removeNext_files id own _)
  | shell deviceId => exact .goOn (.loading (fun p hp => by cases hp) fun d hd => by cases hd)

variable {wrote : Bool} {next : AfterEdit}

theorem edited_plain : PlainJobs hashToken s (s.edited id own wrote next).1 := by
  cases next with
  | removeAll rest => exact removeNext_plain rest
  | tellServer token =>
    simp only [edited]
    split
    · exact .finish
    · cases wrote with
      | false => exact .finish
      | true => exact forall_set (fun _ _ => .inl) (.inr fun s e out => .revokingToken)
  | _ => exact .finish

theorem edited_files (s : TrustState) (id : Nat) (own wrote : Bool) (next : AfterEdit) :
    (s.edited id own wrote next).1.peers = s.peers ∧ (s.edited id own wrote next).1.grants = s.grants ∧
      (s.edited id own wrote next).1.phase = s.phase := by
  cases next with
  | removeAll rest => exact s.removeNext_files id own rest
  | tellServer token =>
    simp only [edited]
    split
    · exact ⟨rfl, rfl, rfl⟩
    · cases wrote with
      | false | true => exact ⟨rfl, rfl, rfl⟩
  | _ => exact ⟨rfl, rfl, rfl⟩

theorem loads_quiet {edit : PeerEdit} (hjob : s.jobs.get id = some ⟨own, .loading edit next⟩) :
    Quiet hashToken s e (s.loads id own edit next) := by
  unfold loads
  split
  · exact edited_plain.quiet (s.edited_files id own _ next)
  · rename_i written happly
    exact .goOn (.writing hjob happly)

theorem told_quiet {job : Job} : Quiet hashToken s e (s.told id ok job, []) := by
  have hfinish : ∀ sessions : Sessions, Quiet hashToken s e ({ s with sessions := sessions }.finish id, []) :=
    fun sessions => .of_sub (forall_delete (fun _ _ h => h) id) rfl rfl rfl
  unfold told
  split
  · split
    · exact hfinish _
    · exact .finish
  · split
    · exact hfinish _
    · exact .finish
  · exact .same

theorem usesToken_quiet {token : String} : Quiet hashToken s e (s.usesToken token now, []) := by
  unfold usesToken
  dsimp only
  split
  · exact .of_sub (fun _ _ h => h) rfl rfl rfl
  · split
    · exact .of_sub (fun _ _ h => h) rfl rfl rfl
    · exact .of_set rfl (.loading (fun p hp => by cases hp) fun d hd => by cases hd) rfl rfl rfl

theorem pairs_quiet {via : Via} {keys : SessionKeys} {label : String}
    (hissued : e.issues = some (keys.directToken, (Pairing.mk via keys label).deviceId))
    (hgrant : (Pairing.mk via keys label).grant = s.built hashToken e) :
    Quiet hashToken s e (s.pairs own via keys label, []) :=
  .begin (.registering hissued hgrant)

variable (hashToken) in
theorem step_quiet (hmarks : e.marks = false) : Quiet hashToken s e (s.step hashToken e) := by
  have hsame : Quiet hashToken s e (s, []) := .same
  have hloads : ∀ {edit : PeerEdit} {i : Nat} {own : Bool}, (∀ p, edit ≠ .addPeer p) →
      Arises hashToken s e [] i ⟨own, .loading edit .nothing⟩ :=
    fun hedit => .loading hedit fun d hd => by cases hd
  cases e with
  | boots _ _ | restores _ | addsGrant _ _ | writes _ | shellRevokes _ _ | prunes _ _ => cases hmarks
  | tunnelUp agent =>
    simp only [step]
    split
    · exact hsame
    · split
      · exact hsame
      · exact .of_sub (fun _ _ h => h) rfl rfl rfl
  | codePaired agent keys label draw now =>
    simp only [step]
    split
    · exact hsame
    · split
      · exact pairs_quiet rfl rfl
      · exact hsame
  | accessApproved agent keys label now =>
    simp only [step]
    split
    · exact hsame
    · exact pairs_quiet rfl rfl
  | shellPairs _ _ | shellShares _ _ _ _ _ => exact pairs_quiet rfl rfl
  | signedInLocally token label draw now =>
    simp only [step]
    split
    · exact .of_sub (fun _ _ h => h) rfl rfl rfl
    · exact hsame
  | registered id handled answered now =>
    simp only [step]
    split
    · rename_i own p hjob
      exact registered_quiet rfl hjob
    · exact hsame
  | sealed id ok now =>
    simp only [step]
    split
    · rename_i own p hjob
      exact sealed_quiet hjob
    · exact hsame
  | reads id =>
    simp only [step]
    split
    · rename_i own who hjob
      exact listed_quiet rfl hjob
    · rename_i own edit next hjob
      exact loads_quiet hjob
    · exact hsame
  | fails id =>
    simp only [step]
    split
    · exact .finish
    · exact .finish
    · exact .finish
    · exact .finish
    · exact hsame
  | revokes deviceId =>
    simp only [step]
    split
    · rename_i hserving
      exact .begin (.listing fun _ _ => ⟨rfl, hserving⟩)
    · exact hsame
  | removesAll =>
    simp only [step]
    split
    · exact .begin (.listing fun d hd => by cases hd)
    · exact hsame
  | shellRemoves deviceId => exact .begin (.listing fun d hd => by cases hd)
  | renames own deviceId name =>
    simp only [step]
    split
    · exact hsame
    · exact .begin (hloads fun p hp => by cases hp)
  | configures own => exact .begin (hloads fun p hp => by cases hp)
  | told id ok =>
    simp only [step]
    split
    · exact told_quiet
    · exact hsame
  | usesToken token now => exact usesToken_quiet
  | _ =>
    simp only [step]
    split
    · exact .of_sub (fun _ _ h => h) rfl rfl rfl
    · exact hsame

/-- What a step says, where it matters who caused it. -/
inductive Says (s : TrustState) (e : TrustEvent) : TrustOutput → Prop
  | registered {id now : Nat} {own handled inTime : Bool} {p : Pairing}
      (he : e = .registered id handled inTime now)
      (hjob : s.jobs.get id = some ⟨own, .registering p⟩) :
      Says s e (.registered p.token p.grant p.deviceId)
  | signedIn {token draw : String} {label : Option String} {now : Nat}
      (he : e = .signedInLocally token label draw now) :
      Says s e (.registered token none (some ("local-" ++ draw)))
  | restored {token : String} {grant : Option GrantRecord} {now later : Nat} {peers : List PeerRecord} {p : PeerRecord}
      (he : e = .restores later) (hphase : s.phase = .booting peers now) (hp : p ∈ peers)
      (htoken : p.directToken = some token) (hscoped : Scoped (GrantsStore.active s.grants now) p grant) :
      Says s e (.restored token grant p.deviceId)
  | admitted {id now : Nat} {own handled inTime : Bool} {p : Pairing} {d : String}
      (he : e = .registered id handled inTime now)
      (hjob : s.jobs.get id = some ⟨own, .registering p⟩) (hd : p.deviceId = some d) :
      Says s e (.admitted d)
  | sealed {id now : Nat} {own ok : Bool} {p : Pairing} {d : String} (he : e = .sealed id ok now)
      (hjob : s.jobs.get id = some ⟨own, .sealing p⟩) (hd : p.deviceId = some d) :
      Says s e (.admitted d)
  | notShared : Says s e .notShared
  | paired {d : String} : Says s e (.paired d)
  | removed {id : Nat} {own : Bool} {d : String} {loaded written : List PeerRecord} {next : AfterEdit}
      (he : e = .writes id) (hjob : s.jobs.get id = some ⟨own, .writing (.removePeer d) loaded written next⟩) :
      Says s e (.removed d)
  | grantRevoked {id : String} {now : Nat} (he : e = .shellRevokes id now) : Says s e (.grantRevoked id)
  | unknown {id : Nat} {own : Bool} {d : String} (he : e = .reads id)
      (hjob : s.jobs.get id = some ⟨own, .listing (.panel d)⟩)
      (hpeer : s.peers.find? (fun p => p.deviceId = d) = none) : Says s e (.revoked d)
  | gone {id : Nat} {own : Bool} {edit : PeerEdit} {d : String} (he : e = .reads id)
      (hjob : s.jobs.get id = some ⟨own, .loading edit (.revoked d)⟩)
      (happly : edit.apply s.peers = none) : Says s e (.revoked d)
  | dropped {id : Nat} {own : Bool} {edit : PeerEdit} {loaded written : List PeerRecord} {d : String}
      (he : e = .writes id) (hjob : s.jobs.get id = some ⟨own, .writing edit loaded written (.revoked d)⟩) :
      Says s e (.revoked d)

variable {o : TrustOutput}

theorem edited_out (ho : o ∈ (s.edited id own wrote next).2) :
    (∃ d, o = .paired d) ∨ ∃ d, o = .revoked d ∧ next = .revoked d := by
  cases next with
  | nothing => cases ho
  | paired d => exact .inl ⟨d, mem_singleton.1 ho⟩
  | revoked d => exact .inr ⟨d, mem_singleton.1 ho, rfl⟩
  | removeAll rest => cases ho
  | tellServer token =>
    simp only [edited] at ho
    split at ho
    · cases ho
    · cases ho

theorem answered_out (ho : o ∈ (s.answered id own p ok now).2) :
    o = .notShared ∨ ∃ d, p.deviceId = some d ∧ o = .admitted d := by
  have hadmit : ∀ {agent : Nat} {o : TrustOutput}, o ∈ (s.admitKeys agent p).2 ++ [] →
      o = .notShared ∨ ∃ d, p.deviceId = some d ∧ o = .admitted d := by
    intro agent o ho
    rw [append_nil] at ho
    obtain ⟨d, hd, rfl⟩ := mem_map.1 ho
    exact .inr ⟨d, Option.mem_toList.1 hd, rfl⟩
  unfold answered at ho
  split at ho
  · split at ho
    · exact .inl (mem_singleton.1 ho)
    · exact hadmit ho
  · exact hadmit ho
  · split at ho
    · exact .inl (mem_singleton.1 ho)
    · cases ho
  · split at ho
    · exact .inl (mem_singleton.1 ho)
    · cases ho
  · split at ho
    · exact .inl (mem_singleton.1 ho)
    · cases ho

theorem step_says (hashToken : String → String) (ho : o ∈ (s.step hashToken e).2) : Says s e o := by
  cases e with
  | boots share now => cases ho
  | restores later =>
    simp only [step, restores] at ho
    split at ho
    · cases ho
    · rename_i hphase
      obtain ⟨p, hp, token, grant, rfl, htoken, hscoped⟩ := restored_spec ho
      exact .restored rfl hphase hp htoken hscoped
  | tunnelUp agent =>
    simp only [step] at ho
    split at ho
    · cases ho
    · split at ho <;> cases ho
  | codePaired agent keys label draw now =>
    simp only [step] at ho
    split at ho
    · cases ho
    · split at ho <;> cases ho
  | shellPairs _ _ | shellShares _ _ _ _ _ => cases ho
  | signedInLocally token label draw now =>
    simp only [step] at ho
    split at ho
    · rw [mem_singleton.1 ho]
      exact .signedIn rfl
    · cases ho
  | registered id handled answered now =>
    simp only [step] at ho
    split at ho
    · rename_i own p hjob
      have hanswered : ∀ {t : TrustState} {ok : Bool}, o ∈ (t.answered id own p ok now).2 →
          Says s (.registered id handled answered now) o := by
        intro t ok ho
        obtain rfl | ⟨d, hd, rfl⟩ := answered_out ho
        · exact .notShared
        · exact .admitted rfl hjob hd
      unfold TrustState.registered at ho
      split at ho
      · exact hanswered ho
      · obtain ho | ho := mem_append.1 ho
        · rw [mem_singleton.1 ho]
          exact .registered rfl hjob
        · exact hanswered ho
    · cases ho
  | sealed id ok now =>
    simp only [step] at ho
    split at ho
    · rename_i own p hjob
      unfold TrustState.sealed at ho
      split at ho
      · split at ho
        · simp only [andThen, append_nil] at ho
          obtain ⟨d, hd, rfl⟩ := mem_map.1 ho
          exact .sealed rfl hjob (Option.mem_toList.1 hd)
        · cases ho
      · cases ho
    · cases ho
  | reads id =>
    simp only [step] at ho
    split at ho
    · rename_i own who hjob
      cases who with
      | panel d =>
        simp only [listed] at ho
        split at ho
        · rename_i hpeer
          rw [mem_singleton.1 ho]
          exact .unknown rfl hjob hpeer
        · cases ho
      | panelAll | shell _ => cases ho
    · rename_i own edit next hjob
      unfold loads at ho
      split at ho
      · rename_i happly
        obtain ⟨d, rfl⟩ | ⟨d, rfl, rfl⟩ := edited_out ho
        · exact .paired
        · exact .gone rfl hjob happly
      · cases ho
    · cases ho
  | writes id =>
    simp only [step] at ho
    split at ho
    · rename_i own edit loaded written next hjob
      obtain ho | ho := mem_append.1 ho
      · obtain ⟨d, hd, rfl⟩ := mem_map.1 ho
        cases edit with
        | removePeer d' =>
          cases Option.mem_toList.1 hd
          exact .removed rfl hjob
        | _ => cases hd
      · obtain ⟨d, rfl⟩ | ⟨d, rfl, rfl⟩ := edited_out ho
        · exact .paired
        · exact .dropped rfl hjob
    · cases ho
  | shellRemoves _ | configures _ => cases ho
  | shellRevokes grantId now =>
    simp only [step, revokesGrant] at ho
    split at ho
    · cases ho
    · rw [mem_singleton.1 ho]
      exact .grantRevoked rfl
  | prunes _ _ | usesToken _ _ => cases ho
  | _ =>
    simp only [step] at ho
    split at ho <;> cases ho

variable (hashToken) in
theorem writes_spec {edit : PeerEdit} {loaded written : List PeerRecord}
    (hjob : s.jobs.get id = some ⟨own, .writing edit loaded written next⟩) :
    ((s.step hashToken (.writes id)).1.peers = written ∧ (s.step hashToken (.writes id)).1.grants = s.grants ∧
      (s.step hashToken (.writes id)).1.phase = s.phase) ∧ PlainJobs hashToken s (s.step hashToken (.writes id)).1 := by
  let t : TrustState := { s with peers := written }
  have hstep : (s.step hashToken (.writes id)).1 = (t.edited id own true next).1 := by
    simp only [step, hjob]
    rfl
  rw [hstep]
  exact ⟨t.edited_files id own true next, edited_plain (s := t)⟩

variable (hashToken) in
/-- A share is put in its file by the job that made it. -/
theorem addsGrant_spec (s : TrustState) (id now : Nat) : s.step hashToken (.addsGrant id now) = (s, []) ∨ ∃ own p grant,
      s.jobs.get id = some ⟨own, .addingGrant p grant⟩ ∧
      (s.step hashToken (.addsGrant id now)).1.grants = GrantsStore.add s.grants grant ∧
      (s.step hashToken (.addsGrant id now)).1.peers = s.peers ∧
      (s.step hashToken (.addsGrant id now)).1.phase = s.phase ∧
      ∀ i w, (s.step hashToken (.addsGrant id now)).1.jobs.get i = some w →
        i ≠ id ∧ s.jobs.get i = some w ∨ ∃ next, i = id ∧ w = ⟨own, .loading (.addPeer (p.record now)) next⟩ ∧
          ∀ out, Arises hashToken s (.addsGrant id now) out i w := by
  simp only [step]
  split
  · rename_i own p grant hjob
    refine .inr ⟨own, p, grant, hjob, ?_⟩
    unfold addsGrant
    dsimp only
    split
    · refine ⟨rfl, rfl, rfl, ?_⟩
      intro i w hw
      have hget : (s.jobs.delete id).get i = some w := hw
      rw [get_delete] at hget
      split at hget
      · cases hget
      · rename_i hi
        exact .inl ⟨hi, hget⟩
    · rename_i hvia
      refine ⟨rfl, rfl, rfl, ?_⟩
      intro i w hw
      have hget : (s.jobs.set id ⟨own, .loading (.addPeer (p.record now))
          (.paired (p.record now).deviceId)⟩).get i = some w := hw
      rw [get_set] at hget
      split at hget
      · rename_i hi
        cases hget
        rw [hi]
        exact .inr ⟨_, rfl, rfl, fun out => .addingShare hjob hvia fun d hd => by cases hd⟩
      · rename_i hi
        exact .inl ⟨hi, hget⟩
  · exact .inl rfl

variable (hashToken) in
theorem shellRevokes_spec (s : TrustState) (grantId : String) (now : Nat) :
    s.step hashToken (.shellRevokes grantId now) = (s, []) ∨ ∃ grants,
      GrantsStore.revoke s.grants grantId now = some grants ∧
      (s.step hashToken (.shellRevokes grantId now)).1.grants = grants ∧
      (s.step hashToken (.shellRevokes grantId now)).1.peers = s.peers ∧
      (s.step hashToken (.shellRevokes grantId now)).1.phase = s.phase ∧
      ∀ i w, (s.step hashToken (.shellRevokes grantId now)).1.jobs.get i = some w →
        s.jobs.get i = some w ∨ w = ⟨false, .revokingGrant grantId⟩ := by
  simp only [step, revokesGrant]
  split
  · exact .inl rfl
  · rename_i grants hgrants
    exact .inr ⟨grants, hgrants, rfl, rfl, rfl, forall_set (fun _ _ => .inl) (.inr rfl)⟩

end TrustState

section
variable (hashToken : String → String)
include hashToken

theorem TrustState.restores_spec (s : TrustState) (later : Nat) :
    (s.step hashToken (.restores later)).1.peers = s.peers ∧ (s.step hashToken (.restores later)).1.grants = s.grants ∧
      (s.step hashToken (.restores later)).1.jobs = s.jobs ∧ (s.step hashToken (.restores later)).1.phase = .serving := by
  simp only [step, restores]
  split
  · rename_i hphase
    exact ⟨rfl, rfl, rfl, hphase⟩
  · exact ⟨rfl, rfl, rfl, rfl⟩

theorem TrustState.step_jobs (s : TrustState) (e : TrustEvent) :
    TrustState.JobsFrom hashToken s e (s.step hashToken e) := by
  have hidle : s.step hashToken e = (s, []) → TrustState.JobsFrom hashToken s e (s.step hashToken e) := by
    intro h i w hw
    rw [h] at hw
    exact .inl hw
  cases hmarks : e.marks with
  | false => exact (step_quiet hashToken hmarks).jobs
  | true =>
    cases e with
    | boots share now => exact fun i w hw => .inl ((get_filter _ _ _ _).1 hw).1
    | restores later => exact fun i w hw => .inl ((restores_spec hashToken s later).2.2.1 ▸ hw)
    | addsGrant id now =>
      obtain hnone | ⟨own, p, grant, -, -, -, -, hjobs⟩ := addsGrant_spec hashToken s id now
      · exact hidle hnone
      · intro i w hw
        obtain ⟨-, hold⟩ | ⟨next, -, -, hnew⟩ := hjobs i w hw
        · exact .inl hold
        · exact .inr (hnew _)
    | writes id =>
      cases hjob : s.jobs.get id with
      | none => exact hidle (by simp [step, hjob])
      | some work =>
        obtain ⟨own, job⟩ := work
        cases job with
        | writing edit loaded written next =>
          exact fun i w hw => ((writes_spec hashToken hjob).2 i w hw).imp_right fun h => h _ _ _
        | _ => exact hidle (by simp [step, hjob])
    | shellRevokes grantId now =>
      obtain hnone | ⟨grants, -, -, -, -, hjobs⟩ := shellRevokes_spec hashToken s grantId now
      · exact hidle hnone
      · intro i w hw
        obtain hold | rfl := hjobs i w hw
        · exact .inl hold
        · exact .inr .revokingGrant
    | prunes maxAgeMs now => exact fun i w hw => .inl hw
    | _ => cases hmarks

/-- The records in the file change by a write only, and the phase by a start, which reads the records. -/
theorem TrustState.step_file (s : TrustState) (e : TrustEvent) :
    ((s.step hashToken e).1.peers = s.peers ∨ ∃ id own edit loaded next, e = .writes id ∧ s.jobs.get id =
        some ⟨own, .writing edit loaded (s.step hashToken e).1.peers next⟩) ∧
    ((s.step hashToken e).1.phase = s.phase ∨ (s.step hashToken e).1.phase = .serving ∨
      ∃ share now, e = .boots share now ∧ (s.step hashToken e).1.phase = .booting s.peers now) := by
  cases hmarks : e.marks with
  | false => exact ⟨.inl (step_quiet hashToken hmarks).peers, .inl (step_quiet hashToken hmarks).phase⟩
  | true =>
    cases e with
    | boots share now => exact ⟨.inl rfl, .inr (.inr ⟨share, now, rfl, rfl⟩)⟩
    | restores later =>
      obtain ⟨hpeers, -, -, hphase⟩ := restores_spec hashToken s later
      exact ⟨.inl hpeers, .inr (.inl hphase)⟩
    | addsGrant id now =>
      obtain hnone | ⟨own, p, grant, -, -, hpeers, hphase, -⟩ := addsGrant_spec hashToken s id now
      · rw [hnone]
        exact ⟨.inl rfl, .inl rfl⟩
      · exact ⟨.inl hpeers, .inl hphase⟩
    | writes id =>
      cases hjob : s.jobs.get id with
      | none => simp [step, hjob]
      | some work =>
        obtain ⟨own, job⟩ := work
        cases job with
        | writing edit loaded written next =>
          obtain ⟨⟨hpeers, -, hphase⟩, -⟩ := writes_spec hashToken hjob
          refine ⟨.inr ⟨id, own, edit, loaded, next, rfl, ?_⟩, .inl hphase⟩
          rw [hpeers, hjob]
        | _ => simp [step, hjob]
    | shellRevokes grantId now =>
      obtain hnone | ⟨grants, -, -, hpeers, hphase, -⟩ := shellRevokes_spec hashToken s grantId now
      · rw [hnone]
        exact ⟨.inl rfl, .inl rfl⟩
      · exact ⟨.inl hpeers, .inl hphase⟩
    | prunes maxAgeMs now => exact ⟨.inl rfl, .inl rfl⟩
    | _ => cases hmarks

end

end Mtmux.Cli
