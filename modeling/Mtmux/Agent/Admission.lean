import Mtmux.Agent.StreamFlow

/-! Nothing crosses the tunnel on a stream before a key of the ring has authenticated its
first frame and the gate has let it through. -/
namespace Mtmux.Agent.StreamTable
open Crypto Machine History List
variable {cfg : StreamConfig}

abbrev TableEntry : Type := Machine.Entry StreamTable TableEvent TableOut

def frameTo (k : Nat) (x : TableEntry) : List String :=
  match x.event with
  | .streamFrame id data => if x.pre.streams.get id = some k then [data] else []
  | _ => []

/-- The line the relay says on stream `k` in a step. -/
def lineOf (k : Nat) (x : TableEntry) : List String :=
  match x.event with
  | .stream j (.line text) => if j = k ∧ k < x.pre.objects.length then [text] else []
  | _ => []

/-- What went into stream `k` in a run, and what came out. -/
def history (cfg : StreamConfig) (es : List TableEvent) (k : Nat) : History :=
  { History.empty.emit (outOf k ((machine cfg).outputs es)) with
    arrived := ((machine cfg).trace es).flatMap (frameTo k)
    relayed := ((machine cfg).trace es).flatMap (lineOf k) }

/-- An entry that was in the ring at some step. -/
def Known (cfg : StreamConfig) (es : List TableEvent) (entry : KeyringEntry) : Prop :=
  ∃ x ∈ (machine cfg).trace es, entry ∈ x.pre.keyring

def Authenticated (cfg : StreamConfig) (es : List TableEvent) (k : Nat) (entry : KeyringEntry) :
    Prop :=
  ∃ x ∈ (machine cfg).trace es, x.event = .stream k .resume ∧ ∃ s bytes index found rest,
    x.pre.objects[k]? = some s ∧ s.awaiting = .bind bytes index entry ∧
    (history cfg es k).arrived.map base64UrlToBytes = some bytes :: rest ∧
    StreamOpener.bind cfg.P cfg.G entry.keys.c2s .c2s bytes .frame = some found

def Approved (cfg : StreamConfig) (es : List TableEvent) (k : Nat) (entry : KeyringEntry) : Prop :=
  ∃ x ∈ (machine cfg).trace es, x.event = .stream k (.answer (some true)) ∧ ∃ s line,
    x.pre.objects[k]? = some s ∧ s.awaiting = .admitStream entry line

/-- Stream `k` is through the gate. -/
def Admitted (cfg : StreamConfig) (es : List TableEvent) (k : Nat) : Prop :=
  ∃ entry, Known cfg es entry ∧ Authenticated cfg es k entry ∧
    (cfg.admits = true → Approved cfg es k entry)

/-- No entry of the ring is left for the frame in hand, or it is no frame at all. -/
def Unmatched (cfg : StreamConfig) (keyring : List KeyringEntry) (s : Stream) : Prop :=
  (∃ bytes index entry, s.awaiting = .bind bytes index entry ∧ keyring[index + 1]? = none ∧
      StreamOpener.bind cfg.P cfg.G entry.keys.c2s .c2s bytes .frame = none) ∨
    ∃ data chain, s.awaiting = .nothing ∧ s.opener = none ∧
      s.chain = .openFromBroker data :: chain ∧ (base64UrlToBytes data = none ∨ keyring = [])

def Refused (cfg : StreamConfig) (es : List TableEvent) (k : Nat) : Prop :=
  ∃ x ∈ (machine cfg).trace es, ∃ s, x.pre.objects[k]? = some s ∧
    ((x.event = .stream k (.answer (some false)) ∧ ∃ entry line, s.awaiting = .admitStream entry line) ∨
      (x.event = .stream k .resume ∧ Unmatched cfg x.pre.keyring s))

/-- Nothing crosses on a stream that is not admitted yet, and nothing ever on one that is
refused. -/
structure CrossesAdmitted (cfg : StreamConfig) (es : List TableEvent) : Prop where
  admitted : ∀ before e after, es = before ++ e :: after → ∀ k o, o.crosses = true →
    .stream k o ∈ ((machine cfg).step ((machine cfg).run before) e).2 →
    Admitted cfg (before ++ [e]) k
  refused : ∀ k, Refused cfg es k → ∀ o, .stream k o ∈ (machine cfg).outputs es → o.crosses = false

theorem history_snoc (es : List TableEvent) (e : TableEvent) (k : Nat) :
    history cfg (es ++ [e]) k =
      History.emit { history cfg es k with
        arrived := (history cfg es k).arrived ++ frameTo k ((machine cfg).entry ((machine cfg).run es) e)
        relayed := (history cfg es k).relayed ++ lineOf k ((machine cfg).entry ((machine cfg).run es) e) }
        (outOf k ((machine cfg).step ((machine cfg).run es) e).2) := by
  simp [history, trace_snoc, outputs_snoc, outOf_append, History.emit, History.empty]

variable {es : List TableEvent} {e : TableEvent} {k : Nat}

theorem history_idle (hidle : ¬ ((machine cfg).run es).Concerns k e)
    (hout : outOf k ((machine cfg).step ((machine cfg).run es) e).2 = []) :
    history cfg (es ++ [e]) k = history cfg es k := by
  have hframe : frameTo k ((machine cfg).entry ((machine cfg).run es) e) = [] := by
    cases e with
    | streamFrame id data =>
      have hne : ((machine cfg).run es).streams.get id ≠ some k :=
        fun h => hidle (Or.inr ⟨id, data, rfl, h⟩)
      simp [frameTo, Machine.entry, hne]
    | _ => rfl
  have hline : lineOf k ((machine cfg).entry ((machine cfg).run es) e) = [] := by
    cases e with
    | stream j event =>
      cases event with
      | line text =>
        have hne : ¬ (j = k ∧ k < ((machine cfg).run es).objects.length) := by
          rintro ⟨rfl, hlt⟩
          exact hidle (Or.inl ⟨hlt, .line text, rfl⟩)
        simp [lineOf, Machine.entry, hne]
      | _ => rfl
    | _ => rfl
  rw [history_snoc, hframe, hline, hout, append_nil, append_nil, emit_nil]

theorem history_arrived {id data : String} (hid : ((machine cfg).run es).streams.get id = some k)
    (hout : outOf k ((machine cfg).step ((machine cfg).run es) (.streamFrame id data)).2 = []) :
    history cfg (es ++ [.streamFrame id data]) k =
      { history cfg es k with arrived := (history cfg es k).arrived ++ [data] } := by
  have hframe : frameTo k ((machine cfg).entry ((machine cfg).run es) (.streamFrame id data)) =
      [data] := by
    simp [frameTo, Machine.entry, hid]
  have hline : lineOf k ((machine cfg).entry ((machine cfg).run es) (.streamFrame id data)) = [] :=
    rfl
  rw [history_snoc, hframe, hline, hout, append_nil, emit_nil]

variable {event : StreamEvent} {s : Stream}

theorem history_turn {out : List StreamOut} (hs : ((machine cfg).run es).objects[k]? = some s)
    (hout : outOf k ((machine cfg).step ((machine cfg).run es) (.stream k event)).2 = out) :
    history cfg (es ++ [.stream k event]) k = ((history cfg es k).hear event).emit out := by
  have hlt := (List.getElem?_eq_some_iff.1 hs).1
  have hframe : frameTo k ((machine cfg).entry ((machine cfg).run es) (.stream k event)) = [] := rfl
  rw [history_snoc, hframe, hout, append_nil]
  cases event with
  | line text =>
    have hline : lineOf k ((machine cfg).entry ((machine cfg).run es) (.stream k (.line text))) =
        [text] := by
      simp [lineOf, Machine.entry, hlt]
    rw [hline]
    rfl
  | _ => simp [lineOf, Machine.entry, History.hear]

theorem mem_trace_snoc : (machine cfg).entry ((machine cfg).run es) e ∈ (machine cfg).trace (es ++ [e]) := by
  rw [trace_snoc]
  exact mem_append_right _ (mem_singleton_self _)

theorem mem_trace_init {x : TableEntry} (h : x ∈ (machine cfg).trace es) : x ∈ (machine cfg).trace (es ++ [e]) := by
  rw [trace_snoc]
  exact mem_append_left _ h

variable {entry : KeyringEntry}

theorem Known.snoc (h : Known cfg es entry) (e : TableEvent) : Known cfg (es ++ [e]) entry := by
  obtain ⟨x, hx, hmem⟩ := h
  exact ⟨x, mem_trace_init hx, hmem⟩

theorem Authenticated.snoc
    (h : Authenticated cfg es k entry) (e : TableEvent) : Authenticated cfg (es ++ [e]) k entry := by
  obtain ⟨x, hx, he, s, bytes, index, found, rest, hs, hawait, hfirst, hbind⟩ := h
  have harr : (history cfg (es ++ [e]) k).arrived = (history cfg es k).arrived ++
      frameTo k ((machine cfg).entry ((machine cfg).run es) e) := by
    rw [history_snoc]
    rfl
  have hfirst' : (history cfg (es ++ [e]) k).arrived.map base64UrlToBytes = some bytes :: (rest ++
      (frameTo k ((machine cfg).entry ((machine cfg).run es) e)).map base64UrlToBytes) := by
    rw [harr, map_append, hfirst, cons_append]
  exact ⟨x, mem_trace_init hx, he, s, bytes, index, found, _, hs, hawait, hfirst', hbind⟩

theorem Approved.snoc (h : Approved cfg es k entry) (e : TableEvent) : Approved cfg (es ++ [e]) k entry := by
  obtain ⟨x, hx, he, s, line, hs, hawait⟩ := h
  exact ⟨x, mem_trace_init hx, he, s, line, hs, hawait⟩

/-- What the run shows for the stage a stream is in. -/
def Evidence (cfg : StreamConfig) (es : List TableEvent) (k : Nat) (s : Stream) : Stage → Prop
  | .unbound => ∀ bytes index entry, s.awaiting = .bind bytes index entry → Known cfg es entry
  | .gated entry => Known cfg es entry ∧ Authenticated cfg es k entry
  | .doomed => True
  | .passed entry => Known cfg es entry ∧ Authenticated cfg es k entry ∧
      (cfg.admits = true → Approved cfg es k entry)

variable {stage : Stage}

theorem Evidence.snoc {s' : Stream}
    (h : Evidence cfg es k s stage) (e : TableEvent) (hawait : s'.awaiting = s.awaiting) :
    Evidence cfg (es ++ [e]) k s' stage := by
  cases stage with
  | unbound =>
    intro bytes index entry hbind
    exact Known.snoc (h bytes index entry (hawait ▸ hbind)) e
  | gated entry => exact ⟨Known.snoc h.1 e, Authenticated.snoc h.2 e⟩
  | doomed => trivial
  | passed entry =>
    exact ⟨Known.snoc h.1 e, Authenticated.snoc h.2.1 e, fun hg => Approved.snoc (h.2.2 hg) e⟩

variable {keyring : List KeyringEntry}

theorem bind_from_ring {salt : Bytes} {bytes : Bytes} {index : Nat}
    (h : (s.turn cfg keyring salt event).stream.awaiting = .bind bytes index entry) :
    s.awaiting = .bind bytes index entry ∨ entry ∈ keyring := by
  have hturns := @Stream.turn_turns cfg keyring s salt event
  generalize s.turn cfg keyring salt event = turn at h hturns
  cases hturns with
  | same | line | opens | hangs => exact Or.inl h
  | tries _ _ _ ring =>
    cases h
    exact Or.inr ring
  | ends | asks | writes => cases h
  | rests _ _ _ late | passes _ _ _ _ late | admits _ _ late | sends _ late =>
    dsimp only at h
    rw [h] at late
    exact late.elim

theorem Evidence.turn {stage' : Stage} (hs : ((machine cfg).run es).objects[k]? = some s)
    (hflow : Flow cfg k (history cfg es k) s stage) (h : Evidence cfg es k s stage)
    (hadv : Advance cfg s event stage stage') : Evidence cfg (es ++ [.stream k event]) k
      (s.turn cfg ((machine cfg).run es).keyring (cfg.salt k) event).stream stage' := by
  have hauth : ∀ {bytes index entry found}, event = .resume →
      s.awaiting = .bind bytes index entry → stage = .unbound →
      StreamOpener.bind cfg.P cfg.G entry.keys.c2s .c2s bytes .frame = some found →
      Authenticated cfg (es ++ [.stream k event]) k entry := by
    rintro bytes index entry found rfl htry rfl hbind
    have hin := hflow.inflow
    rw [htry] at hin
    have harr : (history cfg (es ++ [.stream k .resume]) k).arrived = (history cfg es k).arrived := by
      rw [history_turn hs rfl]
      rfl
    exact ⟨_, mem_trace_snoc, rfl, s, bytes, index, found, _, hs, htry, by rw [harr]; exact hin, hbind⟩
  cases hadv with
  | stay =>
    cases stage with
    | unbound =>
      intro bytes index entry hbind
      rcases bind_from_ring hbind with hbefore | hring
      · exact Known.snoc (h bytes index entry hbefore) _
      · exact ⟨_, mem_trace_snoc, hring⟩
    | gated entry => exact ⟨Known.snoc h.1 _, Authenticated.snoc h.2 _⟩
    | doomed => trivial
    | passed entry =>
      exact ⟨Known.snoc h.1 _, Authenticated.snoc h.2.1 _, fun hg => Approved.snoc (h.2.2 hg) _⟩
  | ask htry hbind hgate => exact ⟨Known.snoc (h _ _ _ htry) _, hauth rfl htry rfl hbind⟩
  | pass htry hbind hgate =>
    refine ⟨Known.snoc (h _ _ _ htry) _, hauth rfl htry rfl hbind, fun hg => ?_⟩
    rw [hgate] at hg
    cases hg
  | admitStream hask =>
    exact ⟨Known.snoc h.1 _, Authenticated.snoc h.2 _,
      fun _ => ⟨_, mem_trace_snoc, rfl, s, _, hs, hask⟩⟩
  | fail => trivial

theorem run_flow (hes : OpensOnce cfg es) (k : Nat) :
    (((machine cfg).run es).objects[k]? = none → history cfg es k = History.empty) ∧
    ∀ s, ((machine cfg).run es).objects[k]? = some s → s.closed = false →
      ∃ stage, Flow cfg k (history cfg es k) s stage ∧ Evidence cfg es k s stage := by
  induction es using List.reverseRecOn with
  | nil => exact ⟨fun _ => rfl, fun s hs => by cases hs⟩
  | append_singleton es e ih =>
    obtain ⟨hinit, hnew⟩ := hes.init
    obtain ⟨ihnone, ihsome⟩ := ih hinit
    have hwired := run_wired hinit
    have heff := @step_effect cfg _ (run_mapped cfg es) e k
    have hrun : (machine cfg).run (es ++ [e]) = (((machine cfg).run es).step cfg e).1 :=
      run_snoc _ _ _
    rw [hrun]
    generalize hobj : (((machine cfg).run es).step cfg e).1.objects[k]? = obj at heff ⊢
    generalize hout : outOf k (((machine cfg).run es).step cfg e).2 = out at heff
    cases heff with
    | kept hidle =>
      rw [history_idle hidle hout]
      refine ⟨ihnone, fun s hs hopen => ?_⟩
      obtain ⟨stage, hflow, hev⟩ := ihsome s hs hopen
      exact ⟨stage, hflow, hev.snoc e rfl⟩
    | closed hidle was =>
      refine ⟨fun h => (by cases h), fun s hs hopen => ?_⟩
      cases hs
      cases hopen
    | @created id hk =>
      have hidle : ¬ ((machine cfg).run es).Concerns k (.streamOpen id) := by simp [Concerns]
      refine ⟨fun h => (by cases h), fun s hs hopen => ?_⟩
      cases hs
      rw [history_idle hidle hout, ihnone (List.getElem?_eq_none (by omega))]
      refine ⟨.unbound, flow_create _, ?_⟩
      intro bytes index entry hbind
      cases hbind
    | arrived hid was isOpen =>
      refine ⟨fun h => (by cases h), fun s hs hopen => ?_⟩
      cases hs
      obtain ⟨stage, hflow, hev⟩ := ihsome _ was isOpen
      rw [history_arrived hid hout]
      exact ⟨stage, hflow.arrive _, hev.snoc _ rfl⟩
    | ran was stays =>
      refine ⟨fun h => (by cases h), fun s' hs' hopen => ?_⟩
      cases hs'
      rw [(Stream.keeps_turn _ _ _).closed] at hopen
      have hdrop := stays (hwired k _ was hopen)
      obtain ⟨stage, hflow, hev⟩ := ihsome _ was hopen
      obtain ⟨stage', hflow', hadv⟩ := hflow.turn hopen _ hdrop
      rw [history_turn was hout]
      exact ⟨stage', hflow', hev.turn was hflow hadv⟩
    | ended was registered drops =>
      refine ⟨fun h => (by cases h), fun s' hs' hopen => ?_⟩
      cases hs'
      cases hopen

theorem OpensOnce.take {before after : List TableEvent} (h : OpensOnce cfg es)
    (hes : es = before ++ after) : OpensOnce cfg before :=
  forall_trace_before h hes

variable {h : History}

theorem silent_emit {out : List StreamOut} : (h.emit out).Silent ↔ h.Silent ∧ ∀ o ∈ out, o.speaks = false := by
  constructor
  · rintro ⟨hwrote, hsent, hbound⟩
    obtain ⟨hw, hlines⟩ := append_eq_nil_iff.1 hwrote
    obtain ⟨hs, hframes⟩ := append_eq_nil_iff.1 hsent
    obtain ⟨hb, hpeers⟩ := append_eq_nil_iff.1 hbound
    refine ⟨⟨hw, hs, hb⟩, fun o ho => ?_⟩
    cases o with
    | localSend line => exact absurd (filterMap_eq_nil_iff.1 hlines _ ho) (by simp)
    | frame id data => exact absurd (filterMap_eq_nil_iff.1 hframes _ ho) (by simp)
    | admitStream peer => rfl
    | streamBound peer => exact absurd (filterMap_eq_nil_iff.1 hpeers _ ho) (by simp)
  · rintro ⟨⟨hw, hs, hb⟩, hout⟩
    have hask : ∀ o ∈ out, ∃ peer, o = .admitStream peer := by
      intro o ho
      have hquiet := hout o ho
      cases o with
      | admitStream peer => exact ⟨peer, rfl⟩
      | _ => cases hquiet
    refine ⟨append_eq_nil_iff.2 ⟨hw, ?_⟩, append_eq_nil_iff.2 ⟨hs, ?_⟩,
      append_eq_nil_iff.2 ⟨hb, ?_⟩⟩ <;>
    · refine filterMap_eq_nil_iff.2 fun o ho => ?_
      obtain ⟨peer, rfl⟩ := hask o ho
      rfl

theorem silent_hear : (h.hear event).Silent ↔ h.Silent := by
  cases event <;> exact Iff.rfl

theorem silent_or_passed (hf : Flow cfg k h s stage) : h.Silent ∨ ∃ entry, stage = .passed entry := by
  cases stage with
  | passed entry => exact Or.inr ⟨entry, rfl⟩
  | _ => exact Or.inl hf.silent

/-- A step that writes on stream `k` leaves it open and past the gate. -/
theorem passed_of_speaking (hes : OpensOnce cfg (es ++ [e]))
    {o : StreamOut} (ho : o ∈ outOf k ((machine cfg).step ((machine cfg).run es) e).2) (hspeaks : o.speaks = true) :
    ∃ s entry, ((machine cfg).run (es ++ [e])).objects[k]? = some s ∧ s.closed = false ∧
      Passed cfg k entry (history cfg (es ++ [e]) k) s ∧ Evidence cfg (es ++ [e]) k s (.passed entry) := by
  have hopen : ∃ s, ((machine cfg).run (es ++ [e])).objects[k]? = some s ∧ s.closed = false := by
    have heff := @step_effect cfg _ (run_mapped cfg es) e k
    rw [run_snoc]
    have ho' : o ∈ outOf k (((machine cfg).run es).step cfg e).2 := ho
    have hgoal : ∃ s, (((machine cfg).run es).step cfg e).1.objects[k]? = some s ∧
        s.closed = false := by
      generalize (((machine cfg).run es).step cfg e).1.objects[k]? = obj at heff ⊢
      generalize outOf k (((machine cfg).run es).step cfg e).2 = out at heff ho'
      cases heff with
      | kept | closed | created | arrived => cases ho'
      | @ran event s was stays =>
        refine ⟨_, rfl, ?_⟩
        rw [(Stream.keeps_turn s _ event).closed]
        by_contra hclosed
        rw [Stream.out_turn_closed (by simpa using hclosed)] at ho'
        cases ho'
      | ended was registered drops =>
        rw [Stream.out_turn_dropped drops] at ho'
        cases ho'
    exact hgoal
  obtain ⟨s, hs, hclosed⟩ := hopen
  obtain ⟨stage, hflow, hev⟩ := (run_flow hes k).2 s hs hclosed
  rcases silent_or_passed hflow with hsilent | ⟨entry, rfl⟩
  · rw [history_snoc] at hsilent
    rw [(silent_emit.1 hsilent).2 o ho] at hspeaks
    cases hspeaks
  · exact ⟨s, entry, hs, hclosed, hflow, hev⟩

/-- Bound, and neither in trial decryption nor at the gate. -/
def Through (s : Stream) : Prop := s.opener ≠ none ∧ s.awaiting.Late

theorem through_of_passed (hp : Passed cfg k entry h s) : Through s := by
  obtain ⟨accepted, done, restIn, restOut, hc, -⟩ := hp.flow
  obtain ⟨opener, ho⟩ := hc.bound
  exact ⟨by rw [ho]; simp, hp.late⟩

theorem through_turn (h : Through s) {salt : Bytes}
    (event : StreamEvent) : Through (s.turn cfg keyring salt event).stream := by
  obtain ⟨ho, hlate⟩ := h
  have hturns := @Stream.turn_turns cfg keyring s salt event
  generalize s.turn cfg keyring salt event = turn at hturns ⊢
  cases hturns with
  | same | line | opens | hangs => exact ⟨ho, hlate⟩
  | ends => exact ⟨ho, trivial⟩
  | tries _ _ _ _ early =>
    rcases early with hnone | ⟨_, _, _, hawait⟩
    · exact absurd hnone ho
    · rw [hawait] at hlate
      exact hlate.elim
  | rests _ _ _ late bound => exact ⟨bound ho, late⟩
  | asks _ _ _ hawait | passes _ _ hawait | admits _ hawait =>
    rw [hawait] at hlate
    exact hlate.elim
  | sends _ late => exact ⟨ho, late⟩
  | writes => exact ⟨by simp, trivial⟩

/-- A stream has said nothing until it is through, also when it is closed by then. -/
theorem silent_or_through (hes : OpensOnce cfg es) (hs : ((machine cfg).run es).objects[k]? = some s) :
    (history cfg es k).Silent ∨ Through s := by
  induction es using List.reverseRecOn generalizing s with
  | nil => cases hs
  | append_singleton es e ih =>
    obtain ⟨hinit, -⟩ := hes.init
    by_cases hspeaks : ∃ o ∈ outOf k ((machine cfg).step ((machine cfg).run es) e).2,
        o.speaks = true
    · obtain ⟨o, ho, hspeaks⟩ := hspeaks
      obtain ⟨s', entry, hs', -, hp, -⟩ := passed_of_speaking hes ho hspeaks
      rw [hs] at hs'
      cases hs'
      exact Or.inr (through_of_passed hp)
    · have hquiet : ∀ o ∈ outOf k ((machine cfg).step ((machine cfg).run es) e).2,
          o.speaks = false := by
        intro o ho
        by_contra hc
        exact hspeaks ⟨o, ho, by simpa using hc⟩
      have hkeep : (history cfg es k).Silent → (history cfg (es ++ [e]) k).Silent := by
        intro h
        rw [history_snoc]
        exact silent_emit.2 ⟨h, hquiet⟩
      have heff := @step_effect cfg _ (run_mapped cfg es) e k
      have hs' : (((machine cfg).run es).step cfg e).1.objects[k]? = some s := by
        rw [← hs, run_snoc]
        rfl
      generalize (((machine cfg).run es).step cfg e).1.objects[k]? = obj at heff hs'
      generalize outOf k (((machine cfg).run es).step cfg e).2 = out at heff
      cases heff with
      | kept hidle => exact (ih hinit hs').imp_left hkeep
      | closed hidle was =>
        cases hs'
        exact (ih hinit was).imp_left hkeep
      | created hk =>
        refine Or.inl (hkeep ?_)
        rw [(run_flow hinit k).1 (List.getElem?_eq_none (by omega))]
        exact ⟨rfl, rfl, rfl⟩
      | arrived hid was isOpen =>
        cases hs'
        exact (ih hinit was).imp_left hkeep
      | ran was stays =>
        cases hs'
        exact (ih hinit was).imp hkeep fun h => through_turn h _
      | ended was registered drops =>
        cases hs'
        exact (ih hinit was).imp hkeep fun h => through_turn h _

theorem closed_snoc (e : TableEvent) (hs : ((machine cfg).run es).objects[k]? = some s) (hclosed : s.closed = true) :
    (∃ s', ((machine cfg).run (es ++ [e])).objects[k]? = some s' ∧ s'.closed = true) ∧
      outOf k ((machine cfg).step ((machine cfg).run es) e).2 = [] := by
  have heff := @step_effect cfg _ (run_mapped cfg es) e k
  have hgoal : (∃ s', (((machine cfg).run es).step cfg e).1.objects[k]? = some s' ∧
      s'.closed = true) ∧ outOf k (((machine cfg).run es).step cfg e).2 = [] := by
    generalize (((machine cfg).run es).step cfg e).1.objects[k]? = obj at heff ⊢
    generalize outOf k (((machine cfg).run es).step cfg e).2 = out at heff ⊢
    cases heff with
    | kept => exact ⟨⟨s, hs, hclosed⟩, rfl⟩
    | closed => exact ⟨⟨_, rfl, rfl⟩, rfl⟩
    | created hk =>
      have hlt := (List.getElem?_eq_some_iff.1 hs).1
      omega
    | arrived hid was isOpen =>
      rw [hs] at was
      cases was
      rw [hclosed] at isOpen
      cases isOpen
    | ran was =>
      rw [hs] at was
      cases was
      exact ⟨⟨_, rfl, by rw [(Stream.keeps_turn _ _ _).closed, hclosed]⟩,
        Stream.out_turn_closed hclosed _ _⟩
    | ended was registered drops => exact ⟨⟨_, rfl, rfl⟩, Stream.out_turn_dropped drops⟩
  rw [run_snoc]
  exact hgoal

theorem refusal_closes (hes : OpensOnce cfg (es ++ [e])) (hs : ((machine cfg).run es).objects[k]? = some s)
    (h : (e = .stream k (.answer (some false)) ∧ ∃ entry line, s.awaiting = .admitStream entry line) ∨
      (e = .stream k .resume ∧ Unmatched cfg ((machine cfg).run es).keyring s)) : (history cfg (es ++ [e]) k).Silent ∧
      ∃ s', ((machine cfg).run (es ++ [e])).objects[k]? = some s' ∧ s'.closed = true := by
  obtain ⟨hinit, -⟩ := hes.init
  have hbefore : ¬ Through s := by
    rintro ⟨ho, hlate⟩
    rcases h with ⟨-, entry, line, hawait⟩ | ⟨-, ⟨bytes, index, entry, hawait, -⟩ | ⟨-, -, -, hnone, -⟩⟩
    · rw [hawait] at hlate
      exact hlate
    · rw [hawait] at hlate
      exact hlate
    · exact ho hnone
  have hsilent := (silent_or_through hinit hs).resolve_right hbefore
  have hturn : ∃ event, e = .stream k event ∧ (s.closed = false →
      ∃ reason, (s.turn cfg ((machine cfg).run es).keyring (cfg.salt k) event).drop = some reason) := by
    rcases h with ⟨rfl, entry, line, hawait⟩ | ⟨rfl, hun⟩
    · refine ⟨_, rfl, fun hopen => ⟨"not approved", ?_⟩⟩
      simp [Stream.turn, Stream.answered, hawait, hopen]
    · refine ⟨_, rfl, fun _ => ?_⟩
      rcases hun with ⟨bytes, index, entry, hawait, hring, hbind⟩ |
        ⟨data, chain, hawait, hnone, hchain, hb | hring⟩
      · exact ⟨"no matching pairing", by
          simp [Stream.turn, Stream.resume, hawait, hbind, Stream.tryEntry, hring]⟩
      · exact ⟨"malformed frame", by
          simp [Stream.turn, Stream.resume, hawait, hchain, Stream.openFromBroker, hb]⟩
      · cases hb : base64UrlToBytes data with
        | none =>
          exact ⟨"malformed frame", by
            simp [Stream.turn, Stream.resume, hawait, hchain, Stream.openFromBroker, hb]⟩
        | some bytes =>
          exact ⟨"no matching pairing", by
            simp [Stream.turn, Stream.resume, hawait, hchain, Stream.openFromBroker, hb, hnone,
              Stream.tryEntry, hring]⟩
  obtain ⟨event, rfl, hdrop⟩ := hturn
  by_cases hclosed : s.closed = true
  · obtain ⟨hstill, hout⟩ := closed_snoc (.stream k event) hs hclosed
    refine ⟨?_, hstill⟩
    rw [history_turn hs hout, emit_nil]
    exact silent_hear.2 hsilent
  · have hopen : s.closed = false := by simpa using hclosed
    obtain ⟨reason, hreason⟩ := hdrop hopen
    have hreg := run_wired hinit k s hs hopen
    have hnew := drive_ended (run_mapped cfg es) hs event hreg hreason
    have hstep : (machine cfg).step ((machine cfg).run es) (.stream k event) =
        ((machine cfg).run es).drive k (s.turn cfg ((machine cfg).run es).keyring (cfg.salt k) event) := by
      have hdef : (machine cfg).step ((machine cfg).run es) (.stream k event) =
          ((machine cfg).run es).step cfg (.stream k event) := rfl
      rw [hdef, step, hs]
    refine ⟨?_, ?_⟩
    · rw [history_turn hs rfl, hstep, hnew.2, emit_nil]
      exact silent_hear.2 hsilent
    · rw [run_snoc, hstep, hnew.1]
      exact ⟨_, rfl, rfl⟩

theorem refused_silent (hes : OpensOnce cfg es) (h : Refused cfg es k) : (history cfg es k).Silent ∧
      ∃ s, ((machine cfg).run es).objects[k]? = some s ∧ s.closed = true := by
  induction es using List.reverseRecOn with
  | nil =>
    obtain ⟨x, hx, -⟩ := h
    cases hx
  | append_singleton es e ih =>
    obtain ⟨x, hx, s, hs, hrefused⟩ := h
    rw [trace_snoc, mem_append, mem_singleton] at hx
    rcases hx with hx | rfl
    · obtain ⟨hsilent, s', hs', hclosed⟩ := ih hes.init.1 ⟨x, hx, s, hs, hrefused⟩
      obtain ⟨hstill, hout⟩ := closed_snoc e hs' hclosed
      refine ⟨?_, hstill⟩
      rw [history_snoc, hout, emit_nil]
      exact hsilent
    · exact refusal_closes hes hs hrefused

/-- In a run that opens no id twice at a time nothing crosses before admission, and nothing
ever after a refusal. -/
theorem crosses_admitted (cfg : StreamConfig) (es : List TableEvent) (h : OpensOnce cfg es) :
    CrossesAdmitted cfg es := by
  constructor
  · intro before e after hes k o hcross ho
    have hpre : OpensOnce cfg (before ++ [e]) := h.take (by simpa using hes)
    obtain ⟨s, entry, -, -, -, hev⟩ :=
      passed_of_speaking hpre (mem_outOf.2 ho) (StreamOut.speaks_of_crosses hcross)
    exact ⟨entry, hev⟩
  · intro k hrefused o ho
    have hsilent : (History.empty.emit (outOf k ((machine cfg).outputs es))).Silent :=
      (refused_silent h hrefused).1
    have hquiet := (silent_emit.1 hsilent).2 o (mem_outOf.2 ho)
    by_contra hcross
    rw [StreamOut.speaks_of_crosses (by simpa using hcross)] at hquiet
    cases hquiet

/-- A cipher that is no secret: the tag repeats the key's first byte. -/
def plainGcm : Gcm where
  encrypt key _ data := data ++ List.replicate tagBytes (key.headD 0)
  decrypt key _ data :=
    if data.drop (data.length - tagBytes) = List.replicate tagBytes (key.headD 0) then
      some (data.take (data.length - tagBytes))
    else none

def sample : StreamConfig where
  P := ⟨id, id, fun key _ => key, fun ikm _ _ _ => ikm, id, fun _ _ => none⟩
  G := plainGcm
  decode bytes := String.ofList (bytes.map fun b => Char.ofNat b.toNat)
  salt _ := List.replicate subkeySaltBytes 7
  admits := true

def sampleKeys : SessionKeys := ⟨List.replicate 32 1, List.replicate 32 2, [], ""⟩

def samplePeer : PeerIdentity := ⟨"d", "phone", false⟩

def sampleBytes (counter : Nat) (byte : UInt8) : Bytes :=
  FrameSealer.frameAt plainGcm ⟨List.replicate 32 1, .c2s, List.replicate subkeySaltBytes 9, 0⟩
    counter [byte]

def sampleFrame (counter : Nat) (byte : UInt8) : String :=
  bytesToBase64Url (sampleBytes counter byte)

/-- Device `d` opens stream `a`, sends two frames, and the gate is asked. -/
def asking : List TableEvent :=
  [.addSessionKeys sampleKeys (some samplePeer), .streamOpen "a",
    .streamFrame "a" (sampleFrame 0 104), .streamFrame "a" (sampleFrame 1 105),
    .stream 0 .localOpen, .stream 0 .resume, .stream 0 .resume]

theorem crosses_admitted_asking : CrossesAdmitted sample (asking ++ [.stream 0 (.answer (some true))]) :=
  crosses_admitted sample _ (by decide +kernel)

/-- The id is opened again before the gate says no: the refusal closes the second stream,
and the first goes on with its next frame. -/
def refusedTwice : List TableEvent :=
  asking ++ [.streamOpen "a", .stream 0 (.answer (some false)), .stream 0 .resume,
    .stream 0 .resume]

theorem refused_stream_crosses : ¬ CrossesAdmitted sample refusedTwice := by
  intro h
  have hmem := ((machine sample).mem_trace refusedTwice _).2
    ⟨asking ++ [.streamOpen "a"], .stream 0 (.answer (some false)),
      [.stream 0 .resume, .stream 0 .resume], rfl, rfl⟩
  have hasked : (((machine sample).run (asking ++ [.streamOpen "a"])).objects[0]?.map
      (·.awaiting)) = some (.admitStream ⟨sampleKeys, some samplePeer⟩ "h") := by decide +kernel
  obtain ⟨s, hs, hawait⟩ := Option.map_eq_some_iff.1 hasked
  have hwritten : TableOut.stream 0 (.localSend "i") ∈ (machine sample).outputs refusedTwice := by
    decide +kernel
  have hquiet := h.refused 0 ⟨_, hmem, s, hs, Or.inl ⟨rfl, _, _, hawait⟩⟩ _ hwritten
  cases hquiet

end Mtmux.Agent.StreamTable
