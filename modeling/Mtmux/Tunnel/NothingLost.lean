import Mtmux.Tunnel.ClosedStream

/-! A close over the tunnel that waits for the lines before it loses none of them. -/
namespace Mtmux.Tunnel
open Crypto Protocol Agent Browser Machine StreamTable List
variable {cfg : TunnelConfig}

theorem run_table (es : List TunnelEvent) : ((machine cfg).run es).table =
    (StreamTable.machine cfg.agent).run (agentEvents es) := by
  induction es using List.reverseRecOn with
  | nil => rfl
  | append_singleton es e ih =>
    have hevents : agentEvents (es ++ [e]) = agentEvents es ++ agentEvents [e] := filterMap_append
    rw [run_snoc, hevents]
    have hkept : ∀ e : TunnelEvent, (∀ event, e ≠ .agent event) →
        (((machine cfg).run es).step cfg e).1.table = ((machine cfg).run es).table := by
      intro e hother
      cases e with
      | agent event => exact absurd rfl (hother event)
      | forwards =>
        simp only [TunnelState.step, TunnelState.forward]
        split
        · rfl
        · split
          · rfl
          · rfl
      | _ => rfl
    by_cases hagent : ∃ event, e = .agent event
    · obtain ⟨event, rfl⟩ := hagent
      have hone : agentEvents [.agent event] = [event] := rfl
      rw [hone, run_snoc, ← ih]
      rfl
    · have hother : ∀ event, e ≠ .agent event := fun event he => hagent ⟨event, he⟩
      have hnone : agentEvents [e] = [] := by
        cases e with
        | agent event => exact absurd rfl (hother event)
        | _ => rfl
      rw [hnone, append_nil, ← ih]
      exact hkept e hother

structure Follows (cfg : TunnelConfig) (es : List TunnelEvent) (bs : List TransportEvent) : Prop where
  browser : ((machine cfg).run es).browser = (transportMachine cfg.browser true).run bs
  outputs : browserOutputs cfg es = transportOutputs cfg.browser true bs
  heard : receivedOf bs ++ ((machine cfg).run es).pipe =
    StreamTable.posted cfg.agent cfg.streamId (agentEvents es)
  patient : (∀ x ∈ (machine cfg).trace es, Unhurried cfg x.pre x.event) →
    ∀ x ∈ (transportMachine cfg.browser true).trace bs, Patient x.pre x.event

theorem browserOutputs_snoc (es : List TunnelEvent) (e : TunnelEvent) :
    browserOutputs cfg (es ++ [e]) = browserOutputs cfg es ++
      (((machine cfg).run es).step cfg e).2.filterMap fun | .browser out => some out | _ => none := by
  unfold browserOutputs
  rw [outputs_snoc, filterMap_append]
  rfl

theorem filterMap_browser (out : List TransportOutput) :
    (out.map TunnelOut.browser).filterMap (fun | .browser out => some out | _ => none) = out := by
  induction out with
  | nil => rfl
  | cons o out ih => simp

theorem Follows.turn {es : List TunnelEvent} {bs : List TransportEvent} (h : Follows cfg es bs)
    {e : TunnelEvent} {b : TransportEvent} {pipe : List TunnelServerMessage}
    (hstep : ((machine cfg).run es).step cfg e =
      TunnelState.turn cfg { (machine cfg).run es with pipe := pipe } b)
    (hagent : agentEvents [e] = []) (hpipe : receivedOf [b] ++ pipe = ((machine cfg).run es).pipe)
    (hpatient : Unhurried cfg ((machine cfg).run es) e → Patient ((machine cfg).run es).browser b) :
    Follows cfg (es ++ [e]) (bs ++ [b]) := by
  have hevents : agentEvents (es ++ [e]) = agentEvents es := by
    have hsnoc : agentEvents (es ++ [e]) = agentEvents es ++ agentEvents [e] := filterMap_append
    rw [hsnoc, hagent, append_nil]
  have hrun : (machine cfg).run (es ++ [e]) = (((machine cfg).run es).step cfg e).1 :=
    run_snoc _ _ _
  refine ⟨?_, ?_, ?_, ?_⟩
  · rw [hrun, hstep, run_snoc, ← h.browser]
    rfl
  · rw [browserOutputs_snoc, hstep, h.outputs, transportOutputs_snoc, ← h.browser]
    simp only [TunnelState.turn, filterMap_browser]
  · rw [hrun, hstep, hevents, receivedOf_snoc, ← h.heard, ← hpipe, append_assoc]
    rfl
  · intro hall x hx
    obtain ⟨hpast, hnow⟩ := forall_trace_snoc hall
    rw [trace_snoc] at hx
    cases mem_append.1 hx with
    | inl hold => exact h.patient hpast x hold
    | inr hnew =>
      rw [mem_singleton.1 hnew]
      have hpat := hpatient hnow
      rw [h.browser] at hpat
      exact hpat

theorem follows (es : List TunnelEvent) : ∃ bs, Follows cfg es bs := by
  induction es using List.reverseRecOn with
  | nil =>
    refine ⟨[], rfl, rfl, rfl, ?_⟩
    intro _ x hx
    cases hx
  | append_singleton es e ih =>
    obtain ⟨bs, h⟩ := ih
    cases e with
    | agent event =>
      have hevents : agentEvents (es ++ [.agent event]) = agentEvents es ++ [event] := by
        simp [agentEvents]
      have hrun : (machine cfg).run (es ++ [.agent event]) =
          (((machine cfg).run es).step cfg (.agent event)).1 := run_snoc _ _ _
      refine ⟨bs, ?_, ?_, ?_, ?_⟩
      · rw [hrun]
        exact h.browser
      · rw [browserOutputs_snoc, ← h.outputs]
        have hnone : (((machine cfg).run es).step cfg (.agent event)).2.filterMap
            (fun | .browser out => some out | _ => none) = [] := by
          rw [filterMap_eq_nil_iff]
          intro o ho
          obtain ⟨o', -, rfl⟩ := mem_map.1 ho
          rfl
        rw [hnone, append_nil]
      · rw [hrun, hevents, posted_snoc, ← h.heard, ← run_table, append_assoc]
        rfl
      · exact fun hall => h.patient (forall_trace_snoc hall).1
    | forwards =>
      have hkeeps : ((machine cfg).run es).step cfg .forwards = ((machine cfg).run es, []) →
          ∃ bs, Follows cfg (es ++ [.forwards]) bs := by
        intro hstep
        have hrun : (machine cfg).run (es ++ [.forwards]) = (machine cfg).run es := by
          rw [run_snoc]
          exact congrArg Prod.fst hstep
        have hevents : agentEvents (es ++ [.forwards]) = agentEvents es := by simp [agentEvents]
        refine ⟨bs, ?_, ?_, ?_, ?_⟩
        · rw [hrun]
          exact h.browser
        · rw [browserOutputs_snoc, hstep, ← h.outputs]
          exact append_nil _
        · rw [hrun, hevents]
          exact h.heard
        · exact fun hall => h.patient (forall_trace_snoc hall).1
      by_cases hws : ((machine cfg).run es).browser.ws = some .connecting
      · apply hkeeps
        simp [TunnelState.step, TunnelState.forward, hws]
      · cases hpipe : ((machine cfg).run es).pipe with
        | nil =>
          apply hkeeps
          simp [TunnelState.step, TunnelState.forward, hws, hpipe]
        | cons msg pipe =>
          refine ⟨bs ++ [.receives msg], h.turn ?_ rfl hpipe.symm ?_⟩
          · simp [TunnelState.step, TunnelState.forward, hws, hpipe]
          · intro hnow
            refine ⟨hws, fun hclose => hnow msg ?_ hclose⟩
            rw [hpipe]
            rfl
    | opens =>
      have hpatient : Patient ((machine cfg).run es).browser .opens := trivial
      exact ⟨bs ++ [.opens], h.turn rfl rfl rfl fun _ => hpatient⟩
    | begins =>
      have hpatient : Patient ((machine cfg).run es).browser .begins := trivial
      exact ⟨bs ++ [.begins], h.turn rfl rfl rfl fun _ => hpatient⟩
    | settles =>
      have hpatient : Patient ((machine cfg).run es).browser (.settles false false) := ⟨rfl, rfl⟩
      exact ⟨bs ++ [.settles false false], h.turn rfl rfl rfl fun _ => hpatient⟩
    | sends text =>
      have hpatient : Patient ((machine cfg).run es).browser (.send text) := trivial
      exact ⟨bs ++ [.send text], h.turn rfl rfl rfl fun _ => hpatient⟩
    | seals =>
      have hpatient : Patient ((machine cfg).run es).browser .seals := trivial
      exact ⟨bs ++ [.seals], h.turn rfl rfl rfl fun _ => hpatient⟩

theorem posted_after {es more : List TableEvent} {k : Nat} {s : Stream} (h : StreamTable.NewIds cfg.agent (es ++ more))
    (hs : ((StreamTable.machine cfg.agent).run es).objects[k]? = some s) (hclosed : s.closed = true) :
    StreamTable.posted cfg.agent s.streamId (es ++ more) = StreamTable.posted cfg.agent s.streamId es ∧
      ∃ s', ((StreamTable.machine cfg.agent).run (es ++ more)).objects[k]? = some s' ∧ s'.closed = true ∧
        s'.streamId = s.streamId := by
  induction more using List.reverseRecOn with
  | nil =>
    rw [append_nil]
    exact ⟨rfl, s, hs, hclosed, rfl⟩
  | append_singleton more e ih =>
    rw [← append_assoc] at h ⊢
    obtain ⟨hposted, s', hs', hclosed', hname⟩ := ih h.init.1
    obtain ⟨hsame, s'', hs'', hclosed'', hname'⟩ := posted_gone h hs' hclosed'
    rw [hname] at hsame
    exact ⟨hsame.trans hposted, s'', hs'', hclosed'', hname'.trans hname⟩

theorem all_sent (hG : cfg.agent.G.Lawful) {es : List TableEvent} {k : Nat} {s : Stream}
    (hes : StreamTable.NewIds cfg.agent es)
    (hs : ((StreamTable.machine cfg.agent).run es).objects[k]? = some s) (hopen : s.closed = false)
    (hbound : (StreamTable.history cfg.agent es k).bound ≠ []) (hseals : SealsFor cfg k s)
    (hdone : s.opener ≠ none → s.awaiting.Late → linesIn s.chain = [] ∧ sealsNothing s.awaiting = true) :
    ∃ frames opener, (StreamTable.history cfg.agent es k).sent = frames.map bytesToBase64Url ∧
      StreamOpener.receiveAll cfg.agent.P cfg.agent.G cfg.keys.s2c .s2c none frames =
        some (opener, (StreamTable.history cfg.agent es k).relayed.map utf8ToBytes) := by
  obtain ⟨entry, hpassed⟩ := passed_of_bound hes.opensOnce hs hopen hbound
  obtain ⟨hthrough, hlate⟩ := through_of_passed hpassed
  obtain ⟨hlines, hnothing⟩ := hdone hthrough hlate
  obtain ⟨-, -, accepted, done, restIn, restOut, hc, -, hout, hrest⟩ := hpassed
  have hflying : s.awaiting.flying = [] ∧ s.awaiting.held = [] ∧
      ∀ reason, s.awaiting ≠ .caught reason := by
    cases hawait : s.awaiting with
    | flush held =>
      rw [hawait] at hnothing
      exact ⟨rfl, isEmpty_iff.1 hnothing, fun reason he => by cases he⟩
    | flushSeal frame held =>
      rw [hawait] at hnothing
      cases hnothing
    | sealed frame =>
      rw [hawait] at hnothing
      cases hnothing
    | caught reason =>
      rw [hawait] at hnothing
      cases hnothing
    | _ => exact ⟨rfl, rfl, fun reason he => by cases he⟩
  obtain ⟨hnone, hheld, hcaught⟩ := hflying
  have hrelayed : (StreamTable.history cfg.agent es k).relayed = done := by
    rw [hout, (hrest hcaught).2, hheld, hlines]
    simp
  obtain ⟨fresh, hfresh, hsealer, hsent⟩ := hc.sealing
  obtain ⟨sealer, hmade, hkey⟩ := hseals
  have hsame : fresh = sealer := by
    obtain ⟨subkey, -, rfl⟩ := Option.map_eq_some_iff.1 hfresh
    obtain ⟨subkey', -, rfl⟩ := Option.map_eq_some_iff.1 hmade
    rw [hsealer] at hkey
    have hsub : subkey = subkey' := by simpa using hkey
    rw [hsub]
  subst hsame
  obtain ⟨opener, hopens⟩ := StreamOpener.receiveAll_sealed hG hmade (done.map utf8ToBytes)
    (by rw [length_map]; exact hc.bounded)
  refine ⟨done.mapIdx fun i line => fresh.frameAt cfg.agent.G i (utf8ToBytes line), opener, ?_, ?_⟩
  · rw [hnone, map_nil, append_nil] at hsent
    rw [hsent, map_mapIdx]
  · rw [hrelayed, ← mapIdx_map fun i p => fresh.frameAt cfg.agent.G i p]
    exact hopens

/-- In a run of a broker that gives every stream a new id, in which no close overtakes a line, a stream that
the relay closes has lost nothing. -/
theorem loses_nothing (cfg : TunnelConfig) (hG : cfg.agent.G.Lawful) (es : List TunnelEvent)
    (hnew : StreamTable.NewIds cfg.agent (agentEvents es))
    (h : ∀ x ∈ (machine cfg).trace es, Unhurried cfg x.pre x.event) : LosesNothing cfg es := by
  intro before k after s hes hs hname hopen hbound hseals
  have hevents : agentEvents es =
      agentEvents before ++ [.stream k .localClose] ++ agentEvents after := by
    rw [hes]
    simp [agentEvents]
  rw [hevents] at hnew
  have hupto : StreamTable.NewIds cfg.agent (agentEvents before ++ [.stream k .localClose]) := fun x hx =>
    hnew x (((StreamTable.machine cfg.agent).trace_begins _ _).subset hx)
  have hbefore := hupto.init.1
  have hunhurried : Unhurried cfg ((machine cfg).run before) (.agent (.stream k .localClose)) := by
    have hmem := ((machine cfg).mem_trace es _).2 ⟨before, _, after, hes, rfl⟩
    exact h _ hmem
  have hs' := hs
  rw [run_table] at hs'
  obtain ⟨frames, opener, hsent, hall⟩ := all_sent hG hbefore hs' hopen hbound hseals
    fun hopener hlate => hunhurried s hs hname hopen hopener hlate
  obtain ⟨hclose, hgone⟩ := posted_local hbefore hs' hopen
  obtain ⟨hposted, -⟩ := posted_after hnew hgone rfl
  have hdatas : (frames.map bytesToBase64Url).map base64UrlToBytes = frames.map some := by
    rw [map_map]
    exact map_congr_left fun frame _ => base64UrlToBytes_bytesToBase64Url frame
  have hscript : StreamTable.posted cfg.agent cfg.streamId (agentEvents es) =
      script cfg.streamId (frames.map bytesToBase64Url) (some "local closed") := by
    rw [hevents, ← hname]
    change StreamTable.posted cfg.agent s.streamId _ = _ at hposted
    rw [hposted, hclose, posted_open hbefore hs' hopen, hsent]
    rfl
  obtain ⟨bs, hfollows⟩ := @follows cfg es
  have hheard := hfollows.heard
  rw [hscript] at hheard
  have hsaid : ((StreamTable.history cfg.agent (agentEvents before) k).relayed.map utf8ToBytes).map
      cfg.browser.decode = said cfg before k := by
    rw [map_map]
    rfl
  have hdelivery := delivery hdatas hall bs ⟨_, hheard⟩ (hfollows.patient h)
  have hk := kept_run cfg.browser true bs
  rw [← hsaid, hfollows.outputs, hfollows.browser]
  cases hdelivery with
  | inl hattached =>
    refine ⟨hattached.texts hk hdatas hall, fun htold => absurd htold hattached.unended, ?_⟩
    intro hpipe _
    rw [hpipe, append_nil] at hheard
    have hpart := hattached.part.length_le
    rw [hheard] at hpart
    simp only [script, length_append, length_cons, length_nil] at hpart
    omega
  | inr hfinished =>
    refine ⟨?_, fun _ => hfinished.before, fun _ _ => hfinished.told⟩
    exact hfinished.texts ▸ prefix_refl _

/-- The browser of device `d` on stream `a`. -/
def sampleTunnel : TunnelConfig where
  agent := StreamTable.sample
  streamId := "a"
  keys := StreamTable.sampleKeys
  salt := List.replicate subkeySaltBytes 9

/-- The stream is admitted, and the relay says why it is about to close the socket. -/
def refusedByRelay : List TunnelEvent :=
  StreamTable.asking.map .agent ++ [.agent (.stream 0 (.answer (some true))), .agent (.stream 0 .resume),
    .agent (.stream 0 .resume), .agent (.stream 0 (.line "auth:failure"))]

/-- The broker and the browser do the rest. -/
def browserCatchesUp : List TunnelEvent :=
  [.opens, .forwards, .forwards, .begins, .settles, .forwards]

theorem loses_nothing_refused : LosesNothing sampleTunnel
    (refusedByRelay ++ [.agent (.stream 0 .resume), .agent (.stream 0 .resume),
      .agent (.stream 0 .localClose)] ++ browserCatchesUp) :=
  loses_nothing sampleTunnel plainGcm_lawful _ (by unfold StreamTable.NewIds; decide +kernel)
    (by decide +kernel)

def sealsRefusal : List TunnelEvent := refusedByRelay ++ [.agent (.stream 0 .resume)]

/-- The socket closes while the line is being sealed: the browser is told of the close and never of the
reason. -/
theorem not_loses_nothing :
    browserOutputs sampleTunnel (sealsRefusal ++ .agent (.stream 0 .localClose) :: browserCatchesUp) =
      [.onOpen, .onClose] ∧
    ¬ LosesNothing sampleTunnel (sealsRefusal ++ .agent (.stream 0 .localClose) :: browserCatchesUp) := by
  have houtputs : browserOutputs sampleTunnel (sealsRefusal ++
      .agent (.stream 0 .localClose) :: browserCatchesUp) = [.onOpen, .onClose] := by decide +kernel
  refine ⟨houtputs, fun h => ?_⟩
  have hobj : ((machine sampleTunnel).run sealsRefusal).table.objects[0]?.map (fun s =>
      (s.streamId, s.closed, s.sealer.map (·.key))) = some ("a", false, some (List.replicate 32 2)) := by
    decide +kernel
  obtain ⟨s, hs, hfields⟩ := Option.map_eq_some_iff.1 hobj
  have hbound : (StreamTable.history sampleTunnel.agent (agentEvents sealsRefusal) 0).bound ≠ [] := by
    decide +kernel
  have hseals : SealsFor sampleTunnel 0 s :=
    ⟨⟨List.replicate 32 2, .s2c, List.replicate subkeySaltBytes 7, 0⟩, by decide +kernel,
      congrArg (fun p => p.2.2) hfields⟩
  obtain ⟨-, hall, -⟩ := h sealsRefusal 0 browserCatchesUp s rfl hs (congrArg Prod.fst hfields)
    (congrArg (fun p => p.2.1) hfields) hbound hseals
  rw [houtputs] at hall
  have hsaid := hall (by simp)
  have hlength := congrArg List.length hsaid
  revert hlength
  decide +kernel

end Mtmux.Tunnel
