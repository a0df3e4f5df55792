import Mtmux.Cli.PeerText

/-! Peer text cannot draw on the terminal, unless it came with a code or refuses a request. -/
namespace Mtmux.Cli
open Protocol List Option

/-! ### Lines -/

def AllTame (lines : List Line) : Prop := ∀ line ∈ lines, Tame line

theorem allTame_nil : AllTame [] := fun _ h => by cases h

theorem allTame_cons {line : Line} {lines : List Line} : AllTame (line :: lines) ↔ Tame line ∧ AllTame lines :=
  forall_mem_cons

theorem allTame_append {a b : List Line} : AllTame (a ++ b) ↔ AllTame a ∧ AllTame b := forall_mem_append

theorem allTame_map {α : Type*} {l : List α} {f : α → Line} (h : ∀ a ∈ l, Tame (f a)) : AllTame (l.map f) := by
  intro line hline
  obtain ⟨a, ha, rfl⟩ := mem_map.1 hline
  exact h a ha

theorem allTame_ite {p : Prop} [Decidable p] {a b : List Line} (ha : AllTame a) (hb : AllTame b) :
    AllTame (if p then a else b) := by
  split
  · exact ha
  · exact hb

theorem tame_cons {piece : Piece} {line : Line} (h : piece.Tame) (hrest : Tame line) : Tame (piece :: line) :=
  forall_mem_cons.2 ⟨h, hrest⟩

theorem tame_machine (text : String) : Piece.Tame ⟨.machine, text⟩ := fun h => by cases h

theorem tame_peer {text : String} (whose : Origin) (h : Harmless text) : Piece.Tame ⟨whose, text⟩ := fun _ => h

theorem tame_said (text : String) {line : Line} (h : Tame line) : Tame (⟨.machine, text⟩ :: line) :=
  tame_cons (tame_machine text) h

theorem tame_naming {piece : Piece} (h : piece.Tame) (before after : String) :
    Tame [⟨.machine, before⟩, piece, ⟨.machine, after⟩] :=
  tame_said _ (tame_cons h (tame_said _ tame_nil))

/-- What stands where a peer gave no text. -/
def fallbackWords : List String :=
  ["", "unknown device", "unknown account", "unnamed", "A device", "that device", "browser", " on "]

theorem harmless_fallback {word : String} (h : word ∈ fallbackWords) : Harmless word :=
  (by decide +kernel : ∀ word ∈ fallbackWords, Harmless word) word h

theorem tame_displayed (whose : Origin) (raw : String) {word : String} (h : word ∈ fallbackWords) :
    Piece.Tame ⟨whose, displayLabel raw word⟩ :=
  tame_peer whose (harmless_displayLabel _ (harmless_fallback h))

theorem harmless_unknown : Harmless "unknown device" := harmless_fallback (by simp [fallbackWords])

theorem harmless_empty : Harmless "" := harmless_fallback (by simp [fallbackWords])

/-! ### Questions -/

section Questions
variable (whose : Origin)

theorem tame_renderReturningDevice {label : String} (h : Piece.Tame ⟨whose, label⟩) (transport : Option AccessTransport) :
    AllTame (renderReturningDevice whose label transport) := by
  have hlabel : Piece.Tame ⟨whose, if label = "" then "unknown device" else label⟩ := by
    split
    · exact tame_peer whose harmless_unknown
    · exact h
  unfold renderReturningDevice
  rw [allTame_append, allTame_append]
  refine ⟨⟨?_, allTame_map fun transport _ => tame_shown _ (tame_machine _)⟩, ?_⟩
  · simp only [allTame_cons, tame_say, true_and]
    exact ⟨tame_shown _ hlabel, allTame_nil⟩
  · simp only [allTame_cons, tame_say, true_and, allTame_nil]

theorem tame_renderCodePairing (req : AccessPromptInput) : AllTame (renderCodePairing whose req) := by
  unfold renderCodePairing
  rw [allTame_append, allTame_append]
  refine ⟨⟨?_, allTame_ite allTame_nil ?_⟩, ?_⟩
  · simp only [allTame_cons, tame_say, true_and]
    exact ⟨tame_shown _ (tame_displayed whose _ (by simp [fallbackWords])), allTame_nil⟩
  · rw [allTame_cons]
    exact ⟨tame_shown _ (tame_displayed .peer _ (by simp [fallbackWords])), allTame_nil⟩
  · simp only [allTame_cons, tame_say, true_and, allTame_nil]

theorem tame_renderAccessRequest {req : AccessRequest}
    (h : req.via = some .returning → Piece.Tame ⟨whose, req.deviceLabel⟩) : AllTame (renderAccessRequest whose req) := by
  unfold renderAccessRequest
  split
  · rename_i hvia
    exact tame_renderReturningDevice whose (h hvia) _
  · split
    · exact tame_renderCodePairing whose _
    · simp only [allTame_cons, tame_say, true_and]
      exact ⟨tame_shown _ (tame_displayed whose _ (by simp [fallbackWords])),
        tame_shown _ (tame_displayed .peer _ (by simp [fallbackWords])), tame_shown _ (tame_machine _),
        allTame_nil⟩

theorem tame_panelValue (label : String) {piece : Piece} (h : piece.Tame) (width : Nat) :
    Tame (panelValue label piece width) :=
  tame_said _ (tame_cons (fun horigin => harmless_fit (h horigin) _) tame_nil)

theorem tame_approval (req : AccessRequest) (secondsLeft width : Nat) :
    AllTame (approval whose req secondsLeft width) := by
  have hclean : ∀ (whose : Origin) (raw : String), Piece.Tame ⟨whose, sanitizeLabel raw maxLabelLength⟩ :=
    fun whose raw => tame_peer whose (harmless_sanitizeLabel raw _)
  unfold approval
  simp only [allTame_append]
  refine ⟨⟨⟨⟨?_, allTame_ite allTame_nil ?_⟩, ?_⟩, ?_⟩, ?_⟩
  · simp only [allTame_cons, tame_say, true_and]
    exact ⟨tame_say _, tame_panelValue _ (hclean whose _) _, allTame_nil⟩
  · rw [allTame_cons]
    exact ⟨tame_panelValue _ (hclean .peer _) _, allTame_nil⟩
  · exact allTame_map fun transport _ => tame_panelValue _ (tame_machine _) _
  · cases req.digits with
    | none => exact allTame_cons.2 ⟨tame_say _, allTame_nil⟩
    | some sas => exact allTame_cons.2 ⟨tame_say _, allTame_cons.2 ⟨tame_say _, allTame_nil⟩⟩
  · exact allTame_cons.2 ⟨tame_say _, allTame_cons.2 ⟨tame_say _, allTame_nil⟩⟩

theorem tame_questionLines {req : AccessRequest} {parked : List Line}
    (h : req.via = some .returning → Piece.Tame ⟨whose, req.deviceLabel⟩) (hparked : AllTame parked)
    (surface : Surface) : AllTame (questionLines whose req parked surface) := by
  cases surface with
  | panel secondsLeft width => exact tame_approval whose req _ _
  | terminal =>
    exact allTame_append.2 ⟨tame_renderAccessRequest whose h, allTame_cons.2 ⟨tame_say _, allTame_nil⟩⟩
  | window =>
    refine allTame_append.2 ⟨tame_renderAccessRequest whose fun hvia => ?_, allTame_cons.2 ⟨tame_say _, allTame_nil⟩⟩
    cases hvia
  | parked => exact hparked

theorem tame_parkedRequest (req : AccessRequest) (asked : Nat) : AllTame (parkedRequest req asked) := by
  unfold parkedRequest
  simp only [allTame_append]
  refine ⟨⟨⟨⟨?_, allTame_map fun sas _ => tame_shown _ (tame_machine _)⟩, ?_⟩, ?_⟩, ?_⟩
  · simp only [allTame_cons, tame_say, true_and]
    exact ⟨tame_shown _ (tame_displayed .peer _ (by simp [fallbackWords])),
      tame_shown _ (tame_displayed .peer _ (by simp [fallbackWords])), allTame_nil⟩
  · exact allTame_cons.2 ⟨tame_say _, allTame_nil⟩
  · split <;> simp only [allTame_cons, tame_say, true_and, allTame_nil]
  · exact allTame_cons.2 ⟨tame_say _, allTame_nil⟩

theorem tame_parkedCode (req : AccessRequest) (asked : Nat) : AllTame (parkedCode req asked) := by
  unfold parkedCode
  simp only [allTame_cons, tame_say, true_and]
  exact ⟨tame_shown _ (tame_displayed .peer _ (by simp [fallbackWords])), allTame_nil⟩

theorem tame_parkedReturning {named : Piece} (h : named.Tame) (transport : AccessTransport) :
    AllTame (parkedReturning named transport) := by
  unfold parkedReturning
  simp only [allTame_cons, tame_say, true_and]
  exact ⟨tame_shown _ h, tame_shown _ (tame_machine _), allTame_nil⟩

theorem tame_gateLines {named : Piece} (h : named.Tame) (transport : AccessTransport) (surface : Surface)
    (verdict : Verdict) : AllTame (gateLines named transport surface verdict) := by
  have hasked : AllTame (questionLines named.origin ⟨⟨none, named.text, "", some .returning⟩, some transport⟩
      (parkedReturning named transport) surface) :=
    tame_questionLines named.origin (fun _ => h) (tame_parkedReturning h transport) surface
  cases verdict with
  | silent ok => exact allTame_nil
  | letIn again =>
    refine allTame_append.2 ⟨hasked, allTame_append.2 ⟨allTame_cons.2 ⟨tame_naming h _ _, allTame_nil⟩, ?_⟩⟩
    exact allTame_ite (allTame_cons.2 ⟨tame_say _, allTame_nil⟩) allTame_nil
  | refused => exact allTame_append.2 ⟨hasked, allTame_cons.2 ⟨tame_naming h _ _, allTame_nil⟩⟩
  | unasked =>
    exact allTame_append.2 ⟨hasked, allTame_cons.2 ⟨tame_naming h _ _, allTame_cons.2 ⟨tame_say _, allTame_nil⟩⟩⟩

end Questions

/-! ### The panel and the lists -/

theorem tame_rule (width : Nat) : Tame (rule width) := tame_say _

variable {row : NamedRow}

theorem tame_rowLine (h : Harmless row.name) (room : Nat) (rest : String) :
    Tame (rowLine row room rest) := tame_naming (tame_peer .peer (harmless_pad h _)) _ _

theorem tame_cardField (label : String) {value : Piece} (h : value.Tame) (width : Nat) :
    Tame (cardField label value width) := tame_said _ (tame_cons (fun horigin => harmless_fit (h horigin) _) tame_nil)

theorem tame_detailCard (h : Harmless row.name) (facts : List (String × String)) (width : Nat) :
    AllTame (detailCard row facts width) := by
  have hclean : ∀ raw : String, Piece.Tame ⟨.peer, sanitizeLabel raw maxLabelLength⟩ :=
    fun raw => tame_peer .peer (harmless_sanitizeLabel raw _)
  unfold detailCard
  simp only [allTame_append]
  refine ⟨⟨⟨?_, ?_⟩, allTame_map fun fact _ => tame_cardField _ (tame_machine _) _⟩, ?_⟩
  · exact allTame_cons.2 ⟨tame_rule _, allTame_cons.2 ⟨tame_said _ (tame_cons (tame_peer .peer (harmless_fit h _)) tame_nil),
      allTame_nil⟩⟩
  · cases row.peer with
    | none => exact allTame_nil
    | some peer => exact allTame_ite (allTame_cons.2 ⟨tame_cardField _ (hclean _) _, allTame_nil⟩) allTame_nil
  · cases row.live.bind LiveSocket.userAgent with
    | none => exact allTame_nil
    | some userAgent => exact allTame_ite (allTame_cons.2 ⟨tame_cardField _ (hclean _) _, allTame_nil⟩) allTame_nil

theorem tame_panelTitle (verb label : String) (room : Nat) : Tame (panelTitle verb label room) :=
  tame_said _ (tame_cons (tame_peer .peer (harmless_fit (harmless_sanitizeLabel _ _) _)) tame_nil)

theorem tame_confirmLines (disconnect : Bool) (label : String) (width : Nat) :
    AllTame (confirmLines disconnect label width) := by
  unfold confirmLines
  split <;> simp only [allTame_cons, tame_rule, tame_panelTitle, tame_say, true_and, allTame_nil]

theorem tame_renameLines (label draft : String) (width : Nat) : AllTame (renameLines label draft width) := by
  unfold renameLines
  simp only [allTame_cons, tame_rule, tame_panelTitle, tame_say, true_and, allTame_nil]

theorem tame_removalFlash (disconnect ok : Bool) {label : String} (h : Harmless label) :
    Tame (removalFlash disconnect ok label) := by
  have hlabel := tame_peer .peer h
  cases disconnect with
  | true =>
    cases ok with
    | true => exact tame_naming hlabel _ _
    | false => exact tame_cons hlabel (tame_said _ tame_nil)
  | false =>
    cases ok with
    | true | false => exact tame_naming hlabel _ _

theorem tame_deviceLine (peer : StoredPeer) : Tame (deviceLine peer) := by
  unfold deviceLine
  refine forall_mem_append.2 ⟨tame_naming (tame_displayed .peer _ (by simp [fallbackWords])) _ _, ?_⟩
  split
  · exact tame_naming (tame_displayed .peer _ (by simp [fallbackWords])) _ _
  · exact tame_nil

theorem tame_statusLine {labels : List String} (h : ∀ label ∈ labels, Harmless label) : Tame (statusLine labels) := by
  unfold statusLine
  split
  · exact tame_say _
  · refine tame_said _ fun piece hpiece => ?_
    obtain ⟨label, hlabel, hmem⟩ := mem_flatMap.1 hpiece
    exact tame_cons (tame_peer .peer (h label hlabel)) (tame_said _ tame_nil) piece hmem

theorem harmless_describeUserAgent {tests : UserAgentTests} {ua label : String}
    (h : describeUserAgent tests ua = some label) : Harmless label := by
  have hbrowsers : ∀ browser ∈ browsers, Harmless browser := by decide +kernel
  have hplatforms : ∀ platform ∈ platforms, Harmless platform := by decide +kernel
  unfold describeUserAgent at h
  split at h
  · cases h
  · split at h
    · rename_i browser platform hbrowser hplatform
      cases h
      refine harmless_append (harmless_append (hbrowsers _ (mem_of_find?_eq_some hbrowser))
        (harmless_fallback (by simp [fallbackWords]))) ?_
      exact hplatforms _ (mem_of_find?_eq_some hplatform)
    · rename_i browser hbrowser hplatform
      cases h
      exact hbrowsers _ (mem_of_find?_eq_some hbrowser)
    · rename_i platform hbrowser
      exact hplatforms _ (mem_of_find?_eq_some h)

theorem harmless_shownLabel (tests : UserAgentTests) {socket : LiveSocket}
    (h : ∀ label, socket.label = some label → Harmless label) : Harmless (socket.shownLabel tests) := by
  unfold LiveSocket.shownLabel
  split
  · rename_i label hlabel
    exact h label hlabel
  · cases hdescribed : socket.userAgent.bind (describeUserAgent tests) with
    | none => exact harmless_fallback (by simp [fallbackWords])
    | some label =>
      obtain ⟨userAgent, -, hlabel⟩ := bind_eq_some_iff.1 hdescribed
      exact harmless_describeUserAgent hlabel

theorem harmless_panelName (peer : StoredPeer) : Harmless peer.panelName := by
  unfold StoredPeer.panelName
  split
  · exact harmless_sanitizeLabel _ _
  · exact harmless_sanitizeLabel _ _

theorem harmless_row {tests : UserAgentTests} {live : List LiveSocket} {peers : List StoredPeer}
    (h : row ∈ buildRows tests live peers) : Harmless row.name := by
  cases mem_append.1 h with
  | inl hlive =>
    obtain ⟨socket, -, rfl⟩ := mem_map.1 hlive
    dsimp only
    split
    · exact harmless_panelName _
    · exact harmless_sanitizeLabel _ _
  | inr hstored =>
    obtain ⟨peer, -, rfl⟩ := mem_map.1 hstored
    dsimp only
    exact harmless_panelName peer

theorem mem_missingFrom {item : String} {a b : List String} (h : item ∈ missingFrom a b) : item ∈ a := by
  induction a generalizing b with
  | nil => cases h
  | cons first a ih =>
    unfold missingFrom at h
    split at h
    · exact mem_cons_of_mem _ (ih h)
    · cases mem_cons.1 h with
      | inl hthis => exact hthis ▸ mem_cons_self
      | inr hrest => exact mem_cons_of_mem _ (ih hrest)

/-! ### Steps -/

namespace TerminalState
variable {s : TerminalState} {tests : UserAgentTests}

/-- Every label that the machine keeps is one that draws nothing. -/
structure Kempt (s : TerminalState) : Prop where
  peers : ∀ peer ∈ s.peers, Harmless peer.label
  tokens : ∀ token ∈ s.tokens, ∀ label, token.2 = some label → Harmless label
  keys : ∀ key ∈ s.keys, Harmless key.2
  live : ∀ socket ∈ s.live, ∀ label, socket.label = some label → Harmless label
  previous : ∀ label ∈ s.previous, Harmless label
  removing : ∀ removing, s.removing = some removing → Harmless removing.2
  flash : ∀ flash, s.flash = some flash → Tame flash

variable {label : String}

theorem harmless_registeredLabel {registered : String} (h : Harmless label)
    (hregistered : registeredLabel label = some registered) : Harmless registered := by
  unfold registeredLabel at hregistered
  split at hregistered
  · cases hregistered
  · cases hregistered
    intro c hc
    rw [String.toList_ofList] at hc
    exact h c ((sliceUnits_begins _ _).subset hc)

theorem Kempt.addPeer (h : Kempt s) (deviceId : String) (hlabel : Harmless label) :
    Kempt (s.addPeer deviceId label) where
  peers peer hpeer := by
    cases mem_append.1 hpeer with
    | inl hold => exact h.peers peer (mem_filter.1 hold).1
    | inr hnew =>
      rw [mem_singleton.1 hnew]
      exact hlabel
  __ := h

theorem Kempt.register (h : Kempt s) (deviceId : String) {label : Option String}
    (hlabel : ∀ text, label = some text → Harmless text) : Kempt (s.register deviceId label) where
  __ := h
  tokens token htoken := by
    cases mem_append.1 htoken with
    | inl hold => exact h.tokens token (mem_filter.1 hold).1
    | inr hnew =>
      rw [mem_singleton.1 hnew]
      exact hlabel

theorem Kempt.addKeys (h : Kempt s) (deviceId : String) (hlabel : Harmless label) :
    Kempt (s.addKeys deviceId label) where
  __ := h
  keys key hkey := by
    cases mem_append.1 hkey with
    | inl hold => exact h.keys key (mem_filter.1 hold).1
    | inr hnew =>
      rw [mem_singleton.1 hnew]
      exact hlabel

theorem Kempt.labels (h : Kempt s) : ∀ label ∈ s.labels tests, Harmless label := by
  intro label hlabel
  obtain ⟨socket, hsocket, rfl⟩ := mem_map.1 hlabel
  exact harmless_shownLabel tests (h.live socket hsocket)

theorem tame_gateName (deviceId : Option String) {label : Option String}
    (h : ∀ text, label = some text → Harmless text) : (s.gateName deviceId label).Tame := by
  unfold gateName
  split
  · exact tame_machine _
  · split
    · rename_i text htext
      exact tame_peer .peer (h text (filter_eq_some_iff.1 htext).1)
    · exact tame_machine _

theorem Kempt.tokenLabel (h : Kempt s) {deviceId : Option String} {text : String}
    (htext : deviceId.bind s.tokenLabel = some text) : Harmless text := by
  obtain ⟨device, -, hlabel⟩ := bind_eq_some_iff.1 htext
  obtain ⟨token, htoken, hlabel⟩ := bind_eq_some_iff.1 hlabel
  exact h.tokens token (mem_of_find?_eq_some htoken) text hlabel

/-- What a step may say, and what it keeps. -/
def Neat (r : TerminalState × List Line) : Prop := Kempt r.1 ∧ AllTame r.2

theorem tame_confirmCodePairing (s : TerminalState) (label : String) (surface : Surface) (approved : Bool) :
    AllTame (s.confirmCodePairing label surface approved) := by
  refine allTame_append.2 ⟨tame_questionLines .peer (fun hvia => by cases hvia) (tame_parkedCode _ _) surface, ?_⟩
  refine allTame_ite allTame_nil (allTame_cons.2 ⟨?_, allTame_nil⟩)
  exact tame_naming (tame_displayed .peer _ (by simp [fallbackWords])) _ _

/-- A device that completes its pairing with a code has nothing to draw with in its associated data, nor a request
that is refused in its account. -/
def Drawless : TerminalEvent → Prop
  | .dashboardRequest deviceLabel accountEmail _ _ approved _ _ =>
    utf16Length deviceLabel ≤ maxLabelLength → utf16Length accountEmail ≤ 320 → approved = false → Harmless accountEmail
  | .codePairing ad _ approved granted registered _ =>
    utf16Length ad ≤ adPeerMax → approved = true → (granted = true → registered = true) → Harmless ad
  | _ => True

section
variable (h : Kempt s)
include h

theorem Kempt.dashboardRequest {deviceLabel accountEmail sas : String} {surface : Surface}
    {approved registered : Bool} {deviceId : String}
    (hdraws : Drawless (.dashboardRequest deviceLabel accountEmail sas surface approved registered deviceId)) :
    Neat (s.onDashboardRequest deviceLabel accountEmail sas surface approved registered deviceId) := by
  unfold onDashboardRequest
  split
  · exact ⟨h, allTame_nil⟩
  · rename_i hfits
    simp only [not_or, Nat.not_lt] at hfits
    have hlabel := harmless_sanitizeLabel deviceLabel maxLabelLength
    have hasked : ∀ req : AccessRequest, req.via = none →
        AllTame (questionLines .peer req (parkedRequest req s.live.length) surface) := by
      intro req hvia
      refine tame_questionLines .peer (fun hreturning => ?_) (tame_parkedRequest _ _) surface
      rw [hvia] at hreturning
      cases hreturning
    dsimp only
    split
    · rename_i hno
      have haccount := hdraws hfits.1 hfits.2 (by simpa using hno)
      refine ⟨h, allTame_append.2 ⟨hasked _ rfl, allTame_cons.2 ⟨?_, allTame_nil⟩⟩⟩
      exact tame_naming (tame_peer .peer haccount) _ _
    · split
      · exact ⟨h, allTame_append.2 ⟨hasked _ rfl, allTame_cons.2 ⟨tame_say _, allTame_nil⟩⟩⟩
      · refine ⟨Kempt.addPeer (Kempt.addKeys (h.register deviceId ?_) deviceId hlabel) deviceId hlabel, ?_⟩
        · exact fun text htext => harmless_registeredLabel hlabel htext
        · refine allTame_append.2 ⟨hasked _ rfl, allTame_cons.2 ⟨?_, allTame_nil⟩⟩
          exact tame_naming (tame_displayed .peer _ (by simp [fallbackWords])) _ _

theorem Kempt.codePairing {ad : String} {surface : Surface} {approved granted registered : Bool}
    {deviceId : String} (hdraws : Drawless (.codePairing ad surface approved granted registered deviceId)) :
    Neat (s.onCodePairing ad surface approved granted registered deviceId) := by
  unfold onCodePairing
  split
  · exact ⟨h, allTame_nil⟩
  · rename_i hfits
    have hasked := s.tame_confirmCodePairing (if ad = "" then "browser" else ad) surface approved
    dsimp only
    split
    · exact ⟨h, hasked⟩
    · rename_i hyes
      split
      · exact ⟨h, allTame_append.2 ⟨hasked, allTame_cons.2 ⟨tame_say _, allTame_nil⟩⟩⟩
      · rename_i hdone
        have hlabel : Harmless (if ad = "" then "browser" else ad) := by
          split
          · exact harmless_fallback (by simp [fallbackWords])
          · exact hdraws (Nat.not_lt.1 hfits) (by simpa using hyes) fun hgranted => by simpa [hgranted] using hdone
        refine ⟨Kempt.addPeer (Kempt.addKeys ?_ deviceId hlabel) deviceId hlabel, ?_⟩
        · split
          · exact h.register deviceId fun text htext => harmless_registeredLabel hlabel htext
          · exact h
        · exact allTame_append.2 ⟨hasked, allTame_cons.2 ⟨tame_naming (tame_peer .peer hlabel) _ _, allTame_nil⟩⟩

theorem Kempt.localPairing (label : String) (surface : Surface) (approved : Bool) (deviceId : String) :
    Neat (s.onLocalPairing label surface approved deviceId) := by
  have hasked := s.tame_confirmCodePairing (sanitizeLabel label 80) surface approved
  unfold onLocalPairing
  dsimp only
  split
  · refine ⟨h.register deviceId fun text htext => ?_, hasked⟩
    split at htext
    · cases htext
    · cases htext
      exact harmless_sanitizeLabel _ _
  · exact ⟨h, hasked⟩

theorem Kempt.arrival (socket : Nat) (deviceId userAgent : Option String) (transport : AccessTransport)
    (surface : Surface) (verdict : Verdict) :
    Neat (s.onArrival socket deviceId userAgent transport surface verdict) := by
  have hlabel : ∀ text, deviceId.bind s.tokenLabel = some text → Harmless text := fun text htext => h.tokenLabel htext
  refine ⟨?_, tame_gateLines (tame_gateName deviceId hlabel) transport surface verdict⟩
  unfold onArrival
  dsimp only
  split
  · refine { h with live := fun live hlive => ?_ }
    cases mem_append.1 hlive with
    | inl hold => exact h.live live hold
    | inr hnew =>
      rw [mem_singleton.1 hnew]
      exact hlabel
  · exact h

theorem Kempt.stream (deviceId : String) (surface : Surface) (verdict : Verdict) :
    Neat (s.onStream deviceId surface verdict) := by
  unfold onStream
  split
  · exact ⟨h, allTame_nil⟩
  · rename_i key hkey
    refine ⟨h, tame_gateLines (tame_gateName _ fun text htext => ?_) _ _ _⟩
    cases htext
    exact h.keys key (mem_of_find?_eq_some hkey)

theorem Kempt.announce : Neat (s.onAnnounce tests) := by
  refine ⟨⟨h.peers, h.tokens, h.keys, h.live, h.labels, h.removing, h.flash⟩, ?_⟩
  unfold onAnnounce
  refine allTame_ite allTame_nil (allTame_append.2 ⟨allTame_append.2 ⟨?_, ?_⟩, ?_⟩)
  · exact allTame_map fun label hlabel => tame_naming (tame_peer .peer (h.labels label (mem_missingFrom hlabel))) _ _
  · exact allTame_map fun label hlabel => tame_naming (tame_peer .peer (h.previous label (mem_missingFrom hlabel))) _ _
  · exact allTame_cons.2 ⟨tame_say _, allTame_cons.2 ⟨tame_say _, allTame_nil⟩⟩

theorem Kempt.drawing (width : Nat) (drawing : Drawing) : AllTame (s.drawing tests width drawing) := by
  cases drawing with
  | list columns =>
    refine allTame_append.2 ⟨allTame_append.2 ⟨allTame_cons.2 ⟨tame_rule _, allTame_nil⟩, ?_⟩, ?_⟩
    · refine allTame_map fun row hrow => ?_
      have htaken : row.1 ∈ (s.rows tests).take 8 := (of_mem_zip hrow).1
      exact tame_rowLine (harmless_row (mem_of_mem_take htaken)) _ _
    · exact allTame_map fun flash hflash => tame_said _ (h.flash flash (mem_toList.1 hflash))
  | card row facts =>
    simp only [TerminalState.drawing]
    split
    · exact allTame_cons.2 ⟨tame_rule _, allTame_cons.2 ⟨tame_say _, allTame_nil⟩⟩
    · rename_i row hrow
      exact tame_detailCard (harmless_row (mem_of_getElem? hrow)) facts width
  | removal =>
    intro line hline
    obtain ⟨removing, -, hline⟩ := mem_flatMap.1 hline
    exact tame_confirmLines _ _ _ line hline
  | rename row draft =>
    simp only [TerminalState.drawing]
    split
    · exact allTame_nil
    · exact tame_renameLines _ _ _

theorem Kempt.step (tests : UserAgentTests) (e : TerminalEvent) (hdraws : Drawless e) : Neat (s.step tests e) := by
  cases e with
  | dashboardRequest deviceLabel accountEmail sas surface approved registered deviceId => exact h.dashboardRequest hdraws
  | codePairing ad surface approved granted registered deviceId => exact h.codePairing hdraws
  | localPairing label surface approved deviceId => exact h.localPairing label surface approved deviceId
  | arrives socket deviceId userAgent transport surface verdict => exact h.arrival socket deviceId userAgent transport surface verdict
  | streams deviceId surface verdict => exact h.stream deviceId surface verdict
  | leaves socket =>
    exact ⟨{ h with live := fun live hlive => h.live live (mem_filter.1 hlive).1 }, allTame_nil⟩
  | announces => exact h.announce
  | renames deviceId name =>
    refine ⟨{ h with peers := fun peer hpeer => ?_ }, allTame_nil⟩
    obtain ⟨old, hold, rfl⟩ := mem_map.1 hpeer
    split
    · exact h.peers old hold
    · exact h.peers old hold
  | removes deviceId =>
    exact ⟨{ h with peers := fun peer hpeer => h.peers peer (mem_filter.1 hpeer).1, tokens := fun token htoken => h.tokens token (mem_filter.1 htoken).1, keys := fun key hkey => h.keys key (mem_filter.1 hkey).1 }, allTame_nil⟩
  | restarts restored =>
    refine ⟨⟨h.peers, fun token htoken => ?_, fun key hkey => ?_, fun _ hlive => (by cases hlive),
      fun _ hlabel => (by cases hlabel), fun _ hremoving => (by cases hremoving), fun _ hflash => (by cases hflash)⟩,
      allTame_nil⟩
    · obtain ⟨peer, hpeer, rfl⟩ := mem_map.1 htoken
      intro label hlabel
      obtain ⟨rfl, -⟩ : peer.label = label ∧ label ≠ "" := by simpa using hlabel
      exact h.peers peer (mem_filter.1 hpeer).1
    · obtain ⟨peer, hpeer, rfl⟩ := mem_map.1 hkey
      exact h.peers peer (mem_filter.1 hpeer).1
  | asksRemoval row disconnect =>
    refine ⟨{ h with removing := fun removing hremoving => ?_ }, allTame_nil⟩
    obtain ⟨named, hnamed, rfl⟩ := map_eq_some_iff.1 hremoving
    exact harmless_row (mem_of_getElem? hnamed)
  | removed ok =>
    refine ⟨{ h with removing := fun _ hnone => (by cases hnone), flash := fun flash hflash => ?_ },
      allTame_nil⟩
    obtain ⟨removing, hremoving, rfl⟩ := map_eq_some_iff.1 hflash
    exact tame_removalFlash _ _ (h.removing removing hremoving)
  | flashOver =>
    exact ⟨{ h with flash := fun _ hnone => (by cases hnone) }, allTame_nil⟩
  | draws drawing width => exact ⟨h, h.drawing _ drawing⟩
  | status => exact ⟨h, allTame_cons.2 ⟨tame_statusLine h.labels, allTame_nil⟩⟩
  | devices => exact ⟨h, allTame_map fun peer _ => tame_deviceLine peer⟩

end

theorem draws_of_not_drawless (s : TerminalState) (tests : UserAgentTests) {e : TerminalEvent} (h : ¬Drawless e) : ¬AllTame (s.step tests e).2 := by
  intro htame
  apply h
  cases e with
  | dashboardRequest deviceLabel accountEmail sas surface approved registered deviceId =>
    intro hlabel haccount hno
    have hfits : ¬(maxLabelLength < utf16Length deviceLabel ∨ 320 < utf16Length accountEmail) := by omega
    simp only [TerminalState.step, onDashboardRequest, if_neg hfits, hno] at htame
    have hline := (allTame_append.1 htame).2 _ (mem_singleton.2 rfl)
    exact hline ⟨.peer, accountEmail⟩ (by simp) rfl
  | codePairing ad surface approved granted registered deviceId =>
    intro hfits hyes hdone
    have hdone : (granted && !registered) = false := by
      cases granted with
      | false => rfl
      | true => simp [hdone rfl]
    simp only [TerminalState.step, onCodePairing, if_neg (Nat.not_lt.2 hfits), hyes, hdone] at htame
    have hline := (allTame_append.1 htame).2 _ (mem_singleton.2 rfl)
    have hlabel : Harmless (if ad = "" then "browser" else ad) :=
      hline ⟨.peer, if ad = "" then "browser" else ad⟩ (by simp) rfl
    by_cases hempty : ad = ""
    · rw [hempty]
      exact harmless_empty
    · rwa [if_neg hempty] at hlabel
  | _ => trivial

end TerminalState

open TerminalState

theorem kempt_run (tests : UserAgentTests) (es : List TerminalEvent) (h : ∀ e ∈ es, Drawless e) :
    Kempt ((terminal tests).run es) ∧ AllTame ((terminal tests).outputs es) := by
  induction es using List.reverseRecOn with
  | nil =>
    exact ⟨⟨fun _ h => (by cases h), fun _ h => (by cases h), fun _ h => (by cases h), fun _ h => (by cases h),
      fun _ h => (by cases h), fun _ h => (by cases h), fun _ h => (by cases h)⟩, allTame_nil⟩
  | append_singleton es e ih =>
    obtain ⟨hkempt, htame⟩ := ih fun e' he' => h e' (mem_append_left _ he')
    obtain ⟨hpost, hlines⟩ := hkempt.step tests e (h e (mem_append_right _ (mem_singleton.2 rfl)))
    rw [(terminal tests).run_snoc, (terminal tests).outputs_snoc]
    exact ⟨hpost, allTame_append.2 ⟨htame, hlines⟩⟩

/-- Peer text cannot draw, as long as what comes with a code or with a refused request has nothing to draw with. -/
theorem terminal_tame_iff (tests : UserAgentTests) (es : List TerminalEvent) :
    (∀ line ∈ (terminal tests).outputs es, Tame line) ↔ ∀ e ∈ es, Drawless e := by
  constructor
  · intro htame e he
    by_contra hdraws
    obtain ⟨before, after, rfl⟩ := append_of_mem he
    refine draws_of_not_drawless ((terminal tests).run before) tests hdraws fun line hline => ?_
    refine htame line (mem_flatMap.2 ⟨(terminal tests).entry ((terminal tests).run before) e, ?_, hline⟩)
    exact ((terminal tests).mem_trace _ _).2 ⟨before, e, after, rfl, rfl⟩
  · intro hdraws
    exact (kempt_run tests es hdraws).2

def noTests : UserAgentTests := ⟨fun _ _ => false, fun _ _ => false⟩

/-- A device whose associated data clears the screen pairs with the code, and comes back. -/
def clearsTheScreen : List TerminalEvent :=
  [.codePairing "\x1b[2J" .terminal true false true "browser-1",
    .arrives 1 (some "browser-1") none .lan .terminal (.letIn false)]

theorem returning_device_clears_the_screen :
    shown "Device" ⟨.peer, "\x1b[2J"⟩ ∈ (terminal noTests).outputs clearsTheScreen ∧
    [⟨.machine, "  ✓ "⟩, ⟨.peer, "\x1b[2J"⟩, ⟨.machine, " let in."⟩] ∈ (terminal noTests).outputs clearsTheScreen ∧
    ¬Tame (shown "Device" ⟨.peer, "\x1b[2J"⟩) := by
  refine ⟨by decide +kernel, by decide +kernel, fun htame => ?_⟩
  have hharmless : Harmless "\x1b[2J" := htame ⟨.peer, "\x1b[2J"⟩ (by decide +kernel) rfl
  exact absurd hharmless (by decide +kernel)

end Mtmux.Cli
