import Mtmux.Cli.AccessQuestion
import Mtmux.Cli.PairingClient

/-! The lines that name a device: the questions, what is said of their answers, the panel and the lists. -/
namespace Mtmux.Cli
open Protocol List

/-! ### Cutting to columns -/

/-- Wide, zero, or one. -/
def charWidth (c : Char) : Nat :=
  let cp := c.val
  if (0x0300 ≤ cp ∧ cp ≤ 0x036F) ∨ cp = 0x200D ∨ cp = 0xFE0F then 0
  else if cp < 0x1100 then 1
  else if cp ≤ 0x115F ∨ (0x2E80 ≤ cp ∧ cp ≤ 0xA4CF) ∨ (0xAC00 ≤ cp ∧ cp ≤ 0xD7A3) ∨ (0xF900 ≤ cp ∧ cp ≤ 0xFAFF) ∨
    (0xFE30 ≤ cp ∧ cp ≤ 0xFE6F) ∨ (0xFF00 ≤ cp ∧ cp ≤ 0xFF60) ∨ (0xFFE0 ≤ cp ∧ cp ≤ 0xFFE6) ∨
    (0x1F300 ≤ cp ∧ cp ≤ 0x1F64F) ∨ (0x1F900 ≤ cp ∧ cp ≤ 0x1F9FF) then 2
  else 1

/-- Leave room for the ellipsis. What is there comes last character first. -/
def makeRoom (width : Nat) : Nat → List Char → List Char
  | _, [] => []
  | used, c :: out => if width ≤ used then makeRoom width (used - charWidth c) out else c :: out

def fitChars (width : Nat) : List Char → Nat → List Char → List Char
  | [], _, out => out.reverse
  | c :: rest, used, out =>
    if width < used + charWidth c then (makeRoom width used out).reverse ++ ['…']
    else fitChars width rest (used + charWidth c) (c :: out)

def fit (text : String) (width : Nat) : String :=
  if width = 0 then "" else String.ofList (fitChars width text.toList 0 [])

def displayWidth (text : String) : Nat := (text.toList.map charWidth).sum

def pad (text : String) (width : Nat) : String :=
  fit text width ++ String.ofList (List.replicate (width - displayWidth (fit text width)) ' ')

theorem mem_makeRoom {c : Char} {width used : Nat} {out : List Char} (h : c ∈ makeRoom width used out) : c ∈ out := by
  induction out generalizing used with
  | nil => cases h
  | cons d out ih =>
    unfold makeRoom at h
    split at h
    · exact mem_cons_of_mem _ (ih h)
    · exact h

theorem mem_fitChars {c : Char} {width used : Nat} {text out : List Char} (h : c ∈ fitChars width text used out) :
    c ∈ text ∨ c ∈ out ∨ c = '…' := by
  induction text generalizing used out with
  | nil => exact .inr (.inl (mem_reverse.1 h))
  | cons d text ih =>
    unfold fitChars at h
    split at h
    · cases mem_append.1 h with
      | inl hroom => exact .inr (.inl (mem_makeRoom (mem_reverse.1 hroom)))
      | inr hdots => exact .inr (.inr (mem_singleton.1 hdots))
    · cases ih h with
      | inl hrest => exact .inl (mem_cons_of_mem _ hrest)
      | inr hother =>
        cases hother with
        | inr hdots => exact .inr (.inr hdots)
        | inl hout =>
          cases mem_cons.1 hout with
          | inl hthis => exact .inl (hthis ▸ mem_cons_self)
          | inr hold => exact .inr (.inl hold)

theorem harmless_fit {text : String} (h : Harmless text) (width : Nat) : Harmless (fit text width) := by
  intro c hc
  unfold fit at hc
  split at hc
  · cases hc
  · rw [String.toList_ofList] at hc
    cases mem_fitChars hc with
    | inl htext => exact h c htext
    | inr hother =>
      cases hother with
      | inl hnone => cases hnone
      | inr hdots =>
        rw [hdots]
        decide

theorem harmless_append {a b : String} (ha : Harmless a) (hb : Harmless b) : Harmless (a ++ b) := by
  intro c hc
  rw [String.toList_append] at hc
  exact (mem_append.1 hc).elim (ha c) (hb c)

theorem harmless_pad {text : String} (h : Harmless text) (width : Nat) : Harmless (pad text width) := by
  refine harmless_append (harmless_fit h width) fun c hc => ?_
  rw [String.toList_ofList] at hc
  rw [eq_of_mem_replicate hc]
  decide

/-! ### What the machine keeps -/

structure StoredPeer where
  deviceId : String
  label : String
  name : Option String

/-- A connection that was let in. -/
structure LiveSocket where
  id : Nat
  deviceId : Option String
  label : Option String
  userAgent : Option String

def StoredPeer.displayName (peer : StoredPeer) : String :=
  if trimmed (peer.name.getD "") ≠ "" then trimmed (peer.name.getD "") else trimmed peer.label

def StoredPeer.panelName (peer : StoredPeer) : String :=
  if sanitizeLabel (peer.name.getD "") maxLabelLength ≠ "" then sanitizeLabel (peer.name.getD "") maxLabelLength
  else sanitizeLabel peer.label maxLabelLength

/-- What a user agent is taken for: the name's pattern is found in it. -/
structure UserAgentTests where
  browser : String → String → Bool
  platform : String → String → Bool

def browsers : List String := ["Edge", "Opera", "Samsung Internet", "Vivaldi", "Brave", "Chrome", "Firefox", "Safari"]

def platforms : List String := ["iPhone", "iPad", "Android", "Windows", "Linux", "Mac"]

def describeUserAgent (tests : UserAgentTests) (ua : String) : Option String :=
  if ua = "" then none
  else
    match browsers.find? (tests.browser · ua), platforms.find? (tests.platform · ua) with
    | some browser, some platform => some (browser ++ " on " ++ platform)
    | some browser, none => some browser
    | none, platform => platform

/-- The label of a connection in the relay's lists. -/
def LiveSocket.shownLabel (tests : UserAgentTests) (socket : LiveSocket) : String :=
  match socket.label with
  | some label => label
  | none => ((socket.userAgent.bind (describeUserAgent tests)).getD "A device")

/-- What the panel calls a row. -/
structure NamedRow where
  name : String
  live : Option LiveSocket
  peer : Option StoredPeer

/-- Connected first, then everything else the machine trusts. -/
def buildRows (tests : UserAgentTests) (live : List LiveSocket) (peers : List StoredPeer) : List NamedRow :=
  (live.map fun socket =>
    let peer := socket.deviceId.bind fun deviceId => peers.find? fun peer => peer.deviceId = deviceId
    { name := match peer with
        | some peer => peer.panelName
        | none => sanitizeLabel (socket.shownLabel tests) maxLabelLength
      live := some socket
      peer := peer }) ++
  (peers.filter fun peer => !live.any fun socket => socket.deviceId = some peer.deviceId).map fun peer =>
    { name := peer.panelName, live := none, peer := some peer }

/-! ### The panel -/

def rule (width : Nat) : Line := say (String.ofList (List.replicate width '─'))

def whereWord : AccessTransport → String
  | .tunnel => "over the tunnel, from anywhere"
  | .lan => "from this network"
  | .loopback => "from this machine"

def answerLine (secondsLeft width : Nat) : Line :=
  let head := "y let it in   n refuse"
  let tails := ["   ·   " ++ toString secondsLeft ++ "s left, and doing nothing refuses it",
    "   ·   " ++ toString secondsLeft ++ "s left — silence refuses", "   ·   " ++ toString secondsLeft ++ "s", ""]
  say (" " ++ head ++ (tails.find? fun tail => decide (1 + head.length + tail.length ≤ width)).getD "")

/-- A field of the panel's question. -/
def panelValue (label : String) (piece : Piece) (width : Nat) : Line :=
  [⟨.machine, " " ++ label ++ "  "⟩, ⟨piece.origin, fit piece.text (max 6 (width - 3 - label.length))⟩]

def approval (whose : Origin) (req : AccessRequest) (secondsLeft width : Nat) : List Line :=
  let returning := req.via = some .returning
  [rule width, say (" " ++ fit (if returning then "A device you know is connecting" else "A device wants in") (width - 2)),
    panelValue "Device " ⟨whose, sanitizeLabel req.deviceLabel maxLabelLength⟩ width] ++
  (if req.accountEmail = "" then []
    else [panelValue "Account" ⟨.peer, sanitizeLabel req.accountEmail maxLabelLength⟩ width]) ++
  (req.transport.toList.map fun transport => panelValue "Coming " ⟨.machine, whereWord transport⟩ width) ++
  (match req.digits with
    | some sas => [say (" Code     " ++ sas),
        say (" " ++ fit "It is showing the same six digits. Deny if they differ." (width - 2))]
    | none => [say (" " ++ fit (if returning then "Say no if you are not the one opening it right now."
        else "It entered this machine's code. Say yes only if that was you.") (width - 2))]) ++
  [say "", answerLine secondsLeft width]

def rowLine (row : NamedRow) (room : Nat) (rest : String) : Line :=
  [⟨.machine, "   "⟩, ⟨.peer, pad row.name (max 6 room)⟩, ⟨.machine, " " ++ rest⟩]

def cardField (label : String) (value : Piece) (width : Nat) : Line :=
  [⟨.machine, " " ++ pad label 10 ++ " "⟩, ⟨value.origin, fit value.text (width - 13)⟩]

def detailCard (row : NamedRow) (facts : List (String × String)) (width : Nat) : List Line :=
  [rule width, [⟨.machine, " "⟩, ⟨.peer, fit row.name (width - 2)⟩]] ++
  (match row.peer with
    | some peer =>
      if peer.name.getD "" ≠ "" ∧ peer.label ≠ "" ∧ peer.label ≠ row.name then
        [cardField "Browser" ⟨.peer, sanitizeLabel peer.label maxLabelLength⟩ width]
      else []
    | none => []) ++
  (facts.map fun fact => cardField fact.1 ⟨.machine, fact.2⟩ width) ++
  (match row.live.bind LiveSocket.userAgent with
    | some userAgent =>
      if userAgent ≠ "" ∧ 64 ≤ width then
        [cardField "It says" ⟨.peer, sanitizeLabel userAgent maxLabelLength⟩ width]
      else []
    | none => [])

/-- The title of a confirmation or of the rename editor. -/
def panelTitle (verb label : String) (room : Nat) : Line :=
  [⟨.machine, " " ++ verb ++ " "⟩, ⟨.peer, fit (sanitizeLabel label maxLabelLength) (max 8 room)⟩]

def confirmLines (disconnect : Bool) (label : String) (width : Nat) : List Line :=
  if disconnect then
    [rule width, panelTitle "Disconnect" label (width - 14),
      say (" " ++ fit "It is not paired — it is using this machine's own token, so it can come straight back." (width - 2)),
      say "", say " y hang up   n leave it"]
  else
    [rule width, panelTitle "Remove" label (width - 10),
      say (" " ++ fit "It is disconnected now, and to come back it needs a new code and your approval." (width - 2)),
      say "", say " y remove   n keep it"]

def renameLines (label draft : String) (width : Nat) : List Line :=
  [rule width, panelTitle "Rename" label (width - 12), say "", say (" Name  " ++ fit draft (max 8 (width - 10)) ++ "▏"),
    say "", say (" " ++ fit "Enter saves   ·   empty clears it back to what the browser says" (width - 2)),
    say (" " ++ fit "Esc cancels   ·   it changes nothing about what the device may do" (width - 2))]

/-- What is said once a removal is done. -/
def removalFlash (disconnect ok : Bool) (label : String) : Line :=
  match disconnect, ok with
  | true, true => [⟨.machine, "Hung up on "⟩, ⟨.peer, label⟩, ⟨.machine, "."⟩]
  | true, false => [⟨.peer, label⟩, ⟨.machine, " had already gone."⟩]
  | false, true => [⟨.machine, "Removed "⟩, ⟨.peer, label⟩, ⟨.machine, ". It must pair again."⟩]
  | false, false => [⟨.machine, "Could not remove "⟩, ⟨.peer, label⟩, ⟨.machine, "."⟩]

end Mtmux.Cli
