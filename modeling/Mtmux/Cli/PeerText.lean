import Mtmux.Cli.ApproveChannel
import Mtmux.Cli.TerminalText

/-! A machine's terminal over its whole life: who pairs, connects, is asked about, is listed and removed. -/
namespace Mtmux.Cli
open Protocol

/-- Where a question is put. -/
inductive Surface where
  | panel (secondsLeft width : Nat)
  | terminal
  | window
  | parked

/-- What comes of a socket. A silent one is covered by an earlier answer, or is not asked about. -/
inductive Verdict where
  | silent (ok : Bool)
  | letIn (again : Bool)
  | refused
  | unasked

/-- `peers` is what is stored, `tokens` what the relay knows of the devices whose tokens it takes, `keys` what the
tunnel agent knows of those whose keys it has, and `previous` the labels that were announced last. -/
structure TerminalState where
  peers : List StoredPeer
  tokens : List (String × Option String)
  keys : List (String × String)
  live : List LiveSocket
  previous : List String
  removing : Option (Bool × String)
  flash : Option Line

/-- What the panel draws beside a question. -/
inductive Drawing where
  | list (columns : List (Nat × String))
  | card (row : Nat) (facts : List (String × String))
  | removal
  | rename (row : Nat) (draft : String)

inductive TerminalEvent where
  | dashboardRequest (deviceLabel accountEmail sas : String) (surface : Surface) (approved registered : Bool)
      (deviceId : String)
  | codePairing (ad : String) (surface : Surface) (approved granted registered : Bool) (deviceId : String)
  | localPairing (label : String) (surface : Surface) (approved : Bool) (deviceId : String)
  | arrives (socket : Nat) (deviceId userAgent : Option String) (transport : AccessTransport) (surface : Surface)
      (verdict : Verdict)
  | streams (deviceId : String) (surface : Surface) (verdict : Verdict)
  | leaves (socket : Nat)
  | announces
  | renames (deviceId : String) (name : Option String)
  | removes (deviceId : String)
  | restarts (restored : String → Bool)
  | asksRemoval (row : Nat) (disconnect : Bool)
  | removed (ok : Bool)
  | flashOver
  | draws (drawing : Drawing) (width : Nat)
  | status
  | devices

/-! ### What is said -/

def askedText (asked : Nat) : String :=
  "    Asked the " ++ (if asked = 1 then "device" else toString asked ++ " devices") ++ " already connected — answer there,"

def parkedRequest (req : AccessRequest) (asked : Nat) : List Line :=
  [say "", say "  A browser wants to pair with this machine", say "",
    shown "Device " ⟨.peer, displayLabel req.deviceLabel "unknown device"⟩,
    shown "Account" ⟨.peer, displayLabel req.accountEmail "unknown account"⟩] ++
  (req.digits.toList.map fun sas => shown "Code   " ⟨.machine, formatSas sas⟩) ++ [say ""] ++
  (if 0 < asked then
    [say (askedText asked), say "    or run mtmux approve in another shell. Either way, compare the code."]
  else [say "    Nothing is attached to this terminal, so I cannot ask here.",
    say "    Run mtmux approve in another shell, then compare the code."]) ++ [say ""]

def parkedCode (req : AccessRequest) (asked : Nat) : List Line :=
  [say "", say "  A device just entered this machine's pairing code", say "",
    shown "Device " ⟨.peer, displayLabel req.deviceLabel "unknown device"⟩, say "",
    say (if 0 < asked then askedText asked else "    Nothing is attached to this terminal, so I cannot ask here."),
    say ((if 0 < asked then "    or run " else "    Run ") ++ "mtmux approve in another shell."), say ""]

def parkedReturning (named : Piece) (transport : AccessTransport) : List Line :=
  [say "", say "  A device you know is connecting", say "", shown "Device " named,
    shown "Coming " ⟨.machine, transportText transport⟩, say "",
    say "    Run mtmux approve in another shell to let it in.", say ""]

def questionLines (whose : Origin) (req : AccessRequest) (parked : List Line) : Surface → List Line
  | .panel secondsLeft width => approval whose req secondsLeft (max 40 width)
  | .terminal => renderAccessRequest whose req ++ [say (promptQuestion req)]
  | .window => renderAccessRequest whose (received req.digits req.deviceLabel req.accountEmail) ++
      [say "  Matches what your browser shows? [y/N] "]
  | .parked => parked

def gateOutcome (named : Piece) : Verdict → List Line
  | .silent _ => []
  | .letIn again => [[⟨.machine, "  ✓ "⟩, named, ⟨.machine, " let in."⟩]] ++
      (if again then [say "    Asked every time it comes back."] else [])
  | .refused => [[⟨.machine, "  ✗ Refused "⟩, named, ⟨.machine, ". Nothing was shared."⟩]]
  | .unasked => [[⟨.machine, "  ! Refused "⟩, named, ⟨.machine, ": nothing here to ask on."⟩],
      say "    Start with --trust-reconnect, or mtmux config set reconnectPolicy trust."]

def Verdict.admits : Verdict → Bool
  | .silent ok => ok
  | .letIn _ => true
  | .refused | .unasked => false

def gateLines (named : Piece) (transport : AccessTransport) (surface : Surface) (verdict : Verdict) : List Line :=
  match verdict with
  | .silent _ => []
  | verdict => questionLines named.origin ⟨⟨none, named.text, "", some .returning⟩, some transport⟩
      (parkedReturning named transport) surface ++ gateOutcome named verdict

/-- What is in `a` beyond what is in `b`. -/
def missingFrom : List String → List String → List String
  | [], _ => []
  | item :: a, b => if item ∈ b then missingFrom a (b.erase item) else item :: missingFrom a b

def devicesOnline (count : Nat) : String :=
  if count = 0 then "Nothing is connected now."
  else toString count ++ " device" ++ (if count = 1 then "" else "s") ++ " connected."

def deviceLine (peer : StoredPeer) : Line :=
  let shown := displayLabel peer.displayName "unknown device"
  [⟨.machine, "  ● "⟩, ⟨.peer, shown⟩, ⟨.machine, "  " ++ peer.deviceId⟩] ++
    (if peer.name.getD "" ≠ "" ∧ peer.label ≠ "" ∧ peer.label ≠ shown then
      [⟨.machine, "  ("⟩, ⟨.peer, displayLabel peer.label "unnamed"⟩, ⟨.machine, ")"⟩] else [])

def statusLine (labels : List String) : Line :=
  if labels.isEmpty then say "  Devices  none"
  else ⟨.machine, "  Devices  " ++ toString labels.length ++ "  "⟩ ::
    labels.flatMap fun label => [⟨.peer, label⟩, ⟨.machine, ", "⟩]

/-! ### Steps -/

/-- The label as the relay keeps it with a token that it is told of over HTTP. -/
def registeredLabel (label : String) : Option String :=
  if label = "" then none else some (String.ofList (sliceUnits 128 label.toList))

namespace TerminalState
variable (tests : UserAgentTests)

def labels (s : TerminalState) : List String := s.live.map (LiveSocket.shownLabel tests)

def rows (s : TerminalState) : List NamedRow := buildRows tests s.live s.peers

def nameFor (s : TerminalState) (deviceId : String) : Option String :=
  ((s.peers.find? fun peer => peer.deviceId = deviceId).bind StoredPeer.name).filter (· ≠ "")

/-- The owner's name for the device, else what the device said. -/
def gateName (s : TerminalState) (deviceId label : Option String) : Piece :=
  match deviceId.bind s.nameFor with
  | some name => ⟨.machine, name⟩
  | none =>
    match label.filter (· ≠ "") with
    | some label => ⟨.peer, label⟩
    | none => ⟨.machine, "An unnamed device"⟩

def addPeer (s : TerminalState) (deviceId label : String) : TerminalState :=
  { s with peers := (s.peers.filter fun peer => peer.deviceId ≠ deviceId) ++ [⟨deviceId, label, none⟩] }

def register (s : TerminalState) (deviceId : String) (label : Option String) : TerminalState :=
  { s with tokens := (s.tokens.filter fun token => token.1 ≠ deviceId) ++ [(deviceId, label)] }

def addKeys (s : TerminalState) (deviceId label : String) : TerminalState :=
  { s with keys := (s.keys.filter fun key => key.1 ≠ deviceId) ++ [(deviceId, label)] }

def tokenLabel (s : TerminalState) (deviceId : String) : Option String :=
  (s.tokens.find? fun token => token.1 = deviceId).bind Prod.snd

def onDashboardRequest (s : TerminalState) (deviceLabel accountEmail sas : String) (surface : Surface)
    (approved registered : Bool) (deviceId : String) : TerminalState × List Line :=
  if maxLabelLength < utf16Length deviceLabel ∨ 320 < utf16Length accountEmail then (s, [])
  else
    let label := sanitizeLabel deviceLabel maxLabelLength
    let req : AccessRequest := ⟨⟨some sas, label, accountEmail, none⟩, none⟩
    let asked := questionLines .peer req (parkedRequest req s.live.length) surface
    if !approved then
      (s, asked ++ [[⟨.machine, "    Refused an access request from "⟩, ⟨.peer, accountEmail⟩, ⟨.machine, "."⟩]])
    else if !registered then (s, asked ++ [say "  ✗ Could not register the session. Nothing was shared."])
    else
      (((s.register deviceId (registeredLabel label)).addKeys deviceId label).addPeer deviceId label,
        asked ++ [[⟨.machine, "  ✓ "⟩, ⟨.peer, displayLabel label "A device"⟩, ⟨.machine, " paired."⟩]])

def confirmCodePairing (s : TerminalState) (label : String) (surface : Surface) (approved : Bool) : List Line :=
  let req : AccessRequest := ⟨⟨none, label, "", some .code⟩, none⟩
  questionLines .peer req (parkedCode req s.live.length) surface ++
    (if approved then []
      else [[⟨.machine, "  ✗ Refused "⟩, ⟨.peer, displayLabel label "that device"⟩, ⟨.machine, ". Nothing was shared."⟩]])

def onCodePairing (s : TerminalState) (ad : String) (surface : Surface) (approved granted registered : Bool)
    (deviceId : String) : TerminalState × List Line :=
  if adPeerMax < utf16Length ad then (s, [])
  else
    let peerLabel := if ad = "" then "browser" else ad
    let asked := s.confirmCodePairing peerLabel surface approved
    if !approved then (s, asked)
    else if granted && !registered then (s, asked ++ [say "  ✗ Could not register the share. Nothing was shared."])
    else
      let known := if registered then s.register deviceId (registeredLabel peerLabel) else s
      ((known.addKeys deviceId peerLabel).addPeer deviceId peerLabel,
        asked ++ [[⟨.machine, "  ✓ Paired with "⟩, ⟨.peer, peerLabel⟩, ⟨.machine, "."⟩]])

def onLocalPairing (s : TerminalState) (label : String) (surface : Surface) (approved : Bool) (deviceId : String) :
    TerminalState × List Line :=
  let clean := sanitizeLabel label 80
  let asked := s.confirmCodePairing clean surface approved
  if approved then (s.register deviceId (if clean = "" then none else some clean), asked) else (s, asked)

def onArrival (s : TerminalState) (socket : Nat) (deviceId userAgent : Option String) (transport : AccessTransport)
    (surface : Surface) (verdict : Verdict) : TerminalState × List Line :=
  let label := deviceId.bind s.tokenLabel
  (if verdict.admits then { s with live := s.live ++ [⟨socket, deviceId, label, userAgent⟩] } else s,
    gateLines (s.gateName deviceId label) transport surface verdict)

def onStream (s : TerminalState) (deviceId : String) (surface : Surface) (verdict : Verdict) : TerminalState × List Line :=
  match s.keys.find? fun key => key.1 = deviceId with
  | none => (s, [])
  | some key => (s, gateLines (s.gateName (some deviceId) (some key.2)) .tunnel surface verdict)

def onAnnounce (s : TerminalState) : TerminalState × List Line :=
  let current := s.labels tests
  let arrived := missingFrom current s.previous
  let departed := missingFrom s.previous current
  ({ s with previous := current },
    if arrived.isEmpty && departed.isEmpty then []
    else
      (arrived.map fun label => [⟨.machine, "  ✓ "⟩, ⟨.peer, label⟩, ⟨.machine, " connected."⟩]) ++
      (departed.map fun label => [⟨.machine, "  · "⟩, ⟨.peer, label⟩, ⟨.machine, " disconnected."⟩]) ++
      [say ("    " ++ devicesOnline current.length), say ""])

def drawing (s : TerminalState) (width : Nat) : Drawing → List Line
  | .list columns =>
    [rule width] ++ (((s.rows tests).take 8).zip columns).map (fun row => rowLine row.1 row.2.1 row.2.2) ++
      (s.flash.toList.map fun flash => ⟨.machine, " "⟩ :: flash)
  | .card row facts =>
    match (s.rows tests)[row]? with
    | none => [rule width, say " That device has gone"]
    | some row => detailCard row facts width
  | .removal => s.removing.toList.flatMap fun removing => confirmLines removing.1 removing.2 width
  | .rename row draft =>
    match (s.rows tests)[row]? with
    | none => []
    | some row => renameLines row.name draft width

def step (s : TerminalState) : TerminalEvent → TerminalState × List Line
  | .dashboardRequest deviceLabel accountEmail sas surface approved registered deviceId =>
    s.onDashboardRequest deviceLabel accountEmail sas surface approved registered deviceId
  | .codePairing ad surface approved granted registered deviceId =>
    s.onCodePairing ad surface approved granted registered deviceId
  | .localPairing label surface approved deviceId => s.onLocalPairing label surface approved deviceId
  | .arrives socket deviceId userAgent transport surface verdict =>
    s.onArrival socket deviceId userAgent transport surface verdict
  | .streams deviceId surface verdict => s.onStream deviceId surface verdict
  | .leaves socket => ({ s with live := s.live.filter fun live => live.id ≠ socket }, [])
  | .announces => s.onAnnounce tests
  | .renames deviceId name =>
    ({ s with peers := s.peers.map fun peer => if peer.deviceId = deviceId then { peer with name := name } else peer }, [])
  | .removes deviceId =>
    ({ s with
        peers := s.peers.filter fun peer => peer.deviceId ≠ deviceId
        tokens := s.tokens.filter fun token => token.1 ≠ deviceId
        keys := s.keys.filter fun key => key.1 ≠ deviceId }, [])
  | .restarts restored =>
    let back := s.peers.filter fun peer => restored peer.deviceId
    ({ peers := s.peers
       tokens := back.map fun peer => (peer.deviceId, (some peer.label).filter (· ≠ ""))
       keys := back.map fun peer => (peer.deviceId, peer.label)
       live := []
       previous := []
       removing := none
       flash := none }, [])
  | .asksRemoval row disconnect =>
    ({ s with removing := (s.rows tests)[row]?.map fun row => (disconnect, row.name) }, [])
  | .removed ok =>
    ({ s with
        removing := none
        flash := s.removing.map fun removing => removalFlash removing.1 ok removing.2 }, [])
  | .flashOver => ({ s with flash := none }, [])
  | .draws drawing width => (s, s.drawing tests (max 40 width) drawing)
  | .status => (s, [statusLine (s.labels tests)])
  | .devices => (s, s.peers.map deviceLine)

def fresh : TerminalState := ⟨[], [], [], [], [], none, none⟩

end TerminalState

/-- A machine on which nobody has paired yet. -/
def terminal (tests : UserAgentTests) : Machine TerminalState TerminalEvent Line :=
  ⟨.fresh, TerminalState.step tests⟩

end Mtmux.Cli
