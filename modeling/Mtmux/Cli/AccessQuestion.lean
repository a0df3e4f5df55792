import Mtmux.Cli.AccessPrompt
import Mtmux.Cli.ConnectionGate
import Mtmux.Protocol.DisplayLabel

/-! What a human is shown when a device wants in. -/
namespace Mtmux.Cli
open Protocol List

/-- Who wrote a text: the machine or its owner, or a peer. -/
inductive Origin where
  | machine | peer
  deriving DecidableEq

/-- A piece of a line. -/
structure Piece where
  origin : Origin
  text : String
  deriving DecidableEq

abbrev Line : Type := List Piece

def say (text : String) : Line := [⟨.machine, text⟩]

def Piece.Tame (piece : Piece) : Prop := piece.origin = .peer → Harmless piece.text

/-- No peer draws on this line. -/
def Tame (line : Line) : Prop := ∀ piece ∈ line, piece.Tame

/-- The request as the prompt gets it. Nobody else looks at how the device reached the machine. -/
structure AccessRequest extends AccessPromptInput where
  transport : Option AccessTransport

def transportText : AccessTransport → String
  | .tunnel => "over the sealed tunnel, from anywhere"
  | .lan => "from this network"
  | .loopback => "from this machine"

def formatSas (sas : String) : String :=
  String.ofList (sas.toList.take 3) ++ " " ++ String.ofList (sas.toList.drop 3)

/-- A field of the question. -/
def shown (label : String) (piece : Piece) : Line := [⟨.machine, "    " ++ label ++ "  "⟩, piece]

section Questions
variable (whose : Origin)

def renderReturningDevice (label : String) (transport : Option AccessTransport) : List Line :=
  [say "", say "  A device you paired earlier is connecting", say "",
    shown "Device" ⟨whose, if label = "" then "unknown device" else label⟩] ++
  (transport.toList.map fun transport => shown "Coming" ⟨.machine, transportText transport⟩) ++
  [say "", say "    Say no if you are not the one opening it right now.", say ""]

def renderCodePairing (req : AccessPromptInput) : List Line :=
  [say "", say "  A device just entered this machine's pairing code", say "",
    shown "Device " ⟨whose, displayLabel req.deviceLabel "unknown device"⟩] ++
  (if req.accountEmail = "" then [] else [shown "Account" ⟨.peer, displayLabel req.accountEmail ""⟩]) ++
  [say "", say "    Only say yes if that is you, on a device you are holding.", say ""]

def AccessPromptInput.digits (req : AccessPromptInput) : Option String := req.sas.filter (· ≠ "")

def renderAccessRequest (req : AccessRequest) : List Line :=
  if req.via = some .returning then renderReturningDevice whose req.deviceLabel req.transport
  else
    match req.digits with
    | none => renderCodePairing whose req.toAccessPromptInput
    | some sas =>
      [say "", say "  A browser wants to pair with this machine", say "",
        shown "Device " ⟨whose, displayLabel req.deviceLabel "unknown device"⟩,
        shown "Account" ⟨.peer, displayLabel req.accountEmail "unknown account"⟩,
        shown "Code   " ⟨.machine, formatSas sas⟩, say ""]

def promptQuestion (req : AccessRequest) : String :=
  if req.via = some .returning then "  Let it reconnect? [y/N] "
  else if req.digits.isSome then "  Matches what your browser shows? [y/N] "
  else "  Let it in? [y/N] "

end Questions

theorem tame_say (text : String) : Tame (say text) := by
  intro piece hpiece horigin
  rw [mem_singleton.1 hpiece] at horigin
  cases horigin

theorem tame_nil : Tame [] := fun _ h => by cases h

theorem tame_shown (label : String) {piece : Piece} (h : piece.Tame) : Tame (shown label piece) := by
  intro other hother
  cases mem_cons.1 hother with
  | inl hlabel =>
    rw [hlabel]
    exact fun horigin => by cases horigin
  | inr hpiece =>
    rw [mem_singleton.1 hpiece]
    exact h

end Mtmux.Cli
