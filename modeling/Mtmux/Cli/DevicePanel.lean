import Mtmux.Base.Text
import Mtmux.Cli.AccessPrompt

/-! The live panel at the bottom of the terminal: its rows, its modes and the questions that it asks. -/
namespace Mtmux.Cli

def approvalWindowMs : Nat := 110000
def maxNameInput : Nat := 32

/-- A live connection, a trusted device, or both. -/
structure PanelRow where
  key : String
  name : String
  deviceId : Option String
  liveId : Option String

inductive RemoveAction where
  | remove
  | disconnect
  | removeAll

inductive PanelMode where
  | list
  | help
  | details (key : String)
  | confirm (action : RemoveAction) (deviceId connectionId : Option String) (label : String) (count : Nat)
  | rename (deviceId label draft : String)
  | approval (call : Nat) (req : AccessPromptInput) (expiresAt : Nat)

/-- What is said under the table after an action. -/
inductive PanelFlash where
  | arming
  | asking (next : Bool)
  | notRenamed
  | renamed (name : String)
  | nameCleared
  | opening
  | notOpened (failure : String)
  | removedAll (count : Nat)
  | nothingLeft
  | hungUp (label : String)
  | alreadyGone (label : String)
  | removed (label : String)
  | notRemoved (label : String)

/-- What the panel waits for. -/
inductive PanelOperation where
  | toggleAsk (next : Bool)
  | rename (name : String)
  | openTunnel
  | remove (action : RemoveAction) (label : String)

/-- How an operation turns out. -/
structure PanelResult where
  ok : Bool
  count : Nat
  failure : Option String

/-- What the panel was given to work with. -/
structure PanelDeps where
  disconnect : Bool
  revoke : Bool
  removeAll : Bool
  rename : Bool
  askOnReconnect : Bool
  rearm : Bool
  openTunnel : Bool

/-- What the machine tells the panel whenever it is drawn. `connected` counts the live connections. -/
structure PanelView where
  rows : List PanelRow
  connected : Nat
  hosted : Bool
  askOnReconnect : Bool

/-- `screen` is what has been drawn last, and is nothing once the panel has stopped. `asked` counts the calls of
`promptForAccess`, `aborted` has those whose signal is aborted. -/
structure DevicePanel where
  view : PanelView
  now : Nat
  cursor : Int
  mode : PanelMode
  screen : Option PanelMode
  flash : Option PanelFlash
  opening : Bool
  tick : Bool
  stopped : Bool
  answering : Option Nat
  operations : List PanelOperation
  asked : Nat
  aborted : List Nat

inductive PanelEvent where
  | prompt (req : AccessPromptInput) (aborted : Bool)
  | abort (call : Nat)
  | key (raw : String)
  | interrupt
  | stop
  | tick
  | flashOver
  | changed (view : PanelView) (announced : Bool)
  | finish (operation : Nat) (result : PanelResult)
  | redraw
  | wait (ms : Nat)

structure Settled where
  call : Nat
  result : AccessPromptResult

def keyUp : String := "\x1b[A"
def keyDown : String := "\x1b[B"
def keyEnter : String := "\r"
def keyEscape : String := "\x1b"

/-- The key's letter, as `toLowerCase` gives it. -/
def lowered (raw : String) : String := String.ofList (raw.toList.map Char.toLower)

def clamp (cursor : Int) (length : Nat) : Nat := if length = 0 then 0 else min cursor.toNat (length - 1)

namespace DevicePanel
variable (deps : PanelDeps)

abbrev Stepped : Type := DevicePanel × List Settled

def selected (s : DevicePanel) : Option PanelRow := s.view.rows[clamp s.cursor s.view.rows.length]?

/-- Does anything on the screen depend on the clock? -/
def needsTick (s : DevicePanel) : Bool :=
  match s.mode with
  | .approval .. | .details _ => true
  | .list => decide (0 < s.view.connected)
  | _ => false

def paint (s : DevicePanel) : DevicePanel :=
  if s.stopped then s else { s with screen := some s.mode, tick := s.needsTick }

def setMode (mode : PanelMode) (s : DevicePanel) : DevicePanel := { s with mode := mode }.paint

def setFlash (flash : PanelFlash) (s : DevicePanel) : DevicePanel := { s with flash := some flash }.paint

def clearFlash (s : DevicePanel) : DevicePanel := { s with flash := none }.paint

def settle (result : AccessPromptResult) : Option Nat → List Settled
  | none => []
  | some call => [⟨call, result⟩]

/-- The question comes down, and its promise is settled. -/
def answer (result : AccessPromptResult) (s : DevicePanel) : Stepped :=
  ({ s with answering := none }.setMode .list, settle result s.answering)

/-- A question still on screen is abandoned, not answered. -/
def stop (s : DevicePanel) : Stepped :=
  if s.stopped then (s, [])
  else ({ s with stopped := true, screen := none, answering := none }, settle .noTty s.answering)

/-! ### Keys -/

def begin (operation : PanelOperation) (s : DevicePanel) : DevicePanel :=
  { s with operations := s.operations ++ [operation] }

def toggleAsk (s : DevicePanel) : DevicePanel :=
  if deps.askOnReconnect then s.begin (.toggleAsk (!s.view.askOnReconnect)) else s

def doOpenTunnel (s : DevicePanel) : DevicePanel :=
  if s.view.hosted || !deps.openTunnel || s.opening then s
  else ({ s with opening := true }.setFlash .opening).begin .openTunnel

def openDetails (s : DevicePanel) : DevicePanel :=
  match s.selected with
  | none => s
  | some row => s.setMode (.details row.key)

def openRename (s : DevicePanel) : DevicePanel :=
  match s.selected.bind fun row => row.deviceId.map fun deviceId => (deviceId, row.name) with
  | none => s
  | some (deviceId, name) => if deps.rename then s.setMode (.rename deviceId name "") else s

def askRemove (s : DevicePanel) : DevicePanel :=
  match s.selected with
  | none => s
  | some row =>
    match row.deviceId, row.liveId with
    | some deviceId, liveId =>
      if deps.revoke then s.setMode (.confirm .remove (some deviceId) liveId row.name 0)
      else
        match liveId with
        | none => s
        | some live =>
          if deps.disconnect then s.setMode (.confirm .disconnect none (some live) row.name 0) else s
    | none, some live =>
      if deps.disconnect then s.setMode (.confirm .disconnect none (some live) row.name 0) else s
    | none, none => s

def askRemoveAll (s : DevicePanel) : DevicePanel :=
  if !deps.removeAll || s.view.rows.isEmpty then s
  else s.setMode (.confirm .removeAll none none "" s.view.rows.length)

/-- The table is not drawn again before the removal is done. -/
def doRemove (action : RemoveAction) (label : String) (s : DevicePanel) : DevicePanel :=
  { s with mode := .list }.begin (.remove action label)

def onRenameKey (raw deviceId label draft : String) (s : DevicePanel) : DevicePanel :=
  if raw = keyEscape then s.setMode .list
  else if raw = keyEnter then { s with mode := .list }.begin (.rename (trimmed draft))
  else if raw = "\x7f" ∨ raw = "\x08" then s.setMode (.rename deviceId label (String.ofList draft.toList.dropLast))
  else if raw.toList.any fun c => decide (c.val ≤ 0x1F) then s
  else if maxNameInput ≤ draft.length then s
  else s.setMode (.rename deviceId label (draft ++ raw))

/-- The card names its keys, so that those work from inside it. The row that is found is looked for again among rows
that are made anew, and never is among them: the cursor goes before the first one. -/
def onDetailsKey (raw key : String) (s : DevicePanel) : DevicePanel :=
  match s.view.rows.find? fun row => row.key = key with
  | none =>
    let closed : DevicePanel := { s with mode := .list }
    if lowered raw = "r" ∨ lowered raw = "c" then closed.askRemove deps else closed.paint
  | some target =>
    let closed : DevicePanel := { s with mode := .list, cursor := -1 }
    if lowered raw = "r" ∨ lowered raw = "c" then closed.askRemove deps
    else if lowered raw = "e" ∧ target.deviceId.isSome then closed.openRename deps
    else closed.paint

def onListKey (raw : String) (s : DevicePanel) : Stepped :=
  let length := s.view.rows.length
  if raw = keyUp then ({ s with cursor := clamp (s.cursor - 1) length }.paint, [])
  else if raw = keyDown then ({ s with cursor := clamp (s.cursor + 1) length }.paint, [])
  else if raw = keyEnter then (s.openDetails, [])
  else
    match lowered raw with
    | "?" | "h" => (s.setMode .help, [])
    | "q" => s.stop
    | "l" => (s.paint, [])
    | "n" => (if s.view.hosted && deps.rearm then s.setFlash .arming else s, [])
    | "a" => (s.toggleAsk deps, [])
    | "t" => (s.doOpenTunnel deps, [])
    | "d" => (s.openDetails, [])
    | "e" => (s.openRename deps, [])
    | "r" | "c" => (s.askRemove deps, [])
    | "x" => (s.askRemoveAll deps, [])
    | _ => (s, [])

/-- Only y and n answer a question; every other key is ignored. -/
def onKey (raw : String) (s : DevicePanel) : Stepped :=
  if s.stopped then (s, [])
  else
    match s.mode with
    | .approval .. =>
      if lowered raw = "y" then s.answer .approved
      else if lowered raw = "n" then s.answer .refused
      else (s, [])
    | .help => (s.setMode .list, [])
    | .rename deviceId label draft => (s.onRenameKey raw deviceId label draft, [])
    | .details key => (s.onDetailsKey deps raw key, [])
    | .confirm action _ _ label _ =>
      (if lowered raw = "y" then s.doRemove action label
        else if lowered raw = "n" ∨ raw = keyEscape then s.setMode .list
        else s, [])
    | .list => s.onListKey deps raw

/-! ### Operations -/

def finish (s : DevicePanel) (result : PanelResult) : PanelOperation → DevicePanel
  | .toggleAsk next => s.setFlash (.asking next)
  | .rename name => s.setFlash (if !result.ok then .notRenamed else if name = "" then .nameCleared else .renamed name)
  | .openTunnel =>
    let closed : DevicePanel := { s with opening := false }
    match result.failure with
    | none => closed.clearFlash
    | some failure => if failure = "" then closed.clearFlash else closed.setFlash (.notOpened failure)
  | .remove .removeAll _ =>
    { s with cursor := 0 }.setFlash (if 0 < result.count then .removedAll result.count else .nothingLeft)
  | .remove .disconnect label => s.setFlash (if result.ok then .hungUp label else .alreadyGone label)
  | .remove .remove label => s.setFlash (if result.ok then .removed label else .notRemoved label)

/-! ### Questions -/

/-- `promptForAccess`: the question is drawn over whatever there is. -/
def promptForAccess (req : AccessPromptInput) (aborted : Bool) (s : DevicePanel) : Stepped :=
  if s.stopped then ({ s with asked := s.asked + 1 }, [⟨s.asked, .noTty⟩])
  else
    let asking : DevicePanel :=
      { s with
        asked := s.asked + 1
        answering := some s.asked
        mode := .approval s.asked req (s.now + approvalWindowMs) }
    if aborted then
      let answered := { asking with aborted := s.asked :: s.aborted }.answer .noTty
      (answered.1.paint, answered.2)
    else (asking.paint, [])

/-- The question has been answered somewhere else. A signal is aborted once. -/
def abort (call : Nat) (s : DevicePanel) : Stepped :=
  if s.asked ≤ call ∨ call ∈ s.aborted then (s, [])
  else if s.answering = some call then { s with aborted := call :: s.aborted }.answer .noTty
  else ({ s with aborted := call :: s.aborted }, [])

/-- The repaint once a second: a countdown at zero is a no. -/
def onTick (s : DevicePanel) : Stepped :=
  if !s.tick || s.stopped then (s, [])
  else
    match s.mode with
    | .approval _ _ expiresAt => if expiresAt ≤ s.now then s.answer .timeout else ({ s with screen := some s.mode }, [])
    | _ => ({ s with screen := some s.mode }, [])

def step (s : DevicePanel) : PanelEvent → Stepped
  | .prompt req aborted => s.promptForAccess req aborted
  | .abort call => s.abort call
  | .key raw => s.onKey deps raw
  | .interrupt => s.stop
  | .stop => s.stop
  | .tick => s.onTick
  | .flashOver => (if s.stopped then s else s.clearFlash, [])
  | .changed view announced => (if announced then { s with view := view }.paint else { s with view := view }, [])
  | .finish n result =>
    match s.operations[n]? with
    | none => (s, [])
    | some operation => ({ s with operations := s.operations.eraseIdx n }.finish result operation, [])
  | .redraw => (if s.stopped then s else { s with screen := some s.mode }, [])
  | .wait ms => ({ s with now := s.now + ms }, [])

def start (view : PanelView) : DevicePanel :=
  DevicePanel.paint
    { view := view
      now := 0
      cursor := 0
      mode := .list
      screen := none
      flash := none
      opening := false
      tick := false
      stopped := false
      answering := none
      operations := []
      asked := 0
      aborted := [] }

end DevicePanel

def devicePanel (deps : PanelDeps) (view : PanelView) : Machine DevicePanel PanelEvent Settled :=
  ⟨.start view, DevicePanel.step deps⟩

end Mtmux.Cli
