import Mtmux.Relay.Handlers

/-! What there is to see on a tmux server, and what a command makes of it. Windows and panes are a group's, and every
session of the group shows them; a mode, with its scroll position, is a pane's. -/
namespace Mtmux.Relay
open Protocol

structure Screen where
  sessions : List String
  group : String → String
  windows : String → List WindowInfo
  panes : String → List PaneInfo
  window : String → String
  front : String → String
  mode : String → Option Nat
  typed : String → List String

/-- What tmux decides by itself when it carries a command out. -/
structure Turn where
  name : String
  windows : List WindowInfo
  panes : List PaneInfo
  window : String
  front : String
  mode : Option Nat

namespace Screen

def opened (s : Screen) (name group : String) (x : Turn) : Screen :=
  if name ∈ s.sessions then s
  else
    { s with
      sessions := s.sessions ++ [name]
      group := Function.update s.group name group
      window := Function.update s.window name x.window
      front := Function.update s.front name x.front }

def renamed (s : Screen) (hit newName : String) : Screen :=
  { s with
    sessions := s.sessions.map fun name => if name = hit then newName else name
    group := Function.update s.group newName (s.group hit)
    window := Function.update s.window newName (s.window hit)
    front := Function.update s.front newName (s.front hit) }

def scrolled (s : Screen) (hit : String) (x : Turn) : Screen :=
  { s with mode := Function.update s.mode (s.front hit) x.mode }

def input (s : Screen) (hit : String) (keys : List String) : Screen :=
  { s with typed := Function.update s.typed (s.front hit) (s.typed (s.front hit) ++ keys) }

/-- The windows and panes of the group are other ones, or lie elsewhere, and another one is in front. -/
def relaid (s : Screen) (hit : String) (x : Turn) : Screen :=
  { s with
    windows := Function.update s.windows (s.group hit) x.windows
    panes := Function.update s.panes (s.group hit) x.panes
    window := Function.update s.window hit x.window
    front := Function.update s.front hit x.front }

/-- A client that only reads gives no input, and its size counts for nothing. -/
def acted (s : Screen) (hit : String) (x : Turn) : Action → Screen
  | .hasSession | .setOption .. | .capturePane .. | .listWindows | .listPanes | .currentWindow | .zoomFlags
  | .scrollState | .panePipe | .pipePane _ => s
  | .attachSession _ readOnly => if readOnly then s else s.relaid hit x
  | .sendKeys keys => if keys.head? = some "-X" then s.scrolled hit x else s.input hit keys
  | .sendPrefix => s.input hit ["prefix"]
  | .copyMode _ => s.scrolled hit x
  | .nextWindow | .previousWindow | .selectPane _ | .splitWindow _ | .resizeZoom | .resizePane .. | .killPane
  | .swapPane _ | .newWindow _ | .selectWindow | .killWindow | .renameWindow _ | .selectLayout _ | .rotateWindow =>
    s.relaid hit x

def after (s : Screen) (hit : String) (x : Turn) : TmuxCommand → Screen
  | .listSessions | .listCommands => s
  | .newSession name _ _ => s.opened (name.getD x.name) (name.getD x.name) x
  | .groupSession _ name => s.opened name (s.group hit) x
  | .killSession _ => { s with sessions := s.sessions.filter (· ≠ hit) }
  | .renameSession _ newName => s.renamed hit newName
  | .on _ action => s.acted hit x action

end Screen

/-- Nothing is put into a pane, none changes its mode, and all sessions but one's own are there and show what they
have shown. -/
structure Untouched (own : String → Prop) (s s' : Screen) : Prop where
  typed : s'.typed = s.typed
  mode : s'.mode = s.mode
  windows : s'.windows = s.windows
  panes : s'.panes = s.panes
  sessions : ∀ name, ¬ own name → (name ∈ s'.sessions ↔ name ∈ s.sessions)
  shows : ∀ name, ¬ own name → s'.group name = s.group name ∧ s'.window name = s.window name ∧
    s'.front name = s.front name

section Untouched
variable {own : String → Prop} {s : Screen} {hit : String} {x : Turn}

theorem untouched_refl (s : Screen) : Untouched own s s :=
  ⟨rfl, rfl, rfl, rfl, fun _ _ => Iff.rfl, fun _ _ => ⟨rfl, rfl, rfl⟩⟩

theorem after_reading {c : TmuxCommand} (h : reading (.tmux c) = true) : s.after hit x c = s := by
  cases c with
  | listSessions | listCommands => rfl
  | on target action =>
    cases action with
    | hasSession | capturePane | listWindows | listPanes | currentWindow | zoomFlags | scrollState | panePipe => rfl
    | _ => cases h
  | _ => cases h

theorem untouched_opened {name : String} (hown : own name) (group : String) :
    Untouched own s (s.opened name group x) := by
  unfold Screen.opened
  split
  · exact untouched_refl s
  · refine ⟨rfl, rfl, rfl, rfl, fun other hother => ?_, fun other hother => ?_⟩
    · have hne : other ≠ name := fun h => hother (h ▸ hown)
      simp [hne]
    · have hne : other ≠ name := fun h => hother (h ▸ hown)
      simp [Function.update_of_ne hne]

theorem untouched_killed (hown : own hit) {target : String} : Untouched own s (s.after hit x (.killSession target)) := by
  refine ⟨rfl, rfl, rfl, rfl, fun other hother => ?_, fun _ _ => ⟨rfl, rfl, rfl⟩⟩
  have hne : other ≠ hit := fun h => hother (h ▸ hown)
  change other ∈ s.sessions.filter (· ≠ hit) ↔ other ∈ s.sessions
  simp [hne]

end Untouched

end Mtmux.Relay
