import Mtmux.Cli.DevicePanel
import Mtmux.Cli.TerminalText

/-! The rows of the panel and their keys, the marker that is drawn, and the row that a key acts on. -/
namespace Mtmux.Cli.PanelRows
open Protocol List

/-- Rows the table gives to devices. -/
def maxRows : Nat := 8

structure PanelPeer extends StoredPeer where
  lastSeenAt : Nat

structure ConnectedDevice where
  id : Option String
  deviceId : Option String
  label : String

/-- A key that is taken gets the socket's id behind it. `taken` is a set. -/
def unique (taken : List String) (base : String) (socketId : Option String) : String :=
  if base ∈ taken then base ++ "#" ++ socketId.getD (toString taken.length) else base

/-- Rows that have their bases for keys get their keys. -/
def withKeys (taken : List String) : List PanelRow → List PanelRow
  | [] => []
  | row :: rest =>
    let key := unique taken row.key row.liveId
    { row with key := key } :: withKeys (taken.insert key) rest

/-- No key that is made of a taken one is taken itself. -/
def clashFree (taken : List String) : List PanelRow → Bool
  | [] => true
  | row :: rest =>
    let key := unique taken row.key row.liveId
    decide (key ∉ taken) && clashFree (taken.insert key) rest

/-- The connected devices and the paired peers at one moment. -/
structure Devices where
  live : List ConnectedDevice
  peers : List PanelPeer

namespace Devices

/-- A map made of the peers has the last of those with the id. -/
def peerOf (s : Devices) (live : ConnectedDevice) : Option PanelPeer :=
  s.peers.reverse.find? fun peer => live.deviceId = some peer.deviceId ∧ peer.deviceId ≠ ""

def liveRow (s : Devices) (n : Nat) (live : ConnectedDevice) : PanelRow :=
  { key := (live.deviceId <|> live.id).getD ("socket-" ++ toString n)
    name := match s.peerOf live with
      | some peer => peer.panelName
      | none => sanitizeLabel live.label maxLabelLength
    deviceId := live.deviceId
    liveId := live.id }

def offlineRow (peer : PanelPeer) : PanelRow :=
  { key := peer.deviceId, name := peer.panelName, deviceId := some peer.deviceId, liveId := none }

def offline (s : Devices) : List PanelPeer :=
  let seen := s.live.filterMap fun live => (s.peerOf live).map (·.deviceId)
  (s.peers.filter fun peer => peer.deviceId ∉ seen).insertionSort fun a b => b.lastSeenAt ≤ a.lastSeenAt

/-- Connected first, then everything else the machine trusts, oldest contact last. -/
def bareRows (s : Devices) : List PanelRow := s.live.mapIdx s.liveRow ++ s.offline.map offlineRow

def buildRows (s : Devices) : List PanelRow := withKeys [] s.bareRows

end Devices

theorem nodup_withKeys_iff (rows : List PanelRow) (taken : List String) :
    ((withKeys taken rows).map PanelRow.key).Nodup ∧ (∀ key ∈ (withKeys taken rows).map PanelRow.key, key ∉ taken) ↔
      clashFree taken rows = true := by
  induction rows generalizing taken with
  | nil => simp [withKeys, clashFree]
  | cons row rest ih =>
    simp only [withKeys, clashFree, Bool.and_eq_true, decide_eq_true_eq, ← ih, map_cons, nodup_cons,
      mem_cons, mem_insert_iff]
    grind

/-! ### What is drawn, and what a key acts on -/

/-- The panel, and the devices it is about. -/
structure Host where
  devices : Devices
  panel : DevicePanel

inductive HostEvent where
  | devices (devices : Devices) (hosted askOnReconnect announced : Bool)
  | panel (e : PanelEvent)

inductive RemoveCall where
  | revoke (deviceId : String)
  | disconnect (connectionId : String)
  | removeAll

def Devices.view (s : Devices) (hosted askOnReconnect : Bool) : PanelView :=
  ⟨s.buildRows, s.live.length, hosted, askOnReconnect⟩

namespace Host
variable (deps : PanelDeps)

def start (devices : Devices) (hosted askOnReconnect : Bool) : Host :=
  ⟨devices, .start (devices.view hosted askOnReconnect)⟩

/-- The panel's own events have no other view to tell. -/
def step (s : Host) : HostEvent → Host
  | .devices devices hosted askOnReconnect announced =>
    ⟨devices, (s.panel.step deps (.changed (devices.view hosted askOnReconnect) announced)).1⟩
  | .panel (.changed _ _) => s
  | .panel e => ⟨s.devices, (s.panel.step deps e).1⟩

def run (s : Host) (es : List HostEvent) : Host := es.foldl (step deps) s

/-- The row of the table with the marker. -/
def marked (s : Host) : Option PanelRow :=
  let shown := s.panel.view.rows.take maxRows
  shown[clamp (clamp s.panel.cursor s.panel.view.rows.length) shown.length]?

/-- No two rows have one key, and the marker is on the row that a key acts on. -/
structure Truthful (s : Host) : Prop where
  distinct : (s.panel.view.rows.map PanelRow.key).Nodup
  marked : s.marked = s.panel.selected

/-- The cursor is among the rows that are drawn. -/
def Fits (s : Host) : Prop :=
  clashFree [] s.devices.bareRows = true ∧ clamp s.panel.cursor s.panel.view.rows.length < maxRows

end Host

theorem clamp_le (cursor : Int) (length : Nat) : clamp cursor length ≤ length - 1 := by
  unfold clamp
  split <;> omega

/-- A cursor beyond the drawn rows has the marker on the last of them. -/
theorem Host.marked_eq (s : Host) :
    s.marked = s.panel.view.rows[min (clamp s.panel.cursor s.panel.view.rows.length) (maxRows - 1)]? := by
  simp only [Host.marked, length_take, List.getElem?_take]
  grind [clamp, maxRows]

variable {s : Host}

theorem Host.truthful_iff (hrows : s.panel.view.rows = s.devices.buildRows) : s.Truthful ↔ s.Fits := by
  have hkeys : (s.panel.view.rows.map PanelRow.key).Nodup ↔ clashFree [] s.devices.bareRows = true := by
    rw [hrows, Devices.buildRows, ← nodup_withKeys_iff]
    simp
  have hle := clamp_le s.panel.cursor s.panel.view.rows.length
  constructor
  · intro h
    refine ⟨hkeys.1 h.distinct, ?_⟩
    by_contra hfar
    rw [maxRows] at hfar
    have hplace := h.marked
    rw [Host.marked_eq, DevicePanel.selected, maxRows] at hplace
    have hsame : min (clamp s.panel.cursor s.panel.view.rows.length) (8 - 1) =
        clamp s.panel.cursor s.panel.view.rows.length :=
      (List.getElem?_inj (by omega) (List.Nodup.of_map _ h.distinct)).1 hplace
    omega
  · rintro ⟨hclash, hnear⟩
    rw [maxRows] at hnear
    refine ⟨hkeys.2 hclash, ?_⟩
    rw [Host.marked_eq, DevicePanel.selected, maxRows, Nat.min_eq_left (by omega)]

/-! ### Removals -/

/-- The question that the panel puts about a row. -/
def question (deps : PanelDeps) (row : PanelRow) : Option PanelMode :=
  match row.deviceId, row.liveId, deps.revoke, deps.disconnect with
  | some deviceId, liveId, true, _ => some (.confirm .remove (some deviceId) liveId row.name 0)
  | _, some live, _, true => some (.confirm .disconnect none (some live) row.name 0)
  | _, _, _, _ => none

theorem askRemove_eq (deps : PanelDeps) (s : DevicePanel) : s.askRemove deps =
    match s.selected.bind (question deps) with
    | none => s
    | some mode => s.setMode mode := by
  unfold DevicePanel.askRemove
  cases s.selected with
  | none => rfl
  | some row =>
    obtain ⟨key, name, deviceId, liveId⟩ := row
    cases deviceId <;> cases liveId <;> cases hrevoke : deps.revoke <;> cases hdisconnect : deps.disconnect <;>
      simp [question, hrevoke, hdisconnect]

/-- What is called when the key y answers the question. -/
def calls : PanelMode → List RemoveCall
  | .confirm .removeAll .. => [.removeAll]
  | .confirm .disconnect _ connectionId _ _ => connectionId.toList.map .disconnect
  | .confirm .remove deviceId _ _ _ => deviceId.toList.map .revoke
  | _ => []

/-- What is called is about the row. -/
def RemoveCall.ActsOn (row : PanelRow) : RemoveCall → Prop
  | .revoke deviceId => row.deviceId = some deviceId
  | .disconnect connectionId => row.liveId = some connectionId
  | .removeAll => True

/-- The question has the row's name. -/
def Names (row : PanelRow) : PanelMode → Prop
  | .confirm _ _ _ label _ => label = row.name
  | _ => False

theorem actsOn_of_question {deps : PanelDeps} {row : PanelRow} {mode : PanelMode} {call : RemoveCall}
    (h : question deps row = some mode) (hcall : call ∈ calls mode) : Names row mode ∧ call.ActsOn row := by
  unfold question at h
  split at h
  · cases h
    cases mem_singleton.1 hcall
    exact ⟨rfl, ‹_›⟩
  · cases h
    cases mem_singleton.1 hcall
    exact ⟨rfl, ‹_›⟩
  · cases h

/-- The step leaves the view, and puts no question but about the selected row. -/
structure Puts (deps : PanelDeps) (s t : DevicePanel) : Prop where
  view : t.view = s.view
  mode : t.mode = s.mode ∨ (∀ call ∈ calls t.mode, call = .removeAll) ∨
    ∃ row, t.selected = some row ∧ question deps row = some t.mode

section
variable {deps : PanelDeps} {s : DevicePanel}

@[simp] theorem paint_view : s.paint.view = s.view := by
  unfold DevicePanel.paint
  split <;> rfl

@[simp] theorem paint_mode : s.paint.mode = s.mode := by
  unfold DevicePanel.paint
  split <;> rfl

@[simp] theorem paint_cursor : s.paint.cursor = s.cursor := by
  unfold DevicePanel.paint
  split <;> rfl

variable {t : DevicePanel}

theorem selected_of_eq (hview : t.view = s.view) (hcursor : t.cursor = s.cursor) :
    t.selected = s.selected := by
  rw [DevicePanel.selected, DevicePanel.selected, hview, hcursor]

/-- The list comes back, maybe with the cursor elsewhere, and the row under it is asked about. -/
theorem puts_askRemove (hview : t.view = s.view)
    (hmode : t.mode = s.mode ∨ ∀ call ∈ calls t.mode, call = .removeAll) : Puts deps s (t.askRemove deps) := by
  rw [askRemove_eq]
  cases hasked : t.selected.bind (question deps) with
  | none => exact ⟨hview, hmode.imp_right .inl⟩
  | some mode =>
    obtain ⟨row, hrow, hmode⟩ := Option.bind_eq_some_iff.1 hasked
    refine ⟨by simp [DevicePanel.setMode, hview], .inr (.inr ⟨row, ?_, by simpa [DevicePanel.setMode] using hmode⟩)⟩
    rw [← hrow]
    exact selected_of_eq (by simp [DevicePanel.setMode]) (by simp [DevicePanel.setMode])

theorem puts_same (hview : t.view = s.view)
    (hmode : t.mode = s.mode ∨ ∀ call ∈ calls t.mode, call = .removeAll) : Puts deps s t :=
  ⟨hview, hmode.imp_right .inl⟩

attribute [local simp] DevicePanel.setMode DevicePanel.setFlash DevicePanel.clearFlash DevicePanel.begin calls

theorem puts_openDetails : Puts deps s s.openDetails := by
  unfold DevicePanel.openDetails
  split <;> exact puts_same (by simp) (by simp)

theorem puts_openRename (hview : t.view = s.view)
    (hmode : t.mode = s.mode ∨ ∀ call ∈ calls t.mode, call = .removeAll) : Puts deps s (t.openRename deps) := by
  unfold DevicePanel.openRename
  split
  · exact puts_same hview hmode
  · split
    · exact puts_same (by simp [hview]) (by simp)
    · exact puts_same hview hmode

theorem puts_onRenameKey (raw deviceId label draft : String) : Puts deps s (s.onRenameKey raw deviceId label draft) := by
  unfold DevicePanel.onRenameKey
  repeat' split
  all_goals exact puts_same (by simp) (by simp)

theorem puts_onDetailsKey (raw key : String) : Puts deps s (s.onDetailsKey deps raw key) := by
  unfold DevicePanel.onDetailsKey
  repeat' split
  · exact puts_askRemove rfl (by simp)
  · exact puts_same (by simp) (by simp)
  · exact puts_askRemove rfl (by simp)
  · exact puts_openRename rfl (by simp)
  · exact puts_same (by simp) (by simp)

theorem puts_onListKey (raw : String) : Puts deps s (s.onListKey deps raw).1 := by
  unfold DevicePanel.onListKey DevicePanel.toggleAsk DevicePanel.doOpenTunnel DevicePanel.askRemoveAll DevicePanel.stop
  dsimp only
  repeat' split
  all_goals first
    | exact puts_openDetails
    | exact puts_openRename rfl (.inl rfl)
    | exact puts_askRemove rfl (.inl rfl)
    | exact puts_same (by simp) (by simp)

theorem puts_onKey (raw : String) : Puts deps s (s.onKey deps raw).1 := by
  unfold DevicePanel.onKey DevicePanel.answer DevicePanel.doRemove
  repeat' split
  all_goals first
    | exact puts_onRenameKey ..
    | exact puts_onDetailsKey ..
    | exact puts_onListKey ..
    | exact puts_same (by simp) (by simp)

theorem puts_step (e : PanelEvent) (hown : ∀ view announced, e ≠ .changed view announced) :
    Puts deps s (s.step deps e).1 := by
  cases e with
  | changed view announced => exact absurd rfl (hown view announced)
  | key raw => exact puts_onKey raw
  | _ =>
    simp only [DevicePanel.step, DevicePanel.promptForAccess, DevicePanel.abort, DevicePanel.answer, DevicePanel.stop,
      DevicePanel.onTick]
    try unfold DevicePanel.finish
    repeat' split
    all_goals exact puts_same (by simp) (by simp)

end

namespace Host
variable (deps : PanelDeps)

/-- What the key calls, which answers the question of a removal. -/
def confirmed (s : Host) (raw : String) : List RemoveCall :=
  if s.panel.stopped = false ∧ lowered raw = "y" then calls s.panel.mode else []

theorem rows_step (e : HostEvent) (h : s.panel.view.rows = s.devices.buildRows) :
    (s.step deps e).panel.view.rows = (s.step deps e).devices.buildRows := by
  unfold step
  split
  · simp only [DevicePanel.step]
    split <;> simp [Devices.view]
  · exact h
  · rw [(puts_step _ (by simp_all)).view, h]

theorem mode_step (e : HostEvent) : (s.step deps e).panel.mode = s.panel.mode ∨
    (∀ call ∈ calls (s.step deps e).panel.mode, call = .removeAll) ∨
    ∃ row, (s.step deps e).panel.selected = some row ∧ question deps row = some (s.step deps e).panel.mode := by
  unfold step
  split
  · simp only [DevicePanel.step]
    split <;> simp
  · exact .inl rfl
  · exact (puts_step _ (by simp_all)).mode

theorem run_snoc (s : Host) (es : List HostEvent) (e : HostEvent) : s.run deps (es ++ [e]) = (s.run deps es).step deps e := by
  simp [run]

theorem rows_run (es : List HostEvent) (h : s.panel.view.rows = s.devices.buildRows) :
    (s.run deps es).panel.view.rows = (s.run deps es).devices.buildRows := by
  induction es using List.reverseRecOn with
  | nil => exact h
  | append_singleton es e ih =>
    rw [run_snoc]
    exact rows_step deps e ih

/-- A question is about the row that was selected when it was put. -/
theorem asked_run (es : List HostEvent) (h : calls s.panel.mode = []) :
    (∀ call ∈ calls (s.run deps es).panel.mode, call = .removeAll) ∨ ∃ earlier, earlier <+: es ∧ ∃ row,
      (s.run deps earlier).panel.selected = some row ∧
      (s.run deps earlier).panel.mode = (s.run deps es).panel.mode ∧
      question deps row = some (s.run deps es).panel.mode := by
  induction es using List.reverseRecOn with
  | nil =>
    refine .inl fun call hcall => ?_
    rw [show s.run deps [] = s from rfl, h] at hcall
    cases hcall
  | append_singleton es e ih =>
    rw [run_snoc]
    obtain hsame | hharmless | ⟨row, hrow, hasked⟩ := mode_step deps (s := s.run deps es) e
    · rw [hsame]
      refine ih.imp_right fun ⟨earlier, hearlier, hput⟩ => ⟨earlier, hearlier.trans (prefix_append es [e]), hput⟩
    · exact .inl hharmless
    · exact .inr ⟨es ++ [e], prefix_rfl, row, by rwa [run_snoc], by rw [run_snoc], hasked⟩

/-- In every state the keys of the rows are apart and the marked row is the one that a key acts on, exactly if no key
that is made of a taken one is taken and the cursor is among the drawn rows. A removal acts on the row that was
selected when its question was put, and the question has that row's name. -/
theorem acts_on_marked_row (devices : Devices) (hosted askOnReconnect : Bool) (es : List HostEvent) :
    let first := start devices hosted askOnReconnect
    let s := first.run deps es
    (s.Truthful ↔ s.Fits) ∧ ∀ raw, ∀ call ∈ s.confirmed raw, call = .removeAll ∨ ∃ earlier, earlier <+: es ∧ ∃ row,
      (first.run deps earlier).panel.selected = some row ∧ (first.run deps earlier).panel.mode = s.panel.mode ∧
      Names row s.panel.mode ∧ call.ActsOn row := by
  intro first s
  have hview : first.panel.view = devices.view hosted askOnReconnect := paint_view
  have hmode : first.panel.mode = .list := paint_mode
  refine ⟨truthful_iff (rows_run deps es (by rw [hview]; rfl)), fun raw call hcall => ?_⟩
  unfold confirmed at hcall
  split at hcall
  · obtain hharmless | ⟨earlier, hearlier, row, hrow, hsame, hasked⟩ := asked_run deps es (by rw [hmode]; rfl)
    · exact .inl (hharmless call hcall)
    · exact .inr ⟨earlier, hearlier, row, hrow, hsame, actsOn_of_question hasked hcall⟩
  · cases hcall

end Host

def tabs (ids : List (String × String)) : Devices := ⟨ids.map fun x => ⟨some x.2, some x.1, ""⟩, []⟩

def nineDevices : Devices :=
  tabs [("a", "1"), ("b", "2"), ("c", "3"), ("d", "4"), ("e", "5"), ("f", "6"), ("g", "7"), ("h", "8"), ("i", "9")]

def ninthSelected : Host :=
  (Host.start nineDevices false false).run ⟨true, true, true, true, true, true, true⟩
    (List.replicate 8 (.panel (.key keyDown)))

/-- The ninth of nine devices is selected while the eighth is marked, and two rows can have one key. -/
theorem not_acts_on_marked_row : ninthSelected.marked.map PanelRow.key = some "h" ∧
    ninthSelected.panel.selected.map PanelRow.key = some "i" ∧ ¬ ninthSelected.Truthful ∧
    (tabs [("d#x", "1"), ("d", "2"), ("d", "x")]).buildRows.map PanelRow.key = ["d#x", "d", "d#x"] := by
  have hmarked : ninthSelected.marked.map PanelRow.key = some "h" := by decide +kernel
  have hselected : ninthSelected.panel.selected.map PanelRow.key = some "i" := by decide +kernel
  refine ⟨hmarked, hselected, fun h => ?_, by decide +kernel⟩
  rw [h.marked, hselected] at hmarked
  exact absurd hmarked (by decide)

end Mtmux.Cli.PanelRows
