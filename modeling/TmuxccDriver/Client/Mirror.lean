import TmuxccDriver.Lib.KeyedMap
import TmuxccDriver.Protocol.SessionProxyControl

/-!
# The client mirror

The pure core of `clients/ts/src/mirror.ts`: the replica a client keeps, started by
`applySnapshot` and changed by `applyDelta`.

Results:
1. `applyDelta_pane`: a delta changes the slot of one pane only, and how.
2. `applyDelta_window`: what a delta does to the slot of a window. Only
   `window.added` and `focus.changed` touch the windows they do not name.
-/

namespace TmuxccDriver.Client
open TmuxccDriver.Lib TmuxccDriver.Protocol

/-! ## Data -/

structure ClientPane where
  paneId : PaneId
  windowId : WindowId
  cols : Nat
  rows : Nat
  mode : String
  dead : Bool
  exitCode : Option Nat
  label : Option String
  bound : Bool
  detach : Option DetachPolicy
  icon : Option String
  paneTitle : Option String
  origin : Option Origin
deriving DecidableEq, Repr

structure ClientWindow where
  windowId : WindowId
  name : String
  active : Bool
  layout : WindowLayout
  synchronizePanes : Bool
  monitorActivity : Bool
  monitorSilence : Nat
deriving DecidableEq, Repr

structure ClientSession where
  sessionId : SessionId
  name : String
deriving DecidableEq, Repr

/-- An entry of the maps `exitCodes` and `closeCauses`. -/
structure ClosedPane (α : Type) where
  paneId : PaneId
  value : α

structure ClientModel where
  session : ClientSession
  windows : KeyedMap ClientWindow.windowId
  panes : KeyedMap ClientPane.paneId
  focus : Focus
  exitCodes : KeyedMap (ClosedPane.paneId (α := Nat))
  closeCauses : KeyedMap (ClosedPane.paneId (α := Origin))
  attachedClientCount : Option Nat
  ownConnectionId : Option ConnectionId

/-! ## Snapshot -/

def windowOfSnapshot (w : SnapshotWindow) : ClientWindow :=
  { windowId := w.windowId
    name := w.name
    active := w.active
    layout := w.layout
    synchronizePanes := w.synchronizePanes
    monitorActivity := w.monitorActivity
    monitorSilence := w.monitorSilence }

def paneOfSnapshot (p : SnapshotPane) : ClientPane :=
  { paneId := p.paneId
    windowId := p.windowId
    cols := p.cols
    rows := p.rows
    mode := "normal"
    dead := p.dead.getD false
    exitCode := if p.dead.getD false then p.exitCode else none
    label := p.label
    bound := p.bound.getD false
    detach := p.detach
    icon := p.icon
    paneTitle := p.paneTitle
    origin := none }

/-- The model of `applySnapshot`; its `seq` is the message's. -/
def applySnapshot (snapshot : SnapshotMessage) : ClientModel :=
  { session := ⟨snapshot.session.sessionId, snapshot.session.name⟩
    windows := .ofList (snapshot.windows.map windowOfSnapshot)
    panes := .ofList (snapshot.panes.map paneOfSnapshot)
    focus := snapshot.focus
    exitCodes := .empty
    closeCauses := .empty
    attachedClientCount := snapshot.attachedClientCount
    ownConnectionId := snapshot.connectionId }

/-! ## Deltas -/

namespace ClientModel
variable (model : ClientModel)

/-- The shape of the cases that change one pane: nothing happens when it is absent. -/
def updatePane (paneId : PaneId) (f : ClientPane → ClientPane) : ClientModel :=
  match model.panes.get? paneId with
  | none => model
  | some pane => { model with panes := model.panes.set (f pane) }

/-- The shape of the cases that change one window. -/
def updateWindow (windowId : WindowId) (f : ClientWindow → ClientWindow) : ClientModel :=
  match model.windows.get? windowId with
  | none => model
  | some win => { model with windows := model.windows.set (f win) }

end ClientModel

/-- The window that `window.added` makes: no layout yet, every option at its default. -/
def addedWindow (windowId : WindowId) (name : String) (active : Bool) : ClientWindow :=
  { windowId, name, active
    layout := .zero
    synchronizePanes := false
    monitorActivity := true
    monitorSilence := 0 }

/-- `applyDelta`. The early returns of the source for an unchanged entry write the entry
that is there. -/
def applyDelta (model : ClientModel) : SessionProxyMessage → ClientModel
  | .paneOpened paneId windowId cols rows _ dead exitCode label bound detach icon origin =>
    { model with
      panes := model.panes.set
        { paneId, windowId, cols, rows
          mode := "normal"
          dead := dead.getD false
          exitCode := if dead.getD false then exitCode else none
          label
          bound := bound.getD false
          detach, icon
          paneTitle := none
          origin } }
  | .paneDeadChanged paneId dead exitCode =>
    model.updatePane paneId fun pane =>
      { pane with dead, exitCode := if dead then exitCode else none }
  | .paneClosed paneId _ exitCode cause =>
    if model.panes.has paneId then
      { model with
        panes := model.panes.delete paneId
        exitCodes := match exitCode with
          | some code => model.exitCodes.set ⟨paneId, code⟩
          | none => model.exitCodes
        closeCauses := match cause with
          | some origin => model.closeCauses.set ⟨paneId, origin⟩
          | none => model.closeCauses }
    else model
  | .paneResized paneId cols rows =>
    model.updatePane paneId fun pane => { pane with cols, rows }
  | .paneMoved paneId windowId => model.updatePane paneId fun pane => { pane with windowId }
  | .paneLabelChanged paneId label => model.updatePane paneId fun pane => { pane with label }
  | .panePolicyChanged paneId bound detach icon =>
    model.updatePane paneId fun pane => { pane with bound, detach, icon }
  | .paneTitleChanged paneId title =>
    model.updatePane paneId fun pane => { pane with paneTitle := some title }
  | .paneModeChanged paneId mode => model.updatePane paneId fun pane => { pane with mode }
  | .windowAdded windowId name active _ =>
    let windows :=
      if active then model.windows.mapValues (fun win => { win with active := false }) fun _ => rfl
      else model.windows
    { model with windows := windows.set (addedWindow windowId name active) }
  | .windowClosed windowId =>
    if model.windows.has windowId then { model with windows := model.windows.delete windowId }
    else model
  | .windowRenamed windowId newName =>
    model.updateWindow windowId fun win => { win with name := newName }
  | .windowSyncChanged windowId on =>
    model.updateWindow windowId fun win => { win with synchronizePanes := on }
  | .windowMonitorActivityChanged windowId on =>
    model.updateWindow windowId fun win => { win with monitorActivity := on }
  | .windowMonitorSilenceChanged windowId seconds =>
    model.updateWindow windowId fun win => { win with monitorSilence := seconds }
  | .layoutUpdated windowId layout =>
    model.updateWindow windowId fun win => { win with layout }
  | .focusChanged paneId windowId =>
    { model with
      windows := model.windows.mapValues
        (fun win => { win with active := some win.windowId = windowId }) fun _ => rfl
      focus := ⟨paneId, windowId⟩ }
  | .sessionRenamed newName => { model with session := { model.session with name := newName } }
  | .clientCountChanged count => { model with attachedClientCount := some count }
  | .snapshot _ => model
  | .notStateBearing => model

/-- The deltas of a list, in order. -/
def applyDeltas (model : ClientModel) (deltas : List SessionProxyMessage) : ClientModel :=
  deltas.foldl applyDelta model

theorem applyDeltas_append (model : ClientModel) (deltas deltas' : List SessionProxyMessage) :
    applyDeltas model (deltas ++ deltas') = applyDeltas (applyDeltas model deltas) deltas' :=
  List.foldl_append

/-! ## One slot at a time -/

/-- What a delta does to the slot of pane `k`. -/
def paneSlot (k : PaneId) (slot : Option ClientPane) : SessionProxyMessage → Option ClientPane
  | .paneOpened paneId windowId cols rows _ dead exitCode label bound detach icon origin =>
    if paneId = k then
      some
        { paneId, windowId, cols, rows
          mode := "normal"
          dead := dead.getD false
          exitCode := if dead.getD false then exitCode else none
          label
          bound := bound.getD false
          detach, icon
          paneTitle := none
          origin }
    else slot
  | .paneDeadChanged paneId dead exitCode =>
    if paneId = k then
      slot.map fun pane => { pane with dead, exitCode := if dead then exitCode else none }
    else slot
  | .paneClosed paneId .. => if paneId = k then none else slot
  | .paneResized paneId cols rows =>
    if paneId = k then slot.map fun pane => { pane with cols, rows } else slot
  | .paneMoved paneId windowId =>
    if paneId = k then slot.map fun pane => { pane with windowId } else slot
  | .paneLabelChanged paneId label =>
    if paneId = k then slot.map fun pane => { pane with label } else slot
  | .panePolicyChanged paneId bound detach icon =>
    if paneId = k then slot.map fun pane => { pane with bound, detach, icon } else slot
  | .paneTitleChanged paneId title =>
    if paneId = k then slot.map fun pane => { pane with paneTitle := some title } else slot
  | .paneModeChanged paneId mode =>
    if paneId = k then slot.map fun pane => { pane with mode } else slot
  | _ => slot

/-- What a delta does to the slot of window `k`. -/
def windowSlot (k : WindowId) (slot : Option ClientWindow) :
    SessionProxyMessage → Option ClientWindow
  | .windowAdded windowId name active _ =>
    if windowId = k then some (addedWindow windowId name active)
    else if active then slot.map fun win => { win with active := false }
    else slot
  | .windowClosed windowId => if windowId = k then none else slot
  | .windowRenamed windowId newName =>
    if windowId = k then slot.map fun win => { win with name := newName } else slot
  | .windowSyncChanged windowId on =>
    if windowId = k then slot.map fun win => { win with synchronizePanes := on } else slot
  | .windowMonitorActivityChanged windowId on =>
    if windowId = k then slot.map fun win => { win with monitorActivity := on } else slot
  | .windowMonitorSilenceChanged windowId seconds =>
    if windowId = k then slot.map fun win => { win with monitorSilence := seconds } else slot
  | .layoutUpdated windowId layout =>
    if windowId = k then slot.map fun win => { win with layout } else slot
  | .focusChanged _ windowId =>
    slot.map fun win => { win with active := some win.windowId = windowId }
  | _ => slot

theorem ClientModel.get?_updatePane (model : ClientModel) (paneId k : PaneId)
    (f : ClientPane → ClientPane) (hf : ∀ pane, (f pane).paneId = pane.paneId) :
    (model.updatePane paneId f).panes.get? k =
      if paneId = k then (model.panes.get? k).map f else model.panes.get? k := by
  unfold ClientModel.updatePane
  cases hpane : model.panes.get? paneId with
  | none =>
    show model.panes.get? k = _
    split
    · next h => simp [← h, hpane]
    · rfl
  | some pane =>
    have hkey : (f pane).paneId = paneId := (hf pane).trans (KeyedMap.key_of_get? hpane)
    show (model.panes.set (f pane)).get? k = _
    rw [KeyedMap.get?_set, hkey]
    split
    · next h => simp [← h, hpane]
    · rfl

theorem ClientModel.get?_updateWindow (model : ClientModel) (windowId k : WindowId)
    (f : ClientWindow → ClientWindow) (hf : ∀ win, (f win).windowId = win.windowId) :
    (model.updateWindow windowId f).windows.get? k =
      if windowId = k then (model.windows.get? k).map f else model.windows.get? k := by
  unfold ClientModel.updateWindow
  cases hwin : model.windows.get? windowId with
  | none =>
    show model.windows.get? k = _
    split
    · next h => simp [← h, hwin]
    · rfl
  | some win =>
    have hkey : (f win).windowId = windowId := (hf win).trans (KeyedMap.key_of_get? hwin)
    show (model.windows.set (f win)).get? k = _
    rw [KeyedMap.get?_set, hkey]
    split
    · next h => simp [← h, hwin]
    · rfl

@[simp] theorem ClientModel.updatePane_windows (model : ClientModel) (paneId : PaneId)
    (f : ClientPane → ClientPane) : (model.updatePane paneId f).windows = model.windows := by
  unfold ClientModel.updatePane
  split <;> rfl

@[simp] theorem ClientModel.updateWindow_panes (model : ClientModel) (windowId : WindowId)
    (f : ClientWindow → ClientWindow) : (model.updateWindow windowId f).panes = model.panes := by
  unfold ClientModel.updateWindow
  split <;> rfl

/-- The pane slots of the mirror move independently of each other. -/
theorem applyDelta_pane (model : ClientModel) (delta : SessionProxyMessage) (k : PaneId) :
    (applyDelta model delta).panes.get? k = paneSlot k (model.panes.get? k) delta := by
  cases delta
  case paneOpened => exact KeyedMap.get?_set ..
  case paneClosed paneId _ exitCode cause =>
    simp only [applyDelta, paneSlot]
    split
    · show (model.panes.delete paneId).get? k = _
      simp only [KeyedMap.get?_delete, eq_comm (a := k)]
    · next h =>
      split
      · next hk => exact hk ▸ KeyedMap.has_eq_false.mp (by simpa using h)
      · rfl
  case windowClosed =>
    simp only [applyDelta, paneSlot]
    split <;> rfl
  case paneDeadChanged | paneResized | paneMoved | paneLabelChanged | panePolicyChanged
      | paneTitleChanged | paneModeChanged =>
    exact ClientModel.get?_updatePane _ _ _ _ fun _ => rfl
  all_goals simp [applyDelta, paneSlot]

theorem applyDelta_window (model : ClientModel) (delta : SessionProxyMessage) (k : WindowId) :
    (applyDelta model delta).windows.get? k = windowSlot k (model.windows.get? k) delta := by
  cases delta
  case windowAdded windowId name active _ =>
    simp only [applyDelta, windowSlot, KeyedMap.get?_set]
    have hkey : (addedWindow windowId name active).windowId = windowId := rfl
    rw [hkey]
    cases active
    · simp
    · simp [KeyedMap.get?_mapValues]
  case focusChanged => simp only [applyDelta, windowSlot, KeyedMap.get?_mapValues]
  case windowClosed windowId =>
    simp only [applyDelta, windowSlot]
    split
    · show (model.windows.delete windowId).get? k = _
      simp only [KeyedMap.get?_delete, eq_comm (a := k)]
    · next h =>
      split
      · next hk => exact hk ▸ KeyedMap.has_eq_false.mp (by simpa using h)
      · rfl
  case paneClosed =>
    simp only [applyDelta, windowSlot]
    split <;> rfl
  case windowRenamed | windowSyncChanged | windowMonitorActivityChanged
      | windowMonitorSilenceChanged | layoutUpdated =>
    exact ClientModel.get?_updateWindow _ _ _ _ fun _ => rfl
  all_goals simp [applyDelta, windowSlot]

theorem applyDeltas_pane (model : ClientModel) (deltas : List SessionProxyMessage) (k : PaneId) :
    (applyDeltas model deltas).panes.get? k = deltas.foldl (paneSlot k) (model.panes.get? k) := by
  induction deltas generalizing model with
  | nil => rfl
  | cons delta deltas ih =>
    show (applyDeltas (applyDelta model delta) deltas).panes.get? k = _
    rw [ih, applyDelta_pane]
    rfl

theorem applyDeltas_window (model : ClientModel) (deltas : List SessionProxyMessage)
    (k : WindowId) :
    (applyDeltas model deltas).windows.get? k =
      deltas.foldl (windowSlot k) (model.windows.get? k) := by
  induction deltas generalizing model with
  | nil => rfl
  | cons delta deltas ih =>
    show (applyDeltas (applyDelta model delta) deltas).windows.get? k = _
    rw [ih, applyDelta_window]
    rfl

end TmuxccDriver.Client
