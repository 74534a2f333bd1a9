import TmuxccDriver.State.Requery

/-!
# Topology

What of a model the topology notifications of tmux are about: which sessions, windows and panes
there are, how they lie and which are active. The options of windows and panes, their titles and
the overlays are not among it.

Results:
1. `topology_buildInitialModel`: the topology of the built model is that of the listings.
2. `topology_carryForwardOverlays`: carrying the overlays over leaves it as it is.
-/

namespace TmuxccDriver.State
open TmuxccDriver.Lib TmuxccDriver.Protocol

/-! ## Definitions -/

def Window.topology (win : Window) : Window :=
  { win with synchronizePanes := false, monitorActivity := false, monitorSilence := 0 }

theorem Window.topology_windowId (win : Window) : win.topology.windowId = win.windowId := rfl

def Pane.topology (pane : Pane) : Pane :=
  { pane with
    label := none
    detach := none
    icon := none
    paneTitle := none
    overlay := emptyPaneOverlay }

theorem Pane.topology_paneId (pane : Pane) : pane.topology.paneId = pane.paneId := rfl

def SessionModel.topology (model : SessionModel) : SessionModel :=
  { model with
    windows := model.windows.mapValues Window.topology Window.topology_windowId
    panes := model.panes.mapValues Pane.topology Pane.topology_paneId }

def WindowsReplyRow.topology (row : WindowsReplyRow) : WindowsReplyRow :=
  { row with synchronizePanes := false, monitorActivity := false, monitorSilence := 0 }

def PanesReplyRow.topology (row : PanesReplyRow) : PanesReplyRow :=
  { row with label := none, detach := none, icon := none, paneTitle := none }

/-! ## Building -/

section Build

variable {windowRows : List WindowsReplyRow} {paneRows : List PanesReplyRow}
  {model : SessionModel}

theorem get?_topology_windows (id : WindowId) :
    model.topology.windows.get? id = (model.windows.get? id).map Window.topology :=
  KeyedMap.get?_mapValues model.windows _ Window.topology_windowId _

theorem topology_addWindow (win : Window) :
    (addWindow model win).topology = addWindow model.topology win.topology := by
  unfold addWindow
  have hget : model.topology.sessions.get? win.topology.sessionId =
      model.sessions.get? win.sessionId := rfl
  rw [hget]
  split
  · rfl
  · unfold SessionModel.topology
    dsimp only
    rw [KeyedMap.mapValues_set]
    rfl

theorem topology_addPane (pane : Pane) :
    (addPane model pane).topology = addPane model.topology pane.topology := by
  unfold addPane
  rw [get?_topology_windows]
  have hwindow : pane.topology.windowId = pane.windowId := rfl
  rw [hwindow]
  rcases model.windows.get? pane.windowId with _ | win
  · rfl
  · unfold SessionModel.topology
    dsimp only
    rw [KeyedMap.mapValues_set, KeyedMap.mapValues_set]
    rfl

theorem topology_updateSession (sessionId : SessionId) (patch : SessionPatch) :
    (updateSession model sessionId patch).topology =
      updateSession model.topology sessionId patch := by
  unfold updateSession
  have hget : model.topology.sessions.get? sessionId = model.sessions.get? sessionId := rfl
  rw [hget]
  split <;> rfl

theorem topology_windowOfRow (row : WindowsReplyRow) :
    (windowOfRow paneRows row).topology =
      windowOfRow (paneRows.map PanesReplyRow.topology) row.topology := by
  have hpanes : panesByWindow (paneRows.map PanesReplyRow.topology) row.tmuxWindowId =
      (panesByWindow paneRows row.tmuxWindowId).map PanesReplyRow.topology :=
    List.filter_map
  have hactive : ((panesByWindow (paneRows.map PanesReplyRow.topology) row.tmuxWindowId).find?
      (·.active)).map (fun pane => mintPaneId pane.tmuxPaneId) =
      ((panesByWindow paneRows row.tmuxWindowId).find? (·.active)).map
        fun pane => mintPaneId pane.tmuxPaneId := by
    rw [hpanes, List.find?_map, Option.map_map]
    rfl
  unfold windowOfRow Window.topology
  rw [Window.mk.injEq]
  exact ⟨rfl, rfl, rfl, rfl, hactive.symm, rfl, rfl, rfl, rfl⟩

theorem topology_addPaneRow (row : PanesReplyRow) :
    (addPaneRow model row).topology = addPaneRow model.topology row.topology := by
  have hwindow : model.topology.windows.has (mintWindowId row.tmuxWindowId) =
      model.windows.has (mintWindowId row.tmuxWindowId) :=
    KeyedMap.has_mapValues model.windows _ Window.topology_windowId _
  have hpane : model.topology.panes.has (mintPaneId row.tmuxPaneId) =
      model.panes.has (mintPaneId row.tmuxPaneId) :=
    KeyedMap.has_mapValues model.panes _ Pane.topology_paneId _
  unfold addPaneRow
  have hrow : row.topology.tmuxWindowId = row.tmuxWindowId := rfl
  have hrow' : row.topology.tmuxPaneId = row.tmuxPaneId := rfl
  rw [hrow, hrow', hwindow, hpane]
  split
  · rfl
  · split
    · rfl
    · exact topology_addPane _

theorem topology_addWindowRow (row : WindowsReplyRow) :
    (addWindowRow paneRows model row).topology =
      addWindowRow (paneRows.map PanesReplyRow.topology) model.topology row.topology := by
  unfold addWindowRow
  rw [topology_addWindow, topology_windowOfRow]

/-- A loop whose steps commute with the projection, on its entries and on the model. -/
theorem topology_foldl {β : Type} {f : β → β} {add add' : SessionModel → β → SessionModel}
    (h : ∀ model b, add' model.topology (f b) = (add model b).topology) (bs : List β)
    (model : SessionModel) :
    (bs.foldl add model).topology = bs.foldl (fun model b => add' model (f b)) model.topology :=
  (List.foldl_hom SessionModel.topology h).symm

theorem sessionNames_topology :
    sessionNames (windowRows.map WindowsReplyRow.topology) = sessionNames windowRows := by
  unfold sessionNames
  rw [List.foldl_map]
  rfl

theorem sessionActiveWindowId_topology :
    sessionActiveWindowId (windowRows.map WindowsReplyRow.topology) =
      sessionActiveWindowId windowRows := by
  unfold sessionActiveWindowId
  rw [List.foldl_map]
  rfl

theorem topology_buildTopology :
    (buildTopology windowRows paneRows).topology =
      buildTopology (windowRows.map WindowsReplyRow.topology)
        (paneRows.map PanesReplyRow.topology) := by
  unfold buildTopology
  rw [sessionNames_topology, sessionActiveWindowId_topology, List.foldl_map, List.foldl_map]
  dsimp only
  have hsessions : ∀ (model : SessionModel) (entry : Nat × String),
      addSessionEntry model.topology entry = (addSessionEntry model entry).topology :=
    fun _ _ => rfl
  have hwindows : ∀ (model : SessionModel) (row : WindowsReplyRow),
      addWindowRow (paneRows.map PanesReplyRow.topology) model.topology row.topology =
        (addWindowRow paneRows model row).topology :=
    fun _ row => (topology_addWindowRow row).symm
  have hactive : ∀ (model : SessionModel) (entry : Nat × Nat),
      setActiveWindow model.topology entry = (setActiveWindow model entry).topology :=
    fun _ _ => (topology_updateSession _ _).symm
  have hpanes : ∀ (model : SessionModel) (row : PanesReplyRow),
      addPaneRow model.topology row.topology = (addPaneRow model row).topology :=
    fun _ row => (topology_addPaneRow row).symm
  rw [topology_foldl hpanes, topology_foldl hactive, topology_foldl hwindows,
    topology_foldl hsessions]
  rfl

theorem initialFocus_topology :
    initialFocus (windowRows.map WindowsReplyRow.topology) model.topology =
      initialFocus windowRows model := by
  have hfocus : focusOfSession model.topology = focusOfSession model := by
    funext entry
    unfold focusOfSession
    simp only [get?_topology_windows, Option.bind_eq_bind, Option.bind_map]
    rfl
  unfold initialFocus
  rw [sessionActiveWindowId_topology, hfocus]

theorem topology_buildInitialModel (windowRows : List WindowsReplyRow)
    (paneRows : List PanesReplyRow) :
    (buildInitialModel windowRows paneRows).topology =
      buildInitialModel (windowRows.map WindowsReplyRow.topology)
        (paneRows.map PanesReplyRow.topology) := by
  unfold buildInitialModel
  dsimp only
  rw [← topology_buildTopology, initialFocus_topology]
  rfl

end Build

/-! ## Patches -/

section Patched

variable {model : SessionModel}

theorem topology_carryForwardOverlays (prev : SessionModel) :
    (carryForwardOverlays prev model).topology = model.topology := by
  have hadopt : ∀ pane, (adoptOverlay prev pane).topology = pane.topology := by
    intro pane
    unfold adoptOverlay
    split <;> rfl
  unfold SessionModel.topology carryForwardOverlays
  rw [KeyedMap.mapValues_mapValues _ _ _ hadopt]

theorem topology_set_window {windowId : WindowId} {win win' : Window}
    (hget : model.windows.get? windowId = some win) (hsame : win'.topology = win.topology) :
    { model with windows := model.windows.set win' }.topology = model.topology := by
  have hid : win'.windowId = win.windowId :=
    (congrArg (fun win : Window => win.windowId) hsame : win'.topology.windowId = _)
  have hpresent : model.topology.windows.get? win'.topology.windowId = some win'.topology := by
    rw [get?_topology_windows]
    show (model.windows.get? win'.windowId).map _ = _
    rw [hid, KeyedMap.key_of_get? hget, hget, hsame]
    rfl
  unfold SessionModel.topology
  rw [KeyedMap.mapValues_set]
  exact congrArg (fun windows => SessionModel.mk model.sessions windows model.topology.panes
    model.focus) (KeyedMap.set_eq_self hpresent)

theorem topology_set_pane {paneId : PaneId} {pane pane' : Pane}
    (hget : model.panes.get? paneId = some pane) (hsame : pane'.topology = pane.topology) :
    { model with panes := model.panes.set pane' }.topology = model.topology := by
  have hid : pane'.paneId = pane.paneId :=
    (congrArg (fun pane : Pane => pane.paneId) hsame : pane'.topology.paneId = _)
  have hpresent : model.topology.panes.get? pane'.topology.paneId = some pane'.topology := by
    show (model.panes.mapValues _ Pane.topology_paneId).get? pane'.paneId = _
    rw [KeyedMap.get?_mapValues, hid, KeyedMap.key_of_get? hget, hget, hsame]
    rfl
  unfold SessionModel.topology
  rw [KeyedMap.mapValues_set]
  exact congrArg (fun panes => SessionModel.mk model.sessions model.topology.windows panes
    model.focus) (KeyedMap.set_eq_self hpresent)

end Patched

end TmuxccDriver.State
