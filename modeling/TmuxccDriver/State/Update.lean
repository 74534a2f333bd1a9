import TmuxccDriver.State.Model

/-!
# Updates of the session model

The pure mutators of `state/model.ts`. An update of an entity that is not in the model
leaves the model as it is. A field of a patch is `none` where the patch does not have it.

Results:
1. `Invariants.updatePane`, `Invariants.updatePaneOverlay`: a pane patch keeps I1 to I7.
2. `Invariants.updateWindow`: so does a window patch that leaves the active pane alone.
-/

namespace TmuxccDriver.State
open TmuxccDriver.Lib TmuxccDriver.Protocol

/-! ## Patches -/

structure PanePatch where
  cols : Option Nat := none
  rows : Option Nat := none
  mode : Option String := none
  dead : Option Bool := none
  exitCode : Option (Option Nat) := none
  label : Option (Option String) := none
  paneTitle : Option (Option String) := none
  detach : Option (Option DetachPolicy) := none
  icon : Option (Option String) := none

/-- `{ ...pane, ...patch }`. -/
def PanePatch.apply (patch : PanePatch) (pane : Pane) : Pane :=
  { pane with
    cols := patch.cols.getD pane.cols
    rows := patch.rows.getD pane.rows
    mode := patch.mode.getD pane.mode
    dead := patch.dead.getD pane.dead
    exitCode := patch.exitCode.getD pane.exitCode
    label := patch.label.getD pane.label
    paneTitle := patch.paneTitle.getD pane.paneTitle
    detach := patch.detach.getD pane.detach
    icon := patch.icon.getD pane.icon }

structure WindowPatch where
  name : Option String := none
  layout : Option (Option WindowLayout) := none
  activePaneId : Option (Option PaneId) := none
  synchronizePanes : Option Bool := none
  monitorActivity : Option Bool := none
  monitorSilence : Option Nat := none

def WindowPatch.apply (patch : WindowPatch) (win : Window) : Window :=
  { win with
    name := patch.name.getD win.name
    layout := patch.layout.getD win.layout
    activePaneId := patch.activePaneId.getD win.activePaneId
    synchronizePanes := patch.synchronizePanes.getD win.synchronizePanes
    monitorActivity := patch.monitorActivity.getD win.monitorActivity
    monitorSilence := patch.monitorSilence.getD win.monitorSilence }

structure SessionPatch where
  name : Option String := none
  activeWindowId : Option (Option WindowId) := none

def SessionPatch.apply (patch : SessionPatch) (sess : Session) : Session :=
  { sess with
    name := patch.name.getD sess.name
    activeWindowId := patch.activeWindowId.getD sess.activeWindowId }

/-! ## Mutators -/

def addSession (model : SessionModel) (session : Session) : SessionModel :=
  { model with sessions := model.sessions.set session }

/-- The session of the window must be there. -/
def addWindow (model : SessionModel) (win : Window) : SessionModel :=
  match model.sessions.get? win.sessionId with
  | none => model
  | some session =>
    { model with
      sessions := model.sessions.set { session with
        windowIds := session.windowIds ++ [win.windowId]
        activeWindowId := session.activeWindowId.or (some win.windowId) }
      windows := model.windows.set win }

/-- The window of the pane must be there. -/
def addPane (model : SessionModel) (pane : Pane) : SessionModel :=
  match model.windows.get? pane.windowId with
  | none => model
  | some win =>
    { model with
      windows := model.windows.set { win with
        paneIds := win.paneIds ++ [pane.paneId]
        activePaneId := win.activePaneId.or (some pane.paneId) }
      panes := model.panes.set pane }

def updatePane (model : SessionModel) (paneId : PaneId) (patch : PanePatch) : SessionModel :=
  match model.panes.get? paneId with
  | none => model
  | some pane => { model with panes := model.panes.set (patch.apply pane) }

/-- `updatePaneOverlay` with a patch of `boundClients`, the overlay's only field. -/
def updatePaneOverlay (model : SessionModel) (paneId : PaneId) (boundClients : Finset String) :
    SessionModel :=
  match model.panes.get? paneId with
  | none => model
  | some pane => { model with panes := model.panes.set { pane with overlay := ⟨boundClients⟩ } }

/-- `setBoundClient`. -/
def setBoundClient (current : Finset String) (clientId : String) (bound : Bool) : Finset String :=
  if bound then insert clientId current else current.erase clientId

def updateWindow (model : SessionModel) (windowId : WindowId) (patch : WindowPatch) :
    SessionModel :=
  match model.windows.get? windowId with
  | none => model
  | some win => { model with windows := model.windows.set (patch.apply win) }

def updateSession (model : SessionModel) (sessionId : SessionId) (patch : SessionPatch) :
    SessionModel :=
  match model.sessions.get? sessionId with
  | none => model
  | some sess => { model with sessions := model.sessions.set (patch.apply sess) }

def setFocus (model : SessionModel) (focus : FocusState) : SessionModel :=
  { model with focus := focus }

/-! ## What keeps the invariants -/

/-- The focus looks at the ids of the panes only. -/
theorem FocusConsistent.of_panes {model : SessionModel} {panes : KeyedMap Pane.paneId}
    {focus : FocusState} (h : FocusConsistent model focus)
    (hkeys : ∀ id, panes.has id = model.panes.has id) :
    FocusConsistent { model with panes := panes } focus := by
  cases h with
  | unfocused => exact .unfocused
  | focused pane win sess hpane hwin hsess pane_mem pane_active win_mem win_active =>
    obtain ⟨pane', hpane', hid⟩ :=
      KeyedMap.has_iff_mem.mp ((hkeys pane.paneId).trans (KeyedMap.has_of_mem hpane))
    rw [← hid] at pane_mem pane_active ⊢
    exact .focused pane' win sess hpane' hwin hsess pane_mem pane_active win_mem win_active

/-- The panes may be replaced by panes with the same ids in windows of the model. -/
theorem Invariants.of_panes {model : SessionModel} {panes : KeyedMap Pane.paneId}
    (h : Invariants model) (hkeys : ∀ id, panes.has id = model.panes.has id)
    (hwindow : ∀ pane ∈ panes.values, model.windows.has pane.windowId = true) :
    Invariants { model with panes := panes } where
  pane_window := hwindow
  window_session := h.window_session
  window_panes win hwin pid hpid := (hkeys pid).trans (h.window_panes win hwin pid hpid)
  session_windows := h.session_windows
  window_active := h.window_active
  session_active := h.session_active
  focus := h.focus.of_panes hkeys

/-- One pane may be replaced by one with the same id in the same window. -/
theorem Invariants.set_pane {model : SessionModel} {paneId : PaneId} {pane pane' : Pane}
    (h : Invariants model) (hget : model.panes.get? paneId = some pane)
    (hid : pane'.paneId = pane.paneId) (hwindow : pane'.windowId = pane.windowId) :
    Invariants { model with panes := model.panes.set pane' } := by
  refine h.of_panes (fun id => ?_) fun p hp => ?_
  · rw [KeyedMap.has, KeyedMap.get?_set]
    split
    · next hkey =>
      rw [← hkey, hid, KeyedMap.key_of_get? hget, KeyedMap.has, hget]
      rfl
    · rfl
  · rcases KeyedMap.mem_set.mp hp with rfl | ⟨hmem, -⟩
    · rw [hwindow]
      exact h.pane_window pane (KeyedMap.mem_of_get? hget)
    · exact h.pane_window p hmem

theorem Invariants.updatePane {model : SessionModel} (h : Invariants model) (paneId : PaneId)
    (patch : PanePatch) : Invariants (updatePane model paneId patch) := by
  unfold State.updatePane
  split
  · exact h
  · next pane hget => exact h.set_pane hget rfl rfl

theorem Invariants.updatePaneOverlay {model : SessionModel} (h : Invariants model)
    (paneId : PaneId) (boundClients : Finset String) :
    Invariants (updatePaneOverlay model paneId boundClients) := by
  unfold State.updatePaneOverlay
  split
  · exact h
  · next pane hget => exact h.set_pane hget rfl rfl

theorem FocusConsistent.set_window {model : SessionModel} {focus : FocusState} {win win' : Window}
    (h : FocusConsistent model focus) (hwin : win ∈ model.windows.values)
    (hid : win'.windowId = win.windowId) (hpanes : win'.paneIds = win.paneIds)
    (hactive : win'.activePaneId = win.activePaneId) :
    FocusConsistent { model with windows := model.windows.set win' } focus := by
  cases h with
  | unfocused => exact .unfocused
  | focused pane w sess hpane hw hsess pane_mem pane_active win_mem win_active =>
    by_cases hkey : w.windowId = win.windowId
    · obtain rfl := KeyedMap.eq_of_key hw hwin hkey
      rw [← hid] at win_mem win_active ⊢
      exact .focused pane win' sess hpane (KeyedMap.mem_set.mpr (.inl rfl)) hsess
        (hpanes ▸ pane_mem) (hactive ▸ pane_active) win_mem win_active
    · exact .focused pane w sess hpane (KeyedMap.mem_set.mpr (.inr ⟨hw, hid ▸ hkey⟩)) hsess
        pane_mem pane_active win_mem win_active

/-- One window may be replaced by one with the same id, session, panes and active pane. -/
theorem Invariants.set_window {model : SessionModel} {windowId : WindowId} {win win' : Window}
    (h : Invariants model) (hget : model.windows.get? windowId = some win)
    (hid : win'.windowId = win.windowId) (hsession : win'.sessionId = win.sessionId)
    (hpanes : win'.paneIds = win.paneIds) (hactive : win'.activePaneId = win.activePaneId) :
    Invariants { model with windows := model.windows.set win' } := by
  have hwin := KeyedMap.mem_of_get? hget
  have hkeys : ∀ id, (model.windows.set win').has id = model.windows.has id := by
    intro id
    rw [KeyedMap.has_set, hid]
    refine Bool.or_eq_right_iff_imp.mpr fun hkey => ?_
    rw [← of_decide_eq_true hkey]
    exact KeyedMap.has_of_mem hwin
  refine ⟨fun pane hpane => ?_, fun w hw => ?_, fun w hw pid hpid => ?_,
    fun sess hsess wid hwid => ?_, fun w hw hne => ?_, h.session_active, ?_⟩
  · exact (hkeys _).trans (h.pane_window pane hpane)
  · rcases KeyedMap.mem_set.mp hw with rfl | ⟨hmem, -⟩
    · exact hsession ▸ h.window_session win hwin
    · exact h.window_session w hmem
  · rcases KeyedMap.mem_set.mp hw with rfl | ⟨hmem, -⟩
    · exact h.window_panes win hwin pid (hpanes ▸ hpid)
    · exact h.window_panes w hmem pid hpid
  · exact (hkeys _).trans (h.session_windows sess hsess wid hwid)
  · rcases KeyedMap.mem_set.mp hw with rfl | ⟨hmem, -⟩
    · rw [hpanes, hactive]
      exact h.window_active win hwin (hpanes ▸ hne)
    · exact h.window_active w hmem hne
  · exact h.focus.set_window hwin hid hpanes hactive

theorem Invariants.updateWindow {model : SessionModel} (h : Invariants model)
    (windowId : WindowId) {patch : WindowPatch} (hpatch : patch.activePaneId = none) :
    Invariants (updateWindow model windowId patch) := by
  unfold State.updateWindow
  split
  · exact h
  · next win hget => exact h.set_window hget rfl rfl rfl (by simp [WindowPatch.apply, hpatch])

end TmuxccDriver.State
