import TmuxccDriver.Runtime.InputPath
import TmuxccDriver.State.Requery

/-!
# Direct patches of the model

The updaters that `runtime/pipeline.ts` hands to `patchModel`: the optimistic events of
the input path, the two subscriptions, and the reconciliation of one client's bindings. An
updater that has nothing to change returns the model it was given; that is `none` here.

Results:
1. `Patch.apply_invariants`: no patch breaks I1 to I7, and none moves the focus.
2. `invariants_established_and_preserved`: so every model the pipeline can hold has them.
-/

namespace TmuxccDriver.Runtime
open TmuxccDriver.Lib TmuxccDriver.Parser TmuxccDriver.Protocol TmuxccDriver.State

/-! ## Updaters -/

/-- A patch of one window, unless the field has its value already. -/
def patchWindow (windowId : WindowId) (unchanged : Window → Bool) (patch : WindowPatch)
    (model : SessionModel) : Option SessionModel :=
  match model.windows.get? windowId with
  | none => none
  | some win => if unchanged win then none else some (updateWindow model windowId patch)

/-- A patch of one pane, unless the field has its value already. -/
def patchPane (paneId : PaneId) (unchanged : Pane → Bool) (patch : PanePatch)
    (model : SessionModel) : Option SessionModel :=
  match model.panes.get? paneId with
  | none => none
  | some pane => if unchanged pane then none else some (updatePane model paneId patch)

/-- The client's slot of one pane. -/
def patchBound (paneId : PaneId) (clientId : String) (bound : Bool) (model : SessionModel) :
    Option SessionModel :=
  match model.panes.get? paneId with
  | none => none
  | some pane =>
    let nextSet := setBoundClient pane.overlay.boundClients clientId bound
    if nextSet = pane.overlay.boundClients then none
    else some (updatePaneOverlay model paneId nextSet)

/-- `internal:set-window-sync`. -/
def setWindowSync (windowId : WindowId) (on : Bool) : SessionModel → Option SessionModel :=
  patchWindow windowId (fun win => win.synchronizePanes = on) { synchronizePanes := some on }

/-- `internal:set-window-monitor-activity`. -/
def setWindowMonitorActivity (windowId : WindowId) (on : Bool) :
    SessionModel → Option SessionModel :=
  patchWindow windowId (fun win => win.monitorActivity = on) { monitorActivity := some on }

/-- `internal:set-window-monitor-silence`. -/
def setWindowMonitorSilence (windowId : WindowId) (seconds : Nat) :
    SessionModel → Option SessionModel :=
  patchWindow windowId (fun win => win.monitorSilence = seconds) { monitorSilence := some seconds }

/-- `internal:set-pane-label`. -/
def setPaneLabel (paneId : PaneId) (label : Option String) : SessionModel → Option SessionModel :=
  patchPane paneId (fun pane => pane.label = label) { label := some label }

/-- `internal:set-pane-policy`. The clientless slot is not in the model. -/
def setPanePolicy (paneId : PaneId) : PanePolicyPatch → SessionModel → Option SessionModel
  | .bound _ none => fun _ => none
  | .bound on (some clientId) => patchBound paneId clientId on
  | .detach policy => patchPane paneId (fun pane => pane.detach = policy) { detach := some policy }
  | .icon icon => patchPane paneId (fun pane => pane.icon = icon) { icon := some icon }

/-- The `internal:` branches of `_dispatchEvent`. -/
def applySynthetic : SyntheticEvent → SessionModel → Option SessionModel
  | .setWindowSync windowId on => setWindowSync windowId on
  | .setWindowMonitorActivity windowId on => setWindowMonitorActivity windowId on
  | .setWindowMonitorSilence windowId seconds => setWindowMonitorSilence windowId seconds
  | .setPaneLabel paneId label => setPaneLabel paneId label
  | .setPanePolicy paneId patch => setPanePolicy paneId patch

/-- `_applySyncWatchPatch`. -/
def applySyncWatchPatch (tmuxWindowId : Nat) (value : String) : SessionModel →
    Option SessionModel :=
  setWindowSync (mintWindowId tmuxWindowId) (trim value.toList = ['1'])

/-- `_applyTitleWatchPatch`. -/
def applyTitleWatchPatch (tmuxPaneId : Nat) (value : String) : SessionModel → Option SessionModel :=
  patchPane (mintPaneId tmuxPaneId) (fun pane => pane.paneTitle = some value)
    { paneTitle := some (some value) }

/-! ## Client bindings -/

/-- One line `%N<TAB><value>` of the reply, if it says that the pane is bound. -/
def boundPaneOf (line : List Char) : Option PaneId :=
  match line.splitOn '\t' with
  | [] => none
  | paneRaw :: rest =>
    if paneRaw.head? = some '%' ∧ isDigits paneRaw.tail ∧ trim (rest.headD []) = ['1'] then
      some ⟨"p" ++ String.ofList paneRaw.tail⟩
    else none

/-- The panes that the reply of `applyClientBinding` says are bound. -/
def parseBoundPanes (text : String) : List PaneId :=
  ((text.toList.splitOn '\n').map trim).filterMap boundPaneOf

def bindPane (clientId : String) (boundPanes : List PaneId) (pane : Pane) : Pane :=
  { pane with overlay :=
      ⟨setBoundClient pane.overlay.boundClients clientId (boundPanes.contains pane.paneId)⟩ }

theorem bindPane_paneId (clientId : String) (boundPanes : List PaneId) (pane : Pane) :
    (bindPane clientId boundPanes pane).paneId = pane.paneId := rfl

/-- The patch of `applyClientBinding`: every pane gets the client's membership tmux has. -/
def reconcileBinding (clientId : String) (boundPanes : List PaneId) (model : SessionModel) :
    Option SessionModel :=
  if model.panes.values.all fun pane => bindPane clientId boundPanes pane = pane then none
  else some { model with
    panes := model.panes.mapValues (bindPane clientId boundPanes)
      (bindPane_paneId clientId boundPanes) }

/-! ## All patches -/

inductive Patch
  | synthetic (event : SyntheticEvent)
  | syncWatch (tmuxWindowId : Nat) (value : String)
  | titleWatch (tmuxPaneId : Nat) (value : String)
  | clientBinding (clientId : String) (boundPanes : List PaneId)
deriving DecidableEq, Repr

/-- What `patchModel` is called with. -/
def Patch.updater : Patch → SessionModel → Option SessionModel
  | .synthetic event => applySynthetic event
  | .syncWatch tmuxWindowId value => applySyncWatchPatch tmuxWindowId value
  | .titleWatch tmuxPaneId value => applyTitleWatchPatch tmuxPaneId value
  | .clientBinding clientId boundPanes => reconcileBinding clientId boundPanes

/-- The model after a patch. -/
def Patch.apply (patch : Patch) (model : SessionModel) : SessionModel :=
  (patch.updater model).getD model

/-! ## Invariants -/

/-- An updater that keeps I1 to I7 and the focus. -/
def Harmless (updater : SessionModel → Option SessionModel) : Prop :=
  ∀ model next, updater model = some next → Invariants model →
    Invariants next ∧ next.focus = model.focus

theorem focus_updateWindow (model : SessionModel) (windowId : WindowId) (patch : WindowPatch) :
    (updateWindow model windowId patch).focus = model.focus := by
  unfold updateWindow
  split <;> rfl

theorem focus_updatePane (model : SessionModel) (paneId : PaneId) (patch : PanePatch) :
    (updatePane model paneId patch).focus = model.focus := by
  unfold updatePane
  split <;> rfl

theorem focus_updatePaneOverlay (model : SessionModel) (paneId : PaneId)
    (boundClients : Finset String) :
    (updatePaneOverlay model paneId boundClients).focus = model.focus := by
  unfold updatePaneOverlay
  split <;> rfl

theorem harmless_patchWindow {windowId : WindowId} {unchanged : Window → Bool}
    {patch : WindowPatch} (hpatch : patch.activePaneId = none) :
    Harmless (patchWindow windowId unchanged patch) := by
  intro model next hnext h
  unfold patchWindow at hnext
  split at hnext
  · cases hnext
  · split at hnext
    · cases hnext
    · cases hnext
      exact ⟨h.updateWindow windowId hpatch, focus_updateWindow model windowId patch⟩

theorem harmless_patchPane {paneId : PaneId} {unchanged : Pane → Bool} {patch : PanePatch} :
    Harmless (patchPane paneId unchanged patch) := by
  intro model next hnext h
  unfold patchPane at hnext
  split at hnext
  · cases hnext
  · split at hnext
    · cases hnext
    · cases hnext
      exact ⟨h.updatePane paneId patch, focus_updatePane model paneId patch⟩

theorem harmless_patchBound {paneId : PaneId} {clientId : String} {bound : Bool} :
    Harmless (patchBound paneId clientId bound) := by
  intro model next hnext h
  unfold patchBound at hnext
  split at hnext
  · cases hnext
  · dsimp only at hnext
    split at hnext
    · cases hnext
    · cases hnext
      exact ⟨h.updatePaneOverlay paneId _, focus_updatePaneOverlay model paneId _⟩

theorem harmless_reconcileBinding {clientId : String} {boundPanes : List PaneId} :
    Harmless (reconcileBinding clientId boundPanes) := by
  intro model next hnext h
  unfold reconcileBinding at hnext
  split at hnext
  · cases hnext
  · cases hnext
    refine ⟨h.of_panes (fun id => ?_) fun pane hpane => ?_, rfl⟩
    · rw [KeyedMap.has, KeyedMap.has, KeyedMap.get?_mapValues, Option.isSome_map]
    · obtain ⟨original, hmem, rfl⟩ := List.mem_map.mp hpane
      exact h.pane_window original hmem

theorem harmless_updater (patch : Patch) : Harmless patch.updater := by
  rcases patch with event | ⟨tmuxWindowId, value⟩ | ⟨tmuxPaneId, value⟩ | ⟨clientId, boundPanes⟩
  · rcases event with ⟨windowId, on⟩ | ⟨windowId, on⟩ | ⟨windowId, seconds⟩ | ⟨paneId, label⟩ |
      ⟨paneId, ⟨on, _ | clientId⟩ | policy | icon⟩
    · exact harmless_patchWindow rfl
    · exact harmless_patchWindow rfl
    · exact harmless_patchWindow rfl
    · exact harmless_patchPane
    · intro _ _ hnext
      cases hnext
    · exact harmless_patchBound
    · exact harmless_patchPane
    · exact harmless_patchPane
  · exact harmless_patchWindow rfl
  · exact harmless_patchPane
  · exact harmless_reconcileBinding

theorem Patch.apply_invariants {model : SessionModel} (h : Invariants model) (patch : Patch) :
    Invariants (patch.apply model) ∧ (patch.apply model).focus = model.focus := by
  unfold Patch.apply
  rcases hnext : patch.updater model with _ | next
  · exact ⟨h, rfl⟩
  · exact harmless_updater patch model next hnext h

/-- The builder establishes I1 to I7 for all rows in which no pane is listed under two
windows. Carrying overlays over from any model and every patch of the pipeline keep them;
no patch moves the focus, and a focus that is set in agreement with the model keeps them
too. -/
theorem invariants_established_and_preserved :
    (∀ (windowRows : List WindowsReplyRow) (paneRows : List PanesReplyRow),
      OneWindowEach paneRows →
        checkInvariants (buildInitialModel windowRows paneRows) false = []) ∧
    (∀ prev model : SessionModel, checkInvariants model false = [] →
      checkInvariants (carryForwardOverlays prev model) false = []) ∧
    (∀ (patch : Patch) (model : SessionModel), checkInvariants model false = [] →
      checkInvariants (patch.apply model) false = [] ∧ (patch.apply model).focus = model.focus) ∧
    (∀ (model : SessionModel) (focus : FocusState), checkInvariants model false = [] →
      (checkInvariants (setFocus model focus) false = [] ↔ FocusConsistent model focus)) := by
  refine ⟨fun windowRows paneRows hone => ?_, fun prev model h => ?_, fun patch model h => ?_,
    fun model focus h => ?_⟩
  · exact checkInvariants_eq_nil.mpr (buildInitialModel_invariants hone)
  · exact checkInvariants_eq_nil.mpr ((checkInvariants_eq_nil.mp h).carryForwardOverlays prev)
  · obtain ⟨hinvariants, hfocus⟩ := Patch.apply_invariants (checkInvariants_eq_nil.mp h) patch
    exact ⟨checkInvariants_eq_nil.mpr hinvariants, hfocus⟩
  · rw [checkInvariants_eq_nil] at h ⊢
    refine ⟨fun hset => ?_, fun hfocus => ?_⟩
    · have hback : FocusConsistent (setFocus (setFocus model focus) model.focus) focus :=
        hset.focus.setFocus
      exact hback
    · exact ⟨h.pane_window, h.window_session, h.window_panes, h.session_windows, h.window_active,
        h.session_active, hfocus.setFocus⟩

/-- A window linked to two sessions, and a pane whose window is in no row. -/
def tornSample : SessionModel :=
  buildInitialModel
    [⟨0, "main", 0, "sh", "b25d,80x24,0,0,0", true, false, true, 0⟩,
      ⟨1, "other", 0, "sh", "b25d,80x24,0,0,0", true, false, true, 0⟩]
    [⟨0, 0, 0, 80, 24, true, "normal", false, none, none, none, none, none⟩,
      ⟨7, 3, 0, 80, 24, true, "normal", false, none, none, none, none, none⟩]

theorem invariants_of_torn_sample :
    checkInvariants tornSample false = [] ∧
      checkInvariants (carryForwardOverlays emptyModel tornSample) false = [] ∧
      checkInvariants ((Patch.titleWatch 0 "vim").apply tornSample) false = [] ∧
      checkInvariants (setFocus tornSample ⟨none, none, none⟩) false = [] := by
  obtain ⟨hbuild, hcarry, hpatch, hfocus⟩ := invariants_established_and_preserved
  have h : checkInvariants tornSample false = [] :=
    hbuild _ _ (by unfold OneWindowEach; decide)
  exact ⟨h, hcarry emptyModel tornSample h, (hpatch (.titleWatch 0 "vim") tornSample h).1,
    (hfocus tornSample ⟨none, none, none⟩ h).mpr .unfocused⟩

end TmuxccDriver.Runtime
