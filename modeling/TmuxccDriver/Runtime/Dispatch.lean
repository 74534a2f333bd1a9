import TmuxccDriver.Parser.Notifications
import TmuxccDriver.Runtime.ModelChanges
import TmuxccDriver.Runtime.Patches
import TmuxccDriver.State.Topology

/-!
# Dispatch

`_dispatchEvent` in `runtime/pipeline.ts`, as far as the model is concerned, and `isTopologyEvent`
in `state/coalescer.ts`: an event is a patch of the model, a dirty bit for the coalescer, or
neither.

Results:
1. `dispatched`: which of the three an event is.
2. `Patch.topology`: no patch changes the topology.
-/

namespace TmuxccDriver.Runtime.Dispatch
open TmuxccDriver.Lib TmuxccDriver.Protocol TmuxccDriver.State TmuxccDriver.Runtime.ModelChanges
open TmuxccDriver.Parser.Notifications (NotificationEvent)

/-! ## Events -/

/-- An event that was parsed, or one that the input path injects. -/
inductive DispatchedEvent
  | parsed (event : NotificationEvent)
  | internal (event : SyntheticEvent)

/-- `isTopologyEvent`, for an event that was parsed. -/
def isTopologyEvent : NotificationEvent → Bool
  | .output _ _ | .extendedOutput _ _ _ => false
  | .pause _ | .continue _ => false
  | .exit _ => false
  | .subscriptionChanged _ _ _ _ _ _ => false
  | .windowAdd _ _ | .windowClose _ _ | .windowRenamed _ _ _ | .windowPaneChanged _ _
  | .sessionChanged _ _ | .clientSessionChanged _ _ _ | .sessionRenamed _ _ | .sessionsChanged
  | .sessionWindowChanged _ _ | .paneModeChanged _ | .unknown _ _ => true

/-- `isTopologyEvent`. -/
def DispatchedEvent.isTopology : DispatchedEvent → Bool
  | .parsed event => isTopologyEvent event
  | .internal _ => false

def SYNC_WATCH_SUBSCRIPTION_NAME : String := "sync-watch"

def TITLE_WATCH_SUBSCRIPTION_NAME : String := "title-watch"

/-- What the value of a subscription patches. No id is negative. -/
def watchPatch : NotificationEvent → Option Patch
  | .subscriptionChanged name _ windowId _ paneId value =>
    if name = SYNC_WATCH_SUBSCRIPTION_NAME then
      match windowId with
      | some (.ofNat tmuxWindowId) => some (.syncWatch tmuxWindowId value)
      | _ => none
    else if name = TITLE_WATCH_SUBSCRIPTION_NAME then
      match paneId with
      | some (.ofNat tmuxPaneId) => some (.titleWatch tmuxPaneId value)
      | _ => none
    else none
  | _ => none

/-- `coalescer.notify`. -/
def notify (p : Pipeline) : Pipeline := { p with scheduler := p.scheduler.notify }

/-- `_dispatchEvent`, once nothing is buffered. -/
def dispatchEvent (p : Pipeline) : DispatchedEvent → Pipeline
  | .internal event => p.patchModel (applySynthetic event)
  | .parsed event =>
    match watchPatch event with
    | some patch => p.patchModel patch.updater
    | none => if isTopologyEvent event then notify p else p

/-! ## What an event is -/

inductive Dispatched (p : Pipeline) (event : DispatchedEvent) : Pipeline → Prop
  | patched (patch : Patch) (htopology : event.isTopology = false) :
      Dispatched p event (p.patchModel patch.updater)
  | notified (htopology : event.isTopology = true) : Dispatched p event (notify p)
  | ignored (htopology : event.isTopology = false) : Dispatched p event p

theorem not_topology_of_watchPatch {event : NotificationEvent} {patch : Patch}
    (h : watchPatch event = some patch) : isTopologyEvent event = false := by
  cases event <;> first | rfl | cases h

theorem dispatched (p : Pipeline) (event : DispatchedEvent) :
    Dispatched p event (dispatchEvent p event) := by
  cases event with
  | internal event => exact .patched (.synthetic event) rfl
  | parsed event =>
    unfold dispatchEvent
    dsimp only
    split
    · next patch hpatch => exact .patched patch (not_topology_of_watchPatch hpatch)
    · split
      · next htopology => exact .notified htopology
      · next hother => exact .ignored (Bool.not_eq_true _ ▸ hother)

/-! ## Patches and the topology -/

section Patched

variable {model next : SessionModel}

theorem topology_patchWindow {windowId : WindowId} {unchanged : Window → Bool} {patch : WindowPatch}
    (hpatch : ∀ win, (patch.apply win).topology = win.topology)
    (hnext : patchWindow windowId unchanged patch model = some next) :
    next.topology = model.topology := by
  unfold patchWindow at hnext
  split at hnext
  · cases hnext
  · next win hget =>
    split at hnext
    · cases hnext
    · cases hnext
      simp only [updateWindow, hget]
      exact topology_set_window hget (hpatch win)

theorem topology_patchPane {paneId : PaneId} {unchanged : Pane → Bool} {patch : PanePatch}
    (hpatch : ∀ pane, (patch.apply pane).topology = pane.topology)
    (hnext : patchPane paneId unchanged patch model = some next) :
    next.topology = model.topology := by
  unfold patchPane at hnext
  split at hnext
  · cases hnext
  · next pane hget =>
    split at hnext
    · cases hnext
    · cases hnext
      simp only [updatePane, hget]
      exact topology_set_pane hget (hpatch pane)

theorem topology_patchBound {paneId : PaneId} {clientId : String} {bound : Bool}
    (hnext : patchBound paneId clientId bound model = some next) :
    next.topology = model.topology := by
  unfold patchBound at hnext
  split at hnext
  · cases hnext
  · next pane hget =>
    dsimp only at hnext
    split at hnext
    · cases hnext
    · cases hnext
      simp only [updatePaneOverlay, hget]
      exact topology_set_pane hget rfl

theorem topology_reconcileBinding {clientId : String} {boundPanes : List PaneId}
    (hnext : reconcileBinding clientId boundPanes model = some next) :
    next.topology = model.topology := by
  unfold reconcileBinding at hnext
  split at hnext
  · cases hnext
  · cases hnext
    have hbind : ∀ pane, (bindPane clientId boundPanes pane).topology = pane.topology :=
      fun _ => rfl
    unfold SessionModel.topology
    rw [KeyedMap.mapValues_mapValues _ _ _ hbind]

theorem Patch.topology (patch : Patch) (hnext : patch.updater model = some next) :
    next.topology = model.topology := by
  rcases patch with event | ⟨tmuxWindowId, value⟩ | ⟨tmuxPaneId, value⟩ | ⟨clientId, boundPanes⟩
  · rcases event with ⟨windowId, on⟩ | ⟨windowId, on⟩ | ⟨windowId, seconds⟩ | ⟨paneId, label⟩ |
      ⟨paneId, ⟨on, _ | clientId⟩ | policy | icon⟩
    · exact topology_patchWindow (fun _ => rfl) hnext
    · exact topology_patchWindow (fun _ => rfl) hnext
    · exact topology_patchWindow (fun _ => rfl) hnext
    · exact topology_patchPane (fun _ => rfl) hnext
    · cases hnext
    · exact topology_patchBound hnext
    · exact topology_patchPane (fun _ => rfl) hnext
    · exact topology_patchPane (fun _ => rfl) hnext
  · exact topology_patchWindow (fun _ => rfl) hnext
  · exact topology_patchPane (fun _ => rfl) hnext
  · exact topology_reconcileBinding hnext

end Patched

end TmuxccDriver.Runtime.Dispatch
