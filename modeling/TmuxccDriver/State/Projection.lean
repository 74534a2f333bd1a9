import TmuxccDriver.State.Model

/-!
# Projecting the model to the wire

`state/projection.ts`: `projectSnapshot` writes a whole model as one message, and
`diffModel` writes the difference of two models as a list of deltas. The deltas come in
phases, one definition each; a phase goes over one map and emits at most one delta for
each entry.

Results:
1. `NamesPane`, `NamesWindow` and the lemmas `…_names`: a delta of a phase changes the
   entry it was made from and no other.
-/

namespace TmuxccDriver.State
open TmuxccDriver.Lib TmuxccDriver.Protocol

/-! ## Snapshot -/

structure ProjectSnapshotOpts where
  seq : Nat := 2
  attachedClientCount : Option Nat := none
  connectionId : Option ConnectionId := none
  clientId : Option String := none

/-- `{ bound: true }` for a bound pane, nothing otherwise. -/
def whenTrue (b : Bool) : Option Bool := if b then some true else none

/-- The exit code that goes on the wire: a live pane has none. -/
def wireExitCode (pane : Pane) : Option Nat := if pane.dead then pane.exitCode else none

/-- `model.sessions.get(win.sessionId)?.activeWindowId === win.windowId`. -/
def isActiveWindow (model : SessionModel) (win : Window) : Bool :=
  (model.sessions.get? win.sessionId).bind Session.activeWindowId = some win.windowId

def snapshotWindow (model : SessionModel) (win : Window) : SnapshotWindow :=
  { windowId := win.windowId
    name := win.name
    active := isActiveWindow model win
    layout := win.layout.getD .zero
    synchronizePanes := win.synchronizePanes
    monitorActivity := win.monitorActivity
    monitorSilence := win.monitorSilence }

def snapshotPane (clientId : Option String) (pane : Pane) : SnapshotPane :=
  { paneId := pane.paneId
    windowId := pane.windowId
    cols := pane.cols
    rows := pane.rows
    dead := whenTrue pane.dead
    exitCode := wireExitCode pane
    label := pane.label
    bound := whenTrue (paneBoundFor pane clientId)
    detach := pane.detach
    icon := pane.icon
    paneTitle := pane.paneTitle }

def snapshotSession (model : SessionModel) : SnapshotSession :=
  match model.boundSession with
  | some sess => ⟨sess.sessionId, sess.name⟩
  | none => ⟨⟨""⟩, ""⟩

/-- `projectSnapshot`. -/
def projectSnapshot (model : SessionModel) (opts : ProjectSnapshotOpts) : SnapshotMessage :=
  { seq := opts.seq
    session := snapshotSession model
    windows := model.windows.values.map (snapshotWindow model)
    panes := model.panes.values.map (snapshotPane opts.clientId)
    focus := ⟨model.focus.paneId, model.focus.windowId⟩
    attachedClientCount := opts.attachedClientCount
    connectionId := opts.connectionId }

/-! ## Deltas

The one-shot `closeCauseLookup` is asked once for each removed pane, so a function
stands for it. -/

structure DiffOptions where
  windowOrigin : WindowId → Option Origin := fun _ => none
  paneOrigin : PaneId → Option Origin := fun _ => none
  closeCause : PaneId → Option Origin := fun _ => none
  clientId : Option String := none

/-- `layoutsEqual`: equal JSON texts, that is, equal trees. -/
def layoutsEqual (a b : Option WindowLayout) : Bool := a = b

section Phases
variable (prev next : SessionModel) (opts : DiffOptions)

/-- 1. `window.added` -/
def windowAddedOf (win : Window) : Option SessionProxyMessage :=
  if prev.windows.has win.windowId then none
  else some (.windowAdded win.windowId win.name (isActiveWindow next win)
    (opts.windowOrigin win.windowId))

/-- 2. `pane.opened` -/
def paneOpenedOf (pane : Pane) : Option SessionProxyMessage :=
  if prev.panes.has pane.paneId then none
  else
    let win := next.windows.get? pane.windowId
    some (.paneOpened pane.paneId pane.windowId pane.cols pane.rows
      (win.bind Window.activePaneId = some pane.paneId) (whenTrue pane.dead) (wireExitCode pane)
      pane.label (whenTrue (paneBoundFor pane opts.clientId)) pane.detach pane.icon
      (opts.paneOrigin pane.paneId))

/-- 3. `layout.updated`, for new windows as well -/
def layoutUpdatedOf (win : Window) : Option SessionProxyMessage :=
  let prevLayout := (prev.windows.get? win.windowId).bind Window.layout
  if layoutsEqual prevLayout win.layout then none
  else win.layout.map (.layoutUpdated win.windowId)

/-- A phase over the panes present on both sides. -/
def onKeptPane (delta : Pane → Pane → Option SessionProxyMessage) (pane : Pane) :
    Option SessionProxyMessage :=
  (prev.panes.get? pane.paneId).bind (delta · pane)

/-- A phase over the windows present on both sides. -/
def onKeptWindow (delta : Window → Window → Option SessionProxyMessage) (win : Window) :
    Option SessionProxyMessage :=
  (prev.windows.get? win.windowId).bind (delta · win)

/-- 3b. `pane.moved` -/
def paneMovedOf (prevPane pane : Pane) : Option SessionProxyMessage :=
  if prevPane.windowId ≠ pane.windowId then some (.paneMoved pane.paneId pane.windowId) else none

/-- 4. `pane.resized` -/
def paneResizedOf (prevPane pane : Pane) : Option SessionProxyMessage :=
  if prevPane.cols ≠ pane.cols ∨ prevPane.rows ≠ pane.rows then
    some (.paneResized pane.paneId pane.cols pane.rows)
  else none

/-- 5. `pane.mode-changed` -/
def paneModeChangedOf (prevPane pane : Pane) : Option SessionProxyMessage :=
  if prevPane.mode ≠ pane.mode then some (.paneModeChanged pane.paneId pane.mode) else none

/-- 5a2. `pane.label-changed` -/
def paneLabelChangedOf (prevPane pane : Pane) : Option SessionProxyMessage :=
  if prevPane.label ≠ pane.label then some (.paneLabelChanged pane.paneId pane.label) else none

/-- 5a3. `pane.policy-changed` -/
def panePolicyChangedOf (prevPane pane : Pane) : Option SessionProxyMessage :=
  let nextBound := paneBoundFor pane opts.clientId
  if paneBoundFor prevPane opts.clientId ≠ nextBound ∨ prevPane.detach ≠ pane.detach ∨
      prevPane.icon ≠ pane.icon then
    some (.panePolicyChanged pane.paneId nextBound pane.detach pane.icon)
  else none

/-- 5b. `pane.dead-changed` -/
def paneDeadChangedOf (prevPane pane : Pane) : Option SessionProxyMessage :=
  let deadFlipped := prevPane.dead ≠ pane.dead
  let exitCodeAppeared := pane.dead ∧ prevPane.dead ∧ prevPane.exitCode ≠ pane.exitCode
  if deadFlipped ∨ exitCodeAppeared then
    some (.paneDeadChanged pane.paneId pane.dead (wireExitCode pane))
  else none

/-- 5c. `pane.title-changed`: an absent title is sent as the empty one -/
def paneTitleChangedOf (prevPane pane : Pane) : Option SessionProxyMessage :=
  if prevPane.paneTitle ≠ pane.paneTitle then
    some (.paneTitleChanged pane.paneId (pane.paneTitle.getD ""))
  else none

/-- 6. `window.renamed` -/
def windowRenamedOf (prevWin win : Window) : Option SessionProxyMessage :=
  if prevWin.name ≠ win.name then some (.windowRenamed win.windowId win.name) else none

/-- 6b. `window.sync.changed` -/
def windowSyncChangedOf (prevWin win : Window) : Option SessionProxyMessage :=
  if prevWin.synchronizePanes ≠ win.synchronizePanes then
    some (.windowSyncChanged win.windowId win.synchronizePanes)
  else none

/-- 6c. `window.monitor.activity.changed` -/
def windowMonitorActivityChangedOf (prevWin win : Window) : Option SessionProxyMessage :=
  if prevWin.monitorActivity ≠ win.monitorActivity then
    some (.windowMonitorActivityChanged win.windowId win.monitorActivity)
  else none

/-- 6d. `window.monitor.silence.changed` -/
def windowMonitorSilenceChangedOf (prevWin win : Window) : Option SessionProxyMessage :=
  if prevWin.monitorSilence ≠ win.monitorSilence then
    some (.windowMonitorSilenceChanged win.windowId win.monitorSilence)
  else none

/-- 7. `session.renamed` -/
def sessionRenamed : List SessionProxyMessage :=
  match prev.boundSession, next.boundSession with
  | some prevSess, some nextSess =>
    if prevSess.name ≠ nextSess.name then [.sessionRenamed nextSess.name] else []
  | _, _ => []

/-- 8. `focus.changed` -/
def focusChanged : List SessionProxyMessage :=
  if prev.focus.paneId ≠ next.focus.paneId ∨ prev.focus.windowId ≠ next.focus.windowId then
    [.focusChanged next.focus.paneId next.focus.windowId]
  else []

/-- 9. `pane.closed` -/
def paneClosedOf (pane : Pane) : Option SessionProxyMessage :=
  if next.panes.has pane.paneId then none
  else some (.paneClosed pane.paneId pane.windowId (wireExitCode pane)
    (opts.closeCause pane.paneId))

/-- 10. `window.closed` -/
def windowClosedOf (win : Window) : Option SessionProxyMessage :=
  if next.windows.has win.windowId then none else some (.windowClosed win.windowId)

/-- `diffModel`. -/
def diffModel : List SessionProxyMessage :=
  next.windows.values.filterMap (windowAddedOf prev next opts) ++
  next.panes.values.filterMap (paneOpenedOf prev next opts) ++
  next.windows.values.filterMap (layoutUpdatedOf prev) ++
  next.panes.values.filterMap (onKeptPane prev paneMovedOf) ++
  next.panes.values.filterMap (onKeptPane prev paneResizedOf) ++
  next.panes.values.filterMap (onKeptPane prev paneModeChangedOf) ++
  next.panes.values.filterMap (onKeptPane prev paneLabelChangedOf) ++
  next.panes.values.filterMap (onKeptPane prev (panePolicyChangedOf opts)) ++
  next.panes.values.filterMap (onKeptPane prev paneDeadChangedOf) ++
  next.panes.values.filterMap (onKeptPane prev paneTitleChangedOf) ++
  next.windows.values.filterMap (onKeptWindow prev windowRenamedOf) ++
  next.windows.values.filterMap (onKeptWindow prev windowSyncChangedOf) ++
  next.windows.values.filterMap (onKeptWindow prev windowMonitorActivityChangedOf) ++
  next.windows.values.filterMap (onKeptWindow prev windowMonitorSilenceChangedOf) ++
  sessionRenamed prev next ++
  focusChanged prev next ++
  prev.panes.values.filterMap (paneClosedOf next opts) ++
  prev.windows.values.filterMap (windowClosedOf next)

end Phases

/-! ## What a delta names -/

/-- The pane whose slot a delta changes. -/
def changedPane : SessionProxyMessage → Option PaneId
  | .paneOpened paneId .. | .paneDeadChanged paneId .. | .paneClosed paneId ..
  | .paneResized paneId .. | .paneMoved paneId .. | .paneLabelChanged paneId ..
  | .panePolicyChanged paneId .. | .paneTitleChanged paneId .. | .paneModeChanged paneId .. =>
    some paneId
  | _ => none

/-- The window whose slot a delta changes, for the deltas that change one only:
`window.added` and `focus.changed` may change the active flag of every window. -/
def changedWindow : SessionProxyMessage → Option WindowId
  | .windowClosed windowId | .windowRenamed windowId ..
  | .windowSyncChanged windowId .. | .windowMonitorActivityChanged windowId ..
  | .windowMonitorSilenceChanged windowId .. | .layoutUpdated windowId .. => some windowId
  | _ => none

theorem changedPane_of_window {delta : SessionProxyMessage} {windowId : WindowId}
    (h : changedWindow delta = some windowId) : changedPane delta = none := by
  cases delta <;> first | rfl | cases h

/-- A phase over panes whose deltas name the pane they are made from. -/
def NamesPane (delta : Pane → Option SessionProxyMessage) : Prop :=
  ∀ pane d, delta pane = some d → changedPane d = some pane.paneId

/-- A phase over windows whose deltas name the window they are made from. -/
def NamesWindow (delta : Window → Option SessionProxyMessage) : Prop :=
  ∀ win d, delta win = some d → changedWindow d = some win.windowId

theorem namesPane_onKeptPane {prev : SessionModel}
    {delta : Pane → Pane → Option SessionProxyMessage}
    (h : ∀ prevPane, NamesPane (delta prevPane)) : NamesPane (onKeptPane prev delta) := by
  intro pane d hd
  obtain ⟨prevPane, -, hd⟩ := Option.bind_eq_some_iff.mp hd
  exact h prevPane pane d hd

theorem namesWindow_onKeptWindow {prev : SessionModel}
    {delta : Window → Window → Option SessionProxyMessage}
    (h : ∀ prevWin, NamesWindow (delta prevWin)) : NamesWindow (onKeptWindow prev delta) := by
  intro win d hd
  obtain ⟨prevWin, -, hd⟩ := Option.bind_eq_some_iff.mp hd
  exact h prevWin win d hd

section Names
variable (prev next : SessionModel) (opts : DiffOptions)

/-- The shape of most phases: one delta under a condition. -/
theorem names_ite {β : Type} {changed : SessionProxyMessage → Option β} {cond : Prop}
    [Decidable cond] {delta d : SessionProxyMessage} {key : β} (hkey : changed delta = some key)
    (h : (if cond then some delta else none) = some d) : changed d = some key := by
  split at h
  · cases h
    exact hkey
  · cases h

theorem names_ite_not {β : Type} {changed : SessionProxyMessage → Option β} {cond : Prop}
    [Decidable cond] {delta d : SessionProxyMessage} {key : β} (hkey : changed delta = some key)
    (h : (if cond then none else some delta) = some d) : changed d = some key := by
  split at h
  · cases h
  · cases h
    exact hkey

theorem paneOpenedOf_names : NamesPane (paneOpenedOf prev next opts) :=
  fun _ _ h => names_ite_not rfl h

theorem paneClosedOf_names : NamesPane (paneClosedOf next opts) :=
  fun _ _ h => names_ite_not rfl h

theorem paneMovedOf_names : NamesPane (onKeptPane prev paneMovedOf) :=
  namesPane_onKeptPane fun _ _ _ h => names_ite rfl h

theorem paneResizedOf_names : NamesPane (onKeptPane prev paneResizedOf) :=
  namesPane_onKeptPane fun _ _ _ h => names_ite rfl h

theorem paneModeChangedOf_names : NamesPane (onKeptPane prev paneModeChangedOf) :=
  namesPane_onKeptPane fun _ _ _ h => names_ite rfl h

theorem paneLabelChangedOf_names : NamesPane (onKeptPane prev paneLabelChangedOf) :=
  namesPane_onKeptPane fun _ _ _ h => names_ite rfl h

theorem panePolicyChangedOf_names : NamesPane (onKeptPane prev (panePolicyChangedOf opts)) :=
  namesPane_onKeptPane fun _ _ _ h => names_ite rfl h

theorem paneDeadChangedOf_names : NamesPane (onKeptPane prev paneDeadChangedOf) :=
  namesPane_onKeptPane fun _ _ _ h => names_ite rfl h

theorem paneTitleChangedOf_names : NamesPane (onKeptPane prev paneTitleChangedOf) :=
  namesPane_onKeptPane fun _ _ _ h => names_ite rfl h

theorem windowAddedOf_eq {win : Window} {delta : SessionProxyMessage}
    (h : windowAddedOf prev next opts win = some delta) :
    prev.windows.has win.windowId = false ∧
      delta = .windowAdded win.windowId win.name (isActiveWindow next win)
        (opts.windowOrigin win.windowId) := by
  unfold windowAddedOf at h
  split at h
  · cases h
  · next hnew => exact ⟨by simpa using hnew, (Option.some.inj h).symm⟩

theorem windowClosedOf_names : NamesWindow (windowClosedOf next) :=
  fun _ _ h => names_ite_not rfl h

theorem layoutUpdatedOf_names : NamesWindow (layoutUpdatedOf prev) := by
  intro win d h
  simp only [layoutUpdatedOf] at h
  split at h
  · cases h
  · obtain ⟨layout, -, rfl⟩ := Option.map_eq_some_iff.mp h
    rfl

theorem windowRenamedOf_names : NamesWindow (onKeptWindow prev windowRenamedOf) :=
  namesWindow_onKeptWindow fun _ _ _ h => names_ite rfl h

theorem windowSyncChangedOf_names : NamesWindow (onKeptWindow prev windowSyncChangedOf) :=
  namesWindow_onKeptWindow fun _ _ _ h => names_ite rfl h

theorem windowMonitorActivityChangedOf_names :
    NamesWindow (onKeptWindow prev windowMonitorActivityChangedOf) :=
  namesWindow_onKeptWindow fun _ _ _ h => names_ite rfl h

theorem windowMonitorSilenceChangedOf_names :
    NamesWindow (onKeptWindow prev windowMonitorSilenceChangedOf) :=
  namesWindow_onKeptWindow fun _ _ _ h => names_ite rfl h

end Names

end TmuxccDriver.State
