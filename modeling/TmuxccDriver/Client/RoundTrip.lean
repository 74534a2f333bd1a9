import TmuxccDriver.Client.Mirror
import TmuxccDriver.State.Projection

/-!
# Snapshot plus deltas against the next snapshot

A client that starts from the snapshot of one model and applies the deltas to the next
should see what a fresh snapshot of the next model shows. Every pane and every window
is followed through the phases of `diffModel` in its own slot; the active flags, which
one delta may clear on all windows, are followed over the whole phase.

Results:
1. `kept_pane`, `opened_pane`, `closed_pane`: the slot of a pane after all deltas.
2. `window_after`: the slot of a window after all deltas.
3. `round_trip_iff`: the replica shows the next snapshot exactly when the deltas cover
   the change.
-/

namespace TmuxccDriver.Client
open TmuxccDriver.Lib TmuxccDriver.Protocol TmuxccDriver.State

/-! ## What a replica shows -/

/-- The part of a mirrored pane that a snapshot carries. -/
def ClientPane.projected (pane : ClientPane) : ClientPane :=
  { pane with mode := "normal", origin := none }

/-- Two replicas show the same session, windows, panes, focus and client facts in every
field a snapshot carries. -/
structure ShowsSame (model model' : ClientModel) : Prop where
  session : model.session = model'.session
  windows : ∀ windowId, model.windows.get? windowId = model'.windows.get? windowId
  panes : ∀ paneId, (model.panes.get? paneId).map ClientPane.projected =
    (model'.panes.get? paneId).map ClientPane.projected
  focus : model.focus = model'.focus
  attachedClientCount : model.attachedClientCount = model'.attachedClientCount
  ownConnectionId : model.ownConnectionId = model'.ownConnectionId

/-- The replica of a client right after its snapshot. -/
def replica (model : SessionModel) (opts : ProjectSnapshotOpts) : ClientModel :=
  applySnapshot (projectSnapshot model opts)

/-- The deltas computed for the client that the snapshot was made for. -/
def deltasFor (prev next : SessionModel) (snapshotOpts : ProjectSnapshotOpts)
    (diffOpts : DiffOptions) : List SessionProxyMessage :=
  diffModel prev next { diffOpts with clientId := snapshotOpts.clientId }

/-- Snapshot of `prev` and the deltas to `next` show what a snapshot of `next` shows. -/
def RoundTrip (prev next : SessionModel) (snapshotOpts : ProjectSnapshotOpts)
    (diffOpts : DiffOptions) : Prop :=
  ShowsSame
    (applyDeltas (replica prev snapshotOpts) (deltasFor prev next snapshotOpts diffOpts))
    (replica next snapshotOpts)

/-! ## Snapshot slots -/

@[simp] theorem whenTrue_getD (b : Bool) : (whenTrue b).getD false = b := by
  cases b <;> rfl

def clientPane (clientId : Option String) (pane : Pane) : ClientPane :=
  paneOfSnapshot (snapshotPane clientId pane)

def clientWindow (model : SessionModel) (win : Window) : ClientWindow :=
  windowOfSnapshot (snapshotWindow model win)

theorem clientPane_eq (clientId : Option String) (pane : Pane) :
    clientPane clientId pane =
      { paneId := pane.paneId
        windowId := pane.windowId
        cols := pane.cols
        rows := pane.rows
        mode := "normal"
        dead := pane.dead
        exitCode := wireExitCode pane
        label := pane.label
        bound := paneBoundFor pane clientId
        detach := pane.detach
        icon := pane.icon
        paneTitle := pane.paneTitle
        origin := none } := by
  simp only [clientPane, paneOfSnapshot, snapshotPane, whenTrue_getD, wireExitCode]
  cases pane.dead <;> rfl

theorem replica_pane (model : SessionModel) (opts : ProjectSnapshotOpts) (k : PaneId) :
    (replica model opts).panes.get? k = (model.panes.get? k).map (clientPane opts.clientId) := by
  show KeyedMap.get? (.ofList (List.map paneOfSnapshot (List.map _ _))) k = _
  rw [List.map_map]
  exact KeyedMap.get?_ofList_map model.panes (paneOfSnapshot ∘ snapshotPane opts.clientId)
    (fun _ => rfl) k

theorem replica_window (model : SessionModel) (opts : ProjectSnapshotOpts) (k : WindowId) :
    (replica model opts).windows.get? k = (model.windows.get? k).map (clientWindow model) := by
  show KeyedMap.get? (.ofList (List.map windowOfSnapshot (List.map _ _))) k = _
  rw [List.map_map]
  exact KeyedMap.get?_ofList_map model.windows (windowOfSnapshot ∘ snapshotWindow model)
    (fun _ => rfl) k

/-! ## Slots a delta leaves alone -/

theorem paneSlot_of_ne {delta : SessionProxyMessage} {k : PaneId} (h : changedPane delta ≠ some k)
    (slot : Option ClientPane) : paneSlot k slot delta = slot := by
  cases delta <;> first | rfl | exact if_neg fun hk => h (congrArg some hk)

theorem windowSlot_of_ne {delta : SessionProxyMessage} {windowId k : WindowId}
    (hdelta : changedWindow delta = some windowId) (hne : windowId ≠ k)
    (slot : Option ClientWindow) : windowSlot k slot delta = slot := by
  cases delta <;> first | cases hdelta; exact if_neg hne | cases hdelta

theorem windowSlot_of_pane {delta : SessionProxyMessage} {paneId : PaneId}
    (hdelta : changedPane delta = some paneId) (k : WindowId) (slot : Option ClientWindow) :
    windowSlot k slot delta = slot := by
  cases delta <;> first | rfl | cases hdelta

theorem foldl_paneSlot_of_ne {deltas : List SessionProxyMessage} {k : PaneId}
    (h : ∀ delta ∈ deltas, changedPane delta ≠ some k) (slot : Option ClientPane) :
    deltas.foldl (paneSlot k) slot = slot :=
  KeyedMap.foldl_ignored (fun delta hmem => paneSlot_of_ne (h delta hmem)) slot

/-! ## The slot of one pane -/

section PaneSlots
variable {prev next : SessionModel} {opts : DiffOptions} {k : PaneId}

theorem foldl_pane_phase {phase : Pane → Option SessionProxyMessage} (hnames : NamesPane phase)
    (panes : KeyedMap Pane.paneId) (slot : Option ClientPane) :
    (panes.values.filterMap phase).foldl (paneSlot k) slot =
      ((panes.get? k).bind phase).toList.foldl (paneSlot k) slot := by
  refine KeyedMap.foldl_filterMap_at panes phase (paneSlot k) k ?_ slot
  intro pane _ hne d hd s
  refine paneSlot_of_ne ?_ s
  rw [hnames pane d hd]
  exact fun h => hne (Option.some.inj h)

/-- The phases over kept windows leave every pane slot alone. -/
theorem foldl_pane_of_windows {phase : Window → Option SessionProxyMessage}
    (hnames : NamesWindow phase) (windows : KeyedMap Window.windowId) (slot : Option ClientPane) :
    (windows.values.filterMap phase).foldl (paneSlot k) slot = slot := by
  refine foldl_paneSlot_of_ne (fun d hd => ?_) slot
  obtain ⟨win, -, hwin⟩ := List.mem_filterMap.mp hd
  rw [changedPane_of_window (hnames win d hwin)]
  exact nofun

theorem foldl_pane_of_added (slot : Option ClientPane) :
    (next.windows.values.filterMap (windowAddedOf prev next opts)).foldl (paneSlot k) slot =
      slot := by
  refine foldl_paneSlot_of_ne (fun d hd => ?_) slot
  obtain ⟨win, -, hwin⟩ := List.mem_filterMap.mp hd
  rw [(windowAddedOf_eq prev next opts hwin).2]
  exact nofun

theorem foldl_pane_of_session (slot : Option ClientPane) :
    (sessionRenamed prev next).foldl (paneSlot k) slot = slot := by
  refine foldl_paneSlot_of_ne (fun d hd => ?_) slot
  unfold sessionRenamed at hd
  split at hd
  · split at hd
    · rw [List.mem_singleton.mp hd]
      exact nofun
    · cases hd
  · cases hd

theorem foldl_pane_of_focus (slot : Option ClientPane) :
    (focusChanged prev next).foldl (paneSlot k) slot = slot := by
  refine foldl_paneSlot_of_ne (fun d hd => ?_) slot
  unfold focusChanged at hd
  split at hd
  · rw [List.mem_singleton.mp hd]
    exact nofun
  · cases hd

/-- Only the pane phases count for a pane slot. -/
theorem foldl_paneSlot_diffModel (slot : Option ClientPane) :
    (diffModel prev next opts).foldl (paneSlot k) slot =
      let phase (f : Pane → Option SessionProxyMessage) (s : Option ClientPane) :=
        ((next.panes.get? k).bind f).toList.foldl (paneSlot k) s
      let opened := phase (paneOpenedOf prev next opts) slot
      let kept := phase (onKeptPane prev paneTitleChangedOf) <|
        phase (onKeptPane prev paneDeadChangedOf) <|
        phase (onKeptPane prev (panePolicyChangedOf opts)) <|
        phase (onKeptPane prev paneLabelChangedOf) <|
        phase (onKeptPane prev paneModeChangedOf) <|
        phase (onKeptPane prev paneResizedOf) <|
        phase (onKeptPane prev paneMovedOf) opened
      ((prev.panes.get? k).bind (paneClosedOf next opts)).toList.foldl (paneSlot k) kept := by
  simp only [diffModel, List.foldl_append, foldl_pane_of_session, foldl_pane_of_focus,
    foldl_pane_of_added,
    foldl_pane_of_windows (layoutUpdatedOf_names prev),
    foldl_pane_of_windows (windowRenamedOf_names prev),
    foldl_pane_of_windows (windowSyncChangedOf_names prev),
    foldl_pane_of_windows (windowMonitorActivityChangedOf_names prev),
    foldl_pane_of_windows (windowMonitorSilenceChangedOf_names prev),
    foldl_pane_of_windows (windowClosedOf_names next),
    foldl_pane_phase (paneOpenedOf_names prev next opts),
    foldl_pane_phase (paneMovedOf_names prev), foldl_pane_phase (paneResizedOf_names prev),
    foldl_pane_phase (paneModeChangedOf_names prev),
    foldl_pane_phase (paneLabelChangedOf_names prev),
    foldl_pane_phase (panePolicyChangedOf_names prev opts),
    foldl_pane_phase (paneDeadChangedOf_names prev),
    foldl_pane_phase (paneTitleChangedOf_names prev),
    foldl_pane_phase (paneClosedOf_names next opts)]

/-! What one phase does to the slot of a pane present on both sides. -/

section Kept
variable {prevPane pane : Pane} {c : ClientPane}

theorem paneMoved_slot (hc : c.windowId = prevPane.windowId) :
    (paneMovedOf prevPane pane).toList.foldl (paneSlot pane.paneId) (some c) =
      some { c with windowId := pane.windowId } := by
  unfold paneMovedOf
  split
  · simp [paneSlot]
  · next h => simp [← hc.trans (not_not.mp h)]

theorem paneResized_slot (hcols : c.cols = prevPane.cols) (hrows : c.rows = prevPane.rows) :
    (paneResizedOf prevPane pane).toList.foldl (paneSlot pane.paneId) (some c) =
      some { c with cols := pane.cols, rows := pane.rows } := by
  unfold paneResizedOf
  split
  · simp [paneSlot]
  · next h =>
    rw [not_or, not_not, not_not] at h
    simp [← hcols.trans h.1, ← hrows.trans h.2]

theorem paneModeChanged_slot :
    (paneModeChangedOf prevPane pane).toList.foldl (paneSlot pane.paneId) (some c) =
      some { c with mode := if prevPane.mode = pane.mode then c.mode else pane.mode } := by
  unfold paneModeChangedOf
  split
  · simp [paneSlot]
  · next h => simp [not_not.mp h]

theorem paneLabelChanged_slot (hc : c.label = prevPane.label) :
    (paneLabelChangedOf prevPane pane).toList.foldl (paneSlot pane.paneId) (some c) =
      some { c with label := pane.label } := by
  unfold paneLabelChangedOf
  split
  · simp [paneSlot]
  · next h => simp [← hc.trans (not_not.mp h)]

theorem panePolicyChanged_slot (hbound : c.bound = paneBoundFor prevPane opts.clientId)
    (hdetach : c.detach = prevPane.detach) (hicon : c.icon = prevPane.icon) :
    (panePolicyChangedOf opts prevPane pane).toList.foldl (paneSlot pane.paneId) (some c) =
      some { c with
        bound := paneBoundFor pane opts.clientId, detach := pane.detach, icon := pane.icon } := by
  simp only [panePolicyChangedOf]
  split
  · simp [paneSlot]
  · next h =>
    rw [not_or, not_or, not_not, not_not, not_not] at h
    simp [← hbound.trans h.1, ← hdetach.trans h.2.1, ← hicon.trans h.2.2]

theorem paneDeadChanged_slot (hdead : c.dead = prevPane.dead)
    (hexit : c.exitCode = wireExitCode prevPane) :
    (paneDeadChangedOf prevPane pane).toList.foldl (paneSlot pane.paneId) (some c) =
      some { c with dead := pane.dead, exitCode := wireExitCode pane } := by
  simp only [paneDeadChangedOf]
  split
  · cases hd : pane.dead <;> simp [paneSlot, wireExitCode, hd]
  · next h =>
    rw [not_or, not_not] at h
    obtain ⟨hsame, hcode⟩ := h
    have hexit' : wireExitCode prevPane = wireExitCode pane := by
      unfold wireExitCode
      rw [hsame]
      split
      · next hd =>
        by_contra hne
        exact hcode ⟨hd, hsame.trans hd, hne⟩
      · rfl
    simp [← hdead.trans hsame, ← hexit.trans hexit']

theorem paneTitleChanged_slot (hc : c.paneTitle = prevPane.paneTitle) :
    (paneTitleChangedOf prevPane pane).toList.foldl (paneSlot pane.paneId) (some c) =
      some { c with
        paneTitle :=
          if prevPane.paneTitle = pane.paneTitle then pane.paneTitle
          else some (pane.paneTitle.getD "") } := by
  unfold paneTitleChangedOf
  split
  · simp [paneSlot]
  · next h => simp [not_not.mp h, ← hc.trans (not_not.mp h)]

end Kept

theorem onKeptPane_kept {delta : Pane → Pane → Option SessionProxyMessage} {prevPane pane : Pane}
    (hprev : prev.panes.get? pane.paneId = some prevPane) :
    onKeptPane prev delta pane = delta prevPane pane := by
  rw [onKeptPane, hprev, Option.bind_some]

theorem onKeptPane_new {delta : Pane → Pane → Option SessionProxyMessage} {pane : Pane}
    (hprev : prev.panes.get? pane.paneId = none) : onKeptPane prev delta pane = none := by
  rw [onKeptPane, hprev, Option.bind_none]

/-- A pane that is in neither model, or leaves with `next`, is gone. -/
theorem absent_pane (hnext : next.panes.get? k = none) :
    (diffModel prev next opts).foldl (paneSlot k)
    ((prev.panes.get? k).map (clientPane opts.clientId))
      = none := by
  rw [foldl_paneSlot_diffModel]
  simp only [hnext, Option.bind_none, Option.toList_none, List.foldl_nil]
  cases hprev : prev.panes.get? k with
  | none => rfl
  | some prevPane =>
    obtain rfl := KeyedMap.key_of_get? hprev
    have hgone : next.panes.has prevPane.paneId = false := KeyedMap.has_eq_false.mpr hnext
    simp [paneClosedOf, hgone, paneSlot]

/-- A pane that comes with `next` is mirrored without its title. -/
theorem opened_pane {pane : Pane} (hprev : prev.panes.get? k = none)
    (hnext : next.panes.get? k = some pane) :
    (diffModel prev next opts).foldl (paneSlot k) none =
      some { clientPane opts.clientId pane with
        paneTitle := none, origin := opts.paneOrigin pane.paneId } := by
  obtain rfl := KeyedMap.key_of_get? hnext
  have hnew : prev.panes.has pane.paneId = false := KeyedMap.has_eq_false.mpr hprev
  rw [foldl_paneSlot_diffModel]
  simp only [hprev, hnext, Option.bind_none, Option.bind_some, onKeptPane_new hprev,
    Option.toList_none, List.foldl_nil, paneOpenedOf, hnew, Option.toList_some, List.foldl_cons,
    paneSlot, if_true, clientPane_eq, whenTrue_getD, Bool.false_eq_true, if_false]
  cases hdead : pane.dead <;> simp [wireExitCode, hdead]

/-- A pane on both sides is mirrored as it is in `next`, but for a title that was cleared. -/
theorem kept_pane {prevPane pane : Pane} (hprev : prev.panes.get? k = some prevPane)
    (hnext : next.panes.get? k = some pane) :
    ∃ mode, (diffModel prev next opts).foldl (paneSlot k)
      (some (clientPane opts.clientId prevPane)) =
      some { clientPane opts.clientId pane with
        mode := mode
        paneTitle :=
          if prevPane.paneTitle = pane.paneTitle then pane.paneTitle
          else some (pane.paneTitle.getD "") } := by
  obtain rfl := KeyedMap.key_of_get? hnext
  have hstays : next.panes.has prevPane.paneId = true := by
    rw [KeyedMap.key_of_get? hprev]
    exact KeyedMap.has_of_mem (KeyedMap.mem_of_get? hnext)
  have hold : prev.panes.has pane.paneId = true :=
    KeyedMap.has_iff.mpr ⟨prevPane, hprev⟩
  rw [foldl_paneSlot_diffModel]
  simp only [hprev, hnext, Option.bind_some, onKeptPane_kept hprev, paneOpenedOf, hold,
    paneClosedOf, hstays, if_true, Option.toList_none, List.foldl_nil, clientPane_eq]
  refine ⟨if prevPane.mode = pane.mode then "normal" else pane.mode, ?_⟩
  -- one phase after the other, each on the slot that the one before it left
  simp only [paneMoved_slot, paneResized_slot, paneModeChanged_slot, paneLabelChanged_slot,
    panePolicyChanged_slot, paneDeadChanged_slot, paneTitleChanged_slot,
    KeyedMap.key_of_get? hprev]

end PaneSlots

/-! ## The slot of one window -/

section WindowSlots
variable (prev next : SessionModel) (opts : DiffOptions) (k : WindowId)

/-- The last of the windows that are added with the active flag on. -/
def lastActiveAdded (wins : List Window) : Option WindowId :=
  (wins.filter fun win => !prev.windows.has win.windowId && isActiveWindow next win).getLast?.map
    Window.windowId

/-- The focus pair of the wire differs. -/
def FocusDiffers : Prop :=
  prev.focus.paneId ≠ next.focus.paneId ∨ prev.focus.windowId ≠ next.focus.windowId

instance : Decidable (FocusDiffers prev next) :=
  inferInstanceAs (Decidable (_ ∨ _))

/-- The active flag after all deltas: `focus.changed` has the last word, before it the
last `window.added` with the flag on. -/
def announcedActive (before : Bool) : Bool :=
  if FocusDiffers prev next then some k = next.focus.windowId
  else match lastActiveAdded prev next next.windows.values with
    | some windowId => windowId = k
    | none => before

variable {prev next opts k}

theorem foldl_window_phase {phase : Window → Option SessionProxyMessage}
    (hnames : NamesWindow phase) (windows : KeyedMap Window.windowId)
    (slot : Option ClientWindow) :
    (windows.values.filterMap phase).foldl (windowSlot k) slot =
      ((windows.get? k).bind phase).toList.foldl (windowSlot k) slot :=
  KeyedMap.foldl_filterMap_at windows phase (windowSlot k) k
    (fun win _ hne d hd s => windowSlot_of_ne (hnames win d hd) hne s) slot

theorem foldl_window_of_panes {phase : Pane → Option SessionProxyMessage}
    (hnames : NamesPane phase) (panes : List Pane) (slot : Option ClientWindow) :
    (panes.filterMap phase).foldl (windowSlot k) slot = slot := by
  refine KeyedMap.foldl_ignored (fun d hd => ?_) slot
  obtain ⟨pane, -, hpane⟩ := List.mem_filterMap.mp hd
  exact windowSlot_of_pane (hnames pane d hpane) k

theorem foldl_window_of_session (slot : Option ClientWindow) :
    (sessionRenamed prev next).foldl (windowSlot k) slot = slot := by
  refine KeyedMap.foldl_ignored (fun d hd => ?_) slot
  unfold sessionRenamed at hd
  split at hd
  · split at hd
    · rw [List.mem_singleton.mp hd]
      exact fun _ => rfl
    · cases hd
  · cases hd

theorem lastActiveAdded_append (wins : List Window) (win : Window) :
    lastActiveAdded prev next (wins ++ [win]) =
      if prev.windows.has win.windowId = false ∧ isActiveWindow next win = true then
        some win.windowId
      else lastActiveAdded prev next wins := by
  unfold lastActiveAdded
  rw [List.filter_append]
  split
  · next h => simp [h.1, h.2]
  · next h =>
    have hdrop : (!prev.windows.has win.windowId && isActiveWindow next win) = false := by
      simpa using h
    simp [hdrop]

theorem lastActiveAdded_mem {wins : List Window} {windowId : WindowId}
    (h : lastActiveAdded prev next wins = some windowId) :
    ∃ win ∈ wins, win.windowId = windowId ∧ prev.windows.has windowId = false ∧
      isActiveWindow next win = true := by
  obtain ⟨win, hlast, rfl⟩ := Option.map_eq_some_iff.mp h
  obtain ⟨hmem, hkeep⟩ := List.mem_filter.mp (List.mem_of_getLast? hlast)
  simp only [Bool.and_eq_true, Bool.not_eq_true'] at hkeep
  exact ⟨win, hmem, rfl, hkeep.1, hkeep.2⟩

/-- The slot of a window whose body is known, with the flag that the additions decide. -/
def flagged (prev next : SessionModel) (k : WindowId) (wins : List Window)
    (slot : Option ClientWindow) : Option ClientWindow :=
  slot.map fun c =>
    { c with
      active := match lastActiveAdded prev next wins with
        | some windowId => windowId = k
        | none => c.active }

/-- The phase of the added windows, by induction on the windows from the right: the last
active one decides the flag of every slot. -/
theorem foldl_windowAdded (wins : List Window) (hnodup : (wins.map Window.windowId).Nodup)
    (slot : Option ClientWindow) :
    (wins.filterMap (windowAddedOf prev next opts)).foldl (windowSlot k) slot =
      flagged prev next k wins
        (match wins.find? fun win : Window => win.windowId = k with
          | some win =>
            if prev.windows.has k = true then slot
            else some (addedWindow k win.name (isActiveWindow next win))
          | none => slot) := by
  induction wins using List.reverseRecOn with
  | nil => cases slot <;> rfl
  | append_singleton wins win ih =>
    rw [List.map_append, List.map_singleton, List.nodup_append] at hnodup
    obtain ⟨hwins, -, hdisjoint⟩ := hnodup
    have hfresh : ∀ w ∈ wins, w.windowId ≠ win.windowId := fun w hw =>
      hdisjoint _ (List.mem_map_of_mem hw) _ (List.mem_singleton_self _)
    have hlast : lastActiveAdded prev next wins ≠ some win.windowId := by
      intro h
      obtain ⟨w, hw, hid, -⟩ := lastActiveAdded_mem h
      exact hfresh w hw hid
    rw [List.filterMap_append, List.foldl_append, ih hwins, List.find?_append]
    by_cases hk : win.windowId = k
    · subst hk
      have hnone : (wins.find? fun w : Window => w.windowId = win.windowId) = none :=
        List.find?_eq_none.mpr fun w hw => by simpa using hfresh w hw
      rw [hnone]
      cases hadded : windowAddedOf prev next opts win with
      | none =>
        have hold : prev.windows.has win.windowId = true := by
          by_contra hnew
          simp [windowAddedOf, hnew] at hadded
        simp [hadded, hold, flagged, lastActiveAdded_append]
      | some delta =>
        obtain ⟨hnew, rfl⟩ := windowAddedOf_eq prev next opts hadded
        cases hactive : isActiveWindow next win with
        | true =>
          simp [hadded, hnew, hactive, flagged, lastActiveAdded_append, windowSlot, addedWindow]
        | false =>
          cases hl : lastActiveAdded prev next wins with
          | none =>
            simp [hadded, hnew, hactive, hl, flagged, lastActiveAdded_append, windowSlot,
              addedWindow]
          | some windowId =>
            have hne : windowId ≠ win.windowId := fun h => hlast (h ▸ hl)
            simp [hadded, hnew, hactive, hl, hne, flagged, lastActiveAdded_append, windowSlot,
              addedWindow]
    · have hfind : List.find? (fun w : Window => decide (w.windowId = k)) [win] = none := by
        simpa using hk
      rw [hfind, Option.or_none]
      cases hadded : windowAddedOf prev next opts win with
      | none =>
        have hold : prev.windows.has win.windowId = true := by
          by_contra hnew
          simp [windowAddedOf, hnew] at hadded
        simp [hadded, hold, flagged, lastActiveAdded_append]
      | some delta =>
        obtain ⟨hnew, rfl⟩ := windowAddedOf_eq prev next opts hadded
        cases hactive : isActiveWindow next win with
        | true =>
          simp [hadded, hnew, hactive, flagged, lastActiveAdded_append, windowSlot, hk,
            Function.comp_def]
        | false =>
          simp [hadded, hnew, hactive, flagged, lastActiveAdded_append, windowSlot, hk]

/-- Only the window phases and the focus count for a window slot. -/
theorem foldl_windowSlot_diffModel (slot : Option ClientWindow) :
    (diffModel prev next opts).foldl (windowSlot k) slot =
      let phase (f : Window → Option SessionProxyMessage) (s : Option ClientWindow) :=
        ((next.windows.get? k).bind f).toList.foldl (windowSlot k) s
      let added :=
        (next.windows.values.filterMap (windowAddedOf prev next opts)).foldl (windowSlot k) slot
      let kept := phase (onKeptWindow prev windowMonitorSilenceChangedOf) <|
        phase (onKeptWindow prev windowMonitorActivityChangedOf) <|
        phase (onKeptWindow prev windowSyncChangedOf) <|
        phase (onKeptWindow prev windowRenamedOf) <|
        phase (layoutUpdatedOf prev) added
      ((prev.windows.get? k).bind (windowClosedOf next)).toList.foldl (windowSlot k)
        ((focusChanged prev next).foldl (windowSlot k) kept) := by
  simp only [diffModel, List.foldl_append, foldl_window_of_session,
    foldl_window_of_panes (paneOpenedOf_names prev next opts),
    foldl_window_of_panes (paneMovedOf_names prev),
    foldl_window_of_panes (paneResizedOf_names prev),
    foldl_window_of_panes (paneModeChangedOf_names prev),
    foldl_window_of_panes (paneLabelChangedOf_names prev),
    foldl_window_of_panes (panePolicyChangedOf_names prev opts),
    foldl_window_of_panes (paneDeadChangedOf_names prev),
    foldl_window_of_panes (paneTitleChangedOf_names prev),
    foldl_window_of_panes (paneClosedOf_names next opts),
    foldl_window_phase (layoutUpdatedOf_names prev),
    foldl_window_phase (windowRenamedOf_names prev),
    foldl_window_phase (windowSyncChangedOf_names prev),
    foldl_window_phase (windowMonitorActivityChangedOf_names prev),
    foldl_window_phase (windowMonitorSilenceChangedOf_names prev),
    foldl_window_phase (windowClosedOf_names next)]

section Kept
variable {prevWin win : Window} {c : ClientWindow}

theorem layoutUpdated_slot
    (hc : c.layout = ((prev.windows.get? win.windowId).bind Window.layout).getD .zero) :
    (layoutUpdatedOf prev win).toList.foldl (windowSlot win.windowId) (some c) =
      some { c with
        layout := (win.layout.or ((prev.windows.get? win.windowId).bind Window.layout)).getD
          .zero } := by
  simp only [layoutUpdatedOf]
  split
  · next h =>
    have heq : (prev.windows.get? win.windowId).bind Window.layout = win.layout := by
      simpa [layoutsEqual] using h
    rw [heq] at hc ⊢
    simp [← hc]
  · cases hlayout : win.layout with
    | none => simp [← hc]
    | some layout => simp [windowSlot]

theorem windowRenamed_slot (hc : c.name = prevWin.name) :
    (windowRenamedOf prevWin win).toList.foldl (windowSlot win.windowId) (some c) =
      some { c with name := win.name } := by
  unfold windowRenamedOf
  split
  · simp [windowSlot]
  · next h => simp [← hc.trans (not_not.mp h)]

theorem windowSyncChanged_slot (hc : c.synchronizePanes = prevWin.synchronizePanes) :
    (windowSyncChangedOf prevWin win).toList.foldl (windowSlot win.windowId) (some c) =
      some { c with synchronizePanes := win.synchronizePanes } := by
  unfold windowSyncChangedOf
  split
  · simp [windowSlot]
  · next h => simp [← hc.trans (not_not.mp h)]

theorem windowMonitorActivityChanged_slot (hc : c.monitorActivity = prevWin.monitorActivity) :
    (windowMonitorActivityChangedOf prevWin win).toList.foldl (windowSlot win.windowId) (some c) =
      some { c with monitorActivity := win.monitorActivity } := by
  unfold windowMonitorActivityChangedOf
  split
  · simp [windowSlot]
  · next h => simp [← hc.trans (not_not.mp h)]

theorem windowMonitorSilenceChanged_slot (hc : c.monitorSilence = prevWin.monitorSilence) :
    (windowMonitorSilenceChangedOf prevWin win).toList.foldl (windowSlot win.windowId) (some c) =
      some { c with monitorSilence := win.monitorSilence } := by
  unfold windowMonitorSilenceChangedOf
  split
  · simp [windowSlot]
  · next h => simp [← hc.trans (not_not.mp h)]

theorem onKeptWindow_kept {delta : Window → Window → Option SessionProxyMessage}
    (hprev : prev.windows.get? win.windowId = some prevWin) :
    onKeptWindow prev delta win = delta prevWin win := by
  rw [onKeptWindow, hprev, Option.bind_some]

theorem onKeptWindow_new {delta : Window → Window → Option SessionProxyMessage}
    (hprev : prev.windows.get? win.windowId = none) : onKeptWindow prev delta win = none := by
  rw [onKeptWindow, hprev, Option.bind_none]

end Kept

theorem focusChanged_eq :
    focusChanged prev next =
      if FocusDiffers prev next then
        [.focusChanged next.focus.paneId next.focus.windowId]
      else [] :=
  rfl

theorem focusChanged_slot {c : ClientWindow} (hid : c.windowId = k) {before : Bool}
    (hc : c.active = match lastActiveAdded prev next next.windows.values with
      | some windowId => decide (windowId = k)
      | none => before) :
    (focusChanged prev next).foldl (windowSlot k) (some c) =
      some { c with active := announcedActive prev next k before } := by
  rw [focusChanged_eq, announcedActive]
  by_cases hfocus : FocusDiffers prev next
  · rw [if_pos hfocus, if_pos hfocus]
    simp [windowSlot, hid]
  · rw [if_neg hfocus, if_neg hfocus]
    simp [← hc]

theorem focusChanged_absent : (focusChanged prev next).foldl (windowSlot k) none = none := by
  rw [focusChanged_eq]
  split <;> rfl

theorem find_windows {slot : Option Window} (hnext : next.windows.get? k = slot) :
    next.windows.values.find? (fun win : Window => win.windowId = k) = slot := hnext

theorem absent_window (hnext : next.windows.get? k = none) :
    (diffModel prev next opts).foldl (windowSlot k)
      ((prev.windows.get? k).map (clientWindow prev)) = none := by
  rw [foldl_windowSlot_diffModel, foldl_windowAdded _ next.windows.nodup, find_windows hnext]
  simp only [hnext, Option.bind_none, Option.toList_none, List.foldl_nil]
  cases hprev : prev.windows.get? k with
  | none => simp [flagged, focusChanged_absent]
  | some prevWin =>
    obtain rfl := KeyedMap.key_of_get? hprev
    have hgone : next.windows.has prevWin.windowId = false := KeyedMap.has_eq_false.mpr hnext
    simp [windowClosedOf, hgone, windowSlot]

/-- A window that comes with `next` has its name, flag and layout, and default options. -/
theorem added_window {win : Window} (hprev : prev.windows.get? k = none)
    (hnext : next.windows.get? k = some win) :
    (diffModel prev next opts).foldl (windowSlot k) none =
      some { addedWindow k win.name (announcedActive prev next k (isActiveWindow next win)) with
        layout := win.layout.getD .zero } := by
  obtain rfl := KeyedMap.key_of_get? hnext
  have hnew : prev.windows.has win.windowId = false := KeyedMap.has_eq_false.mpr hprev
  rw [foldl_windowSlot_diffModel, foldl_windowAdded _ next.windows.nodup, find_windows hnext]
  simp only [hprev, hnext, hnew, Option.bind_none, Option.bind_some, onKeptWindow_new hprev,
    Option.toList_none, List.foldl_nil, flagged, Bool.false_eq_true, if_false, Option.map_some,
    addedWindow]
  rw [layoutUpdated_slot (by rw [hprev]; rfl)]
  dsimp only
  rw [@focusChanged_slot prev next win.windowId _ rfl (isActiveWindow next win) rfl]
  simp [hprev]

/-- A window on both sides is mirrored as it is in `next`, but for a layout that was lost
and for the active flag. -/
theorem kept_window {prevWin win : Window} (hprev : prev.windows.get? k = some prevWin)
    (hnext : next.windows.get? k = some win) :
    (diffModel prev next opts).foldl (windowSlot k) (some (clientWindow prev prevWin)) =
      some { clientWindow next win with
        active := announcedActive prev next k (isActiveWindow prev prevWin)
        layout := (win.layout.or prevWin.layout).getD .zero } := by
  obtain rfl := KeyedMap.key_of_get? hnext
  have hold : prev.windows.has win.windowId = true := KeyedMap.has_iff.mpr ⟨prevWin, hprev⟩
  have hstays : next.windows.has prevWin.windowId = true := by
    rw [KeyedMap.key_of_get? hprev]
    exact KeyedMap.has_of_mem (KeyedMap.mem_of_get? hnext)
  rw [foldl_windowSlot_diffModel, foldl_windowAdded _ next.windows.nodup, find_windows hnext]
  simp only [hprev, hnext, hold, hstays, windowClosedOf, Option.bind_some, onKeptWindow_kept hprev,
    Option.toList_none, List.foldl_nil, flagged, if_true, Option.map_some]
  rw [layoutUpdated_slot (by rw [hprev]; rfl)]
  simp only [windowRenamed_slot, windowSyncChanged_slot, windowMonitorActivityChanged_slot,
    windowMonitorSilenceChanged_slot, clientWindow, windowOfSnapshot, snapshotWindow]
  have hid : prevWin.windowId = win.windowId := KeyedMap.key_of_get? hprev
  rw [@focusChanged_slot prev next _ _ hid (isActiveWindow prev prevWin) rfl]
  simp [hprev, hid]

end WindowSlots

/-! ## The fields that are not in a map -/

section Scalars
variable {prev next : SessionModel} {opts : DiffOptions}

/-- A delta about a pane or a window. -/
def EntityDelta (delta : SessionProxyMessage) : Prop :=
  (∃ paneId, changedPane delta = some paneId) ∨ (∃ windowId, changedWindow delta = some windowId) ∨
    ∃ windowId name active origin, delta = .windowAdded windowId name active origin

theorem entity_of_panes {phase : Pane → Option SessionProxyMessage} (hnames : NamesPane phase)
    {panes : List Pane} {delta : SessionProxyMessage} (h : delta ∈ panes.filterMap phase) :
    EntityDelta delta := by
  obtain ⟨pane, -, hpane⟩ := List.mem_filterMap.mp h
  exact .inl ⟨_, hnames pane delta hpane⟩

theorem entity_of_windows {phase : Window → Option SessionProxyMessage}
    (hnames : NamesWindow phase) {wins : List Window} {delta : SessionProxyMessage}
    (h : delta ∈ wins.filterMap phase) : EntityDelta delta := by
  obtain ⟨win, -, hwin⟩ := List.mem_filterMap.mp h
  exact .inr (.inl ⟨_, hnames win delta hwin⟩)

theorem entity_of_added {wins : List Window} {delta : SessionProxyMessage}
    (h : delta ∈ wins.filterMap (windowAddedOf prev next opts)) : EntityDelta delta := by
  obtain ⟨win, -, hwin⟩ := List.mem_filterMap.mp h
  exact .inr (.inr ⟨_, _, _, _, (windowAddedOf_eq prev next opts hwin).2⟩)

/-- Everything but the session and focus deltas is about panes and windows. -/
theorem diffModel_split :
    ∃ before after, diffModel prev next opts =
        before ++ (sessionRenamed prev next ++ (focusChanged prev next ++ after)) ∧
      (∀ delta ∈ before, EntityDelta delta) ∧ ∀ delta ∈ after, EntityDelta delta := by
  refine ⟨_, _, by rw [diffModel, List.append_assoc _ _ (List.filterMap (windowClosedOf next) _),
    List.append_assoc, List.append_assoc], ?_, ?_⟩
  · intro delta h
    simp only [List.mem_append] at h
    rcases h with (((((((((((((h | h) | h) | h) | h) | h) | h) | h) | h) | h) | h) | h) | h) | h)
    · exact entity_of_added h
    · exact entity_of_panes (paneOpenedOf_names prev next opts) h
    · exact entity_of_windows (layoutUpdatedOf_names prev) h
    · exact entity_of_panes (paneMovedOf_names prev) h
    · exact entity_of_panes (paneResizedOf_names prev) h
    · exact entity_of_panes (paneModeChangedOf_names prev) h
    · exact entity_of_panes (paneLabelChangedOf_names prev) h
    · exact entity_of_panes (panePolicyChangedOf_names prev opts) h
    · exact entity_of_panes (paneDeadChangedOf_names prev) h
    · exact entity_of_panes (paneTitleChangedOf_names prev) h
    · exact entity_of_windows (windowRenamedOf_names prev) h
    · exact entity_of_windows (windowSyncChangedOf_names prev) h
    · exact entity_of_windows (windowMonitorActivityChangedOf_names prev) h
    · exact entity_of_windows (windowMonitorSilenceChangedOf_names prev) h
  · intro delta h
    rcases List.mem_append.mp h with h | h
    · exact entity_of_panes (paneClosedOf_names next opts) h
    · exact entity_of_windows (windowClosedOf_names next) h

/-- What deltas about panes and windows keep. -/
structure SameScalars (model model' : ClientModel) : Prop where
  session : model'.session = model.session
  focus : model'.focus = model.focus
  attachedClientCount : model'.attachedClientCount = model.attachedClientCount
  ownConnectionId : model'.ownConnectionId = model.ownConnectionId

theorem updatePane_scalars (model : ClientModel) (paneId : PaneId) (f : ClientPane → ClientPane) :
    SameScalars model (model.updatePane paneId f) := by
  unfold ClientModel.updatePane
  split <;> exact ⟨rfl, rfl, rfl, rfl⟩

theorem updateWindow_scalars (model : ClientModel) (windowId : WindowId)
    (f : ClientWindow → ClientWindow) : SameScalars model (model.updateWindow windowId f) := by
  unfold ClientModel.updateWindow
  split <;> exact ⟨rfl, rfl, rfl, rfl⟩

theorem applyDelta_scalars {delta : SessionProxyMessage} (h : EntityDelta delta)
    (model : ClientModel) : SameScalars model (applyDelta model delta) := by
  cases delta
  case paneOpened | windowAdded => exact ⟨rfl, rfl, rfl, rfl⟩
  case paneClosed | windowClosed =>
    simp only [applyDelta]
    split <;> exact ⟨rfl, rfl, rfl, rfl⟩
  case paneDeadChanged | paneResized | paneMoved | paneLabelChanged | panePolicyChanged
      | paneTitleChanged | paneModeChanged =>
    exact updatePane_scalars ..
  case windowRenamed | windowSyncChanged | windowMonitorActivityChanged
      | windowMonitorSilenceChanged | layoutUpdated =>
    exact updateWindow_scalars ..
  case focusChanged | sessionRenamed | clientCountChanged | snapshot | notStateBearing =>
    rcases h with ⟨_, ⟨⟩⟩ | ⟨_, ⟨⟩⟩ | ⟨_, _, _, _, ⟨⟩⟩

theorem applyDeltas_scalars {deltas : List SessionProxyMessage}
    (h : ∀ delta ∈ deltas, EntityDelta delta) (model : ClientModel) :
    SameScalars model (applyDeltas model deltas) := by
  induction deltas generalizing model with
  | nil => exact ⟨rfl, rfl, rfl, rfl⟩
  | cons delta deltas ih =>
    have hfirst := applyDelta_scalars (h delta List.mem_cons_self) model
    have hrest := ih (fun d hd => h d (List.mem_cons_of_mem _ hd)) (applyDelta model delta)
    exact ⟨hrest.session.trans hfirst.session, hrest.focus.trans hfirst.focus,
      hrest.attachedClientCount.trans hfirst.attachedClientCount,
      hrest.ownConnectionId.trans hfirst.ownConnectionId⟩

theorem sessionRenamed_scalars {snapshotOpts : ProjectSnapshotOpts} {model : ClientModel}
    (hbound : prev.boundSession.map Session.sessionId = next.boundSession.map Session.sessionId)
    (hmodel : model.session = (replica prev snapshotOpts).session) :
    SameScalars { model with session := (replica next snapshotOpts).session }
      (applyDeltas model (sessionRenamed prev next)) := by
  obtain ⟨session, windows, panes, focus, exitCodes, closeCauses, count, own⟩ := model
  subst hmodel
  refine ⟨?_, ?_, ?_, ?_⟩
  all_goals
    unfold sessionRenamed
    cases hprev : prev.boundSession with
    | none => simp_all [applyDeltas, replica, applySnapshot, projectSnapshot, snapshotSession]
    | some prevSess =>
      cases hnext : next.boundSession with
      | none => simp [hprev, hnext] at hbound
      | some nextSess =>
        have hid : prevSess.sessionId = nextSess.sessionId := by
          simpa [hprev, hnext] using hbound
        by_cases hname : prevSess.name = nextSess.name <;>
          simp [hname, hid, hprev, hnext, applyDeltas, applyDelta, replica, applySnapshot,
            projectSnapshot, snapshotSession]

theorem focusChanged_scalars {model : ClientModel}
    (hmodel : model.focus = ⟨prev.focus.paneId, prev.focus.windowId⟩) :
    SameScalars { model with focus := ⟨next.focus.paneId, next.focus.windowId⟩ }
      (applyDeltas model (focusChanged prev next)) := by
  rw [focusChanged_eq]
  split
  · exact ⟨rfl, rfl, rfl, rfl⟩
  · next h =>
    rw [FocusDiffers, not_or, not_not, not_not] at h
    exact ⟨rfl, by simp [applyDeltas, hmodel, h.1, h.2], rfl, rfl⟩

/-- Session, focus and client facts always end as the next snapshot has them. -/
theorem scalars_after {snapshotOpts : ProjectSnapshotOpts}
    (hbound : prev.boundSession.map Session.sessionId = next.boundSession.map Session.sessionId) :
    SameScalars (replica next snapshotOpts)
      (applyDeltas (replica prev snapshotOpts) (diffModel prev next opts)) := by
  obtain ⟨before, after, hsplit, hbefore, hafter⟩ := @diffModel_split prev next opts
  have hfirst := applyDeltas_scalars hbefore (replica prev snapshotOpts)
  have hsession := sessionRenamed_scalars hbound hfirst.session
  have hfocus := @focusChanged_scalars prev next
    (applyDeltas (applyDeltas (replica prev snapshotOpts) before) (sessionRenamed prev next))
    (hsession.focus.trans hfirst.focus)
  have hlast := applyDeltas_scalars hafter (applyDeltas (applyDeltas (applyDeltas
    (replica prev snapshotOpts) before) (sessionRenamed prev next)) (focusChanged prev next))
  rw [hsplit, applyDeltas_append, applyDeltas_append, applyDeltas_append]
  exact ⟨hlast.session.trans (hfocus.session.trans hsession.session),
    hlast.focus.trans hfocus.focus,
    hlast.attachedClientCount.trans (hfocus.attachedClientCount.trans
      (hsession.attachedClientCount.trans hfirst.attachedClientCount)),
    hlast.ownConnectionId.trans (hfocus.ownConnectionId.trans
      (hsession.ownConnectionId.trans hfirst.ownConnectionId))⟩

end Scalars

/-! ## When the deltas cover the change -/

/-- What the deltas from `prev` to `next` cannot say must be as the mirror assumes it:
`pane.opened` has no title and a cleared title arrives as the empty one, `window.added`
has default options, no delta takes a layout back, and the active flags follow
`focus.changed` and `window.added` only. -/
structure DeltasCover (prev next : SessionModel) : Prop where
  opened_title : ∀ pane ∈ next.panes.values, prev.panes.get? pane.paneId = none →
    pane.paneTitle = none
  kept_title : ∀ pane ∈ next.panes.values, ∀ prevPane,
    prev.panes.get? pane.paneId = some prevPane → pane.paneTitle = none → prevPane.paneTitle = none
  added_options : ∀ win ∈ next.windows.values, prev.windows.get? win.windowId = none →
    win.synchronizePanes = false ∧ win.monitorActivity = true ∧ win.monitorSilence = 0
  kept_layout : ∀ win ∈ next.windows.values, ∀ prevWin,
    prev.windows.get? win.windowId = some prevWin → win.layout = none →
      prevWin.layout = none ∨ prevWin.layout = some .zero
  focus_active : FocusDiffers prev next → ∀ win ∈ next.windows.values,
    (isActiveWindow next win = true ↔ next.focus.windowId = some win.windowId)
  added_active : ¬ FocusDiffers prev next → ∀ win ∈ next.windows.values,
    prev.windows.get? win.windowId = none → isActiveWindow next win = true →
      ∀ other ∈ next.windows.values, isActiveWindow next other = true → other = win
  kept_active : ¬ FocusDiffers prev next →
    (∀ win ∈ next.windows.values, prev.windows.get? win.windowId = none →
      isActiveWindow next win = false) →
    ∀ win ∈ next.windows.values, ∀ prevWin, prev.windows.get? win.windowId = some prevWin →
      isActiveWindow next win = isActiveWindow prev prevWin

section Cover
variable {prev next : SessionModel} {opts : DiffOptions}

theorem pane_shows_iff (k : PaneId) :
    ((diffModel prev next opts).foldl (paneSlot k)
        ((prev.panes.get? k).map (clientPane opts.clientId))).map ClientPane.projected =
      ((next.panes.get? k).map (clientPane opts.clientId)).map ClientPane.projected ↔
    ∀ pane, next.panes.get? k = some pane →
      (prev.panes.get? k = none → pane.paneTitle = none) ∧
      ∀ prevPane, prev.panes.get? k = some prevPane → pane.paneTitle = none →
        prevPane.paneTitle = none := by
  cases hnext : next.panes.get? k with
  | none => simp [absent_pane hnext]
  | some pane =>
    cases hprev : prev.panes.get? k with
    | none =>
      rw [Option.map_none, opened_pane hprev hnext]
      simp [ClientPane.projected, clientPane_eq, eq_comm]
    | some prevPane =>
      obtain ⟨mode, hslot⟩ := @kept_pane prev next opts k prevPane pane hprev hnext
      rw [Option.map_some, hslot]
      by_cases htitle : prevPane.paneTitle = pane.paneTitle
      · simp [ClientPane.projected, clientPane_eq, htitle]
      · cases hnew : pane.paneTitle with
        | none =>
          rw [hnew] at htitle
          simp [ClientPane.projected, clientPane_eq, htitle, hnew]
        | some title => simp [ClientPane.projected, clientPane_eq, hnew]

/-- The flag the mirror had for a window, or got with `window.added`. -/
def activeBefore (prev next : SessionModel) (win : Window) : Bool :=
  match prev.windows.get? win.windowId with
  | some prevWin => isActiveWindow prev prevWin
  | none => isActiveWindow next win

theorem window_shows_iff (k : WindowId) :
    (diffModel prev next opts).foldl (windowSlot k)
    ((prev.windows.get? k).map (clientWindow prev)) =
      (next.windows.get? k).map (clientWindow next) ↔
    ∀ win, next.windows.get? k = some win →
      announcedActive prev next k (activeBefore prev next win) = isActiveWindow next win ∧
      (prev.windows.get? k = none →
        win.synchronizePanes = false ∧ win.monitorActivity = true ∧ win.monitorSilence = 0) ∧
      ∀ prevWin, prev.windows.get? k = some prevWin → win.layout = none →
        prevWin.layout = none ∨ prevWin.layout = some .zero := by
  cases hnext : next.windows.get? k with
  | none => simp [absent_window hnext]
  | some win =>
    obtain rfl := KeyedMap.key_of_get? hnext
    cases hprev : prev.windows.get? win.windowId with
    | none =>
      rw [Option.map_none, added_window hprev hnext]
      simp [clientWindow, windowOfSnapshot, snapshotWindow, addedWindow, activeBefore, hprev,
        @eq_comm Nat 0]
    | some prevWin =>
      rw [Option.map_some, kept_window hprev hnext]
      cases hlayout : win.layout with
      | none =>
        cases hold : prevWin.layout <;>
          simp [clientWindow, windowOfSnapshot, snapshotWindow, activeBefore, hprev, hlayout, hold]
      | some layout =>
        simp [clientWindow, windowOfSnapshot, snapshotWindow, activeBefore, hprev, hlayout]

theorem lastActiveAdded_none {wins : List Window} (h : lastActiveAdded prev next wins = none)
    {win : Window} (hmem : win ∈ wins) (hnew : prev.windows.get? win.windowId = none) :
    isActiveWindow next win = false := by
  rw [lastActiveAdded, Option.map_eq_none_iff, List.getLast?_eq_none_iff,
    List.filter_eq_nil_iff] at h
  have hdrop := h win hmem
  rw [KeyedMap.has_eq_false.mpr hnew] at hdrop
  simpa using hdrop

/-- The announced flags are the flags of `next` exactly under the three conditions. -/
theorem announced_iff :
    (∀ win ∈ next.windows.values,
      announcedActive prev next win.windowId (activeBefore prev next win) =
        isActiveWindow next win) ↔
    (FocusDiffers prev next → ∀ win ∈ next.windows.values,
      (isActiveWindow next win = true ↔ next.focus.windowId = some win.windowId)) ∧
    (¬ FocusDiffers prev next → ∀ win ∈ next.windows.values,
      prev.windows.get? win.windowId = none → isActiveWindow next win = true →
        ∀ other ∈ next.windows.values, isActiveWindow next other = true → other = win) ∧
    (¬ FocusDiffers prev next →
      (∀ win ∈ next.windows.values, prev.windows.get? win.windowId = none →
        isActiveWindow next win = false) →
      ∀ win ∈ next.windows.values, ∀ prevWin, prev.windows.get? win.windowId = some prevWin →
        isActiveWindow next win = isActiveWindow prev prevWin) := by
  unfold announcedActive
  by_cases hfocus : FocusDiffers prev next
  · simp only [hfocus, if_true, forall_const, not_true_eq_false, false_implies, and_true]
    refine forall₂_congr fun win _ => ?_
    rw [Bool.eq_iff_iff, decide_eq_true_iff]
    exact ⟨fun h => h.symm.trans eq_comm, fun h => (h.trans eq_comm).symm⟩
  simp only [hfocus, if_false, false_implies, true_and, not_false_eq_true, forall_const]
  have hinj : ∀ win ∈ next.windows.values, ∀ other ∈ next.windows.values,
      win.windowId = other.windowId → win = other := fun win hwin other hother =>
    List.inj_on_of_nodup_map next.windows.nodup hwin hother
  cases hlast : lastActiveAdded prev next next.windows.values with
  | none =>
    have hnone := fun win hwin => @lastActiveAdded_none prev next _ hlast win hwin
    constructor
    · intro h
      refine ⟨fun win hwin hnew hactive => ?_, fun _ win hwin prevWin hprev => ?_⟩
      · rw [hnone win hwin hnew] at hactive
        cases hactive
      · simpa [activeBefore, hprev] using (h win hwin).symm
    · rintro ⟨-, hkept⟩ win hwin
      cases hprev : prev.windows.get? win.windowId with
      | none => simp [activeBefore, hprev]
      | some prevWin => simpa [activeBefore, hprev] using (hkept hnone win hwin prevWin hprev).symm
  | some windowId =>
    obtain ⟨last, hmem, rfl, hnew, hactive⟩ := lastActiveAdded_mem hlast
    have hnew := KeyedMap.has_eq_false.mp hnew
    constructor
    · intro h
      have hshown : ∀ win ∈ next.windows.values, isActiveWindow next win = true → win = last := by
        intro win hwin hactive
        have hid := h win hwin
        rw [hactive, decide_eq_true_iff] at hid
        exact hinj win hwin last hmem hid.symm
      refine ⟨fun win hwin _ hwinActive other hother hotherActive => ?_, fun hinactive => ?_⟩
      · rw [hshown other hother hotherActive, hshown win hwin hwinActive]
      · rw [hinactive last hmem hnew] at hactive
        cases hactive
    · rintro ⟨honly, -⟩ win hwin
      rw [Bool.eq_iff_iff, decide_eq_true_iff]
      constructor
      · intro hid
        rw [← hinj last hmem win hwin hid]
        exact hactive
      · intro hwinActive
        rw [honly last hmem hnew hactive win hwin hwinActive]

/-- The two replicas agree slot by slot. -/
theorem showsSame_iff {snapshotOpts : ProjectSnapshotOpts}
    (hbound : prev.boundSession.map Session.sessionId = next.boundSession.map Session.sessionId)
    (hclient : opts.clientId = snapshotOpts.clientId) :
    ShowsSame (applyDeltas (replica prev snapshotOpts) (diffModel prev next opts))
        (replica next snapshotOpts) ↔
      (∀ k, (diffModel prev next opts).foldl (windowSlot k)
          ((prev.windows.get? k).map (clientWindow prev)) =
        (next.windows.get? k).map (clientWindow next)) ∧
      ∀ k, ((diffModel prev next opts).foldl (paneSlot k)
          ((prev.panes.get? k).map (clientPane opts.clientId))).map ClientPane.projected =
        ((next.panes.get? k).map (clientPane opts.clientId)).map ClientPane.projected := by
  have hscalars := @scalars_after prev next opts snapshotOpts hbound
  constructor
  · rintro ⟨-, hwindows, hpanes, -, -, -⟩
    refine ⟨fun k => ?_, fun k => ?_⟩
    · have hk := hwindows k
      rwa [applyDeltas_window, replica_window, replica_window] at hk
    · have hk := hpanes k
      rwa [applyDeltas_pane, replica_pane, replica_pane, ← hclient] at hk
  · rintro ⟨hwindows, hpanes⟩
    refine ⟨hscalars.session, fun k => ?_, fun k => ?_, hscalars.focus,
      hscalars.attachedClientCount, hscalars.ownConnectionId⟩
    · rw [applyDeltas_window, replica_window, replica_window]
      exact hwindows k
    · rw [applyDeltas_pane, replica_pane, replica_pane, ← hclient]
      exact hpanes k

theorem forall_values_iff {α κ : Type} [DecidableEq κ] {key : α → κ} {m : KeyedMap key}
    {P : κ → α → Prop} :
    (∀ k a, m.get? k = some a → P k a) ↔ ∀ a ∈ m.values, P (key a) a := by
  constructor
  · exact fun h a ha => h (key a) a (KeyedMap.get?_self ha)
  · rintro h k a ha
    obtain rfl := KeyedMap.key_of_get? ha
    exact h a (KeyedMap.mem_of_get? ha)

theorem showsSame_iff_cover {snapshotOpts : ProjectSnapshotOpts}
    (hbound : prev.boundSession.map Session.sessionId = next.boundSession.map Session.sessionId)
    (hclient : opts.clientId = snapshotOpts.clientId) :
    ShowsSame (applyDeltas (replica prev snapshotOpts) (diffModel prev next opts))
      (replica next snapshotOpts) ↔ DeltasCover prev next := by
  rw [showsSame_iff hbound hclient]
  simp only [pane_shows_iff, window_shows_iff, forall_values_iff]
  constructor
  · rintro ⟨hwindows, hpanes⟩
    obtain ⟨hfocus, hadded, hkept⟩ := announced_iff.mp fun win hwin => (hwindows win hwin).1
    exact
      { opened_title := fun pane hpane => (hpanes pane hpane).1
        kept_title := fun pane hpane => (hpanes pane hpane).2
        added_options := fun win hwin => (hwindows win hwin).2.1
        kept_layout := fun win hwin => (hwindows win hwin).2.2
        focus_active := hfocus
        added_active := hadded
        kept_active := hkept }
  · intro h
    have hactive := announced_iff.mpr ⟨h.focus_active, h.added_active, h.kept_active⟩
    exact ⟨fun win hwin => ⟨hactive win hwin, h.added_options win hwin, h.kept_layout win hwin⟩,
      fun pane hpane => ⟨h.opened_title pane hpane, h.kept_title pane hpane⟩⟩

/-- The replica shows the next snapshot exactly when the deltas cover the change. -/
theorem round_trip_iff {snapshotOpts : ProjectSnapshotOpts}
    (hbound : prev.boundSession.map Session.sessionId = next.boundSession.map Session.sessionId) :
    RoundTrip prev next snapshotOpts opts ↔ DeltasCover prev next :=
  showsSame_iff_cover hbound rfl

end Cover

/-! A session of one window with two panes, and the same session after the second pane
was broken out into a window of its own. -/

def shellPane (paneId windowId : String) (paneTitle : Option String) : Pane :=
  { paneId := ⟨paneId⟩, windowId := ⟨windowId⟩, sessionId := ⟨"s0"⟩
    cols := 80, rows := 24, mode := "normal", dead := false, label := none, detach := none
    icon := none, paneTitle, exitCode := none, overlay := emptyPaneOverlay }

def shellWindow (windowId name : String) (paneIds : List PaneId) : Window :=
  { windowId := ⟨windowId⟩, sessionId := ⟨"s0"⟩, name, paneIds, activePaneId := paneIds.head?
    layout := none, synchronizePanes := false, monitorActivity := true, monitorSilence := 0 }

def shellSession (windowIds : List WindowId) : Session :=
  ⟨⟨"s0"⟩, "work", windowIds, windowIds.head?⟩

def shellFocus : FocusState := ⟨some ⟨"p0"⟩, some ⟨"w0"⟩, some ⟨"s0"⟩⟩

def twoPanes : SessionModel :=
  { sessions := ⟨[shellSession [⟨"w0"⟩]], by decide⟩
    windows := ⟨[shellWindow "w0" "bash" [⟨"p0"⟩, ⟨"p1"⟩]], by decide⟩
    panes := ⟨[shellPane "p0" "w0" none, shellPane "p1" "w0" none], by decide⟩
    focus := shellFocus }

def brokenOut : SessionModel :=
  { sessions := ⟨[shellSession [⟨"w0"⟩, ⟨"w1"⟩]], by decide⟩
    windows := ⟨[shellWindow "w0" "bash" [⟨"p0"⟩], shellWindow "w1" "logs" [⟨"p1"⟩]], by decide⟩
    panes := ⟨[shellPane "p0" "w0" none, shellPane "p1" "w1" none], by decide⟩
    focus := shellFocus }

/-- One pane more, which comes with the title its shell has set. -/
def threePanes : SessionModel :=
  { sessions := ⟨[shellSession [⟨"w0"⟩]], by decide⟩
    windows := ⟨[shellWindow "w0" "bash" [⟨"p0"⟩, ⟨"p1"⟩, ⟨"p2"⟩]], by decide⟩
    panes := ⟨[shellPane "p0" "w0" none, shellPane "p1" "w0" none,
      shellPane "p2" "w0" (some "vim")], by decide⟩
    focus := shellFocus }

/-- Breaking a pane out reaches the replica. -/
theorem round_trip_break_pane : RoundTrip twoPanes brokenOut {} {} := by
  have huntitled : ∀ pane ∈ twoPanes.panes.values, pane.paneTitle = none := by decide
  have hunlaid : ∀ win ∈ twoPanes.windows.values, win.layout = none := by decide
  have hactive : ∀ win ∈ brokenOut.windows.values, ∀ prevWin ∈ twoPanes.windows.values,
      prevWin.windowId = win.windowId →
        isActiveWindow brokenOut win = isActiveWindow twoPanes prevWin := by decide
  refine (round_trip_iff (by decide)).mpr
    { opened_title := by decide
      kept_title := fun _ _ prevPane hprev _ => huntitled prevPane (KeyedMap.mem_of_get? hprev)
      added_options := by decide
      kept_layout := fun _ _ prevWin hprev _ => .inl (hunlaid prevWin (KeyedMap.mem_of_get? hprev))
      focus_active := fun hfocus => absurd hfocus (by decide)
      added_active := by decide
      kept_active := fun _ _ win hwin prevWin hprev =>
        hactive win hwin prevWin (KeyedMap.mem_of_get? hprev) (KeyedMap.key_of_get? hprev) }

/-- The title of a new pane does not reach the replica. -/
theorem round_trip_fails_opened_title :
    checkInvariants twoPanes false = [] ∧ checkInvariants threePanes false = [] ∧
      twoPanes.boundSession.map Session.sessionId = threePanes.boundSession.map Session.sessionId ∧
      ¬ RoundTrip twoPanes threePanes {} {} := by
  refine ⟨by decide, by decide, by decide, fun h => ?_⟩
  exact absurd (h.panes ⟨"p2"⟩) (by decide)

end TmuxccDriver.Client
