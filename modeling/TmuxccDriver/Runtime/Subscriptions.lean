import TmuxccDriver.Runtime.CleanModel
import TmuxccDriver.Runtime.OptionFields

/-!
# Subscriptions

The two values that tmux reports by a subscription, `sync-watch` and `title-watch`, as the model,
the listings and the reports have them. A report patches the model at once, and it does not dirty
the engine.

Results:
1. `get_patch`: which patches set a value.
2. `told_of_get`: a model that was built has what a row tells.
3. `Watched.step`: a run with an account of the reports; `Calm`: no commit undoes one of them.
-/

namespace TmuxccDriver.Runtime.CleanModel
open TmuxccDriver.Lib TmuxccDriver.Protocol TmuxccDriver.State TmuxccDriver.Runtime.Dispatch
open TmuxccDriver.Parser (CommandResult)
open TmuxccDriver.Parser.Notifications (NotificationEvent)

/-! ## Values -/

/-- What a subscription watches. -/
inductive Watch
  | sync (windowId : WindowId)
  | title (paneId : PaneId)
deriving DecidableEq

/-- A title that is not set is the empty one. -/
inductive Reading
  | flag (on : Bool)
  | text (title : String)
deriving DecidableEq

namespace Watch

/-- The value of the model, if it has the window or the pane. -/
def get (model : SessionModel) : Watch → Option Reading
  | .sync id => (model.windows.get? id).map fun win => .flag win.synchronizePanes
  | .title id => (model.panes.get? id).map fun pane => .text (pane.paneTitle.getD "")

/-- The listing that has it. -/
def listing : Watch → Listing
  | .sync _ => .windows
  | .title _ => .panes

/-- What a row of `list-windows` says. -/
def inWindowsRow (row : WindowsReplyRow) : Watch → Option Reading
  | .sync id =>
    if mintWindowId row.tmuxWindowId = id then some (.flag row.synchronizePanes) else none
  | .title _ => none

/-- What a row of `list-panes` says. -/
def inPanesRow (row : PanesReplyRow) : Watch → Option Reading
  | .sync _ => none
  | .title id =>
    if mintPaneId row.tmuxPaneId = id then some (.text (row.paneTitle.getD "")) else none

/-- All that the rows say of it. -/
def told (windowRows : List WindowsReplyRow) (paneRows : List PanesReplyRow) (watch : Watch) :
    List Reading :=
  windowRows.filterMap watch.inWindowsRow ++ paneRows.filterMap watch.inPanesRow

/-- The value that a patch sets. -/
def setBy : Patch → Watch → Option Reading
  | .synthetic (.setWindowSync windowId on), .sync id =>
    if windowId = id then some (.flag on) else none
  | .syncWatch tmuxWindowId value, .sync id =>
    if mintWindowId tmuxWindowId = id then some (.flag (trim value.toList = ['1'])) else none
  | .titleWatch tmuxPaneId value, .title id =>
    if mintPaneId tmuxPaneId = id then some (.text value) else none
  | _, _ => none

end Watch

/-- What a notification reports. -/
def report (event : NotificationEvent) : Option (Watch × Reading) :=
  match watchPatch event with
  | some (.syncWatch tmuxWindowId value) =>
    some (.sync (mintWindowId tmuxWindowId), .flag (trim value.toList = ['1']))
  | some (.titleWatch tmuxPaneId value) => some (.title (mintPaneId tmuxPaneId), .text value)
  | _ => none

/-! ## Patches -/

section Patches

variable {model : SessionModel}

/-- A value of a window or of a pane that is patched if `c`. -/
theorem map_patched {α : Type} {c : Prop} [Decidable c] (o : Option α) {patch : α → α}
    {read : α → Reading} {set : Option Reading} (hread : ∀ a, read (patch a) = set.getD (read a)) :
    (o.map fun a => if c then patch a else a).map read =
      (o.map read).map fun value => (if c then set else none).getD value := by
  rw [Option.map_map, Option.map_map]
  refine congrArg (Option.map · o) (funext fun a => ?_)
  show read (if c then patch a else a) = (if c then set else none).getD (read a)
  split
  · exact hread a
  · rfl

theorem Watch.get_patchWindow (windowId : WindowId) {unchanged : Window → Bool}
    {patch : WindowPatch} (hunchanged : ∀ win, unchanged win = true → patch.apply win = win)
    {set : Option Reading} {watch : Watch}
    (hset : set = match watch with
      | .sync id => if windowId = id then patch.synchronizePanes.map .flag else none
      | .title _ => none) :
    watch.get ((patchWindow windowId unchanged patch model).getD model) =
      (watch.get model).map fun value => set.getD value := by
  subst hset
  cases watch with
  | sync id =>
    simp only [Watch.get, OptionStream.windows_patchWindow windowId id hunchanged]
    refine map_patched _ fun win => ?_
    show Reading.flag (patch.synchronizePanes.getD win.synchronizePanes) = _
    rcases patch.synchronizePanes with _ | on <;> rfl
  | title id =>
    simp only [Watch.get, OptionStream.panes_patchWindow, Option.getD_none, Option.map_id']

theorem Watch.get_patchPane (paneId : PaneId) {unchanged : Pane → Bool} {patch : PanePatch}
    (hunchanged : ∀ pane, unchanged pane = true → patch.apply pane = pane)
    {set : Option Reading} {watch : Watch}
    (hset : set = match watch with
      | .sync _ => none
      | .title id =>
        if paneId = id then patch.paneTitle.map fun title => .text (title.getD "") else none) :
    watch.get ((patchPane paneId unchanged patch model).getD model) =
      (watch.get model).map fun value => set.getD value := by
  subst hset
  cases watch with
  | sync id =>
    simp only [Watch.get, OptionStream.windows_patchPane, Option.getD_none, Option.map_id']
  | title id =>
    simp only [Watch.get, OptionStream.panes_patchPane paneId id hunchanged]
    refine map_patched _ fun pane => ?_
    show Reading.text ((patch.paneTitle.getD pane.paneTitle).getD "") = _
    rcases patch.paneTitle with _ | title <;> rfl

/-- No overlay has a value that is watched. -/
theorem Watch.get_of_overlay {next : SessionModel} (hwindows : next.windows = model.windows)
    {f : PaneId → Pane → Pane}
    (hpanes : ∀ id, next.panes.get? id = (model.panes.get? id).map (f id))
    (htitle : ∀ id pane, (f id pane).paneTitle = pane.paneTitle) (watch : Watch) :
    watch.get next = watch.get model := by
  cases watch with
  | sync id => simp only [Watch.get, hwindows]
  | title id =>
    simp only [Watch.get, hpanes, Option.map_map]
    refine congrArg (Option.map · _) (funext fun pane => ?_)
    show Reading.text ((f id pane).paneTitle.getD "") = _
    rw [htitle]

theorem Watch.get_carryForwardOverlays (start candidate : SessionModel) (watch : Watch) :
    watch.get (carryForwardOverlays start candidate) = watch.get candidate := by
  have hpanes : ∀ id, (carryForwardOverlays start candidate).panes.get? id =
      (candidate.panes.get? id).map (adoptOverlay start) :=
    KeyedMap.get?_mapValues candidate.panes _ (adoptOverlay_paneId start)
  have hwindows : (carryForwardOverlays start candidate).windows = candidate.windows := rfl
  refine watch.get_of_overlay hwindows hpanes fun id pane => ?_
  unfold adoptOverlay
  split <;> rfl

/-- A patch sets the values that it is about, and no other one. -/
theorem Watch.get_patch (patch : Patch) (watch : Watch) :
    watch.get ((patch.updater model).getD model) =
      (watch.get model).map fun value => (watch.setBy patch).getD value := by
  have hnone : ∀ {next : SessionModel}, watch.setBy patch = none →
      watch.get next = watch.get model →
      watch.get next = (watch.get model).map fun value => (watch.setBy patch).getD value := by
    intro next hset hget
    simp only [hset, hget, Option.getD_none, Option.map_id']
  rcases patch with event | ⟨tmuxWindowId, value⟩ | ⟨tmuxPaneId, value⟩ | ⟨clientId, boundPanes⟩
  · rcases event with ⟨windowId, on⟩ | ⟨windowId, on⟩ | ⟨windowId, seconds⟩ | ⟨paneId, name⟩ |
      ⟨paneId, ⟨on, _ | clientId⟩ | policy | name⟩
    · refine Watch.get_patchWindow windowId (fun win hsame => ?_) (by cases watch <;> rfl)
      rw [← of_decide_eq_true hsame]
      rfl
    · refine Watch.get_patchWindow windowId (fun win hsame => ?_) (by cases watch <;> simp [setBy])
      rw [← of_decide_eq_true hsame]
      rfl
    · refine Watch.get_patchWindow windowId (fun win hsame => ?_) (by cases watch <;> simp [setBy])
      rw [← of_decide_eq_true hsame]
      rfl
    · refine Watch.get_patchPane paneId (fun pane hsame => ?_) (by cases watch <;> simp [setBy])
      rw [← of_decide_eq_true hsame]
      rfl
    · exact hnone (by cases watch <;> rfl) rfl
    · refine hnone (by cases watch <;> rfl) ?_
      refine watch.get_of_overlay (OptionStream.windows_patchBound paneId clientId on)
        (f := fun id pane => if paneId = id then OptionStream.withBound clientId on pane else pane)
        (fun id => OptionStream.panes_patchBound paneId id clientId on) fun id pane => ?_
      split <;> rfl
    · refine Watch.get_patchPane paneId (fun pane hsame => ?_) (by cases watch <;> simp [setBy])
      rw [← of_decide_eq_true hsame]
      rfl
    · refine Watch.get_patchPane paneId (fun pane hsame => ?_) (by cases watch <;> simp [setBy])
      rw [← of_decide_eq_true hsame]
      rfl
  · refine Watch.get_patchWindow (mintWindowId tmuxWindowId) (fun win hsame => ?_)
      (by cases watch <;> rfl)
    rw [← of_decide_eq_true hsame]
    rfl
  · refine Watch.get_patchPane (mintPaneId tmuxPaneId) (fun pane hsame => ?_)
      (by cases watch <;> rfl)
    show { pane with paneTitle := some value } = pane
    rw [← of_decide_eq_true hsame]
  · refine hnone (by cases watch <;> rfl) ?_
    show watch.get ((reconcileBinding clientId boundPanes model).getD model) = watch.get model
    unfold reconcileBinding
    split
    · rfl
    · have hpanes := KeyedMap.get?_mapValues model.panes (bindPane clientId boundPanes)
        (bindPane_paneId clientId boundPanes)
      refine Watch.get_of_overlay (f := fun _ => bindPane clientId boundPanes) ?_ hpanes
        (fun _ _ => rfl) watch
      rfl

/-- What a report patches is what it reports. -/
theorem report_of_watchPatch {event : NotificationEvent} {patch : Patch}
    (h : watchPatch event = some patch) :
    ∃ watch value, report event = some (watch, value) ∧
      ∀ other : Watch, other.setBy patch = if watch = other then some value else none := by
  unfold report
  rw [h]
  cases event with
  | subscriptionChanged name sessionId windowId windowIndex paneId value =>
    simp only [watchPatch] at h
    split at h
    · split at h <;> cases h
      refine ⟨_, _, rfl, fun other => ?_⟩
      cases other <;> simp [Watch.setBy]
    · split at h
      · split at h <;> cases h
        refine ⟨_, _, rfl, fun other => ?_⟩
        cases other <;> simp [Watch.setBy]
      · cases h
  | _ => cases h

end Patches

/-! ## Listings -/

/-- A model that was built has what a row tells. -/
theorem told_of_get {windowRows : List WindowsReplyRow} {paneRows : List PanesReplyRow}
    {watch : Watch} {value : Reading}
    (h : watch.get (buildInitialModel windowRows paneRows) = some value) :
    value ∈ watch.told windowRows paneRows := by
  unfold Watch.told
  cases watch with
  | sync id =>
    obtain ⟨win, hget, rfl⟩ := Option.map_eq_some_iff.mp h
    obtain ⟨row, hrow, hid, hoption, -⟩ := windows_buildInitialModel (KeyedMap.mem_of_get? hget)
    refine List.mem_append_left _ (List.mem_filterMap.mpr ⟨row, hrow, ?_⟩)
    rw [Watch.inWindowsRow, if_pos (hid.symm.trans (KeyedMap.key_of_get? hget)), hoption]
  | title id =>
    obtain ⟨pane, hget, rfl⟩ := Option.map_eq_some_iff.mp h
    obtain ⟨row, hrow, rfl⟩ := panes_buildInitialModel (KeyedMap.mem_of_get? hget)
    refine List.mem_append_right _ (List.mem_filterMap.mpr ⟨row, hrow, ?_⟩)
    have hid : (paneOfRow row).paneId = id := KeyedMap.key_of_get? hget
    change mintPaneId row.tmuxPaneId = id at hid
    rw [Watch.inPanesRow, if_pos hid]
    rfl

def watchesOf (windowRows : List WindowsReplyRow) (paneRows : List PanesReplyRow) : List Watch :=
  windowRows.map (fun row => .sync (mintWindowId row.tmuxWindowId)) ++
    paneRows.map fun row => .title (mintPaneId row.tmuxPaneId)

/-- A window or a pane that is listed twice has one value. -/
def Consistent (windowRows : List WindowsReplyRow) (paneRows : List PanesReplyRow) : Prop :=
  ∀ watch ∈ watchesOf windowRows paneRows, ∀ u ∈ watch.told windowRows paneRows,
    ∀ v ∈ watch.told windowRows paneRows, u = v

instance (windowRows : List WindowsReplyRow) (paneRows : List PanesReplyRow) :
    Decidable (Consistent windowRows paneRows) :=
  inferInstanceAs (Decidable (∀ watch ∈ watchesOf windowRows paneRows, _))

/-- tmux and the pipeline, with an observer's account: the values that tmux changed and has not
reported since, and for each value the last report that was applied since its listing was read. -/
structure Watched where
  world : World
  unreported : List Watch
  applied : List (Watch × Reading)

namespace Watched

variable (x : Watched)

/-- What tmux says of it. -/
def told (watch : Watch) : List Reading := watch.told x.world.windowRows x.world.paneRows

/-- The topology changes. -/
def restructured (windowRows : List WindowsReplyRow) (paneRows : List PanesReplyRow) : Bool :=
  windowRows.map (·.topology) ≠ x.world.windowRows.map (·.topology) ||
    paneRows.map (·.topology) ≠ x.world.paneRows.map (·.topology)

/-- The values that change. -/
def changed (windowRows : List WindowsReplyRow) (paneRows : List PanesReplyRow) : List Watch :=
  (watchesOf windowRows paneRows).filter fun watch =>
    (x.told watch).any fun u => (watch.told windowRows paneRows).any (· ≠ u)

/-- What tmux has to report after a change. Nothing is reported of a window or pane that is gone. -/
def owing (windowRows : List WindowsReplyRow) (paneRows : List PanesReplyRow) : List Watch :=
  x.changed windowRows paneRows ++
    if x.restructured windowRows paneRows then
      x.unreported.filter (· ∈ watchesOf windowRows paneRows)
    else x.unreported

/-- A report is true of tmux when it is written. -/
def reportsTruly (event : NotificationEvent) : Bool :=
  match report event with
  | none => true
  | some (watch, value) => (x.told watch).all (· = value)

/-- What is left to report. -/
def afterReport (event : NotificationEvent) : List Watch :=
  match report event with
  | none => x.unreported
  | some (watch, _) => x.unreported.filter (· ≠ watch)

/-- What was applied, once the first item is read. -/
def afterRead : List (Watch × Reading) :=
  match x.world.stream with
  | [] => x.applied
  | .notification event :: _ =>
    if x.world.pipeline.bootstrapping then x.applied
    else
      match report event with
      | none => x.applied
      | some (watch, value) => (watch, value) :: x.applied.filter (·.1 ≠ watch)
  | .answer request _ :: _ =>
    if request.live then x.applied.filter (·.1.listing ≠ request.listing) else x.applied

end Watched

/-- One event of tmux and the pipeline. Only tmux sets a value that is watched. -/
def Watched.step (decode : Bytes → String) (x : Watched) (event : Event) : Option Watched :=
  let next := CleanModel.step decode x.world event
  match event with
  | .changes windowRows paneRows =>
    if Consistent windowRows paneRows then
      next.map fun world => { x with world, unreported := x.owing windowRows paneRows }
    else none
  | .writes event =>
    if x.reportsTruly event then
      next.map fun world => { x with world, unreported := x.afterReport event }
    else none
  | .reads => next.map fun world => { x with world, applied := x.afterRead }
  | .injects (.setWindowSync _ _) => none
  | _ => next.map fun world => { x with world }

/-- The listings that a resumption commits. -/
def committing (decode : Bytes → String) (engine : RequeryEngine) :
    Option (List WindowsReplyRow × List PanesReplyRow) :=
  match engine.flight with
  | .cycling cycle =>
    match cycle.winResult, cycle.paneResult with
    | some (.resolved winResult), some (.resolved paneResult) =>
      if winResult.ok && paneResult.ok && !engine.dirty then
        match parseWindows decode winResult.body, parsePanes decode paneResult.body with
        | .ok windowRows, .ok paneRows =>
          let candidate :=
            carryForwardOverlays cycle.startModel (buildInitialModel windowRows paneRows)
          if guarded engine cycle candidate then some (windowRows, paneRows) else none
        | _, _ => none
      else none
    | _, _ => none
  | _ => none

/-- The continuation of a requery. -/
def resumes : Event → Bool
  | .pipeline (.scheduler (.engine .resume)) => true
  | _ => false

/-- Listings that are committed have the values that were applied since they were read. -/
def Calm (decode : Bytes → String) (x : Watched) (event : Event) : Prop :=
  resumes event = true → ∀ rows ∈ committing decode x.world.engine, ∀ reported ∈ x.applied,
    ∀ value ∈ reported.1.told rows.1 rows.2, value = reported.2

instance (decode : Bytes → String) (x : Watched) (event : Event) :
    Decidable (Calm decode x event) :=
  inferInstanceAs (Decidable (_ = true → ∀ rows ∈ committing decode x.world.engine, _))

end TmuxccDriver.Runtime.CleanModel
