import TmuxccDriver.Lib.Program
import TmuxccDriver.Runtime.Patches
import TmuxccDriver.State.RequeryOverlays

/-!
# Options in the model

An option of a window or of a pane, as a field of the model: what the optimistic events of
`runtime/input-path.ts`, the replies of `applyClientBinding` and the listings of a requery set it
to, and what a command asks for.

Results:
1. `get_applySynthetic`, `get_reconcileBinding`: what a patch sets.
2. `listed_of_candidate`, `carried_of_candidate`: what a requery puts in its place was in a row, or
in the model that it began with.
3. `handleCommand_cases`: an optimistic command shows what it asks for, and its callback keeps what
   was shown before.
-/

namespace TmuxccDriver.Runtime.OptionStream
open TmuxccDriver.Lib TmuxccDriver.Parser TmuxccDriver.Protocol TmuxccDriver.State

/-! ## Fields -/

/-- An option that a command may write. -/
inductive Field
  | synchronizePanes (windowId : WindowId)
  | monitorActivity (windowId : WindowId)
  | monitorSilence (windowId : WindowId)
  | label (paneId : PaneId)
  | detach (paneId : PaneId)
  | icon (paneId : PaneId)
  | bound (paneId : PaneId) (clientId : String)

inductive Value
  | flag (on : Bool)
  | seconds (n : Nat)
  | text (value : Option String)
  | policy (value : Option DetachPolicy)
deriving DecidableEq

namespace Field

/-- The value of the model, if it has the window or the pane. -/
def get (model : SessionModel) : Field → Option Value
  | .synchronizePanes id => (model.windows.get? id).map fun win => .flag win.synchronizePanes
  | .monitorActivity id => (model.windows.get? id).map fun win => .flag win.monitorActivity
  | .monitorSilence id => (model.windows.get? id).map fun win => .seconds win.monitorSilence
  | .label id => (model.panes.get? id).map fun pane => .text pane.label
  | .detach id => (model.panes.get? id).map fun pane => .policy pane.detach
  | .icon id => (model.panes.get? id).map fun pane => .text pane.icon
  | .bound id clientId =>
    (model.panes.get? id).map fun pane => .flag (clientId ∈ pane.overlay.boundClients)

/-- The value that an event sets. -/
def setBy (event : SyntheticEvent) : Field → Option Value
  | .synchronizePanes id =>
    match event with
    | .setWindowSync windowId on => if windowId = id then some (.flag on) else none
    | _ => none
  | .monitorActivity id =>
    match event with
    | .setWindowMonitorActivity windowId on => if windowId = id then some (.flag on) else none
    | _ => none
  | .monitorSilence id =>
    match event with
    | .setWindowMonitorSilence windowId seconds =>
      if windowId = id then some (.seconds seconds) else none
    | _ => none
  | .label id =>
    match event with
    | .setPaneLabel paneId name => if paneId = id then some (.text name) else none
    | _ => none
  | .detach id =>
    match event with
    | .setPanePolicy paneId (.detach policy) => if paneId = id then some (.policy policy) else none
    | _ => none
  | .icon id =>
    match event with
    | .setPanePolicy paneId (.icon name) => if paneId = id then some (.text name) else none
    | _ => none
  | .bound id clientId =>
    match event with
    | .setPanePolicy paneId (.bound on client) =>
      if paneId = id ∧ client = some clientId then some (.flag on) else none
    | _ => none

/-- `detach`, `kill`, or no policy. -/
def policyOf (value : String) : Option DetachPolicy :=
  if value = "detach" then some .detach else if value = "kill" then some .kill else none

/-- The value that a command asks for. -/
def asked (clientId : Option String) (command : WireCommand) : Field → Option Value
  | .synchronizePanes id =>
    match command with
    | .setSynchronizePanes windowId on => if windowId = id then some (.flag on) else none
    | _ => none
  | .monitorActivity id =>
    match command with
    | .setMonitorActivity windowId on => if windowId = id then some (.flag on) else none
    | _ => none
  | .monitorSilence id =>
    match command with
    | .setMonitorSilence windowId seconds =>
      if windowId = id then some (.seconds (seconds.getD 0).toNat) else none
    | _ => none
  | .label id =>
    match command with
    | .renamePane paneId title =>
      if paneId = id then some (.text (if title = "" then none else some title)) else none
    | _ => none
  | .detach id =>
    match command with
    | .setObjectPolicy .pane (some paneId) _ .detach value =>
      if paneId = id then some (.policy (value.bind policyOf)) else none
    | _ => none
  | .icon id =>
    match command with
    | .setObjectPolicy .pane (some paneId) _ .icon value =>
      if paneId = id then some (.text value) else none
    | _ => none
  | .bound id client =>
    match command with
    | .setObjectPolicy .pane (some paneId) _ .bound value =>
      if paneId = id ∧ clientId = some client then some (.flag value.isSome) else none
    | _ => none

/-- What a row of `list-windows` says. -/
def inWindowsRow (row : WindowsReplyRow) : Field → Option Value
  | .synchronizePanes id =>
    if mintWindowId row.tmuxWindowId = id then some (.flag row.synchronizePanes) else none
  | .monitorActivity id =>
    if mintWindowId row.tmuxWindowId = id then some (.flag row.monitorActivity) else none
  | .monitorSilence id =>
    if mintWindowId row.tmuxWindowId = id then some (.seconds row.monitorSilence) else none
  | _ => none

/-- What a row of `list-panes` says. -/
def inPanesRow (row : PanesReplyRow) : Field → Option Value
  | .label id => if mintPaneId row.tmuxPaneId = id then some (.text row.label) else none
  | .detach id => if mintPaneId row.tmuxPaneId = id then some (.policy row.detach) else none
  | .icon id => if mintPaneId row.tmuxPaneId = id then some (.text row.icon) else none
  | _ => none

/-- An option of a window is in `list-windows`. -/
def ofWindow : Field → Bool
  | .synchronizePanes _ | .monitorActivity _ | .monitorSilence _ => true
  | _ => false

/-- An option of a pane is in `list-panes`. -/
def ofPane : Field → Bool
  | .label _ | .detach _ | .icon _ => true
  | _ => false

/-- The bindings of a client are in no listing: a requery carries them over. -/
def ofClient : Field → Bool
  | .bound _ _ => true
  | _ => false

theorem not_ofWindow {field : Field} (h : field.ofPane = true ∨ field.ofClient = true) :
    field.ofWindow = false := by
  cases field <;> simp_all [ofWindow, ofPane, ofClient]

theorem not_ofPane {field : Field} (h : field.ofWindow = true ∨ field.ofClient = true) :
    field.ofPane = false := by
  cases field <;> simp_all [ofWindow, ofPane, ofClient]

end Field

/-! ## Patches -/

section Patches

variable {model : SessionModel}

/-- A patch of one value of a map, which is the value itself if it is not made. -/
theorem get?_patched {α κ : Type} [DecidableEq κ] {key : α → κ} (m : KeyedMap key) {k : κ} {a : α}
    (hget : m.get? k = some a) {f : α → α} (hkey : key (f a) = key a) (id : κ) :
    (m.set (f a)).get? id = (m.get? id).map fun b => if k = id then f b else b := by
  rw [KeyedMap.get?_set, hkey, KeyedMap.key_of_get? hget]
  split
  · next heq =>
    subst heq
    rw [hget]
    rfl
  · rw [Option.map_id']

theorem get?_unpatched {α κ : Type} [DecidableEq κ] {key : α → κ} (m : KeyedMap key) {k : κ}
    {f : α → α} (hsame : ∀ a, m.get? k = some a → f a = a) (id : κ) :
    m.get? id = (m.get? id).map fun b => if k = id then f b else b := by
  split
  · next heq =>
    subst heq
    rcases hget : m.get? k with _ | a
    · rfl
    · rw [Option.map_some, hsame a hget]
  · rw [Option.map_id']

theorem windows_patchWindow (windowId id : WindowId) {unchanged : Window → Bool}
    {patch : WindowPatch} (hunchanged : ∀ win, unchanged win = true → patch.apply win = win) :
    ((patchWindow windowId unchanged patch model).getD model).windows.get? id =
      (model.windows.get? id).map fun win => if windowId = id then patch.apply win else win := by
  unfold patchWindow
  rcases hget : model.windows.get? windowId with _ | win
  · exact get?_unpatched _ (fun win hwin => by cases hget.symm.trans hwin) id
  · dsimp only
    split
    · next hsame =>
      refine get?_unpatched _ (fun other hother => ?_) id
      cases hget.symm.trans hother
      exact hunchanged win hsame
    · show (updateWindow model windowId patch).windows.get? id = _
      unfold updateWindow
      simp only [hget]
      exact get?_patched model.windows hget (f := patch.apply) rfl id

theorem panes_patchWindow (windowId : WindowId) (unchanged : Window → Bool) (patch : WindowPatch) :
    ((patchWindow windowId unchanged patch model).getD model).panes = model.panes := by
  unfold patchWindow
  split
  · rfl
  · split
    · rfl
    · show (updateWindow model windowId patch).panes = _
      unfold updateWindow
      split <;> rfl

theorem panes_patchPane (paneId id : PaneId) {unchanged : Pane → Bool} {patch : PanePatch}
    (hunchanged : ∀ pane, unchanged pane = true → patch.apply pane = pane) :
    ((patchPane paneId unchanged patch model).getD model).panes.get? id =
      (model.panes.get? id).map fun pane => if paneId = id then patch.apply pane else pane := by
  unfold patchPane
  rcases hget : model.panes.get? paneId with _ | pane
  · exact get?_unpatched _ (fun pane hpane => by cases hget.symm.trans hpane) id
  · dsimp only
    split
    · next hsame =>
      refine get?_unpatched _ (fun other hother => ?_) id
      cases hget.symm.trans hother
      exact hunchanged pane hsame
    · show (updatePane model paneId patch).panes.get? id = _
      unfold updatePane
      simp only [hget]
      exact get?_patched model.panes hget (f := patch.apply) rfl id

theorem windows_patchPane (paneId : PaneId) (unchanged : Pane → Bool) (patch : PanePatch) :
    ((patchPane paneId unchanged patch model).getD model).windows = model.windows := by
  unfold patchPane
  split
  · rfl
  · split
    · rfl
    · show (updatePane model paneId patch).windows = _
      unfold updatePane
      split <;> rfl

/-- The pane with the client's membership. -/
def withBound (clientId : String) (on : Bool) (pane : Pane) : Pane :=
  { pane with overlay := ⟨setBoundClient pane.overlay.boundClients clientId on⟩ }

theorem panes_patchBound (paneId id : PaneId) (clientId : String) (on : Bool) :
    ((patchBound paneId clientId on model).getD model).panes.get? id =
      (model.panes.get? id).map fun pane =>
        if paneId = id then withBound clientId on pane else pane := by
  unfold patchBound
  rcases hget : model.panes.get? paneId with _ | pane
  · exact get?_unpatched _ (fun pane hpane => by cases hget.symm.trans hpane) id
  · dsimp only
    split
    · next hsame =>
      refine get?_unpatched _ (fun other hother => ?_) id
      cases hget.symm.trans hother
      unfold withBound
      rw [hsame]
    · show (updatePaneOverlay model paneId _).panes.get? id = _
      unfold updatePaneOverlay
      simp only [hget]
      exact get?_patched model.panes hget (f := withBound clientId on) rfl id

theorem windows_patchBound (paneId : PaneId) (clientId : String) (on : Bool) :
    ((patchBound paneId clientId on model).getD model).windows = model.windows := by
  unfold patchBound
  split
  · rfl
  · dsimp only
    split
    · rfl
    · show (updatePaneOverlay model paneId _).windows = _
      unfold updatePaneOverlay
      split <;> rfl

theorem mem_setBoundClient (current : Finset String) (clientId other : String) (on : Bool) :
    (other ∈ setBoundClient current clientId on) =
      if clientId = other then on = true else other ∈ current := by
  by_cases heq : clientId = other
  · subst heq
    cases on <;> simp [setBoundClient]
  · have hne : other ≠ clientId := fun h => heq h.symm
    cases on <;> simp [setBoundClient, heq, hne]

/-- A field of a window or a pane, patched if `c`. -/
theorem read_patched {α : Type} {c : Prop} [Decidable c] (o : Option α) {patch : α → α}
    {read : α → Value} {set : Option Value} (hread : ∀ a, read (patch a) = set.getD (read a)) :
    ((o.map fun a => if c then patch a else a).map read) =
      match (if c then set else none) with
      | some value => (o.map read).map fun _ => value
      | none => o.map read := by
  by_cases hc : c
  · simp only [hc, if_true]
    rcases o with _ | a
    · rcases set with _ | value <;> rfl
    · rw [Option.map_some, Option.map_some, hread]
      rcases set with _ | value <;> rfl
  · simp only [hc, if_false, Option.map_id']

/-- The value that a patch of one window sets. -/
def Field.inWindowPatch (windowId : WindowId) (patch : WindowPatch) : Field → Option Value
  | .synchronizePanes id => if windowId = id then patch.synchronizePanes.map .flag else none
  | .monitorActivity id => if windowId = id then patch.monitorActivity.map .flag else none
  | .monitorSilence id => if windowId = id then patch.monitorSilence.map .seconds else none
  | _ => none

/-- The value that a patch of one pane sets. -/
def Field.inPanePatch (paneId : PaneId) (patch : PanePatch) : Field → Option Value
  | .label id => if paneId = id then patch.label.map .text else none
  | .detach id => if paneId = id then patch.detach.map .policy else none
  | .icon id => if paneId = id then patch.icon.map .text else none
  | _ => none

theorem get_patchWindow (windowId : WindowId) {unchanged : Window → Bool} {patch : WindowPatch}
    (hunchanged : ∀ win, unchanged win = true → patch.apply win = win) (field : Field) :
    field.get ((patchWindow windowId unchanged patch model).getD model) =
      match field.inWindowPatch windowId patch with
      | some value => (field.get model).map fun _ => value
      | none => field.get model := by
  cases field with
  | synchronizePanes id =>
    simp only [Field.get, windows_patchWindow windowId id hunchanged]
    refine read_patched _ fun win => ?_
    show Value.flag (patch.synchronizePanes.getD win.synchronizePanes) = _
    rcases patch.synchronizePanes with _ | on <;> rfl
  | monitorActivity id =>
    simp only [Field.get, windows_patchWindow windowId id hunchanged]
    refine read_patched _ fun win => ?_
    show Value.flag (patch.monitorActivity.getD win.monitorActivity) = _
    rcases patch.monitorActivity with _ | on <;> rfl
  | monitorSilence id =>
    simp only [Field.get, windows_patchWindow windowId id hunchanged]
    refine read_patched _ fun win => ?_
    show Value.seconds (patch.monitorSilence.getD win.monitorSilence) = _
    rcases patch.monitorSilence with _ | seconds <;> rfl
  | _ => simp only [Field.get, Field.inWindowPatch, panes_patchWindow]

theorem get_patchPane (paneId : PaneId) {unchanged : Pane → Bool} {patch : PanePatch}
    (hunchanged : ∀ pane, unchanged pane = true → patch.apply pane = pane) (field : Field) :
    field.get ((patchPane paneId unchanged patch model).getD model) =
      match field.inPanePatch paneId patch with
      | some value => (field.get model).map fun _ => value
      | none => field.get model := by
  cases field with
  | label id =>
    simp only [Field.get, panes_patchPane paneId id hunchanged]
    refine read_patched _ fun pane => ?_
    show Value.text (patch.label.getD pane.label) = _
    rcases patch.label with _ | name <;> rfl
  | detach id =>
    simp only [Field.get, panes_patchPane paneId id hunchanged]
    refine read_patched _ fun pane => ?_
    show Value.policy (patch.detach.getD pane.detach) = _
    rcases patch.detach with _ | policy <;> rfl
  | icon id =>
    simp only [Field.get, panes_patchPane paneId id hunchanged]
    refine read_patched _ fun pane => ?_
    show Value.text (patch.icon.getD pane.icon) = _
    rcases patch.icon with _ | name <;> rfl
  | bound id clientId =>
    simp only [Field.get, Field.inPanePatch, panes_patchPane paneId id hunchanged, Option.map_map]
    refine congrArg (Option.map · _) (funext fun pane => ?_)
    show Value.flag
      (clientId ∈ (if paneId = id then patch.apply pane else pane).overlay.boundClients) = _
    split <;> rfl
  | _ => simp only [Field.get, Field.inPanePatch, windows_patchPane]

theorem get_patchBound (paneId : PaneId) (clientId : String) (on : Bool) (field : Field) :
    field.get ((patchBound paneId clientId on model).getD model) =
      match field.setBy (.setPanePolicy paneId (.bound on (some clientId))) with
      | some value => (field.get model).map fun _ => value
      | none => field.get model := by
  have hother : ∀ {read : Pane → Value} (id : PaneId),
      (∀ pane, read (withBound clientId on pane) = read pane) →
      (((patchBound paneId clientId on model).getD model).panes.get? id).map read =
        (model.panes.get? id).map read := by
    intro read id hread
    rw [panes_patchBound, Option.map_map]
    refine congrArg (Option.map · _) (funext fun pane => ?_)
    show read (if paneId = id then _ else pane) = read pane
    split
    · exact hread pane
    · rfl
  cases field with
  | label id => exact hother id fun _ => rfl
  | detach id => exact hother id fun _ => rfl
  | icon id => exact hother id fun _ => rfl
  | bound id client =>
    simp only [Field.get, Field.setBy, Option.some.injEq]
    by_cases hclient : clientId = client
    · subst hclient
      simp only [and_true, panes_patchBound]
      refine read_patched _ fun pane => ?_
      simp [withBound, mem_setBoundClient]
    · simp only [hclient, and_false, if_false]
      exact hother id fun pane => by simp [withBound, mem_setBoundClient, hclient]
  | _ => simp only [Field.get, Field.setBy, windows_patchBound]

/-- An optimistic event sets the fields that it is about, and no other one. -/
theorem get_applySynthetic (event : SyntheticEvent) (field : Field) :
    field.get ((applySynthetic event model).getD model) =
      match field.setBy event with
      | some value => (field.get model).map fun _ => value
      | none => field.get model := by
  rcases event with ⟨windowId, on⟩ | ⟨windowId, on⟩ | ⟨windowId, seconds⟩ | ⟨paneId, name⟩ |
    ⟨paneId, ⟨on, _ | clientId⟩ | policy | name⟩
  · have hset : field.setBy (.setWindowSync windowId on) =
        field.inWindowPatch windowId { synchronizePanes := some on } := by
      cases field <;> simp [Field.setBy, Field.inWindowPatch]
    rw [hset]
    refine get_patchWindow windowId (fun win hsame => ?_) field
    rw [← of_decide_eq_true hsame]
    rfl
  · have hset : field.setBy (.setWindowMonitorActivity windowId on) =
        field.inWindowPatch windowId { monitorActivity := some on } := by
      cases field <;> simp [Field.setBy, Field.inWindowPatch]
    rw [hset]
    refine get_patchWindow windowId (fun win hsame => ?_) field
    rw [← of_decide_eq_true hsame]
    rfl
  · have hset : field.setBy (.setWindowMonitorSilence windowId seconds) =
        field.inWindowPatch windowId { monitorSilence := some seconds } := by
      cases field <;> simp [Field.setBy, Field.inWindowPatch]
    rw [hset]
    refine get_patchWindow windowId (fun win hsame => ?_) field
    rw [← of_decide_eq_true hsame]
    rfl
  · have hset : field.setBy (.setPaneLabel paneId name) =
        field.inPanePatch paneId { label := some name } := by
      cases field <;> simp [Field.setBy, Field.inPanePatch]
    rw [hset]
    refine get_patchPane paneId (fun pane hsame => ?_) field
    rw [← of_decide_eq_true hsame]
    rfl
  · have hset : field.setBy (.setPanePolicy paneId (.bound on none)) = none := by
      cases field <;> simp [Field.setBy]
    rw [hset]
    rfl
  · exact get_patchBound paneId clientId on field
  · have hset : field.setBy (.setPanePolicy paneId (.detach policy)) =
        field.inPanePatch paneId { detach := some policy } := by
      cases field <;> simp [Field.setBy, Field.inPanePatch]
    rw [hset]
    refine get_patchPane paneId (fun pane hsame => ?_) field
    rw [← of_decide_eq_true hsame]
    rfl
  · have hset : field.setBy (.setPanePolicy paneId (.icon name)) =
        field.inPanePatch paneId { icon := some name } := by
      cases field <;> simp [Field.setBy, Field.inPanePatch]
    rw [hset]
    refine get_patchPane paneId (fun pane hsame => ?_) field
    rw [← of_decide_eq_true hsame]
    rfl

/-- The value that the reply of `applyClientBinding` brings. -/
def Field.inBindings (clientId : String) (boundPanes : List PaneId) : Field → Option Value
  | .bound id client =>
    if client = clientId then some (.flag (boundPanes.contains id)) else none
  | _ => none

theorem get_reconcileBinding (clientId : String) (boundPanes : List PaneId) (field : Field) :
    field.get ((reconcileBinding clientId boundPanes model).getD model) =
      match field.inBindings clientId boundPanes with
      | some value => (field.get model).map fun _ => value
      | none => field.get model := by
  have hwindows : ((reconcileBinding clientId boundPanes model).getD model).windows =
      model.windows := by
    unfold reconcileBinding
    split <;> rfl
  have hpanes : ∀ id, ((reconcileBinding clientId boundPanes model).getD model).panes.get? id =
      (model.panes.get? id).map (bindPane clientId boundPanes) := by
    intro id
    unfold reconcileBinding
    split
    · next hall =>
      show model.panes.get? id = _
      rcases hget : model.panes.get? id with _ | pane
      · rfl
      · have hsame := List.all_eq_true.mp hall pane (KeyedMap.mem_of_get? hget)
        rw [Option.map_some, of_decide_eq_true hsame]
    · exact KeyedMap.get?_mapValues _ _ (bindPane_paneId clientId boundPanes) id
  cases field with
  | label id =>
    simp only [Field.get, Field.inBindings, hpanes, Option.map_map]
    rfl
  | detach id =>
    simp only [Field.get, Field.inBindings, hpanes, Option.map_map]
    rfl
  | icon id =>
    simp only [Field.get, Field.inBindings, hpanes, Option.map_map]
    rfl
  | bound id client =>
    simp only [Field.get, Field.inBindings, hpanes, Option.map_map]
    rcases hget : model.panes.get? id with _ | pane
    · split <;> rfl
    · have hkey : pane.paneId = id := KeyedMap.key_of_get? hget
      by_cases hclient : client = clientId
      · subst hclient
        simp [bindPane, mem_setBoundClient, hkey]
      · have hne : clientId ≠ client := fun h => hclient h.symm
        simp [bindPane, mem_setBoundClient, hclient, hne]
  | _ => simp only [Field.get, Field.inBindings, hwindows]

end Patches

/-! ## Listings -/

/-- A candidate shows what a row says, but for the bindings of a client. -/
theorem listed_of_candidate {start : SessionModel} {windowRows : List WindowsReplyRow}
    {paneRows : List PanesReplyRow} {field : Field} {value : Value}
    (hclient : field.ofClient = false)
    (h : field.get (carryForwardOverlays start (buildInitialModel windowRows paneRows)) =
      some value) :
    (∃ row ∈ windowRows, field.inWindowsRow row = some value) ∨
      ∃ row ∈ paneRows, field.inPanesRow row = some value := by
  have hwindow : ∀ {id : WindowId} {win : Window},
      (carryForwardOverlays start (buildInitialModel windowRows paneRows)).windows.get? id =
        some win → ∃ row ∈ windowRows, mintWindowId row.tmuxWindowId = id ∧ OptionsOf row win := by
    intro id win hget
    obtain ⟨row, hrow, hoptions⟩ := windows_buildInitialModel (KeyedMap.mem_of_get? hget)
    exact ⟨row, hrow, hoptions.1.symm.trans (KeyedMap.key_of_get? hget), hoptions⟩
  have hpane : ∀ {id : PaneId} {pane : Pane},
      (carryForwardOverlays start (buildInitialModel windowRows paneRows)).panes.get? id =
        some pane → ∃ row ∈ paneRows, mintPaneId row.tmuxPaneId = id ∧
          pane = adoptOverlay start (paneOfRow row) := by
    intro id pane hget
    obtain ⟨original, hmem, rfl⟩ := List.mem_map.mp (KeyedMap.mem_of_get? hget)
    obtain ⟨row, hrow, rfl⟩ := panes_buildInitialModel hmem
    have hid := KeyedMap.key_of_get? hget
    rw [adoptOverlay_paneId] at hid
    exact ⟨row, hrow, hid, rfl⟩
  have hadopt : ∀ row, (adoptOverlay start (paneOfRow row)).label = row.label ∧
      (adoptOverlay start (paneOfRow row)).detach = row.detach ∧
      (adoptOverlay start (paneOfRow row)).icon = row.icon := by
    intro row
    unfold adoptOverlay
    split <;> exact ⟨rfl, rfl, rfl⟩
  cases field with
  | synchronizePanes id =>
    obtain ⟨win, hget, rfl⟩ := Option.map_eq_some_iff.mp h
    obtain ⟨row, hrow, hid, -, hoption, -⟩ := hwindow hget
    exact .inl ⟨row, hrow, by rw [Field.inWindowsRow, if_pos hid, hoption]⟩
  | monitorActivity id =>
    obtain ⟨win, hget, rfl⟩ := Option.map_eq_some_iff.mp h
    obtain ⟨row, hrow, hid, -, -, hoption, -⟩ := hwindow hget
    exact .inl ⟨row, hrow, by rw [Field.inWindowsRow, if_pos hid, hoption]⟩
  | monitorSilence id =>
    obtain ⟨win, hget, rfl⟩ := Option.map_eq_some_iff.mp h
    obtain ⟨row, hrow, hid, -, -, -, hoption⟩ := hwindow hget
    exact .inl ⟨row, hrow, by rw [Field.inWindowsRow, if_pos hid, hoption]⟩
  | label id =>
    obtain ⟨pane, hget, rfl⟩ := Option.map_eq_some_iff.mp h
    obtain ⟨row, hrow, hid, rfl⟩ := hpane hget
    exact .inr ⟨row, hrow, by rw [Field.inPanesRow, if_pos hid, (hadopt row).1]⟩
  | detach id =>
    obtain ⟨pane, hget, rfl⟩ := Option.map_eq_some_iff.mp h
    obtain ⟨row, hrow, hid, rfl⟩ := hpane hget
    exact .inr ⟨row, hrow, by rw [Field.inPanesRow, if_pos hid, (hadopt row).2.1]⟩
  | icon id =>
    obtain ⟨pane, hget, rfl⟩ := Option.map_eq_some_iff.mp h
    obtain ⟨row, hrow, hid, rfl⟩ := hpane hget
    exact .inr ⟨row, hrow, by rw [Field.inPanesRow, if_pos hid, (hadopt row).2.2]⟩
  | bound id clientId => cases hclient

/-- It shows the bindings of a client as the start of the requery has them, and no binding of a
pane that the start does not have. -/
theorem carried_of_candidate {start : SessionModel} {windowRows : List WindowsReplyRow}
    {paneRows : List PanesReplyRow} {field : Field} {value : Value}
    (hclient : field.ofClient = true)
    (h : field.get (carryForwardOverlays start (buildInitialModel windowRows paneRows)) =
      some value) :
    field.get start = some value ∨ field.get start = none ∧ value = .flag false := by
  cases field with
  | bound id clientId =>
    obtain ⟨pane, hget, rfl⟩ := Option.map_eq_some_iff.mp h
    have hid : pane.paneId = id := KeyedMap.key_of_get? hget
    rw [candidate_overlay (KeyedMap.mem_of_get? hget), hid, overlayIn, Field.get]
    rcases start.panes.get? id with _ | prev
    · exact .inr ⟨rfl, by simp [emptyPaneOverlay]⟩
    · exact .inl rfl
  | _ => cases hclient

theorem model_nextCycle (engine : RequeryEngine) (cycle : Cycle)
    (pending : Option (SessionModel × TeardownFractions)) :
    (engine.nextCycle cycle pending).model = engine.model := by
  unfold RequeryEngine.nextCycle
  split <;> rfl

theorem model_decideClean (engine : RequeryEngine) (cycle : Cycle) (candidate : SessionModel) :
    (engine.decideClean cycle candidate).model = engine.model ∨
      (engine.decideClean cycle candidate).model = candidate := by
  unfold RequeryEngine.decideClean
  dsimp only
  split
  · split
    · exact .inl (model_nextCycle engine cycle _)
    · exact .inr rfl
  · split
    · exact .inr rfl
    · exact .inl rfl

/-- What a resumption puts in place of the model comes from the replies of its cycle. -/
theorem commit_of_resume {decode : Bytes → String} {engine next : RequeryEngine}
    (h : Requery.step decode engine .resume = some next) :
    next.model = engine.model ∨ ∃ cycle winResult paneResult windowRows paneRows,
      engine.flight = .cycling cycle ∧
      cycle.winResult = some (.resolved winResult) ∧ winResult.ok = true ∧
      parseWindows decode winResult.body = .ok windowRows ∧
      cycle.paneResult = some (.resolved paneResult) ∧ paneResult.ok = true ∧
      parsePanes decode paneResult.body = .ok paneRows ∧
      next.model =
        carryForwardOverlays cycle.startModel (buildInitialModel windowRows paneRows) := by
  simp only [Requery.step] at h
  split at h
  · next cycle hflight =>
    split at h
    · cases h
      exact .inl rfl
    · next winResult paneResult _ hwin hpane =>
      cases h
      unfold RequeryEngine.afterReplies
      split
      · exact .inl rfl
      · next hok =>
        simp only [Bool.or_eq_true, Bool.not_eq_true', not_or, Bool.not_eq_false] at hok
        split
        · exact .inl rfl
        · next windowRows hwindows =>
          split
          · exact .inl rfl
          · next paneRows hpanes =>
            obtain ⟨sessionId, hcapture⟩ := Requery.captureSessionId_eq engine windowRows paneRows
            dsimp only
            rw [hcapture]
            split
            · exact .inl (model_nextCycle _ cycle none)
            · rcases model_decideClean { engine with sessionId := sessionId } cycle
                (carryForwardOverlays cycle.startModel (buildInitialModel windowRows paneRows))
                with hsame | hcommitted
              · exact .inl hsame
              · exact .inr ⟨cycle, winResult, paneResult, windowRows, paneRows, hflight, hwin,
                  hok.1, hwindows, hpane, hok.2, hpanes, hcommitted⟩
    · cases h
  · cases h

/-! ## Commands -/

/-- The value that is shown again when the command of this callback is refused. -/
def Field.shownAgain : OnReply → Field → Option Value
  | .reversal compensating _, field => compensating.bind fun event => field.setBy event
  | _, _ => none

/-- A command without an optimistic event. -/
def Plain : Action → Prop
  | .send _ (.reversal _ _) => False
  | .dispatchSynthetic _ => False
  | _ => True

/-- A command with an optimistic event: the event sets what the command asks for, and its reply
brings back what the model had before. -/
def Optimistic (model : SessionModel) (clientId : Option String) (command : WireCommand)
    (actions : List Action) : Prop :=
  ∃ cmd onReply event, actions = [.send cmd onReply, .dispatchSynthetic event] ∧
    ∀ field : Field, field.setBy event = field.asked clientId command ∧
      field.shownAgain onReply = (field.asked clientId command).bind fun _ => field.get model

section Commands

variable {opts : InputPathOptions} {model : SessionModel} {respond : Bool}
  {clientId : Option String} {correlationId : String} {command : WireCommand}
  {actions : List Action}

theorem optimistic_sendCommandWithReversal (hwired : opts.dispatchSynthetic = true)
    {verbKind cmd : String} {event : SyntheticEvent}
    {reverse : SessionModel → Option SyntheticEvent}
    (hset : ∀ field : Field, field.setBy event = field.asked clientId command)
    (hreverse : ∀ field : Field, (reverse model).bind (fun event => field.setBy event) =
      (field.asked clientId command).bind fun _ => field.get model) :
    Optimistic model clientId command
      (opts.sendCommandWithReversal ⟨respond, clientId, some model⟩ correlationId verbKind cmd event
        reverse) := by
  unfold InputPathOptions.sendCommandWithReversal
  simp only [hwired, if_true]
  exact ⟨_, _, _, rfl, fun field => ⟨hset field, hreverse field⟩⟩

theorem plain_runCreatingVerb {call : Call} {verbKind cmd : String} {emptyBody : Option PaneId} :
    ∀ action ∈ InputPathOptions.runCreatingVerb call correlationId verbKind cmd emptyBody,
      Plain action := by
  intro action haction
  cases List.mem_singleton.mp haction
  split <;> trivial

theorem plain_runAckVerb {call : Call} {verbKind cmd : String} :
    ∀ action ∈ InputPathOptions.runAckVerb call correlationId verbKind cmd, Plain action := by
  intro action haction
  cases List.mem_singleton.mp haction
  split <;> trivial

section Reversal

variable {α κ : Type} [DecidableEq κ] {key : α → κ} (m : KeyedMap key)
  {toEvent : α → SyntheticEvent} {field : Field}

/-- The reversal of the field that is written brings back its value, if it has one. -/
theorem reversal_own {k id : κ} {read : α → Value} {value : Value}
    (hset : ∀ a, field.setBy (toEvent a) = if k = id then some (read a) else none) :
    ((m.get? k).map toEvent).bind (fun event => field.setBy event) =
      (if k = id then some value else none).bind fun _ => (m.get? id).map read := by
  by_cases heq : k = id
  · subst heq
    rcases m.get? k with _ | a
    · simp
    · simp [hset]
  · rcases m.get? k with _ | a
    · simp [heq]
    · simp [hset, heq]

/-- It does not touch another field. -/
theorem reversal_other {k : κ} (hset : ∀ a, field.setBy (toEvent a) = none) :
    ((m.get? k).map toEvent).bind (fun event => field.setBy event) = none := by
  rcases m.get? k with _ | a
  · rfl
  · exact hset a

end Reversal

theorem optimistic_setObjectPolicy (hwired : opts.dispatchSynthetic = true) {paneId : PaneId}
    {windowId : Option WindowId} {option : PolicyOption} {value : Option String} {cmd : String} :
    Optimistic model clientId (.setObjectPolicy .pane (some paneId) windowId option value)
      (opts.sendCommandWithReversal ⟨respond, clientId, some model⟩ correlationId
        "set-object-policy" cmd (InputPathOptions.buildPanePolicyEvent paneId option value clientId)
        fun before => (before.panes.get? paneId).map fun prev =>
          InputPathOptions.buildPanePolicyRevert paneId option prev clientId) := by
  cases option with
  | bound =>
    refine optimistic_sendCommandWithReversal hwired (fun field => ?_) fun field => ?_
    · cases field <;> rfl
    · cases field with
      | bound id client =>
        by_cases hclient : clientId = some client
        · subst hclient
          simp only [Field.asked, and_true]
          refine reversal_own _ fun pane => ?_
          simp [InputPathOptions.buildPanePolicyRevert, Field.setBy, paneBoundFor]
        · simp only [Field.asked, hclient, and_false, if_false]
          refine reversal_other _ fun pane => ?_
          simp [InputPathOptions.buildPanePolicyRevert, Field.setBy, hclient]
      | _ => exact reversal_other _ fun _ => rfl
  | detach =>
    refine optimistic_sendCommandWithReversal hwired (fun field => ?_) fun field => ?_
    · cases field with
      | detach id =>
        simp only [InputPathOptions.buildPanePolicyEvent, Field.setBy, Field.asked]
        rcases value with _ | value
        · rfl
        · simp [Field.policyOf]
      | _ => rfl
    · cases field with
      | detach id => exact reversal_own _ fun _ => rfl
      | _ => exact reversal_other _ fun _ => rfl
  | icon =>
    refine optimistic_sendCommandWithReversal hwired (fun field => ?_) fun field => ?_
    · cases field <;> rfl
    · cases field with
      | icon id => exact reversal_own _ fun _ => rfl
      | _ => exact reversal_other _ fun _ => rfl

theorem plain_policyFailed {call : Call} {message : String} :
    ∀ action ∈ InputPathOptions.policyFailed call correlationId message, Plain action := by
  unfold InputPathOptions.policyFailed
  split
  · simp [Plain]
  · simp

theorem setObjectPolicy_cases (hwired : opts.dispatchSynthetic = true) {scope : PolicyScope}
    {paneId : Option PaneId} {windowId : Option WindowId} {option : PolicyOption}
    {value : Option String}
    (h : opts.setObjectPolicy ⟨respond, clientId, some model⟩ correlationId scope paneId windowId
      option value = .ok actions) :
    Optimistic model clientId (.setObjectPolicy scope paneId windowId option value) actions ∨
      (∀ action ∈ actions, Plain action) ∧ ∀ field : Field,
        field.asked clientId (.setObjectPolicy scope paneId windowId option value) = none := by
  cases scope with
  | pane =>
    rcases paneId with _ | paneId
    · cases h
      exact .inr ⟨plain_policyFailed, fun field => by cases field <;> rfl⟩
    · obtain ⟨n, -, h⟩ := except_bind_eq_ok h
      cases h
      exact .inl (optimistic_setObjectPolicy hwired)
  | window =>
    refine .inr ⟨?_, fun field => by cases field <;> rfl⟩
    rcases windowId with _ | windowId
    · cases h
      exact plain_policyFailed
    · obtain ⟨n, -, h⟩ := except_bind_eq_ok h
      cases h
      exact plain_runAckVerb
  | session =>
    refine .inr ⟨?_, fun field => by cases field <;> rfl⟩
    simp only [InputPathOptions.setObjectPolicy] at h
    split at h
    · cases h
      exact plain_policyFailed
    · cases h
      exact plain_runAckVerb

theorem handleCommand_cases (hwired : opts.dispatchSynthetic = true)
    (h : opts.handleCommand ⟨respond, clientId, some model⟩ correlationId command = .ok actions) :
    Optimistic model clientId command actions ∨
      (∀ action ∈ actions, Plain action) ∧
        ∀ field : Field, field.asked clientId command = none := by
  cases command with
  | setSynchronizePanes windowId on =>
    obtain ⟨n, -, h⟩ := except_bind_eq_ok h
    cases h
    -- a write: it asks for its own field, and its reversal leaves every other field alone
    refine .inl (optimistic_sendCommandWithReversal hwired (fun field => ?_) fun field => ?_)
    · cases field <;> rfl
    · cases field with
      | synchronizePanes id => exact reversal_own _ fun _ => rfl
      | _ => exact reversal_other _ fun _ => rfl
  | setMonitorActivity windowId on =>
    obtain ⟨n, -, h⟩ := except_bind_eq_ok h
    cases h
    refine .inl (optimistic_sendCommandWithReversal hwired (fun field => ?_) fun field => ?_)
    · cases field <;> rfl
    · cases field with
      | monitorActivity id => exact reversal_own _ fun _ => rfl
      | _ => exact reversal_other _ fun _ => rfl
  | setMonitorSilence windowId seconds =>
    obtain ⟨n, -, h⟩ := except_bind_eq_ok h
    cases h
    refine .inl (optimistic_sendCommandWithReversal hwired (fun field => ?_) fun field => ?_)
    · cases field <;> rfl
    · cases field with
      | monitorSilence id => exact reversal_own _ fun _ => rfl
      | _ => exact reversal_other _ fun _ => rfl
  | renamePane paneId title =>
    obtain ⟨n, -, h⟩ := except_bind_eq_ok h
    cases h
    refine .inl (optimistic_sendCommandWithReversal hwired (fun field => ?_) fun field => ?_)
    · cases field <;> rfl
    · cases field with
      | label id => exact reversal_own _ fun _ => rfl
      | _ => exact reversal_other _ fun _ => rfl
  | setObjectPolicy scope paneId windowId option value => exact setObjectPolicy_cases hwired h
  | openWindow name cwd shellCommand env =>
    -- the rest asks for no field
    cases h
    exact .inr ⟨plain_runCreatingVerb, fun field => by cases field <;> rfl⟩
  | splitPane paneId direction cwd shellCommand env =>
    obtain ⟨target, -, h⟩ := except_bind_eq_ok h
    cases h
    exact .inr ⟨plain_runCreatingVerb, fun field => by cases field <;> rfl⟩
  | closePane paneId =>
    obtain ⟨n, -, h⟩ := except_bind_eq_ok h
    cases h
    exact .inr ⟨plain_runAckVerb, fun field => by cases field <;> rfl⟩
  | renameWindow windowId name =>
    obtain ⟨n, -, h⟩ := except_bind_eq_ok h
    cases h
    exact .inr ⟨plain_runAckVerb, fun field => by cases field <;> rfl⟩
  | renameSession name =>
    refine .inr ⟨?_, fun field => by cases field <;> rfl⟩
    simp only [InputPathOptions.handleCommand] at h
    split at h
    · cases h
      exact fun _ haction => absurd haction List.not_mem_nil
    · cases h
      exact plain_runAckVerb
  | selectPane paneId =>
    obtain ⟨n, -, h⟩ := except_bind_eq_ok h
    cases h
    refine .inr ⟨?_, fun field => by cases field <;> rfl⟩
    simp [Plain]
  | resizePane paneId cols rows =>
    cases h
    refine .inr ⟨?_, fun field => by cases field <;> rfl⟩
    simp [Plain]
  | resizeManagedWindow windowId cols rows panes =>
    obtain ⟨lines, -, h⟩ := except_bind_eq_ok h
    cases h
    refine .inr ⟨?_, fun field => by cases field <;> rfl⟩
    split
    · simp [Plain]
    · simp
  | killSession sessionName =>
    cases h
    exact .inr ⟨plain_runAckVerb, fun field => by cases field <;> rfl⟩
  | breakPane paneId =>
    obtain ⟨n, -, h⟩ := except_bind_eq_ok h
    cases h
    exact .inr ⟨plain_runCreatingVerb, fun field => by cases field <;> rfl⟩
  | swapPane paneId targetPaneId =>
    obtain ⟨n, -, h⟩ := except_bind_eq_ok h
    refine .inr ⟨?_, fun field => by cases field <;> rfl⟩
    rcases targetPaneId with _ | target
    · cases h
      simp [Plain]
    · obtain ⟨t, -, h⟩ := except_bind_eq_ok h
      cases h
      simp [Plain]
  | killWindow windowId =>
    obtain ⟨n, -, h⟩ := except_bind_eq_ok h
    cases h
    exact .inr ⟨plain_runAckVerb, fun field => by cases field <;> rfl⟩
  | swapWindow sourceWindowId targetWindowId =>
    obtain ⟨source, -, h⟩ := except_bind_eq_ok h
    obtain ⟨target, -, h⟩ := except_bind_eq_ok h
    cases h
    exact .inr ⟨plain_runAckVerb, fun field => by cases field <;> rfl⟩
  | paneCapture paneId =>
    cases h
    exact .inr ⟨by simp, fun field => by cases field <;> rfl⟩
  | sessionProxyInfo =>
    cases h
    exact .inr ⟨by simp, fun field => by cases field <;> rfl⟩

end Commands

end TmuxccDriver.Runtime.OptionStream
