import TmuxccDriver.Lib.Run
import TmuxccDriver.Parser.Commands
import TmuxccDriver.Parser.LayoutString
import TmuxccDriver.State.ReplyRow
import TmuxccDriver.State.Update

/-!
# The model of two listings

`state/bootstrap.ts`: the schemas of the `list-windows` and `list-panes` replies, the
commands that ask for them, and the model that is built from their rows. The two replies
may disagree: a pane row of a window that is not listed is dropped, and so is a second
row of one pane.

Results:
1. `WindowStage.addWindowRow`, `PaneStage.addPaneRow`: what one row keeps true of the model
   that is being built.
2. `buildInitialModel_invariants`: the model has I1 to I7, for all rows in which no pane
   is listed under two windows.
-/

namespace TmuxccDriver.State
open TmuxccDriver.Lib TmuxccDriver.Parser TmuxccDriver.Protocol

/-! ## Rows -/

structure WindowsReplyRow where
  tmuxSessionId : Nat
  sessionName : String
  tmuxWindowId : Nat
  name : String
  layoutString : String
  active : Bool
  synchronizePanes : Bool
  monitorActivity : Bool
  monitorSilence : Nat
deriving DecidableEq, Repr

structure PanesReplyRow where
  tmuxPaneId : Nat
  tmuxWindowId : Nat
  tmuxSessionId : Nat
  cols : Nat
  rows : Nat
  active : Bool
  mode : String
  dead : Bool
  exitCode : Option Nat
  label : Option String
  detach : Option DetachPolicy
  icon : Option String
  paneTitle : Option String
deriving DecidableEq, Repr

def WINDOWS_ROW :
    ReplyRow (Nat × String × Nat × String × String × Bool × Bool × Bool × Nat × Unit) :=
  ⟨"list-windows",
    .field "tmuxSessionId" "#\x7bsession_id\x7d" (sigilId '$') <|
    .field "sessionName" "#\x7bsession_name\x7d" text <|
    .field "tmuxWindowId" "#\x7bwindow_id\x7d" (sigilId '@') <|
    .field "name" "#\x7bwindow_name\x7d" text <|
    .field "layoutString" "#\x7bwindow_layout\x7d" text <|
    .field "active" "#\x7b?window_active,1,0\x7d" flag01 <|
    .field "synchronizePanes" "#\x7b?synchronize-panes,1,0\x7d" flag01 <|
    .field "monitorActivity" "#\x7b?monitor-activity,1,0\x7d" flag01 <|
    .field "monitorSilence" "#\x7bmonitor-silence\x7d" int <|
    .done⟩

def WindowsReplyRow.ofFields :
    Nat × String × Nat × String × String × Bool × Bool × Bool × Nat × Unit → WindowsReplyRow
  | (tmuxSessionId, sessionName, tmuxWindowId, name, layoutString, active, synchronizePanes,
      monitorActivity, monitorSilence, _) =>
    ⟨tmuxSessionId, sessionName, tmuxWindowId, name, layoutString, active, synchronizePanes,
      monitorActivity, monitorSilence⟩

def detachKeywords : List (String × DetachPolicy) := [("detach", .detach), ("kill", .kill)]

def PANES_ROW :
    ReplyRow (Nat × Nat × Nat × Nat × Nat × Bool × String × Bool × Option Nat × Option String ×
      Option DetachPolicy × Option String × Option String × Unit) :=
  ⟨"list-panes",
    .field "tmuxPaneId" "#\x7bpane_id\x7d" (sigilId '%') <|
    .field "tmuxWindowId" "#\x7bwindow_id\x7d" (sigilId '@') <|
    .field "tmuxSessionId" "#\x7bsession_id\x7d" (sigilId '$') <|
    .field "cols" "#\x7bpane_width\x7d" int <|
    .field "rows" "#\x7bpane_height\x7d" int <|
    .field "active" "#\x7b?pane_active,1,0\x7d" flag01 <|
    .field "mode" "#\x7bpane_mode\x7d" paneMode <|
    .field "dead" "#\x7b?pane_dead,1,0\x7d" flag01 <|
    .field "exitCode" "#\x7bpane_dead_status\x7d" (emptyAsUndefined int) <|
    .field "label" (tabSanitized "@tmuxcc_label") (emptyAsUndefined text) <|
    .field "detach" "#\x7b@tmuxcc-detach\x7d" (optionalKeyword detachKeywords) <|
    .field "icon" (tabSanitized "@tmuxcc-icon") (emptyAsUndefined text) <|
    .field "paneTitle" (tabSanitized "pane_title") (emptyAsUndefined text) <|
    .done⟩

def PanesReplyRow.ofFields :
    Nat × Nat × Nat × Nat × Nat × Bool × String × Bool × Option Nat × Option String ×
      Option DetachPolicy × Option String × Option String × Unit → PanesReplyRow
  | (tmuxPaneId, tmuxWindowId, tmuxSessionId, cols, rows, active, mode, dead, exitCode, label,
      detach, icon, paneTitle, _) =>
    ⟨tmuxPaneId, tmuxWindowId, tmuxSessionId, cols, rows, active, mode, dead, exitCode, label,
      detach, icon, paneTitle⟩

/-- `WINDOWS_ROW.parse`. -/
def parseWindows (decode : Bytes → String) (body : Bytes) :
    Except ReplyCodecError (List WindowsReplyRow) :=
  (WINDOWS_ROW.parse decode body).map (List.map .ofFields)

/-- `PANES_ROW.parse`. -/
def parsePanes (decode : Bytes → String) (body : Bytes) :
    Except ReplyCodecError (List PanesReplyRow) :=
  (PANES_ROW.parse decode body).map (List.map .ofFields)

/-! ## Commands -/

inductive SessionTarget
  | id (sessionId : Nat)
  | name (sessionName : String)
deriving DecidableEq, Repr

/-- `bootstrapCommands`: the `list-windows` and the `list-panes` command. -/
def bootstrapCommands (target : Option SessionTarget) : String × String :=
  match target with
  | some (.id sessionId) =>
    (listWindows WINDOWS_ROW.format (some sessionId), listSessionPanes sessionId PANES_ROW.format)
  | some (.name sessionName) =>
    if 0 < sessionName.length then
      (listWindows WINDOWS_ROW.format none ++ " -t =" ++ sessionName,
        listPanes PANES_ROW.format ++ " -s -t =" ++ sessionName)
    else (listWindows WINDOWS_ROW.format none ++ " -a", listPanes PANES_ROW.format ++ " -a")
  | none => (listWindows WINDOWS_ROW.format none ++ " -a", listPanes PANES_ROW.format ++ " -a")

/-! ## Ids -/

def mintPaneId (n : Nat) : PaneId := ⟨"p" ++ n.repr⟩

def mintWindowId (n : Nat) : WindowId := ⟨"w" ++ n.repr⟩

def mintSessionId (n : Nat) : SessionId := ⟨"s" ++ n.repr⟩

theorem mintPaneId_inj {m n : Nat} : mintPaneId m = mintPaneId n ↔ m = n := by
  simp only [mintPaneId, PaneId.mk.injEq, String.append_right_inj, repr_inj]

/-! ## Layouts -/

/-- A rectangle that was parsed, so that nothing in it is negative. -/
def rectOf (g : Geometry) : Rect := ⟨g.x.toNat, g.y.toNat, g.width.toNat, g.height.toNat⟩

mutual

/-- `layoutCellToNode`; `none` is the error of an unassigned leaf. -/
def layoutCellToNode (tmuxPaneIdToWireId : Nat → PaneId) : LayoutCell → Option LayoutNode
  | .leaf _ none => none
  | .leaf g (some id) => some (.pane (tmuxPaneIdToWireId id) (rectOf g))
  | .split .horizontal g children =>
    (layoutCellsToNodes tmuxPaneIdToWireId children).map (.hsplit (rectOf g))
  | .split .vertical g children =>
    (layoutCellsToNodes tmuxPaneIdToWireId children).map (.vsplit (rectOf g))

def layoutCellsToNodes (tmuxPaneIdToWireId : Nat → PaneId) :
    List LayoutCell → Option (List LayoutNode)
  | [] => some []
  | cell :: cells =>
    match layoutCellToNode tmuxPaneIdToWireId cell,
      layoutCellsToNodes tmuxPaneIdToWireId cells with
    | some node, some nodes => some (node :: nodes)
    | _, _ => none

end

/-- `parsedLayoutToWindowLayout`. -/
def parsedLayoutToWindowLayout (parsed : ParsedLayout) (tmuxPaneIdToWireId : Nat → PaneId) :
    Option WindowLayout :=
  (layoutCellToNode tmuxPaneIdToWireId parsed.root).map
    (.mk parsed.root.geometry.width.toNat parsed.root.geometry.height.toNat)

/-- The layout of a row; a string that cannot be read or converted leaves it null. -/
def layoutOf (layoutString : String) : Option WindowLayout :=
  match parseLayout layoutString.toList with
  | .error _ => none
  | .ok parsed => parsedLayoutToWindowLayout parsed mintPaneId

/-! ## The builder -/

section Build

variable (windowRows : List WindowsReplyRow) (paneRows : List PanesReplyRow)

/-- Step 1: the name in the first row of each session. -/
def sessionNames : KeyedMap (Prod.fst : Nat × String → Nat) :=
  windowRows.foldl
    (fun names row =>
      if names.has row.tmuxSessionId then names else names.set (row.tmuxSessionId, row.sessionName))
    .empty

/-- Step 1: the window in the last active row of each session. -/
def sessionActiveWindowId : KeyedMap (Prod.fst : Nat × Nat → Nat) :=
  windowRows.foldl
    (fun actives row =>
      if row.active then actives.set (row.tmuxSessionId, row.tmuxWindowId) else actives)
    .empty

/-- Step 2. -/
def addSessionEntry (model : SessionModel) (entry : Nat × String) : SessionModel :=
  addSession model ⟨mintSessionId entry.1, entry.2, [], none⟩

/-- Step 3: `panesByWindow.get(tmuxWindowId)`. -/
def panesByWindow (tmuxWindowId : Nat) : List PanesReplyRow :=
  paneRows.filter fun row => row.tmuxWindowId = tmuxWindowId

def windowOfRow (row : WindowsReplyRow) : Window where
  windowId := mintWindowId row.tmuxWindowId
  sessionId := mintSessionId row.tmuxSessionId
  name := row.name
  paneIds := []
  activePaneId := ((panesByWindow paneRows row.tmuxWindowId).find? (·.active)).map
    fun pane => mintPaneId pane.tmuxPaneId
  layout := layoutOf row.layoutString
  synchronizePanes := row.synchronizePanes
  monitorActivity := row.monitorActivity
  monitorSilence := row.monitorSilence

/-- Step 3. -/
def addWindowRow (model : SessionModel) (row : WindowsReplyRow) : SessionModel :=
  addWindow model (windowOfRow paneRows row)

/-- Step 3b. -/
def setActiveWindow (model : SessionModel) (entry : Nat × Nat) : SessionModel :=
  updateSession model (mintSessionId entry.1) { activeWindowId := some (mintWindowId entry.2) }

/-- The canonical fields come from the row; a live pane has no exit code. -/
def paneOfRow (row : PanesReplyRow) : Pane where
  paneId := mintPaneId row.tmuxPaneId
  windowId := mintWindowId row.tmuxWindowId
  sessionId := mintSessionId row.tmuxSessionId
  cols := row.cols
  rows := row.rows
  mode := row.mode
  dead := row.dead
  label := row.label
  detach := row.detach
  icon := row.icon
  paneTitle := row.paneTitle
  exitCode := if row.dead then row.exitCode else none
  overlay := emptyPaneOverlay

/-- Step 4. -/
def addPaneRow (model : SessionModel) (row : PanesReplyRow) : SessionModel :=
  if !model.windows.has (mintWindowId row.tmuxWindowId) then model
  else if model.panes.has (mintPaneId row.tmuxPaneId) then model
  else addPane model (paneOfRow row)

/-- Step 5: the focus one session with an active window gives. -/
def focusOfSession (model : SessionModel) (entry : Nat × Nat) : Option FocusState := do
  let sess ← model.sessions.get? (mintSessionId entry.1)
  let activeWid ← sess.activeWindowId
  let win ← model.windows.get? activeWid
  let activePid ← win.activePaneId
  return ⟨some activePid, some activeWid, some (mintSessionId entry.1)⟩

def initialFocus (model : SessionModel) : FocusState :=
  ((sessionActiveWindowId windowRows).values.findSome? (focusOfSession model)).getD
    ⟨none, none, none⟩

/-- Steps 2 to 4. -/
def buildTopology : SessionModel :=
  let withSessions := (sessionNames windowRows).values.foldl addSessionEntry emptyModel
  let withWindows := windowRows.foldl (addWindowRow paneRows) withSessions
  let withActive := (sessionActiveWindowId windowRows).values.foldl setActiveWindow withWindows
  paneRows.foldl addPaneRow withActive

/-- `buildInitialModel`. -/
def buildInitialModel : SessionModel :=
  let model := buildTopology windowRows paneRows
  setFocus model (initialFocus windowRows model)

end Build

/-! ## Steps 1 to 3: sessions and windows -/

section Stages

variable {windowRows : List WindowsReplyRow} {paneRows : List PanesReplyRow}

/-- The active pane of a window before the panes are added: it comes from one of its rows. -/
def ActiveFromRow (paneRows : List PanesReplyRow) (win : Window) : Prop :=
  ∀ active, win.activePaneId = some active →
    ∃ row ∈ paneRows, mintWindowId row.tmuxWindowId = win.windowId ∧
      mintPaneId row.tmuxPaneId = active

/-- A session without windows has no active one, and any other has one of its own. -/
def Session.ActiveIsOwn (sess : Session) : Prop :=
  (sess.windowIds = [] ∧ sess.activeWindowId = none) ∨
    ∃ active ∈ sess.windowIds, sess.activeWindowId = some active

/-- The model while its windows are added: those of the rows in `done` are there. -/
structure WindowStage (windowRows : List WindowsReplyRow) (paneRows : List PanesReplyRow)
    (done : List WindowsReplyRow) (model : SessionModel) : Prop where
  no_panes : model.panes.values = []
  sessions : ∀ row ∈ windowRows, model.sessions.has (mintSessionId row.tmuxSessionId) = true
  window_session : ∀ win ∈ model.windows.values, model.sessions.has win.sessionId = true
  session_windows : ∀ sess ∈ model.sessions.values, ∀ wid ∈ sess.windowIds,
    model.windows.has wid = true
  session_active : ∀ sess ∈ model.sessions.values, sess.ActiveIsOwn
  no_pane_ids : ∀ win ∈ model.windows.values, win.paneIds = []
  active_pane : ∀ win ∈ model.windows.values, ActiveFromRow paneRows win
  listed : ∀ row ∈ done, ∃ sess ∈ model.sessions.values,
    sess.sessionId = mintSessionId row.tmuxSessionId ∧
      mintWindowId row.tmuxWindowId ∈ sess.windowIds

theorem activeFromRow_windowOfRow (row : WindowsReplyRow) :
    ActiveFromRow paneRows (windowOfRow paneRows row) := by
  intro active hactive
  obtain ⟨pane, hfind, hid⟩ := Option.map_eq_some_iff.mp hactive
  obtain ⟨hmem, hwindow⟩ := List.mem_filter.mp (List.mem_of_find?_eq_some hfind)
  exact ⟨pane, hmem, congrArg mintWindowId (of_decide_eq_true hwindow), hid⟩

theorem has_addSession (model : SessionModel) (session : Session) (id : SessionId) :
    (addSession model session).sessions.has id =
      (decide (session.sessionId = id) || model.sessions.has id) :=
  KeyedMap.has_set _ _ _

theorem has_sessionNames {row : WindowsReplyRow} (hrow : row ∈ windowRows) :
    (sessionNames windowRows).has row.tmuxSessionId = true := by
  refine foldl_done (P := fun done (names : KeyedMap (Prod.fst : Nat × String → Nat)) =>
    ∀ row ∈ done, names.has row.tmuxSessionId = true) (fun _ h => absurd h List.not_mem_nil) ?_
    row hrow
  intro done new names _ hdone row hrow
  rcases List.mem_append.mp hrow with hold | hnew
  · split
    · exact hdone row hold
    · rw [KeyedMap.has_set, hdone row hold, Bool.or_true]
  · obtain rfl := List.mem_singleton.mp hnew
    split
    · next hhas => exact hhas
    · rw [KeyedMap.has_set, decide_eq_true rfl, Bool.true_or]

/-- Step 2: every session of the rows, without windows. -/
theorem windowStage_sessions :
    WindowStage windowRows paneRows []
      ((sessionNames windowRows).values.foldl addSessionEntry emptyModel) := by
  have hbare : ∀ entries : List (Nat × String),
      let model := entries.foldl addSessionEntry emptyModel
      model.panes.values = [] ∧ model.windows.values = [] ∧
        (∀ sess ∈ model.sessions.values, sess.windowIds = [] ∧ sess.activeWindowId = none) ∧
        ∀ entry ∈ entries, model.sessions.has (mintSessionId entry.1) = true := by
    intro entries
    refine foldl_done (P := fun (done : List (Nat × String)) (model : SessionModel) =>
      model.panes.values = [] ∧ model.windows.values = [] ∧
        (∀ sess ∈ model.sessions.values, sess.windowIds = [] ∧ sess.activeWindowId = none) ∧
        ∀ entry ∈ done, model.sessions.has (mintSessionId entry.1) = true)
      ⟨rfl, rfl, fun _ h => absurd h List.not_mem_nil, fun _ h => absurd h List.not_mem_nil⟩ ?_
    rintro done entry model - ⟨hpanes, hwindows, hsessions, hdone⟩
    refine ⟨hpanes, hwindows, fun sess hsess => ?_, fun e he => ?_⟩
    · rcases KeyedMap.mem_set.mp hsess with rfl | ⟨hold, -⟩
      · exact ⟨rfl, rfl⟩
      · exact hsessions sess hold
    · rw [addSessionEntry, has_addSession]
      rcases List.mem_append.mp he with hold | hnew
      · rw [hdone e hold, Bool.or_true]
      · obtain rfl := List.mem_singleton.mp hnew
        rw [decide_eq_true rfl, Bool.true_or]
  obtain ⟨hpanes, hwindows, hsessions, hentries⟩ := hbare (sessionNames windowRows).values
  refine ⟨hpanes, fun row hrow => ?_, fun win hwin => ?_, fun sess hsess wid hwid => ?_,
    fun sess hsess => .inl (hsessions sess hsess), fun win hwin => ?_, fun win hwin => ?_,
    fun _ h => absurd h List.not_mem_nil⟩
  · obtain ⟨entry, hmem, hid⟩ := KeyedMap.has_iff_mem.mp (has_sessionNames hrow)
    exact hid ▸ hentries entry hmem
  · exact absurd (hwindows ▸ hwin) List.not_mem_nil
  · exact absurd ((hsessions sess hsess).1 ▸ hwid) List.not_mem_nil
  · exact absurd (hwindows ▸ hwin) List.not_mem_nil
  · exact absurd (hwindows ▸ hwin) List.not_mem_nil

/-- Step 3: one window row. -/
theorem WindowStage.addWindowRow {done : List WindowsReplyRow} {model : SessionModel}
    (h : WindowStage windowRows paneRows done model) {row : WindowsReplyRow}
    (hrow : row ∈ windowRows) :
    WindowStage windowRows paneRows (done ++ [row]) (addWindowRow paneRows model row) := by
  obtain ⟨session, hsession⟩ := KeyedMap.has_iff.mp (h.sessions row hrow)
  have hid : session.sessionId = mintSessionId row.tmuxSessionId := KeyedMap.key_of_get? hsession
  have hmem := KeyedMap.mem_of_get? hsession
  have hmodel : State.addWindowRow paneRows model row =
      { model with
        sessions := model.sessions.set { session with
          windowIds := session.windowIds ++ [mintWindowId row.tmuxWindowId]
          activeWindowId := session.activeWindowId.or (some (mintWindowId row.tmuxWindowId)) }
        windows := model.windows.set (windowOfRow paneRows row) } := by
    rw [State.addWindowRow, addWindow, windowOfRow, hsession]
  have hkeys : ∀ id, model.sessions.has id = true →
      (State.addWindowRow paneRows model row).sessions.has id = true := by
    intro id hhas
    rw [hmodel, KeyedMap.has_set, hhas, Bool.or_true]
  have hwindows : ∀ id, model.windows.has id = true →
      (State.addWindowRow paneRows model row).windows.has id = true := by
    intro id hhas
    rw [hmodel, KeyedMap.has_set, hhas, Bool.or_true]
  refine ⟨?_, fun r hr => hkeys _ (h.sessions r hr), fun win hwin => ?_,
    fun sess hsess wid hwid => ?_, fun sess hsess => ?_, fun win hwin => ?_, fun win hwin => ?_,
    fun r hr => ?_⟩
  · rw [hmodel]
    exact h.no_panes
  · rw [hmodel] at hwin
    rcases KeyedMap.mem_set.mp hwin with rfl | ⟨hold, -⟩
    · exact hkeys _ (h.sessions row hrow)
    · exact hkeys _ (h.window_session win hold)
  · rw [hmodel] at hsess
    rcases KeyedMap.mem_set.mp hsess with rfl | ⟨hold, -⟩
    · rcases List.mem_append.mp hwid with hold | hnew
      · exact hwindows _ (h.session_windows session hmem wid hold)
      · obtain rfl := List.mem_singleton.mp hnew
        rw [hmodel, KeyedMap.has_set, windowOfRow, decide_eq_true rfl, Bool.true_or]
    · exact hwindows _ (h.session_windows sess hold wid hwid)
  · rw [hmodel] at hsess
    rcases KeyedMap.mem_set.mp hsess with rfl | ⟨hold, -⟩
    · -- the first window of the session is its active one, unless there is one
      rcases h.session_active session hmem with ⟨hempty, hnone⟩ | ⟨active, hactive, hsome⟩
      · exact .inr ⟨_, List.mem_append_right _ (List.mem_singleton_self _), by rw [hnone]; rfl⟩
      · exact .inr ⟨active, List.mem_append_left _ hactive, by rw [hsome]; rfl⟩
    · exact h.session_active sess hold
  · rw [hmodel] at hwin
    rcases KeyedMap.mem_set.mp hwin with rfl | ⟨hold, -⟩
    · rfl
    · exact h.no_pane_ids win hold
  · rw [hmodel] at hwin
    rcases KeyedMap.mem_set.mp hwin with rfl | ⟨hold, -⟩
    · exact activeFromRow_windowOfRow row
    · exact h.active_pane win hold
  · rw [hmodel]
    have hnew : ∃ sess, sess ∈ (model.sessions.set { session with
        windowIds := session.windowIds ++ [mintWindowId row.tmuxWindowId]
        activeWindowId :=
          session.activeWindowId.or (some (mintWindowId row.tmuxWindowId)) }).values ∧
        sess.sessionId = mintSessionId row.tmuxSessionId ∧
        sess.windowIds = session.windowIds ++ [mintWindowId row.tmuxWindowId] :=
      ⟨_, KeyedMap.mem_set.mpr (.inl rfl), hid, rfl⟩
    obtain ⟨sess', hsess', hid', hids⟩ := hnew
    rcases List.mem_append.mp hr with hold | hlast
    · obtain ⟨sess, hsess, hsid, hwid⟩ := h.listed r hold
      -- a row of before is listed by its session, which may be the one that was replaced
      by_cases hsame : sess.sessionId = session.sessionId
      · obtain rfl := KeyedMap.eq_of_key hsess hmem hsame
        exact ⟨sess', hsess', hid'.trans (hid.symm.trans hsid),
          hids ▸ List.mem_append_left _ hwid⟩
      · exact ⟨sess, KeyedMap.mem_set.mpr (.inr ⟨hsess, hsame⟩), hsid, hwid⟩
    · obtain rfl := List.mem_singleton.mp hlast
      exact ⟨sess', hsess', hid', hids ▸ List.mem_append_right _ (List.mem_singleton_self _)⟩

/-- Every entry of step 1's second map is an active row. -/
theorem mem_sessionActiveWindowId {entry : Nat × Nat}
    (h : entry ∈ (sessionActiveWindowId windowRows).values) :
    ∃ row ∈ windowRows, row.tmuxSessionId = entry.1 ∧ row.tmuxWindowId = entry.2 := by
  refine foldl_keeps (P := fun (actives : KeyedMap (Prod.fst : Nat × Nat → Nat)) =>
    ∀ entry ∈ actives.values,
      ∃ row ∈ windowRows, row.tmuxSessionId = entry.1 ∧ row.tmuxWindowId = entry.2)
    (fun _ h => absurd h List.not_mem_nil) ?_ entry h
  intro row actives hrow hactives entry hentry
  split at hentry
  · rcases KeyedMap.mem_set.mp hentry with rfl | ⟨hold, -⟩
    · exact ⟨row, hrow, rfl, rfl⟩
    · exact hactives entry hold
  · exact hactives entry hentry

/-- Step 3b: one active window. -/
theorem WindowStage.setActiveWindow {model : SessionModel}
    (h : WindowStage windowRows paneRows windowRows model) {entry : Nat × Nat}
    (hentry : entry ∈ (sessionActiveWindowId windowRows).values) :
    WindowStage windowRows paneRows windowRows (setActiveWindow model entry) := by
  obtain ⟨row, hrow, hsid, hwid⟩ := mem_sessionActiveWindowId hentry
  obtain ⟨sess, hmem, hid, hlisted⟩ := h.listed row hrow
  rw [hsid] at hid
  rw [hwid] at hlisted
  have hmodel : State.setActiveWindow model entry = { model with
      sessions := model.sessions.set { sess with
        activeWindowId := some (mintWindowId entry.2) } } := by
    rw [State.setActiveWindow, updateSession, ← hid, KeyedMap.get?_self hmem]
    rfl
  have hkeys : ∀ id, model.sessions.has id = true →
      (State.setActiveWindow model entry).sessions.has id = true := by
    intro id hhas
    rw [hmodel, KeyedMap.has_set, hhas, Bool.or_true]
  rw [hmodel] at hkeys ⊢
  refine ⟨h.no_panes, fun r hr => hkeys _ (h.sessions r hr),
    fun win hwin => hkeys _ (h.window_session win hwin), fun s hs wid hwid => ?_, fun s hs => ?_,
    h.no_pane_ids, h.active_pane, fun r hr => ?_⟩
  · rcases KeyedMap.mem_set.mp hs with rfl | ⟨hold, -⟩
    · exact h.session_windows sess hmem wid hwid
    · exact h.session_windows s hold wid hwid
  · rcases KeyedMap.mem_set.mp hs with rfl | ⟨hold, -⟩
    · exact .inr ⟨mintWindowId entry.2, hlisted, rfl⟩
    · exact h.session_active s hold
  · obtain ⟨s, hs, hsid', hwid'⟩ := h.listed r hr
    by_cases hsame : s.sessionId = sess.sessionId
    · obtain rfl := KeyedMap.eq_of_key hs hmem hsame
      exact ⟨_, KeyedMap.mem_set.mpr (.inl rfl), hsid', hwid'⟩
    · exact ⟨s, KeyedMap.mem_set.mpr (.inr ⟨hs, hsame⟩), hsid', hwid'⟩

/-! ## Step 4: panes -/

/-- No pane is listed under two windows. -/
def OneWindowEach (paneRows : List PanesReplyRow) : Prop :=
  ∀ row ∈ paneRows, ∀ row' ∈ paneRows,
    row.tmuxPaneId = row'.tmuxPaneId → row.tmuxWindowId = row'.tmuxWindowId

/-- A window without panes has no active one yet, or one that a row still brings. -/
def Window.ActiveIsComing (paneRows : List PanesReplyRow) (win : Window) : Prop :=
  (win.paneIds = [] ∧ win.activePaneId = none) ∨
    ∃ active, win.activePaneId = some active ∧
      (active ∈ win.paneIds ∨ ∃ row ∈ paneRows, mintWindowId row.tmuxWindowId = win.windowId ∧
        mintPaneId row.tmuxPaneId = active)

/-- The model while its panes are added: those of the rows in `done` are there, if their
window is. -/
structure PaneStage (paneRows done : List PanesReplyRow) (model : SessionModel) : Prop where
  done_rows : ∀ row ∈ done, row ∈ paneRows
  pane_window : ∀ pane ∈ model.panes.values, model.windows.has pane.windowId = true
  window_session : ∀ win ∈ model.windows.values, model.sessions.has win.sessionId = true
  window_panes : ∀ win ∈ model.windows.values, ∀ pid ∈ win.paneIds, model.panes.has pid = true
  session_windows : ∀ sess ∈ model.sessions.values, ∀ wid ∈ sess.windowIds,
    model.windows.has wid = true
  session_active : ∀ sess ∈ model.sessions.values, sess.ActiveIsOwn
  window_active : ∀ win ∈ model.windows.values, win.ActiveIsComing paneRows
  listed : ∀ row ∈ done, ∀ win ∈ model.windows.values,
    win.windowId = mintWindowId row.tmuxWindowId → mintPaneId row.tmuxPaneId ∈ win.paneIds
  origin : ∀ pane ∈ model.panes.values, ∃ row ∈ done, mintPaneId row.tmuxPaneId = pane.paneId

theorem WindowStage.paneStage {done : List WindowsReplyRow} {model : SessionModel}
    (h : WindowStage windowRows paneRows done model) : PaneStage paneRows [] model where
  done_rows _ hrow := absurd hrow List.not_mem_nil
  pane_window _ hpane := absurd (h.no_panes ▸ hpane) List.not_mem_nil
  window_session := h.window_session
  window_panes win hwin _ hpid := absurd (h.no_pane_ids win hwin ▸ hpid) List.not_mem_nil
  session_windows := h.session_windows
  session_active := h.session_active
  window_active win hwin := by
    rcases hactive : win.activePaneId with _ | active
    · exact .inl ⟨h.no_pane_ids win hwin, hactive⟩
    · exact .inr ⟨active, hactive, .inr (h.active_pane win hwin active hactive)⟩
  listed _ hrow := absurd hrow List.not_mem_nil
  origin _ hpane := absurd (h.no_panes ▸ hpane) List.not_mem_nil

/-- A row that adds no pane: its window is missing, or has the pane already. -/
theorem PaneStage.skip {done : List PanesReplyRow} {model : SessionModel}
    (h : PaneStage paneRows done model) {row : PanesReplyRow} (hrow : row ∈ paneRows)
    (hlisted : ∀ win ∈ model.windows.values,
      win.windowId = mintWindowId row.tmuxWindowId → mintPaneId row.tmuxPaneId ∈ win.paneIds) :
    PaneStage paneRows (done ++ [row]) model := by
  refine { h with done_rows := ?_, listed := ?_, origin := ?_ }
  · intro r hr
    rcases List.mem_append.mp hr with hold | hnew
    · exact h.done_rows r hold
    · exact List.mem_singleton.mp hnew ▸ hrow
  · intro r hr
    rcases List.mem_append.mp hr with hold | hnew
    · exact h.listed r hold
    · exact List.mem_singleton.mp hnew ▸ hlisted
  · intro pane hpane
    obtain ⟨r, hr, hid⟩ := h.origin pane hpane
    exact ⟨r, List.mem_append_left _ hr, hid⟩

/-- A row of a new pane in a window of the model. -/
theorem PaneStage.addPane {done : List PanesReplyRow} {model : SessionModel}
    (h : PaneStage paneRows done model) {row : PanesReplyRow} (hrow : row ∈ paneRows)
    {win : Window} (hget : model.windows.get? (mintWindowId row.tmuxWindowId) = some win) :
    PaneStage paneRows (done ++ [row]) (addPane model (paneOfRow row)) := by
  have hid : win.windowId = mintWindowId row.tmuxWindowId := KeyedMap.key_of_get? hget
  have hwin := KeyedMap.mem_of_get? hget
  have hmodel : State.addPane model (paneOfRow row) =
      { model with
        windows := model.windows.set { win with
          paneIds := win.paneIds ++ [mintPaneId row.tmuxPaneId]
          activePaneId := win.activePaneId.or (some (mintPaneId row.tmuxPaneId)) }
        panes := model.panes.set (paneOfRow row) } := by
    rw [State.addPane, paneOfRow, hget]
  have hwindows : ∀ id, model.windows.has id = true →
      (State.addPane model (paneOfRow row)).windows.has id = true := by
    intro id hhas
    rw [hmodel, KeyedMap.has_set, hhas, Bool.or_true]
  have hpanes : ∀ id, model.panes.has id = true →
      (State.addPane model (paneOfRow row)).panes.has id = true := by
    intro id hhas
    rw [hmodel, KeyedMap.has_set, hhas, Bool.or_true]
  rw [hmodel] at hwindows hpanes ⊢
  refine ⟨fun r hr => ?_, fun pane hpane => ?_, fun w hw => ?_, fun w hw pid hpid => ?_,
    fun sess hsess wid hwid => hwindows _ (h.session_windows sess hsess wid hwid),
    h.session_active, fun w hw => ?_, fun r hr w hw hkey => ?_, fun pane hpane => ?_⟩
  · rcases List.mem_append.mp hr with hold | hnew
    · exact h.done_rows r hold
    · exact List.mem_singleton.mp hnew ▸ hrow
  · rcases KeyedMap.mem_set.mp hpane with rfl | ⟨hold, -⟩
    · exact hwindows _ (KeyedMap.has_iff.mpr ⟨win, hget⟩)
    · exact hwindows _ (h.pane_window pane hold)
  · rcases KeyedMap.mem_set.mp hw with rfl | ⟨hold, -⟩
    · exact h.window_session win hwin
    · exact h.window_session w hold
  · rcases KeyedMap.mem_set.mp hw with rfl | ⟨hold, -⟩
    · rcases List.mem_append.mp hpid with hold | hnew
      · exact hpanes _ (h.window_panes win hwin pid hold)
      · obtain rfl := List.mem_singleton.mp hnew
        rw [KeyedMap.has_set, paneOfRow, decide_eq_true rfl, Bool.true_or]
    · exact hpanes _ (h.window_panes w hold pid hpid)
  · rcases KeyedMap.mem_set.mp hw with rfl | ⟨hold, -⟩
    · rcases h.window_active win hwin with ⟨hempty, hnone⟩ | ⟨active, hsome, hfrom⟩
      · exact .inr ⟨mintPaneId row.tmuxPaneId, by rw [hnone]; rfl,
          .inl (List.mem_append_right _ (List.mem_singleton_self _))⟩
      · exact .inr ⟨active, by rw [hsome]; rfl, hfrom.imp_left (List.mem_append_left _)⟩
    · exact h.window_active w hold
  · rcases KeyedMap.mem_set.mp hw with rfl | ⟨hw', hne⟩
    · rcases List.mem_append.mp hr with hold | hnew
      · exact List.mem_append_left _ (h.listed r hold win hwin hkey)
      · obtain rfl := List.mem_singleton.mp hnew
        exact List.mem_append_right _ (List.mem_singleton_self _)
    · rcases List.mem_append.mp hr with hold | hnew
      · exact h.listed r hold w hw' hkey
      · obtain rfl := List.mem_singleton.mp hnew
        exact absurd (hkey.trans hid.symm) hne
  · rcases KeyedMap.mem_set.mp hpane with rfl | ⟨hold, -⟩
    · exact ⟨row, List.mem_append_right _ (List.mem_singleton_self _), rfl⟩
    · obtain ⟨r, hr, hpid⟩ := h.origin pane hold
      exact ⟨r, List.mem_append_left _ hr, hpid⟩

/-- Step 4: one pane row. -/
theorem PaneStage.addPaneRow {done : List PanesReplyRow} {model : SessionModel}
    (h : PaneStage paneRows done model) (hone : OneWindowEach paneRows) {row : PanesReplyRow}
    (hrow : row ∈ paneRows) : PaneStage paneRows (done ++ [row]) (addPaneRow model row) := by
  unfold State.addPaneRow
  split
  · next hmissing =>
    refine h.skip hrow fun win hwin hid => ?_
    have hhas := KeyedMap.has_of_mem hwin
    rw [hid] at hhas
    simp [hhas] at hmissing
  · next hpresent =>
    split
    · next hknown =>
      -- The pane came with an earlier row, which lists it under the same window.
      obtain ⟨pane, hpane, hpid⟩ := KeyedMap.has_iff_mem.mp hknown
      obtain ⟨r, hr, hrid⟩ := h.origin pane hpane
      have hsame : r.tmuxWindowId = row.tmuxWindowId :=
        hone r (h.done_rows r hr) row hrow (mintPaneId_inj.mp (hrid.trans hpid))
      refine h.skip hrow fun win hwin hid => ?_
      rw [← hpid, ← hrid]
      exact h.listed r hr win hwin (hid.trans (congrArg mintWindowId hsame.symm))
    · obtain ⟨win, hget⟩ := KeyedMap.has_iff.mp (by simpa using hpresent)
      exact h.addPane hrow hget

/-- The model before its focus is set. -/
theorem buildTopology_stage (hone : OneWindowEach paneRows) :
    PaneStage paneRows paneRows (buildTopology windowRows paneRows) := by
  have hwindows : WindowStage windowRows paneRows windowRows
      (windowRows.foldl (addWindowRow paneRows)
        ((sessionNames windowRows).values.foldl addSessionEntry emptyModel)) :=
    foldl_done (P := WindowStage windowRows paneRows) windowStage_sessions
      fun _ _ _ hrow h => h.addWindowRow hrow
  have hactive : WindowStage windowRows paneRows windowRows
      ((sessionActiveWindowId windowRows).values.foldl setActiveWindow _) :=
    foldl_keeps hwindows fun _ _ hentry h => h.setActiveWindow hentry
  exact foldl_done (P := PaneStage paneRows) hactive.paneStage
    fun _ _ _ hrow h => h.addPaneRow hone hrow

/-! ## Step 5: the focus -/

theorem PaneStage.active_mem {model : SessionModel} (h : PaneStage paneRows paneRows model)
    {win : Window} (hwin : win ∈ model.windows.values) {active : PaneId}
    (hactive : win.activePaneId = some active) : active ∈ win.paneIds := by
  rcases h.window_active win hwin with ⟨-, hnone⟩ | ⟨a, hsome, hmem | ⟨row, hrow, hwid, hpid⟩⟩
  · cases hnone.symm.trans hactive
  · cases hsome.symm.trans hactive
    exact hmem
  · cases hsome.symm.trans hactive
    exact hpid ▸ h.listed row hrow win hwin hwid.symm

theorem focusOfSession_consistent {model : SessionModel} (h : PaneStage paneRows paneRows model)
    {entry : Nat × Nat} {focus : FocusState} (hfocus : focusOfSession model entry = some focus) :
    FocusConsistent model focus := by
  obtain ⟨sess, hsess, hfocus⟩ := Option.bind_eq_some_iff.mp hfocus
  obtain ⟨activeWid, hwid, hfocus⟩ := Option.bind_eq_some_iff.mp hfocus
  obtain ⟨win, hwin, hfocus⟩ := Option.bind_eq_some_iff.mp hfocus
  obtain ⟨activePid, hpid, hfocus⟩ := Option.bind_eq_some_iff.mp hfocus
  have hwinMem := KeyedMap.mem_of_get? hwin
  have hpidMem := h.active_mem hwinMem hpid
  obtain ⟨pane, hpane, rfl⟩ :=
    KeyedMap.has_iff_mem.mp (h.window_panes win hwinMem activePid hpidMem)
  obtain rfl := KeyedMap.key_of_get? hwin
  have hwidMem : win.windowId ∈ sess.windowIds := by
    rcases h.session_active sess (KeyedMap.mem_of_get? hsess) with ⟨-, hnone⟩ | ⟨a, hmem, hsome⟩
    · cases hnone.symm.trans hwid
    · cases hsome.symm.trans hwid
      exact hmem
  cases hfocus
  rw [← KeyedMap.key_of_get? hsess]
  exact .focused pane win sess hpane hwinMem (KeyedMap.mem_of_get? hsess) hpidMem hpid hwidMem hwid

theorem initialFocus_consistent {model : SessionModel} (h : PaneStage paneRows paneRows model) :
    FocusConsistent model (initialFocus windowRows model) := by
  unfold initialFocus
  rcases hfind : (sessionActiveWindowId windowRows).values.findSome? (focusOfSession model) with
    _ | focus
  · exact .unfocused
  · obtain ⟨entry, -, hfocus⟩ := List.exists_of_findSome?_eq_some hfind
    exact focusOfSession_consistent h hfocus

/-- I1 to I7 do not read the focus beside I7. -/
theorem FocusConsistent.setFocus {model : SessionModel} {focus focus' : FocusState}
    (h : FocusConsistent model focus) : FocusConsistent (setFocus model focus') focus := by
  cases h with
  | unfocused => exact .unfocused
  | focused pane win sess hpane hwin hsess pane_mem pane_active win_mem win_active =>
    exact .focused pane win sess hpane hwin hsess pane_mem pane_active win_mem win_active

theorem buildInitialModel_invariants (hone : OneWindowEach paneRows) :
    Invariants (buildInitialModel windowRows paneRows) := by
  have h : PaneStage paneRows paneRows (buildTopology windowRows paneRows) :=
    buildTopology_stage hone
  refine ⟨h.pane_window, h.window_session, h.window_panes, h.session_windows,
    fun win hwin hne => ?_, fun sess hsess hne => ?_, (initialFocus_consistent h).setFocus⟩
  · rcases h.window_active win hwin with ⟨hempty, -⟩ | ⟨active, hactive, -⟩
    · exact absurd hempty hne
    · exact ⟨active, h.active_mem hwin hactive, hactive⟩
  · rcases h.session_active sess hsess with ⟨hempty, -⟩ | hown
    · exact absurd hempty hne
    · exact hown

end Stages

end TmuxccDriver.State
