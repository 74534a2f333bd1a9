import Mathlib.Data.Finset.Basic
import TmuxccDriver.Lib.KeyedMap
import TmuxccDriver.Protocol.SessionProxyControl

/-!
# The session model

`state/model.ts`: sessions, windows and panes in three maps keyed by their ids, and the
focus triple. `checkInvariants` is the source's checker; `Invariants` says what it means
for a model when the checker reports nothing.

Results:
1. `checkInvariants_eq_nil`: the checker reports nothing exactly on the models with
   `Invariants`.
2. `checkInvariants_layout`: with the opt-in layout check, the leaves of every layout are
   the panes of its window besides.
-/

namespace TmuxccDriver.State
open TmuxccDriver.Lib TmuxccDriver.Protocol

/-! ## Data -/

/-- The client-local state of a pane, which no tmux reply row carries. -/
structure PaneOverlay where
  boundClients : Finset String
deriving DecidableEq

/-- `emptyPaneOverlay`. -/
def emptyPaneOverlay : PaneOverlay := ⟨∅⟩

structure Pane where
  paneId : PaneId
  windowId : WindowId
  sessionId : SessionId
  cols : Nat
  rows : Nat
  mode : String
  dead : Bool
  label : Option String
  detach : Option DetachPolicy
  icon : Option String
  paneTitle : Option String
  exitCode : Option Nat
  overlay : PaneOverlay
deriving DecidableEq

structure Window where
  windowId : WindowId
  sessionId : SessionId
  name : String
  paneIds : List PaneId
  activePaneId : Option PaneId
  layout : Option WindowLayout
  synchronizePanes : Bool
  monitorActivity : Bool
  monitorSilence : Nat
deriving DecidableEq, Repr

structure Session where
  sessionId : SessionId
  name : String
  windowIds : List WindowId
  activeWindowId : Option WindowId
deriving DecidableEq, Repr

structure FocusState where
  paneId : Option PaneId
  windowId : Option WindowId
  sessionId : Option SessionId
deriving DecidableEq, Repr

structure SessionModel where
  sessions : KeyedMap Session.sessionId
  windows : KeyedMap Window.windowId
  panes : KeyedMap Pane.paneId
  focus : FocusState

theorem SessionModel.eq_of_values {model model' : SessionModel}
    (h : model.sessions.values = model'.sessions.values ∧
      model.windows.values = model'.windows.values ∧ model.panes.values = model'.panes.values ∧
      model.focus = model'.focus) : model = model' := by
  obtain ⟨sessions, windows, panes, focus⟩ := model
  obtain ⟨hsessions, hwindows, hpanes, rfl⟩ := h
  obtain rfl := KeyedMap.eq_of_values hsessions
  obtain rfl := KeyedMap.eq_of_values hwindows
  obtain rfl := KeyedMap.eq_of_values hpanes
  rfl

/-- `emptyModel`. -/
def emptyModel : SessionModel := ⟨.empty, .empty, .empty, ⟨none, none, none⟩⟩

/-- `model.sessions.values().next().value`: the bound session. -/
def SessionModel.boundSession (model : SessionModel) : Option Session :=
  model.sessions.values.head?

/-- `paneBoundFor`. -/
def paneBoundFor (pane : Pane) (clientId : Option String) : Bool :=
  match clientId with
  | none => false
  | some id => id ∈ pane.overlay.boundClients

mutual

/-- `collectLayoutPaneIds`. -/
def collectLayoutPaneIds : LayoutNode → List PaneId
  | .pane paneId _ => [paneId]
  | .hsplit _ children => collectChildren children
  | .vsplit _ children => collectChildren children

def collectChildren : List LayoutNode → List PaneId
  | [] => []
  | child :: children => collectLayoutPaneIds child ++ collectChildren children

end

/-! ## The checker -/

inductive InvariantViolation
  | paneMissingWindow (paneId : PaneId) (windowId : WindowId)
  | windowMissingSession (windowId : WindowId) (sessionId : SessionId)
  | windowPaneNotInMap (windowId : WindowId) (paneId : PaneId)
  | sessionWindowNotInMap (sessionId : SessionId) (windowId : WindowId)
  | windowActivePaneMissing (windowId : WindowId) (activePaneId : PaneId)
  | windowNoActivePane (windowId : WindowId)
  | sessionActiveWindowMissing (sessionId : SessionId) (activeWindowId : WindowId)
  | sessionNoActiveWindow (sessionId : SessionId)
  | focusPartialNull (focus : FocusState)
  | focusPaneNotFound (focusPaneId : PaneId)
  | focusWindowNotFound (focusWindowId : WindowId)
  | focusSessionNotFound (focusSessionId : SessionId)
  | focusPaneWrongWindow (focusPaneId : PaneId) (focusWindowId : WindowId)
  | focusWindowWrongSession (focusWindowId : WindowId) (focusSessionId : SessionId)
  | focusPaneNotActive (focusPaneId : PaneId) (focusWindowId : WindowId)
      (activePaneId : Option PaneId)
  | focusWindowNotActive (focusWindowId : WindowId) (focusSessionId : SessionId)
      (activeWindowId : Option WindowId)
  | layoutPaneMismatch (windowId : WindowId) (layoutPaneIds modelPaneIds : List PaneId)
deriving DecidableEq, Repr

/-- I5: the active pane of one window. -/
def checkActivePane (win : Window) : List InvariantViolation :=
  if win.paneIds = [] then []
  else
    match win.activePaneId with
    | none => [.windowNoActivePane win.windowId]
    | some active =>
      if active ∈ win.paneIds then [] else [.windowActivePaneMissing win.windowId active]

/-- I6: the active window of one session. -/
def checkActiveWindow (sess : Session) : List InvariantViolation :=
  if sess.windowIds = [] then []
  else
    match sess.activeWindowId with
    | none => [.sessionNoActiveWindow sess.sessionId]
    | some active =>
      if active ∈ sess.windowIds then [] else [.sessionActiveWindowMissing sess.sessionId active]

/-- I7, when no part of the focus is null. -/
def checkFocusTriple (model : SessionModel) (paneId : PaneId) (windowId : WindowId)
    (sessionId : SessionId) : List InvariantViolation :=
  (if model.panes.has paneId then [] else [.focusPaneNotFound paneId]) ++
  (if model.windows.has windowId then [] else [.focusWindowNotFound windowId]) ++
  (if model.sessions.has sessionId then [] else [.focusSessionNotFound sessionId]) ++
  (match model.windows.get? windowId, model.panes.get? paneId with
    | some win, some _ =>
      if paneId ∉ win.paneIds then [.focusPaneWrongWindow paneId windowId]
      else if win.activePaneId ≠ some paneId then
        [.focusPaneNotActive paneId windowId win.activePaneId]
      else []
    | _, _ => []) ++
  (match model.sessions.get? sessionId, model.windows.get? windowId with
    | some sess, some _ =>
      if windowId ∉ sess.windowIds then [.focusWindowWrongSession windowId sessionId]
      else if sess.activeWindowId ≠ some windowId then
        [.focusWindowNotActive windowId sessionId sess.activeWindowId]
      else []
    | _, _ => [])

/-- I7. -/
def checkFocus (model : SessionModel) : List InvariantViolation :=
  match model.focus.paneId, model.focus.windowId, model.focus.sessionId with
  | none, none, none => []
  | some paneId, some windowId, some sessionId => checkFocusTriple model paneId windowId sessionId
  | _, _, _ => [.focusPartialNull model.focus]

/-- I9: the leaves of one window's layout. -/
def checkLayout (win : Window) : List InvariantViolation :=
  match win.layout with
  | none => []
  | some layout =>
    let layoutPaneIds := collectLayoutPaneIds layout.root
    if (∃ id ∈ layoutPaneIds, id ∉ win.paneIds) ∨ (∃ id ∈ win.paneIds, id ∉ layoutPaneIds) then
      [.layoutPaneMismatch win.windowId layoutPaneIds win.paneIds]
    else []

/-- `checkInvariants`. -/
def checkInvariants (model : SessionModel) (checkLayoutConsistency : Bool) :
    List InvariantViolation :=
  (model.panes.values.flatMap fun pane =>
    if model.windows.has pane.windowId then []
    else [.paneMissingWindow pane.paneId pane.windowId]) ++
  (model.windows.values.flatMap fun win =>
    if model.sessions.has win.sessionId then []
    else [.windowMissingSession win.windowId win.sessionId]) ++
  (model.windows.values.flatMap fun win =>
    (win.paneIds.filter fun pid => !model.panes.has pid).map (.windowPaneNotInMap win.windowId)) ++
  (model.sessions.values.flatMap fun sess =>
    (sess.windowIds.filter fun wid => !model.windows.has wid).map
      (.sessionWindowNotInMap sess.sessionId)) ++
  model.windows.values.flatMap checkActivePane ++
  model.sessions.values.flatMap checkActiveWindow ++
  checkFocus model ++
  if checkLayoutConsistency then model.windows.values.flatMap checkLayout else []

/-! ## What the checker means -/

/-- The focus is null, or names an active pane of an active window of a session. -/
inductive FocusConsistent (model : SessionModel) : FocusState → Prop
  | unfocused : FocusConsistent model ⟨none, none, none⟩
  | focused (pane : Pane) (win : Window) (sess : Session) (hpane : pane ∈ model.panes.values)
      (hwin : win ∈ model.windows.values) (hsess : sess ∈ model.sessions.values)
      (pane_mem : pane.paneId ∈ win.paneIds) (pane_active : win.activePaneId = some pane.paneId)
      (win_mem : win.windowId ∈ sess.windowIds)
      (win_active : sess.activeWindowId = some win.windowId) :
      FocusConsistent model ⟨some pane.paneId, some win.windowId, some sess.sessionId⟩

theorem FocusConsistent.has_pane {model : SessionModel} {focus : FocusState} {paneId : PaneId}
    (h : FocusConsistent model focus) (hpane : focus.paneId = some paneId) :
    model.panes.has paneId = true := by
  cases h with
  | unfocused => cases hpane
  | focused pane win sess hmem =>
    cases hpane
    exact KeyedMap.has_of_mem hmem

theorem FocusConsistent.has_window {model : SessionModel} {focus : FocusState}
    {windowId : WindowId} (h : FocusConsistent model focus)
    (hwin : focus.windowId = some windowId) : model.windows.has windowId = true := by
  cases h with
  | unfocused => cases hwin
  | focused pane win sess _ hmem =>
    cases hwin
    exact KeyedMap.has_of_mem hmem

/-- I1 to I7. -/
structure Invariants (model : SessionModel) : Prop where
  pane_window : ∀ pane ∈ model.panes.values, model.windows.has pane.windowId = true
  window_session : ∀ win ∈ model.windows.values, model.sessions.has win.sessionId = true
  window_panes : ∀ win ∈ model.windows.values, ∀ pid ∈ win.paneIds, model.panes.has pid = true
  session_windows : ∀ sess ∈ model.sessions.values, ∀ wid ∈ sess.windowIds,
    model.windows.has wid = true
  window_active : ∀ win ∈ model.windows.values, win.paneIds ≠ [] →
    ∃ active ∈ win.paneIds, win.activePaneId = some active
  session_active : ∀ sess ∈ model.sessions.values, sess.windowIds ≠ [] →
    ∃ active ∈ sess.windowIds, sess.activeWindowId = some active
  focus : FocusConsistent model model.focus

/-- I9 for one window. -/
def LayoutConsistent (win : Window) : Prop :=
  ∀ layout, win.layout = some layout →
    ∀ pid, pid ∈ collectLayoutPaneIds layout.root ↔ pid ∈ win.paneIds

theorem checkActivePane_eq_nil {win : Window} :
    checkActivePane win = [] ↔
      (win.paneIds ≠ [] → ∃ active ∈ win.paneIds, win.activePaneId = some active) := by
  unfold checkActivePane
  split
  · next h => simp [h]
  · next h =>
    cases hactive : win.activePaneId with
    | none => simp [h]
    | some active => by_cases hmem : active ∈ win.paneIds <;> simp [h, hmem]

theorem checkActiveWindow_eq_nil {sess : Session} :
    checkActiveWindow sess = [] ↔
      (sess.windowIds ≠ [] → ∃ active ∈ sess.windowIds, sess.activeWindowId = some active) := by
  unfold checkActiveWindow
  split
  · next h => simp [h]
  · next h =>
    cases hactive : sess.activeWindowId with
    | none => simp [h]
    | some active => by_cases hmem : active ∈ sess.windowIds <;> simp [h, hmem]

theorem checkFocusTriple_eq_nil {model : SessionModel} {paneId : PaneId} {windowId : WindowId}
    {sessionId : SessionId} :
    checkFocusTriple model paneId windowId sessionId = [] ↔
      FocusConsistent model ⟨some paneId, some windowId, some sessionId⟩ := by
  constructor
  · intro h
    simp only [checkFocusTriple, List.append_eq_nil_iff] at h
    obtain ⟨⟨⟨⟨hpane, hwin⟩, hsess⟩, hactive⟩, hactiveWin⟩ := h
    obtain ⟨pane, hpane⟩ := KeyedMap.has_iff.mp (by simpa using hpane)
    obtain ⟨win, hwin⟩ := KeyedMap.has_iff.mp (by simpa using hwin)
    obtain ⟨sess, hsess⟩ := KeyedMap.has_iff.mp (by simpa using hsess)
    simp only [hpane, hwin, hsess] at hactive hactiveWin
    obtain rfl := KeyedMap.key_of_get? hpane
    obtain rfl := KeyedMap.key_of_get? hwin
    obtain rfl := KeyedMap.key_of_get? hsess
    split at hactive
    · cases hactive
    · next hmem =>
      split at hactive
      · cases hactive
      · next hpaneActive =>
        split at hactiveWin
        · cases hactiveWin
        · next hwinMem =>
          split at hactiveWin
          · cases hactiveWin
          · next hwinActive =>
            exact .focused pane win sess (KeyedMap.mem_of_get? hpane) (KeyedMap.mem_of_get? hwin)
              (KeyedMap.mem_of_get? hsess) (not_not.mp hmem) (not_not.mp hpaneActive)
              (not_not.mp hwinMem) (not_not.mp hwinActive)
  · rintro ⟨⟩
    next pane win sess hpane hwin hsess pane_mem pane_active win_mem win_active =>
      simp [checkFocusTriple, KeyedMap.has_of_mem hpane, KeyedMap.has_of_mem hwin,
        KeyedMap.has_of_mem hsess, KeyedMap.get?_self hpane, KeyedMap.get?_self hwin,
        KeyedMap.get?_self hsess, pane_mem, pane_active, win_mem, win_active]

theorem checkFocus_eq_nil {model : SessionModel} :
    checkFocus model = [] ↔ FocusConsistent model model.focus := by
  obtain ⟨sessions, windows, panes, ⟨paneId, windowId, sessionId⟩⟩ := model
  cases paneId <;> cases windowId <;> cases sessionId
  case none.none.none => exact ⟨fun _ => .unfocused, fun _ => rfl⟩
  case some.some.some => exact checkFocusTriple_eq_nil
  all_goals
    refine ⟨fun h => ?_, fun h => ?_⟩
    · simp [checkFocus] at h
    · cases h

theorem checkLayout_eq_nil {win : Window} : checkLayout win = [] ↔ LayoutConsistent win := by
  unfold checkLayout LayoutConsistent
  cases hlayout : win.layout with
  | none => simp
  | some layout =>
    simp only [Option.some.injEq, forall_eq', ite_eq_right_iff]
    constructor
    · intro h pid
      by_contra hne
      refine absurd (h ?_) (by simp)
      by_cases hpid : pid ∈ win.paneIds
      · exact .inr ⟨pid, hpid, fun hleaf => hne ⟨fun _ => hpid, fun _ => hleaf⟩⟩
      · exact .inl ⟨pid, by_contra fun hleaf => hne (by simp [hleaf, hpid]), hpid⟩
    · rintro h (⟨pid, hleaf, hpid⟩ | ⟨pid, hpid, hleaf⟩)
      · exact absurd ((h pid).mp hleaf) hpid
      · exact absurd ((h pid).mpr hpid) hleaf

/-- The checker without options reports nothing exactly on the models with I1 to I7. -/
theorem checkInvariants_eq_nil {model : SessionModel} :
    checkInvariants model false = [] ↔ Invariants model := by
  simp only [checkInvariants, List.append_eq_nil_iff, List.flatMap_eq_nil_iff,
    List.map_eq_nil_iff, List.filter_eq_nil_iff, checkActivePane_eq_nil,
    checkActiveWindow_eq_nil, checkFocus_eq_nil]
  constructor
  · rintro ⟨⟨⟨⟨⟨⟨⟨h1, h2⟩, h3⟩, h4⟩, h5⟩, h6⟩, h7⟩, -⟩
    exact ⟨by simpa using h1, by simpa using h2, by simpa using h3, by simpa using h4, h5, h6, h7⟩
  · rintro ⟨h1, h2, h3, h4, h5, h6, h7⟩
    exact ⟨⟨⟨⟨⟨⟨⟨by simpa using h1, by simpa using h2⟩, by simpa using h3⟩, by simpa using h4⟩,
      h5⟩, h6⟩, h7⟩, by simp⟩

theorem checkInvariants_layout {model : SessionModel} :
    checkInvariants model true = [] ↔
      Invariants model ∧ ∀ win ∈ model.windows.values, LayoutConsistent win := by
  rw [← checkInvariants_eq_nil]
  simp only [checkInvariants, List.append_eq_nil_iff, List.flatMap_eq_nil_iff (f := checkLayout),
    checkLayout_eq_nil, if_true]
  simp

end TmuxccDriver.State
