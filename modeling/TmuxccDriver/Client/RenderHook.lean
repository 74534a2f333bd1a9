import TmuxccDriver.Client.Gap
import TmuxccDriver.Lib.Bytes
import TmuxccDriver.Lib.Run

/-!
# The render hook

`attach` and `detachHook` of the class `Mirror` in `clients/ts/src/mirror.ts`, and the callbacks
of `clients/ts/src/render-hook.ts`. The hook is caught up with the model at `attach`, and then
with every change of the model, by a comparison with what was last seen of it.

A renderer keeps a tab for a window and a terminal for a pane. A callback for which there is no
place, such as one on a pane that is not open, or that puts a pane into a window that was closed,
leaves it without a state.

Results:
1. `applyModelDiff_spec`, `catchUp_spec`: the callbacks of a comparison and of `attach` as lists.
2. `tab_diff`, `terminal_diff`: what a comparison makes of a tab and of a terminal.
3. `terminal_of_told`, `tab_of_told`, `told_of_renders`: when they are as the model again.
4. `renders_iff`: in which runs the renderer has the windows, panes and focus of the model in
every state.
-/

namespace TmuxccDriver.Client.RenderHook
open TmuxccDriver.Lib TmuxccDriver.Protocol TmuxccDriver.Runtime.Serve

variable {T : Type}

/-! ## Callbacks -/

structure PaneInfo where
  paneId : PaneId
  windowId : WindowId
  cols : Nat
  rows : Nat
  active : Bool
  origin : Option Origin
  dead : Option Bool
  exitCode : Option Nat
  label : Option String
  bound : Option Bool
  detach : Option DetachPolicy
  icon : Option String
  paneTitle : Option String
deriving DecidableEq

structure WindowInfo where
  windowId : WindowId
  name : String
  active : Bool
  layout : WindowLayout
deriving DecidableEq

inductive RenderHookCall
  | paneOpened (pane : PaneInfo)
  | paneClosed (paneId : PaneId) (exitCode : Option Nat) (cause : Option Origin)
  | paneResized (paneId : PaneId) (cols rows : Nat)
  | paneMoved (paneId : PaneId) (windowId : WindowId)
  | paneDeadChanged (paneId : PaneId) (dead : Bool) (exitCode : Option Nat)
  | paneModeChanged (paneId : PaneId) (mode : String)
  | paneLabelChanged (paneId : PaneId) (label : Option String)
  | panePolicyChanged (paneId : PaneId) (bound : Bool) (detach : Option DetachPolicy)
      (icon : Option String)
  | paneTitleChanged (paneId : PaneId) (title : Option String)
  | paneOutput (paneId : PaneId) (bytes : Bytes)
  | windowAdded (window : WindowInfo)
  | windowClosed (windowId : WindowId)
  | windowRenamed (windowId : WindowId) (newName : String)
  | layoutChanged (windowId : WindowId) (layout : WindowLayout)
  | focusChanged (focus : Focus)
  | connected
  | disconnected (reason : String)
deriving DecidableEq

/-- What the code does to others: calls of the hook, and subscriptions at the byte source. -/
inductive Effect
  | call (c : RenderHookCall)
  | subscribed (paneId : PaneId)
  | unsubscribed (paneId : PaneId)
deriving DecidableEq

/-! ## What was last seen of the model -/

structure SeenPane where
  paneId : PaneId
  windowId : WindowId
  cols : Nat
  rows : Nat
  dead : Bool
  exitCode : Option Nat
  label : Option String
  bound : Bool
  detach : Option DetachPolicy
  icon : Option String
  paneTitle : Option String

structure SeenWindow where
  windowId : WindowId
  name : String
  layout : WindowLayout

structure PrevModel where
  panes : KeyedMap SeenPane.paneId
  windows : KeyedMap SeenWindow.windowId
  focus : Focus

def seenPane (p : ClientPane) : SeenPane :=
  { paneId := p.paneId
    windowId := p.windowId
    cols := p.cols
    rows := p.rows
    dead := p.dead
    exitCode := p.exitCode
    label := p.label
    bound := p.bound
    detach := p.detach
    icon := p.icon
    paneTitle := p.paneTitle }

def seenWindow (w : ClientWindow) : SeenWindow :=
  { windowId := w.windowId, name := w.name, layout := w.layout }

def PrevModel.seen (model : ClientModel) : PrevModel :=
  { panes := .ofList (model.panes.values.map seenPane)
    windows := .ofList (model.windows.values.map seenWindow)
    focus := model.focus }

/-! ## The callbacks on a model -/

/-- The entries of `byteUnsubs`, and what was done so far. -/
structure Out where
  byteUnsubs : OrderedSet PaneId
  effects : List Effect

namespace Out

def push (out : Out) (effects : List Effect) : Out :=
  { out with effects := out.effects ++ effects }

/-- `backlog` is what the byte source holds of the output of a pane; it is handed over before
the subscription returns. -/
def subscribeBytes (out : Out) (backlog : PaneId → List Bytes) (paneId : PaneId) : Out :=
  if out.byteUnsubs.has paneId then out
  else
    { byteUnsubs := out.byteUnsubs.set paneId
      effects := out.effects ++
        .subscribed paneId :: (backlog paneId).map fun bytes => .call (.paneOutput paneId bytes) }

def unsubscribeBytes (out : Out) (paneId : PaneId) : Out :=
  if out.byteUnsubs.has paneId then
    { byteUnsubs := out.byteUnsubs.delete paneId
      effects := out.effects ++ [.unsubscribed paneId] }
  else out

end Out

def windowInfo (win : ClientWindow) : WindowInfo :=
  { windowId := win.windowId, name := win.name, active := win.active, layout := win.layout }

/-- The argument of `onPaneOpened`, the same in both places. It has no title. -/
def paneInfo (focus : Focus) (pane : ClientPane) : PaneInfo :=
  { paneId := pane.paneId
    windowId := pane.windowId
    cols := pane.cols
    rows := pane.rows
    active := focus.paneId = some pane.paneId
    origin := pane.origin
    dead := if pane.dead then some true else none
    exitCode := if pane.dead then pane.exitCode else none
    label := pane.label
    bound := if pane.bound then some true else none
    detach := pane.detach
    icon := pane.icon
    paneTitle := none }

def addWindow (win : ClientWindow) : List Effect :=
  [.call (.windowAdded (windowInfo win)), .call (.layoutChanged win.windowId win.layout)]

def openPane (focus : Focus) (backlog : PaneId → List Bytes) (out : Out) (pane : ClientPane) :
    Out :=
  (out.push [.call (.paneOpened (paneInfo focus pane))]).subscribeBytes backlog pane.paneId

/-- One window of the first loop of `applyModelDiff`. Layouts are compared as objects: `relaid`
tells for which windows the model has another object than before. -/
def diffWindow (prev : PrevModel) (relaid : WindowId → Bool) (win : ClientWindow) : List Effect :=
  match prev.windows.get? win.windowId with
  | none => addWindow win
  | some prevWin =>
    (if prevWin.name ≠ win.name then [.call (.windowRenamed win.windowId win.name)] else []) ++
      if relaid win.windowId then [.call (.layoutChanged win.windowId win.layout)] else []

/-- The callbacks on a pane that was seen before. -/
def keptPane (prevPane : SeenPane) (pane : ClientPane) : List Effect :=
  (if prevPane.cols ≠ pane.cols ∨ prevPane.rows ≠ pane.rows then
      [.call (.paneResized pane.paneId pane.cols pane.rows)] else []) ++
  (if prevPane.windowId ≠ pane.windowId then
      [.call (.paneMoved pane.paneId pane.windowId)] else []) ++
  (if prevPane.dead ≠ pane.dead ∨ prevPane.exitCode ≠ pane.exitCode then
      [.call (.paneDeadChanged pane.paneId pane.dead (if pane.dead then pane.exitCode else none))]
    else []) ++
  (if prevPane.label ≠ pane.label then
      [.call (.paneLabelChanged pane.paneId pane.label)] else []) ++
  (if prevPane.bound ≠ pane.bound ∨ prevPane.detach ≠ pane.detach ∨ prevPane.icon ≠ pane.icon then
      [.call (.panePolicyChanged pane.paneId pane.bound pane.detach pane.icon)] else []) ++
  (if prevPane.paneTitle ≠ pane.paneTitle then
      [.call (.paneTitleChanged pane.paneId pane.paneTitle)] else [])

def diffPane (prev : PrevModel) (curr : ClientModel) (backlog : PaneId → List Bytes) (out : Out)
    (pane : ClientPane) : Out :=
  match prev.panes.get? pane.paneId with
  | none => openPane curr.focus backlog out pane
  | some prevPane => out.push (keptPane prevPane pane)

def dropPane (curr : ClientModel) (out : Out) (prevPane : SeenPane) : Out :=
  if curr.panes.has prevPane.paneId then out
  else
    (out.push [.call (.paneClosed prevPane.paneId
        ((curr.exitCodes.get? prevPane.paneId).map (·.value))
        ((curr.closeCauses.get? prevPane.paneId).map (·.value)))]).unsubscribeBytes
      prevPane.paneId

/-- What `attach` keeps while it is subscribed. -/
structure Attachment where
  prevModel : PrevModel
  byteUnsubs : OrderedSet PaneId

def applyModelDiff (hook : Attachment) (curr : ClientModel) (relaid : WindowId → Bool)
    (backlog : PaneId → List Bytes) : Attachment × List Effect :=
  let prev := hook.prevModel
  let added := curr.windows.values.flatMap (diffWindow prev relaid)
  let removed := prev.windows.values.flatMap fun win =>
    if curr.windows.has win.windowId then [] else [.call (.windowClosed win.windowId)]
  let opened := curr.panes.values.foldl (diffPane prev curr backlog) ⟨hook.byteUnsubs, []⟩
  let dropped := prev.panes.values.foldl (dropPane curr) opened
  let focus := if prev.focus ≠ curr.focus then [.call (.focusChanged curr.focus)] else []
  (⟨.seen curr, dropped.byteUnsubs⟩, added ++ removed ++ dropped.effects ++ focus)

/-- The part of `attach` that catches the hook up with the model. -/
def catchUp (initial : ClientModel) (backlog : PaneId → List Bytes) : Attachment × List Effect :=
  let opened := initial.panes.values.foldl (openPane initial.focus backlog) ⟨.empty, []⟩
  (⟨.seen initial, opened.byteUnsubs⟩,
    initial.windows.values.flatMap addWindow ++ opened.effects ++
      [.call (.focusChanged initial.focus), .call .connected])

/-! ## Runs -/

inductive Hook
  | idle
  | attached (attachment : Attachment)
  | detached

/-- A mirror and its hook. `effects` is the history of what was done, the oldest first, and
`gone` are the windows that the model has had since `attach` and has no more. -/
structure Replica where
  mirror : Mirror := {}
  hook : Hook := .idle
  effects : List Effect := []
  gone : List WindowId := []

inductive Event (T : Type)
  | receive (m : Sent T) (backlog : PaneId → List Bytes)
  | attach (backlog : PaneId → List Bytes)
  /-- The byte source has output of a pane. -/
  | output (paneId : PaneId) (bytes : Bytes)
  | detachHook

/-- The message makes the mirror call its `onModelChange` handlers. -/
def emitsChange (mirror : Mirror) (m : Sent T) : Bool :=
  match m.message, mirror.lastSeq with
  | .snapshot _, _ => true
  | .notStateBearing, _ => false
  | _, none => false
  | _, some lastSeq => mirror.initialized && m.seq == lastSeq + 1

/-- The windows whose layout is another object after the message than before. -/
def relaid : SessionProxyMessage → WindowId → Bool
  | .snapshot _, _ => true
  | .windowAdded windowId .., k | .layoutUpdated windowId _, k => windowId = k
  | _, _ => false

/-- The windows that are gone after the model has become `curr`. -/
def goneAfter (gone : List WindowId) (prev curr : ClientModel) : List WindowId :=
  (gone ++ prev.windows.values.map (·.windowId)).filter fun windowId => !curr.windows.has windowId

namespace Replica

def receive (s : Replica) (m : Sent T) (backlog : PaneId → List Bytes) : Replica :=
  let mirror := s.mirror.receive m
  match s.hook with
  | .attached hook =>
    if emitsChange s.mirror m then
      let (hook, effects) := applyModelDiff hook mirror.model (relaid m.message) backlog
      { mirror
        hook := .attached hook
        effects := s.effects ++ effects
        gone := goneAfter s.gone s.mirror.model mirror.model }
    else { s with mirror }
  | _ => { s with mirror }

def attach (s : Replica) (backlog : PaneId → List Bytes) : Replica :=
  match s.hook with
  | .idle =>
    let (hook, effects) := catchUp s.mirror.model backlog
    { s with hook := .attached hook, effects := s.effects ++ effects }
  | _ => s

def output (s : Replica) (paneId : PaneId) (bytes : Bytes) : Replica :=
  match s.hook with
  | .attached hook =>
    if hook.byteUnsubs.has paneId then
      { s with effects := s.effects ++ [.call (.paneOutput paneId bytes)] }
    else s
  | _ => s

def detachHook (s : Replica) : Replica :=
  match s.hook with
  | .attached hook =>
    { s with
      hook := .detached
      effects := s.effects ++
        (hook.byteUnsubs.values.map .unsubscribed ++
          [.call (.disconnected "mirror detached")]) }
  | _ => s

def step (s : Replica) : Event T → Replica
  | .receive m backlog => s.receive m backlog
  | .attach backlog => s.attach backlog
  | .output paneId bytes => s.output paneId bytes
  | .detachHook => s.detachHook

end Replica

/-- Every event is possible in every state. -/
def tick (s : Replica) (e : Event T) : Option Replica := some (s.step e)

/-! ## The renderer -/

/-- What a renderer has for a window. -/
inductive Tab
  | unseen
  | opened (window : WindowInfo)
  | closed
deriving DecidableEq

namespace Tab

def window? : Tab → Option WindowInfo
  | .opened window => some window
  | _ => none

/-- A change of the window, which must be there. -/
def change (tab : Tab) (f : WindowInfo → WindowInfo) : Option Tab :=
  tab.window?.map fun window => .opened (f window)

/-- What an effect makes of the tab of window `k`. The window of the focus is the active one. -/
def after (k : WindowId) (tab : Tab) : Effect → Option Tab
  | .call (.windowAdded window) =>
    if window.windowId = k then
      if tab.window?.isSome then none else some (.opened window)
    else some tab
  | .call (.windowRenamed windowId newName) =>
    if windowId = k then tab.change fun window => { window with name := newName } else some tab
  | .call (.layoutChanged windowId layout) =>
    if windowId = k then tab.change fun window => { window with layout } else some tab
  | .call (.windowClosed windowId) =>
    if windowId = k then tab.window?.map fun _ => .closed else some tab
  | .call (.focusChanged focus) =>
    match tab with
    | .opened window => some (.opened { window with active := focus.windowId = some k })
    | tab => some tab
  | .call (.paneOpened pane) => if pane.windowId = k ∧ tab = .closed then none else some tab
  | .call (.paneMoved _ windowId) => if windowId = k ∧ tab = .closed then none else some tab
  | _ => some tab

end Tab

/-- What a renderer has for a pane, and whether there is a byte subscription. -/
structure Terminal where
  pane : Option ClientPane := none
  subscribed : Bool := false
deriving DecidableEq

namespace Terminal

/-- A pane is opened in the normal mode. -/
def opened (pane : PaneInfo) : ClientPane :=
  { paneId := pane.paneId
    windowId := pane.windowId
    cols := pane.cols
    rows := pane.rows
    mode := "normal"
    dead := pane.dead.getD false
    exitCode := pane.exitCode
    label := pane.label
    bound := pane.bound.getD false
    detach := pane.detach
    icon := pane.icon
    paneTitle := pane.paneTitle
    origin := pane.origin }

/-- A change of the pane, which must be there. -/
def change (k paneId : PaneId) (t : Terminal) (f : ClientPane → ClientPane) : Option Terminal :=
  if paneId = k then t.pane.map fun pane => { t with pane := some (f pane) } else some t

/-- What an effect makes of the terminal of pane `k`. -/
def after (k : PaneId) (t : Terminal) : Effect → Option Terminal
  | .call (.paneOpened pane) =>
    if pane.paneId = k then
      if t.pane.isSome then none else some { t with pane := some (opened pane) }
    else some t
  | .call (.paneClosed paneId ..) =>
    if paneId = k then t.pane.map fun _ => { t with pane := none } else some t
  | .call (.paneResized paneId cols rows) => t.change k paneId fun pane => { pane with cols, rows }
  | .call (.paneMoved paneId windowId) => t.change k paneId fun pane => { pane with windowId }
  | .call (.paneDeadChanged paneId dead exitCode) =>
    t.change k paneId fun pane => { pane with dead, exitCode }
  | .call (.paneModeChanged paneId mode) => t.change k paneId fun pane => { pane with mode }
  | .call (.paneLabelChanged paneId label) => t.change k paneId fun pane => { pane with label }
  | .call (.panePolicyChanged paneId bound detach icon) =>
    t.change k paneId fun pane => { pane with bound, detach, icon }
  | .call (.paneTitleChanged paneId title) =>
    t.change k paneId fun pane => { pane with paneTitle := title }
  | .call (.paneOutput paneId _) => t.change k paneId id
  | .subscribed paneId =>
    if paneId = k then if t.subscribed then none else some { t with subscribed := true }
    else some t
  | .unsubscribed paneId =>
    if paneId = k then if t.subscribed then some { t with subscribed := false } else none
    else some t
  | _ => some t

end Terminal

def focusAfter (focus : Focus) : Effect → Focus
  | .call (.focusChanged focus) => focus
  | _ => focus

/-- What the renderer has for a window, a pane, and of the focus, unless a callback had no
place. -/
def tab (effects : List Effect) (k : WindowId) : Option Tab := exec (Tab.after k) .unseen effects

def terminal (effects : List Effect) (k : PaneId) : Option Terminal :=
  exec (Terminal.after k) {} effects

def focus (effects : List Effect) : Focus := effects.foldl focusAfter ⟨none, none⟩

/-- The renderer has the windows, panes and focus of the model, and the byte subscriptions are
those of its panes. -/
structure Renders (effects : List Effect) (model : ClientModel) : Prop where
  windows : ∀ k, (tab effects k).map Tab.window? = some ((model.windows.get? k).map windowInfo)
  panes : ∀ k, terminal effects k = some ⟨model.panes.get? k, model.panes.has k⟩
  focus : focus effects = model.focus

/-- Every callback had its place, and there is no byte subscription. -/
structure Quiet (effects : List Effect) : Prop where
  windows : ∀ k, (tab effects k).isSome
  panes : ∀ k, (terminal effects k).map (·.subscribed) = some false

/-- Nothing happens before `attach`, the hook renders the model from then on, and the
subscriptions end with `detachHook`. -/
def Replica.Rendered (s : Replica) : Prop :=
  match s.hook with
  | .idle => s.effects = []
  | .attached _ => Renders s.effects s.mirror.model
  | .detached => Quiet s.effects

/-! ## Runs of effects -/

section Exec

variable {σ : Type} {step : σ → Effect → Option σ} {s s' : σ}

theorem exec_append_some {as bs : List Effect} {t : Option σ} (has : exec step s as = some s')
    (hbs : exec step s' bs = t) : exec step s (as ++ bs) = t := by
  rw [exec_append, has]
  exact hbs

/-- An effect that is there under a condition. -/
theorem exec_ite {c : Prop} [Decidable c] {e : Effect} (hthen : step s e = some s')
    (helse : ¬c → s = s') : exec step s (if c then [e] else []) = some s' := by
  split
  · rw [exec_cons, hthen]
    rfl
  · next hc => rw [helse hc, exec_nil]

/-- Effects that change nothing, but may be refused. -/
theorem exec_guard {refused : Effect → Prop} [DecidablePred refused] {as : List Effect}
    (h : ∀ e ∈ as, step s e = if refused e then none else some s) :
    exec step s as = if ∃ e ∈ as, refused e then none else some s := by
  induction as with
  | nil => simp
  | cons e as ih =>
    obtain ⟨he, hrest⟩ := List.forall_mem_cons.mp h
    rw [exec_cons, he]
    by_cases hrefused : refused e
    · simp [hrefused]
    · simpa [hrefused] using ih hrest

end Exec

/-! ## The loops over the panes -/

section Loops

variable {focus : Focus} {backlog : PaneId → List Bytes} {out : Out}

/-- A pane that is opened, with its subscription. -/
def openEffects (focus : Focus) (backlog : PaneId → List Bytes) (pane : ClientPane) :
    List Effect :=
  .call (.paneOpened (paneInfo focus pane)) :: .subscribed pane.paneId ::
    (backlog pane.paneId).map fun bytes => .call (.paneOutput pane.paneId bytes)

/-- The callbacks on one pane of the model. -/
def paneEffects (prev : ClientModel) (focus : Focus) (backlog : PaneId → List Bytes)
    (pane : ClientPane) : List Effect :=
  match prev.panes.get? pane.paneId with
  | none => openEffects focus backlog pane
  | some prevPane => keptPane (seenPane prevPane) pane

/-- The callbacks on a pane that was seen before, if it is gone. -/
def dropEffects (curr : ClientModel) (prevPane : SeenPane) : List Effect :=
  if curr.panes.has prevPane.paneId then []
  else
    [.call (.paneClosed prevPane.paneId ((curr.exitCodes.get? prevPane.paneId).map (·.value))
      ((curr.closeCauses.get? prevPane.paneId).map (·.value))), .unsubscribed prevPane.paneId]

theorem openPane_eq {pane : ClientPane} (h : out.byteUnsubs.has pane.paneId = false) :
    openPane focus backlog out pane =
      ⟨out.byteUnsubs.set pane.paneId, out.effects ++ openEffects focus backlog pane⟩ := by
  have hnot : ¬(out.push [.call (.paneOpened (paneInfo focus pane))]).byteUnsubs.has
      pane.paneId = true := by simp [Out.push, h]
  rw [openPane, Out.subscribeBytes, if_neg hnot]
  simp [Out.push, openEffects]

/-- The seen model has an entry for each pane and window. -/
theorem get?_seen_panes (model : ClientModel) (k : PaneId) :
    (PrevModel.seen model).panes.get? k = (model.panes.get? k).map seenPane :=
  KeyedMap.get?_ofList_map model.panes seenPane (fun _ => rfl) k

theorem get?_seen_windows (model : ClientModel) (k : WindowId) :
    (PrevModel.seen model).windows.get? k = (model.windows.get? k).map seenWindow :=
  KeyedMap.get?_ofList_map model.windows seenWindow (fun _ => rfl) k

theorem diffPane_spec (backlog : PaneId → List Bytes) {prev : ClientModel} (curr : ClientModel)
    {pane : ClientPane}
    (h : out.byteUnsubs.has pane.paneId = prev.panes.has pane.paneId) :
    (diffPane (.seen prev) curr backlog out pane).effects =
        out.effects ++ paneEffects prev curr.focus backlog pane ∧
      ∀ k, (diffPane (.seen prev) curr backlog out pane).byteUnsubs.has k =
        (decide (pane.paneId = k) || out.byteUnsubs.has k) := by
  rw [diffPane, get?_seen_panes, paneEffects]
  cases hget : prev.panes.get? pane.paneId with
  | none =>
    have hnew := h.trans (KeyedMap.has_eq_false.mpr hget)
    simp only [Option.map_none, openPane_eq hnew]
    exact ⟨trivial, fun k => KeyedMap.has_set _ _ _⟩
  | some prevPane =>
    have hold := h.trans (KeyedMap.has_iff.mpr ⟨prevPane, hget⟩)
    refine ⟨rfl, fun k => ?_⟩
    show out.byteUnsubs.has k = _
    by_cases hk : pane.paneId = k
    · rw [← hk, hold, Bool.or_true]
    · rw [decide_eq_false hk, Bool.false_or]

/-- The loop over the panes of the model, when the subscriptions are those of the model that
was seen. -/
theorem foldl_diffPane (backlog : PaneId → List Bytes) (prev curr : ClientModel)
    {panes : List ClientPane} (out : Out) (hnodup : (panes.map ClientPane.paneId).Nodup)
    (h : ∀ pane ∈ panes, out.byteUnsubs.has pane.paneId = prev.panes.has pane.paneId) :
    (panes.foldl (diffPane (.seen prev) curr backlog) out).effects =
        out.effects ++ panes.flatMap (paneEffects prev curr.focus backlog) ∧
      ∀ k, (panes.foldl (diffPane (.seen prev) curr backlog) out).byteUnsubs.has k =
        (panes.any (·.paneId = k) || out.byteUnsubs.has k) := by
  induction panes generalizing out with
  | nil => simp
  | cons pane panes ih =>
    obtain ⟨hfirst, hrest⟩ := List.nodup_cons.mp hnodup
    obtain ⟨hpane, hothers⟩ := List.forall_mem_cons.mp h
    obtain ⟨hstep, hsubs⟩ := diffPane_spec backlog curr hpane
    have hkeep : ∀ other ∈ panes, (diffPane (.seen prev) curr backlog out pane).byteUnsubs.has
        other.paneId = prev.panes.has other.paneId := fun other hother => by
      have hne : pane.paneId ≠ other.paneId := fun heq =>
        hfirst (heq ▸ List.mem_map_of_mem hother)
      rw [hsubs, decide_eq_false hne, Bool.false_or]
      exact hothers other hother
    obtain ⟨heffects, hhas⟩ := ih _ hrest hkeep
    rw [List.foldl_cons, heffects, hstep, List.flatMap_cons, List.append_assoc]
    refine ⟨rfl, fun k => ?_⟩
    rw [hhas, hsubs, List.any_cons, Bool.or_left_comm, Bool.or_assoc]

theorem dropPane_spec (curr : ClientModel) {prevPane : SeenPane}
    (h : out.byteUnsubs.has prevPane.paneId = true) :
    (dropPane curr out prevPane).effects = out.effects ++ dropEffects curr prevPane ∧
      ∀ k, (dropPane curr out prevPane).byteUnsubs.has k =
        (out.byteUnsubs.has k && !(decide (prevPane.paneId = k) && !curr.panes.has k)) := by
  rw [dropPane, dropEffects]
  cases hcurr : curr.panes.has prevPane.paneId with
  | true =>
    refine ⟨by simp, fun k => ?_⟩
    by_cases hk : prevPane.paneId = k
    · simp [← hk, hcurr]
    · simp [hk]
  | false =>
    rw [if_neg Bool.false_ne_true, if_neg Bool.false_ne_true, Out.unsubscribeBytes, Out.push,
      if_pos h]
    refine ⟨by simp, fun k => ?_⟩
    show (out.byteUnsubs.delete prevPane.paneId).has k = _
    rw [KeyedMap.has, KeyedMap.get?_delete]
    by_cases hk : k = prevPane.paneId
    · simp [hk, hcurr]
    · simp [hk, Ne.symm hk, KeyedMap.has]

/-- The loop over the panes that were seen, when each of them has its subscription. -/
theorem foldl_dropPane (curr : ClientModel) {panes : List SeenPane}
    (hnodup : (panes.map SeenPane.paneId).Nodup)
    (h : ∀ pane ∈ panes, out.byteUnsubs.has pane.paneId = true) :
    (panes.foldl (dropPane curr) out).effects = out.effects ++ panes.flatMap (dropEffects curr) ∧
      ∀ k, (panes.foldl (dropPane curr) out).byteUnsubs.has k =
        (out.byteUnsubs.has k && !(panes.any (·.paneId = k) && !curr.panes.has k)) := by
  induction panes generalizing out with
  | nil => simp
  | cons pane panes ih =>
    obtain ⟨hfirst, hrest⟩ := List.nodup_cons.mp hnodup
    obtain ⟨hpane, hothers⟩ := List.forall_mem_cons.mp h
    obtain ⟨hstep, hsubs⟩ := dropPane_spec curr hpane
    have hkeep : ∀ other ∈ panes, (dropPane curr out pane).byteUnsubs.has other.paneId = true :=
      fun other hother => by
        have hne : pane.paneId ≠ other.paneId := fun heq =>
          hfirst (heq ▸ List.mem_map_of_mem hother)
        rw [hsubs, hothers other hother, decide_eq_false hne]
        rfl
    obtain ⟨heffects, hhas⟩ := ih hrest hkeep
    rw [List.foldl_cons, heffects, hstep, List.flatMap_cons, List.append_assoc]
    refine ⟨rfl, fun k => ?_⟩
    rw [hhas, hsubs, List.any_cons, Bool.and_or_distrib_right, Bool.not_or, Bool.and_assoc]

end Loops

theorem has_eq_any {α κ : Type} [DecidableEq κ] {key : α → κ} (m : KeyedMap key) (k : κ) :
    m.has k = m.values.any (key · = k) := List.isSome_find?

/-- The callbacks of one comparison; `refocused` tells whether that on the focus is made. -/
def diffEffects (prev curr : ClientModel) (relaid : WindowId → Bool) (refocused : Bool)
    (backlog : PaneId → List Bytes) : List Effect :=
  curr.windows.values.flatMap (diffWindow (.seen prev) relaid) ++
    (PrevModel.seen prev).windows.values.flatMap (fun win =>
      if curr.windows.has win.windowId then [] else [.call (.windowClosed win.windowId)]) ++
    (curr.panes.values.flatMap (paneEffects prev curr.focus backlog) ++
      (PrevModel.seen prev).panes.values.flatMap (dropEffects curr)) ++
    if refocused then [.call (.focusChanged curr.focus)] else []

/-- The comparison, when the subscriptions are those of the model that was seen. -/
theorem applyModelDiff_spec {prev : ClientModel} {subs : OrderedSet PaneId}
    (h : ∀ k, subs.has k = prev.panes.has k) (curr : ClientModel) (relaid : WindowId → Bool)
    (backlog : PaneId → List Bytes) :
    (applyModelDiff ⟨.seen prev, subs⟩ curr relaid backlog).2 =
        diffEffects prev curr relaid (prev.focus ≠ curr.focus) backlog ∧
      (applyModelDiff ⟨.seen prev, subs⟩ curr relaid backlog).1.prevModel = .seen curr ∧
      ∀ k, (applyModelDiff ⟨.seen prev, subs⟩ curr relaid backlog).1.byteUnsubs.has k =
        curr.panes.has k := by
  have hseen : ∀ k, (PrevModel.seen prev).panes.has k = prev.panes.has k := fun k => by
    rw [KeyedMap.has, get?_seen_panes, Option.isSome_map, KeyedMap.has]
  obtain ⟨hopened, hsubs⟩ := foldl_diffPane backlog prev curr ⟨subs, []⟩ curr.panes.nodup
    fun pane _ => h pane.paneId
  have hmem : ∀ pane ∈ (PrevModel.seen prev).panes.values, (curr.panes.values.foldl
      (diffPane (.seen prev) curr backlog) ⟨subs, []⟩).byteUnsubs.has pane.paneId = true :=
    fun pane hpane => by
      rw [hsubs, h, ← hseen, KeyedMap.has_of_mem hpane, Bool.or_true]
  obtain ⟨hdropped, hkept⟩ := foldl_dropPane curr (PrevModel.seen prev).panes.nodup hmem
  refine ⟨?_, rfl, fun k => ?_⟩
  · unfold applyModelDiff diffEffects
    simp only [hdropped, hopened, List.nil_append, decide_eq_true_eq]
    rfl
  · show KeyedMap.has (List.foldl _ _ _ : Out).byteUnsubs k = _
    rw [hkept, hsubs, h, ← has_eq_any, ← has_eq_any, hseen]
    cases prev.panes.has k <;> cases curr.panes.has k <;> rfl

/-! ## What an effect is about -/

namespace Effect

/-- The window of a callback on a window. -/
def window? : Effect → Option WindowId
  | .call (.windowAdded window) => some window.windowId
  | .call (.windowRenamed windowId _) => some windowId
  | .call (.layoutChanged windowId _) => some windowId
  | .call (.windowClosed windowId) => some windowId
  | _ => none

/-- The pane of a callback on a pane, and of a subscription. -/
def pane? : Effect → Option PaneId
  | .call (.paneOpened pane) => some pane.paneId
  | .call (.paneClosed paneId ..) => some paneId
  | .call (.paneResized paneId ..) => some paneId
  | .call (.paneMoved paneId _) => some paneId
  | .call (.paneDeadChanged paneId ..) => some paneId
  | .call (.paneModeChanged paneId _) => some paneId
  | .call (.paneLabelChanged paneId _) => some paneId
  | .call (.panePolicyChanged paneId ..) => some paneId
  | .call (.paneTitleChanged paneId _) => some paneId
  | .call (.paneOutput paneId _) => some paneId
  | .subscribed paneId => some paneId
  | .unsubscribed paneId => some paneId
  | _ => none

/-- The window that a callback puts a pane into. -/
def enters? : Effect → Option WindowId
  | .call (.paneOpened pane) => some pane.windowId
  | .call (.paneMoved _ windowId) => some windowId
  | _ => none

end Effect

theorem Effect.pane?_of_window? {e : Effect} {w : WindowId} (h : e.window? = some w) :
    e.pane? = none := by
  cases e with
  | call c => cases c <;> first | rfl | cases h
  | subscribed | unsubscribed => cases h

theorem window?_diffWindow {prev : PrevModel} {relaid : WindowId → Bool} {win : ClientWindow}
    {e : Effect} (h : e ∈ diffWindow prev relaid win) : e.window? = some win.windowId := by
  unfold diffWindow at h
  split at h
  · rcases List.mem_cons.mp h with rfl | h
    · rfl
    · obtain rfl := List.mem_singleton.mp h
      rfl
  · rcases List.mem_append.mp h with h | h <;> split at h
    · obtain rfl := List.mem_singleton.mp h
      rfl
    · exact absurd h List.not_mem_nil
    · obtain rfl := List.mem_singleton.mp h
      rfl
    · exact absurd h List.not_mem_nil

theorem pane?_openEffects {focus : Focus} {backlog : PaneId → List Bytes} {pane : ClientPane}
    {e : Effect} (h : e ∈ openEffects focus backlog pane) : e.pane? = some pane.paneId := by
  rcases List.mem_cons.mp h with rfl | h
  · rfl
  · rcases List.mem_cons.mp h with rfl | h
    · rfl
    · obtain ⟨bytes, -, rfl⟩ := List.mem_map.mp h
      rfl

/-- A callback that is made under a condition. -/
theorem of_mem_ite {c : Prop} [Decidable c] {e e' : Effect} (h : e ∈ if c then [e'] else []) :
    c ∧ e = e' := by
  split at h
  · exact ⟨‹c›, List.mem_singleton.mp h⟩
  · exact absurd h List.not_mem_nil

theorem of_mem_ite_not {c : Prop} [Decidable c] {e e' : Effect}
    (h : e ∈ if c then [] else [e']) : ¬c ∧ e = e' := by
  split at h
  · exact absurd h List.not_mem_nil
  · exact ⟨‹¬c›, List.mem_singleton.mp h⟩

theorem pane?_keptPane {prevPane : SeenPane} {pane : ClientPane} {e : Effect}
    (h : e ∈ keptPane prevPane pane) : e.pane? = some pane.paneId := by
  simp only [keptPane, List.mem_append] at h
  rcases h with ((((h | h) | h) | h) | h) | h <;> rw [(of_mem_ite h).2] <;> rfl

theorem pane?_paneEffects {prev : ClientModel} {focus : Focus} {backlog : PaneId → List Bytes}
    {pane : ClientPane} {e : Effect} (h : e ∈ paneEffects prev focus backlog pane) :
    e.pane? = some pane.paneId := by
  unfold paneEffects at h
  split at h
  · exact pane?_openEffects h
  · exact pane?_keptPane h

theorem pane?_dropEffects {curr : ClientModel} {prevPane : SeenPane} {e : Effect}
    (h : e ∈ dropEffects curr prevPane) : e.pane? = some prevPane.paneId := by
  unfold dropEffects at h
  split at h
  · exact absurd h List.not_mem_nil
  · rcases List.mem_cons.mp h with rfl | h
    · rfl
    · obtain rfl := List.mem_singleton.mp h
      rfl

namespace Terminal

variable {k p : PaneId} {t : Terminal} {e : Effect}

theorem change_other (h : p ≠ k) (f : ClientPane → ClientPane) : t.change k p f = some t :=
  if_neg h

/-- Effects that are not about a pane. -/
theorem after_of_none (h : e.pane? = none) : t.after k e = some t := by
  cases e with
  | call c => cases c <;> first | rfl | cases h
  | subscribed | unsubscribed => cases h

/-- Effects that are about another pane. -/
theorem after_of_other (h : e.pane? = some p) (hne : p ≠ k) : t.after k e = some t := by
  cases e with
  | call c => cases c <;> cases h <;> exact if_neg hne
  | subscribed | unsubscribed =>
    cases h
    exact if_neg hne

end Terminal

namespace Tab

variable {k w : WindowId} {p : PaneId} {t : Tab} {e : Effect}

/-- Callbacks on another window. -/
theorem after_of_other (h : e.window? = some w) (hne : w ≠ k) : t.after k e = some t := by
  cases e with
  | call c => cases c <;> cases h <;> exact if_neg hne
  | subscribed | unsubscribed => cases h

/-- Effects on a pane. -/
theorem after_of_pane (h : e.pane? = some p) :
    t.after k e = if e.enters? = some k ∧ t = .closed then none else some t := by
  cases e with
  | call c => cases c <;> cases h <;> simp [Tab.after, Effect.enters?]
  | subscribed | unsubscribed => simp [Tab.after, Effect.enters?]

end Tab

/-! ## A terminal -/

/-- A pane that is alive has no exit code. -/
def ExitSound (pane : ClientPane) : Prop := pane.dead = false → pane.exitCode = none

namespace Terminal

variable {k : PaneId} {sub : Bool}

theorem change_own {pane : ClientPane} (f : ClientPane → ClientPane) :
    Terminal.change k k ⟨some pane, sub⟩ f = some ⟨some (f pane), sub⟩ := if_pos rfl

/-- A callback that is made where a field of the pane has changed. -/
theorem exec_field {c : Prop} [Decidable c] {e : Effect} {pane pane' : ClientPane}
    (hthen : Terminal.after k ⟨some pane, sub⟩ e = some ⟨some pane', sub⟩)
    (helse : ¬c → pane = pane') :
    exec (Terminal.after k) ⟨some pane, sub⟩ (if c then [e] else []) =
      some ⟨some pane', sub⟩ :=
  exec_ite hthen fun hc => by rw [helse hc]

/-- A pane that is opened is subscribed to. -/
theorem exec_openEffects (focus : Focus) (backlog : PaneId → List Bytes) (pane : ClientPane) :
    exec (Terminal.after pane.paneId) {} (openEffects focus backlog pane) =
      some ⟨some (opened (paneInfo focus pane)), true⟩ := by
  have houtput : exec (Terminal.after pane.paneId) ⟨some (opened (paneInfo focus pane)), true⟩
      ((backlog pane.paneId).map fun bytes => .call (.paneOutput pane.paneId bytes)) =
        some ⟨some (opened (paneInfo focus pane)), true⟩ := by
    refine KeyedMap.exec_ignored fun e he => ?_
    obtain ⟨bytes, -, rfl⟩ := List.mem_map.mp he
    exact change_own id
  have hopen : Terminal.after pane.paneId {} (.call (.paneOpened (paneInfo focus pane))) =
      some ⟨some (opened (paneInfo focus pane)), false⟩ := if_pos rfl
  have hsub : Terminal.after pane.paneId ⟨some (opened (paneInfo focus pane)), false⟩
      (.subscribed pane.paneId) = some ⟨some (opened (paneInfo focus pane)), true⟩ := if_pos rfl
  rw [openEffects, exec_cons, hopen, Option.bind_some, exec_cons, hsub, Option.bind_some,
    houtput]

/-- The callbacks on a pane that was there bring every field but the mode and the origin. -/
theorem exec_keptPane {prevPane pane : ClientPane} (hkey : prevPane.paneId = pane.paneId)
    (hpane : ExitSound pane) :
    exec (Terminal.after pane.paneId) ⟨some prevPane, sub⟩ (keptPane (seenPane prevPane) pane) =
      some ⟨some { pane with mode := prevPane.mode, origin := prevPane.origin }, sub⟩ := by
  let sized := { prevPane with cols := pane.cols, rows := pane.rows }
  let moved := { sized with windowId := pane.windowId }
  let marked := { moved with dead := pane.dead, exitCode := pane.exitCode }
  let named := { marked with label := pane.label }
  let ruled := { named with bound := pane.bound, detach := pane.detach, icon := pane.icon }
  let titled := { ruled with paneTitle := pane.paneTitle }
  have htitled : titled = { pane with mode := prevPane.mode, origin := prevPane.origin } := by
    simp only [titled, ruled, named, marked, moved, sized, hkey]
  have hexit : (if pane.dead = true then pane.exitCode else none) = pane.exitCode := by
    split
    · rfl
    · next hdead => rw [hpane (by simpa using hdead)]
  -- Where a callback is left out, the field is the same.
  have hsized : ¬(prevPane.cols ≠ pane.cols ∨ prevPane.rows ≠ pane.rows) → prevPane = sized :=
    fun h => by
      obtain ⟨hcols, hrows⟩ := not_or.mp h
      simp only [sized, ← not_not.mp hcols, ← not_not.mp hrows]
  have hmoved : ¬prevPane.windowId ≠ pane.windowId → sized = moved := fun h => by
    simp only [moved, sized, ← not_not.mp h]
  have hmarked : ¬(prevPane.dead ≠ pane.dead ∨ prevPane.exitCode ≠ pane.exitCode) →
      moved = marked := fun h => by
    obtain ⟨hdead, hcode⟩ := not_or.mp h
    simp only [marked, moved, sized, ← not_not.mp hdead, ← not_not.mp hcode]
  have hnamed : ¬prevPane.label ≠ pane.label → marked = named := fun h => by
    simp only [named, marked, moved, sized, ← not_not.mp h]
  have hruled : ¬(prevPane.bound ≠ pane.bound ∨ prevPane.detach ≠ pane.detach ∨
      prevPane.icon ≠ pane.icon) → named = ruled := fun h => by
    obtain ⟨hbound, h⟩ := not_or.mp h
    obtain ⟨hdetach, hicon⟩ := not_or.mp h
    simp only [ruled, named, marked, moved, sized, ← not_not.mp hbound, ← not_not.mp hdetach,
      ← not_not.mp hicon]
  have htitle : ¬prevPane.paneTitle ≠ pane.paneTitle → ruled = titled := fun h => by
    simp only [titled, ruled, named, marked, moved, sized, ← not_not.mp h]
  rw [← htitled, keptPane, hexit]
  exact exec_append_some (exec_append_some (exec_append_some (exec_append_some (exec_append_some
    (exec_field (change_own _) hsized) (exec_field (change_own _) hmoved))
    (exec_field (change_own _) hmarked)) (exec_field (change_own _) hnamed))
    (exec_field (change_own _) hruled)) (exec_field (change_own _) htitle)

/-- The callbacks on a pane that is gone. -/
theorem exec_dropEffects {prevPane : ClientPane} {curr : ClientModel}
    (h : curr.panes.has prevPane.paneId = false) :
    exec (Terminal.after prevPane.paneId) ⟨some prevPane, true⟩
      (dropEffects curr (seenPane prevPane)) = some {} := by
  have hnot : ¬curr.panes.has (seenPane prevPane).paneId = true := by
    rw [Bool.not_eq_true]
    exact h
  have hclose : ∀ exitCode cause, Terminal.after prevPane.paneId ⟨some prevPane, true⟩
      (.call (.paneClosed prevPane.paneId exitCode cause)) = some ⟨none, true⟩ :=
    fun _ _ => if_pos rfl
  have hunsub : Terminal.after prevPane.paneId ⟨none, true⟩ (.unsubscribed prevPane.paneId) =
      some {} := if_pos rfl
  rw [dropEffects, if_neg hnot, exec_cons]
  show (Terminal.after _ _ (.call (.paneClosed prevPane.paneId _ _))).bind _ = _
  rw [hclose, Option.bind_some, exec_cons]
  exact congrArg (Option.bind · _) hunsub

end Terminal

/-- What a terminal is after a comparison: a new pane as it was opened, a kept one with its
earlier mode and origin. -/
def shown (focus : Focus) (prev : Option ClientPane) (pane : ClientPane) : ClientPane :=
  match prev with
  | none => Terminal.opened (paneInfo focus pane)
  | some prevPane => { pane with mode := prevPane.mode, origin := prevPane.origin }

section Diff

variable {prev curr : ClientModel} (relaid : WindowId → Bool) (refocused : Bool)
  (backlog : PaneId → List Bytes)

/-- The callbacks on windows, and those on the focus, are not about a pane. -/
theorem terminal_windows (k : PaneId) (t : Terminal) :
    exec (Terminal.after k) t (curr.windows.values.flatMap (diffWindow (.seen prev) relaid) ++
      (PrevModel.seen prev).windows.values.flatMap (fun win =>
        if curr.windows.has win.windowId then [] else [.call (.windowClosed win.windowId)])) =
      some t := by
  refine KeyedMap.exec_ignored fun e he => Terminal.after_of_none ?_
  rcases List.mem_append.mp he with he | he
  · obtain ⟨win, -, he⟩ := List.mem_flatMap.mp he
    exact Effect.pane?_of_window? (window?_diffWindow he)
  · obtain ⟨win, -, he⟩ := List.mem_flatMap.mp he
    split at he
    · exact absurd he List.not_mem_nil
    · rw [List.mem_singleton.mp he]
      rfl

theorem terminal_focus (refocused : Bool) (focus : Focus) (k : PaneId) (t : Terminal) :
    exec (Terminal.after k) t (if refocused then [.call (.focusChanged focus)] else []) = some t :=
  KeyedMap.exec_ignored fun e he => Terminal.after_of_none (by rw [(of_mem_ite he).2]; rfl)

/-- The callbacks on the panes of the model. -/
theorem terminal_panes (hcurr : ∀ pane ∈ curr.panes.values, ExitSound pane) (k : PaneId) :
    exec (Terminal.after k) ⟨prev.panes.get? k, prev.panes.has k⟩
        (curr.panes.values.flatMap (paneEffects prev curr.focus backlog)) =
      some (match curr.panes.get? k with
        | none => ⟨prev.panes.get? k, prev.panes.has k⟩
        | some pane => ⟨some (shown curr.focus (prev.panes.get? k) pane), true⟩) := by
  rw [KeyedMap.exec_flatMap_at _ _ _ k fun pane _ hne e he t =>
    Terminal.after_of_other (pane?_paneEffects he) hne]
  cases hget : curr.panes.get? k with
  | none => rfl
  | some pane =>
    obtain rfl := KeyedMap.key_of_get? hget
    show exec _ _ (paneEffects prev curr.focus backlog pane) = _
    rw [paneEffects, KeyedMap.has]
    cases hprev : prev.panes.get? pane.paneId with
    | none => exact Terminal.exec_openEffects curr.focus backlog pane
    | some prevPane =>
      exact Terminal.exec_keptPane (KeyedMap.key_of_get? hprev)
        (hcurr pane (KeyedMap.mem_of_get? hget))

/-- The callbacks on the panes that are gone. -/
theorem terminal_dropped {k : PaneId} {t : Terminal}
    (h : curr.panes.has k = false → t = ⟨prev.panes.get? k, prev.panes.has k⟩) :
    exec (Terminal.after k) t ((PrevModel.seen prev).panes.values.flatMap (dropEffects curr)) =
      some (if curr.panes.has k then t else {}) := by
  rw [KeyedMap.exec_flatMap_at _ _ _ k fun prevPane _ hne e he t =>
    Terminal.after_of_other (pane?_dropEffects he) hne, get?_seen_panes]
  cases hhas : curr.panes.has k with
  | true =>
    cases hprev : prev.panes.get? k with
    | none => rfl
    | some prevPane =>
      obtain rfl := KeyedMap.key_of_get? hprev
      have hnone : dropEffects curr (seenPane prevPane) = [] := if_pos hhas
      simp [hnone]
  | false =>
    rw [h hhas, KeyedMap.has]
    cases hprev : prev.panes.get? k with
    | none => rfl
    | some prevPane =>
      obtain rfl := KeyedMap.key_of_get? hprev
      exact Terminal.exec_dropEffects hhas

/-- One comparison, for a terminal that was as the model. -/
theorem terminal_diff (hcurr : ∀ pane ∈ curr.panes.values, ExitSound pane) (k : PaneId) :
    exec (Terminal.after k) ⟨prev.panes.get? k, prev.panes.has k⟩
        (diffEffects prev curr relaid refocused backlog) =
      some ⟨(curr.panes.get? k).map (shown curr.focus (prev.panes.get? k)),
        curr.panes.has k⟩ := by
  rw [diffEffects, exec_append, exec_append, terminal_windows, Option.bind_some, exec_append,
    terminal_panes backlog hcurr, Option.bind_some, terminal_dropped, Option.bind_some,
    terminal_focus, KeyedMap.has]
  · cases curr.panes.get? k <;> rfl
  · intro hno
    rw [KeyedMap.has_eq_false.mp hno]

end Diff

/-! ## A tab -/

/-- The tab of a window, when the renderer is as the model. -/
def tabOf (model : ClientModel) (gone : List WindowId) (k : WindowId) : Tab :=
  match model.windows.get? k with
  | some win => .opened (windowInfo win)
  | none => if k ∈ gone then .closed else .unseen

/-- A window as the callbacks on windows leave it: a kept one has its earlier flag. -/
def retained (prev : Option ClientWindow) (win : ClientWindow) : WindowInfo :=
  { windowInfo win with active := (prev.map (·.active)).getD win.active }

theorem retained_some {prevWin : ClientWindow} (win : ClientWindow)
    (h : prevWin.windowId = win.windowId) :
    retained (some prevWin) win =
      { windowInfo prevWin with name := win.name, layout := win.layout } := by
  simp [retained, windowInfo, h]

/-- The pane was not in its window before. -/
def Entering (prev : ClientModel) (pane : ClientPane) : Prop :=
  (prev.panes.get? pane.paneId).map (·.windowId) ≠ some pane.windowId

instance (prev : ClientModel) (pane : ClientPane) : Decidable (Entering prev pane) :=
  inferInstanceAs (Decidable (_ ≠ _))

namespace Tab

/-- What a change of the focus makes of a tab. -/
def focused (focus : Focus) (k : WindowId) : Tab → Tab
  | .opened window => .opened { window with active := focus.windowId = some k }
  | tab => tab

theorem after_focus (focus : Focus) (k : WindowId) (t : Tab) :
    t.after k (.call (.focusChanged focus)) = some (t.focused focus k) := by
  cases t <;> rfl

theorem change_own {window : WindowInfo} (f : WindowInfo → WindowInfo) :
    (Tab.opened window).change f = some (.opened (f window)) := rfl

end Tab

theorem mem_goneAfter {gone : List WindowId} {prev curr : ClientModel} {k : WindowId} :
    k ∈ goneAfter gone prev curr ↔
      (k ∈ gone ∨ prev.windows.has k = true) ∧ curr.windows.has k = false := by
  rw [goneAfter, List.mem_filter, List.mem_append, KeyedMap.has_iff_mem, List.mem_map,
    Bool.not_eq_true']

section Diff

variable {prev curr : ClientModel} {relaid : WindowId → Bool} {gone : List WindowId}
  {k : WindowId}

/-- The windows of the model. -/
theorem tab_windows
    (hlayout : ∀ prevWin win, prev.windows.get? k = some prevWin → curr.windows.get? k = some win →
      ¬relaid k = true → prevWin.layout = win.layout) :
    exec (Tab.after k) (tabOf prev gone k)
        (curr.windows.values.flatMap (diffWindow (.seen prev) relaid)) =
      some (match curr.windows.get? k with
        | none => tabOf prev gone k
        | some win => .opened (retained (prev.windows.get? k) win)) := by
  rw [KeyedMap.exec_flatMap_at _ _ _ k fun win _ hne e he t =>
    Tab.after_of_other (window?_diffWindow he) hne]
  cases hget : curr.windows.get? k with
  | none => rfl
  | some win =>
    obtain rfl := KeyedMap.key_of_get? hget
    show exec _ _ (diffWindow (.seen prev) relaid win) = _
    rw [diffWindow, get?_seen_windows, tabOf]
    cases hprev : prev.windows.get? win.windowId with
    | none =>
      have hadd : ∀ tab, tab.window? = none → exec (Tab.after win.windowId) tab (addWindow win) =
          some (.opened (windowInfo win)) := fun tab htab => by
        have hfirst : tab.after win.windowId (.call (.windowAdded (windowInfo win))) =
            some (.opened (windowInfo win)) := (if_pos rfl).trans (by rw [htab]; rfl)
        have hlayout : (Tab.opened (windowInfo win)).after win.windowId
            (.call (.layoutChanged win.windowId win.layout)) = some (.opened (windowInfo win)) :=
          if_pos rfl
        rw [addWindow, exec_cons, hfirst, Option.bind_some, exec_cons, hlayout]
        rfl
      refine hadd _ ?_
      simp only []
      split <;> rfl
    | some prevWin =>
      have hname : ¬prevWin.name ≠ win.name → Tab.opened (windowInfo prevWin) =
          .opened { windowInfo prevWin with name := win.name } := fun h => by
        rw [← not_not.mp h]
        rfl
      have hkept := retained_some win (KeyedMap.key_of_get? hprev)
      have hsame : ¬relaid win.windowId = true →
          Tab.opened { windowInfo prevWin with name := win.name } =
            .opened (retained (some prevWin) win) := fun h => by
        rw [hkept, ← hlayout prevWin win hprev hget h]
        rfl
      have hrelaid : (Tab.opened { windowInfo prevWin with name := win.name }).after win.windowId
          (.call (.layoutChanged win.windowId win.layout)) =
            some (.opened (retained (some prevWin) win)) := by
        rw [hkept]
        exact if_pos rfl
      exact exec_append_some (exec_ite (if_pos rfl) hname) (exec_ite hrelaid hsame)

/-- The tab of a window after the callbacks on windows. -/
def tabWindows (gone : List WindowId) (prev curr : ClientModel) (k : WindowId) : Tab :=
  match curr.windows.get? k with
  | some win => .opened (retained (prev.windows.get? k) win)
  | none => if k ∈ goneAfter gone prev curr then .closed else .unseen

/-- The windows that are gone. -/
theorem tab_closed :
    exec (Tab.after k)
        (match curr.windows.get? k with
        | none => tabOf prev gone k
        | some win => .opened (retained (prev.windows.get? k) win))
        ((PrevModel.seen prev).windows.values.flatMap fun win =>
          if curr.windows.has win.windowId then [] else [.call (.windowClosed win.windowId)]) =
      some (tabWindows gone prev curr k) := by
  rw [KeyedMap.exec_flatMap_at _ _ _ k, get?_seen_windows, tabWindows]
  · cases hget : curr.windows.get? k with
    | some win =>
      have hhas := KeyedMap.has_iff.mpr ⟨win, hget⟩
      cases hprev : prev.windows.get? k with
      | none => rfl
      | some prevWin =>
        obtain rfl := KeyedMap.key_of_get? hprev
        simp [seenWindow, hhas]
    | none =>
      have hhas := KeyedMap.has_eq_false.mpr hget
      rw [tabOf]
      simp only [mem_goneAfter, hhas, and_true]
      cases hprev : prev.windows.get? k with
      | none => simp [KeyedMap.has_eq_false.mpr hprev]
      | some prevWin =>
        obtain rfl := KeyedMap.key_of_get? hprev
        simp only [KeyedMap.has_iff.mpr ⟨_, hprev⟩, or_true, if_true, Option.map_some,
          Option.getD_some]
        have hnot : ¬curr.windows.has (seenWindow prevWin).windowId = true := by
          rw [Bool.not_eq_true]
          exact hhas
        have hclose : (Tab.opened (windowInfo prevWin)).after prevWin.windowId
            (.call (.windowClosed prevWin.windowId)) = some .closed := if_pos rfl
        rw [if_neg hnot, exec_cons]
        exact congrArg (Option.bind · _) hclose
  · intro win _ hne e he t
    exact Tab.after_of_other (by rw [(of_mem_ite_not he).2]; rfl) hne

theorem exists_enters_openEffects {focus : Focus} {backlog : PaneId → List Bytes}
    {pane : ClientPane} :
    (∃ e ∈ openEffects focus backlog pane, e.enters? = some k) ↔ pane.windowId = k := by
  constructor
  · rintro ⟨e, he, henters⟩
    rcases List.mem_cons.mp he with rfl | he
    · exact Option.some_inj.mp henters
    · rcases List.mem_cons.mp he with rfl | he
      · cases henters
      · obtain ⟨bytes, -, rfl⟩ := List.mem_map.mp he
        cases henters
  · rintro rfl
    exact ⟨_, List.mem_cons_self, rfl⟩

theorem exists_enters_keptPane {prevPane : SeenPane} {pane : ClientPane} :
    (∃ e ∈ keptPane prevPane pane, e.enters? = some k) ↔
      prevPane.windowId ≠ pane.windowId ∧ pane.windowId = k := by
  constructor
  · rintro ⟨e, he, henters⟩
    simp only [keptPane, List.mem_append] at he
    rcases he with ((((he | he) | he) | he) | he) | he <;>
      obtain ⟨hchanged, rfl⟩ := of_mem_ite he <;> first
        | cases henters; done
        | exact ⟨hchanged, Option.some_inj.mp henters⟩
  · rintro ⟨hne, rfl⟩
    refine ⟨.call (.paneMoved pane.paneId pane.windowId), ?_, rfl⟩
    simp only [keptPane, List.mem_append]
    exact .inl (.inl (.inl (.inl (.inr (by rw [if_pos hne]; exact List.mem_cons_self)))))

/-- Which windows the callbacks put panes into. -/
theorem exists_enters (backlog : PaneId → List Bytes) (k : WindowId) :
    (∃ e ∈ curr.panes.values.flatMap (paneEffects prev curr.focus backlog) ++
        (PrevModel.seen prev).panes.values.flatMap (dropEffects curr), e.enters? = some k) ↔
      ∃ pane ∈ curr.panes.values, Entering prev pane ∧ pane.windowId = k := by
  have hpane : ∀ pane, (∃ e ∈ paneEffects prev curr.focus backlog pane, e.enters? = some k) ↔
      Entering prev pane ∧ pane.windowId = k := by
    intro pane
    rw [paneEffects, Entering]
    cases prev.panes.get? pane.paneId with
    | none =>
      rw [exists_enters_openEffects, Option.map_none, and_iff_right]
      exact fun h => nomatch h
    | some prevPane =>
      rw [exists_enters_keptPane, Option.map_some, ne_eq, ne_eq, Option.some_inj]
      exact Iff.rfl
  constructor
  · rintro ⟨e, he, henters⟩
    rcases List.mem_append.mp he with he | he
    · obtain ⟨pane, hmem, he⟩ := List.mem_flatMap.mp he
      exact ⟨pane, hmem, (hpane pane).mp ⟨e, he, henters⟩⟩
    · obtain ⟨prevPane, -, he⟩ := List.mem_flatMap.mp he
      unfold dropEffects at he
      split at he
      · exact absurd he List.not_mem_nil
      · rcases List.mem_cons.mp he with rfl | he
        · cases henters
        · rw [List.mem_singleton.mp he] at henters
          cases henters
  · rintro ⟨pane, hmem, hentering⟩
    obtain ⟨e, he, henters⟩ := (hpane pane).mpr hentering
    exact ⟨e, List.mem_append_left _ (List.mem_flatMap.mpr ⟨pane, hmem, he⟩), henters⟩

/-- One comparison, for a tab that was as the model. -/
theorem tab_diff (refocused : Bool) (backlog : PaneId → List Bytes)
    (hlayout : ∀ prevWin win, prev.windows.get? k = some prevWin → curr.windows.get? k = some win →
      ¬relaid k = true → prevWin.layout = win.layout) :
    exec (Tab.after k) (tabOf prev gone k) (diffEffects prev curr relaid refocused backlog) =
      if (∃ pane ∈ curr.panes.values, Entering prev pane ∧ pane.windowId = k) ∧
          tabWindows gone prev curr k = .closed then none
      else some (if refocused then (tabWindows gone prev curr k).focused curr.focus k
        else tabWindows gone prev curr k) := by
  rw [diffEffects, exec_append, exec_append, exec_append, tab_windows hlayout, Option.bind_some,
    tab_closed, Option.bind_some]
  have hpanes : ∀ t, exec (Tab.after k) t
      (curr.panes.values.flatMap (paneEffects prev curr.focus backlog) ++
        (PrevModel.seen prev).panes.values.flatMap (dropEffects curr)) =
      if (∃ pane ∈ curr.panes.values, Entering prev pane ∧ pane.windowId = k) ∧ t = .closed
        then none else some t := fun t => by
    have hall : ∀ e ∈ curr.panes.values.flatMap (paneEffects prev curr.focus backlog) ++
        (PrevModel.seen prev).panes.values.flatMap (dropEffects curr),
        t.after k e = if e.enters? = some k ∧ t = .closed then none else some t := by
      intro e he
      rcases List.mem_append.mp he with he | he
      · obtain ⟨pane, -, he⟩ := List.mem_flatMap.mp he
        exact Tab.after_of_pane (pane?_paneEffects he)
      · obtain ⟨prevPane, -, he⟩ := List.mem_flatMap.mp he
        exact Tab.after_of_pane (pane?_dropEffects he)
    refine (exec_guard hall).trans (if_congr ?_ rfl rfl)
    rw [← exists_enters backlog k, ← exists_and_right]
    simp only [and_assoc]
  rw [hpanes]
  split
  · rfl
  · rw [Option.bind_some]
    by_cases hfocus : refocused = true
    · rw [if_pos hfocus, if_pos hfocus, exec_cons, Tab.after_focus]
      rfl
    · rw [if_neg hfocus, if_neg hfocus, exec_nil]

end Diff

/-! ## A faithful comparison -/

/-- What the callbacks of one comparison cannot tell is not needed: a new pane is in the normal
mode and has no title yet, a kept one keeps its mode and origin, no pane comes into a window that
is gone, and the flag of a window is that of the focus told or, without one, what it was. -/
structure Told (prev curr : ClientModel) (gone : List WindowId) (refocused : Bool) : Prop where
  opened : ∀ pane ∈ curr.panes.values, prev.panes.get? pane.paneId = none →
    pane.mode = "normal" ∧ pane.paneTitle = none
  kept : ∀ pane ∈ curr.panes.values, ∀ prevPane, prev.panes.get? pane.paneId = some prevPane →
    prevPane.mode = pane.mode ∧ prevPane.origin = pane.origin
  entered : ∀ pane ∈ curr.panes.values, Entering prev pane →
    pane.windowId ∉ goneAfter gone prev curr
  flags : ∀ win ∈ curr.windows.values, win.active =
    if refocused then decide (curr.focus.windowId = some win.windowId)
    else ((prev.windows.get? win.windowId).map (·.active)).getD win.active

/-- An opened pane is as in the model, but for its mode and its title. -/
theorem opened_paneInfo {pane : ClientPane} (h : ExitSound pane) (focus : Focus) :
    Terminal.opened (paneInfo focus pane) = { pane with mode := "normal", paneTitle := none } := by
  have hdead : (if pane.dead = true then some true else none).getD false = pane.dead := by
    cases pane.dead <;> rfl
  have hbound : (if pane.bound = true then some true else none).getD false = pane.bound := by
    cases pane.bound <;> rfl
  have hexit : (if pane.dead = true then pane.exitCode else none) = pane.exitCode := by
    split
    · rfl
    · next hdead => rw [h (by simpa using hdead)]
  rw [Terminal.opened, paneInfo]
  simp only [hdead, hbound, hexit]

/-- A window as one comparison leaves it. -/
def shownWindow (refocused : Bool) (focus : Focus) (prev : Option ClientWindow)
    (win : ClientWindow) : WindowInfo :=
  { windowInfo win with
    active := if refocused then decide (focus.windowId = some win.windowId)
      else (prev.map (·.active)).getD win.active }

theorem focused_retained (refocused : Bool) (focus : Focus) (prev : Option ClientWindow)
    (win : ClientWindow) :
    (if refocused then (Tab.opened (retained prev win)).focused focus win.windowId
      else .opened (retained prev win)) = .opened (shownWindow refocused focus prev win) := by
  cases refocused <;> rfl

theorem shownWindow_eq_iff {refocused : Bool} {focus : Focus} {prev : Option ClientWindow}
    (win : ClientWindow) :
    shownWindow refocused focus prev win = windowInfo win ↔
      win.active = if refocused then decide (focus.windowId = some win.windowId)
        else (prev.map (·.active)).getD win.active := by
  rw [eq_comm, shownWindow, windowInfo, WindowInfo.mk.injEq]
  simp

section Faithful

variable {prev curr : ClientModel} {relaid : WindowId → Bool} {gone : List WindowId}
  {refocused : Bool} {backlog : PaneId → List Bytes}

/-- Layouts that are the same object are equal. -/
def SameLayouts (prev curr : ClientModel) (relaid : WindowId → Bool) : Prop :=
  ∀ k prevWin win, prev.windows.get? k = some prevWin → curr.windows.get? k = some win →
    ¬relaid k = true → prevWin.layout = win.layout

theorem terminal_of_told (hcurr : ∀ pane ∈ curr.panes.values, ExitSound pane)
    (h : Told prev curr gone refocused) (k : PaneId) :
    exec (Terminal.after k) ⟨prev.panes.get? k, prev.panes.has k⟩
        (diffEffects prev curr relaid refocused backlog) =
      some ⟨curr.panes.get? k, curr.panes.has k⟩ := by
  rw [terminal_diff relaid refocused backlog hcurr]
  cases hget : curr.panes.get? k with
  | none => rfl
  | some pane =>
    have hmem := KeyedMap.mem_of_get? hget
    obtain rfl := KeyedMap.key_of_get? hget
    have hshown : shown curr.focus (prev.panes.get? pane.paneId) pane = pane := by
      cases hprev : prev.panes.get? pane.paneId with
      | none =>
        obtain ⟨hmode, htitle⟩ := h.opened pane hmem hprev
        rw [shown, opened_paneInfo (hcurr pane hmem), ← hmode, ← htitle]
      | some prevPane =>
        obtain ⟨hmode, horigin⟩ := h.kept pane hmem prevPane hprev
        rw [shown, hmode, horigin]
    rw [Option.map_some, hshown]

theorem tab_of_told (hlayouts : SameLayouts prev curr relaid)
    (h : Told prev curr gone refocused) (k : WindowId) :
    exec (Tab.after k) (tabOf prev gone k) (diffEffects prev curr relaid refocused backlog) =
      some (tabOf curr (goneAfter gone prev curr) k) := by
  rw [tab_diff refocused backlog (hlayouts k), tabWindows, tabOf]
  cases hget : curr.windows.get? k with
  | none =>
    have hfree : ¬((∃ pane ∈ curr.panes.values, Entering prev pane ∧ pane.windowId = k) ∧
        (if k ∈ goneAfter gone prev curr then Tab.closed else Tab.unseen) = .closed) := by
      rintro ⟨⟨pane, hmem, hentering, rfl⟩, hclosed⟩
      rw [if_neg (h.entered pane hmem hentering)] at hclosed
      cases hclosed
    simp only [if_neg hfree]
    split <;> split <;> rfl
  | some win =>
    obtain rfl := KeyedMap.key_of_get? hget
    simp only [reduceCtorEq, and_false, if_false]
    rw [focused_retained, (shownWindow_eq_iff _).mpr (h.flags win (KeyedMap.mem_of_get? hget))]

/-- A renderer that is as the model after a comparison was told all of it. -/
theorem told_of_renders (hcurr : ∀ pane ∈ curr.panes.values, ExitSound pane)
    (hlayouts : SameLayouts prev curr relaid)
    (htabs : ∀ k, (exec (Tab.after k) (tabOf prev gone k)
      (diffEffects prev curr relaid refocused backlog)).map Tab.window? =
        some ((curr.windows.get? k).map windowInfo))
    (hterminals : ∀ k, exec (Terminal.after k) ⟨prev.panes.get? k, prev.panes.has k⟩
      (diffEffects prev curr relaid refocused backlog) =
        some ⟨curr.panes.get? k, curr.panes.has k⟩) :
    Told prev curr gone refocused := by
  have hshown : ∀ pane ∈ curr.panes.values,
      shown curr.focus (prev.panes.get? pane.paneId) pane = pane := by
    intro pane hmem
    have hterminal := hterminals pane.paneId
    rw [terminal_diff relaid refocused backlog hcurr, KeyedMap.get?_self hmem] at hterminal
    exact Option.some_inj.mp (congrArg Terminal.pane (Option.some_inj.mp hterminal))
  have hopen : ∀ k, ¬((∃ pane ∈ curr.panes.values, Entering prev pane ∧ pane.windowId = k) ∧
      tabWindows gone prev curr k = .closed) := by
    intro k hguard
    have htab := htabs k
    rw [tab_diff refocused backlog (hlayouts k), if_pos hguard] at htab
    cases htab
  refine ⟨fun pane hmem hprev => ?_, fun pane hmem prevPane hprev => ?_,
    fun pane hmem hentering hgone => ?_, fun win hmem => ?_⟩
  · have hpane := hshown pane hmem
    rw [hprev, shown, opened_paneInfo (hcurr pane hmem)] at hpane
    exact ⟨(congrArg ClientPane.mode hpane).symm, (congrArg ClientPane.paneTitle hpane).symm⟩
  · have hpane := hshown pane hmem
    rw [hprev, shown] at hpane
    have hmode := congrArg ClientPane.mode hpane
    have horigin := congrArg ClientPane.origin hpane
    exact ⟨hmode, horigin⟩
  · refine hopen pane.windowId ⟨⟨pane, hmem, hentering, rfl⟩, ?_⟩
    have hnone := KeyedMap.has_eq_false.mp (mem_goneAfter.mp hgone).2
    rw [tabWindows, hnone]
    exact if_pos hgone
  · have htab := htabs win.windowId
    rw [tab_diff refocused backlog (hlayouts win.windowId), if_neg (hopen _), tabWindows,
      KeyedMap.get?_self hmem] at htab
    simp only [focused_retained] at htab
    exact (shownWindow_eq_iff _).mp (Option.some_inj.mp (Option.some_inj.mp htab))

end Faithful

/-- Only the callback on the focus changes the focus. -/
theorem focus_diff (prev curr : ClientModel) (relaid : WindowId → Bool) (refocused : Bool)
    (backlog : PaneId → List Bytes) (f : Focus) :
    (diffEffects prev curr relaid refocused backlog).foldl focusAfter f =
      if refocused then curr.focus else f := by
  have hother : ∀ as : List Effect, (∀ e ∈ as, ∀ f, focusAfter f e = f) → ∀ f,
      as.foldl focusAfter f = f := fun as has f => KeyedMap.foldl_ignored has f
  have hwindow : ∀ (e : Effect) w, e.window? = some w → ∀ f, focusAfter f e = f := by
    intro e w h f
    cases e with
    | call c => cases c <;> first | rfl | cases h
    | subscribed | unsubscribed => rfl
  have hpane : ∀ (e : Effect) p, e.pane? = some p → ∀ f, focusAfter f e = f := by
    intro e p h f
    cases e with
    | call c => cases c <;> first | rfl | cases h
    | subscribed | unsubscribed => rfl
  rw [diffEffects, List.foldl_append]
  refine (congrArg (List.foldl focusAfter · _) (hother _ ?_ f)).trans ?_
  · intro e he
    rcases List.mem_append.mp he with he | he
    · rcases List.mem_append.mp he with he | he
      · obtain ⟨win, -, he⟩ := List.mem_flatMap.mp he
        exact hwindow e _ (window?_diffWindow he)
      · obtain ⟨win, -, he⟩ := List.mem_flatMap.mp he
        exact hwindow e win.windowId (by rw [(of_mem_ite_not he).2]; rfl)
    · rcases List.mem_append.mp he with he | he
      · obtain ⟨pane, -, he⟩ := List.mem_flatMap.mp he
        exact hpane e _ (pane?_paneEffects he)
      · obtain ⟨prevPane, -, he⟩ := List.mem_flatMap.mp he
        exact hpane e _ (pane?_dropEffects he)
  · cases refocused <;> rfl

/-- The catch-up is a comparison with a model that has nothing. -/
theorem catchUp_spec (initial : ClientModel) (relaid : WindowId → Bool)
    (backlog : PaneId → List Bytes) :
    (catchUp initial backlog).2 =
        diffEffects emptyClientModel initial relaid true backlog ++ [.call .connected] ∧
      (catchUp initial backlog).1.prevModel = .seen initial ∧
      ∀ k, (catchUp initial backlog).1.byteUnsubs.has k = initial.panes.has k := by
  have hopen : openPane initial.focus backlog = diffPane (.seen emptyClientModel) initial backlog :=
    rfl
  obtain ⟨heffects, hsubs⟩ := foldl_diffPane backlog emptyClientModel initial ⟨.empty, []⟩
    initial.panes.nodup fun _ _ => rfl
  refine ⟨?_, rfl, fun k => ?_⟩
  · have hnone : (PrevModel.seen emptyClientModel).panes.values = [] := rfl
    have hnowin : (PrevModel.seen emptyClientModel).windows.values = [] := rfl
    simp only [catchUp, hopen, heffects, diffEffects, hnone, hnowin, List.flatMap_nil,
      List.append_nil, List.nil_append, if_true, List.append_assoc]
    rfl
  · show KeyedMap.has (List.foldl _ _ _ : Out).byteUnsubs k = _
    rw [hopen, hsubs, ← has_eq_any]
    exact Bool.or_false _

/-! ## Models -/

theorem ExitSound.slot {k : PaneId} {slot : Option ClientPane} (delta : SessionProxyMessage)
    (h : ∀ pane ∈ slot, ExitSound pane) : ∀ pane ∈ paneSlot k slot delta, ExitSound pane := by
  have hflag : ∀ (dead : Bool) (exitCode : Option Nat), dead = false →
      (if dead = true then exitCode else none) = none := by
    rintro _ exitCode rfl
    rfl
  intro pane hpane
  unfold paneSlot at hpane
  split at hpane
  · split at hpane
    · obtain rfl := Option.some_inj.mp hpane
      exact hflag _ _
    · exact h pane hpane
  · split at hpane
    · obtain ⟨old, -, rfl⟩ := Option.map_eq_some_iff.mp hpane
      exact hflag _ _
    · exact h pane hpane
  · split at hpane
    · cases hpane
    · exact h pane hpane
  iterate 6
    · split at hpane
      · obtain ⟨old, hold, rfl⟩ := Option.map_eq_some_iff.mp hpane
        exact h old hold
      · exact h pane hpane
  · exact h pane hpane

theorem mem_of_mem_ofList {α κ : Type} [DecidableEq κ] {key : α → κ} {as : List α} {a : α}
    (h : a ∈ (KeyedMap.ofList as : KeyedMap key).values) : a ∈ as := by
  refine foldl_keeps (P := fun m : KeyedMap key => ∀ a ∈ m.values, a ∈ as) ?_ ?_ a h
  · exact fun a ha => absurd ha List.not_mem_nil
  · intro b m hb hm a ha
    rcases KeyedMap.mem_set.mp ha with rfl | ⟨ha, -⟩
    · exact hb
    · exact hm a ha

/-- The panes of every model of a mirror are sound. -/
theorem exitSound_project {model : ClientModel} (h : ∀ pane ∈ model.panes.values, ExitSound pane)
    (m : Sent T) : ∀ pane ∈ (project model m).panes.values, ExitSound pane := by
  have hdelta : ∀ delta, ∀ pane ∈ (applyDelta model delta).panes.values, ExitSound pane := by
    intro delta pane hmem
    have hget := KeyedMap.get?_self hmem
    rw [applyDelta_pane] at hget
    exact ExitSound.slot delta (fun old hold => h old (KeyedMap.mem_of_get? hold)) pane hget
  unfold project
  split
  · next snapshot _ =>
    intro pane hmem
    obtain ⟨p, -, rfl⟩ := List.mem_map.mp (mem_of_mem_ofList hmem)
    intro hdead
    show (if p.dead.getD false = true then p.exitCode else none) = none
    rw [show p.dead.getD false = false from hdead]
    rfl
  · exact hdelta _

theorem layout_windowSlot {k : WindowId} {prevWin win : ClientWindow} {msg : SessionProxyMessage}
    (h : windowSlot k (some prevWin) msg = some win) (hsame : ¬relaid msg k = true) :
    prevWin.layout = win.layout := by
  unfold windowSlot at h
  split at h
  · split at h
    · next hk => exact absurd (decide_eq_true hk) hsame
    · split at h <;> obtain rfl := Option.some_inj.mp h <;> rfl
  · split at h
    · cases h
    · obtain rfl := Option.some_inj.mp h
      rfl
  iterate 4
    · split at h <;> obtain rfl := Option.some_inj.mp h <;> rfl
  · split at h
    · next hk => exact absurd (decide_eq_true hk) hsame
    · obtain rfl := Option.some_inj.mp h
      rfl
  · obtain rfl := Option.some_inj.mp h
    rfl
  · obtain rfl := Option.some_inj.mp h
    rfl

theorem sameLayouts_project (model : ClientModel) (m : Sent T) :
    SameLayouts model (project model m) (relaid m.message) := by
  intro k prevWin win hprev hwin hsame
  unfold project at hwin
  split at hwin
  · next heq =>
    rw [heq] at hsame
    exact absurd rfl hsame
  · rw [applyDelta_window, hprev] at hwin
    exact layout_windowSlot hwin hsame

theorem receiveDelta_model (mirror : Mirror) (seq : Nat) {msg : SessionProxyMessage}
    (h : isSnapshot msg = false) :
    (mirror.receiveDelta seq msg).model =
      if (match mirror.lastSeq with
        | none => false
        | some lastSeq => mirror.initialized && seq == lastSeq + 1) = true
      then applyDelta mirror.model msg else mirror.model := by
  rw [Mirror.receiveDelta]
  cases mirror.lastSeq with
  | none => rfl
  | some lastSeq =>
    cases mirror.initialized with
    | false => rfl
    | true =>
      simp only [Bool.not_true, Bool.false_eq_true, if_false, h, Bool.true_and, beq_iff_eq, ne_eq]
      by_cases hseq : seq = lastSeq + 1
      · rw [if_neg (not_not.mpr hseq), if_pos hseq]
      · rw [if_pos hseq, if_neg hseq, Mirror.onGap]
        split
        · rfl
        · split <;> rfl

/-- A mirror tells of a change exactly when it has taken the message in. -/
theorem receive_model (mirror : Mirror) (m : Sent T) :
    (mirror.receive m).model =
      if emitsChange mirror m then project mirror.model m else mirror.model := by
  unfold Mirror.receive emitsChange project
  cases m.message with
  | snapshot => rfl
  | notStateBearing =>
    refine (receiveDelta_model mirror m.seq ?_).trans (ite_self _)
    rfl
  | _ =>
    refine (receiveDelta_model mirror m.seq ?_).trans ?_
    · rfl
    · cases mirror.lastSeq <;> rfl

/-! ## Runs -/

/-- What holds of a renderer that is as the model. -/
structure Keeps (s : Replica) (hook : Attachment) : Prop where
  seen : hook.prevModel = .seen s.mirror.model
  subscribed : ∀ k, hook.byteUnsubs.has k = s.mirror.model.panes.has k
  tabs : ∀ k, tab s.effects k = some (tabOf s.mirror.model s.gone k)
  terminals : ∀ k,
    terminal s.effects k = some ⟨s.mirror.model.panes.get? k, s.mirror.model.panes.has k⟩
  focused : focus s.effects = s.mirror.model.focus

def HookSound (s : Replica) : Prop :=
  match s.hook with
  | .idle => s.effects = [] ∧ s.gone = []
  | .attached hook => Keeps s hook
  | .detached => Quiet s.effects

/-- The invariant of the runs that are told everything. -/
structure Replica.Sound (s : Replica) : Prop where
  exits : ∀ pane ∈ s.mirror.model.panes.values, ExitSound pane
  hook : HookSound s

/-- The callbacks that the event makes tell the renderer all of the change. -/
def Followed (s : Replica) : Event T → Prop
  | .receive m _ =>
    match s.hook with
    | .attached _ => emitsChange s.mirror m = true →
      Told s.mirror.model (s.mirror.receive m).model s.gone
        (s.mirror.model.focus ≠ (s.mirror.receive m).model.focus)
    | _ => True
  | .attach _ =>
    match s.hook with
    | .idle => Told emptyClientModel s.mirror.model [] true
    | _ => True
  | _ => True

theorem Keeps.renders {s : Replica} {hook : Attachment} (h : Keeps s hook) :
    Renders s.effects s.mirror.model where
  windows k := by
    rw [h.tabs, tabOf]
    cases s.mirror.model.windows.get? k with
    | some win => rfl
    | none =>
      simp only [Option.map_some, Option.map_none]
      split <;> rfl
  panes := h.terminals
  focus := h.focused

theorem Replica.Sound.rendered {s : Replica} (h : s.Sound) : s.Rendered := by
  have hhook := h.hook
  unfold HookSound at hhook
  unfold Replica.Rendered
  cases hs : s.hook with
  | idle =>
    rw [hs] at hhook
    exact hhook.1
  | attached hook =>
    rw [hs] at hhook
    exact hhook.renders
  | detached =>
    rw [hs] at hhook
    exact hhook

theorem tab_append (effects more : List Effect) (k : WindowId) :
    tab (effects ++ more) k = (tab effects k).bind fun t => exec (Tab.after k) t more :=
  exec_append ..

theorem terminal_append (effects more : List Effect) (k : PaneId) :
    terminal (effects ++ more) k =
      (terminal effects k).bind fun t => exec (Terminal.after k) t more :=
  exec_append ..

/-- What a comparison does to a renderer that is as the model `prev`, and may be followed by
callbacks that change nothing. -/
theorem renders_diff {effects tail : List Effect} {prev curr : ClientModel}
    {relaid : WindowId → Bool} {gone : List WindowId} {refocused : Bool}
    (backlog : PaneId → List Bytes)
    (htabs : ∀ k, tab effects k = some (tabOf prev gone k))
    (hterminals : ∀ k, terminal effects k = some ⟨prev.panes.get? k, prev.panes.has k⟩)
    (hcurr : ∀ pane ∈ curr.panes.values, ExitSound pane) (hlayouts : SameLayouts prev curr relaid)
    (htail : tail = [] ∨ tail = [.call .connected]) :
    (Told prev curr gone refocused →
      (∀ k, tab (effects ++ (diffEffects prev curr relaid refocused backlog ++ tail)) k =
        some (tabOf curr (goneAfter gone prev curr) k)) ∧
      ∀ k, terminal (effects ++ (diffEffects prev curr relaid refocused backlog ++ tail)) k =
        some ⟨curr.panes.get? k, curr.panes.has k⟩) ∧
    (Renders (effects ++ (diffEffects prev curr relaid refocused backlog ++ tail)) curr →
      Told prev curr gone refocused) := by
  have htab : ∀ k, tab (effects ++ (diffEffects prev curr relaid refocused backlog ++ tail)) k =
      exec (Tab.after k) (tabOf prev gone k) (diffEffects prev curr relaid refocused backlog) := by
    intro k
    rw [tab_append, htabs, Option.bind_some, exec_append]
    rcases htail with rfl | rfl
    · exact Option.bind_fun_some _
    · exact Option.bind_fun_some _
  have hterminal : ∀ k,
      terminal (effects ++ (diffEffects prev curr relaid refocused backlog ++ tail)) k =
        exec (Terminal.after k) ⟨prev.panes.get? k, prev.panes.has k⟩
          (diffEffects prev curr relaid refocused backlog) := by
    intro k
    rw [terminal_append, hterminals, Option.bind_some, exec_append]
    rcases htail with rfl | rfl
    · exact Option.bind_fun_some _
    · exact Option.bind_fun_some _
  constructor
  · intro h
    exact ⟨fun k => (htab k).trans (tab_of_told hlayouts h k),
      fun k => (hterminal k).trans (terminal_of_told hcurr h k)⟩
  · intro h
    exact told_of_renders hcurr hlayouts (fun k => htab k ▸ h.windows k)
      fun k => hterminal k ▸ h.panes k

theorem exits_receive {s : Replica} (h : s.Sound) (m : Sent T) :
    ∀ pane ∈ (s.mirror.receive m).model.panes.values, ExitSound pane := by
  rw [receive_model]
  split
  · exact exitSound_project h.exits m
  · exact h.exits

/-- A change of the model that the hook follows. -/
theorem receive_attached {s : Replica} (h : s.Sound) {hook : Attachment}
    (hhook : s.hook = .attached hook) {m : Sent T} (hemits : emitsChange s.mirror m = true)
    (backlog : PaneId → List Bytes) :
    (Followed s (.receive m backlog) → (s.receive m backlog).Sound) ∧
      ((s.receive m backlog).Rendered → Followed s (.receive m backlog)) := by
  have hkeeps : Keeps s hook := by
    have hsound := h.hook
    rwa [HookSound, hhook] at hsound
  obtain ⟨prevModel, subs⟩ := hook
  obtain rfl : prevModel = .seen s.mirror.model := hkeeps.seen
  have hmodel : (s.mirror.receive m).model = project s.mirror.model m := by
    rw [receive_model, if_pos hemits]
  have hlayouts : SameLayouts s.mirror.model (s.mirror.receive m).model (relaid m.message) := by
    rw [hmodel]
    exact sameLayouts_project s.mirror.model m
  obtain ⟨heffects, hseen, hsubs⟩ := applyModelDiff_spec hkeeps.subscribed
    (s.mirror.receive m).model (relaid m.message) backlog
  have hstep : s.receive m backlog =
      { mirror := s.mirror.receive m
        hook := .attached (applyModelDiff ⟨.seen s.mirror.model, subs⟩
          (s.mirror.receive m).model (relaid m.message) backlog).1
        effects := s.effects ++ (diffEffects s.mirror.model (s.mirror.receive m).model
          (relaid m.message) (s.mirror.model.focus ≠ (s.mirror.receive m).model.focus) backlog ++
            [])
        gone := goneAfter s.gone s.mirror.model (s.mirror.receive m).model } := by
    rw [Replica.receive, hhook, List.append_nil, ← heffects]
    exact if_pos hemits
  obtain ⟨hfaithful, hnecessary⟩ := renders_diff backlog hkeeps.tabs hkeeps.terminals
    (exits_receive h m) hlayouts (.inl rfl)
  have hfollowed : Followed s (.receive m backlog) ↔
      Told s.mirror.model (s.mirror.receive m).model s.gone
        (s.mirror.model.focus ≠ (s.mirror.receive m).model.focus) := by
    rw [Followed, hhook]
    exact forall_prop_of_true hemits
  rw [hfollowed, hstep]
  refine ⟨fun htold => ⟨exits_receive h m, hseen, hsubs, (hfaithful htold).1,
    (hfaithful htold).2, ?_⟩, hnecessary⟩
  show List.foldl _ _ _ = _
  rw [List.foldl_append, List.append_nil, focus_diff]
  show (if _ then _ else focus s.effects) = _
  rw [hkeeps.focused]
  by_cases hfocus : s.mirror.model.focus = (s.mirror.receive m).model.focus
  · simp [hfocus]
  · simp [hfocus]

/-- A message that the hook does not hear of. -/
theorem receive_unheard {s : Replica} (h : s.Sound) {m : Sent T} {backlog : PaneId → List Bytes}
    (hunheard : ∀ hook, s.hook = .attached hook → emitsChange s.mirror m = false) :
    (s.receive m backlog).Sound := by
  have hstep : s.receive m backlog = { s with mirror := s.mirror.receive m } := by
    rw [Replica.receive]
    cases hhook : s.hook with
    | attached hook => exact if_neg (by simp [hunheard hook hhook])
    | idle | detached => rfl
  rw [hstep]
  refine ⟨exits_receive h m, ?_⟩
  have hsound := h.hook
  unfold HookSound at hsound ⊢
  cases hhook : s.hook with
  | idle =>
    rw [hhook] at hsound
    exact hsound
  | detached =>
    rw [hhook] at hsound
    exact hsound
  | attached hook =>
    rw [hhook] at hsound
    have hmodel : (s.mirror.receive m).model = s.mirror.model := by
      rw [receive_model, hunheard hook hhook]
      rfl
    obtain ⟨hseen, hsubs, htabs, hterminals, hfocused⟩ := hsound
    rw [← hmodel] at hseen hsubs htabs hterminals hfocused
    exact ⟨hseen, hsubs, htabs, hterminals, hfocused⟩

theorem sound_receive {s : Replica} (h : s.Sound) (m : Sent T) (backlog : PaneId → List Bytes) :
    (Followed s (.receive m backlog) → (s.receive m backlog).Sound) ∧
      ((s.receive m backlog).Rendered → Followed s (.receive m backlog)) := by
  cases hhook : s.hook with
  | attached hook =>
    cases hemits : emitsChange s.mirror m with
    | true => exact receive_attached h hhook hemits backlog
    | false =>
      refine ⟨fun _ => receive_unheard h fun _ _ => hemits, fun _ => ?_⟩
      rw [Followed, hhook]
      exact fun hno => absurd hemits (by simp [hno])
  | idle | detached =>
    refine ⟨fun _ => receive_unheard h fun hook heq => absurd (hhook.symm.trans heq) (by simp),
      fun _ => ?_⟩
    rw [Followed, hhook]
    trivial

/-- The catch-up. -/
theorem sound_attach {s : Replica} (h : s.Sound) (backlog : PaneId → List Bytes) :
    (Followed s (.attach backlog : Event T) → (s.attach backlog).Sound) ∧
      ((s.attach backlog).Rendered → Followed s (.attach backlog : Event T)) := by
  have hsound := h.hook
  rw [HookSound] at hsound
  cases hhook : s.hook with
  | attached hook | detached =>
    have hsame : s.attach backlog = s := by rw [Replica.attach, hhook]
    rw [hsame]
    refine ⟨fun _ => h, fun _ => ?_⟩
    rw [Followed, hhook]
    trivial
  | idle =>
    rw [hhook] at hsound
    obtain ⟨hnothing, hnone⟩ := hsound
    obtain ⟨heffects, hseen, hsubs⟩ := catchUp_spec s.mirror.model (fun _ => true) backlog
    have hstep : s.attach backlog =
        { mirror := s.mirror
          hook := .attached (catchUp s.mirror.model backlog).1
          effects := s.effects ++ (diffEffects emptyClientModel s.mirror.model (fun _ => true) true
            backlog ++ [.call .connected])
          gone := s.gone } := by
      rw [Replica.attach, hhook, ← heffects]
    have hlayouts : SameLayouts emptyClientModel s.mirror.model fun _ => true :=
      fun _ _ _ _ _ hsame => absurd rfl hsame
    have hgone : goneAfter [] emptyClientModel s.mirror.model = s.gone := hnone.symm
    have htabs : ∀ k, tab [] k = some (tabOf emptyClientModel [] k) := fun _ => rfl
    have hterminals : ∀ k, terminal [] k =
        some ⟨emptyClientModel.panes.get? k, emptyClientModel.panes.has k⟩ := fun _ => rfl
    obtain ⟨hfaithful, hnecessary⟩ :=
      renders_diff backlog htabs hterminals h.exits hlayouts (.inr rfl)
    have hfollowed : Followed s (.attach backlog : Event T) ↔
        Told emptyClientModel s.mirror.model [] true := by rw [Followed, hhook]
    rw [hfollowed, hstep, hnothing, ← hgone]
    refine ⟨fun htold => ⟨h.exits, hseen, hsubs, (hfaithful htold).1, (hfaithful htold).2, ?_⟩,
      hnecessary⟩
    show List.foldl _ _ _ = _
    rw [List.nil_append, List.foldl_append, focus_diff]
    rfl

/-- Output of a pane that is subscribed to. -/
theorem sound_output {s : Replica} (h : s.Sound) (paneId : PaneId) (bytes : Bytes) :
    (s.output paneId bytes).Sound := by
  unfold Replica.output
  cases hhook : s.hook with
  | idle | detached => exact h
  | attached hook =>
    have hkeeps := h.hook
    rw [HookSound, hhook] at hkeeps
    simp only []
    split
    · next hsub =>
      refine ⟨h.exits, ?_⟩
      rw [HookSound]
      simp only
      refine ⟨hkeeps.seen, hkeeps.subscribed, fun k => ?_, fun k => ?_, ?_⟩
      · rw [tab_append, hkeeps.tabs]
        rfl
      · rw [terminal_append, hkeeps.terminals, Option.bind_some]
        by_cases hk : paneId = k
        · rw [hkeeps.subscribed] at hsub
          obtain ⟨pane, hpane⟩ := KeyedMap.has_iff.mp hsub
          rw [← hk, hpane, exec_cons]
          exact congrArg (Option.bind · _) (Terminal.change_own id)
        · rw [exec_cons]
          exact congrArg (Option.bind · _) (Terminal.change_other hk id)
      · show List.foldl _ _ _ = _
        rw [List.foldl_append]
        exact hkeeps.focused
    · exact h

/-- The end of the subscriptions. -/
theorem sound_detachHook {s : Replica} (h : s.Sound) : s.detachHook.Sound := by
  unfold Replica.detachHook
  cases hhook : s.hook with
  | idle | detached => exact h
  | attached hook =>
    have hkeeps := h.hook
    rw [HookSound, hhook] at hkeeps
    have hends : hook.byteUnsubs.values.map Effect.unsubscribed =
        hook.byteUnsubs.values.flatMap fun paneId => [.unsubscribed paneId] :=
      List.map_eq_flatMap
    refine ⟨h.exits, fun k => ?_, fun k => ?_⟩
    · rw [tab_append, hkeeps.tabs, Option.bind_some, KeyedMap.exec_ignored]
      · rfl
      · intro e he
        rcases List.mem_append.mp he with he | he
        · obtain ⟨paneId, -, rfl⟩ := List.mem_map.mp he
          rfl
        · rw [List.mem_singleton.mp he]
          rfl
    · have hhas := hkeeps.subscribed k
      rw [terminal_append, hkeeps.terminals, Option.bind_some, exec_append, hends,
        KeyedMap.exec_flatMap_at hook.byteUnsubs _ _ k, ← hhas, KeyedMap.has]
      · cases hget : hook.byteUnsubs.get? k with
        | none => rfl
        | some paneId =>
          obtain rfl : paneId = k := KeyedMap.key_of_get? hget
          have hunsub : Terminal.after paneId ⟨s.mirror.model.panes.get? paneId, true⟩
              (.unsubscribed paneId) = some ⟨s.mirror.model.panes.get? paneId, false⟩ :=
            if_pos rfl
          rw [Option.map_some, Option.getD_some, Option.isSome_some, exec_cons, hunsub]
          rfl
      · intro paneId _ hne e he t
        rw [List.mem_singleton.mp he]
        exact if_neg hne

theorem sound_step {s : Replica} (h : s.Sound) (e : Event T) :
    (Followed s e → (s.step e).Sound) ∧ ((s.step e).Rendered → Followed s e) := by
  cases e with
  | receive m backlog => exact sound_receive h m backlog
  | attach backlog => exact sound_attach h backlog
  | output paneId bytes => exact ⟨fun _ => sound_output h paneId bytes, fun _ => trivial⟩
  | detachHook => exact ⟨fun _ => sound_detachHook h, fun _ => trivial⟩

/-- In exactly the runs whose events are all told by their callbacks, the renderer has the
windows, panes and focus of the model in every state. -/
theorem renders_iff (events : List (Event T)) :
    (∀ before s, before <+: events → exec tick ({} : Replica) before = some s → s.Rendered) ↔
      Along tick Followed ({} : Replica) events := by
  refine prefixes_iff_along_of (I := Replica.Sound) (fun s h => h.rendered)
    (fun s e s' h hfollowed hstep => ?_) (fun s e h hnot => ⟨_, rfl, fun hrendered => ?_⟩)
    ⟨fun pane hmem => absurd hmem List.not_mem_nil, rfl, rfl⟩
  · obtain rfl := Option.some_inj.mp hstep
    exact (sound_step h e).1 hfollowed
  · exact hnot ((sound_step h e).2 hrendered)

/-- A snapshot with one pane, whose shell has set a title. -/
def titledShell : SnapshotMessage where
  seq := 1
  session := ⟨⟨"s1"⟩, "work"⟩
  windows := [⟨⟨"w1"⟩, "zsh", true, .zero, false, true, 0⟩]
  panes := [⟨⟨"p1"⟩, ⟨"w1"⟩, 80, 24, none, none, none, none, none, none, some "vim"⟩]
  focus := ⟨some ⟨"p1"⟩, some ⟨"w1"⟩⟩
  attachedClientCount := none
  connectionId := none

def attachAfterSnapshot : List (Event Unit) :=
  [.receive ⟨(), 1, .snapshot titledShell⟩ fun _ => [], .attach fun _ => []]

/-- The title of a pane that is there at `attach` is never told. -/
theorem title_not_rendered :
    ¬∀ before s, before <+: attachAfterSnapshot → exec tick ({} : Replica) before = some s →
      s.Rendered := by
  intro hall
  have hrendered := hall attachAfterSnapshot _ (List.prefix_refl _) rfl
  have htitle := congrArg (Option.map fun t => t.pane.map (·.paneTitle)) (hrendered.panes ⟨"p1"⟩)
  exact absurd htitle (by decide +kernel)

end TmuxccDriver.Client.RenderHook
