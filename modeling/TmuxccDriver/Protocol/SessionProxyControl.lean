/-!
# The session-proxy wire protocol

The part of `packages/protocol/src` the driver and the client mirror work on: ids,
layout trees, the snapshot, the deltas, and the commands a client sends. Sequence
numbers are stamped by the serve layer and are not part of a delta here.
-/

namespace TmuxccDriver.Protocol

/-! ## Ids -/

structure PaneId where
  raw : String
deriving DecidableEq, Repr

structure WindowId where
  raw : String
deriving DecidableEq, Repr

structure SessionId where
  raw : String
deriving DecidableEq, Repr

structure ConnectionId where
  raw : String
deriving DecidableEq, Repr

/-! ## Layout trees -/

structure Rect where
  x : Nat
  y : Nat
  cols : Nat
  rows : Nat
deriving DecidableEq, Repr

inductive LayoutNode
  | pane (paneId : PaneId) (rect : Rect)
  | hsplit (rect : Rect) (children : List LayoutNode)
  | vsplit (rect : Rect) (children : List LayoutNode)
deriving Repr

mutual

def LayoutNode.decEq : (a b : LayoutNode) → Decidable (a = b)
  | .pane p r, .pane p' r' => decidable_of_iff (p = p' ∧ r = r') (by simp)
  | .hsplit r cs, .hsplit r' cs' =>
    match LayoutNode.decEqList cs cs' with
    | .isTrue h => decidable_of_iff (r = r') (by simp [h])
    | .isFalse h => .isFalse (by simp [h])
  | .vsplit r cs, .vsplit r' cs' =>
    match LayoutNode.decEqList cs cs' with
    | .isTrue h => decidable_of_iff (r = r') (by simp [h])
    | .isFalse h => .isFalse (by simp [h])
  | .pane .., .hsplit .. | .pane .., .vsplit .. | .hsplit .., .pane ..
  | .hsplit .., .vsplit .. | .vsplit .., .pane .. | .vsplit .., .hsplit .. => .isFalse (by simp)

def LayoutNode.decEqList : (as bs : List LayoutNode) → Decidable (as = bs)
  | [], [] => .isTrue rfl
  | [], _ :: _ | _ :: _, [] => .isFalse (by simp)
  | a :: as, b :: bs =>
    match LayoutNode.decEq a b, LayoutNode.decEqList as bs with
    | .isTrue h, .isTrue h' => .isTrue (by simp [h, h'])
    | .isFalse h, _ => .isFalse (by simp [h])
    | _, .isFalse h => .isFalse (by simp [h])

end

instance : DecidableEq LayoutNode := LayoutNode.decEq

structure WindowLayout where
  cols : Nat
  rows : Nat
  root : LayoutNode
deriving DecidableEq, Repr

/-- The layout without panes that stands for a layout not seen yet. -/
def WindowLayout.zero : WindowLayout := ⟨0, 0, .pane ⟨""⟩ ⟨0, 0, 0, 0⟩⟩

/-! ## Snapshot -/

inductive DetachPolicy
  | detach
  | kill
deriving DecidableEq, Repr

/-- Which verb of which connection caused a change. -/
structure Origin where
  connectionId : ConnectionId
  requestId : String
deriving DecidableEq, Repr

structure SnapshotSession where
  sessionId : SessionId
  name : String
deriving DecidableEq, Repr

structure SnapshotWindow where
  windowId : WindowId
  name : String
  active : Bool
  layout : WindowLayout
  synchronizePanes : Bool
  monitorActivity : Bool
  monitorSilence : Nat
deriving DecidableEq, Repr

structure SnapshotPane where
  paneId : PaneId
  windowId : WindowId
  cols : Nat
  rows : Nat
  dead : Option Bool
  exitCode : Option Nat
  label : Option String
  bound : Option Bool
  detach : Option DetachPolicy
  icon : Option String
  paneTitle : Option String
deriving DecidableEq, Repr

/-- The focus pair; single-session, so without the session. -/
structure Focus where
  paneId : Option PaneId
  windowId : Option WindowId
deriving DecidableEq, Repr

structure SnapshotMessage where
  seq : Nat
  session : SnapshotSession
  windows : List SnapshotWindow
  panes : List SnapshotPane
  focus : Focus
  attachedClientCount : Option Nat
  connectionId : Option ConnectionId
deriving DecidableEq, Repr

/-! ## Deltas -/

/-- `SessionProxyMessage`. The messages that carry no model state (capabilities,
responses, errors, hydration and attention messages) are one constructor. -/
inductive SessionProxyMessage
  | paneOpened (paneId : PaneId) (windowId : WindowId) (cols rows : Nat) (active : Bool)
      (dead : Option Bool) (exitCode : Option Nat) (label : Option String) (bound : Option Bool)
      (detach : Option DetachPolicy) (icon : Option String) (origin : Option Origin)
  | paneDeadChanged (paneId : PaneId) (dead : Bool) (exitCode : Option Nat)
  | paneClosed (paneId : PaneId) (windowId : WindowId) (exitCode : Option Nat)
      (cause : Option Origin)
  | paneResized (paneId : PaneId) (cols rows : Nat)
  | paneMoved (paneId : PaneId) (windowId : WindowId)
  | paneLabelChanged (paneId : PaneId) (label : Option String)
  | panePolicyChanged (paneId : PaneId) (bound : Bool) (detach : Option DetachPolicy)
      (icon : Option String)
  | paneTitleChanged (paneId : PaneId) (title : String)
  | paneModeChanged (paneId : PaneId) (mode : String)
  | windowAdded (windowId : WindowId) (name : String) (active : Bool) (origin : Option Origin)
  | windowClosed (windowId : WindowId)
  | windowRenamed (windowId : WindowId) (newName : String)
  | windowSyncChanged (windowId : WindowId) (on : Bool)
  | windowMonitorActivityChanged (windowId : WindowId) (on : Bool)
  | windowMonitorSilenceChanged (windowId : WindowId) (seconds : Nat)
  | layoutUpdated (windowId : WindowId) (layout : WindowLayout)
  | focusChanged (paneId : Option PaneId) (windowId : Option WindowId)
  | sessionRenamed (newName : String)
  | clientCountChanged (count : Nat)
  | snapshot (message : SnapshotMessage)
  | notStateBearing
deriving DecidableEq, Repr

/-! ## Client messages -/

inductive SplitDirection
  | horizontal
  | vertical
deriving DecidableEq, Repr

inductive PolicyScope
  | pane
  | window
  | session
deriving DecidableEq, Repr

inductive PolicyOption
  | bound
  | detach
  | icon
deriving DecidableEq, Repr

/-- One pane of a `resize-managed-window` command. -/
structure PaneSize where
  paneId : PaneId
  cols : Int
  rows : Int
deriving DecidableEq, Repr

/-- An environment, as the list of its entries. -/
abbrev Env := List (String × String)

inductive WireCommand
  | openWindow (name cwd shellCommand : Option String) (env : Option Env)
  | splitPane (paneId : Option PaneId) (direction : SplitDirection)
      (cwd shellCommand : Option String) (env : Option Env)
  | closePane (paneId : PaneId)
  | renameWindow (windowId : WindowId) (name : String)
  | renameSession (name : String)
  | selectPane (paneId : PaneId)
  | resizePane (paneId : PaneId) (cols rows : Int)
  | resizeManagedWindow (windowId : WindowId) (cols rows : Int) (panes : List PaneSize)
  | killSession (sessionName : String)
  | setSynchronizePanes (windowId : WindowId) (on : Bool)
  | setMonitorActivity (windowId : WindowId) (on : Bool)
  | setMonitorSilence (windowId : WindowId) (seconds : Option Int)
  | breakPane (paneId : PaneId)
  | swapPane (paneId : PaneId) (targetPaneId : Option PaneId)
  | renamePane (paneId : PaneId) (title : String)
  | setObjectPolicy (scope : PolicyScope) (paneId : Option PaneId) (windowId : Option WindowId)
      (option : PolicyOption) (value : Option String)
  | killWindow (windowId : WindowId)
  | swapWindow (sourceWindowId targetWindowId : WindowId)
  | paneCapture (paneId : PaneId)
  | sessionProxyInfo
deriving DecidableEq, Repr

/-- `ClientMessage`. The messages of the handshake, of attaching and of resyncing, which
the input path ignores, are one constructor. -/
inductive ClientMessage
  | input (paneId : PaneId) (data : String)
  | resizeRequest (paneId : PaneId) (cols rows : Int)
  | commandRequest (correlationId : String) (command : WireCommand)
  | notInput
deriving DecidableEq, Repr

end TmuxccDriver.Protocol
