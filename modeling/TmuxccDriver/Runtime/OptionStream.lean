import TmuxccDriver.Lib.Optimistic
import TmuxccDriver.Runtime.OptionFields

/-!
# Options on the command stream

One option of a window or a pane, as tmux has it and as the model shows it: the optimistic commands
of `runtime/input-path.ts`, the listings of a requery and the reads of `applyClientBinding`, all on
one stream that tmux answers in order. A reply is handled later, by a continuation.

tmux is what the driver sees of it: it accepts or refuses a command, and a listing tells the value
that it shows when it answers. A pane without a value of its own shows the one of its window, of its
session or the global one.

Results:
1. `Sound.after`: in which order of the events the model still converges.
2. `option_shown`: with no write of the option out, the model shows what tmux does.
3. `option_settles`: once every reply is handled, that is the value of the last command that tmux
accepted. `write_overwritten`: it is not when a requery commits an older listing.
-/

namespace TmuxccDriver.Runtime.OptionStream
open TmuxccDriver.Lib TmuxccDriver.Parser TmuxccDriver.Protocol TmuxccDriver.State

/-! ## tmux -/

/-- A text as a listing spells it: with blanks for tabs, and none for the empty text. -/
def Value.spelled : Value → Value
  | .text (some value) =>
    let value := String.ofList (value.toList.map fun c => if c = '\t' then ' ' else c)
    .text (if value = "" then none else some value)
  | value => value

/-- What tmux has: the value of the window or of the pane itself, if it is set there, and the one
that it shows without it. -/
structure Held where
  own : Option Value
  inherited : Value

/-- What tmux shows. -/
def Held.value (held : Held) : Value := (held.own.getD held.inherited).spelled

namespace Field

/-- What tmux stores for a command that it accepts, if the command sets or unsets the option. -/
def stored (clientId : Option String) (command : WireCommand) (field : Field) :
    Option (Option Value) :=
  match field, command with
  | .label id, .renamePane paneId title =>
    if paneId = id then some (some (.text (some title))) else none
  | .detach id, .setObjectPolicy .pane (some paneId) _ .detach value =>
    if paneId = id then some (value.map fun value => .policy (policyOf value)) else none
  | .icon id, .setObjectPolicy .pane (some paneId) _ .icon value =>
    if paneId = id then some (value.map fun value => .text (some value)) else none
  | .bound id client, .setObjectPolicy .pane (some paneId) _ .bound value =>
    if paneId = id ∧ clientId = some client then
      some (value.map fun value => .flag (trim value.toList = ['1']))
    else none
  | field, command => (field.asked clientId command).map some

/-- A command that may change what a pane shows without a value of its own. -/
def inheritedFrom (clientId : Option String) (command : WireCommand) : Field → Bool
  | .detach _ =>
    match command with
    | .setObjectPolicy scope _ _ .detach _ => scope ≠ .pane
    | _ => false
  | .icon _ =>
    match command with
    | .setObjectPolicy scope _ _ .icon _ => scope ≠ .pane
    | _ => false
  | .bound _ client =>
    match command with
    | .setObjectPolicy scope _ _ .bound _ => scope ≠ .pane ∧ clientId = some client
    | _ => false
  | _ => false

/-- The rows of `list-windows` tell this value. -/
def toldByWindows (decode : Bytes → String) (value : Value) (result : CommandResult)
    (field : Field) : Bool :=
  !result.ok ||
    match parseWindows decode result.body with
    | .error _ => true
    | .ok rows => rows.all fun row => (field.inWindowsRow row).all (· = value)

/-- The rows of `list-panes` tell this value. -/
def toldByPanes (decode : Bytes → String) (value : Value) (result : CommandResult)
    (field : Field) : Bool :=
  !result.ok ||
    match parsePanes decode result.body with
    | .error _ => true
    | .ok rows => rows.all fun row => (field.inPanesRow row).all (· = value)

end Field

/-! ## The world -/

/-- A command that was sent, in the order of the stream. -/
inductive Request
  | command (clientId : Option String) (command : WireCommand) (onReply : OnReply)
  | listWindows
  | listPanes
  /-- The read of `applyClientBinding`. -/
  | clientBinding (clientId : String)

/-- A reply whose continuation has not run. The last field is an observer's: nothing that tmux
accepted since has written the option. -/
inductive Continuation
  | reply (onReply : OnReply) (result : CommandResult)
  | clientBinding (clientId : String) (boundPanes : List PaneId) (current : Bool)

/-- The driver and tmux. The last field is an observer's: nothing that tmux accepted has written
the option since its listing was answered in the running cycle. No listing has the bindings of a
client, which a requery carries over: nothing has written them since it began, and then no write of
them was out. -/
structure World where
  engine : RequeryEngine
  held : Held
  queue : List Request
  pending : List Continuation
  current : Bool

inductive Event
  /-- A `command.request` of a client. -/
  | message (respond : Bool) (clientId : Option String) (correlationId : String)
      (command : WireCommand)
  /-- `applyClientBinding`. -/
  | bind (clientId : String)
  /-- tmux answers the first command that waits; `inherited` is what panes inherit then. -/
  | answer (result : CommandResult) (inherited : Value)
  /-- A continuation runs. -/
  | settled (n : Nat)
  | requery
  | markDirty
  | resume
  | release

/-- The pipeline hands `dispatchSynthetic` to the input path. -/
def wired (opts : InputPathOptions) : InputPathOptions := { opts with dispatchSynthetic := true }

/-- What a call sends. -/
def requests (clientId : Option String) (command : WireCommand) : Action → List Request
  | .send _ onReply => [.command clientId command onReply]
  | .sendBatch commands => commands.map fun _ => .command clientId command .ignored
  | _ => []

namespace Continuation

/-- A write was accepted. -/
def written : Continuation → Continuation
  | .clientBinding clientId boundPanes _ => .clientBinding clientId boundPanes false
  | continuation => continuation

end Continuation

/-! ## What is out -/

/-- The value that a refused command brings back. -/
def Field.takesBack (field : Field) : Continuation → Option Value
  | .reply onReply result => if result.ok then none else field.shownAgain onReply
  | .clientBinding _ _ _ => none

/-- A command that waits for its answer, if it writes the field. -/
def Field.waits (field : Field) : Request → Option (Write Value)
  | .command clientId command onReply =>
    (field.asked clientId command).map fun value => ⟨value, field.shownAgain onReply⟩
  | _ => none

def World.refused (field : Field) (w : World) : List Value := w.pending.filterMap field.takesBack

def World.waiting (field : Field) (w : World) : List (Write Value) := w.queue.filterMap field.waits

/-- No write of the field waits for its answer or is still to be taken back. -/
def World.free (field : Field) (w : World) : Bool :=
  (w.refused field).isEmpty && (w.waiting field).isEmpty

/-! ## Steps -/

namespace World

variable (w : World)

def setModel (model : SessionModel) : World := { w with engine := w.engine.setModel model }

/-- `dispatchSynthetic`; the responses go to the client. -/
def perform : Action → World
  | .dispatchSynthetic event =>
    w.setModel ((applySynthetic event w.engine.model).getD w.engine.model)
  | _ => w

/-- tmux accepts a command. -/
def accept (field : Field) (clientId : Option String) (command : WireCommand) (inherited : Value) :
    World :=
  let held : Held :=
    ⟨(field.stored clientId command).getD w.held.own,
      if field.inheritedFrom clientId command then inherited else w.held.inherited⟩
  match field.asked clientId command with
  | none => { w with held }
  | some _ => { w with held, current := false, pending := w.pending.map .written }

/-- tmux answers. -/
def answer (decode : Bytes → String) (field : Field) (result : CommandResult) (inherited : Value) :
    Option World :=
  match w.queue with
  | [] => none
  | .command clientId command onReply :: queue =>
    let w := { w with queue, pending := w.pending ++ [.reply onReply result] }
    some (if result.ok then w.accept field clientId command inherited else w)
  | .listWindows :: queue =>
    if field.toldByWindows decode w.held.value result then
      (Requery.step decode w.engine (.windowsReply (.resolved result))).map fun engine =>
        { w with engine, queue, current := w.current || field.ofWindow }
    else none
  | .listPanes :: queue =>
    if field.toldByPanes decode w.held.value result then
      (Requery.step decode w.engine (.panesReply (.resolved result))).map fun engine =>
        { w with engine, queue, current := w.current || field.ofPane }
    else none
  | .clientBinding clientId :: queue =>
    if result.ok then
      let boundPanes := parseBoundPanes (decode result.body)
      if (field.inBindings clientId boundPanes).all (· = w.held.value) then
        some { w with queue, pending := w.pending ++ [.clientBinding clientId boundPanes true] }
      else none
    else some { w with queue }

/-- A continuation. -/
def settle (opts : InputPathOptions) : Continuation → World
  | .reply onReply result =>
    (InputPath.init.handleReply opts (some w.engine.model) (.resolved result) onReply).2.foldl
      perform w
  | .clientBinding clientId boundPanes _ =>
    w.setModel ((reconcileBinding clientId boundPanes w.engine.model).getD w.engine.model)

end World

/-- The two commands of a cycle that begins. -/
def listings (engine : RequeryEngine) : List Request :=
  match engine.flight with
  | .cycling _ => [.listWindows, .listPanes]
  | _ => []

/-- One event; `none` if it cannot happen now. -/
def step (opts : InputPathOptions) (field : Field) (w : World) : Event → Option World
  | .message respond clientId correlationId command =>
    match (wired opts).handleCommand ⟨respond, clientId, some w.engine.model⟩ correlationId
        command with
    | .error _ => some w
    | .ok actions =>
      some (actions.foldl World.perform
        { w with queue := w.queue ++ actions.flatMap (requests clientId command) })
  | .bind clientId =>
    match w.engine.model.boundSession with
    | none => some w
    | some _ => some { w with queue := w.queue ++ [.clientBinding clientId] }
  | .answer result inherited => w.answer opts.decode field result inherited
  | .settled n =>
    match w.pending[n]? with
    | none => none
    | some continuation =>
      some ({ w with pending := w.pending.eraseIdx n }.settle (wired opts) continuation)
  | .requery =>
    match w.engine.flight with
    | .idle =>
      let engine := w.engine.requery
      let current := if field.ofClient then w.free field else w.current
      some { w with engine, queue := w.queue ++ listings engine, current }
    | _ => some w
  | .markDirty => some { w with engine := w.engine.markDirty }
  | .resume =>
    (Requery.step opts.decode w.engine .resume).map fun engine =>
      { w with engine, queue := w.queue ++ listings engine }
  | .release => (Requery.step opts.decode w.engine .release).map fun engine => { w with engine }

/-! ## The order of the events -/

namespace World

variable (field : Field) (w : World)

/-- tmux accepts a command: a write, when no refused one is still to be taken back, and it shows
then what the write asks for. After any other command it shows what it showed before. -/
def AcceptsInOrder (inherited : Value) : Request → Prop
  | .command clientId command _ =>
    (field.asked clientId command ≠ none → w.refused field = []) ∧
      (w.accept field clientId command inherited).held.value =
        (field.asked clientId command).getD w.held.value
  | _ => True

/-- A read brings `shown`. While no refused write is to be taken back, it changes the field only
when no write waits and none was accepted since the read was answered. -/
def ReadsInOrder (shown : Option Value) (current : Bool) : Prop :=
  w.refused field = [] → shown ≠ field.get w.engine.model → shown ≠ none →
    w.waiting field = [] ∧ current = true

/-- A pane that a requery finds new has no binding. -/
def foundUnbound : Bool :=
  match w.engine.flight with
  | .cycling cycle =>
    !field.ofClient || (field.get cycle.startModel).isSome || w.held.value = .flag false
  | _ => true

/-- A refused write is taken back when no later one is out. -/
def SettlesInOrder (n : Nat) : Continuation → Prop
  | .reply onReply result =>
    field.takesBack (.reply onReply result) ≠ none →
      w.waiting field = [] ∧ (w.pending.drop (n + 1)).filterMap field.takesBack = []
  | .clientBinding clientId boundPanes current =>
    w.ReadsInOrder field
      (field.get ((reconcileBinding clientId boundPanes w.engine.model).getD w.engine.model))
        current

end World

/-- The condition on one event. -/
def Ordered (opts : InputPathOptions) (field : Field) (w : World) : Event → Prop
  | .answer result inherited =>
    result.ok = true → ∀ request ∈ w.queue.head?, w.AcceptsInOrder field inherited request
  | .settled n => ∀ continuation ∈ w.pending[n]?, w.SettlesInOrder field n continuation
  | .resume =>
    ∀ next ∈ Requery.step opts.decode w.engine .resume,
      w.ReadsInOrder field (field.get next.model) w.current ∧ w.foundUnbound field = true
  | _ => True

section Decidable

variable (opts : InputPathOptions) (field : Field) (w : World)

instance (inherited : Value) :
    ∀ request : Request, Decidable (w.AcceptsInOrder field inherited request)
  | .command _ _ _ => inferInstanceAs (Decidable (_ ∧ _))
  | .listWindows => .isTrue trivial
  | .listPanes => .isTrue trivial
  | .clientBinding _ => .isTrue trivial

instance (shown : Option Value) (current : Bool) : Decidable (w.ReadsInOrder field shown current) :=
  inferInstanceAs (Decidable (_ = [] → _))

instance (n : Nat) :
    ∀ continuation : Continuation, Decidable (w.SettlesInOrder field n continuation)
  | .reply _ _ => inferInstanceAs (Decidable (_ ≠ none → _))
  | .clientBinding _ _ _ => inferInstanceAs (Decidable (World.ReadsInOrder _ _ _ _))

instance : ∀ event : Event, Decidable (Ordered opts field w event)
  | .answer _ _ => inferInstanceAs (Decidable (_ = true → ∀ request ∈ w.queue.head?, _))
  | .settled n => inferInstanceAs (Decidable (∀ continuation ∈ w.pending[n]?, _))
  | .resume =>
    inferInstanceAs (Decidable (∀ next ∈ Requery.step opts.decode w.engine .resume, _ ∧ _))
  | .message _ _ _ _ => .isTrue trivial
  | .bind _ => .isTrue trivial
  | .requery => .isTrue trivial
  | .markDirty => .isTrue trivial
  | .release => .isTrue trivial

end Decidable

/-! ## The invariant -/

structure Sound (decode : Bytes → String) (field : Field) (w : World) : Prop where
  converging : Converging w.held.value (w.refused field) (w.waiting field)
    (field.get w.engine.model)
  unasked : ∀ clientId command onReply, .command clientId command onReply ∈ w.queue →
    field.asked clientId command = none → field.shownAgain onReply = none
  bindings : ∀ clientId boundPanes value, .clientBinding clientId boundPanes true ∈ w.pending →
    field.inBindings clientId boundPanes = some value → value = w.held.value
  windows : w.current = true → field.ofWindow = true → ∀ cycle result,
    w.engine.flight = .cycling cycle → cycle.winResult = some (.resolved result) →
    field.toldByWindows decode w.held.value result = true
  panes : w.current = true → field.ofPane = true → ∀ cycle result,
    w.engine.flight = .cycling cycle → cycle.paneResult = some (.resolved result) →
    field.toldByPanes decode w.held.value result = true
  carried : w.current = true → field.ofClient = true → ∀ cycle,
    w.engine.flight = .cycling cycle → Agrees (field.get cycle.startModel) w.held.value

section Sound

variable {opts : InputPathOptions} {field : Field} {w w' : World}

theorem shownAgain_of_plain {cmd : String} {onReply : OnReply} (h : Plain (.send cmd onReply))
    (field : Field) : field.shownAgain onReply = none := by
  cases onReply with
  | reversal compensating ack => cases h
  | _ => rfl

theorem perform_plain {actions : List Action} (h : ∀ action ∈ actions, Plain action) :
    actions.foldl World.perform w = w := by
  induction actions with
  | nil => rfl
  | cons action actions ih =>
    obtain ⟨hfirst, hrest⟩ := List.forall_mem_cons.mp h
    rw [List.foldl_cons]
    cases action with
    | dispatchSynthetic event => cases hfirst
    | _ => exact ih hrest

/-- A plain command waits for its answer, but it does not write the field. -/
theorem requests_plain {clientId : Option String} {command : WireCommand} {action : Action}
    (h : Plain action) : ∀ request ∈ requests clientId command action, ∃ onReply,
      request = .command clientId command onReply ∧
        ∀ field : Field, field.shownAgain onReply = none := by
  intro request hrequest
  cases action with
  | send cmd onReply =>
    cases List.mem_singleton.mp hrequest
    exact ⟨onReply, rfl, shownAgain_of_plain h⟩
  | sendBatch commands =>
    obtain ⟨cmd, -, rfl⟩ := List.mem_map.mp hrequest
    exact ⟨.ignored, rfl, fun _ => rfl⟩
  | dispatchSynthetic event => cases h
  | respond correlationId result => cases hrequest
  | reportForPane paneId cols rows => cases hrequest

/-- More commands that do not write the field. -/
theorem Sound.enqueue (h : Sound opts.decode field w) {more : List Request}
    (hwaits : ∀ request ∈ more, field.waits request = none)
    (hunasked : ∀ clientId command onReply, .command clientId command onReply ∈ more →
      field.shownAgain onReply = none) :
    Sound opts.decode field { w with queue := w.queue ++ more } where
  converging := by
    have hwaiting : { w with queue := w.queue ++ more }.waiting field = w.waiting field := by
      show (w.queue ++ more).filterMap field.waits = _
      rw [List.filterMap_append, List.filterMap_eq_nil_iff.mpr hwaits, List.append_nil]
      rfl
    rw [hwaiting]
    exact h.converging
  unasked clientId command onReply hmem hasked := by
    rcases List.mem_append.mp hmem with hold | hnew
    · exact h.unasked clientId command onReply hold hasked
    · exact hunasked clientId command onReply hnew
  bindings := h.bindings
  windows := h.windows
  panes := h.panes
  carried := h.carried

theorem Sound.message (h : Sound opts.decode field w) {respond : Bool} {clientId : Option String}
    {correlationId : String} {command : WireCommand} {actions : List Action}
    (hactions : (wired opts).handleCommand ⟨respond, clientId, some w.engine.model⟩ correlationId
      command = .ok actions) :
    Sound opts.decode field (actions.foldl World.perform
      { w with queue := w.queue ++ actions.flatMap (requests clientId command) }) := by
  rcases handleCommand_cases rfl hactions with ⟨cmd, onReply, event, rfl, hfields⟩ |
    ⟨hplain, hasked⟩
  · obtain ⟨hset, hagain⟩ := hfields field
    have hget : field.get ((applySynthetic event w.engine.model).getD w.engine.model) = _ :=
      get_applySynthetic event field
    rw [hset] at hget
    refine ⟨?_, fun client other callback hmem hasked => ?_, h.bindings, h.windows, h.panes,
      h.carried⟩
    · show Converging w.held.value (w.refused field)
        ((w.queue ++ [Request.command clientId command onReply]).filterMap field.waits)
        (field.get ((applySynthetic event w.engine.model).getD w.engine.model))
      rw [List.filterMap_append, hget]
      rcases hasked : field.asked clientId command with _ | value
      · have hwaits : [Request.command clientId command onReply].filterMap field.waits = [] := by
          simp [Field.waits, hasked]
        rw [hwaits, List.append_nil]
        exact h.converging
      · have hwaits : [Request.command clientId command onReply].filterMap field.waits =
            [⟨value, field.get w.engine.model⟩] := by
          simp [Field.waits, hasked, hagain]
        rw [hwaits]
        exact h.converging.send value
    · rcases List.mem_append.mp hmem with hold | hnew
      · exact h.unasked client other callback hold hasked
      · cases List.mem_singleton.mp hnew
        rw [hagain, hasked]
        rfl
  · rw [perform_plain hplain]
    refine h.enqueue (fun request hrequest => ?_) fun client other onReply hmem => ?_
    · obtain ⟨action, haction, hmem⟩ := List.mem_flatMap.mp hrequest
      obtain ⟨onReply, rfl, -⟩ := requests_plain (hplain action haction) request hmem
      simp only [Field.waits, hasked field, Option.map_none]
    · obtain ⟨action, haction, hmem⟩ := List.mem_flatMap.mp hmem
      obtain ⟨other, heq, hagain⟩ := requests_plain (hplain action haction) _ hmem
      cases heq
      exact hagain field

theorem takesBack_written (continuation : Continuation) :
    field.takesBack continuation.written = field.takesBack continuation := by
  cases continuation <;> rfl

theorem filterMap_written (pending : List Continuation) :
    (pending.map .written).filterMap field.takesBack = pending.filterMap field.takesBack := by
  rw [List.filterMap_map]
  exact congrArg (List.filterMap · pending) (funext takesBack_written)

theorem not_current_of_written {pending : List Continuation} {clientId : String}
    {boundPanes : List PaneId} :
    Continuation.clientBinding clientId boundPanes true ∉ pending.map .written := by
  intro hmem
  obtain ⟨continuation, -, heq⟩ := List.mem_map.mp hmem
  cases continuation with
  | reply onReply result => cases heq
  | clientBinding clientId boundPanes current => cases heq

/-- tmux accepts a command. -/
theorem Sound.accept {queue : List Request} {clientId : Option String} {command : WireCommand}
    {onReply : OnReply} {result : CommandResult} {inherited : Value}
    (h : Sound opts.decode field w) (hqueue : w.queue = .command clientId command onReply :: queue)
    (hok : result.ok = true) (hrefused : field.asked clientId command ≠ none → w.refused field = [])
    (hvalue : (w.accept field clientId command inherited).held.value =
      (field.asked clientId command).getD w.held.value) :
    Sound opts.decode field
      ({ w with queue, pending := w.pending ++ [Continuation.reply onReply result] }.accept field
        clientId command inherited) := by
  obtain ⟨engine, held, _, pending, current⟩ := w
  cases hqueue
  have hunasked : ∀ client other callback, .command client other callback ∈ queue →
      field.asked client other = none → field.shownAgain callback = none :=
    fun client other callback hmem =>
      h.unasked client other callback (List.mem_cons_of_mem _ hmem)
  have hreply : field.takesBack (Continuation.reply onReply result) = none := if_pos hok
  have hpending : (pending ++ [Continuation.reply onReply result]).filterMap field.takesBack =
      pending.filterMap field.takesBack := by
    rw [List.filterMap_append, List.filterMap_cons_none hreply, List.filterMap_nil,
      List.append_nil]
  have hconverging : Converging held.value (pending.filterMap field.takesBack)
      ((Request.command clientId command onReply :: queue).filterMap field.waits)
      (field.get engine.model) := h.converging
  rcases hasked : field.asked clientId command with _ | value
  · have hwaits : field.waits (.command clientId command onReply) = none := by
      rw [Field.waits, hasked]
      rfl
    rw [List.filterMap_cons_none hwaits] at hconverging
    simp only [World.accept, hasked, Option.getD_none] at hvalue ⊢
    refine ⟨?_, hunasked, fun client boundPanes value hmem => ?_, ?_, ?_, ?_⟩
    · show Converging (Held.value _)
        ((pending ++ [Continuation.reply onReply result]).filterMap field.takesBack) _ _
      rw [hvalue, hpending]
      exact hconverging
    · rw [hvalue]
      rcases List.mem_append.mp hmem with hold | hnew
      · exact h.bindings client boundPanes value hold
      · cases List.mem_singleton.mp hnew
    · rw [hvalue]
      exact h.windows
    · rw [hvalue]
      exact h.panes
    · rw [hvalue]
      exact h.carried
  · have hwaits : field.waits (.command clientId command onReply) =
        some ⟨value, field.shownAgain onReply⟩ := by
      rw [Field.waits, hasked]
      rfl
    have hnone : pending.filterMap field.takesBack = [] := hrefused (by simp [hasked])
    rw [List.filterMap_cons_some hwaits, hnone] at hconverging
    simp only [World.accept, hasked, Option.getD_some] at hvalue ⊢
    refine ⟨?_, hunasked, fun client boundPanes value hmem => ?_, ?_, ?_, ?_⟩
    · show Converging (Held.value _) (((pending ++ [Continuation.reply onReply result]).map
        .written).filterMap field.takesBack) _ _
      rw [hvalue, filterMap_written, hpending, hnone]
      exact hconverging.accept
    · exact absurd hmem not_current_of_written
    · exact fun hcurrent => by cases hcurrent
    · exact fun hcurrent => by cases hcurrent
    · exact fun hcurrent => by cases hcurrent

/-- tmux refuses a command. -/
theorem Sound.refuse {queue : List Request} {clientId : Option String} {command : WireCommand}
    {onReply : OnReply} {result : CommandResult} (h : Sound opts.decode field w)
    (hqueue : w.queue = .command clientId command onReply :: queue) (hok : result.ok = false) :
    Sound opts.decode field
      { w with queue, pending := w.pending ++ [Continuation.reply onReply result] } := by
  obtain ⟨engine, held, _, pending, current⟩ := w
  cases hqueue
  have hreply : field.takesBack (Continuation.reply onReply result) =
      field.shownAgain onReply := by simp [Field.takesBack, hok]
  have hconverging : Converging held.value (pending.filterMap field.takesBack)
      ((Request.command clientId command onReply :: queue).filterMap field.waits)
      (field.get engine.model) := h.converging
  refine ⟨?_, fun client other callback hmem =>
    h.unasked client other callback (List.mem_cons_of_mem _ hmem),
    fun client boundPanes value hmem => ?_, h.windows, h.panes, h.carried⟩
  · show Converging _ ((pending ++ [Continuation.reply onReply result]).filterMap
      field.takesBack) (queue.filterMap field.waits) _
    rw [List.filterMap_append]
    rcases hasked : field.asked clientId command with _ | value
    · have hwaits : field.waits (.command clientId command onReply) = none := by
        rw [Field.waits, hasked]
        rfl
      have hagain := h.unasked clientId command onReply List.mem_cons_self hasked
      rw [List.filterMap_cons_none hwaits] at hconverging
      rw [List.filterMap_cons_none (hreply.trans hagain), List.filterMap_nil, List.append_nil]
      exact hconverging
    · have hwaits : field.waits (.command clientId command onReply) =
          some ⟨value, field.shownAgain onReply⟩ := by
        rw [Field.waits, hasked]
        rfl
      rw [List.filterMap_cons_some hwaits] at hconverging
      have hlast : [Continuation.reply onReply result].filterMap field.takesBack =
          (field.shownAgain onReply).toList := by
        rcases hagain : field.shownAgain onReply with _ | before
        · rw [List.filterMap_cons_none (hreply.trans hagain)]
          rfl
        · rw [List.filterMap_cons_some (hreply.trans hagain)]
          rfl
      rw [hlast]
      exact hconverging.refuse
  · rcases List.mem_append.mp hmem with hold | hnew
    · exact h.bindings client boundPanes value hold
    · cases List.mem_singleton.mp hnew

/-- A listing is answered. -/
theorem Sound.listWindows {queue : List Request} {result : CommandResult} {engine : RequeryEngine}
    (h : Sound opts.decode field w) (hqueue : w.queue = .listWindows :: queue)
    (htold : field.toldByWindows opts.decode w.held.value result = true)
    (hengine : Requery.step opts.decode w.engine (.windowsReply (.resolved result)) =
      some engine) :
    Sound opts.decode field { w with engine, queue, current := w.current || field.ofWindow } := by
  obtain ⟨old, held, _, pending, current⟩ := w
  cases hqueue
  simp only [Requery.step] at hengine
  split at hengine
  · next cycle hflight =>
    split at hengine
    · cases hengine
    · cases hengine
      refine ⟨h.converging, fun client other callback hmem =>
        h.unasked client other callback (List.mem_cons_of_mem _ hmem), h.bindings, ?_, ?_, ?_⟩
      · intro _ _ cycle' reply hcycle hreply
        cases hcycle
        cases hreply
        exact htold
      · intro hcurrent hpane cycle' reply hcycle hreply
        cases hcycle
        have hold : current = true := by simpa [Field.not_ofWindow (.inl hpane)] using hcurrent
        exact h.panes hold hpane cycle reply hflight hreply
      · intro hcurrent hclient cycle' hcycle
        cases hcycle
        have hold : current = true := by simpa [Field.not_ofWindow (.inr hclient)] using hcurrent
        exact h.carried hold hclient cycle hflight
  · cases hengine

theorem Sound.listPanes {queue : List Request} {result : CommandResult} {engine : RequeryEngine}
    (h : Sound opts.decode field w) (hqueue : w.queue = .listPanes :: queue)
    (htold : field.toldByPanes opts.decode w.held.value result = true)
    (hengine : Requery.step opts.decode w.engine (.panesReply (.resolved result)) = some engine) :
    Sound opts.decode field { w with engine, queue, current := w.current || field.ofPane } := by
  obtain ⟨old, held, _, pending, current⟩ := w
  cases hqueue
  simp only [Requery.step] at hengine
  split at hengine
  · next cycle hflight =>
    split at hengine
    · cases hengine
    · cases hengine
      refine ⟨h.converging, fun client other callback hmem =>
        h.unasked client other callback (List.mem_cons_of_mem _ hmem), h.bindings, ?_, ?_, ?_⟩
      · intro hcurrent hwindow cycle' reply hcycle hreply
        cases hcycle
        have hold : current = true := by simpa [Field.not_ofPane (.inl hwindow)] using hcurrent
        exact h.windows hold hwindow cycle reply hflight hreply
      · intro _ _ cycle' reply hcycle hreply
        cases hcycle
        cases hreply
        exact htold
      · intro hcurrent hclient cycle' hcycle
        cases hcycle
        have hold : current = true := by simpa [Field.not_ofPane (.inr hclient)] using hcurrent
        exact h.carried hold hclient cycle hflight
  · cases hengine

theorem Sound.clientBinding {queue : List Request} {clientId : String} {boundPanes : List PaneId}
    (h : Sound opts.decode field w) (hqueue : w.queue = .clientBinding clientId :: queue)
    (htold : (field.inBindings clientId boundPanes).all (· = w.held.value) = true) :
    Sound opts.decode field { w with
      queue, pending := w.pending ++ [Continuation.clientBinding clientId boundPanes true] } := by
  obtain ⟨engine, held, _, pending, current⟩ := w
  cases hqueue
  refine ⟨?_, fun client other callback hmem =>
    h.unasked client other callback (List.mem_cons_of_mem _ hmem), ?_, h.windows, h.panes,
    h.carried⟩
  · show Converging _ ((pending ++ [Continuation.clientBinding clientId boundPanes
      true]).filterMap field.takesBack) (queue.filterMap field.waits) _
    rw [List.filterMap_append, List.filterMap_cons_none (rfl : field.takesBack
      (.clientBinding clientId boundPanes true) = none), List.filterMap_nil, List.append_nil]
    exact h.converging
  · intro client panes value hmem hvalue
    rcases List.mem_append.mp hmem with hold | hnew
    · exact h.bindings client panes value hold hvalue
    · cases List.mem_singleton.mp hnew
      rw [hvalue] at htold
      exact of_decide_eq_true htold

theorem Sound.answer (h : Sound opts.decode field w) {result : CommandResult} {inherited : Value}
    (hordered : Ordered opts field w (.answer result inherited))
    (hstep : w.answer opts.decode field result inherited = some w') :
    Sound opts.decode field w' := by
  unfold World.answer at hstep
  split at hstep
  · cases hstep
  · next clientId command onReply queue hqueue =>
    cases hstep
    split
    · next hok =>
      obtain ⟨hrefused, hvalue⟩ := hordered hok (.command clientId command onReply)
        (by rw [hqueue]; rfl)
      exact h.accept hqueue hok hrefused hvalue
    · next hfailed => exact h.refuse hqueue (Bool.not_eq_true _ ▸ hfailed)
  · next queue hqueue =>
    split at hstep
    · next htold =>
      obtain ⟨engine, hengine, rfl⟩ := Option.map_eq_some_iff.mp hstep
      exact h.listWindows hqueue htold hengine
    · cases hstep
  · next queue hqueue =>
    split at hstep
    · next htold =>
      obtain ⟨engine, hengine, rfl⟩ := Option.map_eq_some_iff.mp hstep
      exact h.listPanes hqueue htold hengine
    · cases hstep
  · next clientId queue hqueue =>
    split at hstep
    · dsimp only at hstep
      split at hstep
      · next htold =>
        cases hstep
        exact h.clientBinding hqueue htold
      · cases hstep
    · cases hstep
      obtain ⟨engine, held, _, pending, current⟩ := w
      cases hqueue
      exact ⟨h.converging, fun client other callback hmem =>
        h.unasked client other callback (List.mem_cons_of_mem _ hmem), h.bindings, h.windows,
        h.panes, h.carried⟩

/-- A continuation sets the model only. -/
theorem settle_reply (opts : InputPathOptions) (field : Field) (w : World) (onReply : OnReply)
    (result : CommandResult) :
    ∃ model, w.settle opts (.reply onReply result) = w.setModel model ∧
      field.get model =
        match field.takesBack (.reply onReply result) with
        | some value => (field.get w.engine.model).map fun _ => value
        | none => field.get w.engine.model := by
  have hplain : ∀ {actions : List Action}, (∀ action ∈ actions, Plain action) →
      ∀ w' : World, actions.foldl World.perform w' = w' := fun h _ => perform_plain h
  cases onReply with
  | reversal compensating ack =>
    have hresponses : ∀ (reply : Ack → VerbResult), ∀ action ∈ (ack.toList.map fun a =>
        Action.respond a.correlationId (reply a)), Plain action := by
      intro reply action haction
      obtain ⟨a, -, rfl⟩ := List.mem_map.mp haction
      trivial
    rcases hok : result.ok with _ | _
    · simp only [World.settle, InputPath.handleReply, InputPathOptions.reversalReply, hok,
        Field.takesBack, Bool.false_eq_true, if_false, List.foldl_append, hplain (hresponses _)]
      rcases compensating with _ | event
      · exact ⟨w.engine.model, rfl, rfl⟩
      · exact ⟨_, rfl, get_applySynthetic event field⟩
    · simp only [World.settle, InputPath.handleReply, InputPathOptions.reversalReply, hok,
        Field.takesBack, if_true, hplain (hresponses _)]
      exact ⟨w.engine.model, rfl, rfl⟩
  | _ =>
    refine ⟨w.engine.model, rfl, ?_⟩
    have hnone : ∀ c : Bool, (if c then none else none : Option Value) = none := by decide
    simp only [Field.takesBack, Field.shownAgain, hnone]

/-- What is left of the continuations when one of them runs. -/
theorem filterMap_eraseIdx (field : Field) {n : Nat} {pending : List Continuation}
    {continuation : Continuation} (hget : pending[n]? = some continuation) :
    pending.filterMap field.takesBack = (pending.take n).filterMap field.takesBack ++
        (field.takesBack continuation).toList ++ (pending.drop (n + 1)).filterMap field.takesBack ∧
      (pending.eraseIdx n).filterMap field.takesBack = (pending.take n).filterMap field.takesBack ++
        (pending.drop (n + 1)).filterMap field.takesBack := by
  obtain ⟨hn, hcontinuation⟩ := List.getElem?_eq_some_iff.mp hget
  constructor
  · conv_lhs => rw [← List.take_append_drop n pending, List.drop_eq_getElem_cons hn, hcontinuation]
    rw [List.filterMap_append, List.append_assoc]
    refine congrArg _ ?_
    rcases hback : field.takesBack continuation with _ | value
    · exact List.filterMap_cons_none hback
    · exact List.filterMap_cons_some hback
  · rw [List.eraseIdx_eq_take_drop_succ, List.filterMap_append]

theorem Sound.settled (h : Sound opts.decode field w) {n : Nat} {continuation : Continuation}
    (hget : w.pending[n]? = some continuation) (hordered : Ordered opts field w (.settled n)) :
    Sound opts.decode field
      ({ w with pending := w.pending.eraseIdx n }.settle (wired opts) continuation) := by
  obtain ⟨engine, held, queue, pending, current⟩ := w
  obtain ⟨hbefore, hafter⟩ := filterMap_eraseIdx field hget
  have hinOrder := hordered continuation hget
  have hconverging : Converging held.value (pending.filterMap field.takesBack)
      (queue.filterMap field.waits) (field.get engine.model) := h.converging
  have hbindings : ∀ clientId boundPanes value,
      Continuation.clientBinding clientId boundPanes true ∈ pending.eraseIdx n →
      field.inBindings clientId boundPanes = some value → value = held.value :=
    fun clientId boundPanes value hmem =>
      h.bindings clientId boundPanes value (List.mem_of_mem_eraseIdx hmem)
  rw [hbefore] at hconverging
  rcases continuation with ⟨onReply, result⟩ | ⟨clientId, boundPanes, fresh⟩
  · obtain ⟨model, hsettle, hmodel⟩ := settle_reply (wired opts) field
      ⟨engine, held, queue, pending.eraseIdx n, current⟩ onReply result
    rw [hsettle]
    refine ⟨?_, h.unasked, hbindings, h.windows, h.panes, h.carried⟩
    show Converging held.value ((pending.eraseIdx n).filterMap field.takesBack)
      (queue.filterMap field.waits) (field.get model)
    rw [hmodel, hafter]
    rcases hvalue : field.takesBack (.reply onReply result) with _ | value
    · simpa only [hvalue, Option.toList_none, List.append_nil] using hconverging
    · obtain ⟨hwaiting, hlater⟩ := hinOrder (by simp [hvalue])
      have hwaiting : queue.filterMap field.waits = [] := hwaiting
      have hlater : (pending.drop (n + 1)).filterMap field.takesBack = [] := hlater
      rw [hvalue, hlater, hwaiting, List.append_nil] at hconverging
      rw [hlater, hwaiting, List.append_nil]
      exact hconverging.takeBack
  · refine ⟨?_, h.unasked, hbindings, h.windows, h.panes, h.carried⟩
    show Converging held.value ((pending.eraseIdx n).filterMap field.takesBack)
      (queue.filterMap field.waits)
      (field.get ((reconcileBinding clientId boundPanes engine.model).getD engine.model))
    have hnone : field.takesBack (.clientBinding clientId boundPanes fresh) = none := rfl
    rw [hnone, Option.toList_none, List.append_nil] at hconverging hbefore
    rw [hafter]
    refine hconverging.read fun hrefused hchanged hsome => ?_
    obtain ⟨hwaiting, rfl⟩ := hinOrder (hbefore.trans hrefused) hchanged hsome
    refine ⟨hwaiting, fun u hu => ?_⟩
    rw [get_reconcileBinding] at hu hchanged
    rcases hvalue : field.inBindings clientId boundPanes with _ | value
    · exact absurd (by rw [hvalue]) hchanged
    · rw [hvalue] at hu
      obtain ⟨shown, -, rfl⟩ := Option.map_eq_some_iff.mp hu
      exact h.bindings clientId boundPanes value (List.mem_of_getElem? hget) hvalue

theorem waits_listings (engine : RequeryEngine) :
    ∀ request ∈ listings engine, field.waits request = none := by
  intro request hrequest
  unfold listings at hrequest
  split at hrequest
  · rcases List.mem_cons.mp hrequest with rfl | hlast
    · rfl
    · cases List.mem_singleton.mp hlast
      rfl
  · cases hrequest

theorem not_command_of_listings {engine : RequeryEngine} {clientId : Option String}
    {command : WireCommand} {onReply : OnReply} :
    Request.command clientId command onReply ∉ listings engine := by
  unfold listings
  split <;> simp

/-- A cycle that begins has no reply, and this start. -/
def Begins (engine : RequeryEngine) (startModel : SessionModel) : Prop :=
  ∀ cycle, engine.flight = .cycling cycle →
    cycle.winResult = none ∧ cycle.paneResult = none ∧ cycle.startModel = startModel

theorem begins_beginCycle (engine : RequeryEngine) (startModel : SessionModel) (attempt : Nat)
    (pending : Option (SessionModel × TeardownFractions)) :
    Begins (engine.beginCycle startModel attempt pending) startModel := by
  intro cycle hflight
  cases hflight
  exact ⟨rfl, rfl, rfl⟩

theorem begins_nextCycle (engine : RequeryEngine) (cycle : Cycle)
    (pending : Option (SessionModel × TeardownFractions)) :
    Begins (engine.nextCycle cycle pending) cycle.startModel := by
  unfold RequeryEngine.nextCycle
  split
  · exact begins_beginCycle _ _ _ _
  · intro cycle hflight
    cases hflight

/-- The cycles of a requery have one start. -/
theorem begins_of_resume {decode : Bytes → String} {engine next : RequeryEngine} {cycle : Cycle}
    (hflight : engine.flight = .cycling cycle)
    (h : Requery.step decode engine .resume = some next) : Begins next cycle.startModel := by
  have hsettled : ∀ {engine : RequeryEngine} {outcome : Except RequeryError RequeryResult},
      engine.flight = .settled outcome → Begins engine cycle.startModel := by
    intro engine outcome hflight other hother
    cases hflight.symm.trans hother
  have hlog : cycle.startModel = (⟨cycle.startModel, []⟩ : Requery.Log).start := rfl
  rcases Requery.resumed_of_step hflight hlog h with
    ⟨err, -⟩ | - | ⟨err, -⟩ | ⟨sessionId, -⟩ | ⟨sessionId, candidate, -⟩
  · exact hsettled rfl
  · exact hsettled rfl
  · exact hsettled rfl
  · exact begins_nextCycle _ cycle none
  · unfold RequeryEngine.decideClean
    dsimp only
    split
    · split
      · exact begins_nextCycle _ cycle _
      · exact hsettled rfl
    · split
      · exact hsettled rfl
      · exact hsettled rfl

/-- Another engine, with no reply in it. -/
theorem Sound.withEngine (h : Sound opts.decode field w) {engine : RequeryEngine}
    {startModel : SessionModel} {current : Bool}
    (hmodel : Converging w.held.value (w.refused field) (w.waiting field) (field.get engine.model))
    (hbegins : Begins engine startModel)
    (hcarried : current = true → field.ofClient = true →
      Agrees (field.get startModel) w.held.value) :
    Sound opts.decode field { w with engine, current } where
  converging := hmodel
  unasked := h.unasked
  bindings := h.bindings
  windows _ _ cycle result hflight hreply := by
    cases (hbegins cycle hflight).1.symm.trans hreply
  panes _ _ cycle result hflight hreply := by
    cases (hbegins cycle hflight).2.1.symm.trans hreply
  carried hcurrent hclient cycle hflight := by
    rw [(hbegins cycle hflight).2.2]
    exact hcarried hcurrent hclient

/-- What a requery puts in place of the model is what tmux shows, if it is current. -/
theorem Sound.committed (h : Sound opts.decode field w) (hcurrent : w.current = true)
    (hfound : w.foundUnbound field = true) {engine : RequeryEngine}
    (hengine : Requery.step opts.decode w.engine .resume = some engine)
    (hchanged : field.get engine.model ≠ field.get w.engine.model) :
    Agrees (field.get engine.model) w.held.value := by
  intro u hu
  rcases commit_of_resume hengine with hsame | ⟨cycle, winResult, paneResult, windowRows,
    paneRows, hflight, hwin, hwinOk, hwindows, hpane, hpaneOk, hpanes, hcommitted⟩
  · exact absurd (by rw [hsame]) hchanged
  rw [hcommitted] at hu
  rcases hclient : field.ofClient with _ | _
  · rcases listed_of_candidate hclient hu with ⟨row, hrow, hvalue⟩ | ⟨row, hrow, hvalue⟩
    · have hwindow : field.ofWindow = true := by
        cases field <;> first | rfl | cases hvalue
      have htold := h.windows hcurrent hwindow cycle winResult hflight hwin
      simp only [Field.toldByWindows, hwinOk, hwindows, Bool.not_true, Bool.false_or] at htold
      have hrowTold := List.all_eq_true.mp htold row hrow
      rw [hvalue] at hrowTold
      exact of_decide_eq_true hrowTold
    · have hpaneField : field.ofPane = true := by
        cases field <;> first | rfl | cases hvalue
      have htold := h.panes hcurrent hpaneField cycle paneResult hflight hpane
      simp only [Field.toldByPanes, hpaneOk, hpanes, Bool.not_true, Bool.false_or] at htold
      have hrowTold := List.all_eq_true.mp htold row hrow
      rw [hvalue] at hrowTold
      exact of_decide_eq_true hrowTold
  · rcases carried_of_candidate hclient hu with hstart | ⟨hnew, rfl⟩
    · exact h.carried hcurrent hclient cycle hflight u hstart
    · simp only [World.foundUnbound, hflight, hclient, hnew, Bool.not_true, Option.isSome_none,
        Bool.false_or] at hfound
      exact (of_decide_eq_true hfound).symm

theorem Sound.resume (h : Sound opts.decode field w) (hordered : Ordered opts field w .resume)
    {engine : RequeryEngine} (hengine : Requery.step opts.decode w.engine .resume = some engine) :
    Sound opts.decode field { w with engine, queue := w.queue ++ listings engine } := by
  obtain ⟨hread, hfound⟩ := hordered engine hengine
  obtain ⟨cycle, hflight⟩ : ∃ cycle, w.engine.flight = .cycling cycle := by
    rcases hflight : w.engine.flight with _ | cycle | outcome
    · simp [Requery.step, hflight] at hengine
    · exact ⟨cycle, rfl⟩
    · simp [Requery.step, hflight] at hengine
  have hmodel : Converging w.held.value (w.refused field) (w.waiting field)
      (field.get engine.model) := by
    refine h.converging.read fun hrefused hchanged hsome => ?_
    obtain ⟨hwaiting, hcurrent⟩ := hread hrefused hchanged hsome
    exact ⟨hwaiting, h.committed hcurrent hfound hengine hchanged⟩
  have hresumed := h.withEngine hmodel (begins_of_resume hflight hengine)
    fun hcurrent hclient => h.carried hcurrent hclient cycle hflight
  exact hresumed.enqueue (waits_listings engine) fun _ _ _ hmem =>
    absurd hmem not_command_of_listings

/-- With no write of it out, the model shows what tmux does. -/
theorem Sound.agrees (h : Sound opts.decode field w) (hfree : w.free field = true) :
    Agrees (field.get w.engine.model) w.held.value := by
  have hconverging := h.converging
  rw [World.free, Bool.and_eq_true, List.isEmpty_iff, List.isEmpty_iff] at hfree
  rw [hfree.1, hfree.2] at hconverging
  exact hconverging.agrees

theorem Sound.requery (h : Sound opts.decode field w) (hidle : w.engine.flight = .idle) :
    Sound opts.decode field { w with
      engine := w.engine.requery
      queue := w.queue ++ listings w.engine.requery
      current := if field.ofClient then w.free field else w.current } := by
  have hbegin : w.engine.requery = w.engine.beginCycle w.engine.model 0 none := by
    simp only [RequeryEngine.requery, hidle]
  rw [hbegin]
  have hbegun : Sound opts.decode field { w with
      engine := w.engine.beginCycle w.engine.model 0 none
      current := if field.ofClient then w.free field else w.current } := by
    refine h.withEngine h.converging (begins_beginCycle _ _ _ _) fun hcurrent hclient => ?_
    rw [hclient, if_pos rfl] at hcurrent
    exact h.agrees hcurrent
  exact hbegun.enqueue (waits_listings _) fun _ _ _ hmem => absurd hmem not_command_of_listings

theorem Sound.after (h : Sound opts.decode field w) {event : Event}
    (hordered : Ordered opts field w event) (hstep : step opts field w event = some w') :
    Sound opts.decode field w' := by
  cases event with
  | message respond clientId correlationId command =>
    simp only [step] at hstep
    split at hstep
    · cases hstep
      exact h
    · next actions hactions =>
      cases hstep
      exact h.message hactions
  | bind clientId =>
    simp only [step] at hstep
    split at hstep
    · cases hstep
      exact h
    · cases hstep
      refine h.enqueue (fun request hrequest => ?_) fun _ _ _ hmem => ?_
      · cases List.mem_singleton.mp hrequest
        rfl
      · cases List.mem_singleton.mp hmem
  | answer result inherited => exact h.answer hordered hstep
  | settled n =>
    simp only [step] at hstep
    split at hstep
    · cases hstep
    · next continuation hget =>
      cases hstep
      exact h.settled hget hordered
  | requery =>
    simp only [step] at hstep
    split at hstep
    · next hidle =>
      cases hstep
      exact h.requery hidle
    · cases hstep
      exact h
  | markDirty =>
    cases hstep
    exact ⟨h.converging, h.unasked, h.bindings, h.windows, h.panes, h.carried⟩
  | resume =>
    obtain ⟨engine, hengine, rfl⟩ := Option.map_eq_some_iff.mp hstep
    exact h.resume hordered hengine
  | release =>
    obtain ⟨engine, hengine, rfl⟩ := Option.map_eq_some_iff.mp hstep
    simp only [Requery.step] at hengine
    split at hengine <;> cases hengine
    refine ⟨h.converging, h.unasked, h.bindings, ?_, ?_, ?_⟩
    · intro _ _ _ _ hflight
      cases hflight
    · intro _ _ _ _ hflight
      cases hflight
    · intro _ _ _ hflight
      cases hflight

end Sound

/-! ## Runs -/

/-- Nothing is out, and the model shows what tmux does. -/
structure Quiet (field : Field) (w : World) : Prop where
  queue : w.queue = []
  pending : w.pending = []
  flight : w.engine.flight = .idle
  agrees : Agrees (field.get w.engine.model) w.held.value

theorem Quiet.sound {decode : Bytes → String} {field : Field} {w : World} (h : Quiet field w) :
    Sound decode field w where
  converging := by
    unfold World.refused World.waiting
    rw [h.queue, h.pending]
    exact h.agrees
  unasked _ _ _ hmem := by
    rw [h.queue] at hmem
    cases hmem
  bindings _ _ _ hmem := by
    rw [h.pending] at hmem
    cases hmem
  windows _ _ _ _ hflight := by cases h.flight.symm.trans hflight
  panes _ _ _ _ hflight := by cases h.flight.symm.trans hflight
  carried _ _ _ hflight := by cases h.flight.symm.trans hflight

theorem Quiet.after {opts : InputPathOptions} {field : Field} {w w' : World} {events : List Event}
    (h : Quiet field w) (hordered : Along (step opts field) (Ordered opts field) w events)
    (hrun : exec (step opts field) w events = some w') : Sound opts.decode field w' :=
  exec_invariant (P := Sound opts.decode field)
    (fun _ _ _ h hordered hstep => h.after hordered hstep) h.sound hordered hrun

/-- In every state of a run whose events come in order, the model shows what tmux does, unless a
write of the option is out. -/
theorem option_shown (opts : InputPathOptions) (field : Field) (w : World)
    (hquiet : Quiet field w) (events : List Event)
    (hordered : Along (step opts field) (Ordered opts field) w events) :
    ∀ done w', done <+: events → exec (step opts field) w done = some w' → w'.free field = true →
      Agrees (field.get w'.engine.model) w'.held.value := by
  rintro done w' ⟨rest, rfl⟩ hrun hfree
  exact (hquiet.after ((along_append _).mp hordered).1 hrun).agrees hfree

/-! ## What tmux accepted -/

/-- What tmux stores when it accepts the first command that waits. -/
def acceptedBy (field : Field) (w : World) : Event → Option (Option Value)
  | .answer result _ =>
    match w.queue with
    | .command clientId command _ :: _ =>
      if result.ok then field.stored clientId command else none
    | _ => none
  | _ => none

/-- What the commands of a run stored that tmux accepted, in the order of the stream. -/
def accepted (opts : InputPathOptions) (field : Field) : World → List Event → List (Option Value)
  | _, [] => []
  | w, event :: events =>
    (acceptedBy field w event).toList ++
      match step opts field w event with
      | none => []
      | some w' => accepted opts field w' events

section Accepted

variable {opts : InputPathOptions} {field : Field} {w w' : World}

theorem held_perform (actions : List Action) (w : World) :
    (actions.foldl World.perform w).held = w.held :=
  foldl_keeps (P := fun w' : World => w'.held = w.held) rfl fun action w' _ hheld => by
    cases action <;> exact hheld

theorem held_settle (continuation : Continuation) :
    (w.settle opts continuation).held = w.held := by
  cases continuation with
  | reply onReply result => exact held_perform _ w
  | clientBinding clientId boundPanes current => rfl

theorem own_accept (clientId : Option String) (command : WireCommand) (inherited : Value) :
    (w.accept field clientId command inherited).held.own =
      (field.stored clientId command).getD w.held.own := by
  unfold World.accept
  dsimp only
  split <;> rfl

/-- Only a command that tmux accepts changes what it has of its own. -/
theorem own_of_step {event : Event} (hstep : step opts field w event = some w') :
    w'.held.own = (acceptedBy field w event).getD w.held.own := by
  cases event with
  | message respond clientId correlationId command =>
    simp only [step] at hstep
    split at hstep
    · cases hstep
      rfl
    · cases hstep
      exact congrArg Held.own (held_perform _ _)
  | bind clientId =>
    simp only [step] at hstep
    split at hstep <;> cases hstep <;> rfl
  | answer result inherited =>
    simp only [step, World.answer] at hstep
    unfold acceptedBy
    split at hstep
    · cases hstep
    · next clientId command onReply queue hqueue =>
      cases hstep
      dsimp only
      rw [hqueue]
      dsimp only
      split
      · exact own_accept clientId command inherited
      · rfl
    · next queue hqueue =>
      rw [hqueue]
      split at hstep
      · obtain ⟨engine, -, rfl⟩ := Option.map_eq_some_iff.mp hstep
        rfl
      · cases hstep
    · next queue hqueue =>
      rw [hqueue]
      split at hstep
      · obtain ⟨engine, -, rfl⟩ := Option.map_eq_some_iff.mp hstep
        rfl
      · cases hstep
    · next clientId queue hqueue =>
      rw [hqueue]
      split at hstep
      · split at hstep <;> cases hstep
        rfl
      · cases hstep
        rfl
  | settled n =>
    simp only [step] at hstep
    split at hstep <;> cases hstep
    exact congrArg Held.own (held_settle _)
  | requery =>
    simp only [step] at hstep
    split at hstep <;> cases hstep <;> rfl
  | markDirty =>
    cases hstep
    rfl
  | resume | release =>
    obtain ⟨engine, -, rfl⟩ := Option.map_eq_some_iff.mp hstep
    rfl

/-- tmux has what the last command stored that it accepted. -/
theorem own_of_run {events : List Event} (hrun : exec (step opts field) w events = some w') :
    w'.held.own = (accepted opts field w events).getLast?.getD w.held.own := by
  induction events generalizing w with
  | nil =>
    cases hrun
    rfl
  | cons event events ih =>
    obtain ⟨next, hstep, hrest⟩ := Option.bind_eq_some_iff.mp hrun
    rw [ih hrest, own_of_step hstep, accepted, hstep, List.getLast?_append]
    rcases acceptedBy field w event with _ | stored
    · rw [Option.toList_none, List.getLast?_nil, Option.or_none]
      rfl
    · rcases (accepted opts field next events).getLast? with _ | last <;> rfl

end Accepted

/-- In a run whose events come in order, the model shows what tmux does whenever every command is
answered and every continuation has run, and that is what the last command stored that tmux
accepted. -/
theorem option_settles (opts : InputPathOptions) (field : Field) (w : World)
    (hquiet : Quiet field w) (events : List Event)
    (hordered : Along (step opts field) (Ordered opts field) w events) :
    ∀ done w', done <+: events → exec (step opts field) w done = some w' → w'.queue = [] →
      w'.pending = [] →
        Agrees (field.get w'.engine.model) w'.held.value ∧
          w'.held.own = (accepted opts field w done).getLast?.getD w.held.own := by
  rintro done w' ⟨rest, rfl⟩ hrun hqueue hpending
  refine ⟨?_, own_of_run hrun⟩
  refine (hquiet.after ((along_append _).mp hordered).1 hrun).agrees ?_
  unfold World.free World.refused World.waiting
  rw [hqueue, hpending]
  rfl

/-- monitor-activity of the window `w0`, which is on. -/
def sampleWorld : World where
  engine := createRequeryEngine { initialModel := some Requery.synchronizedSample }
  held := ⟨some (.flag true), .flag false⟩
  queue := []
  pending := []
  current := true

/-- It is switched off and on again, and tmux refuses both, which are taken back, the last one
first. A requery lists the window, which is then switched off once more, and tmux accepts that. -/
def refusedWrites : List Event :=
  [.message true (some "client") "c1" (.setMonitorActivity ⟨"w0"⟩ false),
    .message true (some "other") "c1" (.setMonitorActivity ⟨"w0"⟩ true),
    .answer ⟨false, 1, []⟩ (.flag false), .answer ⟨false, 2, []⟩ (.flag false), .settled 1,
    .settled 0, .requery,
    .answer ⟨true, 3, ascii "$0\tmain\t@0\tsh\tb25d,80x24,0,0,0\t1\t0\t1\t0"⟩ (.flag false),
    .answer ⟨true, 4, ascii "%0\t@0\t$0\t80\t24\t1\t\t0\t\t\t\t\t"⟩ (.flag false), .resume,
    .release, .message true (some "client") "c2" (.setMonitorActivity ⟨"w0"⟩ false),
    .answer ⟨true, 5, []⟩ (.flag false), .settled 0]

def sampleOptions : InputPathOptions where
  paneIdToTmux := defaultPaneIdToTmux
  windowIdToTmux := defaultWindowIdToTmux
  dispatchSynthetic := true
  reportForPane := false
  sha1 := id
  decode := fromCharCodes

theorem quiet_sampleWorld : Quiet (.monitorActivity ⟨"w0"⟩) sampleWorld := by
  refine ⟨rfl, rfl, rfl, fun u hu => ?_⟩
  cases hu
  rfl

theorem ordered_refusedWrites : Along (step sampleOptions (.monitorActivity ⟨"w0"⟩))
    (Ordered sampleOptions (.monitorActivity ⟨"w0"⟩)) sampleWorld refusedWrites := by
  decide +kernel

/-- Both refused writes are taken back, and the requery is out. -/
theorem option_shown_refusedWrites :
    ∃ w, exec (step sampleOptions (.monitorActivity ⟨"w0"⟩)) sampleWorld (refusedWrites.take 8) =
        some w ∧
      w.queue.length = 1 ∧
      Agrees (Field.get w.engine.model (.monitorActivity ⟨"w0"⟩)) w.held.value := by
  have hends : (exec (step sampleOptions (.monitorActivity ⟨"w0"⟩)) sampleWorld
      (refusedWrites.take 8)).any (fun w =>
        w.queue.length == 1 && w.free (.monitorActivity ⟨"w0"⟩)) = true := by decide +kernel
  obtain ⟨w, hrun, hend⟩ := (Option.any_eq_true _ _).mp hends
  rw [Bool.and_eq_true, beq_iff_eq] at hend
  exact ⟨w, hrun, hend.1, option_shown sampleOptions _ sampleWorld quiet_sampleWorld refusedWrites
    ordered_refusedWrites (refusedWrites.take 8) w (List.take_prefix 8 _) hrun hend.2⟩

theorem option_settles_refusedWrites :
    ∃ w, exec (step sampleOptions (.monitorActivity ⟨"w0"⟩)) sampleWorld refusedWrites = some w ∧
      w.queue = [] ∧ w.pending = [] ∧
      Agrees (Field.get w.engine.model (.monitorActivity ⟨"w0"⟩)) w.held.value ∧
      w.held.own = some (.flag false) := by
  have hends : (exec (step sampleOptions (.monitorActivity ⟨"w0"⟩)) sampleWorld refusedWrites).any
      (fun w => w.queue.isEmpty && w.pending.isEmpty) = true := by decide +kernel
  obtain ⟨w, hrun, hend⟩ := (Option.any_eq_true _ _).mp hends
  rw [Bool.and_eq_true, List.isEmpty_iff, List.isEmpty_iff] at hend
  obtain ⟨hagrees, hown⟩ := option_settles sampleOptions _ sampleWorld quiet_sampleWorld
    refusedWrites ordered_refusedWrites refusedWrites w List.prefix_rfl hrun hend.1 hend.2
  have hlast : (accepted sampleOptions (.monitorActivity ⟨"w0"⟩) sampleWorld
      refusedWrites).getLast?.getD sampleWorld.held.own = some (.flag false) := by decide +kernel
  exact ⟨w, hrun, hend.1, hend.2, hagrees, hown.trans hlast⟩

/-- A requery lists the window, and then a client switches monitor-activity off. tmux accepts that,
and the requery commits what was listed before. -/
def listedBeforeWrite : List Event :=
  [.requery,
    .answer ⟨true, 1, ascii "$0\tmain\t@0\tsh\tb25d,80x24,0,0,0\t1\t0\t1\t0"⟩ (.flag false),
    .message true (some "client") "c1" (.setMonitorActivity ⟨"w0"⟩ false),
    .answer ⟨true, 2, ascii "%0\t@0\t$0\t80\t24\t1\t\t0\t\t\t\t\t"⟩ (.flag false),
    .answer ⟨true, 3, []⟩ (.flag false), .resume, .release, .settled 0]

/-- Every reply is in, and the model shows the option on that tmux has off. -/
theorem write_overwritten :
    ∃ w, exec (step sampleOptions (.monitorActivity ⟨"w0"⟩)) sampleWorld listedBeforeWrite =
        some w ∧
      w.queue = [] ∧ w.pending = [] ∧ w.held.value = .flag false ∧
      Field.get w.engine.model (.monitorActivity ⟨"w0"⟩) = some (.flag true) := by
  have hends : (exec (step sampleOptions (.monitorActivity ⟨"w0"⟩)) sampleWorld
      listedBeforeWrite).any (fun w => w.queue.isEmpty && w.pending.isEmpty &&
        decide (w.held.value = .flag false) &&
        decide (Field.get w.engine.model (.monitorActivity ⟨"w0"⟩) = some (.flag true))) =
      true := by decide +kernel
  obtain ⟨w, hrun, hend⟩ := (Option.any_eq_true _ _).mp hends
  simp only [Bool.and_eq_true, List.isEmpty_iff, decide_eq_true_iff] at hend
  obtain ⟨⟨⟨hqueue, hpending⟩, hvalue⟩, hshown⟩ := hend
  exact ⟨w, hrun, hqueue, hpending, hvalue, hshown⟩

end TmuxccDriver.Runtime.OptionStream
