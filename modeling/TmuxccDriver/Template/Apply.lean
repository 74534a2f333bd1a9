import Mathlib.Data.List.ModifyLast
import TmuxccDriver.Lib.Program
import TmuxccDriver.Parser.Commands
import TmuxccDriver.Template.Freeze

/-!
# Applying a template

`template/apply.ts`: a compiled template is created in a session by one tmux command after the
other. tmux is an argument: a state, and what it makes of a command. A reply is its decoded text,
and an id is its number.

The commands that were sent, with their replies, are kept beside the state of the code.

Results:
1. `minted_concat`, `mint_not_answered`: what the exchanges say that tmux has created.
2. `going_applyWindow`: what one window keeps.
3. `applyCompiledTemplate_reports`: what has been created and reported when the application ends,
and which window it kills, whatever tmux replies.
-/

namespace TmuxccDriver.Template
open TmuxccDriver.Lib TmuxccDriver.Parser

/-! ## Commands and replies -/

structure CommandResult where
  ok : Bool
  body : String
deriving DecidableEq

def TEMPLATE_SESSION_OPTION : String := "@tmuxcc-template"

/-- The commands of an application, by the function that writes their text. -/
inductive TmuxCommand
  | listWindowIds
  | setTemplateOption (sessionName templateName : String)
  | newWindow (opts : NewWindowOptions)
  | splitWindow (paneNum : Nat) (orientation : Protocol.SplitDirection) (opts : SplitWindowOptions)
  | displayWindowSize (paneNum : Nat)
  | selectLayout (windowNum : Nat) (layoutString : List Char)
  | killWindow (windowNum : Nat)

def WINDOW_SIZE_FORMAT : String := "#\x7bwindow_width\x7dx#\x7bwindow_height\x7d"

def TmuxCommand.text : TmuxCommand → String
  | .listWindowIds => "list-windows -F " ++ singleQuoted "#\x7bwindow_id\x7d"
  | .setTemplateOption sessionName templateName =>
    setOptionForSession sessionName TEMPLATE_SESSION_OPTION templateName
  | .newWindow opts => Parser.newWindow opts
  | .splitWindow paneNum orientation opts => Parser.splitWindow (some paneNum) orientation opts
  | .displayWindowSize paneNum =>
    "display-message -p -t %" ++ paneNum.repr ++ " -F " ++ singleQuoted WINDOW_SIZE_FORMAT
  | .selectLayout windowNum layoutString =>
    "select-layout -t @" ++ windowNum.repr ++ " " ++ singleQuoted (String.ofList layoutString)
  | .killWindow windowNum => "kill-window -t @" ++ windowNum.repr

/-- A command that was sent, and the reply. -/
structure Exchange where
  command : TmuxCommand
  result : CommandResult

/-! ## Reading replies -/

def tmuxText (result : CommandResult) : List Char := trim result.body.toList

def firstLine (s : List Char) : Option (List Char) := ((s.splitOn '\n').map trim).find? (· ≠ [])

/-- `/^(\d+)$/`. -/
def digitsNum (digits : List Char) : Option Nat :=
  if digits ≠ [] ∧ digits.all Char.isDigit then some (natOfDigits digits) else none

/-- `/^[@%$](\d+)$/`. -/
def tmuxNum (id : List Char) : Option Nat :=
  match trim id with
  | sigil :: digits => if ['@', '%', '$'].contains sigil then digitsNum digits else none
  | [] => none

/-- `/^(\d+)x(\d+)$/`. -/
def parseDims (s : List Char) : Option (Nat × Nat) :=
  match (trim s).span (· ≠ 'x') with
  | (cols, 'x' :: rows) => do
    let cols ← digitsNum cols
    let rows ← digitsNum rows
    return (cols, rows)
  | _ => none

example : parseDims "200x50\n".toList = some (200, 50) := by decide

/-! ## The applicator -/

structure AppliedWindow where
  windowNum : Nat
  paneNums : List Nat
  name : Option String
deriving DecidableEq

structure TemplateApplyError where
  failedVerb : String
  failedCommand : String
  tmuxMessage : String
  created : List AppliedWindow

/-- What an application throws; the `TypeError` is one of `serializeGeometry`. -/
inductive ApplyError
  | template (error : TemplateApplyError)
  | typeError

/-- The state of tmux, the commands so far, and the array `created`. -/
structure Applicator (σ : Type) where
  tmux : σ
  log : List Exchange := []
  created : List AppliedWindow := []

abbrev Apply (σ : Type) := Program (Applicator σ) ApplyError

/-- What `serializeGeometry` comes to where its sizes are not whole: a text with `Infinity` or
`NaN` among its numbers, or none if it throws. -/
abbrev Spoiled := TemplateNode → Nat → Nat → Option (List Char)

def layoutText (spoiled : Spoiled) (geometry : TemplateNode) (cols rows : Nat) :
    Option (List Char) :=
  (serializeGeometry geometry cols rows).or (spoiled geometry cols rows)

section Applicator

variable {σ α : Type} (tmuxExec : σ → TmuxCommand → CommandResult × σ)
  (jsonStringify : String → String) (spoiled : Spoiled)

def send (command : TmuxCommand) : Apply σ CommandResult := fun s =>
  let (result, tmux) := tmuxExec s.tmux command
  (.ok result, { s with tmux, log := s.log ++ [⟨command, result⟩] })

/-- A `TemplateApplyError` with `outcome()`. -/
def fail (failedVerb failedCommand tmuxMessage : String) : Apply σ α := do
  let s ← Program.get
  Program.stop (.template ⟨failedVerb, failedCommand, tmuxMessage, s.created⟩)

/-- The error for a command that is refused. -/
def refuse (verb : String) (command : TmuxCommand) (result : CommandResult) : Apply σ α :=
  let text := String.ofList (tmuxText result)
  fail verb command.text (if text = "" then "tmux rejected " ++ verb else text)

def run (verb : String) (command : TmuxCommand) : Apply σ Unit := do
  let result ← send tmuxExec command
  if result.ok then pure () else refuse verb command result

def runCreating (verb : String) (command : TmuxCommand) : Apply σ EffectIds := do
  let result ← send tmuxExec command
  if result.ok then
    match parseEffectIds result.body with
    | some ids => pure ids
    | none => fail verb command.text (verb ++
        " succeeded but its -P -F effect-id reply was unparseable: " ++ jsonStringify result.body)
  else refuse verb command result

def query (verb : String) (command : TmuxCommand) : Apply σ (List Char) := do
  let result ← send tmuxExec command
  if result.ok then pure (tmuxText result) else refuse verb command result

/-- The options of `new-window` for the first pane. -/
def newWindowOpts (window : CompiledWindow) (pane : CompiledPane) : NewWindowOptions :=
  { name := window.name
    shellCommand := pane.shellCommand
    startDirectory := pane.cwd
    printIds := true
    env := pane.env }

def splitWindowOpts (pane : CompiledPane) : SplitWindowOptions :=
  { shellCommand := pane.shellCommand
    startDirectory := pane.cwd
    percent := none
    printIds := true
    env := pane.env }

/-- `created.push` of a window with its first pane. -/
def pushWindow (ids : EffectIds) (name : Option String) (s : Applicator σ) : Applicator σ :=
  { s with created := s.created ++ [⟨ids.windowNum, [ids.paneNum], name⟩] }

/-- `paneIds.push`: the list is that of the last window of `created`. -/
def pushPane (paneNum : Nat) (s : Applicator σ) : Applicator σ :=
  { s with
    created := s.created.modifyLast fun window =>
      { window with paneNums := window.paneNums ++ [paneNum] } }

/-- The loop over the panes after the first. -/
def splitPanes (lastPaneNum : Nat) : List CompiledPane → Apply σ Unit
  | [] => pure ()
  | pane :: rest => do
    let ids ← runCreating tmuxExec jsonStringify "split-pane"
      (.splitWindow lastPaneNum .horizontal (splitWindowOpts pane))
    Program.modify (pushPane ids.paneNum)
    splitPanes ids.paneNum rest

/-- The part of `applyWindow` for a window with a geometry. -/
def layOut (firstIds : EffectIds) (geometry : TemplateNode) : Apply σ Unit := do
  let dims ← query tmuxExec "display-message" (.displayWindowSize firstIds.paneNum)
  match parseDims dims with
  | none =>
    fail "select-layout"
      ("display-message …" ++ WINDOW_SIZE_FORMAT ++ " (@" ++ firstIds.windowNum.repr ++ ")")
      ("could not read window size for select-layout (got " ++
        jsonStringify (String.ofList dims) ++ ")")
  | some (cols, rows) =>
    match layoutText spoiled geometry cols rows with
    | none => Program.stop .typeError
    | some layoutString =>
      run tmuxExec "select-layout" (.selectLayout firstIds.windowNum layoutString)

def applyWindow (window : CompiledWindow) : Apply σ Unit :=
  match window.panes with
  -- A compiled window always has a pane.
  | [] => pure ()
  | first :: rest => do
    let firstIds ← runCreating tmuxExec jsonStringify "open-window"
      (.newWindow (newWindowOpts window first))
    Program.modify (pushWindow firstIds window.name)
    splitPanes tmuxExec jsonStringify firstIds.paneNum rest
    match window.geometry with
    | none => pure ()
    | some geometry => layOut tmuxExec jsonStringify spoiled firstIds geometry

/-- The throwaway window, asked for before any window is created. -/
def identifyInitialWindow (killInitialWindow : Bool) : Apply σ (Option (List Char)) :=
  if killInitialWindow then do
    let initialWindowNum ← query tmuxExec "list-windows" .listWindowIds
    return firstLine initialWindowNum
  else pure none

def recordTemplate (plan : CompiledTemplate) (sessionName : String) : Apply σ Unit :=
  match plan.templateName with
  | none => pure ()
  | some templateName =>
    run tmuxExec "set-option @tmuxcc-template" (.setTemplateOption sessionName templateName)

def killInitial (initialWindowId : Option (List Char)) : Apply σ Unit :=
  match initialWindowId.bind tmuxNum with
  | none => pure ()
  | some num => run tmuxExec "kill-window" (.killWindow num)

def applyCompiledTemplate (plan : CompiledTemplate) (sessionName : String)
    (killInitialWindow : Bool) : Apply σ (List AppliedWindow) := do
  let initialWindowId ← identifyInitialWindow tmuxExec killInitialWindow
  recordTemplate tmuxExec plan sessionName
  Program.forEach plan.windows (applyWindow tmuxExec jsonStringify spoiled)
  killInitial tmuxExec initialWindowId
  let s ← Program.get
  return s.created

end Applicator

/-! ## What the exchanges say -/

def Exchange.ids (exchange : Exchange) : Option EffectIds := parseEffectIds exchange.result.body

/-- The command is accepted, with a reply that can be read. -/
def Exchange.Answered (exchange : Exchange) : Prop :=
  exchange.result.ok = true ∧
    match exchange.command with
    | .newWindow _ | .splitWindow _ _ _ => exchange.ids.isSome = true
    | .displayWindowSize _ => (parseDims (tmuxText exchange.result)).isSome = true
    | _ => True

/-- The windows and panes minted by one more exchange. -/
def mint (windows : List AppliedWindow) (exchange : Exchange) : List AppliedWindow :=
  match exchange.command, exchange.result.ok, exchange.ids with
  | .newWindow opts, true, some ids => windows ++ [⟨ids.windowNum, [ids.paneNum], opts.name⟩]
  | .splitWindow _ _ _, true, some ids =>
    windows.modifyLast fun window => { window with paneNums := window.paneNums ++ [ids.paneNum] }
  | _, _, _ => windows

/-- The windows and panes that tmux has minted for the commands. -/
def minted (log : List Exchange) : List AppliedWindow := log.foldl mint []

theorem minted_concat (log : List Exchange) (exchange : Exchange) :
    minted (log ++ [exchange]) = mint (minted log) exchange := by
  rw [minted, List.foldl_append]
  rfl

theorem mint_not_answered {exchange : Exchange} (h : ¬exchange.Answered)
    (windows : List AppliedWindow) : mint windows exchange = windows := by
  unfold mint
  split
  · next hcommand hok hids =>
    exact absurd ⟨hok, by rw [hcommand]; exact Option.isSome_of_mem hids⟩ h
  · next hcommand hok hids =>
    exact absurd ⟨hok, by rw [hcommand]; exact Option.isSome_of_mem hids⟩ h
  · rfl

/-- The window that a command kills. -/
def TmuxCommand.target : TmuxCommand → Option Nat
  | .killWindow windowNum => some windowNum
  | _ => none

/-- The name and the number of panes of a window. -/
def AppliedWindow.shape (window : AppliedWindow) : Option String × Nat :=
  (window.name, window.paneNums.length)

def CompiledWindow.shape (window : CompiledWindow) : Option String × Nat :=
  (window.name, window.panes.length)

/-- `num` is the window that tmux listed first when it was asked first. -/
def Initial (num : Nat) (log : List Exchange) : Prop :=
  ∃ reply, log.head? = some ⟨.listWindowIds, reply⟩ ∧
    (firstLine (tmuxText reply)).bind tmuxNum = some num

/-- What is reported of the exchanges: a refusal is the last one, with what has been minted; a
`TypeError` comes of none. -/
def ApplyError.Of (e : ApplyError) (log : List Exchange) : Prop :=
  match e with
  | .template e => (∃ exchange ∈ log.getLast?, ¬exchange.Answered) ∧ e.created = minted log
  | .typeError => ∀ exchange ∈ log, exchange.Answered

/-- What is created, reported and killed by an application that ends with the result. -/
structure Reports (plan : CompiledTemplate) (killInitialWindow : Bool) (log : List Exchange)
    (result : Except ApplyError (List AppliedWindow)) : Prop where
  /-- Nothing is sent after a refusal. -/
  stops : ∀ exchange ∈ log.dropLast, exchange.Answered
  created : match result with
    | .ok windows => (∀ exchange ∈ log, exchange.Answered) ∧ windows = minted log ∧
        (minted log).map AppliedWindow.shape = plan.windows.map CompiledWindow.shape
    | .error e => e.Of log
  kills : ∀ before exchange after, log = before ++ exchange :: after →
    ∀ num ∈ exchange.command.target, killInitialWindow = true ∧ after = [] ∧ Initial num before ∧
      (minted before).map AppliedWindow.shape = plan.windows.map CompiledWindow.shape

/-! ## With any tmux -/

/-- While the application goes on: everything was answered, nothing was killed, the windows of
the shapes are created, and the initial window was asked for if it is to be killed. -/
structure Going (killInitialWindow : Bool) (initialWindowId : Option (List Char))
    (shapes : List (Option String × Nat)) {σ : Type} (s : Applicator σ) : Prop where
  answered : ∀ exchange ∈ s.log, exchange.Answered
  spares : ∀ exchange ∈ s.log, exchange.command.target = none
  created : s.created = minted s.log
  shapes : s.created.map AppliedWindow.shape = shapes
  listed : ∀ id ∈ initialWindowId, killInitialWindow = true ∧
    ∃ reply, s.log.head? = some ⟨.listWindowIds, reply⟩ ∧ firstLine (tmuxText reply) = some id

/-- The application has stopped at a command that kills nothing. -/
structure Failed (e : ApplyError) (log : List Exchange) : Prop where
  stops : ∀ exchange ∈ log.dropLast, exchange.Answered
  spares : ∀ exchange ∈ log, exchange.command.target = none
  created : e.Of log

theorem Failed.reports {e : ApplyError} {log : List Exchange} (h : Failed e log)
    (plan : CompiledTemplate) (killInitialWindow : Bool) :
    Reports plan killInitialWindow log (.error e) where
  stops := h.stops
  created := h.created
  kills := by
    rintro before exchange after hlog num hnum
    rw [h.spares exchange (by simp [hlog])] at hnum
    cases hnum

section Going

variable {σ : Type} {tmuxExec : σ → TmuxCommand → CommandResult × σ}
  {jsonStringify : String → String} {spoiled : Spoiled} {killInitialWindow : Bool}
  {initialWindowId : Option (List Char)} {shapes : List (Option String × Nat)}

/-- What a command that is sent leaves: tmux may do anything. -/
def Sent (s : Applicator σ) (command : TmuxCommand) (result : CommandResult) (t : Applicator σ) :
    Prop :=
  t.log = s.log ++ [⟨command, result⟩] ∧ t.created = s.created

theorem send_spec (s : Applicator σ) (command : TmuxCommand) :
    Program.Triple (· = s) (send tmuxExec command) (fun result t => Sent s command result t)
      (fun _ _ => False) := by
  rintro _ rfl
  exact ⟨rfl, rfl⟩

theorem fail_spec {α : Type} (s : Applicator σ) (verb command message : String)
    {Q : α → Applicator σ → Prop} :
    Program.Triple (· = s) (fail verb command message : Apply σ α) Q
      (fun e t => t = s ∧ ∃ error, e = .template error ∧ error.created = s.created) := by
  rintro _ rfl
  exact ⟨rfl, _, rfl, rfl⟩

/-- A command that is refused, or answered by what cannot be read. -/
def Unanswered (s : Applicator σ) (command : TmuxCommand) (e : ApplyError)
    (t : Applicator σ) : Prop :=
  ∃ result, ¬(⟨command, result⟩ : Exchange).Answered ∧ Sent s command result t ∧
    ∃ error, e = .template error ∧ error.created = t.created

theorem refuse_spec {α : Type} {s t : Applicator σ} {verb : String} {command : TmuxCommand}
    {result : CommandResult} (hsent : Sent s command result t) (hok : ¬result.ok = true)
    {Q : α → Applicator σ → Prop} :
    Program.Triple (· = t) (refuse verb command result : Apply σ α) Q
      (Unanswered s command) := by
  refine (fail_spec t _ _ _).errors ?_
  rintro e _ ⟨rfl, hcreated⟩
  exact ⟨result, fun hanswered => hok hanswered.1, hsent, hcreated⟩

theorem run_spec (s : Applicator σ) (verb : String) (command : TmuxCommand) :
    Program.Triple (· = s) (run tmuxExec verb command)
      (fun _ t => ∃ result : CommandResult, result.ok = true ∧ Sent s command result t)
      (Unanswered s command) := by
  refine ((send_spec s command).errors fun _ _ h => h.elim).bind fun result =>
    .of_state fun t hsent => .ite (fun hok => ?_) fun hok => refuse_spec hsent hok
  rintro _ rfl
  exact ⟨result, hok, hsent⟩

theorem query_spec (s : Applicator σ) (verb : String) (command : TmuxCommand) :
    Program.Triple (· = s) (query tmuxExec verb command)
      (fun text t => ∃ result : CommandResult, result.ok = true ∧ text = tmuxText result ∧
        Sent s command result t)
      (Unanswered s command) := by
  refine ((send_spec s command).errors fun _ _ h => h.elim).bind fun result =>
    .of_state fun t hsent => .ite (fun hok => ?_) fun hok => refuse_spec hsent hok
  rintro _ rfl
  exact ⟨result, hok, rfl, hsent⟩

/-- A command whose answer is to be the ids of what it created. -/
def TmuxCommand.Creates : TmuxCommand → Prop
  | .newWindow _ | .splitWindow _ _ _ => True
  | _ => False

theorem TmuxCommand.Creates.answered {command : TmuxCommand} (h : command.Creates)
    (result : CommandResult) : (⟨command, result⟩ : Exchange).Answered ↔
      result.ok = true ∧ (parseEffectIds result.body).isSome = true := by
  cases command <;> first | exact h.elim | exact Iff.rfl

theorem runCreating_spec (s : Applicator σ) (verb : String) {command : TmuxCommand}
    (hcreates : command.Creates) :
    Program.Triple (· = s) (runCreating tmuxExec jsonStringify verb command)
      (fun ids t => ∃ result : CommandResult, result.ok = true ∧
        parseEffectIds result.body = some ids ∧ Sent s command result t)
      (Unanswered s command) := by
  refine ((send_spec s command).errors fun _ _ h => h.elim).bind fun result =>
    .of_state fun t hsent => .ite (fun hok => ?_) fun hok => refuse_spec hsent hok
  split
  · next ids hids =>
    rintro _ rfl
    exact ⟨result, hok, hids, hsent⟩
  · next hids =>
    refine (fail_spec t _ _ _).errors ?_
    rintro e _ ⟨rfl, hcreated⟩
    refine ⟨result, fun hanswered => ?_, hsent, hcreated⟩
    rw [hcreates.answered, hids] at hanswered
    exact absurd hanswered.2 Bool.false_ne_true

theorem Going.failed {s t : Applicator σ}
    (h : Going killInitialWindow initialWindowId shapes s) {command : TmuxCommand}
    (htarget : command.target = none) {e : ApplyError}
    (hunanswered : Unanswered s command e t) : Failed e t.log := by
  obtain ⟨result, hanswered, ⟨hlog, hsame⟩, error, rfl, hcreated⟩ := hunanswered
  refine ⟨?_, ?_, ⟨⟨command, result⟩, ?_, hanswered⟩, ?_⟩
  · rw [hlog, List.dropLast_concat]
    exact h.answered
  · rw [hlog]
    exact List.forall_mem_append.mpr ⟨h.spares, List.forall_mem_singleton.mpr htarget⟩
  · rw [hlog, List.getLast?_concat]
    rfl
  · rw [hcreated, hsame, h.created, hlog, minted_concat, mint_not_answered hanswered]

theorem Going.next {s t : Applicator σ}
    (h : Going killInitialWindow initialWindowId shapes s) {command : TmuxCommand}
    (htarget : command.target = none) {result : CommandResult}
    (hanswered : (⟨command, result⟩ : Exchange).Answered) (hsent : Sent s command result t)
    (after : Applicator σ) (hlog : after.log = t.log)
    (hcreated : after.created = mint s.created ⟨command, result⟩)
    {grown : List (Option String × Nat)} (hshapes : after.created.map AppliedWindow.shape = grown) :
    Going killInitialWindow initialWindowId grown after where
  answered := by
    rw [hlog, hsent.1]
    exact List.forall_mem_append.mpr ⟨h.answered, List.forall_mem_singleton.mpr hanswered⟩
  spares := by
    rw [hlog, hsent.1]
    exact List.forall_mem_append.mpr ⟨h.spares, List.forall_mem_singleton.mpr htarget⟩
  created := by rw [hcreated, hlog, hsent.1, minted_concat, h.created]
  shapes := hshapes
  listed := by
    intro id hid
    obtain ⟨hkill, reply, hhead, hline⟩ := h.listed id hid
    refine ⟨hkill, reply, ?_, hline⟩
    rw [hlog, hsent.1, List.head?_append, hhead]
    rfl

/-- A command that neither creates nor kills. -/
theorem going_run (verb : String) {command : TmuxCommand} (htarget : command.target = none)
    (hanswered : ∀ result : CommandResult, result.ok = true →
      (⟨command, result⟩ : Exchange).Answered)
    (hmint : ∀ windows result, mint windows ⟨command, result⟩ = windows) :
    Program.Triple (Going killInitialWindow initialWindowId shapes) (run tmuxExec verb command)
      (fun _ => Going killInitialWindow initialWindowId shapes) (fun e t => Failed e t.log) := by
  refine .of_state fun s hs => (run_spec s verb command).mono (fun _ h => h) ?_
    fun e t hunanswered => hs.failed htarget hunanswered
  rintro _ t ⟨result, hok, hsent⟩
  exact hs.next htarget (hanswered result hok) hsent t rfl (by rw [hmint, hsent.2])
    (by rw [hsent.2, hs.shapes])

theorem going_newWindow (opts : NewWindowOptions) :
    Program.Triple (Going killInitialWindow initialWindowId shapes)
      (runCreating tmuxExec jsonStringify "open-window" (.newWindow opts))
      (fun ids s => Going killInitialWindow initialWindowId (shapes ++ [(opts.name, 1)])
        (pushWindow ids opts.name s))
      (fun e t => Failed e t.log) := by
  refine .of_state fun s hs => (runCreating_spec s _ (by trivial)).mono (fun _ h => h) ?_
    fun e t hunanswered => hs.failed rfl hunanswered
  rintro ids t ⟨result, hok, hids, hsent⟩
  have hmint : mint s.created ⟨.newWindow opts, result⟩ =
      s.created ++ [⟨ids.windowNum, [ids.paneNum], opts.name⟩] := by
    simp only [mint, Exchange.ids, hok, hids]
  have hanswered : (⟨.newWindow opts, result⟩ : Exchange).Answered :=
    ⟨hok, Option.isSome_of_mem hids⟩
  have hpush : (pushWindow ids opts.name t).created =
      s.created ++ [⟨ids.windowNum, [ids.paneNum], opts.name⟩] := by
    rw [← hsent.2]
    rfl
  refine hs.next rfl hanswered hsent (pushWindow ids opts.name t) rfl (hpush.trans hmint.symm) ?_
  rw [hpush, List.map_append, hs.shapes]
  rfl

theorem map_shape_modifyLast {windows : List AppliedWindow} {name : Option String} {n : Nat}
    (paneNum : Nat) (h : windows.map AppliedWindow.shape = shapes ++ [(name, n)]) :
    (windows.modifyLast fun window =>
      { window with paneNums := window.paneNums ++ [paneNum] }).map AppliedWindow.shape =
        shapes ++ [(name, n + 1)] := by
  rcases windows.eq_nil_or_concat' with rfl | ⟨front, last, rfl⟩
  · exact absurd h.symm (List.append_ne_nil_of_right_ne_nil _ (List.cons_ne_nil _ _))
  · rw [List.map_append] at h
    obtain ⟨hfront, hlast⟩ := List.append_inj' h rfl
    have hlast : last.shape = (name, n) := List.head_eq_of_cons_eq hlast
    rw [List.modifyLast_concat, List.map_append, hfront, List.map_singleton, AppliedWindow.shape,
      List.length_append]
    exact congrArg (fun shape => shapes ++ [(shape.1, shape.2 + 1)]) hlast

theorem going_splitWindow (name : Option String) (n paneNum : Nat) (opts : SplitWindowOptions) :
    Program.Triple (Going killInitialWindow initialWindowId (shapes ++ [(name, n)]))
      (runCreating tmuxExec jsonStringify "split-pane" (.splitWindow paneNum .horizontal opts))
      (fun ids s => Going killInitialWindow initialWindowId (shapes ++ [(name, n + 1)])
        (pushPane ids.paneNum s))
      (fun e t => Failed e t.log) := by
  refine .of_state fun s hs => (runCreating_spec s _ (by trivial)).mono (fun _ h => h) ?_
    fun e t hunanswered => hs.failed rfl hunanswered
  rintro ids t ⟨result, hok, hids, hsent⟩
  have hmint : mint s.created ⟨.splitWindow paneNum .horizontal opts, result⟩ =
      s.created.modifyLast fun window =>
        { window with paneNums := window.paneNums ++ [ids.paneNum] } := by
    simp only [mint, Exchange.ids, hok, hids]
  have hanswered : (⟨.splitWindow paneNum .horizontal opts, result⟩ : Exchange).Answered :=
    ⟨hok, Option.isSome_of_mem hids⟩
  have hpush : (pushPane ids.paneNum t).created = s.created.modifyLast fun window =>
      { window with paneNums := window.paneNums ++ [ids.paneNum] } := by
    rw [← hsent.2]
    rfl
  refine hs.next rfl hanswered hsent (pushPane ids.paneNum t) rfl (hpush.trans hmint.symm) ?_
  rw [hpush]
  exact map_shape_modifyLast ids.paneNum hs.shapes

theorem going_splitPanes (name : Option String) (n lastPaneNum : Nat) (panes : List CompiledPane) :
    Program.Triple (Going killInitialWindow initialWindowId (shapes ++ [(name, n)]))
      (splitPanes tmuxExec jsonStringify lastPaneNum panes)
      (fun _ => Going killInitialWindow initialWindowId (shapes ++ [(name, n + panes.length)]))
      (fun e t => Failed e t.log) := by
  induction panes generalizing n lastPaneNum with
  | nil => exact fun _ h => h
  | cons pane rest ih =>
    rw [List.length_cons, Nat.add_comm rest.length, ← Nat.add_assoc]
    exact (going_splitWindow name n lastPaneNum (splitWindowOpts pane)).bind fun ids =>
      Program.Triple.bind (Program.Triple.modify fun _ h => h) fun _ => ih (n + 1) ids.paneNum

theorem going_layOut (firstIds : EffectIds) (geometry : TemplateNode) :
    Program.Triple (Going killInitialWindow initialWindowId shapes)
      (layOut tmuxExec jsonStringify spoiled firstIds geometry)
      (fun _ => Going killInitialWindow initialWindowId shapes) (fun e t => Failed e t.log) := by
  refine .of_state fun s hs => ((query_spec s _ _).errors fun e t hunanswered =>
    hs.failed rfl hunanswered).bind fun text => .of_state fun t ht => ?_
  obtain ⟨result, hok, rfl, hsent⟩ := ht
  split
  · next hdims =>
    refine (fail_spec t _ _ _).errors ?_
    rintro e _ ⟨rfl, hcreated⟩
    have htarget : (TmuxCommand.displayWindowSize firstIds.paneNum).target = none := rfl
    refine hs.failed htarget ⟨result, fun hanswered => ?_, hsent, hcreated⟩
    have hread : (parseDims (tmuxText result)).isSome = true := hanswered.2
    rw [hdims] at hread
    cases hread
  · next cols rows hdims =>
    have hanswered : (⟨.displayWindowSize firstIds.paneNum, result⟩ : Exchange).Answered :=
      ⟨hok, Option.isSome_of_mem hdims⟩
    have hnext := hs.next rfl hanswered hsent t rfl hsent.2 (by rw [hsent.2, hs.shapes])
    split
    · rintro _ rfl
      exact ⟨fun exchange h => hnext.answered exchange (List.mem_of_mem_dropLast h), hnext.spares,
        hnext.answered⟩
    · refine (going_run "select-layout" rfl (fun _ h => ⟨h, trivial⟩) fun _ _ => rfl).mono ?_
        (fun _ _ h => h) fun _ _ h => h
      rintro _ rfl
      exact hnext

theorem going_applyWindow {window : CompiledWindow} (hpanes : window.panes ≠ []) :
    Program.Triple (Going killInitialWindow initialWindowId shapes)
      (applyWindow tmuxExec jsonStringify spoiled window)
      (fun _ => Going killInitialWindow initialWindowId (shapes ++ [window.shape]))
      (fun e t => Failed e t.log) := by
  unfold applyWindow
  split
  · next hnil => exact absurd hnil hpanes
  · next first rest hcons =>
    have hshape : window.shape = (window.name, 1 + rest.length) := by
      rw [CompiledWindow.shape, hcons, List.length_cons, Nat.add_comm]
    have hlaid : ∀ firstIds : EffectIds, Program.Triple
        (Going killInitialWindow initialWindowId (shapes ++ [window.shape]))
        (match window.geometry with
          | none => pure ()
          | some geometry => layOut tmuxExec jsonStringify spoiled firstIds geometry : Apply σ Unit)
        (fun _ => Going killInitialWindow initialWindowId (shapes ++ [window.shape]))
        (fun e t => Failed e t.log) := by
      intro firstIds
      split
      · exact fun _ h => h
      · exact going_layOut firstIds _
    rw [hshape] at hlaid ⊢
    exact (going_newWindow (newWindowOpts window first)).bind fun firstIds =>
      Program.Triple.bind (Program.Triple.modify fun _ h => h) fun _ =>
        (going_splitPanes window.name 1 firstIds.paneNum rest).bind fun _ => hlaid firstIds

theorem going_identifyInitialWindow (tmux : σ) (killInitialWindow : Bool) :
    Program.Triple (· = ⟨tmux, [], []⟩) (identifyInitialWindow tmuxExec killInitialWindow)
      (fun id => Going killInitialWindow id []) (fun e t => Failed e t.log) := by
  have hstart : Going killInitialWindow none [] (⟨tmux, [], []⟩ : Applicator σ) :=
    ⟨by simp, by simp, rfl, rfl, by simp⟩
  refine .ite (fun hkill => ?_) fun _ => ?_
  · refine ((query_spec _ _ _).errors fun e t hunanswered =>
      hstart.failed rfl hunanswered).bind fun text => .of_state fun t ht => ?_
    obtain ⟨result, hok, rfl, hsent⟩ := ht
    have htarget : TmuxCommand.listWindowIds.target = none := rfl
    have hnext := hstart.next htarget ⟨hok, trivial⟩ hsent t rfl hsent.2 (by rw [hsent.2])
    rintro _ rfl
    refine ⟨hnext.answered, hnext.spares, hnext.created, hnext.shapes, fun id hid => ?_⟩
    exact ⟨hkill, result, by rw [hsent.1]; rfl, hid⟩
  · rintro _ rfl
    exact hstart

theorem going_recordTemplate (plan : CompiledTemplate) (sessionName : String) :
    Program.Triple (Going killInitialWindow initialWindowId shapes)
      (recordTemplate tmuxExec plan sessionName)
      (fun _ => Going killInitialWindow initialWindowId shapes) (fun e t => Failed e t.log) := by
  unfold recordTemplate
  split
  · exact fun _ h => h
  · exact going_run _ rfl (fun _ h => ⟨h, trivial⟩) fun _ _ => rfl

theorem going_applyWindows {windows : List CompiledWindow} (hpanes : ∀ w ∈ windows, w.panes ≠ []) :
    Program.Triple (Going killInitialWindow initialWindowId [])
      (Program.forEach windows (applyWindow tmuxExec jsonStringify spoiled))
      (fun _ => Going killInitialWindow initialWindowId (windows.map CompiledWindow.shape))
      (fun e t => Failed e t.log) := by
  refine Program.Triple.forEach (I := fun done => Going killInitialWindow initialWindowId
    (done.map CompiledWindow.shape)) fun done window rest hwindows => ?_
  rw [List.map_append]
  exact going_applyWindow (hpanes window (by simp [hwindows]))

/-- Every command before the last one is answered and kills nothing. -/
theorem Going.before {s : Applicator σ} (h : Going killInitialWindow initialWindowId shapes s)
    {last exchange : Exchange} {before after : List Exchange}
    (hlog : s.log ++ [last] = before ++ exchange :: after) {num : Nat}
    (hnum : num ∈ exchange.command.target) : before = s.log ∧ exchange = last ∧ after = [] := by
  rcases after.eq_nil_or_concat' with rfl | ⟨front, x, rfl⟩
  · obtain ⟨hbefore, hlast⟩ := List.append_inj' hlog rfl
    exact ⟨hbefore.symm, (List.head_eq_of_cons_eq hlast).symm, rfl⟩
  · rw [← List.cons_append, ← List.append_assoc] at hlog
    obtain ⟨hlog, -⟩ := List.append_inj' hlog rfl
    rw [h.spares exchange (by simp [hlog])] at hnum
    cases hnum

theorem going_killInitial {plan : CompiledTemplate}
    (hshapes : plan.windows.map CompiledWindow.shape = shapes) :
    Program.Triple (Going killInitialWindow initialWindowId shapes)
      (killInitial tmuxExec initialWindowId)
      (fun _ s => Reports plan killInitialWindow s.log (.ok s.created))
      (fun e s => Reports plan killInitialWindow s.log (.error e)) := by
  refine .of_state fun s hs => ?_
  have hminted :
      (minted s.log).map AppliedWindow.shape = plan.windows.map CompiledWindow.shape := by
    rw [hshapes, ← hs.created, hs.shapes]
  unfold killInitial
  split
  · rintro _ rfl
    refine ⟨fun exchange h => hs.answered exchange (List.mem_of_mem_dropLast h),
      ⟨hs.answered, hs.created, hminted⟩, ?_⟩
    rintro before exchange after hlog num hnum
    rw [hs.spares exchange (by simp [hlog])] at hnum
    cases hnum
  · next num hnum =>
    obtain ⟨id, hid, hnum⟩ := Option.bind_eq_some_iff.mp hnum
    obtain ⟨hkill, reply, hhead, hline⟩ := hs.listed id hid
    -- Whatever tmux replies, the kill is the last command.
    have hkills : ∀ result : CommandResult, ∀ before exchange after,
        s.log ++ [⟨.killWindow num, result⟩] = before ++ exchange :: after →
        ∀ n ∈ exchange.command.target, killInitialWindow = true ∧ after = [] ∧
          Initial n before ∧
          (minted before).map AppliedWindow.shape = plan.windows.map CompiledWindow.shape := by
      rintro result before exchange after hlog n hn
      obtain ⟨rfl, rfl, rfl⟩ := hs.before hlog hn
      cases hn
      exact ⟨hkill, rfl, ⟨reply, hhead, by rw [hline, Option.bind_some, hnum]⟩, hminted⟩
    refine (run_spec s _ _).mono (fun _ h => h) ?_ ?_
    · rintro _ t ⟨result, hok, hlog, hsame⟩
      rw [hlog, hsame]
      refine ⟨by rw [List.dropLast_concat]; exact hs.answered, ⟨?_, ?_, ?_⟩, hkills result⟩
      · exact List.forall_mem_append.mpr ⟨hs.answered, List.forall_mem_singleton.mpr ⟨hok, trivial⟩⟩
      · rw [minted_concat, hs.created]
        rfl
      · rw [minted_concat]
        exact hminted
    · rintro _ t ⟨result, hanswered, ⟨hlog, hsame⟩, error, rfl, hcreated⟩
      rw [hlog]
      refine ⟨by rw [List.dropLast_concat]; exact hs.answered, ⟨⟨_, ?_, hanswered⟩, ?_⟩,
        hkills result⟩
      · rw [List.getLast?_concat]
        rfl
      · rw [hcreated, hsame, hs.created, minted_concat]
        rfl

/-- Whatever tmux replies: the application stops at the first refusal, reports what has been
minted, and kills only the initial window, after all windows of the plan. -/
theorem applyCompiledTemplate_reports (tmuxExec : σ → TmuxCommand → CommandResult × σ)
    (jsonStringify : String → String) (spoiled : Spoiled) {plan : CompiledTemplate}
    (hpanes : ∀ window ∈ plan.windows, window.panes ≠ []) (sessionName : String)
    (killInitialWindow : Bool) (tmux : σ) :
    Program.Triple (· = ⟨tmux, [], []⟩)
      (applyCompiledTemplate tmuxExec jsonStringify spoiled plan sessionName killInitialWindow)
      (fun windows s => Reports plan killInitialWindow s.log (.ok windows))
      (fun e s => Reports plan killInitialWindow s.log (.error e)) := by
  have hfailed : ∀ (e : ApplyError) (s : Applicator σ), Failed e s.log →
      Reports plan killInitialWindow s.log (.error e) := fun e s h => h.reports _ _
  exact ((going_identifyInitialWindow tmux killInitialWindow).errors hfailed).bind fun _ =>
    ((going_recordTemplate plan sessionName).errors hfailed).bind fun _ =>
      ((going_applyWindows hpanes).errors hfailed).bind fun _ =>
        (going_killInitial rfl).bind fun _ _ h => h

end Going

end TmuxccDriver.Template
