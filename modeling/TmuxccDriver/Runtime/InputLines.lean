import TmuxccDriver.Runtime.CommandWords

/-!
# One slot for each line

What the input path writes to tmux. The correlator registers one slot for each string it
is given and writes the string and an LF, so slots and lines agree as long as the strings
have no LF of their own, and tmux runs what was composed as long as it reads the words of
each line back. Quoting does not take an LF out, and some strings are not quoted.

Results:
1. `sent_handleCommand`: the commands of a `command.request` are the lines of the words
   it composed.
2. `deliverAll_registered`, `deliverAll_written`: one slot for each command, and each
   command written with an LF.
3. `one_slot_per_line_iff`: in every run, one slot for each line tmux reads, and each line
   read as what was composed, exactly when every string on a line is harmless.
-/

namespace TmuxccDriver.Runtime
open TmuxccDriver.Lib TmuxccDriver.Parser TmuxccDriver.Protocol TmuxccDriver.State

/-! ## Commands and the correlator -/

/-- The strings passed to the correlator, in order. -/
def commandsOf (actions : List Action) : List String :=
  actions.flatMap fun
    | .send command _ => [command]
    | .sendBatch commands => commands
    | _ => []

@[simp] theorem commandsOf_nil : commandsOf [] = [] := rfl

@[simp] theorem commandsOf_append (as bs : List Action) :
    commandsOf (as ++ bs) = commandsOf as ++ commandsOf bs := List.flatMap_append

theorem commandsOf_cons (a : Action) (as : List Action) :
    commandsOf (a :: as) = commandsOf [a] ++ commandsOf as := commandsOf_append [a] as

/-- One action at the correlator. -/
def deliver (corr : CommandCorrelator) : Action → CommandCorrelator × List Effect
  | .send command _ => corr.send (utf8 command)
  | .sendBatch commands => corr.sendBatch (commands.map utf8)
  | _ => (corr, [])

def deliverAll (corr : CommandCorrelator) : List Action → CommandCorrelator × List Effect
  | [] => (corr, [])
  | a :: as =>
    let (corr, effects) := deliver corr a
    let (corr, rest) := deliverAll corr as
    (corr, effects ++ rest)

/-- The bytes written to tmux. -/
def written (effects : List Effect) : Bytes :=
  effects.flatMap fun
    | .write data => data
    | _ => []

theorem written_append (es fs : List Effect) : written (es ++ fs) = written es ++ written fs :=
  List.flatMap_append

theorem deliver_registered (corr : CommandCorrelator) (a : Action) :
    (deliver corr a).1.registered = corr.registered + (commandsOf [a]).length := by
  cases a with
  | sendBatch commands =>
    simp only [deliver, CommandCorrelator.sendBatch, List.length_map]
    split
    · simp_all [commandsOf]
    · simp [CommandCorrelator.expectCommands_registered, commandsOf]
  | send command onReply => rfl
  | dispatchSynthetic event => rfl
  | respond correlationId result => rfl
  | reportForPane paneId cols rows => rfl

theorem deliver_written (corr : CommandCorrelator) (a : Action) :
    written (deliver corr a).2 = terminated ((commandsOf [a]).map utf8) := by
  cases a with
  | sendBatch commands =>
    simp only [deliver, CommandCorrelator.sendBatch, List.length_map]
    split
    · simp_all [commandsOf, written]
    · simp [commandsOf, written]
  | send command onReply => simp [deliver, CommandCorrelator.send, commandsOf, written]
  | dispatchSynthetic event => rfl
  | respond correlationId result => rfl
  | reportForPane paneId cols rows => rfl

theorem deliverAll_registered (corr : CommandCorrelator) (actions : List Action) :
    (deliverAll corr actions).1.registered = corr.registered + (commandsOf actions).length := by
  induction actions generalizing corr with
  | nil => rfl
  | cons a as ih =>
    rw [deliverAll, ih, deliver_registered, commandsOf_cons a as, List.length_append, Nat.add_assoc]

theorem deliverAll_written (corr : CommandCorrelator) (actions : List Action) :
    written (deliverAll corr actions).2 = terminated ((commandsOf actions).map utf8) := by
  induction actions generalizing corr with
  | nil => rfl
  | cons a as ih =>
    rw [deliverAll, written_append, deliver_written, ih, commandsOf_cons a as, List.map_append,
      terminated_append]

/-! ## The commands of a request -/

/-- What a dispatch passes to the correlator; nothing when it throws. -/
def sent : Except TypeError (List Action) → List String
  | .ok actions => commandsOf actions
  | .error _ => []

@[simp] theorem sent_pure (actions : List Action) : sent (pure actions) = commandsOf actions := rfl

@[simp] theorem commandsOf_runAckVerb (call : Call) (correlationId verbKind cmd : String) :
    commandsOf (InputPathOptions.runAckVerb call correlationId verbKind cmd) = [cmd] := rfl

@[simp] theorem commandsOf_runCreatingVerb (call : Call) (correlationId verbKind cmd : String)
    (emptyBody : Option PaneId) :
    commandsOf (InputPathOptions.runCreatingVerb call correlationId verbKind cmd emptyBody) =
      [cmd] := rfl

@[simp] theorem commandsOf_sendCommandWithReversal (opts : InputPathOptions) (call : Call)
    (correlationId verbKind cmd : String) (optimistic : SyntheticEvent)
    (reverse : SessionModel → Option SyntheticEvent) :
    commandsOf (opts.sendCommandWithReversal call correlationId verbKind cmd optimistic reverse) =
      [cmd] := by
  rw [InputPathOptions.sendCommandWithReversal, commandsOf_cons]
  cases opts.dispatchSynthetic with
  | false => rfl
  | true => rfl

@[simp] theorem commandsOf_policyFailed (call : Call) (correlationId message : String) :
    commandsOf (InputPathOptions.policyFailed call correlationId message) = [] := by
  unfold InputPathOptions.policyFailed
  split
  · rfl
  · rfl

/-- One id to convert, then the commands that were composed of it. -/
theorem sent_bind {α : Type} {r : Except TypeError α} {f : α → Except TypeError (List Action)}
    {g : α → List (List Word)} (h : ∀ n, sent (f n) = (g n).map line) :
    sent (r >>= f) = (converted r g).map line := by
  cases r with
  | error e => rfl
  | ok n => exact h n

/-- Text before a number is the text before it and the number. -/
theorem setOptionFor_words {option : String} (hoption : Word.isConstant option) (n : Int)
    (value : String) :
    setOptionForWindow n option value =
        line (setOptionWords "-wt" (windowWord n) option (.quoteArg value)) ∧
      setOptionForPane n option value =
        line (setOptionWords "-pt" (paneWord n) option (.quoteArg value)) ∧
      unsetOptionForWindow n option = line (unsetOptionWords "-uwt" (windowWord n) option) ∧
      unsetOptionForPane n option = line (unsetOptionWords "-upt" (paneWord n) option) := by
  refine ⟨?_, ?_, ?_, ?_⟩
  · rw [← setOptionAt_words hoption]
    rfl
  · rw [← setOptionAt_words hoption]
    rfl
  · rw [← unsetOptionAt_words hoption]
    rfl
  · rw [← unsetOptionAt_words hoption]
    rfl

/-- A constant value is left bare. -/
theorem setOptionForWindow_constant {option value : String} (hoption : Word.isConstant option)
    (hvalue : Word.isConstant value) (n : Int) :
    setOptionForWindow n option value =
      line (setOptionWords "-wt" (windowWord n) option (.bare value)) := by
  rw [(setOptionFor_words hoption n value).1]
  simp only [setOptionWords, line_cons_cons, line_singleton, Word.text,
    Word.quoteArg_of_isConstant hvalue]

theorem sent_setObjectPolicy (opts : InputPathOptions) (call : Call) (correlationId : String)
    (scope : PolicyScope) (paneId : Option PaneId) (windowId : Option WindowId)
    (option : PolicyOption) (value : Option String) :
    sent (opts.setObjectPolicy call correlationId scope paneId windowId option value) =
      (opts.policyWords call scope paneId windowId option value).map line := by
  have hoption := isConstant_policyOptionName opts call option
  cases scope with
  | pane =>
    cases paneId with
    | none => simp [InputPathOptions.setObjectPolicy, InputPathOptions.policyWords]
    | some pid =>
      refine sent_bind fun n => ?_
      rw [sent_pure, commandsOf_sendCommandWithReversal]
      cases value with
      | none => exact congrArg ([·]) (setOptionFor_words hoption n "").2.2.2
      | some v => exact congrArg ([·]) (setOptionFor_words hoption n v).2.1
  | window =>
    cases windowId with
    | none => simp [InputPathOptions.setObjectPolicy, InputPathOptions.policyWords]
    | some wid =>
      refine sent_bind fun n => ?_
      rw [sent_pure, commandsOf_runAckVerb]
      cases value with
      | none => exact congrArg ([·]) (setOptionFor_words hoption n "").2.2.1
      | some v => exact congrArg ([·]) (setOptionFor_words hoption n v).1
  | session =>
    simp only [InputPathOptions.setObjectPolicy, InputPathOptions.policyWords]
    cases call.model.bind InputPathOptions.firstSessionName with
    | none => simp
    | some sessionName =>
      rw [sent_pure, commandsOf_runAckVerb]
      cases value with
      | none => exact congrArg ([·]) (unsetOptionAt_words hoption "-ut" (.quoteArg sessionName))
      | some v => exact congrArg ([·]) (setOptionAt_words hoption "-t" (.quoteArg sessionName) v)

theorem renameSession_words (call : Call) (name : String) :
    "rename-session " ++ InputPathOptions.sessionFlag call ++ singleQuoted name =
      line (InputPathOptions.renameSessionWords
        (call.model.bind InputPathOptions.firstSessionName) name) := by
  rw [InputPathOptions.sessionFlag]
  cases call.model.bind InputPathOptions.firstSessionName with
  | none => simp [InputPathOptions.renameSessionWords, Word.text]
  | some current =>
    simp [InputPathOptions.renameSessionWords, Word.text, ← String.append_assoc]

/-- A line of each, or the first error. -/
theorem mapM_line {α : Type} {f : α → Except TypeError String}
    {g : α → Except TypeError (List Word)} (h : ∀ a, f a = (g a).map line) (as : List α) :
    as.mapM f = (as.mapM g).map (List.map line) := by
  induction as with
  | nil => rfl
  | cons a as ih =>
    rw [List.mapM_cons, List.mapM_cons, ih, h]
    cases g a with
    | error e => rfl
    | ok ws =>
      cases as.mapM g with
      | error e => rfl
      | ok lines => rfl

/-- What a request passes to the correlator are the commands it composed. -/
theorem sent_handleCommand (opts : InputPathOptions) (call : Call) (correlationId : String)
    (command : WireCommand) :
    sent (opts.handleCommand call correlationId command) =
      (opts.composed call command).map line := by
  cases command with
  | openWindow name cwd shellCommand env =>
    exact congrArg ([·]) (newWindow_words name cwd shellCommand env)
  | splitPane paneId direction cwd shellCommand env =>
    exact sent_bind fun target =>
      congrArg ([·]) (splitWindow_words target direction cwd shellCommand env)
  | closePane paneId =>
    refine sent_bind fun n => congrArg ([·]) ?_
    simp [Word.text, paneWord, ← String.append_assoc]
  | renameWindow windowId name =>
    refine sent_bind fun n => congrArg ([·]) ?_
    simp [Word.text, windowWord, ← String.append_assoc]
  | renameSession name =>
    simp only [InputPathOptions.handleCommand, InputPathOptions.composed]
    split
    · rfl
    · exact congrArg ([·]) (renameSession_words call name)
  | selectPane paneId =>
    refine sent_bind fun n => congrArg ([·]) ?_
    simp [Word.text, paneWord, ← String.append_assoc]
  | resizePane paneId cols rows =>
    refine congrArg ([·]) ?_
    unfold refreshClientSize
    simp [Word.text, ← String.append_assoc]
  | resizeManagedWindow windowId cols rows panes =>
    simp only [InputPathOptions.handleCommand, InputPathOptions.composed]
    -- one line for each pane, or the first id that does not convert
    rw [mapM_line (g := fun pane => do
      let n ← opts.paneIdToTmux pane.paneId
      return resizePaneWords n pane.cols pane.rows)]
    · cases panes.mapM fun pane : PaneSize => do
          let n ← opts.paneIdToTmux pane.paneId
          return resizePaneWords n pane.cols pane.rows with
      | error e => rfl
      | ok lines =>
        cases lines with
        | nil => rfl
        | cons ws lines => exact List.append_nil _
    · intro pane
      cases opts.paneIdToTmux pane.paneId with
      | error e => rfl
      | ok n => exact congrArg Except.ok (resizePane_words n pane.cols pane.rows)
  | killSession sessionName =>
    refine congrArg ([·]) ?_
    simp [Word.text, ← String.append_assoc]
  | setSynchronizePanes windowId on =>
    refine sent_bind fun n => ?_
    rw [sent_pure, commandsOf_sendCommandWithReversal]
    exact congrArg ([·]) (setOptionForWindow_constant (by decide) (isConstant_onOff on) n)
  | setMonitorActivity windowId on =>
    refine sent_bind fun n => ?_
    rw [sent_pure, commandsOf_sendCommandWithReversal]
    exact congrArg ([·]) (setOptionForWindow_constant (by decide) (isConstant_onOff on) n)
  | setMonitorSilence windowId seconds =>
    refine sent_bind fun n => ?_
    dsimp only
    rw [sent_pure, commandsOf_sendCommandWithReversal]
    exact congrArg ([·]) (setOptionForWindow_constant (by decide) (isConstant_nat _) n)
  | breakPane paneId => exact sent_bind fun n => congrArg ([·]) (breakPane_words n)
  | swapPane paneId targetPaneId =>
    refine sent_bind fun n => ?_
    cases targetPaneId with
    | none =>
      refine congrArg ([·]) ?_
      simp [Word.text, paneWord, ← String.append_assoc]
    | some target =>
      refine sent_bind fun t => congrArg ([·]) (String.toList_injective ?_)
      simp only [line_cons_cons, line_singleton, Word.text, paneWord, String.toList_append,
        List.append_assoc]
      generalize n.repr = source
      generalize t.repr = target
      rfl
  | renamePane paneId title =>
    refine sent_bind fun n => ?_
    rw [sent_pure, commandsOf_sendCommandWithReversal]
    exact congrArg ([·]) (setOptionFor_words (by decide) n title).2.1
  | setObjectPolicy scope paneId windowId option value =>
    exact sent_setObjectPolicy opts call correlationId scope paneId windowId option value
  | killWindow windowId =>
    refine sent_bind fun n => congrArg ([·]) ?_
    simp [Word.text, windowWord, ← String.append_assoc]
  | swapWindow sourceWindowId targetWindowId =>
    refine sent_bind fun n => sent_bind fun t => congrArg ([·]) (String.toList_injective ?_)
    simp only [line_cons_cons, line_singleton, Word.text, windowWord, String.toList_append,
      List.append_assoc]
    generalize n.repr = source
    generalize t.repr = target
    rfl
  | paneCapture paneId => rfl
  | sessionProxyInfo => rfl

/-! ## Input bytes and replies -/

/-- A command that sends keys. -/
def SendsKeys (c : String) : Prop := ∃ n bytes, c = sendKeysHex n bytes

theorem startInput_sendsKeys (job : InputJob) (waiting : List InputJob) :
    ∀ c ∈ commandsOf (InputPath.startInput job waiting).2, SendsKeys c := by
  intro c hc
  simp only [InputPath.startInput, commandsOf, List.flatMap_map, List.mem_flatMap,
    List.mem_singleton] at hc
  obtain ⟨chunk, -, rfl⟩ := hc
  exact ⟨job.tmuxPaneNum, chunk, rfl⟩

theorem handleInput_sendsKeys (path : InputPath) (tmuxPaneNum : Int) (data : String) :
    ∀ c ∈ commandsOf (path.handleInput tmuxPaneNum data).2, SendsKeys c := by
  simp only [InputPath.handleInput]
  split
  · exact List.forall_mem_singleton.mpr ⟨tmuxPaneNum, utf8 data, rfl⟩
  · unfold InputPath.enqueueInput
    split
    · exact startInput_sendsKeys _ _
    · simp

theorem continueInput_sendsKeys (path : InputPath) (outcome : Outcome) :
    ∀ c ∈ commandsOf (path.continueInput outcome).2, SendsKeys c := by
  unfold InputPath.continueInput
  split
  · split
    · exact List.forall_mem_singleton.mpr ⟨_, _, rfl⟩
    · simp
  · simp
  · simp

theorem inputReturned_sendsKeys (path : InputPath) :
    ∀ c ∈ commandsOf path.inputReturned.2, SendsKeys c := by
  unfold InputPath.inputReturned
  split
  · exact startInput_sendsKeys _ _
  · simp
  · simp

theorem reversalReply_commands (opts : InputPathOptions) (compensating : Option SyntheticEvent)
    (ack : Option Ack) (outcome : Outcome) :
    commandsOf (opts.reversalReply compensating ack outcome) = [] := by
  have hresponds : ∀ f : Ack → VerbResult,
      commandsOf (ack.toList.map fun a => .respond a.correlationId (f a)) = [] := by
    intro f
    cases ack with
    | none => rfl
    | some a => rfl
  cases outcome with
  | rejected err => exact hresponds _
  | resolved result =>
    simp only [InputPathOptions.reversalReply]
    split
    · exact hresponds _
    · rw [commandsOf_append, hresponds]
      cases compensating with
      | none => rfl
      | some event => rfl

/-- Replies send nothing but input bytes. -/
theorem handleReply_sendsKeys (opts : InputPathOptions) (path : InputPath)
    (model : Option SessionModel) (outcome : Outcome) (onReply : OnReply) :
    ∀ c ∈ commandsOf (path.handleReply opts model outcome onReply).2, SendsKeys c := by
  cases onReply with
  | inputChunk => exact continueInput_sendsKeys path outcome
  | reversal compensating ack =>
    simp [InputPath.handleReply, reversalReply_commands]
  | ignored => simp [InputPath.handleReply]
  | creating ack emptyBody => simp [InputPath.handleReply, commandsOf]
  | acked ack => simp [InputPath.handleReply, commandsOf]

/-! ## Runs -/

/-- The commands an event composes of strings; all others send keys. -/
def composedBy (opts : InputPathOptions) : InputPath.Event → List (List Word)
  | .message call (.commandRequest _ command) => opts.composed call command
  | _ => []

/-- tmux reads the command as these words. -/
def ReadAs (literal : Char → Bool) (command : String) (ws : List Word) : Prop :=
  lex literal command = some (arguments ws)

/-- tmux reads the commands that an event sends as those it composed: the commands of a request,
one by one, and the keys of an input. -/
def ReadsComposed (literal : Char → Bool) (opts : InputPathOptions) :
    InputPath.Event → List String → Prop
  | .message call (.commandRequest _ command), commands =>
    List.Forall₂ (ReadAs literal) commands (opts.composed call command)
  | _, commands => ∀ c ∈ commands, ∃ n bytes,
    c = sendKeysHex n bytes ∧ ReadAs literal c (sendKeysWords n bytes)

variable {literal : Char → Bool}

theorem sendKeysHex_read (hliteral : SimpleLiteral literal) (n : Int) (bytes : Bytes) :
    OneLine (sendKeysHex n bytes) ∧
      ReadAs literal (sendKeysHex n bytes) (sendKeysWords n bytes) := by
  rw [sendKeysHex_words]
  refine (line_read_iff hliteral (tidy_sendKeysWords n bytes)).mpr fun w hw => ?_
  rcases List.mem_append.mp hw with hhead | hbytes
  · simp only [List.mem_cons, List.not_mem_nil, or_false] at hhead
    rcases hhead with rfl | rfl | rfl | rfl
    all_goals exact trivial
  · obtain ⟨b, -, rfl⟩ := List.mem_map.mp hbytes
    exact trivial

/-- Keys are always sent on one line that is read back. -/
theorem sendsKeys_read (hliteral : SimpleLiteral literal) {commands : List String}
    (h : ∀ c ∈ commands, SendsKeys c) :
    (∀ c ∈ commands, OneLine c) ∧ ∀ c ∈ commands, ∃ n bytes,
      c = sendKeysHex n bytes ∧ ReadAs literal c (sendKeysWords n bytes) := by
  refine ⟨fun c hc => ?_, fun c hc => ?_⟩
  · obtain ⟨n, bytes, rfl⟩ := h c hc
    exact (sendKeysHex_read hliteral n bytes).1
  · obtain ⟨n, bytes, rfl⟩ := h c hc
    exact ⟨n, bytes, rfl, (sendKeysHex_read hliteral n bytes).2⟩

/-- The lines of tidy words are lines, and read back, exactly when all strings are harmless. -/
theorem lines_read_iff (hliteral : SimpleLiteral literal) {wss : List (List Word)}
    (htidy : ∀ ws ∈ wss, Tidy ws) :
    ((∀ c ∈ wss.map line, OneLine c) ∧ List.Forall₂ (ReadAs literal) (wss.map line) wss) ↔
      ∀ ws ∈ wss, ∀ w ∈ ws, w.Harmless literal := by
  rw [List.forall_mem_map, List.forall₂_map_left_iff, List.forall₂_same, ← forall₂_and]
  exact forall₂_congr fun ws hws => line_read_iff hliteral (htidy ws hws)

theorem step_read_iff (hliteral : SimpleLiteral literal) (opts : InputPathOptions)
    (path : InputPath) (e : InputPath.Event) :
    ((∀ c ∈ commandsOf (path.step opts e).2, OneLine c) ∧
        ReadsComposed literal opts e (commandsOf (path.step opts e).2)) ↔
      ∀ ws ∈ composedBy opts e, ∀ w ∈ ws, w.Harmless literal := by
  have hnone : ∀ ws ∈ ([] : List (List Word)), ∀ w ∈ ws, w.Harmless literal :=
    fun ws hws => absurd hws List.not_mem_nil
  cases e with
  | reply onReply outcome model =>
    exact iff_of_true (sendsKeys_read hliteral (handleReply_sendsKeys opts path model outcome
      onReply)) hnone
  | inputReturned =>
    exact iff_of_true (sendsKeys_read hliteral (inputReturned_sendsKeys path)) hnone
  | message call msg =>
    cases msg with
    | notInput =>
      exact iff_of_true (sendsKeys_read hliteral fun c hc => absurd hc List.not_mem_nil) hnone
    | resizeRequest paneId cols rows =>
      have hstep : (path.step opts (.message call (.resizeRequest paneId cols rows))).2 =
          if opts.reportForPane then [.reportForPane paneId cols rows] else [] := rfl
      have hcommands : commandsOf (path.step opts
          (.message call (.resizeRequest paneId cols rows))).2 = [] := by
        rw [hstep]
        split
        · rfl
        · rfl
      refine iff_of_true (sendsKeys_read hliteral fun c hc => ?_) hnone
      rw [hcommands] at hc
      cases hc
    | input paneId data =>
      refine iff_of_true (sendsKeys_read hliteral ?_) hnone
      simp only [InputPath.step, InputPath.handleClientMessage]
      cases opts.paneIdToTmux paneId with
      | error e => simp [Bind.bind, Except.bind]
      | ok n => exact handleInput_sendsKeys path n data
    | commandRequest correlationId command =>
      have hcommands : commandsOf (path.step opts (.message call
          (.commandRequest correlationId command))).2 = (opts.composed call command).map line := by
        rw [← sent_handleCommand opts call correlationId command]
        simp only [InputPath.step, InputPath.handleClientMessage]
        cases opts.handleCommand call correlationId command with
        | error e => rfl
        | ok actions => rfl
      rw [hcommands]
      exact lines_read_iff hliteral (tidy_composed opts call command)

/-- The law of a run: no command has an LF, tmux is written as many lines as there are slots,
the lines it reads are the commands, and it reads the commands of each event as those that the
event composed. -/
structure OneSlotPerLine (literal : Char → Bool) (opts : InputPathOptions) (path : InputPath)
    (events : List InputPath.Event) (corr : CommandCorrelator) : Prop where
  one_line : ∀ c ∈ commandsOf (path.run opts events).2, OneLine c
  slots : (deliverAll corr (path.run opts events).2).1.registered =
    corr.registered + (written (deliverAll corr (path.run opts events).2).2).count LF
  lines : readLines (written (deliverAll corr (path.run opts events).2).2) =
    (commandsOf (path.run opts events).2).map utf8
  reads : ∀ before e after, events = before ++ e :: after →
    ReadsComposed literal opts e (commandsOf ((path.run opts before).1.step opts e).2)

/-- What holds at every event of a list holds at the first one and at all others. -/
theorem forall_split_cons {α : Type} {P : List α → α → Prop} (a : α) (as : List α) :
    (∀ before x after, a :: as = before ++ x :: after → P before x) ↔
      P [] a ∧ ∀ before x after, as = before ++ x :: after → P (a :: before) x := by
  constructor
  · exact fun h => ⟨h [] a as rfl, fun before x after hsplit =>
      h (a :: before) x after (congrArg (a :: ·) hsplit)⟩
  · rintro ⟨hfirst, hlater⟩ before x after hsplit
    cases before with
    | nil =>
      obtain ⟨rfl, -⟩ := List.cons.inj hsplit
      exact hfirst
    | cons b before =>
      obtain ⟨rfl, hrest⟩ := List.cons.inj hsplit
      exact hlater before x after hrest

theorem run_read_iff (hliteral : SimpleLiteral literal) (opts : InputPathOptions)
    (path : InputPath) (events : List InputPath.Event) :
    ((∀ c ∈ commandsOf (path.run opts events).2, OneLine c) ∧
        ∀ before e after, events = before ++ e :: after →
          ReadsComposed literal opts e (commandsOf ((path.run opts before).1.step opts e).2)) ↔
      ∀ e ∈ events, ∀ ws ∈ composedBy opts e, ∀ w ∈ ws, w.Harmless literal := by
  induction events generalizing path with
  | nil =>
    exact iff_of_true ⟨fun c hc => absurd hc List.not_mem_nil, fun before e after h => by simp at h⟩
      fun e he => absurd he List.not_mem_nil
  | cons e es ih =>
    rw [InputPath.run, commandsOf_append, List.forall_mem_append, forall_split_cons,
      and_and_and_comm, List.forall_mem_cons, ← step_read_iff hliteral opts path e,
      ← ih (path.step opts e).1]
    exact Iff.rfl

/-- In every run of the input path, whatever the correlator's state, the law holds exactly when
every string that a request puts on its line is harmless. -/
theorem one_slot_per_line_iff (hliteral : SimpleLiteral literal) (opts : InputPathOptions)
    (path : InputPath) (events : List InputPath.Event) (corr : CommandCorrelator) :
    OneSlotPerLine literal opts path events corr ↔
      ∀ e ∈ events, ∀ ws ∈ composedBy opts e, ∀ w ∈ ws, w.Harmless literal := by
  rw [← run_read_iff hliteral opts path events]
  refine ⟨fun h => ⟨h.one_line, h.reads⟩, fun ⟨hone, hreads⟩ => ?_⟩
  have hlf : ∀ l ∈ (commandsOf (path.run opts events).2).map utf8, LF ∉ l := by
    intro l hl
    obtain ⟨c, hc, rfl⟩ := List.mem_map.mp hl
    rw [lf_mem_utf8, not_not]
    exact hone c hc
  refine ⟨hone, ?_, ?_, hreads⟩
  · rw [deliverAll_registered, deliverAll_written, count_terminated _ hlf, List.length_map]
  · rw [deliverAll_written, readLines_terminated _ hlf]

/-- The id conversions the session proxy uses. The two library functions are stand-ins:
no command below calls them. -/
def plainOptions : InputPathOptions :=
  ⟨defaultPaneIdToTmux, defaultWindowIdToTmux, true, true, fun _ => List.replicate 20 0,
    fromCharCodes⟩

/-- Two renames, a window, and keys for a pane. -/
def quotedRequests : List InputPath.Event :=
  [.message ⟨true, none, none⟩ (.commandRequest "c1" (.renameWindow ⟨"w0"⟩ "it's; mine")),
    .message ⟨true, none, none⟩ (.input ⟨"p1"⟩ "ls\n"),
    .message ⟨true, none, none⟩ (.commandRequest "c2" (.openWindow (some "#1 log") none
      (some "tail -f log") (some [("A", "1 2")])))]

theorem one_slot_per_line_quoted :
    OneSlotPerLine tmuxLiteral plainOptions .init quotedRequests .init :=
  (one_slot_per_line_iff simpleLiteral_tmuxLiteral _ _ _ _).mpr (by decide +kernel)

/-- A window name with a line break is one slot and two lines, and the name of the session to
kill is not quoted: tmux runs the second command of either. -/
theorem one_slot_per_line_fails :
    (¬OneSlotPerLine tmuxLiteral plainOptions .init
      [.message ⟨true, none, none⟩
        (.commandRequest "c1" (.renameWindow ⟨"w0"⟩ "a\nkill-server"))] .init) ∧
    ¬OneSlotPerLine tmuxLiteral plainOptions .init
      [.message ⟨true, none, none⟩ (.commandRequest "c1" (.killSession "a ; kill-server"))]
      .init := by
  rw [one_slot_per_line_iff simpleLiteral_tmuxLiteral, one_slot_per_line_iff
    simpleLiteral_tmuxLiteral]
  decide +kernel

end TmuxccDriver.Runtime
