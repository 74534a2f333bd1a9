import TmuxccDriver.Parser.Commands
import TmuxccDriver.Parser.Correlator
import TmuxccDriver.State.Model

/-!
# The input path

`runtime/input-path.ts`: every client message becomes the tmux commands it stands for,
an optimistic change of the model, and later a response to the client.

A callback that waits for the reply of a command is data here (`OnReply`), and so is what
a call does to the outside (`Action`). The chunks of a long input are sent one after the
other, each when the one before it was answered; `InputTail` is that chain.
-/

namespace TmuxccDriver.Runtime
open TmuxccDriver.Lib TmuxccDriver.Parser TmuxccDriver.Protocol TmuxccDriver.State

/-! ## Ids -/

/-- A JavaScript `TypeError`. -/
structure TypeError where
  message : String
deriving DecidableEq, Repr

/-- What the two id conversions differ in. -/
structure IdConvention where
  function : String
  idType : String
  letter : Char
  sample : String
  tmuxSample : String
  tmuxNum : String

/-- The common body of `defaultPaneIdToTmux` and `defaultWindowIdToTmux`. -/
def idToTmux (c : IdConvention) (s : String) : Except TypeError Int :=
  if s.toList.head? ≠ some c.letter then
    .error ⟨s!"{c.function}: expected internal model {c.idType} format \"{c.letter}<N>\" " ++
      s!"(e.g. \"{c.sample}\"); got \"{s}\". If you have a tmux-format id " ++
      s!"(e.g. \"{c.tmuxSample}\"), use the model's {c.idType} directly " ++
      s!"(the session-proxy mints them as \"{c.letter}\" + {c.tmuxNum})."⟩
  else
    match parseInt s.toList.tail with
    | some n => .ok n
    | none =>
      .error ⟨s!"{c.function}: could not parse numeric suffix from {c.idType} \"{s}\"."⟩

def defaultPaneIdToTmux (id : PaneId) : Except TypeError Int :=
  idToTmux ⟨"defaultPaneIdToTmux", "PaneId", 'p', "p1", "%1", "tmuxPaneNum"⟩ id.raw

def defaultWindowIdToTmux (id : WindowId) : Except TypeError Int :=
  idToTmux ⟨"defaultWindowIdToTmux", "WindowId", 'w', "w3", "@9", "tmuxWindowNum"⟩ id.raw

/-! ## User options (`state/bootstrap.ts`) -/

def TMUXCC_LABEL_OPTION : String := "@tmuxcc_label"
def TMUXCC_BOUND_OPTION : String := "@tmuxcc-bound"
def TMUXCC_DETACH_OPTION : String := "@tmuxcc-detach"
def TMUXCC_ICON_OPTION : String := "@tmuxcc-icon"

/-- `.digest("hex")`. -/
def hex (digest : Bytes) : String := String.join (digest.map hexByte)

/-- `paneBoundOptionName`; `sha1` is the digest of the crypto library. -/
def paneBoundOptionName (sha1 : Bytes → Bytes) (clientId : Option String) : String :=
  match clientId with
  | none => TMUXCC_BOUND_OPTION
  | some id => TMUXCC_BOUND_OPTION ++ "-" ++ String.ofList ((hex (sha1 (utf8 id))).toList.take 16)

/-! ## What a message leads to -/

/-- The field one `internal:set-pane-policy` event touches. -/
inductive PanePolicyPatch
  | bound (on : Bool) (clientId : Option String)
  | detach (policy : Option DetachPolicy)
  | icon (icon : Option String)
deriving DecidableEq, Repr

/-- The `internal:` events the input path injects into the pipeline. -/
inductive SyntheticEvent
  | setWindowSync (windowId : WindowId) (on : Bool)
  | setWindowMonitorActivity (windowId : WindowId) (on : Bool)
  | setWindowMonitorSilence (windowId : WindowId) (seconds : Nat)
  | setPaneLabel (paneId : PaneId) (label : Option String)
  | setPanePolicy (paneId : PaneId) (patch : PanePolicyPatch)
deriving DecidableEq, Repr

inductive VerbResult
  | ok (newPaneId : Option PaneId) (newWindowId : Option WindowId)
  | failed (code message : String)
deriving DecidableEq, Repr

/-- The request a response answers. -/
structure Ack where
  correlationId : String
  verbKind : String
deriving DecidableEq, Repr

/-- What is done with the reply of a command. -/
inductive OnReply
  | ignored
  /-- Go on with the chunks of an input. -/
  | inputChunk
  /-- Return the ids tmux printed; `emptyBody` is the pane of an idempotent `break-pane`. -/
  | creating (ack : Ack) (emptyBody : Option PaneId)
  | acked (ack : Ack)
  /-- On an error, dispatch the event that takes the optimistic one back. -/
  | reversal (compensating : Option SyntheticEvent) (ack : Option Ack)
deriving DecidableEq, Repr

inductive Action
  | send (command : String) (onReply : OnReply)
  | sendBatch (commands : List String)
  | dispatchSynthetic (event : SyntheticEvent)
  | respond (correlationId : String) (result : VerbResult)
  | reportForPane (paneId : PaneId) (cols rows : Int)
deriving DecidableEq, Repr

/-- `InputPathOptions`, and the two library functions the input path calls: SHA-1 and
`TextDecoder.decode`. -/
structure InputPathOptions where
  paneIdToTmux : PaneId → Except TypeError Int
  windowIdToTmux : WindowId → Except TypeError Int
  dispatchSynthetic : Bool
  reportForPane : Bool
  sha1 : Bytes → Bytes
  decode : Bytes → String

/-- One call of `handleClientMessage`: whether a responder is given, whose connection it
is, and what `getModel` returns. -/
structure Call where
  respond : Bool
  clientId : Option String
  model : Option SessionModel

namespace InputPathOptions

variable (opts : InputPathOptions)

/-! ## Replies -/

/-- One character of `JSON.stringify` of a string. -/
def jsonChar (c : Char) : List Char :=
  if c = '"' ∨ c = '\\' then ['\\', c]
  else if c.toNat = 0x08 then ['\\', 'b']
  else if c.toNat = 0x09 then ['\\', 't']
  else if c.toNat = 0x0a then ['\\', 'n']
  else if c.toNat = 0x0c then ['\\', 'f']
  else if c.toNat = 0x0d then ['\\', 'r']
  else if c.toNat < 0x20 then
    ['\\', 'u', '0', '0', Nat.digitChar (c.toNat / 16), Nat.digitChar (c.toNat % 16)]
  else [c]

def jsonString (s : String) : String :=
  "\"" ++ String.ofList (s.toList.flatMap jsonChar) ++ "\""

/-- tmux's own words for a rejected command, or the generic ones. -/
def rejection (verbKind : String) (result : CommandResult) : VerbResult :=
  let errorBody := String.ofList (trim (opts.decode result.body).toList)
  .failed "verb.failed" (if errorBody ≠ "" then errorBody else s!"tmux rejected {verbKind}")

/-- `emptyBodyFallback` of `break-pane`. -/
def emptyBodyFallback (model : Option SessionModel) (paneId : PaneId) : Option VerbResult :=
  ((model.bind fun m => m.panes.get? paneId).map fun pane => .ok (some paneId) (some pane.windowId))

/-- What `runCreatingVerb` makes of the reply; `model` is the model at that moment. -/
def creatingResult (verbKind : String) (emptyBody : Option PaneId) (model : Option SessionModel) :
    Outcome → VerbResult
  | .rejected err =>
    .failed "verb.internal" s!"{verbKind} command failed at the correlator: Error: {err.message}"
  | .resolved result =>
    if !result.ok then opts.rejection verbKind result
    else
      let bodyText := opts.decode result.body
      match parseEffectIds bodyText with
      | some ids => .ok (some ⟨s!"p{ids.paneNum}"⟩) (some ⟨s!"w{ids.windowNum}"⟩)
      | none =>
        let fallback :=
          if trim bodyText.toList = [] then emptyBody.bind (emptyBodyFallback model) else none
        fallback.getD (.failed "verb.no-effect-ids"
          (s!"{verbKind} succeeded but its -P -F effect-id reply was unparseable: " ++
            jsonString bodyText))

/-- What `runAckVerb` makes of the reply. -/
def ackResult (verbKind : String) : Outcome → VerbResult
  | .rejected err =>
    .failed "verb.internal" s!"{verbKind} command failed at the correlator: Error: {err.message}"
  | .resolved result => if !result.ok then opts.rejection verbKind result else .ok none none

/-- The two callbacks of `sendCommandWithReversal`. -/
def reversalReply (compensating : Option SyntheticEvent) (ack : Option Ack) :
    Outcome → List Action
  | .rejected err =>
    ack.toList.map fun a =>
      .respond a.correlationId (.failed "verb.internal" s!"Error: {err.message}")
  | .resolved result =>
    if result.ok then ack.toList.map fun a => .respond a.correlationId (.ok none none)
    else
      compensating.toList.map .dispatchSynthetic ++
        ack.toList.map fun a => .respond a.correlationId (opts.rejection a.verbKind result)

/-! ## Sending -/

/-- `runCreatingVerb`. -/
def runCreatingVerb (call : Call) (correlationId verbKind cmd : String)
    (emptyBody : Option PaneId) : List Action :=
  [.send cmd (if call.respond then .creating ⟨correlationId, verbKind⟩ emptyBody else .ignored)]

/-- `runAckVerb`. -/
def runAckVerb (call : Call) (correlationId verbKind cmd : String) : List Action :=
  [.send cmd (if call.respond then .acked ⟨correlationId, verbKind⟩ else .ignored)]

/-- `sendCommandWithReversal`. `reverse` looks at the model before the command. -/
def sendCommandWithReversal (call : Call) (correlationId verbKind cmd : String)
    (optimistic : SyntheticEvent) (reverse : SessionModel → Option SyntheticEvent) :
    List Action :=
  let compensating := if opts.dispatchSynthetic then call.model.bind reverse else none
  let ack := if call.respond then some ⟨correlationId, verbKind⟩ else none
  .send cmd (.reversal compensating ack) ::
    if opts.dispatchSynthetic then [.dispatchSynthetic optimistic] else []

/-- The error of a `set-object-policy` that names no target. -/
def policyFailed (call : Call) (correlationId message : String) : List Action :=
  if call.respond then
    [.respond correlationId (.failed "verb.failed" s!"set-object-policy: {message}")]
  else []

/-- `buildPanePolicyEvent`. -/
def buildPanePolicyEvent (paneId : PaneId) (option : PolicyOption) (value : Option String)
    (clientId : Option String) : SyntheticEvent :=
  .setPanePolicy paneId <|
    match option with
    | .bound => .bound value.isSome clientId
    | .detach =>
      .detach (if value = some "detach" then some .detach
        else if value = some "kill" then some .kill
        else none)
    | .icon => .icon value

/-- `buildPanePolicyRevert`. -/
def buildPanePolicyRevert (paneId : PaneId) (option : PolicyOption) (prev : Pane)
    (clientId : Option String) : SyntheticEvent :=
  .setPanePolicy paneId <|
    match option with
    | .bound => .bound (paneBoundFor prev clientId) clientId
    | .detach => .detach prev.detach
    | .icon => .icon prev.icon

/-- `firstSessionName`. -/
def firstSessionName (model : SessionModel) : Option String :=
  model.boundSession.map (·.name)

/-! ## Commands -/

/-- The user option a `set-object-policy` writes. -/
def policyOptionName (call : Call) : PolicyOption → String
  | .bound => paneBoundOptionName opts.sha1 call.clientId
  | .detach => TMUXCC_DETACH_OPTION
  | .icon => TMUXCC_ICON_OPTION

/-- The `set-object-policy` branch. -/
def setObjectPolicy (call : Call) (correlationId : String) (scope : PolicyScope)
    (paneId : Option PaneId) (windowId : Option WindowId) (option : PolicyOption)
    (value : Option String) : Except TypeError (List Action) := do
  let optionName := opts.policyOptionName call option
  match scope with
  | .pane =>
    match paneId with
    | none => return policyFailed call correlationId "scope 'pane' requires paneId"
    | some pid =>
      let n ← opts.paneIdToTmux pid
      let cmd := match value with
        | none => unsetOptionForPane n optionName
        | some v => setOptionForPane n optionName v
      return opts.sendCommandWithReversal call correlationId "set-object-policy" cmd
        (buildPanePolicyEvent pid option value call.clientId) fun before =>
          (before.panes.get? pid).map fun prev =>
            buildPanePolicyRevert pid option prev call.clientId
  | .window =>
    match windowId with
    | none => return policyFailed call correlationId "scope 'window' requires windowId"
    | some wid =>
      let n ← opts.windowIdToTmux wid
      let cmd := match value with
        | none => unsetOptionForWindow n optionName
        | some v => setOptionForWindow n optionName v
      return runAckVerb call correlationId "set-object-policy" cmd
  | .session =>
    match call.model.bind firstSessionName with
    | none =>
      return policyFailed call correlationId "scope 'session' but no bound session in model"
    | some sessionName =>
      let cmd := match value with
        | none => unsetOptionForSession sessionName optionName
        | some v => setOptionForSession sessionName optionName v
      return runAckVerb call correlationId "set-object-policy" cmd

/-- `on ? "on" : "off"`. -/
def onOff (on : Bool) : String := if on then "on" else "off"

/-- `-t =<name> ` of the bound session, when the model has one. -/
def sessionFlag (call : Call) : String :=
  match call.model.bind firstSessionName with
  | some name => "-t =" ++ name ++ " "
  | none => ""

/-- The `command.request` branch of `handleClientMessage`. -/
def handleCommand (call : Call) (correlationId : String) :
    WireCommand → Except TypeError (List Action)
  | .openWindow name cwd shellCommand env =>
    return runCreatingVerb call correlationId "open-window"
      (newWindow ⟨name, shellCommand, cwd, true, env⟩) none
  | .splitPane paneId direction cwd shellCommand env => do
    let target ← paneId.mapM opts.paneIdToTmux
    return runCreatingVerb call correlationId "split-pane"
      (splitWindow target direction ⟨shellCommand, cwd, none, true, env⟩) none
  | .closePane paneId => do
    let n ← opts.paneIdToTmux paneId
    return runAckVerb call correlationId "close-pane" ("kill-pane -t %" ++ n.repr)
  | .renameWindow windowId name => do
    let n ← opts.windowIdToTmux windowId
    return runAckVerb call correlationId "rename-window"
      ("rename-window -t @" ++ n.repr ++ " " ++ singleQuoted name)
  | .renameSession name =>
    -- an empty name is dropped with a warning
    if name = "" then return []
    else
      return runAckVerb call correlationId "rename-session"
        ("rename-session " ++ sessionFlag call ++ singleQuoted name)
  | .selectPane paneId => do
    let n ← opts.paneIdToTmux paneId
    return [.send ("select-pane -t %" ++ n.repr) .ignored]
  | .resizePane _ cols rows => return [.send (refreshClientSize cols rows) .ignored]
  | .resizeManagedWindow _ _ _ panes => do
    let lines ← panes.mapM fun pane => do
      let n ← opts.paneIdToTmux pane.paneId
      return Parser.resizePane n pane.cols pane.rows
    return if lines.length > 0 then [.sendBatch lines] else []
  | .killSession sessionName =>
    return runAckVerb call correlationId "kill-session" ("kill-session -t =" ++ sessionName)
  | .setSynchronizePanes windowId on => do
    let n ← opts.windowIdToTmux windowId
    return opts.sendCommandWithReversal call correlationId "set-synchronize-panes"
      (setOptionForWindow n "synchronize-panes" (onOff on)) (.setWindowSync windowId on)
      fun before => (before.windows.get? windowId).map fun prev =>
        .setWindowSync windowId prev.synchronizePanes
  | .setMonitorActivity windowId on => do
    let n ← opts.windowIdToTmux windowId
    return opts.sendCommandWithReversal call correlationId "set-monitor-activity"
      (setOptionForWindow n "monitor-activity" (onOff on)) (.setWindowMonitorActivity windowId on)
      fun before => (before.windows.get? windowId).map fun prev =>
        .setWindowMonitorActivity windowId prev.monitorActivity
  | .setMonitorSilence windowId seconds => do
    let n ← opts.windowIdToTmux windowId
    -- `null`, zero and negative numbers of seconds switch it off
    let secondsVal := (seconds.getD 0).toNat
    return opts.sendCommandWithReversal call correlationId "set-monitor-silence"
      (setOptionForWindow n "monitor-silence" secondsVal.repr)
      (.setWindowMonitorSilence windowId secondsVal)
      fun before => (before.windows.get? windowId).map fun prev =>
        .setWindowMonitorSilence windowId prev.monitorSilence
  | .breakPane paneId => do
    let n ← opts.paneIdToTmux paneId
    return runCreatingVerb call correlationId "break-pane" (Parser.breakPane n true) (some paneId)
  | .swapPane paneId targetPaneId => do
    let n ← opts.paneIdToTmux paneId
    match targetPaneId with
    | some target =>
      let t ← opts.paneIdToTmux target
      return [.send ("swap-pane -s %" ++ n.repr ++ " -t %" ++ t.repr) .ignored]
    | none => return [.send ("swap-pane -D -t %" ++ n.repr) .ignored]
  | .renamePane paneId title => do
    let n ← opts.paneIdToTmux paneId
    return opts.sendCommandWithReversal call correlationId "rename-pane"
      (setOptionForPane n TMUXCC_LABEL_OPTION title)
      (.setPaneLabel paneId (if title = "" then none else some title))
      fun before => (before.panes.get? paneId).map fun prev => .setPaneLabel paneId prev.label
  | .setObjectPolicy scope paneId windowId option value =>
    opts.setObjectPolicy call correlationId scope paneId windowId option value
  | .killWindow windowId => do
    let n ← opts.windowIdToTmux windowId
    return runAckVerb call correlationId "kill-window" ("kill-window -t @" ++ n.repr)
  | .swapWindow sourceWindowId targetWindowId => do
    let source ← opts.windowIdToTmux sourceWindowId
    let target ← opts.windowIdToTmux targetWindowId
    return runAckVerb call correlationId "swap-window"
      ("swap-window -s @" ++ source.repr ++ " -t @" ++ target.repr)
  -- answered by the session proxy, dropped here
  | .paneCapture _ => return []
  | .sessionProxyInfo => return []

end InputPathOptions

/-! ## Input in chunks -/

/-- `INPUT_CHUNK_BYTES`. -/
def INPUT_CHUNK_BYTES : Nat := 5000

/-- The segments `sendInputChunked` sends: one, or one for each turn of its loop. -/
def inputChunks (bytes : Bytes) : List Bytes :=
  if bytes.length ≤ INPUT_CHUNK_BYTES then [bytes]
  else
    (List.range ((bytes.length + INPUT_CHUNK_BYTES - 1) / INPUT_CHUNK_BYTES)).map fun i =>
      (bytes.drop (i * INPUT_CHUNK_BYTES)).take INPUT_CHUNK_BYTES

/-- One call of `enqueueInput`. -/
structure InputJob where
  tmuxPaneNum : Int
  bytes : Bytes
deriving DecidableEq, Repr

/-- The chain behind `inputTail`: the running `sendInputChunked` with the segments it has
not sent, `none` once it has returned, and the calls that wait for it. -/
structure InputTail where
  tmuxPaneNum : Int
  rest : Option (List Bytes)
  waiting : List InputJob
deriving DecidableEq, Repr

structure InputPath where
  inputTail : Option InputTail
deriving DecidableEq, Repr

namespace InputPath

def init : InputPath := ⟨none⟩

/-- The first segment of a call of `sendInputChunked`. -/
def startInput (job : InputJob) (waiting : List InputJob) : InputPath × List Action :=
  let chunks := inputChunks job.bytes
  (⟨some ⟨job.tmuxPaneNum, some chunks.tail, waiting⟩⟩,
    chunks.head?.toList.map fun chunk => .send (sendKeysHex job.tmuxPaneNum chunk) .inputChunk)

/-- `enqueueInput`. -/
def enqueueInput (path : InputPath) (job : InputJob) : InputPath × List Action :=
  match path.inputTail with
  | none => startInput job []
  | some tail => (⟨some { tail with waiting := tail.waiting ++ [job] }⟩, [])

/-- The `input` branch of `handleClientMessage`. -/
def handleInput (path : InputPath) (tmuxPaneNum : Int) (data : String) : InputPath × List Action :=
  let bytes := utf8 data
  if path.inputTail = none ∧ bytes.length ≤ INPUT_CHUNK_BYTES then
    (path, [.send (sendKeysHex tmuxPaneNum bytes) .ignored])
  else path.enqueueInput ⟨tmuxPaneNum, bytes⟩

/-- The reply of a segment: an error drops the segments after it. -/
def continueInput (path : InputPath) (outcome : Outcome) : InputPath × List Action :=
  match path.inputTail with
  | some ⟨tmuxPaneNum, some (chunk :: rest), waiting⟩ =>
    match outcome with
    | .resolved ⟨true, _, _⟩ =>
      (⟨some ⟨tmuxPaneNum, some rest, waiting⟩⟩,
        [.send (sendKeysHex tmuxPaneNum chunk) .inputChunk])
    | _ => (⟨some ⟨tmuxPaneNum, none, waiting⟩⟩, [])
  | some ⟨tmuxPaneNum, some [], waiting⟩ => (⟨some ⟨tmuxPaneNum, none, waiting⟩⟩, [])
  | _ => (path, [])

/-- What runs after a call of `sendInputChunked` has returned: the next one in the chain,
or the reset of `inputTail`. -/
def inputReturned (path : InputPath) : InputPath × List Action :=
  match path.inputTail with
  | some ⟨_, none, job :: waiting⟩ => startInput job waiting
  | some ⟨_, none, []⟩ => (⟨none⟩, [])
  | _ => (path, [])

/-! ## Messages and replies -/

/-- `handleClientMessage`. -/
def handleClientMessage (opts : InputPathOptions) (path : InputPath) (call : Call) :
    ClientMessage → Except TypeError (InputPath × List Action)
  | .input paneId data => do
    let n ← opts.paneIdToTmux paneId
    return path.handleInput n data
  | .resizeRequest paneId cols rows =>
    return (path, if opts.reportForPane then [.reportForPane paneId cols rows] else [])
  | .commandRequest correlationId command => do
    let actions ← opts.handleCommand call correlationId command
    return (path, actions)
  | .notInput => return (path, [])

/-- The continuation of a command's promise; `model` is what `getModel` returns then. -/
def handleReply (opts : InputPathOptions) (path : InputPath) (model : Option SessionModel)
    (outcome : Outcome) : OnReply → InputPath × List Action
  | .ignored => (path, [])
  | .inputChunk => path.continueInput outcome
  | .creating ack emptyBody =>
    (path, [.respond ack.correlationId
      (opts.creatingResult ack.verbKind emptyBody model outcome)])
  | .acked ack => (path, [.respond ack.correlationId (opts.ackResult ack.verbKind outcome)])
  | .reversal compensating ack => (path, opts.reversalReply compensating ack outcome)

/-- What the outside does to the input path. -/
inductive Event
  | message (call : Call) (msg : ClientMessage)
  | reply (onReply : OnReply) (outcome : Outcome) (model : Option SessionModel)
  | inputReturned

/-- One event. A `TypeError` goes to the caller and leaves the input path as it was. -/
def step (opts : InputPathOptions) (path : InputPath) : Event → InputPath × List Action
  | .message call msg =>
    match path.handleClientMessage opts call msg with
    | .ok result => result
    | .error _ => (path, [])
  | .reply onReply outcome model => path.handleReply opts model outcome onReply
  | .inputReturned => path.inputReturned

/-- A list of events, with everything done to the outside, in order. -/
def run (opts : InputPathOptions) (path : InputPath) : List Event → InputPath × List Action
  | [] => (path, [])
  | e :: es =>
    let (path, actions) := path.step opts e
    let (path, rest) := run opts path es
    (path, actions ++ rest)

end InputPath

end TmuxccDriver.Runtime
