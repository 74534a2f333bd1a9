import TmuxccDriver.Runtime.InputLines

/-!
# The order of input

Input messages, the `send-keys` commands the input path writes for them, and tmux's
replies, which come in the order of the commands. A message that arrives while the
chunks of another one are being sent waits for it.

Results:
1. `decodeSendKeys_sendKeysHex`: a `send-keys` command gives its bytes back.
2. `told_step`, `told_run`: after every run the commands written so far are the written
   parts of the messages in arrival order.
3. `input_order`: with every reply ok, what was typed into a pane is the concatenation of
   its messages, once everything is settled; only an error drops the rest of a message.
-/

namespace TmuxccDriver.Runtime
open TmuxccDriver.Lib TmuxccDriver.Protocol TmuxccDriver.Parser

/-! ## Decoding -/

/-- What a command types into a pane: the bytes of a `send-keys -H` to it. -/
def decodeSendKeys (tmuxPaneNum : Int) (command : String) : Bytes :=
  match command.toList.splitOn ' ' with
  | verb :: literal :: flag :: target :: tokens =>
    if verb = "send-keys".toList ∧ literal = "-H".toList ∧ flag = "-t".toList ∧
        target = ("%" ++ tmuxPaneNum.repr).toList then
      (tokens.mapM parseHexByte).getD []
    else []
  | _ => []

/-- The tokens of a `send-keys -H` command. -/
def sendKeysTokens (tmuxPaneNum : Int) (bytes : Bytes) : List String :=
  ["send-keys", "-H", "-t", "%" ++ tmuxPaneNum.repr] ++ bytes.map hexByte

theorem sendKeysHex_eq (tmuxPaneNum : Int) (bytes : Bytes) :
    sendKeysHex tmuxPaneNum bytes = " ".intercalate (sendKeysTokens tmuxPaneNum bytes) := by
  rw [sendKeysHex, sendKeysTokens]
  cases bytes with
  | nil => simp [String.intercalate_cons_cons, ← String.append_assoc]
  | cons b bytes => simp [String.intercalate_cons_cons, ← String.append_assoc]

theorem space_notMem_sendKeysTokens (tmuxPaneNum : Int) (bytes : Bytes) :
    ∀ cs ∈ (sendKeysTokens tmuxPaneNum bytes).map String.toList, ' ' ∉ cs := by
  have hnat : ∀ n : Nat, ' ' ∉ n.repr.toList := by
    intro n h
    rw [Nat.toList_repr] at h
    exact absurd (Nat.isDigit_of_mem_toDigits (by decide) (by decide) h) (by decide)
  have hint : ' ' ∉ tmuxPaneNum.repr.toList := by
    cases tmuxPaneNum with
    | ofNat n => exact hnat n
    | negSucc n =>
      have hminus : (Int.negSucc n).repr.toList = '-' :: (n + 1).repr.toList := String.toList_append
      rw [hminus, List.mem_cons, not_or]
      exact ⟨by decide, hnat (n + 1)⟩
  have hhex : ∀ b : UInt8, ' ' ∉ (hexByte b).toList := by
    have hdigit : ∀ n < 16, ' ' ≠ Nat.digitChar n := by decide
    intro b
    have hlt : b.toNat < 256 := b.toNat_lt
    rw [hexByte, String.toList_ofList]
    simp [hdigit (b.toNat / 16) (by omega), hdigit (b.toNat % 16) (by omega)]
  simp [sendKeysTokens, hint, hhex]

theorem mapM_parseHexByte (bytes : Bytes) :
    ((bytes.map hexByte).map String.toList).mapM parseHexByte = some bytes := by
  induction bytes with
  | nil => rfl
  | cons b bytes ih =>
    rw [List.map_cons, List.map_cons, List.mapM_cons, parseHexByte_hexByte, ih]
    rfl

/-- A command is read back for its own pane, and types nothing into another one. -/
theorem decodeSendKeys_sendKeysHex (m n : Int) (bytes : Bytes) :
    decodeSendKeys n (sendKeysHex m bytes) = if m = n then bytes else [] := by
  have hsplit : (sendKeysHex m bytes).toList.splitOn ' ' =
      (sendKeysTokens m bytes).map String.toList := by
    rw [sendKeysHex_eq, String.toList_intercalate]
    exact List.splitOn_intercalate ' ' (space_notMem_sendKeysTokens m bytes)
      (by simp [sendKeysTokens])
  have htarget : ("%" ++ m.repr).toList = ("%" ++ n.repr).toList ↔ m = n := by
    rw [String.toList_append, String.toList_append, List.append_cancel_left_eq, String.toList_inj,
      int_repr_inj]
  rw [decodeSendKeys, hsplit, sendKeysTokens]
  simp only [List.cons_append, List.nil_append, List.map_cons, true_and, htarget,
    mapM_parseHexByte, Option.getD_some]

/-! ## Chunks -/

/-- The first `k` segments. -/
theorem flatten_segments (bytes : Bytes) (size k : Nat) :
    ((List.range k).map fun i => (bytes.drop (i * size)).take size).flatten =
      bytes.take (k * size) := by
  induction k with
  | zero => simp
  | succ k ih =>
    rw [List.range_succ, List.map_append, List.flatten_append, ih, Nat.succ_mul, List.take_add]
    simp

/-- The segments of an input are the input, cut. -/
theorem flatten_inputChunks (bytes : Bytes) : (inputChunks bytes).flatten = bytes := by
  rw [inputChunks]
  split
  · exact List.flatten_singleton
  · rw [flatten_segments]
    have hround : bytes.length ≤
        (bytes.length + INPUT_CHUNK_BYTES - 1) / INPUT_CHUNK_BYTES * INPUT_CHUNK_BYTES := by
      rw [INPUT_CHUNK_BYTES]
      omega
    exact List.take_of_length_le hround

theorem inputChunks_ne_nil (bytes : Bytes) : inputChunks bytes ≠ [] := by
  rw [inputChunks]
  split
  · exact List.cons_ne_nil _ _
  · rename_i hlong
    have hturns : (bytes.length + INPUT_CHUNK_BYTES - 1) / INPUT_CHUNK_BYTES ≠ 0 := by
      rw [INPUT_CHUNK_BYTES] at hlong ⊢
      omega
    rw [ne_eq, List.map_eq_nil_iff, List.range_eq_nil]
    exact hturns

/-! ## Runs -/

/-- A command that was written, with what is done with its reply, and whether the reply
was ok, once it is there. -/
structure SentCommand where
  command : String
  onReply : OnReply
  reply : Option Bool
deriving DecidableEq, Repr

def sentBy (actions : List Action) : List SentCommand :=
  actions.filterMap fun
    | .send command onReply => some ⟨command, onReply, none⟩
    | _ => none

/-- The input path and the commands written so far. -/
structure InputWorld where
  path : InputPath
  log : List SentCommand
deriving DecidableEq, Repr

inductive InputEvent
  | input (paneId : PaneId) (data : String)
  /-- The reply of the oldest command that has none. -/
  | answer (outcome : Outcome)
  | returned

def isOk : Outcome → Bool
  | .resolved result => result.ok
  | .rejected _ => false

/-- The oldest command without a reply gets one. -/
def answerOldest (ok : Bool) : List SentCommand → List SentCommand
  | [] => []
  | s :: log =>
    if s.reply = none then { s with reply := some ok } :: log else s :: answerOldest ok log

namespace InputWorld

variable (opts : InputPathOptions)

def init : InputWorld := ⟨.init, []⟩

def step (w : InputWorld) : InputEvent → InputWorld
  | .input paneId data =>
    match opts.paneIdToTmux paneId with
    | .ok n =>
      let (path, actions) := w.path.handleInput n data
      ⟨path, w.log ++ sentBy actions⟩
    | .error _ => w
  | .answer outcome =>
    match w.log.find? (·.reply = none) with
    | some s =>
      let (path, actions) := w.path.handleReply opts none outcome s.onReply
      ⟨path, answerOldest (isOk outcome) w.log ++ sentBy actions⟩
    | none => w
  | .returned =>
    let (path, actions) := w.path.inputReturned
    ⟨path, w.log ++ sentBy actions⟩

def run (w : InputWorld) (es : List InputEvent) : InputWorld := es.foldl (step opts) w

end InputWorld

/-- An input message that reached a pane, as bytes. -/
structure InputMessage where
  tmuxPaneNum : Int
  bytes : Bytes
deriving DecidableEq, Repr

def arrival (opts : InputPathOptions) : InputEvent → Option InputMessage
  | .input paneId data =>
    match opts.paneIdToTmux paneId with
    | .ok n => some ⟨n, utf8 data⟩
    | .error _ => none
  | _ => none

/-- The messages of a run in arrival order. -/
def arrived (opts : InputPathOptions) (es : List InputEvent) : List InputMessage :=
  es.filterMap (arrival opts)

/-! ## Accounts -/

/-- What became of one message: the chunks that tmux took, the last chunk that was
written with its reply, and the bytes that were not written. -/
structure Account where
  tmuxPaneNum : Int
  onReply : OnReply
  passed : List Bytes
  last : Option (Bytes × Option Bool)
  rest : Bytes

namespace Account

def writtenBytes (a : Account) : Bytes := a.passed.flatten ++ (a.last.toList.map Prod.fst).flatten

def message (a : Account) : InputMessage := ⟨a.tmuxPaneNum, a.writtenBytes ++ a.rest⟩

/-- Its commands in the log. -/
def sent (a : Account) : List SentCommand :=
  a.passed.map (fun chunk => ⟨sendKeysHex a.tmuxPaneNum chunk, a.onReply, some true⟩) ++
    a.last.toList.map fun last => ⟨sendKeysHex a.tmuxPaneNum last.1, a.onReply, last.2⟩

/-- The last chunk was answered with an error. -/
def Failed (a : Account) : Prop := ∃ chunk, a.last = some (chunk, some false)

/-- A chunk waits for its reply. -/
def Waits (a : Account) : Prop := ∃ chunk, a.last = some (chunk, none)

/-- Nothing more is written for it. A reply that is still to come is ignored. -/
structure Done (a : Account) : Prop where
  complete : a.rest = [] ∨ a.Failed
  ignored : a.Waits → a.onReply = .ignored

/-- A message that waits for the chunks before it. -/
def fresh (job : InputJob) : Account := ⟨job.tmuxPaneNum, .inputChunk, [], none, job.bytes⟩

end Account

/-- How the messages stand with the chain behind `inputTail`. -/
inductive Stands : InputPath → List Account → Prop
  | idle {done : List Account} (hdone : ∀ a ∈ done, a.Done) : Stands ⟨none⟩ done
  | sending {n : Int} {passed : List Bytes} {chunk : Bytes} {rest : List Bytes}
      {waiting : List InputJob} {done : List Account} (hdone : ∀ a ∈ done, a.Done) :
      Stands ⟨some ⟨n, some rest, waiting⟩⟩
        (done ++ ⟨n, .inputChunk, passed, some (chunk, none), rest.flatten⟩ ::
          waiting.map Account.fresh)
  | returned {n : Int} {waiting : List InputJob} {done : List Account}
      (hdone : ∀ a ∈ done, a.Done) :
      Stands ⟨some ⟨n, none, waiting⟩⟩ (done ++ waiting.map Account.fresh)

namespace Account

theorem sent_fresh (job : InputJob) : (fresh job).sent = [] := rfl

theorem message_fresh (job : InputJob) : (fresh job).message = ⟨job.tmuxPaneNum, job.bytes⟩ := rfl

theorem flatMap_sent_fresh (jobs : List InputJob) : (jobs.map fresh).flatMap sent = [] := by
  rw [List.flatMap_map]
  exact List.flatMap_eq_nil_iff.mpr fun job _ => sent_fresh job

/-- Only the last chunk can be without a reply. -/
theorem replied_of_not_waits {a : Account} (h : ¬a.Waits) : ∀ s ∈ a.sent, s.reply ≠ none := by
  intro s hs hnone
  rw [sent, List.mem_append, List.mem_map, List.mem_map] at hs
  obtain ⟨chunk, -, rfl⟩ | ⟨last, hlast, rfl⟩ := hs
  · cases hnone
  · refine h ⟨last.1, ?_⟩
    rw [Option.mem_toList] at hlast
    obtain ⟨chunk, reply⟩ := last
    cases hnone
    exact hlast

end Account

/-! ## Replies -/

/-- The oldest command without a reply comes behind commands that have theirs. -/
theorem answerOldest_append {before : List SentCommand} (hbefore : ∀ s ∈ before, s.reply ≠ none)
    (ok : Bool) (log : List SentCommand) :
    answerOldest ok (before ++ log) = before ++ answerOldest ok log := by
  induction before with
  | nil => rfl
  | cons s before ih =>
    obtain ⟨hs, hbefore⟩ := List.forall_mem_cons.mp hbefore
    rw [List.cons_append, answerOldest, if_neg hs, ih hbefore, List.cons_append]

theorem find_oldest_append {before : List SentCommand} (hbefore : ∀ s ∈ before, s.reply ≠ none)
    (log : List SentCommand) :
    (before ++ log).find? (·.reply = none) = log.find? (·.reply = none) := by
  rw [List.find?_append, List.find?_eq_none.mpr fun s hs => by simpa using hbefore s hs]
  rfl

/-- The reply of the last chunk of a message. -/
theorem answered_account (n : Int) (onReply : OnReply) (passed : List Bytes) (chunk rest : Bytes)
    (ok : Bool) (more : List SentCommand) :
    let a (reply : Option Bool) : Account := ⟨n, onReply, passed, some (chunk, reply), rest⟩
    ((a none).sent ++ more).find? (·.reply = none) =
        some ⟨sendKeysHex n chunk, onReply, none⟩ ∧
      answerOldest ok ((a none).sent ++ more) = (a (some ok)).sent ++ more := by
  let done (chunk : Bytes) : SentCommand := ⟨sendKeysHex n chunk, onReply, some true⟩
  have hpassed : ∀ s ∈ passed.map done, s.reply ≠ none := by
    simp [done]
  constructor
  · rw [Account.sent, List.append_assoc, find_oldest_append hpassed]
    rfl
  · rw [Account.sent, List.append_assoc, answerOldest_append hpassed, Account.sent,
      List.append_assoc]
    rfl

/-- A reply to a message that is done changes nothing but its account. -/
theorem answered_done {done : List Account} (hdone : ∀ a ∈ done, a.Done) (ok : Bool)
    (more : List SentCommand) :
    (∀ s ∈ done.flatMap Account.sent, s.reply ≠ none) ∨
    ∃ (s : SentCommand) (done' : List Account),
      (done.flatMap Account.sent ++ more).find? (·.reply = none) = some s ∧
      s.onReply = .ignored ∧
      answerOldest ok (done.flatMap Account.sent ++ more) = done'.flatMap Account.sent ++ more ∧
      done'.map Account.message = done.map Account.message ∧ ∀ a ∈ done', a.Done := by
  induction done with
  | nil => exact .inl (by simp)
  | cons a done ih =>
    obtain ⟨ha, hrest⟩ := List.forall_mem_cons.mp hdone
    rw [List.flatMap_cons, List.append_assoc]
    by_cases hwaits : a.Waits
    · right
      obtain ⟨n, onReply, passed, last, rest⟩ := a
      have hignored := ha.ignored hwaits
      have hcomplete := ha.complete
      obtain ⟨chunk, rfl⟩ := hwaits
      obtain rfl : onReply = .ignored := hignored
      obtain ⟨hfind, hanswer⟩ := answered_account n .ignored passed chunk rest ok
        (done.flatMap Account.sent ++ more)
      refine ⟨_, ⟨n, .ignored, passed, some (chunk, some ok), rest⟩ :: done, hfind, rfl, ?_, rfl,
        ?_⟩
      · rw [hanswer, List.flatMap_cons, List.append_assoc]
      · rw [List.forall_mem_cons]
        refine ⟨⟨.inl (hcomplete.resolve_right ?_), fun _ => rfl⟩, hrest⟩
        rintro ⟨_, hfailed⟩
        cases hfailed
    · have hreplied := Account.replied_of_not_waits hwaits
      obtain hall | ⟨s, done', hfind, hs, hanswer, hmessages, hdone'⟩ := ih hrest
      · left
        rw [List.forall_mem_append]
        exact ⟨hreplied, hall⟩
      · right
        refine ⟨s, a :: done', ?_, hs, ?_, ?_, ?_⟩
        · rw [find_oldest_append hreplied, hfind]
        · rw [answerOldest_append hreplied, hanswer, List.flatMap_cons, List.append_assoc]
        · rw [List.map_cons, List.map_cons, hmessages]
        · exact List.forall_mem_cons.mpr ⟨ha, hdone'⟩

/-! ## Steps -/

/-- The first segment of a job is written, the others are left. -/
theorem startInput_eq (job : InputJob) (waiting : List InputJob) :
    ∃ chunk rest, chunk ++ rest.flatten = job.bytes ∧
      InputPath.startInput job waiting =
        (⟨some ⟨job.tmuxPaneNum, some rest, waiting⟩⟩,
          [.send (sendKeysHex job.tmuxPaneNum chunk) .inputChunk]) := by
  have hflat := flatten_inputChunks job.bytes
  cases hchunks : inputChunks job.bytes with
  | nil => exact absurd hchunks (inputChunks_ne_nil job.bytes)
  | cons chunk rest =>
    rw [hchunks, List.flatten_cons] at hflat
    refine ⟨chunk, rest, hflat, ?_⟩
    rw [InputPath.startInput, hchunks]
    rfl

/-- The accounts of the messages that have arrived. -/
structure Told (w : InputWorld) (accounts : List Account) (messages : List InputMessage) :
    Prop where
  stands : Stands w.path accounts
  log_eq : accounts.flatMap Account.sent = w.log
  messages_eq : accounts.map Account.message = messages

section
variable {opts : InputPathOptions} {w : InputWorld} {accounts : List Account}
  {messages : List InputMessage}

/-- A message is written at once, or its first chunk is, or it waits. -/
theorem told_handleInput (h : Told w accounts messages) (n : Int) (data : String) :
    ∃ accounts', Told ⟨(w.path.handleInput n data).1,
      w.log ++ sentBy (w.path.handleInput n data).2⟩ accounts' (messages ++ [⟨n, utf8 data⟩]) := by
  obtain ⟨hstands, hlog, rfl⟩ := h
  obtain ⟨path, log⟩ := w
  subst hlog
  cases hstands with
  | idle hdone =>
    by_cases hshort : (utf8 data).length ≤ INPUT_CHUNK_BYTES
    · refine ⟨accounts ++ [⟨n, .ignored, [], some (utf8 data, none), []⟩], ?_, ?_, ?_⟩
      · rw [InputPath.handleInput, if_pos ⟨rfl, hshort⟩]
        refine .idle (List.forall_mem_append.mpr ⟨hdone, ?_⟩)
        rw [List.forall_mem_singleton]
        exact ⟨.inl rfl, fun _ => rfl⟩
      · rw [InputPath.handleInput, if_pos ⟨rfl, hshort⟩, List.flatMap_append]
        rfl
      · simp [Account.message, Account.writtenBytes]
    · obtain ⟨chunk, rest, hbytes, hstart⟩ := startInput_eq ⟨n, utf8 data⟩ []
      rw [InputPath.handleInput, if_neg fun h => hshort h.2, InputPath.enqueueInput, hstart]
      refine ⟨accounts ++ [⟨n, .inputChunk, [], some (chunk, none), rest.flatten⟩], .sending hdone,
        ?_, ?_⟩
      · rw [List.flatMap_append]
        rfl
      · simp [Account.message, Account.writtenBytes, hbytes]
  | @sending m passed chunk rest waiting done hdone =>
    rw [InputPath.handleInput, if_neg (by simp), InputPath.enqueueInput]
    refine ⟨_, @Stands.sending m passed chunk rest (waiting ++ [⟨n, utf8 data⟩]) done hdone, ?_, ?_⟩
    · simp [List.flatMap_append, Account.flatMap_sent_fresh, Account.sent_fresh, sentBy]
    · simp [Account.message_fresh, Function.comp_def]
  | returned hdone =>
    rw [InputPath.handleInput, if_neg (by simp), InputPath.enqueueInput]
    refine ⟨_, .returned hdone, ?_, ?_⟩
    · simp [List.flatMap_append, Account.flatMap_sent_fresh, Account.sent_fresh, sentBy]
    · simp [Account.message_fresh, Function.comp_def]

/-- The waiting messages keep to their order: the next one is started, or none is left. -/
theorem told_inputReturned (h : Told w accounts messages) :
    ∃ accounts', Told ⟨w.path.inputReturned.1, w.log ++ sentBy w.path.inputReturned.2⟩
      accounts' messages := by
  obtain ⟨hstands, hlog, rfl⟩ := h
  obtain ⟨path, log⟩ := w
  subst hlog
  cases hstands with
  | idle hdone => exact ⟨accounts, .idle hdone, (List.append_nil _).symm, rfl⟩
  | sending hdone => exact ⟨_, .sending hdone, (List.append_nil _).symm, rfl⟩
  | @returned n waiting done hdone =>
    cases waiting with
    | nil => exact ⟨done, .idle hdone, by simp [InputPath.inputReturned, sentBy], by simp⟩
    | cons job waiting =>
      obtain ⟨chunk, rest, hbytes, hstart⟩ := startInput_eq job waiting
      have hnext : InputPath.inputReturned ⟨some ⟨n, none, job :: waiting⟩⟩ = _ := hstart
      rw [hnext]
      refine ⟨_, @Stands.sending job.tmuxPaneNum [] chunk rest waiting done hdone, ?_, ?_⟩
      · simp only [List.map_cons, List.flatMap_append, List.flatMap_cons,
          Account.flatMap_sent_fresh, Account.sent_fresh, List.append_nil]
        rfl
      · simp [Account.message, Account.writtenBytes, Account.fresh, hbytes]

/-- The reply of the chunk that is being sent: the next chunk is written, or the message
is done, with its rest dropped after an error. -/
theorem stands_continueInput {n : Int} {passed : List Bytes} {chunk : Bytes} {rest : List Bytes}
    {waiting : List InputJob} {done : List Account} (hdone : ∀ a ∈ done, a.Done)
    (outcome : Outcome) :
    ∃ current : Account,
      let result := InputPath.continueInput ⟨some ⟨n, some rest, waiting⟩⟩ outcome
      Stands result.1 (done ++ current :: waiting.map Account.fresh) ∧
      current.message = Account.message ⟨n, .inputChunk, passed, some (chunk, none), rest.flatten⟩ ∧
      current.sent =
        Account.sent ⟨n, .inputChunk, passed, some (chunk, some (isOk outcome)), rest.flatten⟩ ++
          sentBy result.2 := by
  -- without a next chunk, or after an error, the message is done
  have hend : ∀ ok : Bool, rest = [] ∨ ok = false →
      Stands ⟨some ⟨n, none, waiting⟩⟩
        (done ++ ⟨n, .inputChunk, passed, some (chunk, some ok), rest.flatten⟩ ::
          waiting.map Account.fresh) := by
    intro ok hlast
    rw [List.append_cons]
    refine .returned (List.forall_mem_append.mpr ⟨hdone, List.forall_mem_singleton.mpr ⟨?_, ?_⟩⟩)
    · rcases hlast with rfl | rfl
      · exact .inl rfl
      · exact .inr ⟨chunk, rfl⟩
    · rintro ⟨_, hnone⟩
      cases hnone
  cases rest with
  | nil => exact ⟨_, hend (isOk outcome) (.inl rfl), rfl, (List.append_nil _).symm⟩
  | cons next rest =>
    match outcome with
    | .resolved ⟨true, _, _⟩ =>
      refine ⟨⟨n, .inputChunk, passed ++ [chunk], some (next, none), rest.flatten⟩,
        .sending hdone, ?_, ?_⟩
      · simp [Account.message, Account.writtenBytes]
      · simp [Account.sent, isOk, InputPath.continueInput, sentBy]
    | .resolved ⟨false, _, _⟩ => exact ⟨_, hend false (.inr rfl), rfl, (List.append_nil _).symm⟩
    | .rejected _ => exact ⟨_, hend false (.inr rfl), rfl, (List.append_nil _).symm⟩

theorem step_answer_none {path : InputPath} {log : List SentCommand}
    (h : log.find? (·.reply = none) = none) (outcome : Outcome) :
    InputWorld.step opts ⟨path, log⟩ (.answer outcome) = ⟨path, log⟩ := by
  rw [InputWorld.step, h]

theorem step_answer_some {path : InputPath} {log : List SentCommand} {s : SentCommand}
    (h : log.find? (·.reply = none) = some s) (outcome : Outcome) :
    InputWorld.step opts ⟨path, log⟩ (.answer outcome) =
      ⟨(path.handleReply opts none outcome s.onReply).1,
        answerOldest (isOk outcome) log ++
          sentBy (path.handleReply opts none outcome s.onReply).2⟩ := by
  rw [InputWorld.step, h]

/-- A reply to a message that is done, in front of the others. -/
theorem told_answer_done {path : InputPath} {done tail : List Account}
    (hdone : ∀ a ∈ done, a.Done)
    (hstands : ∀ done' : List Account, (∀ a ∈ done', a.Done) → Stands path (done' ++ tail))
    (outcome : Outcome) :
    (∀ s ∈ done.flatMap Account.sent, s.reply ≠ none) ∨
    ∃ accounts', Told
      (InputWorld.step opts ⟨path, (done ++ tail).flatMap Account.sent⟩ (.answer outcome))
      accounts' ((done ++ tail).map Account.message) := by
  obtain hnone | ⟨s, done', hfind, hignored, hanswer, hmessages, hdone'⟩ :=
    answered_done hdone (isOk outcome) (tail.flatMap Account.sent)
  · exact .inl hnone
  · rw [← List.flatMap_append] at hfind hanswer
    refine .inr ⟨done' ++ tail, ?_⟩
    rw [step_answer_some hfind, hignored, hanswer]
    refine ⟨hstands done' hdone', ?_, ?_⟩
    · rw [List.flatMap_append]
      exact (List.append_nil _).symm
    · rw [List.map_append, List.map_append, hmessages]

theorem find_oldest_eq_none {log : List SentCommand} (h : ∀ s ∈ log, s.reply ≠ none) :
    log.find? (·.reply = none) = none :=
  List.find?_eq_none.mpr fun s hs => by simpa using h s hs

theorem told_answer (h : Told w accounts messages) (outcome : Outcome) :
    ∃ accounts', Told (w.step opts (.answer outcome)) accounts' messages := by
  obtain ⟨path, log⟩ := w
  obtain ⟨hstands, hlog, rfl⟩ := h
  dsimp only at hstands hlog
  subst hlog
  cases hstands with
  | idle hdone =>
    have hsplit := @told_answer_done opts ⟨none⟩ accounts [] hdone
      (fun done' hdone' => by simpa using Stands.idle hdone') outcome
    rw [List.append_nil] at hsplit
    refine hsplit.elim (fun hreplied => ?_) id
    rw [step_answer_none (find_oldest_eq_none hreplied)]
    exact ⟨accounts, .idle hdone, rfl, rfl⟩
  | @sending n passed chunk rest waiting done hdone =>
    refine (told_answer_done hdone (fun _ hdone' => .sending hdone') outcome).elim
      (fun hreplied => ?_) id
    obtain ⟨current, hstands, hmessage, hsent⟩ :=
      @stands_continueInput n passed chunk rest waiting done hdone outcome
    obtain ⟨hfind, hanswer⟩ := answered_account n .inputChunk passed chunk rest.flatten
      (isOk outcome) ((waiting.map Account.fresh).flatMap Account.sent)
    have holdest := (find_oldest_append hreplied _).trans hfind
    have hanswered := answerOldest_append hreplied (isOk outcome) (Account.sent
      ⟨n, .inputChunk, passed, some (chunk, none), rest.flatten⟩ ++
        (waiting.map Account.fresh).flatMap Account.sent)
    rw [← List.flatMap_cons, ← List.flatMap_append] at holdest hanswered
    rw [step_answer_some holdest, hanswered, List.flatMap_cons, hanswer]
    refine ⟨_, hstands, ?_, ?_⟩
    · rw [List.flatMap_append, List.flatMap_cons, hsent, Account.flatMap_sent_fresh,
        List.append_nil, List.append_nil, List.append_assoc]
      rfl
    · simp [hmessage]
  | @returned n waiting done hdone =>
    refine (told_answer_done hdone (fun _ hdone' => .returned hdone') outcome).elim
      (fun hreplied => ?_) id
    have hnone : ((done ++ waiting.map Account.fresh).flatMap Account.sent).find?
        (·.reply = none) = none := by
      rw [List.flatMap_append, Account.flatMap_sent_fresh, List.append_nil]
      exact find_oldest_eq_none hreplied
    rw [step_answer_none hnone]
    exact ⟨_, .returned hdone, rfl, rfl⟩

/-- One event. -/
theorem told_step (h : Told w accounts messages) (e : InputEvent) :
    ∃ accounts', Told (w.step opts e) accounts' (messages ++ (arrival opts e).toList) := by
  cases e with
  | input paneId data =>
    rw [InputWorld.step, arrival]
    cases opts.paneIdToTmux paneId with
    | ok n => exact told_handleInput h n data
    | error _ => exact ⟨accounts, by simpa using h⟩
  | answer outcome => simpa [arrival] using told_answer h outcome
  | returned =>
    have hnone : arrival opts .returned = none := rfl
    rw [hnone, Option.toList_none, List.append_nil]
    exact told_inputReturned h

end

/-- After every run the log is the written parts of the messages, in arrival order. -/
theorem told_run (opts : InputPathOptions) (es : List InputEvent) :
    ∃ accounts, Told (InputWorld.init.run opts es) accounts (arrived opts es) := by
  induction es using List.reverseRecOn with
  | nil => exact ⟨[], .idle (by simp), rfl, rfl⟩
  | append_singleton es e ih =>
    obtain ⟨accounts, h⟩ := ih
    have hmessages : arrived opts (es ++ [e]) = arrived opts es ++ (arrival opts e).toList := by
      rw [arrived, arrived, List.filterMap_append]
      cases harrival : arrival opts e <;> simp [harrival]
    rw [InputWorld.run, List.foldl_concat, hmessages]
    exact told_step h e

/-! ## What is typed -/

/-- What the commands of a log type into a pane, in the order they were written. -/
def typed (n : Int) (log : List SentCommand) : Bytes :=
  log.flatMap fun s => decodeSendKeys n s.command

/-- The messages to a pane, one after the other. -/
def messagesTo (n : Int) (messages : List InputMessage) : Bytes :=
  messages.flatMap fun m => if m.tmuxPaneNum = n then m.bytes else []

@[simp] theorem typed_append (n : Int) (log more : List SentCommand) :
    typed n (log ++ more) = typed n log ++ typed n more := List.flatMap_append

@[simp] theorem messagesTo_append (n : Int) (messages more : List InputMessage) :
    messagesTo n (messages ++ more) = messagesTo n messages ++ messagesTo n more :=
  List.flatMap_append

theorem typed_sent (n : Int) (a : Account) :
    typed n a.sent = if a.tmuxPaneNum = n then a.writtenBytes else [] := by
  obtain ⟨m, onReply, passed, last, rest⟩ := a
  rw [typed, Account.sent, List.flatMap_append, List.flatMap_map, List.flatMap_map]
  simp only [decodeSendKeys_sendKeysHex, Account.writtenBytes]
  split
  · simp [List.flatMap_def]
  · simp

/-- An account that is done and did not fail was written whole. -/
theorem typed_done {a : Account} (ha : a.Done) (hok : ∀ s ∈ a.sent, s.reply ≠ some false)
    (n : Int) : typed n a.sent = messagesTo n [a.message] := by
  have hrest : a.rest = [] := by
    refine ha.complete.resolve_right fun ⟨chunk, hfailed⟩ => ?_
    exact hok ⟨sendKeysHex a.tmuxPaneNum chunk, a.onReply, some false⟩
      (by simp [Account.sent, hfailed]) rfl
  rw [typed_sent]
  simp [messagesTo, Account.message, hrest]

theorem typed_all_done {done : List Account} (hdone : ∀ a ∈ done, a.Done)
    (hok : ∀ s ∈ done.flatMap Account.sent, s.reply ≠ some false) (n : Int) :
    typed n (done.flatMap Account.sent) = messagesTo n (done.map Account.message) := by
  induction done with
  | nil => rfl
  | cons a done ih =>
    obtain ⟨ha, hrest⟩ := List.forall_mem_cons.mp hdone
    rw [List.flatMap_cons, List.forall_mem_append] at hok
    have hmessages : (a :: done).map Account.message = [a.message] ++ done.map Account.message :=
      rfl
    rw [List.flatMap_cons, typed_append, typed_done ha hok.1, ih hrest hok.2, hmessages,
      messagesTo_append]

section
variable {opts : InputPathOptions} {w : InputWorld} {accounts : List Account}
  {messages : List InputMessage}

/-- Before the chain has drained a part of the messages is typed, and nothing else. -/
theorem typed_isPrefix (h : Told w accounts messages) (hok : ∀ s ∈ w.log, s.reply ≠ some false)
    (n : Int) : typed n w.log <+: messagesTo n messages := by
  obtain ⟨path, log⟩ := w
  obtain ⟨hstands, hlog, rfl⟩ := h
  dsimp only at hstands hlog hok
  subst hlog
  have hfresh : ∀ jobs : List InputJob,
      typed n ((jobs.map Account.fresh).flatMap Account.sent) = [] := by
    intro jobs
    rw [Account.flatMap_sent_fresh]
    rfl
  cases hstands with
  | idle hdone => rw [typed_all_done hdone hok]
  | @sending m passed chunk rest waiting done hdone =>
    rw [List.flatMap_append, List.forall_mem_append] at hok
    rw [List.flatMap_append, List.flatMap_cons, typed_append, typed_append, hfresh,
      List.append_nil, typed_all_done hdone hok.1, List.map_append, messagesTo_append, typed_sent]
    refine (List.prefix_append_right_inj _).mpr ?_
    rw [messagesTo, List.map_cons, List.flatMap_cons]
    split
    · rename_i hpane
      rw [Account.message, if_pos hpane, List.append_assoc]
      exact List.prefix_append _ _
    · exact List.nil_prefix
  | @returned m waiting done hdone =>
    rw [List.flatMap_append, List.forall_mem_append] at hok
    rw [List.flatMap_append, typed_append, hfresh, List.append_nil, typed_all_done hdone hok.1,
      List.map_append, messagesTo_append]
    exact List.prefix_append _ _

/-- Every command has its reply, and no continuation of the chain is left to run. -/
structure Settled (opts : InputPathOptions) (w : InputWorld) : Prop where
  replied : ∀ s ∈ w.log, s.reply ≠ none
  still : w.step opts .returned = w

/-- A settled input path is idle. -/
theorem done_of_settled (h : Told w accounts messages) (hsettled : Settled opts w) :
    ∀ a ∈ accounts, a.Done := by
  obtain ⟨path, log⟩ := w
  obtain ⟨hstands, hlog, -⟩ := h
  obtain ⟨hreplied, hstill⟩ := hsettled
  dsimp only at hstands hlog hreplied
  subst hlog
  cases hstands with
  | idle hdone => exact hdone
  | @sending m passed chunk rest waiting done hdone =>
    exact absurd rfl (hreplied ⟨sendKeysHex m chunk, .inputChunk, none⟩ (by simp [Account.sent]))
  | @returned m waiting done hdone =>
    have hpath := congrArg (fun w : InputWorld => w.path.inputTail) hstill
    cases waiting with
    | nil => cases hpath
    | cons job waiting =>
      simp [InputWorld.step, InputPath.inputReturned, InputPath.startInput] at hpath

end

/-- Every run of input messages, replies and continuations. While no reply is an error,
what was typed into a pane is a part of its messages in arrival order, and all of them
once everything is settled. With errors the log still is the written parts of the
messages in arrival order: all chunks of a message but the last one written were taken
by tmux, and once everything is settled its unwritten rest is empty unless that last
chunk was answered with an error. -/
theorem input_order (opts : InputPathOptions) (es : List InputEvent) :
    let w := InputWorld.init.run opts es
    ((∀ s ∈ w.log, s.reply ≠ some false) → ∀ n,
      typed n w.log <+: messagesTo n (arrived opts es) ∧
        (Settled opts w → typed n w.log = messagesTo n (arrived opts es))) ∧
    ∃ accounts : List Account, accounts.map Account.message = arrived opts es ∧
      accounts.flatMap Account.sent = w.log ∧
      (Settled opts w → ∀ a ∈ accounts, a.rest = [] ∨ a.Failed) := by
  intro w
  obtain ⟨accounts, h⟩ := told_run opts es
  refine ⟨fun hok n => ⟨typed_isPrefix h hok n, fun hsettled => ?_⟩, accounts, h.messages_eq,
    h.log_eq, fun hsettled a ha => (done_of_settled h hsettled a ha).complete⟩
  rw [← h.log_eq] at hok
  have htyped := typed_all_done (done_of_settled h hsettled) hok n
  rw [h.log_eq, h.messages_eq] at htyped
  exact htyped

/-- One byte more than a chunk has. -/
def longInput : String := String.ofList (List.replicate (INPUT_CHUNK_BYTES + 1) 'a')

/-- Between the chunks of an input come one for another pane and one more for the same pane. -/
def overtakenRun (data : String) : List InputEvent :=
  [.input ⟨"p1"⟩ data, .input ⟨"p2"⟩ "x", .answer (.resolved ⟨true, 0, []⟩),
    .input ⟨"p1"⟩ "!", .answer (.resolved ⟨true, 1, []⟩), .returned,
    .answer (.resolved ⟨true, 2, []⟩), .returned, .answer (.resolved ⟨true, 3, []⟩), .returned]

theorem utf8_longInput : utf8 longInput = List.replicate (INPUT_CHUNK_BYTES + 1) 97 := by
  rw [utf8, longInput, String.toList_ofList, List.flatMap_replicate]
  exact List.flatten_replicate_singleton

theorem inputChunks_longInput : inputChunks (utf8 longInput) =
    [List.replicate INPUT_CHUNK_BYTES 97, [97]] := by
  have hturns : (INPUT_CHUNK_BYTES + 1 + INPUT_CHUNK_BYTES - 1) / INPUT_CHUNK_BYTES = 2 := by
    decide
  have hlast : min INPUT_CHUNK_BYTES 1 = 1 := by decide
  rw [utf8_longInput, inputChunks, if_neg (by simp), List.length_replicate, hturns]
  simp [List.range_succ, hlast]

theorem plainOptions_panes : plainOptions.paneIdToTmux ⟨"p1"⟩ = .ok 1 ∧
    plainOptions.paneIdToTmux ⟨"p2"⟩ = .ok 2 := by
  decide +kernel

/-- The parts of the input come first, then the inputs that waited for it. -/
theorem run_overtakenRun {data : String} {first last : Bytes}
    (hdata : inputChunks (utf8 data) = [first, last]) :
    InputWorld.init.run plainOptions (overtakenRun data) = ⟨.init,
      [⟨sendKeysHex 1 first, .inputChunk, some true⟩,
        ⟨sendKeysHex 1 last, .inputChunk, some true⟩,
        ⟨sendKeysHex 2 (utf8 "x"), .inputChunk, some true⟩,
        ⟨sendKeysHex 1 (utf8 "!"), .inputChunk, some true⟩]⟩ := by
  have hx : inputChunks (utf8 "x") = [utf8 "x"] := by decide +kernel
  have hbang : inputChunks (utf8 "!") = [utf8 "!"] := by decide +kernel
  have hlong : ¬(utf8 data).length ≤ INPUT_CHUNK_BYTES := by
    intro hshort
    rw [inputChunks, if_pos hshort] at hdata
    cases hdata
  simp [InputWorld.run, InputWorld.init, overtakenRun, InputWorld.step, plainOptions_panes,
    InputPath.handleInput, hlong, InputPath.init, InputPath.enqueueInput, InputPath.startInput,
    hdata, sentBy, InputPath.handleReply, InputPath.continueInput, isOk, answerOldest,
    InputPath.inputReturned, hx, hbang]

theorem arrived_overtakenRun (data : String) : arrived plainOptions (overtakenRun data) =
    [⟨1, utf8 data⟩, ⟨2, utf8 "x"⟩, ⟨1, utf8 "!"⟩] := by
  have hinput : ∀ paneId n text, plainOptions.paneIdToTmux paneId = .ok n →
      arrival plainOptions (.input paneId text) = some ⟨n, utf8 text⟩ := by
    intro paneId n text hn
    rw [arrival, hn]
  have hanswer : ∀ outcome, arrival plainOptions (.answer outcome) = none := fun _ => rfl
  have hreturned : arrival plainOptions .returned = none := rfl
  simp [arrived, overtakenRun, hinput _ _ _ plainOptions_panes.1,
    hinput _ _ _ plainOptions_panes.2, hanswer, hreturned]

theorem input_order_two_panes :
    typed 1 (InputWorld.init.run plainOptions (overtakenRun longInput)).log =
        utf8 (longInput ++ "!") ∧
      typed 2 (InputWorld.init.run plainOptions (overtakenRun longInput)).log = utf8 "x" := by
  have hrun := run_overtakenRun inputChunks_longInput
  have hsettled : Settled plainOptions
      (InputWorld.init.run plainOptions (overtakenRun longInput)) := by
    rw [hrun]
    exact ⟨by simp, rfl⟩
  have hok : ∀ s ∈ (InputWorld.init.run plainOptions (overtakenRun longInput)).log,
      s.reply ≠ some false := by
    rw [hrun]
    simp
  have htyped := fun n => ((input_order plainOptions (overtakenRun longInput)).1 hok n).2 hsettled
  rw [htyped, htyped, arrived_overtakenRun, utf8_append]
  exact ⟨by simp [messagesTo], by simp [messagesTo]⟩

end TmuxccDriver.Runtime
