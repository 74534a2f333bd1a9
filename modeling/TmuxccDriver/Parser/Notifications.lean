import TmuxccDriver.Lib.Tabular
import TmuxccDriver.Parser.ControlChannel
import TmuxccDriver.Parser.OutputCodec

/-!
# Notifications

`parser/notifications.ts`: the general parser of the lines that start with `%`, and the lines as
tmux writes them. A parser looks at the fields that it expects only, so a later tmux may add more.

A number read off a line is a `Nat`. `decode` is what `utf8Slice` makes of the bytes of a name.

Results:
1. `parseNotification_eq_ofOutput`: on the two output lines it is the reading of `OutputCodec`.
2. `Notification.parseNotification_token`: each line that tmux writes, with further fields or
   without, is read as what it says.
3. `Notification.step_line`: the tokenizer hands the line on as it is.
-/

namespace TmuxccDriver.Parser.Notifications
open TmuxccDriver.Lib

/-! ## Events -/

/-- The events that come from tmux. -/
inductive NotificationEvent
  | output (paneId : Nat) (rawPayload : Bytes)
  | extendedOutput (paneId ageMs : Nat) (rawPayload : Bytes)
  | windowAdd (windowId : Nat) (unlinked : Bool)
  | windowClose (windowId : Nat) (unlinked : Bool)
  | windowRenamed (windowId : Nat) (name : String) (unlinked : Bool)
  | windowPaneChanged (windowId paneId : Nat)
  | sessionChanged (sessionId : Nat) (name : String)
  | clientSessionChanged (clientName : String) (sessionId : Nat) (name : String)
  | sessionRenamed (sessionId : Option Nat) (name : String)
  | sessionsChanged
  | sessionWindowChanged (sessionId windowId : Nat)
  | paneModeChanged (paneId : Nat)
  | subscriptionChanged (name : String) (sessionId : Nat) (windowId windowIdx paneId : Option Int)
      (value : String)
  | pause (paneId : Nat)
  | continue (paneId : Nat)
  | exit (reason : Option String)
  | unknown (keyword : String) (rawLine : Bytes)
deriving DecidableEq

/-! ## Helpers -/

abbrev AT : UInt8 := 0x40
abbrev DOLLAR : UInt8 := 0x24

/-- `readToken`. -/
def readToken (bytes : Bytes) : String × Bytes :=
  (fromCharCodes (bytes.takeWhile (· ≠ SPACE)), bytes.dropWhile (· ≠ SPACE))

/-- The bytes before the first `" : "` and those after it. -/
def splitSeparator : Bytes → Option (Bytes × Bytes)
  | [] => none
  | b :: rest =>
    match skipSeparator (b :: rest) with
    | some value => some ([], value)
    | none => (splitSeparator rest).map fun (before, value) => (b :: before, value)

/-- `middleStr.trim().split(" ").filter(...)`. -/
def fieldsOf (middle : Bytes) : List (List Char) :=
  ((trim (fromCharCodes middle).toList).splitOn ' ').filter (· ≠ [])

/-- The number of a field that begins with the sigil. -/
def sigilField (sigil : Char) : Option (List Char) → Option Int
  | some (c :: digits) => if c = sigil then parseInt digits else none
  | _ => none

/-- A field that is a number, or `-`. -/
def numberField : Option (List Char) → Option Int
  | some part => if part = ['-'] then none else parseInt part
  | none => none

/-! ## Parsers -/

section Parsers

variable (decode : Bytes → String) (token : NotificationToken)

/-- What follows the keyword and its space. -/
def readArguments : Option Bytes := skipSpace (token.rawLine.dropWhile (· ≠ SPACE))

/-- A parser that gives up gives the line as it is. -/
def orUnknown (event : Option NotificationEvent) : NotificationEvent :=
  event.getD (.unknown token.keyword token.rawLine)

/-- One id. -/
def parseId (sigil : UInt8) (event : Nat → NotificationEvent) : NotificationEvent :=
  orUnknown token do
    let (id, _) ← readSigilId sigil (← readArguments token)
    return event id

/-- Two ids. -/
def parseIds (sigil sigil' : UInt8) (event : Nat → Nat → NotificationEvent) : NotificationEvent :=
  orUnknown token do
    let (id, rest) ← readSigilId sigil (← readArguments token)
    let (id', _) ← readSigilId sigil' (← skipSpace rest)
    return event id id'

/-- An id and a name, which is the rest of the line. -/
def parseNamed (sigil : UInt8) (event : Nat → String → NotificationEvent) : NotificationEvent :=
  orUnknown token do
    let (id, rest) ← readSigilId sigil (← readArguments token)
    return event id (decode (← skipSpace rest))

def parseOutput : NotificationEvent :=
  orUnknown token do
    let (paneId, rest) ← readSigilId PERCENT (← readArguments token)
    return .output paneId (← skipSpace rest)

def parseExtendedOutput : NotificationEvent :=
  orUnknown token do
    let (paneId, rest) ← readSigilId PERCENT (← readArguments token)
    let (ageMs, rest) ← readDecimalField (← skipSpace rest)
    let (_, rawPayload) ← splitSeparator rest
    return .extendedOutput paneId ageMs rawPayload

def parseWindowAdd (unlinked : Bool) : NotificationEvent :=
  parseId token AT fun windowId => .windowAdd windowId unlinked

def parseWindowClose (unlinked : Bool) : NotificationEvent :=
  parseId token AT fun windowId => .windowClose windowId unlinked

def parseWindowRenamed (unlinked : Bool) : NotificationEvent :=
  parseNamed decode token AT fun windowId name => .windowRenamed windowId name unlinked

def parseWindowPaneChanged : NotificationEvent := parseIds token AT PERCENT .windowPaneChanged

def parseSessionChanged : NotificationEvent := parseNamed decode token DOLLAR .sessionChanged

def parseClientSessionChanged : NotificationEvent :=
  orUnknown token do
    let (clientName, rest) := readToken (← readArguments token)
    guard (clientName.length ≠ 0)
    let (sessionId, rest) ← readSigilId DOLLAR (← skipSpace rest)
    return .clientSessionChanged clientName sessionId (decode (← skipSpace rest))

/-- An older tmux writes no id; a missing name is an empty one. -/
def parseSessionRenamed : NotificationEvent :=
  orUnknown token do
    let rest ← readArguments token
    if rest.head? = some DOLLAR then
      let (sessionId, rest) ← readSigilId DOLLAR rest
      match skipSpace rest with
      | none => return .sessionRenamed (some sessionId) ""
      | some name => return .sessionRenamed (some sessionId) (decode name)
    else return .sessionRenamed none (decode rest)

def parseSessionsChanged : NotificationEvent := .sessionsChanged

def parseSessionWindowChanged : NotificationEvent := parseIds token DOLLAR AT .sessionWindowChanged

def parsePaneModeChanged : NotificationEvent := parseId token PERCENT .paneModeChanged

def parseSubscriptionChanged : NotificationEvent :=
  orUnknown token do
    let (name, rest) := readToken (← readArguments token)
    guard (name.length ≠ 0)
    let (sessionId, rest) ← readSigilId DOLLAR (← skipSpace rest)
    let (middle, value) ← splitSeparator rest
    let parts := fieldsOf middle
    return .subscriptionChanged name sessionId (sigilField '@' parts[0]?) (numberField parts[1]?)
      (sigilField '%' parts[2]?) (decode value)

def parsePause : NotificationEvent := parseId token PERCENT .pause

def parseContinue : NotificationEvent := parseId token PERCENT .continue

def parseExit : NotificationEvent :=
  match readArguments token with
  | none => .exit none
  | some rest => .exit (if (decode rest).length = 0 then none else some (decode rest))

def parseNotification : NotificationEvent :=
  match token.keyword with
  | "output" => parseOutput token
  | "extended-output" => parseExtendedOutput token
  | "window-add" => parseWindowAdd token false
  | "unlinked-window-add" => parseWindowAdd token true
  | "window-close" => parseWindowClose token false
  | "unlinked-window-close" => parseWindowClose token true
  | "window-renamed" => parseWindowRenamed decode token false
  | "unlinked-window-renamed" => parseWindowRenamed decode token true
  | "window-pane-changed" => parseWindowPaneChanged token
  | "session-changed" => parseSessionChanged decode token
  | "client-session-changed" => parseClientSessionChanged decode token
  | "session-renamed" => parseSessionRenamed decode token
  | "sessions-changed" => parseSessionsChanged
  | "session-window-changed" => parseSessionWindowChanged token
  | "pane-mode-changed" => parsePaneModeChanged token
  | "subscription-changed" => parseSubscriptionChanged decode token
  | "pause" => parsePause token
  | "continue" => parseContinue token
  | "exit" => parseExit decode token
  | _ => .unknown token.keyword token.rawLine

end Parsers

/-! ## The output lines -/

/-- An event of the reading of the output lines. -/
def ofOutput : Parser.NotificationEvent → NotificationEvent
  | .output paneId rawPayload => .output paneId rawPayload
  | .extendedOutput paneId ageMs rawPayload => .extendedOutput paneId ageMs rawPayload
  | .unknown keyword rawLine => .unknown keyword rawLine

theorem scanSeparator_eq_splitSeparator (bytes : Bytes) :
    scanSeparator bytes = (splitSeparator bytes).map Prod.snd := by
  induction bytes with
  | nil => rfl
  | cons b bytes ih =>
    rw [scanSeparator, splitSeparator]
    cases skipSeparator (b :: bytes) with
    | none =>
      rw [Option.none_or, ih, Option.map_map]
      rfl
    | some value => rfl

theorem orUnknown_map (token : NotificationToken) (event : Option Parser.NotificationEvent) :
    orUnknown token (event.map ofOutput) =
      ofOutput (event.getD (.unknown token.keyword token.rawLine)) := by
  cases event <;> rfl

theorem parseNotification_eq_ofOutput (decode : Bytes → String) {token : NotificationToken}
    (hkey : token.keyword = "output" ∨ token.keyword = "extended-output") :
    parseNotification decode token = ofOutput (Parser.parseNotification token) := by
  obtain ⟨keyword, rawLine⟩ := token
  rcases hkey with rfl | rfl
  · show parseOutput _ = ofOutput (Parser.parseOutput _)
    unfold parseOutput Parser.parseOutput readPaneId readArguments
    rw [← orUnknown_map]
    simp only [Option.bind_eq_bind, Option.pure_def, Option.bind_assoc, Option.map_bind,
      Function.comp_def, Option.map_some, ofOutput]
  · show parseExtendedOutput _ = ofOutput (Parser.parseExtendedOutput _)
    unfold parseExtendedOutput Parser.parseExtendedOutput readPaneId readArguments
    rw [← orUnknown_map]
    simp only [Option.bind_eq_bind, Option.pure_def, Option.bind_assoc, Option.map_bind,
      Function.comp_def, Option.map_some, ofOutput, scanSeparator_eq_splitSeparator,
      Option.bind_map]

/-! ## tmux -/

/-- What a subscription looks at. -/
inductive Target
  | session
  | window (windowId windowIdx : Nat)
  | pane (windowId windowIdx paneId : Nat)
deriving DecidableEq

/-- A notification that tmux writes; `further` are fields of a later version. -/
inductive Notification
  | output (paneId : Nat) (payload : Bytes)
  | extendedOutput (paneId age : Nat) (further : List Bytes) (payload : Bytes)
  | windowAdd (windowId : Nat) (unlinked : Bool) (further : List Bytes)
  | windowClose (windowId : Nat) (unlinked : Bool) (further : List Bytes)
  | windowRenamed (windowId : Nat) (name : Bytes) (unlinked : Bool)
  | windowPaneChanged (windowId paneId : Nat) (further : List Bytes)
  | sessionChanged (sessionId : Nat) (name : Bytes)
  | clientSessionChanged (clientName : Bytes) (sessionId : Nat) (name : Bytes)
  | sessionRenamed (sessionId : Option Nat) (name : Bytes)
  | sessionsChanged (further : List Bytes)
  | sessionWindowChanged (sessionId windowId : Nat) (further : List Bytes)
  | paneModeChanged (paneId : Nat) (further : List Bytes)
  | subscriptionChanged (name : Bytes) (sessionId : Nat) (target : Target) (further : List Bytes)
      (value : Bytes)
  | pause (paneId : Nat) (further : List Bytes)
  | continue (paneId : Nat) (further : List Bytes)
  | exit (reason : Option Bytes)
  | other (keyword : String) (fields : List Bytes)
deriving DecidableEq

/-- An id with its sigil. -/
def sigilId (sigil : UInt8) (n : Nat) : Bytes := sigil :: decimal n

/-- Each field after a space. -/
def spaced (fields : List Bytes) : Bytes := fields.flatMap (SPACE :: ·)

namespace Target

def fields : Target → List Bytes
  | session => [ascii "-", ascii "-", ascii "-"]
  | window windowId windowIdx => [sigilId AT windowId, decimal windowIdx, ascii "-"]
  | pane windowId windowIdx paneId =>
    [sigilId AT windowId, decimal windowIdx, sigilId PERCENT paneId]

def windowId : Target → Option Int
  | session => none
  | window windowId _ | pane windowId _ _ => some windowId

def windowIdx : Target → Option Int
  | session => none
  | window _ windowIdx | pane _ windowIdx _ => some windowIdx

def paneId : Target → Option Int
  | session | window _ _ => none
  | pane _ _ paneId => some paneId

end Target

namespace Notification

def keyword : Notification → String
  | output _ _ => "output"
  | extendedOutput _ _ _ _ => "extended-output"
  | windowAdd _ unlinked _ => if unlinked then "unlinked-window-add" else "window-add"
  | windowClose _ unlinked _ => if unlinked then "unlinked-window-close" else "window-close"
  | windowRenamed _ _ unlinked => if unlinked then "unlinked-window-renamed" else "window-renamed"
  | windowPaneChanged _ _ _ => "window-pane-changed"
  | sessionChanged _ _ => "session-changed"
  | clientSessionChanged _ _ _ => "client-session-changed"
  | sessionRenamed _ _ => "session-renamed"
  | sessionsChanged _ => "sessions-changed"
  | sessionWindowChanged _ _ _ => "session-window-changed"
  | paneModeChanged _ _ => "pane-mode-changed"
  | subscriptionChanged _ _ _ _ _ => "subscription-changed"
  | pause _ _ => "pause"
  | .continue _ _ => "continue"
  | exit _ => "exit"
  | other keyword _ => keyword

/-- What follows the keyword. -/
def arguments : Notification → Bytes
  | output paneId payload => spaced [sigilId PERCENT paneId, encodeOutputPayload payload]
  | extendedOutput paneId age further payload =>
    spaced (sigilId PERCENT paneId :: decimal age :: further) ++ SEPARATOR ++
      encodeOutputPayload payload
  | windowAdd windowId _ further | windowClose windowId _ further =>
    spaced (sigilId AT windowId :: further)
  | windowRenamed windowId name _ => spaced [sigilId AT windowId, name]
  | windowPaneChanged windowId paneId further =>
    spaced (sigilId AT windowId :: sigilId PERCENT paneId :: further)
  | sessionChanged sessionId name => spaced [sigilId DOLLAR sessionId, name]
  | clientSessionChanged clientName sessionId name =>
    spaced [clientName, sigilId DOLLAR sessionId, name]
  | sessionRenamed none name => spaced [name]
  | sessionRenamed (some sessionId) name => spaced [sigilId DOLLAR sessionId, name]
  | sessionsChanged further => spaced further
  | sessionWindowChanged sessionId windowId further =>
    spaced (sigilId DOLLAR sessionId :: sigilId AT windowId :: further)
  | paneModeChanged paneId further | pause paneId further | .continue paneId further =>
    spaced (sigilId PERCENT paneId :: further)
  | subscriptionChanged name sessionId target further value =>
    spaced (name :: sigilId DOLLAR sessionId :: (target.fields ++ further)) ++ SEPARATOR ++ value
  | exit reason => spaced reason.toList
  | other _ fields => spaced fields

/-- The line, without its LF. -/
def line (n : Notification) : Bytes := PERCENT :: (ascii n.keyword ++ n.arguments)

/-- What the line says. -/
def event (decode : Bytes → String) : Notification → NotificationEvent
  | output paneId payload => .output paneId (encodeOutputPayload payload)
  | extendedOutput paneId age _ payload => .extendedOutput paneId age (encodeOutputPayload payload)
  | windowAdd windowId unlinked _ => .windowAdd windowId unlinked
  | windowClose windowId unlinked _ => .windowClose windowId unlinked
  | windowRenamed windowId name unlinked => .windowRenamed windowId (decode name) unlinked
  | windowPaneChanged windowId paneId _ => .windowPaneChanged windowId paneId
  | sessionChanged sessionId name => .sessionChanged sessionId (decode name)
  | clientSessionChanged clientName sessionId name =>
    .clientSessionChanged (fromCharCodes clientName) sessionId (decode name)
  | sessionRenamed sessionId name => .sessionRenamed sessionId (decode name)
  | sessionsChanged _ => .sessionsChanged
  | sessionWindowChanged sessionId windowId _ => .sessionWindowChanged sessionId windowId
  | paneModeChanged paneId _ => .paneModeChanged paneId
  | subscriptionChanged name sessionId target _ value =>
    .subscriptionChanged (fromCharCodes name) sessionId target.windowId target.windowIdx
      target.paneId (decode value)
  | pause paneId _ => .pause paneId
  | .continue paneId _ => .continue paneId
  | exit reason => .exit ((reason.map decode).filter (·.length ≠ 0))
  | other keyword fields => .unknown keyword (other keyword fields).line

end Notification

/-- No control byte: tmux escapes them in what it writes. -/
def clean (bytes : Bytes) : Bool := bytes.all (0x20 ≤ ·)

/-- A field that is a word, and not the one that announces the value. -/
def isField (bytes : Bytes) : Bool :=
  bytes ≠ [] && bytes.all (fun b => 0x21 ≤ b && b ≤ 0x7e) && bytes ≠ [COLON]

/-- The keywords that the parser knows. -/
def keywords : List String :=
  ["output", "extended-output", "window-add", "unlinked-window-add", "window-close",
    "unlinked-window-close", "window-renamed", "unlinked-window-renamed", "window-pane-changed",
    "session-changed", "client-session-changed", "session-renamed", "sessions-changed",
    "session-window-changed", "pane-mode-changed", "subscription-changed", "pause", "continue",
    "exit"]

namespace Notification

/-- What tmux writes: names without control bytes, and words where the format has words. -/
def WellFormed : Notification → Prop
  | output _ _ => True
  | extendedOutput _ _ further _ | windowAdd _ _ further | windowClose _ _ further
  | windowPaneChanged _ _ further | sessionsChanged further | sessionWindowChanged _ _ further
  | paneModeChanged _ further | pause _ further | .continue _ further => further.all isField
  | windowRenamed _ name _ | sessionChanged _ name => clean name
  | clientSessionChanged clientName _ name =>
    clientName ≠ [] ∧ SPACE ∉ clientName ∧ clean clientName ∧ clean name
  | sessionRenamed sessionId name =>
    clean name ∧ (sessionId = none → name.head? ≠ some DOLLAR)
  | subscriptionChanged name _ _ further value => isField name ∧ further.all isField ∧ clean value
  | exit reason => reason.toList.all clean
  | other keyword fields =>
    IsKeyword keyword ∧ clean (ascii keyword) ∧ keyword ∉ keywords ∧ keyword ≠ "begin" ∧
      fields.all clean

end Notification

/-! ## Reading the fields -/

/-- What a field may stop at: a space, or the end of the line. -/
def Stops (rest : Bytes) : Prop := ∀ b, rest.head? = some b → b = SPACE

theorem stops_nil : Stops [] := fun _ h => by cases h

theorem stops_space (rest : Bytes) : Stops (SPACE :: rest) := fun _ h => by cases h; rfl

theorem stops_separator (value : Bytes) : Stops (SEPARATOR ++ value) := stops_space _

theorem spaced_cons (field : Bytes) (fields : List Bytes) :
    spaced (field :: fields) = SPACE :: (field ++ spaced fields) := rfl

theorem stops_spaced (fields : List Bytes) {rest : Bytes} (h : Stops rest) :
    Stops (spaced fields ++ rest) := by
  cases fields with
  | nil => exact h
  | cons field fields => exact stops_space _

theorem stops_spaced_end (fields : List Bytes) : Stops (spaced fields) :=
  List.append_nil (spaced fields) ▸ stops_spaced fields stops_nil

theorem skipSpace_space (rest : Bytes) : skipSpace (SPACE :: rest) = some rest := rfl

theorem readDecimalField_stops (n : Nat) {rest : Bytes} (h : Stops rest) :
    readDecimalField (decimal n ++ rest) = some (n, rest) :=
  readDecimalField_decimal n rest fun b hb => by
    rw [h b hb]
    decide

theorem readSigilId_sigilId (sigil : UInt8) (n : Nat) {rest : Bytes} (h : Stops rest) :
    readSigilId sigil (sigilId sigil n ++ rest) = some (n, rest) := by
  rw [sigilId, List.cons_append, readSigilId, if_pos rfl, readDecimalField_stops n h]

theorem readToken_append {word rest : Bytes} (hword : SPACE ∉ word) (h : Stops rest) :
    readToken (word ++ rest) = (fromCharCodes word, rest) := by
  have hstay : ∀ b ∈ word, decide (b ≠ SPACE) = true := fun b hb =>
    decide_eq_true fun heq => hword (heq ▸ hb)
  have hrest : rest.takeWhile (· ≠ SPACE) = [] ∧ rest.dropWhile (· ≠ SPACE) = rest := by
    rcases rest with _ | ⟨b, rest⟩
    · exact ⟨rfl, rfl⟩
    · obtain rfl := h b rfl
      exact ⟨rfl, rfl⟩
  rw [readToken, List.takeWhile_append_of_pos hstay, List.dropWhile_append_of_pos hstay, hrest.1,
    hrest.2, List.append_nil]

/-- The arguments begin after the keyword. -/
theorem dropWhile_keyword {keyword : String} (h : IsKeyword keyword) {rest : Bytes}
    (hrest : Stops rest) :
    (PERCENT :: (ascii keyword ++ rest)).dropWhile (· ≠ SPACE) = rest := by
  have hstops : rest.dropWhile (· ≠ SPACE) = rest := by
    rcases rest with _ | ⟨b, rest⟩
    · rfl
    · obtain rfl := hrest b rfl
      rfl
  rw [List.dropWhile_cons_of_pos (by decide),
    List.dropWhile_append_of_pos fun b hb => decide_eq_true (h.1 b hb).1, hstops]

theorem extractKeyword_stops {keyword : String} (h : IsKeyword keyword) {rest : Bytes}
    (hrest : Stops rest) : extractKeyword (PERCENT :: (ascii keyword ++ rest)) = keyword := by
  have hstay : ∀ b ∈ ascii keyword, decide (b ≠ SPACE ∧ b ≠ LF ∧ b ≠ CR) = true := fun b hb =>
    decide_eq_true ⟨(h.1 b hb).1, (h.1 b hb).2.1, (h.1 b hb).2.2.1⟩
  have hstops : rest.takeWhile (fun b => b ≠ SPACE ∧ b ≠ LF ∧ b ≠ CR) = [] := by
    rcases rest with _ | ⟨b, rest⟩
    · rfl
    · obtain rfl := hrest b rfl
      rfl
  rw [extractKeyword, List.drop_one, List.tail_cons, List.takeWhile_append_of_pos hstay, hstops,
    List.append_nil, h.2]

/-! ## The value after the separator -/

theorem splitSeparator_separator (value : Bytes) :
    splitSeparator (SEPARATOR ++ value) = some ([], value) := rfl

/-- No separator begins in a word. -/
theorem splitSeparator_word {word rest before value : Bytes} (hword : SPACE ∉ word)
    (h : splitSeparator rest = some (before, value)) :
    splitSeparator (word ++ rest) = some (word ++ before, value) := by
  induction word with
  | nil => exact h
  | cons b word ih =>
    have hskip : skipSeparator (b :: (word ++ rest)) = none := by
      rw [skipSeparator_eq_none_iff]
      rintro ⟨value, heq⟩
      exact hword (by rw [← (List.cons.inj heq).1]; exact List.mem_cons_self)
    rw [List.cons_append, splitSeparator, hskip,
      ih fun hmem => hword (List.mem_cons_of_mem _ hmem)]
    rfl

/-- No separator begins before a field, unless the field is the colon. -/
theorem splitSeparator_field {field rest before value : Bytes} (hfield : isField field)
    (h : splitSeparator rest = some (before, value)) :
    splitSeparator (SPACE :: (field ++ rest)) = some (SPACE :: (field ++ before), value) := by
  obtain ⟨⟨hne, hbytes⟩, hcolon⟩ : ((field ≠ []) ∧ ∀ b ∈ field, 0x21 ≤ b ∧ b ≤ 0x7e) ∧
      field ≠ [COLON] := by simpa [isField] using hfield
  have hspace : SPACE ∉ field := fun hmem => absurd (hbytes SPACE hmem).1 (by decide)
  have hskip : skipSeparator (SPACE :: (field ++ rest)) = none := by
    rw [skipSeparator_eq_none_iff]
    rintro ⟨value, heq⟩
    rcases field with _ | ⟨b, _ | ⟨c, field⟩⟩
    · exact hne rfl
    · exact hcolon (by rw [← (List.cons.inj (List.cons.inj heq).2).1])
    · have hc : SPACE = c := (List.cons.inj (List.cons.inj (List.cons.inj heq).2).2).1
      exact hspace (by rw [hc]; exact List.mem_cons_of_mem _ List.mem_cons_self)
  rw [splitSeparator, hskip, splitSeparator_word hspace h]
  rfl

theorem splitSeparator_spaced {fields : List Bytes} (hfields : ∀ field ∈ fields, isField field)
    (value : Bytes) :
    splitSeparator (spaced fields ++ (SEPARATOR ++ value)) = some (spaced fields, value) := by
  induction fields with
  | nil => exact splitSeparator_separator value
  | cons field fields ih =>
    obtain ⟨hfield, hrest⟩ := List.forall_mem_cons.mp hfields
    rw [spaced_cons, List.cons_append, List.append_assoc]
    exact splitSeparator_field hfield (ih hrest)

/-! ## The fields before the separator -/

/-- A field as characters. -/
def chars (bytes : Bytes) : List Char := bytes.map fun b => Char.ofNat b.toNat

theorem toList_fromCharCodes (bytes : Bytes) : (fromCharCodes bytes).toList = chars bytes :=
  String.toList_ofList

theorem toNat_char (b : UInt8) : (Char.ofNat b.toNat).toNat = b.toNat := by
  have hvalid : b.toNat.isValidChar := .inl (b.toNat_lt.trans (by decide))
  rw [Char.ofNat, dif_pos hvalid]
  rfl

/-- The characters of a field are visible. -/
theorem isSpace_chars {field : Bytes} (h : isField field) :
    ∀ c ∈ chars field, isSpace c = false := by
  intro c hc
  obtain ⟨⟨-, hbytes⟩, -⟩ : ((field ≠ []) ∧ ∀ b ∈ field, 0x21 ≤ b ∧ b ≤ 0x7e) ∧
      field ≠ [COLON] := by simpa [isField] using h
  obtain ⟨b, hb, rfl⟩ := List.mem_map.mp hc
  obtain ⟨hlow, hhigh⟩ := hbytes b hb
  refine isSpace_of_visible ?_ ?_
  · rw [toNat_char]
    exact UInt8.le_iff_toNat_le.mp hlow
  · rw [toNat_char]
    exact UInt8.le_iff_toNat_le.mp hhigh

theorem chars_spaced (fields : List Bytes) :
    chars (spaced fields) = (fields.map chars).flatMap (' ' :: ·) := by
  rw [List.flatMap_map, chars, spaced, List.map_flatMap]
  rfl

/-- A space before each word is one in front of the words that spaces join. -/
theorem flatMap_space (word : List Char) (words : List (List Char)) :
    (word :: words).flatMap (' ' :: ·) = ' ' :: [' '].intercalate (word :: words) := by
  induction words generalizing word with
  | nil => simp
  | cons other words ih =>
    rw [List.flatMap_cons, ih, List.intercalate_cons_cons]
    simp

/-- Words that spaces join begin and end as words do. -/
theorem trimmed_intercalate {words : List (List Char)} (hne : ∀ word ∈ words, word ≠ [])
    (hvisible : ∀ word ∈ words, ∀ c ∈ word, isSpace c = false) :
    Trimmed ([' '].intercalate words) := by
  rw [trimmed_iff]
  induction words with
  | nil => simp
  | cons word words ih =>
    obtain ⟨hword, hwords⟩ := List.forall_mem_cons.mp hne
    obtain ⟨hclear, hrest⟩ := List.forall_mem_cons.mp hvisible
    obtain ⟨-, hlast⟩ := ih hwords hrest
    rcases words with _ | ⟨other, words⟩
    · rw [List.intercalate_singleton]
      exact ⟨fun c hc => hclear c (List.mem_of_mem_head? hc),
        fun c hc => hclear c (List.mem_of_mem_getLast? hc)⟩
    · rw [List.intercalate_cons_cons, List.append_assoc, List.head?_append_of_ne_nil _ hword]
      refine ⟨fun c hc => hclear c (List.mem_of_mem_head? hc), fun c hc => hlast c ?_⟩
      have hjoined : [' '].intercalate (other :: words) ≠ [] := by
        obtain ⟨d, ds, hother⟩ := List.exists_cons_of_ne_nil (hwords other List.mem_cons_self)
        rw [hother, List.intercalate_cons_cons_left]
        exact List.cons_ne_nil _ _
      rwa [List.getLast?_append_of_ne_nil _ (by simp), List.getLast?_append_of_ne_nil _ hjoined]
        at hc

theorem fieldsOf_spaced {fields : List Bytes} (hfields : ∀ field ∈ fields, isField field) :
    fieldsOf (spaced fields) = fields.map chars := by
  have hne : ∀ word ∈ fields.map chars, word ≠ [] := by
    intro word hword
    obtain ⟨field, hfield, rfl⟩ := List.mem_map.mp hword
    have hfield := hfields field hfield
    rintro hnil
    rw [List.map_eq_nil_iff.mp hnil] at hfield
    cases hfield
  have hvisible : ∀ word ∈ fields.map chars, ∀ c ∈ word, isSpace c = false := by
    intro word hword
    obtain ⟨field, hfield, rfl⟩ := List.mem_map.mp hword
    exact isSpace_chars (hfields field hfield)
  rw [fieldsOf, toList_fromCharCodes, chars_spaced]
  generalize fields.map chars = words at hne hvisible
  rcases words with _ | ⟨word, words⟩
  · rfl
  · have htrim : trim (' ' :: [' '].intercalate (word :: words)) =
        [' '].intercalate (word :: words) := by
      rw [trim, List.dropWhile_cons_of_pos (by decide)]
      exact trimmed_intercalate hne hvisible
    have hnospace : ∀ w ∈ word :: words, ' ' ∉ w := fun w hw hmem => by
      cases hvisible w hw ' ' hmem
    rw [flatMap_space, htrim, List.splitOn_intercalate ' ' hnospace (List.cons_ne_nil _ _),
      List.filter_eq_self.mpr fun w hw => decide_eq_true (hne w hw)]

theorem isField_word {field : Bytes} (h : isField field) : field ≠ [] ∧ SPACE ∉ field := by
  obtain ⟨⟨hne, hbytes⟩, -⟩ : ((field ≠ []) ∧ ∀ b ∈ field, 0x21 ≤ b ∧ b ≤ 0x7e) ∧
      field ≠ [COLON] := by simpa [isField] using h
  exact ⟨hne, fun hmem => absurd (hbytes SPACE hmem).1 (by decide)⟩

theorem isField_of_digits {field : Bytes} (hne : field ≠ [])
    (hbytes : ∀ b ∈ field, 0x30 ≤ b ∧ b ≤ 0x39) : isField field := by
  have hvisible : ∀ b ∈ field, 0x21 ≤ b ∧ b ≤ 0x7e := fun b hb =>
    ⟨UInt8.le_trans (by decide) (hbytes b hb).1, UInt8.le_trans (hbytes b hb).2 (by decide)⟩
  have hcolon : field ≠ [COLON] := by
    rintro rfl
    exact absurd (hbytes COLON List.mem_cons_self).2 (by decide)
  simpa [isField, hne, hcolon] using hvisible

theorem isField_decimal (n : Nat) : isField (decimal n) :=
  isField_of_digits (decimal_ne_nil n) (decimal_digits n)

theorem isField_sigilId {sigil : UInt8} (hsigil : 0x21 ≤ sigil ∧ sigil ≤ 0x7e) (n : Nat) :
    isField (sigilId sigil n) := by
  have hvisible : ∀ b ∈ decimal n, 0x21 ≤ b ∧ b ≤ 0x7e := fun b hb =>
    ⟨UInt8.le_trans (by decide) (decimal_digits n b hb).1,
      UInt8.le_trans (decimal_digits n b hb).2 (by decide)⟩
  simpa [isField, sigilId, hsigil, decimal_ne_nil] using hvisible

theorem chars_decimal (n : Nat) : chars (decimal n) = Nat.toDigits 10 n := by
  rw [chars, decimal, List.map_map]
  refine (List.map_congr_left fun c hc => ?_).trans (List.map_id _)
  have hdigit := Nat.isDigit_of_mem_toDigits (by decide) (by decide) hc
  rw [Function.comp, (toNat_digit hdigit).1, Char.ofNat_toNat]
  rfl

theorem numberField_decimal (n : Nat) :
    numberField (some (chars (decimal n))) = some (n : Int) := by
  have hne : Nat.toDigits 10 n ≠ ['-'] := by
    intro heq
    have hdigit : ('-' : Char).isDigit := Nat.isDigit_of_mem_toDigits (b := 10) (n := n) (by decide)
      (by decide) (by rw [heq]; exact List.mem_cons_self)
    cases hdigit
  rw [numberField, chars_decimal, if_neg hne, parseInt_toDigits]

theorem sigilField_sigilId {sigil : UInt8} {c : Char} (hsigil : Char.ofNat sigil.toNat = c)
    (n : Nat) : sigilField c (some (chars (sigilId sigil n))) = some (n : Int) := by
  have hchars : chars (sigilId sigil n) = c :: Nat.toDigits 10 n := by
    rw [← hsigil, ← chars_decimal]
    rfl
  rw [hchars, sigilField, if_pos rfl, parseInt_toDigits]

namespace Target

theorem isField_fields (target : Target) : ∀ field ∈ target.fields, isField field := by
  have hdash : isField (ascii "-") = true := by decide
  have hwindow (n : Nat) : isField (sigilId AT n) := isField_sigilId (by decide) n
  have hpane (n : Nat) : isField (sigilId PERCENT n) := isField_sigilId (by decide) n
  cases target <;> simp [fields, hdash, hwindow, hpane, isField_decimal]

/-- The three fields are read, whatever follows. -/
theorem read_fields (target : Target) (further : List Bytes) :
    let parts := (target.fields ++ further).map chars
    sigilField '@' parts[0]? = target.windowId ∧ numberField parts[1]? = target.windowIdx ∧
      sigilField '%' parts[2]? = target.paneId := by
  cases target with
  | session => exact ⟨rfl, rfl, rfl⟩
  | window windowId windowIdx =>
    exact ⟨sigilField_sigilId rfl windowId, numberField_decimal windowIdx, rfl⟩
  | pane windowId windowIdx paneId =>
    exact ⟨sigilField_sigilId rfl windowId, numberField_decimal windowIdx,
      sigilField_sigilId rfl paneId⟩

end Target

/-! ## Reading the lines -/

section Shapes

variable {decode : Bytes → String} {token : NotificationToken} {sigil sigil' : UInt8}
  {id id' : Nat} {rest : Bytes}

theorem parseId_eq {event : Nat → NotificationEvent}
    (hread : readArguments token = some (sigilId sigil id ++ rest)) (hrest : Stops rest) :
    parseId token sigil event = event id := by
  simp only [parseId, hread, Option.bind_eq_bind, Option.bind_some,
    readSigilId_sigilId sigil id hrest]
  rfl

theorem parseIds_eq {event : Nat → Nat → NotificationEvent}
    (hread : readArguments token =
      some (sigilId sigil id ++ SPACE :: (sigilId sigil' id' ++ rest))) (hrest : Stops rest) :
    parseIds token sigil sigil' event = event id id' := by
  simp only [parseIds, hread, Option.bind_eq_bind, Option.bind_some, skipSpace_space,
    readSigilId_sigilId sigil id (stops_space _), readSigilId_sigilId sigil' id' hrest]
  rfl

theorem parseNamed_eq {event : Nat → String → NotificationEvent} {name : Bytes}
    (hread : readArguments token = some (sigilId sigil id ++ SPACE :: name)) :
    parseNamed decode token sigil event = event id (decode name) := by
  simp only [parseNamed, hread, Option.bind_eq_bind, Option.bind_some, skipSpace_space,
    readSigilId_sigilId sigil id (stops_space _)]
  rfl

end Shapes

namespace Notification

theorem stops_arguments (n : Notification) : Stops n.arguments := by
  cases n with
  | exit reason => exact stops_spaced_end _
  | other keyword fields => exact stops_spaced_end _
  | sessionsChanged further => exact stops_spaced_end _
  | sessionRenamed sessionId name => cases sessionId <;> exact stops_space _
  | _ => exact stops_space _

theorem isKeyword_keywords : ∀ keyword ∈ keywords, IsKeyword keyword ∧ keyword ≠ "begin" := by
  decide

theorem keyword_mem (n : Notification) : n.keyword ∈ keywords ∨ ∃ keyword fields,
    n = other keyword fields := by
  cases n with
  | other keyword fields => exact .inr ⟨keyword, fields, rfl⟩
  | windowAdd windowId unlinked further => cases unlinked <;> simp [keyword, keywords]
  | windowClose windowId unlinked further => cases unlinked <;> simp [keyword, keywords]
  | windowRenamed windowId name unlinked => cases unlinked <;> simp [keyword, keywords]
  | _ => simp [keyword, keywords]

theorem isKeyword_keyword {n : Notification} (h : n.WellFormed) :
    IsKeyword n.keyword ∧ n.keyword ≠ "begin" := by
  rcases n.keyword_mem with hmem | ⟨keyword, fields, rfl⟩
  · exact isKeyword_keywords _ hmem
  · exact ⟨h.1, h.2.2.2.1⟩

/-- The token that the tokenizer makes of the line. -/
def token (n : Notification) : NotificationToken := ⟨n.keyword, n.line⟩

theorem readArguments_token {n : Notification} (h : n.WellFormed) :
    readArguments n.token = skipSpace n.arguments :=
  congrArg skipSpace (dropWhile_keyword (isKeyword_keyword h).1 n.stops_arguments)

theorem length_fromCharCodes (bytes : Bytes) : (fromCharCodes bytes).length = bytes.length := by
  rw [← String.length_toList, toList_fromCharCodes, chars, List.length_map]

/-- Each line is read as what it says. -/
theorem parseNotification_token (decode : Bytes → String) {n : Notification} (h : n.WellFormed) :
    parseNotification decode n.token = n.event decode := by
  have hread := readArguments_token h
  cases n with
  | output paneId payload =>
    show parseOutput _ = _
    have hread : readArguments (output paneId payload).token =
        some (sigilId PERCENT paneId ++ SPACE :: encodeOutputPayload payload) := by
      simpa [arguments, spaced, skipSpace_space] using hread
    simp only [parseOutput, hread, Option.bind_eq_bind, Option.bind_some,
      readSigilId_sigilId PERCENT paneId (stops_space _), skipSpace_space]
    rfl
  | extendedOutput paneId age further payload =>
    show parseExtendedOutput _ = _
    have hread : readArguments (extendedOutput paneId age further payload).token =
        some (sigilId PERCENT paneId ++ SPACE :: (decimal age ++
          (spaced further ++ (SEPARATOR ++ encodeOutputPayload payload)))) := by
      simpa [arguments, spaced, skipSpace_space] using hread
    have hfurther : ∀ field ∈ further, isField field := List.all_eq_true.mp h
    simp only [parseExtendedOutput, hread, Option.bind_eq_bind, Option.bind_some,
      readSigilId_sigilId PERCENT paneId (stops_space _), skipSpace_space,
      readDecimalField_stops age (stops_spaced further (stops_separator _)),
      splitSeparator_spaced hfurther]
    rfl
  | windowAdd windowId unlinked further =>
    cases unlinked
    · show parseWindowAdd _ false = _
      exact parseId_eq hread (stops_spaced_end further)
    · show parseWindowAdd _ true = _
      exact parseId_eq hread (stops_spaced_end further)
  | windowClose windowId unlinked further =>
    cases unlinked
    · show parseWindowClose _ false = _
      exact parseId_eq hread (stops_spaced_end further)
    · show parseWindowClose _ true = _
      exact parseId_eq hread (stops_spaced_end further)
  | windowRenamed windowId name unlinked =>
    have hread : readArguments (windowRenamed windowId name unlinked).token =
        some (sigilId AT windowId ++ SPACE :: name) := by
      simpa [arguments, spaced, skipSpace_space] using hread
    cases unlinked
    · show parseWindowRenamed _ _ false = _
      exact parseNamed_eq hread
    · show parseWindowRenamed _ _ true = _
      exact parseNamed_eq hread
  | windowPaneChanged windowId paneId further => exact parseIds_eq hread (stops_spaced_end further)
  | sessionChanged sessionId name =>
    have hread : readArguments (sessionChanged sessionId name).token =
        some (sigilId DOLLAR sessionId ++ SPACE :: name) := by
      simpa [arguments, spaced, skipSpace_space] using hread
    exact parseNamed_eq hread
  | clientSessionChanged clientName sessionId name =>
    show parseClientSessionChanged _ _ = _
    have hread : readArguments (clientSessionChanged clientName sessionId name).token =
        some (clientName ++ SPACE :: (sigilId DOLLAR sessionId ++ SPACE :: name)) := by
      simpa [arguments, spaced, skipSpace_space] using hread
    obtain ⟨hne, hspace, -⟩ := h
    simp only [parseClientSessionChanged, hread, Option.bind_eq_bind, Option.bind_some,
      readToken_append hspace (stops_space _), length_fromCharCodes, skipSpace_space,
      readSigilId_sigilId DOLLAR sessionId (stops_space _), guard, if_pos
        (List.length_pos_iff.mpr hne).ne']
    rfl
  | sessionRenamed sessionId name =>
    show parseSessionRenamed _ _ = _
    cases sessionId with
    | none =>
      have hread : readArguments (sessionRenamed none name).token = some name := by
        simpa [arguments, spaced, skipSpace_space] using hread
      simp only [parseSessionRenamed, hread, Option.bind_eq_bind, Option.bind_some,
        if_neg (h.2 rfl)]
      rfl
    | some sessionId =>
      have hread : readArguments (sessionRenamed (some sessionId) name).token =
          some (sigilId DOLLAR sessionId ++ SPACE :: name) := by
        simpa [arguments, spaced, skipSpace_space] using hread
      have hhead : (sigilId DOLLAR sessionId ++ SPACE :: name).head? = some DOLLAR := rfl
      simp only [parseSessionRenamed, hread, Option.bind_eq_bind, Option.bind_some, if_pos hhead,
        readSigilId_sigilId DOLLAR sessionId (stops_space _), skipSpace_space]
      rfl
  | sessionsChanged further => rfl
  | sessionWindowChanged sessionId windowId further =>
    exact parseIds_eq hread (stops_spaced_end further)
  | paneModeChanged paneId further => exact parseId_eq hread (stops_spaced_end further)
  | subscriptionChanged name sessionId target further value =>
    show parseSubscriptionChanged _ _ = _
    obtain ⟨hname, hfurther, -⟩ := h
    obtain ⟨hne, hspace⟩ := isField_word hname
    have hfields : ∀ field ∈ target.fields ++ further, isField field := fun field hfield =>
      (List.mem_append.mp hfield).elim (target.isField_fields field)
        (List.all_eq_true.mp hfurther field)
    obtain ⟨hwindow, hidx, hpane⟩ := target.read_fields further
    have hread : readArguments (subscriptionChanged name sessionId target further value).token =
        some (name ++ SPACE :: (sigilId DOLLAR sessionId ++
          (spaced (target.fields ++ further) ++ (SEPARATOR ++ value)))) := by
      simpa [arguments, spaced, skipSpace_space] using hread
    simp only [parseSubscriptionChanged, hread, Option.bind_eq_bind, Option.bind_some,
      Option.pure_def,
      readToken_append hspace (stops_space _), length_fromCharCodes, skipSpace_space,
      readSigilId_sigilId DOLLAR sessionId (stops_spaced _ (stops_separator _)), guard, if_pos
        (List.length_pos_iff.mpr hne).ne', splitSeparator_spaced hfields, fieldsOf_spaced hfields,
      hwindow, hidx, hpane]
    rfl
  | pause paneId further => exact parseId_eq hread (stops_spaced_end further)
  | «continue» paneId further => exact parseId_eq hread (stops_spaced_end further)
  | exit reason =>
    show parseExit _ _ = _
    cases reason with
    | none =>
      have hread : readArguments (exit none).token = none := hread
      rw [parseExit, hread]
      rfl
    | some reason =>
      have hread : readArguments (exit (some reason)).token = some reason := by
        simpa [arguments, spaced, skipSpace_space] using hread
      rw [parseExit, hread]
      by_cases hempty : (decode reason).length = 0
      · simp [event, Option.filter, hempty]
      · simp [event, Option.filter, hempty]
  | other keyword fields =>
    have hunknown : ∀ known ∈ keywords, keyword ≠ known := by
      rintro known hknown rfl
      exact h.2.2.1 hknown
    -- no keyword of the table, so the last case is left
    unfold parseNotification
    split
    case h_20 => rfl
    all_goals next heq => exact absurd heq (hunknown _ (by simp [keywords]))

/-! ## The line on the wire -/

theorem clean_append {front back : Bytes} (hfront : clean front) (hback : clean back) :
    clean (front ++ back) := by
  rw [clean, List.all_append, ← clean, ← clean, hfront, hback]
  rfl

theorem clean_spaced {fields : List Bytes} (h : ∀ field ∈ fields, clean field) :
    clean (spaced fields) := by
  induction fields with
  | nil => rfl
  | cons field fields ih =>
    obtain ⟨hfield, hrest⟩ := List.forall_mem_cons.mp h
    exact clean_append (clean_append (by decide : clean [SPACE] = true) hfield) (ih hrest)

theorem clean_of_isField {field : Bytes} (h : isField field) : clean field := by
  obtain ⟨⟨-, hbytes⟩, -⟩ : ((field ≠ []) ∧ ∀ b ∈ field, 0x21 ≤ b ∧ b ≤ 0x7e) ∧
      field ≠ [COLON] := by simpa [isField] using h
  exact List.all_eq_true.mpr fun b hb =>
    decide_eq_true (UInt8.le_trans (by decide) (hbytes b hb).1)

theorem clean_encodeOutputPayload (payload : Bytes) : clean (encodeOutputPayload payload) :=
  List.all_eq_true.mpr fun _ hb => decide_eq_true (le_of_mem_encodeOutputPayload hb)

theorem clean_sigilId {sigil : UInt8} (hsigil : 0x21 ≤ sigil ∧ sigil ≤ 0x7e) (n : Nat) :
    clean (sigilId sigil n) :=
  clean_of_isField (isField_sigilId hsigil n)

theorem clean_keywords : ∀ keyword ∈ keywords, clean (ascii keyword) := by decide

theorem clean_arguments {n : Notification} (h : n.WellFormed) : clean n.arguments := by
  have hpane (id : Nat) : clean (sigilId PERCENT id) := clean_sigilId (by decide) id
  have hwindow (id : Nat) : clean (sigilId AT id) := clean_sigilId (by decide) id
  have hsession (id : Nat) : clean (sigilId DOLLAR id) := clean_sigilId (by decide) id
  have hfields {fields : List Bytes} (hfields : fields.all isField = true) :
      ∀ field ∈ fields, clean field := fun field hfield =>
    clean_of_isField (List.all_eq_true.mp hfields field hfield)
  have hseparator (value : Bytes) (hvalue : clean value) : clean (SEPARATOR ++ value) :=
    clean_append (by decide) hvalue
  cases n with
  | output paneId payload =>
    exact clean_spaced (by simp [hpane, clean_encodeOutputPayload])
  | extendedOutput paneId age further payload =>
    rw [arguments, List.append_assoc]
    refine clean_append (clean_spaced ?_) (hseparator _ (clean_encodeOutputPayload payload))
    simp only [List.forall_mem_cons]
    exact ⟨hpane paneId, clean_of_isField (isField_decimal age), hfields h⟩
  | windowAdd windowId unlinked further =>
    exact clean_spaced (List.forall_mem_cons.mpr ⟨hwindow windowId, hfields h⟩)
  | windowClose windowId unlinked further =>
    exact clean_spaced (List.forall_mem_cons.mpr ⟨hwindow windowId, hfields h⟩)
  | windowRenamed windowId name unlinked =>
    have hname : clean name = true := h
    exact clean_spaced (by simp [hwindow, hname])
  | windowPaneChanged windowId paneId further =>
    refine clean_spaced ?_
    simp only [List.forall_mem_cons]
    exact ⟨hwindow windowId, hpane paneId, hfields h⟩
  | sessionChanged sessionId name =>
    have hname : clean name = true := h
    exact clean_spaced (by simp [hsession, hname])
  | clientSessionChanged clientName sessionId name =>
    exact clean_spaced (by simpa [hsession] using h.2.2)
  | sessionRenamed sessionId name =>
    cases sessionId with
    | none => exact clean_spaced (by simpa using h.1)
    | some sessionId => exact clean_spaced (by simpa [hsession] using h.1)
  | sessionsChanged further => exact clean_spaced (hfields h)
  | sessionWindowChanged sessionId windowId further =>
    refine clean_spaced ?_
    simp only [List.forall_mem_cons]
    exact ⟨hsession sessionId, hwindow windowId, hfields h⟩
  | paneModeChanged paneId further =>
    exact clean_spaced (List.forall_mem_cons.mpr ⟨hpane paneId, hfields h⟩)
  | subscriptionChanged name sessionId target further value =>
    obtain ⟨hname, hfurther, hvalue⟩ := h
    rw [arguments, List.append_assoc]
    refine clean_append (clean_spaced ?_) (hseparator _ hvalue)
    simp only [List.forall_mem_cons]
    refine ⟨clean_of_isField hname, hsession sessionId, fun field hfield => ?_⟩
    rcases List.mem_append.mp hfield with htarget | hlater
    · exact clean_of_isField (target.isField_fields field htarget)
    · exact hfields hfurther field hlater
  | pause paneId further =>
    exact clean_spaced (List.forall_mem_cons.mpr ⟨hpane paneId, hfields h⟩)
  | «continue» paneId further =>
    exact clean_spaced (List.forall_mem_cons.mpr ⟨hpane paneId, hfields h⟩)
  | exit reason => exact clean_spaced fun field hfield => List.all_eq_true.mp h field hfield
  | other keyword fields =>
    exact clean_spaced fun field hfield => List.all_eq_true.mp h.2.2.2.2 field hfield

theorem clean_line {n : Notification} (h : n.WellFormed) : clean n.line := by
  have hkeyword : clean (ascii n.keyword) := by
    rcases n.keyword_mem with hmem | ⟨keyword, fields, rfl⟩
    · exact clean_keywords _ hmem
    · exact h.2.1
  show clean ([PERCENT] ++ (ascii n.keyword ++ n.arguments)) = true
  exact clean_append (by decide) (clean_append hkeyword (clean_arguments h))

/-- A line without control bytes reaches its end, and nothing is cut off it. -/
theorem readsLine_of_clean {line : Bytes} (h : clean line) :
    ReadsLine .outside line ∧ stripTrailingCr line = line := by
  have hbytes : ∀ b ∈ line, 0x20 ≤ b := fun b hb => of_decide_eq_true (List.all_eq_true.mp h b hb)
  refine ⟨⟨fun hlf => absurd (hbytes LF hlf) (by decide), fun _ hst => ?_⟩, ?_⟩
  · have hesc : ESC ∈ line := hst.subset (List.mem_cons_self)
    exact absurd (hbytes ESC hesc) (by decide)
  · refine if_neg fun hcr => ?_
    exact absurd (hbytes CR (List.mem_of_getLast? hcr)) (by decide)

/-- The tokenizer hands the line on as it is. -/
theorem step_line {n : Notification} (h : n.WellFormed) :
    lineTokenizer.step .outside n.line = (.outside, [.notification n.keyword n.line]) := by
  have hkeyword : extractKeyword n.line = n.keyword :=
    extractKeyword_stops (isKeyword_keyword h).1 n.stops_arguments
  have hhead : n.line.head? = some PERCENT := rfl
  show classifyLine .outside (stripTrailingCr n.line) = _
  simp only [(readsLine_of_clean (clean_line h)).2, classifyLine, if_pos hhead]
  rw [parseNotificationOrBegin, hkeyword, if_neg (isKeyword_keyword h).2]

/-- The notification between two blocks. -/
def asLine (n : Notification) (h : n.WellFormed) : NotificationLine where
  line := n.line
  head_eq := rfl
  reads := (readsLine_of_clean (clean_line h)).1
  not_begin := congrArg Prod.fst (step_line h)

end Notification

end TmuxccDriver.Parser.Notifications
