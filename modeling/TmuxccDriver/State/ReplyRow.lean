import TmuxccDriver.Lib.Bytes
import TmuxccDriver.Lib.Text

/-!
# Reply rows

`state/reply-row.ts`: one schema declares the columns of a `list-*` reply, and the format
string and the strict parser are both made from it. A decoded row is the product of its
columns. The text of a body is what `TextDecoder` makes of it, a parameter here.
-/

namespace TmuxccDriver.State
open TmuxccDriver.Lib

/-! ## Errors -/

/-- `ReplyShapeError` and `FieldDecodeError`. -/
inductive ReplyCodecError
  | shape (replyName : String) (expectedFields actualFields : Nat) (line : List Char)
  | fieldDecode (replyName field : String) (raw : List Char) (reason : String)
deriving DecidableEq, Repr

/-! ## Codecs -/

/-- Decoding fails with the message of the error that is thrown. -/
structure FieldCodec (α : Type) where
  decode : List Char → Except String α
  encode : α → List Char

/-- `/^\d+$/`. -/
def isDigits (raw : List Char) : Bool := !raw.isEmpty && raw.all Char.isDigit

def sigilId (sigil : Char) : FieldCodec Nat where
  decode raw :=
    if raw.head? = some sigil ∧ isDigits raw.tail then .ok (natOfDigits raw.tail)
    else .error ("expected " ++ sigil.toString ++ "<int>")
  encode value := sigil :: value.repr.toList

def text : FieldCodec String where
  decode raw := .ok (String.ofList raw)
  encode value := value.toList

def int : FieldCodec Nat where
  decode raw :=
    if isDigits raw then .ok (natOfDigits raw) else .error "expected a non-negative integer"
  encode value := value.repr.toList

def flag01 : FieldCodec Bool where
  decode raw :=
    if raw = ['1'] then .ok true
    else if raw = ['0'] then .ok false
    else .error "expected \"1\" or \"0\""
  encode value := if value then ['1'] else ['0']

def emptyAsUndefined {α : Type} (inner : FieldCodec α) : FieldCodec (Option α) where
  decode raw := if raw = [] then .ok none else (inner.decode raw).map some
  encode value := (value.map inner.encode).getD []

/-- A closed set of keywords; any other text is read as unset. -/
def optionalKeyword {α : Type} (allowed : List (String × α)) [DecidableEq α] :
    FieldCodec (Option α) where
  decode raw := .ok ((allowed.find? fun entry => entry.1 = String.ofList raw).map Prod.snd)
  encode value := ((allowed.find? fun entry => some entry.2 = value).map fun entry =>
    entry.1.toList).getD []

def paneMode : FieldCodec String where
  decode raw :=
    if raw = [] then .ok "normal"
    else if raw = "copy-mode".toList then .ok "copy"
    else .ok (String.ofList raw)
  encode value :=
    if value = "normal" then [] else if value = "copy" then "copy-mode".toList else value.toList

/-- `tabSanitized`: a reference whose tabs tmux replaces before it prints the row. -/
def tabSanitized (varName : String) : String := "#\x7bs/\t/ /:" ++ varName ++ "\x7d"

/-! ## Schemas -/

/-- The columns of a row, in their order; `ρ` is the type of a decoded row. -/
inductive RowSchema : Type → Type 1
  | done : RowSchema Unit
  | field {α ρ : Type} (key fmt : String) (codec : FieldCodec α) (rest : RowSchema ρ) :
      RowSchema (α × ρ)

namespace RowSchema

def size : {ρ : Type} → RowSchema ρ → Nat
  | _, .done => 0
  | _, .field _ _ _ rest => rest.size + 1

def formats : {ρ : Type} → RowSchema ρ → List String
  | _, .done => []
  | _, .field _ fmt _ rest => fmt :: rest.formats

def encodeFields : {ρ : Type} → RowSchema ρ → ρ → List (List Char)
  | _, .done, _ => []
  | _, .field _ _ codec rest, row => codec.encode row.1 :: rest.encodeFields row.2

/-- The columns of one row, whose number was checked before. -/
def decodeFields (replyName : String) : {ρ : Type} → RowSchema ρ → List (List Char) →
    Except ReplyCodecError ρ
  | _, .done, _ => .ok ()
  | _, .field key _ codec rest, parts =>
    match codec.decode (parts.headD []) with
    | .error reason => .error (.fieldDecode replyName key (parts.headD []) reason)
    | .ok value => (rest.decodeFields replyName parts.tail).map fun row => (value, row)

end RowSchema

/-- A compiled reply row (`defineReplyRow`). -/
structure ReplyRow (ρ : Type) where
  replyName : String
  schema : RowSchema ρ

namespace ReplyRow

variable {ρ : Type} (row : ReplyRow ρ)

def format : String := "\t".intercalate row.schema.formats

/-- One trailing CR is stripped. -/
def stripCr (rawLine : List Char) : List Char :=
  if rawLine.getLast? = some '\r' then rawLine.dropLast else rawLine

def parseLine (line : List Char) : Except ReplyCodecError ρ :=
  let parts := line.splitOn '\t'
  if parts.length ≠ row.schema.size then
    .error (.shape row.replyName row.schema.size parts.length line)
  else row.schema.decodeFields row.replyName parts

/-- `parse`: every line but the empty ones is a row; the first bad one is the error. -/
def parse (decode : Bytes → String) (body : Bytes) : Except ReplyCodecError (List ρ) :=
  ((((decode body).toList.splitOn '\n').map stripCr).filter fun line => line ≠ []).mapM
    row.parseLine

/-- `fixtureLine` of a full row. -/
def renderLine (values : ρ) : List Char := ['\t'].intercalate (row.schema.encodeFields values)

end ReplyRow

end TmuxccDriver.State
