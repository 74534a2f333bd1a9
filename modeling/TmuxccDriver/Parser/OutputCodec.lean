import TmuxccDriver.Parser.Tokenizer

/-!
# Pane output notifications

`parser/output-codec.ts`: the backslash-octal codec of `%output` payloads and the
dedicated parser of the two output notifications. `parser/notifications.ts`:
`parseOutput` and `parseExtendedOutput`, the general parser's reading of the same
lines. A number read off a line is a `Nat`.

Results:
1. `decodeOutputPayload_encodeOutputPayload`, `le_of_mem_encodeOutputPayload`: the
   codec loses nothing and escapes every control byte.
2. `skipSeparator_eq_scanSeparator_iff`: the two ways to the payload of an
   `%extended-output` line meet unless it has extra fields or no age.
3. `outputCodec_iff`: both parsers agree exactly then, and on every `%output` line.
-/

namespace TmuxccDriver.Parser
open TmuxccDriver.Lib

/-! ## Payload codec -/

def isOctalDigit (b : UInt8) : Bool := 0x30 ≤ b ∧ b ≤ 0x37

/-- `((d1 - 0x30) << 6) | ((d2 - 0x30) << 3) | (d3 - 0x30)`, cut to a byte. -/
def octalValue (d1 d2 d3 : UInt8) : UInt8 :=
  ((d1 - 0x30) <<< 6) ||| ((d2 - 0x30) <<< 3) ||| (d3 - 0x30)

def decodeOutputPayload : Bytes → Bytes
  | b :: d1 :: d2 :: d3 :: rest =>
    if b ≠ BACKSLASH then b :: decodeOutputPayload (d1 :: d2 :: d3 :: rest)
    else if isOctalDigit d1 ∧ isOctalDigit d2 ∧ isOctalDigit d3 then
      octalValue d1 d2 d3 :: decodeOutputPayload rest
    -- A malformed escape: the backslash is taken literally.
    else BACKSLASH :: decodeOutputPayload (d1 :: d2 :: d3 :: rest)
  | payload => payload

/-- `0x30 + (b & 0x7)`. -/
def octalDigit (b : UInt8) : UInt8 := 0x30 + (b &&& (0x7 : UInt8))

/-- tmux escapes `b < ' '` and the backslash; bytes from 0x7f up are literal. -/
def encodeByte (b : UInt8) : Bytes :=
  if b < 0x20 ∨ b = BACKSLASH then
    [BACKSLASH, octalDigit (b >>> 6), octalDigit (b >>> 3), octalDigit b]
  else [b]

def encodeOutputPayload (raw : Bytes) : Bytes := raw.flatMap encodeByte

/-- A byte that starts no escape is passed through, also at the end of the payload. -/
theorem decodeOutputPayload_literal {b : UInt8} (h : b ≠ BACKSLASH) (rest : Bytes) :
    decodeOutputPayload (b :: rest) = b :: decodeOutputPayload rest := by
  match rest with
  | [] | [_] | [_, _] => rfl
  | d1 :: d2 :: d3 :: rest => rw [decodeOutputPayload, if_pos h]

theorem decodeOutputPayload_escape {d1 d2 d3 : UInt8} (h1 : isOctalDigit d1)
    (h2 : isOctalDigit d2) (h3 : isOctalDigit d3) (rest : Bytes) :
    decodeOutputPayload (BACKSLASH :: d1 :: d2 :: d3 :: rest) =
      octalValue d1 d2 d3 :: decodeOutputPayload rest := by
  rw [decodeOutputPayload, if_neg (not_not_intro rfl), if_pos ⟨h1, h2, h3⟩]

theorem isOctalDigit_octalDigit (b : UInt8) : isOctalDigit (octalDigit b) := by
  have hlow : (b &&& (0x7 : UInt8)).toNat ≤ 7 := by
    rw [UInt8.toNat_and]
    exact Nat.and_le_right
  have hdigit : (octalDigit b).toNat = 0x30 + (b &&& (0x7 : UInt8)).toNat := by
    rw [octalDigit, UInt8.toNat_add]
    exact Nat.mod_eq_of_lt (Nat.lt_of_le_of_lt (Nat.add_le_add_left hlow _) (by decide))
  simp only [isOctalDigit, UInt8.le_iff_toNat_le, hdigit, decide_eq_true_eq]
  exact ⟨Nat.le_add_right _ _, Nat.add_le_add_left hlow _⟩

/-- The three octal digits of a byte, put together again. -/
theorem octalValue_octalDigit (b : UInt8) :
    octalValue (octalDigit (b >>> 6)) (octalDigit (b >>> 3)) (octalDigit b) = b := by
  have hall : ∀ n : Fin 256, octalValue (octalDigit (UInt8.ofFin n >>> 6))
      (octalDigit (UInt8.ofFin n >>> 3)) (octalDigit (UInt8.ofFin n)) = UInt8.ofFin n := by
    decide +kernel
  exact hall b.toFin

theorem decodeOutputPayload_encodeByte (b : UInt8) (rest : Bytes) :
    decodeOutputPayload (encodeByte b ++ rest) = b :: decodeOutputPayload rest := by
  rw [encodeByte]
  split
  · have hescape := decodeOutputPayload_escape (isOctalDigit_octalDigit (b >>> 6))
      (isOctalDigit_octalDigit (b >>> 3)) (isOctalDigit_octalDigit b) rest
    rw [octalValue_octalDigit] at hescape
    exact hescape
  · rename_i hliteral
    exact decodeOutputPayload_literal (fun hb => hliteral (.inr hb)) rest

theorem decodeOutputPayload_encodeOutputPayload (raw : Bytes) :
    decodeOutputPayload (encodeOutputPayload raw) = raw := by
  induction raw with
  | nil => rfl
  | cons b raw ih =>
    have hcons : encodeOutputPayload (b :: raw) = encodeByte b ++ encodeOutputPayload raw := rfl
    rw [hcons, decodeOutputPayload_encodeByte, ih]

/-- The encoding has no control bytes. -/
theorem le_of_mem_encodeOutputPayload {raw : Bytes} {c : UInt8}
    (h : c ∈ encodeOutputPayload raw) : 0x20 ≤ c := by
  obtain ⟨b, -, hc⟩ := List.mem_flatMap.mp h
  have hdigit : ∀ d : UInt8, isOctalDigit d → 0x20 ≤ d := by
    intro d hd
    simp only [isOctalDigit, decide_eq_true_eq] at hd
    exact UInt8.le_trans (by decide) hd.1
  rw [encodeByte] at hc
  split at hc
  · simp only [List.mem_cons, List.not_mem_nil, or_false] at hc
    obtain rfl | rfl | rfl | rfl := hc
    · decide
    · exact hdigit _ (isOctalDigit_octalDigit _)
    · exact hdigit _ (isOctalDigit_octalDigit _)
    · exact hdigit _ (isOctalDigit_octalDigit _)
  · rename_i hliteral
    obtain rfl := List.mem_singleton.mp hc
    exact UInt8.not_lt.mp fun hlt => hliteral (.inl hlt)

/-! ## The two parsers -/

structure NotificationToken where
  keyword : String
  rawLine : Bytes

abbrev COLON : UInt8 := 0x3a

def isDecimal (b : UInt8) : Bool := 0x30 ≤ b ∧ b ≤ 0x39

/-- A sigil followed by a decimal number, and what follows both. -/
def readSigilId (sigil : UInt8) : Bytes → Option (Nat × Bytes)
  | [] => none
  | b :: rest => if b = sigil then readDecimalField rest else none

/-- Both parsers start alike: past the keyword, a space, and the pane id. -/
def readPaneId (line : Bytes) : Option (Nat × Bytes) := do
  readSigilId PERCENT (← skipSpace (line.dropWhile (· ≠ SPACE)))

/-- What follows a `" : "` right here. -/
def skipSeparator : Bytes → Option Bytes
  | b :: c :: d :: rest => if b = SPACE ∧ c = COLON ∧ d = SPACE then some rest else none
  | _ => none

/-- What follows the first `" : "` at or after this point. -/
def scanSeparator : Bytes → Option Bytes
  | [] => none
  | b :: rest => (skipSeparator (b :: rest)).or (scanSeparator rest)

structure OutputNotification where
  paneId : Nat
  bytes : Bytes
deriving DecidableEq, Repr

/-- `parseOutputNotification`, the dedicated parser. A missing age is not noticed. -/
def parseOutputNotification (token : NotificationToken) : Option OutputNotification := do
  let (paneId, rest) ← readPaneId token.rawLine
  if token.keyword = "extended-output" then
    let payload ← skipSeparator ((← skipSpace rest).dropWhile isDecimal)
    return ⟨paneId, decodeOutputPayload payload⟩
  else
    return ⟨paneId, decodeOutputPayload (← skipSpace rest)⟩

/-- The events of the general parser that an output line can become. -/
inductive NotificationEvent
  | output (paneId : Nat) (rawPayload : Bytes)
  | extendedOutput (paneId ageMs : Nat) (rawPayload : Bytes)
  | unknown (keyword : String) (rawLine : Bytes)
deriving DecidableEq, Repr

def parseOutput (token : NotificationToken) : NotificationEvent :=
  let event : Option NotificationEvent := do
    let (paneId, rest) ← readPaneId token.rawLine
    return .output paneId (← skipSpace rest)
  event.getD (.unknown token.keyword token.rawLine)

/-- Fields between the age and the `" : "` are skipped. -/
def parseExtendedOutput (token : NotificationToken) : NotificationEvent :=
  let event : Option NotificationEvent := do
    let (paneId, rest) ← readPaneId token.rawLine
    let (ageMs, rest) ← readDecimalField (← skipSpace rest)
    return .extendedOutput paneId ageMs (← scanSeparator rest)
  event.getD (.unknown token.keyword token.rawLine)

/-- The two output cases of `parseNotification`. -/
def parseNotification (token : NotificationToken) : NotificationEvent :=
  if token.keyword = "output" then parseOutput token
  else if token.keyword = "extended-output" then parseExtendedOutput token
  else .unknown token.keyword token.rawLine

/-- What a consumer of the general parser gets: the pane and the decoded payload. -/
def NotificationEvent.paneOutput : NotificationEvent → Option OutputNotification
  | .output paneId rawPayload => some ⟨paneId, decodeOutputPayload rawPayload⟩
  | .extendedOutput paneId _ rawPayload => some ⟨paneId, decodeOutputPayload rawPayload⟩
  | .unknown _ _ => none

/-- Both parsers reject the line, or both give the same pane and payload. -/
def OutputParsersAgree (token : NotificationToken) : Prop :=
  parseOutputNotification token = (parseNotification token).paneOutput

instance (token : NotificationToken) : Decidable (OutputParsersAgree token) :=
  inferInstanceAs (Decidable (_ = _))

/-! ## Where they agree -/

/-- `" : "`. -/
def SEPARATOR : Bytes := [SPACE, COLON, SPACE]

theorem skipSeparator_eq_some_iff (bs payload : Bytes) :
    skipSeparator bs = some payload ↔ bs = SEPARATOR ++ payload := by
  match bs with
  | [] | [_] | [_, _] => simp [skipSeparator, SEPARATOR]
  | b :: c :: d :: rest =>
    simp only [skipSeparator, Option.ite_none_right_eq_some, Option.some.injEq, SEPARATOR,
      List.cons_append, List.nil_append, List.cons.injEq]
    constructor
    · rintro ⟨⟨rfl, rfl, rfl⟩, rfl⟩
      exact ⟨rfl, rfl, rfl, rfl⟩
    · rintro ⟨rfl, rfl, rfl, rfl⟩
      exact ⟨⟨rfl, rfl, rfl⟩, rfl⟩

theorem skipSeparator_eq_none_iff (bs : Bytes) : skipSeparator bs = none ↔ ¬SEPARATOR <+: bs := by
  rw [Option.eq_none_iff_forall_ne_some]
  constructor
  · rintro h ⟨payload, rfl⟩
    exact h payload ((skipSeparator_eq_some_iff _ _).mpr rfl)
  · rintro h payload hsome
    exact h ⟨payload, ((skipSeparator_eq_some_iff _ _).mp hsome).symm⟩

theorem scanSeparator_eq_none_iff (bs : Bytes) : scanSeparator bs = none ↔ ¬SEPARATOR <:+: bs := by
  induction bs with
  | nil => simp [scanSeparator, SEPARATOR]
  | cons b bs ih =>
    rw [scanSeparator, Option.or_eq_none_iff, skipSeparator_eq_none_iff, ih, List.infix_cons_iff,
      not_or]

/-- The scan stops at once where a separator stands. -/
theorem scanSeparator_of_skipSeparator {bs payload : Bytes} (h : skipSeparator bs = some payload) :
    scanSeparator bs = some payload := by
  cases bs with
  | nil => cases h
  | cons b bs => rw [scanSeparator, h, Option.some_or]

theorem readDigits_true (value : Nat) (bs : Bytes) :
    ∃ number, readDigits value true bs = some (number, bs.dropWhile isDecimal) := by
  induction bs generalizing value with
  | nil => exact ⟨value, rfl⟩
  | cons b bs ih =>
    rw [readDigits]
    split
    · rename_i hdigit
      rw [List.dropWhile_cons_of_pos (by simpa [isDecimal] using hdigit)]
      exact ih _
    · rename_i hdigit
      rw [List.dropWhile_cons_of_neg (by simpa [isDecimal] using hdigit)]
      exact ⟨value, rfl⟩

/-- A decimal field is the longest run of digits, which is not empty. -/
theorem readDecimalField_cases (bs : Bytes) :
    bs.takeWhile isDecimal = [] ∧ readDecimalField bs = none ∨
    bs.takeWhile isDecimal ≠ [] ∧
      ∃ number, readDecimalField bs = some (number, bs.dropWhile isDecimal) := by
  cases bs with
  | nil => exact .inl ⟨rfl, rfl⟩
  | cons b bs =>
    rw [readDecimalField, readDigits]
    split
    · rename_i hdigit
      have hb : isDecimal b := by simpa [isDecimal] using hdigit
      rw [List.takeWhile_cons_of_pos hb, List.dropWhile_cons_of_pos hb]
      exact .inr ⟨List.cons_ne_nil _ _, readDigits_true _ bs⟩
    · rename_i hdigit
      exact .inl ⟨List.takeWhile_cons_of_neg (by simpa [isDecimal] using hdigit), rfl⟩

/-- The part of an `%extended-output` line after the pane id: there is an age before
the first separator, and no other field. -/
structure AgeOnly (fields : Bytes) : Prop where
  aged : ¬SEPARATOR <+: fields
  adjacent : fields.takeWhile isDecimal ≠ [] → SEPARATOR <:+: fields.dropWhile isDecimal →
    SEPARATOR <+: fields.dropWhile isDecimal

/-- The two ways to the payload: past the digits, or past the age and to the next
separator. -/
theorem skipSeparator_eq_scanSeparator_iff (fields : Bytes) :
    skipSeparator (fields.dropWhile isDecimal) =
        (readDecimalField fields).bind (fun age => scanSeparator age.2) ↔
      AgeOnly fields := by
  obtain ⟨hage, hread⟩ | ⟨hage, number, hread⟩ := readDecimalField_cases fields
  · have hall : fields.dropWhile isDecimal = fields := by
      conv_rhs => rw [← List.takeWhile_append_dropWhile (p := isDecimal) (l := fields), hage,
        List.nil_append]
    rw [hread, hall, Option.bind_none, skipSeparator_eq_none_iff]
    exact ⟨fun h => ⟨h, fun hne => absurd hage hne⟩, AgeOnly.aged⟩
  · have haged : ¬SEPARATOR <+: fields := by
      rintro ⟨payload, rfl⟩
      exact hage rfl
    rw [hread, Option.bind_some]
    constructor
    · intro h
      refine ⟨haged, fun _ hinfix => ?_⟩
      by_contra hprefix
      rw [(skipSeparator_eq_none_iff _).mpr hprefix] at h
      exact (scanSeparator_eq_none_iff _).mp h.symm hinfix
    · rintro ⟨-, hadjacent⟩
      cases hskip : skipSeparator (fields.dropWhile isDecimal) with
      | some payload => exact (scanSeparator_of_skipSeparator hskip).symm
      | none =>
        have hinfix := fun h => (skipSeparator_eq_none_iff _).mp hskip (hadjacent hage h)
        exact ((scanSeparator_eq_none_iff _).mpr hinfix).symm

/-- Where both find a payload it is the same, so decoding it hides no difference. -/
theorem map_skipSeparator_eq_iff {β : Type} (f : Bytes → β) (fields : Bytes) :
    (skipSeparator (fields.dropWhile isDecimal)).map f =
        ((readDecimalField fields).bind fun age => scanSeparator age.2).map f ↔
      AgeOnly fields := by
  rw [← skipSeparator_eq_scanSeparator_iff]
  refine ⟨fun h => ?_, fun h => by rw [h]⟩
  obtain ⟨-, hread⟩ | ⟨-, number, hread⟩ := readDecimalField_cases fields
  · rw [hread, Option.bind_none] at h ⊢
    exact Option.map_eq_none_iff.mp h
  · rw [hread, Option.bind_some] at h ⊢
    cases hskip : skipSeparator (fields.dropWhile isDecimal) with
    | some payload => exact (scanSeparator_of_skipSeparator hskip).symm
    | none =>
      rw [hskip] at h
      exact (Option.map_eq_none_iff.mp h.symm).symm

/-- Both parsers read a `%output` line as pane id, space, payload. -/
theorem outputParsersAgree_output {token : NotificationToken} (hkey : token.keyword = "output") :
    OutputParsersAgree token := by
  rw [OutputParsersAgree, parseNotification, if_pos hkey, parseOutputNotification, parseOutput]
  cases readPaneId token.rawLine with
  | none => rfl
  | some id =>
    cases hrest : skipSpace id.2 <;> simp [hkey, hrest, NotificationEvent.paneOutput]

section
variable {token : NotificationToken} {id : Nat × Bytes} {fields : Bytes}

/-- The dedicated parser from the fields on. -/
theorem parseOutputNotification_fields (hkey : token.keyword = "extended-output")
    (hid : readPaneId token.rawLine = some id) (hrest : skipSpace id.2 = some fields) :
    parseOutputNotification token =
      (skipSeparator (fields.dropWhile isDecimal)).map
        (OutputNotification.mk id.1 ∘ decodeOutputPayload) := by
  rw [parseOutputNotification, hid]
  cases hskip : skipSeparator (fields.dropWhile isDecimal) <;> simp [hkey, hrest, hskip]

/-- The general parser from the fields on. -/
theorem paneOutput_parseExtendedOutput (hid : readPaneId token.rawLine = some id)
    (hrest : skipSpace id.2 = some fields) :
    (parseExtendedOutput token).paneOutput =
      ((readDecimalField fields).bind fun age => scanSeparator age.2).map
        (OutputNotification.mk id.1 ∘ decodeOutputPayload) := by
  rw [parseExtendedOutput, hid]
  cases hread : readDecimalField fields with
  | none => simp [hrest, hread, NotificationEvent.paneOutput]
  | some age =>
    cases hscan : scanSeparator age.2 <;> simp [hrest, hread, hscan, NotificationEvent.paneOutput]

theorem outputParsersAgree_extendedOutput (hkey : token.keyword = "extended-output") :
    OutputParsersAgree token ↔
      ∀ id ∈ readPaneId token.rawLine, ∀ fields ∈ skipSpace id.2, AgeOnly fields := by
  have hdispatch : parseNotification token = parseExtendedOutput token := by
    rw [parseNotification, if_neg (by rw [hkey]; decide), if_pos hkey]
  rw [OutputParsersAgree, hdispatch]
  cases hid : readPaneId token.rawLine with
  | none => simp [parseOutputNotification, parseExtendedOutput, hid, NotificationEvent.paneOutput]
  | some id =>
    cases hrest : skipSpace id.2 with
    | none =>
      simp [parseOutputNotification, parseExtendedOutput, hkey, hid, hrest,
        NotificationEvent.paneOutput]
    | some fields =>
      rw [parseOutputNotification_fields hkey hid hrest, paneOutput_parseExtendedOutput hid hrest,
        map_skipSeparator_eq_iff]
      simp only [Option.mem_def, Option.some.injEq, forall_eq', hrest]

end

/-- The codec is lossless with an encoding free of control bytes; and the dedicated
and the general parser agree on an output line exactly when, for `%extended-output`,
nothing but the age stands before the first separator. -/
theorem outputCodec_iff (raw : Bytes) (token : NotificationToken)
    (hkey : token.keyword = "output" ∨ token.keyword = "extended-output") :
    (decodeOutputPayload (encodeOutputPayload raw) = raw ∧
      (∀ b ∈ encodeOutputPayload raw, 0x20 ≤ b) ∧ OutputParsersAgree token) ↔
      (token.keyword = "extended-output" →
        ∀ id ∈ readPaneId token.rawLine, ∀ fields ∈ skipSpace id.2, AgeOnly fields) := by
  have hcodec := decodeOutputPayload_encodeOutputPayload raw
  have hcontrol : ∀ b ∈ encodeOutputPayload raw, 0x20 ≤ b :=
    fun b hb => le_of_mem_encodeOutputPayload hb
  rw [and_iff_right hcodec, and_iff_right hcontrol]
  obtain hout | hext := hkey
  · have hne : token.keyword ≠ "extended-output" := by
      rw [hout]
      decide
    exact iff_of_true (outputParsersAgree_output hout) fun h => absurd h hne
  · rw [outputParsersAgree_extendedOutput hext, imp_iff_right hext]

/-- The shape tmux sends: an age, the separator, an escaped payload with a malformed
escape in it. -/
theorem outputCodec_iff_aged :
    OutputParsersAgree
      ⟨"extended-output", ascii "%extended-output %12 345 : a\\015\\01 : b"⟩ := by
  have hagree := (outputCodec_iff [0x00, 0x5c, 0xff]
    ⟨"extended-output", ascii "%extended-output %12 345 : a\\015\\01 : b"⟩ (.inr rfl)).mpr
  refine (hagree ?_).2.2
  intro _ id hid fields hfields
  have hid : some (12, ascii " 345 : a\\015\\01 : b") = some id := hid
  obtain rfl := Option.some.inj hid
  have hfields : some (ascii "345 : a\\015\\01 : b") = some fields := hfields
  obtain rfl := Option.some.inj hfields
  exact ⟨by decide +kernel, fun _ _ => by decide +kernel⟩

/-- One more field between the age and the separator: the general parser skips it as
its comment promises, the dedicated one rejects the line. -/
theorem outputParsers_disagree :
    ∃ token : NotificationToken,
      token.keyword = extractKeyword token.rawLine ∧ token.keyword = "extended-output" ∧
      parseOutputNotification token = none ∧
      (parseNotification token).paneOutput = some ⟨1, ascii "hi"⟩ ∧
      ¬OutputParsersAgree token :=
  ⟨⟨"extended-output", ascii "%extended-output %1 5 new : hi"⟩, by decide +kernel⟩

end TmuxccDriver.Parser
