import TmuxccDriver.Lib.Transducer
import TmuxccDriver.Parser.Commands

/-!
# Quoting against the command lexer

What the builders of `parser/commands.ts` rely on of tmux's command lexer, as a
machine that reads one character at a time: single-quoted text is literal, a
backslash and a quote outside quotes are a quote, blanks separate, a leading `#`
starts a comment, `;`, `{` and `}` are tokens of their own. Which other bare
characters stand for themselves is a parameter: tmux gives `"`, `$` and `~` a
meaning of their own, and builders that quote do not depend on it.

Results:
1. `lex_bare_iff`: the texts that may be written without quotes.
2. `lex_singleQuoted`: quoted text is read back, whatever it is.
3. `lex_quoteArg_iff`: `quoteArg` leaves some texts bare that may not be.
4. `lex_line_iff`: a line is read back word by word exactly when its words are faithful.
-/

namespace TmuxccDriver.Parser
open TmuxccDriver.Lib

/-! ## The lexer -/

inductive LexToken
  | argument (text : List Char)
  | special (c : Char)
deriving DecidableEq, Repr

/-- Where the lexer stands, with the argument read so far. -/
inductive LexMode
  | between
  | word (text : List Char)
  /-- After a bare backslash. -/
  | escape (text : List Char)
  | quoted (text : List Char)
  | comment
  | failed
deriving DecidableEq, Repr

def LexMode.text : LexMode → List Char
  | .word text | .escape text | .quoted text => text
  | .between | .comment | .failed => []

/-- The argument that a separator ends. -/
def LexMode.flush : LexMode → List LexToken
  | .word text => [.argument text]
  | _ => []

def isBlank (c : Char) : Bool := c = ' ' ∨ c = '\t'

def isSpecial (c : Char) : Bool := c = ';' ∨ c = '\x7b' ∨ c = '\x7d'

section
variable (literal : Char → Bool)

/-- A character outside quotes. -/
def lexBare (mode : LexMode) (c : Char) : LexMode × List LexToken :=
  if c = QUOTE then (.quoted mode.text, [])
  else if isBlank c then (.between, mode.flush)
  else if isSpecial c then (.between, mode.flush ++ [.special c])
  else if c = '#' ∧ mode = .between then (.comment, [])
  else if c = '\\' then (.escape mode.text, [])
  else if literal c then (.word (mode.text ++ [c]), [])
  else (.failed, [])

def lexChar : LexMode → Char → LexMode × List LexToken
  -- only the escaped quote is relied on
  | .escape text, c => if c = QUOTE then (.word (text ++ [QUOTE]), []) else (.failed, [])
  | .quoted text, c => if c = QUOTE then (.word text, []) else (.quoted (text ++ [c]), [])
  | .comment, _ => (.comment, [])
  | .failed, _ => (.failed, [])
  | .between, c => lexBare literal .between c
  | .word text, c => lexBare literal (.word text) c

def commandLexer : Transducer LexMode Char LexToken := ⟨lexChar literal⟩

/-- The end of the line: quotes must be closed. -/
def lexEnd : LexMode → Option (List LexToken)
  | .between | .comment => some []
  | .word text => some [.argument text]
  | .escape _ | .quoted _ | .failed => none

def lexFrom (mode : LexMode) (cs : List Char) : Option (List LexToken) :=
  (lexEnd ((commandLexer literal).final mode cs)).map ((commandLexer literal).output mode cs ++ ·)

/-- The tokens of a line; `none` when the lexer gives the text another meaning. -/
def lex (line : String) : Option (List LexToken) := lexFrom literal .between line.toList

/-- A character that stands for itself outside quotes, except `#` at the start. -/
def Ordinary (c : Char) : Prop :=
  c ≠ QUOTE ∧ ¬isBlank c ∧ ¬isSpecial c ∧ c ≠ '\\' ∧ literal c

instance (c : Char) : Decidable (Ordinary literal c) :=
  inferInstanceAs (Decidable (_ ∧ _))

/-- How much text the arguments of some tokens have. -/
def argLength (tokens : List LexToken) : Nat :=
  (tokens.map fun
    | .argument text => text.length
    | .special _ => 0).sum

variable {literal}

theorem lexFrom_cons (mode : LexMode) (c : Char) (cs : List Char) :
    lexFrom literal mode (c :: cs) =
      (lexFrom literal (lexChar literal mode c).1 cs).map ((lexChar literal mode c).2 ++ ·) := by
  have hstep : (commandLexer literal).step mode c = lexChar literal mode c := rfl
  rw [lexFrom, lexFrom, Transducer.final_cons, Transducer.output_cons, hstep, Option.map_map]
  congr 1
  funext tokens
  exact List.append_assoc _ _ _

theorem lexFrom_cons_silent {mode next : LexMode} {c : Char}
    (hstep : lexChar literal mode c = (next, [])) (cs : List Char) :
    lexFrom literal mode (c :: cs) = lexFrom literal next cs := by
  rw [lexFrom_cons, hstep]
  exact Option.map_id'

/-- Text that leaves the lexer inside a word is followed by whatever comes next. -/
theorem lexFrom_append {mode mode' : LexMode} {cs : List Char}
    (hrun : (commandLexer literal).run mode cs = (mode', [])) (ds : List Char) :
    lexFrom literal mode (cs ++ ds) = lexFrom literal mode' ds := by
  rw [lexFrom, lexFrom, Transducer.final, Transducer.final, Transducer.output, Transducer.output,
    Transducer.run_append_silent _ hrun]

@[simp] theorem argLength_append (tokens more : List LexToken) :
    argLength (tokens ++ more) = argLength tokens + argLength more := by
  simp [argLength]

theorem argLength_flush (mode : LexMode) : argLength mode.flush ≤ mode.text.length := by
  cases mode <;> simp [LexMode.flush, LexMode.text, argLength]

/-! ## Bare text -/

/-- An ordinary character joins the word. -/
theorem lexBare_of_ordinary {mode : LexMode} {c : Char} (hc : Ordinary literal c)
    (hleading : mode = .between → c ≠ '#') :
    lexBare literal mode c = (.word (mode.text ++ [c]), []) := by
  obtain ⟨hquote, hblank, hspecial, hback, hliteral⟩ := hc
  rw [lexBare, if_neg hquote, if_neg hblank, if_neg hspecial,
    if_neg fun h => hleading h.2 h.1, if_neg hback, if_pos hliteral]

/-- Any other character adds nothing to the text that the arguments can still get. -/
theorem lexBare_of_not_ordinary {mode : LexMode} {c : Char}
    (hc : ¬Ordinary literal c ∨ mode = .between ∧ c = '#') :
    argLength (lexBare literal mode c).2 + (lexBare literal mode c).1.text.length ≤
      mode.text.length := by
  have hflush := argLength_flush mode
  unfold lexBare
  split
  · simp [LexMode.text, argLength]
  split
  · simpa [LexMode.text] using hflush
  split
  · simpa [LexMode.text, argLength] using hflush
  split
  · simp [LexMode.text, argLength]
  split
  · simp [LexMode.text, argLength]
  rename_i hquote hblank hspecial hcomment hback
  split
  · rename_i hliteral
    rcases hc with hord | ⟨hmode, hhash⟩
    · exact absurd ⟨hquote, hblank, hspecial, hback, hliteral⟩ hord
    · exact absurd ⟨hhash, hmode⟩ hcomment
  · simp [LexMode.text, argLength]

/-- One character adds at most itself to the text of the arguments. -/
theorem lexChar_argLength (mode : LexMode) (c : Char) :
    argLength (lexChar literal mode c).2 + (lexChar literal mode c).1.text.length ≤
      mode.text.length + 1 := by
  have hbare : ∀ mode : LexMode, argLength (lexBare literal mode c).2 +
      (lexBare literal mode c).1.text.length ≤ mode.text.length + 1 := by
    intro mode
    by_cases hc : ¬Ordinary literal c ∨ mode = .between ∧ c = '#'
    · exact Nat.le_succ_of_le (lexBare_of_not_ordinary hc)
    · obtain ⟨hord, hleading⟩ := not_or.mp hc
      rw [lexBare_of_ordinary (not_not.mp hord) fun hmode hhash => hleading ⟨hmode, hhash⟩]
      simp [LexMode.text, argLength]
  cases mode with
  | between => exact hbare .between
  | word text => exact hbare (.word text)
  | escape text =>
    rw [lexChar]
    split <;> simp [LexMode.text, argLength]
  | quoted text =>
    rw [lexChar]
    split <;> simp [LexMode.text, argLength]
  | comment => simp [lexChar, LexMode.text, argLength]
  | failed => simp [lexChar, LexMode.text, argLength]

/-- Lexing makes text no longer. -/
theorem argLength_lexFrom {mode : LexMode} {cs : List Char} {tokens : List LexToken}
    (h : lexFrom literal mode cs = some tokens) :
    argLength tokens ≤ mode.text.length + cs.length := by
  induction cs generalizing mode tokens with
  | nil =>
    cases mode with
    | between => cases h; exact Nat.zero_le _
    | comment => cases h; exact Nat.zero_le _
    | word text => cases h; exact le_rfl
    | escape text => cases h
    | quoted text => cases h
    | failed => cases h
  | cons c cs ih =>
    rw [lexFrom_cons] at h
    obtain ⟨more, hmore, rfl⟩ := Option.map_eq_some_iff.mp h
    have hstep := @lexChar_argLength literal mode c
    have hrest := ih hmore
    rw [argLength_append, List.length_cons]
    omega

/-- A bare character that is not ordinary is lost to the arguments. -/
theorem argLength_lexFrom_cons {mode : LexMode} {c : Char} {cs : List Char}
    {tokens : List LexToken} (hbare : lexChar literal mode c = lexBare literal mode c)
    (hc : ¬Ordinary literal c ∨ mode = .between ∧ c = '#')
    (h : lexFrom literal mode (c :: cs) = some tokens) :
    argLength tokens ≤ mode.text.length + cs.length := by
  rw [lexFrom_cons, hbare] at h
  obtain ⟨more, hmore, rfl⟩ := Option.map_eq_some_iff.mp h
  have hstep := lexBare_of_not_ordinary hc
  have hrest := argLength_lexFrom hmore
  rw [argLength_append]
  omega

/-- Inside a word every character is kept exactly when all are ordinary. -/
theorem lexFrom_word_iff (text cs : List Char) :
    lexFrom literal (.word text) cs = some [.argument (text ++ cs)] ↔
      ∀ c ∈ cs, Ordinary literal c := by
  induction cs generalizing text with
  | nil => simp [lexFrom, lexEnd]
  | cons c cs ih =>
    rw [List.forall_mem_cons]
    by_cases hc : Ordinary literal c
    · have hrest := ih (text ++ [c])
      rw [List.append_assoc, List.singleton_append] at hrest
      rw [lexFrom_cons, lexChar, lexBare_of_ordinary hc (by simp), ← hrest]
      simp [LexMode.text, hc]
    · -- the text of the arguments is too short from here on
      refine iff_of_false (fun h => ?_) fun h => hc h.1
      have hlost := argLength_lexFrom_cons rfl (.inl hc) h
      simp [argLength, LexMode.text] at hlost

theorem lexFrom_between_iff (cs : List Char) :
    lexFrom literal .between cs = some [.argument cs] ↔
      cs ≠ [] ∧ cs.head? ≠ some '#' ∧ ∀ c ∈ cs, Ordinary literal c := by
  cases cs with
  | nil => simp [lexFrom, lexEnd]
  | cons c cs =>
    rw [List.forall_mem_cons]
    by_cases hc : Ordinary literal c ∧ c ≠ '#'
    · have hrest := @lexFrom_word_iff literal [c] cs
      rw [List.singleton_append] at hrest
      rw [lexFrom_cons, lexChar, lexBare_of_ordinary hc.1 fun _ => hc.2, ← hrest]
      simp [LexMode.text, hc]
    · refine iff_of_false (fun h => ?_) fun h => hc ⟨h.2.2.1, by simpa using h.2.1⟩
      have hnot : ¬Ordinary literal c ∨ LexMode.between = .between ∧ c = '#' := by
        rw [not_and_or, not_not] at hc
        exact hc.imp id fun h => ⟨rfl, h⟩
      have hlost := argLength_lexFrom_cons rfl hnot h
      simp [argLength, LexMode.text] at hlost

theorem lex_bare_iff (text : String) :
    lex literal text = some [.argument text.toList] ↔
      text ≠ "" ∧ text.toList.head? ≠ some '#' ∧ ∀ c ∈ text.toList, Ordinary literal c := by
  rw [lex, lexFrom_between_iff, ne_eq, String.toList_eq_nil_iff]

/-! ## Quoted text -/

theorem run_escapeQuotes (text cs : List Char) :
    (commandLexer literal).run (.quoted text)
        (cs.flatMap fun c => if c = QUOTE then ESCAPED_QUOTE else [c]) =
      (.quoted (text ++ cs), []) := by
  induction cs generalizing text with
  | nil => simp
  | cons c cs ih =>
    have hone : (commandLexer literal).run (.quoted text)
        (if c = QUOTE then ESCAPED_QUOTE else [c]) = (.quoted (text ++ [c]), []) := by
      split
      · subst_vars
        rfl
      · rename_i hc
        simp [Transducer.run_cons, commandLexer, lexChar, hc]
    rw [List.flatMap_cons, Transducer.run_append_silent _ hone, ih, List.append_assoc,
      List.singleton_append]

/-- Quoted text, read from between two words. -/
theorem run_singleQuoted (arg : String) :
    (commandLexer literal).run .between (singleQuoted arg).toList = (.word arg.toList, []) := by
  have hquote : (String.singleton QUOTE).toList = [QUOTE] := String.toList_singleton _
  have hopen : (commandLexer literal).step .between QUOTE = (.quoted [], []) := rfl
  rw [singleQuoted, String.toList_append, String.toList_append, hquote, List.singleton_append,
    List.cons_append, Transducer.run_cons_silent _ hopen, escapeQuotes, String.toList_ofList,
    Transducer.run_append_silent _ (run_escapeQuotes [] arg.toList)]
  rfl

theorem lex_singleQuoted (arg : String) :
    lex literal (singleQuoted arg) = some [.argument arg.toList] := by
  have happend := lexFrom_append (@run_singleQuoted literal arg) []
  rw [List.append_nil] at happend
  rw [lex, happend]
  rfl

/-! ## `quoteArg` -/

/-- The lexer takes the characters that `quoteArg` leaves bare literally, except the
braces. -/
def SimpleLiteral (literal : Char → Bool) : Prop :=
  ∀ c, isSimpleChar c → ¬isSpecial c → literal c

theorem ordinary_of_isSimpleChar (hliteral : SimpleLiteral literal) {c : Char}
    (hc : isSimpleChar c) : Ordinary literal c ↔ ¬isSpecial c := by
  have hne : ∀ d : Char, ¬isSimpleChar d → c ≠ d := by
    rintro d hd rfl
    exact hd hc
  have hblank : ¬isBlank c := by
    have hspace := hne ' ' (by decide)
    have htab := hne '\t' (by decide)
    simp [isBlank, hspace, htab]
  exact ⟨fun h => h.2.2.1,
    fun h => ⟨hne QUOTE (by decide), hblank, h, hne '\\' (by decide), hliteral c hc h⟩⟩

theorem lex_quoteArg_iff (hliteral : SimpleLiteral literal) (arg : String) :
    lex literal (quoteArg arg) = some [.argument arg.toList] ↔
      (arg ≠ "" → arg.toList.all isSimpleChar →
        arg.toList.head? ≠ some '#' ∧ ∀ c ∈ arg.toList, ¬isSpecial c) := by
  unfold quoteArg
  split
  · rename_i hbare
    have hordinary : (∀ c ∈ arg.toList, Ordinary literal c) ↔ ∀ c ∈ arg.toList, ¬isSpecial c :=
      forall₂_congr fun c hc =>
        ordinary_of_isSimpleChar hliteral (List.all_eq_true.mp hbare.2 c hc)
    rw [lex_bare_iff, hordinary]
    exact ⟨fun h _ _ => h.2, fun h => ⟨hbare.1, h hbare.1 hbare.2⟩⟩
  · rename_i hbare
    exact iff_of_true (lex_singleQuoted arg) fun hne hall => absurd ⟨hne, hall⟩ hbare

/-- A session name behind `=`, written without quotes. -/
theorem lex_sessionTarget_iff (hliteral : SimpleLiteral literal) (name : String) :
    lex literal ("=" ++ name) = some [.argument ("=" ++ name).toList] ↔
      ∀ c ∈ name.toList, Ordinary literal c := by
  have hchars : ("=" ++ name).toList = '=' :: name.toList := String.toList_append
  have hequals : Ordinary literal '=' :=
    (ordinary_of_isSimpleChar hliteral (by decide)).mpr (by decide)
  rw [lex, hchars, lexFrom_between_iff, List.forall_mem_cons]
  exact ⟨fun h => h.2.2.2, fun h => ⟨List.cons_ne_nil _ _, by simp, hequals, h⟩⟩

end

/-! ## Lines of words -/

/-- How a builder writes an argument. -/
inductive Word
  /-- A constant or a number. -/
  | bare (text : String)
  | quoteArg (arg : String)
  | singleQuoted (arg : String)
  /-- `=<name>`, tmux's exact-match target. -/
  | sessionTarget (name : String)

namespace Word

/-- What is written. -/
def text : Word → String
  | bare text => text
  | quoteArg arg => Parser.quoteArg arg
  | singleQuoted arg => Parser.singleQuoted arg
  | sessionTarget name => "=" ++ name

/-- What tmux is to get. -/
def value : Word → String
  | bare text => text
  | quoteArg arg => arg
  | singleQuoted arg => arg
  | sessionTarget name => "=" ++ name

/-- The words that are read back. -/
def Faithful (literal : Char → Bool) : Word → Prop
  | bare text => text ≠ "" ∧ text.toList.head? ≠ some '#' ∧ ∀ c ∈ text.toList, Ordinary literal c
  | quoteArg arg => arg ≠ "" → arg.toList.all isSimpleChar →
      arg.toList.head? ≠ some '#' ∧ ∀ c ∈ arg.toList, ¬isSpecial c
  | singleQuoted _ => True
  | sessionTarget name => ∀ c ∈ name.toList, Ordinary literal c

/-- A string that stays on its line and is read back as it is. Constants always are. -/
def Harmless (literal : Char → Bool) : Word → Prop
  | bare _ => True
  | quoteArg arg => OneLine arg ∧ (arg ≠ "" → arg.toList.all isSimpleChar →
      arg.toList.head? ≠ some '#' ∧ ∀ c ∈ arg.toList, ¬isSpecial c)
  | singleQuoted arg => OneLine arg
  | sessionTarget name => OneLine name ∧ ∀ c ∈ name.toList, Ordinary literal c

instance (literal : Char → Bool) : DecidablePred (Harmless literal)
  | bare _ => .isTrue trivial
  | quoteArg arg =>
    haveI := List.decidableBAll (fun c => ¬isSpecial c) arg.toList
    inferInstanceAs (Decidable (_ ∧ _))
  | singleQuoted _ => inferInstanceAs (Decidable (OneLine _))
  | sessionTarget name =>
    haveI := List.decidableBAll (Ordinary literal) name.toList
    inferInstanceAs (Decidable (_ ∧ _))

variable {literal : Char → Bool}

theorem lex_text_iff (hliteral : SimpleLiteral literal) (w : Word) :
    lex literal w.text = some [.argument w.value.toList] ↔ w.Faithful literal := by
  cases w with
  | bare text => exact lex_bare_iff text
  | quoteArg arg => exact lex_quoteArg_iff hliteral arg
  | singleQuoted arg => exact iff_of_true (lex_singleQuoted arg) trivial
  | sessionTarget name => exact lex_sessionTarget_iff hliteral name

/-- Simple characters without braces. -/
def isPlain (text : String) : Bool :=
  text.toList.all fun c => isSimpleChar c && !isSpecial c

/-- Constants and numbers. -/
def isConstant (text : String) : Bool :=
  text ≠ "" && text.toList.head? ≠ some '#' && isPlain text

@[simp] theorem isPlain_append (s t : String) : isPlain (s ++ t) = (isPlain s && isPlain t) := by
  simp [isPlain]

theorem isPlain_nat (n : Nat) : isPlain n.repr := by
  rw [isPlain, Nat.toList_repr, List.all_eq_true]
  intro c hc
  have hdigit := Nat.isDigit_of_mem_toDigits (by decide) le_rfl hc
  have hne : ∀ d : Char, ¬d.isDigit → c ≠ d := by
    rintro d hd rfl
    exact hd hdigit
  have hspecial : isSpecial c = false := by
    simp [isSpecial, hne ';' (by decide), hne '\x7b' (by decide), hne '\x7d' (by decide)]
  simp [isSimpleChar, Char.isAlphanum, hdigit, hspecial]

theorem isPlain_int (n : Int) : isPlain n.repr := by
  cases n with
  | ofNat m => exact isPlain_nat m
  | negSucc m =>
    have happend : (Int.negSucc m).repr = "-" ++ (m + 1).repr := rfl
    rw [happend, isPlain_append, isPlain_nat]
    rfl

/-- A constant may be continued. -/
theorem isConstant_append {text more : String} (h : isConstant text) (hmore : isPlain more) :
    isConstant (text ++ more) := by
  simp only [isConstant, Bool.and_eq_true, decide_eq_true_eq, isPlain_append] at h ⊢
  obtain ⟨⟨hne, hhead⟩, htext⟩ := h
  have hchars : text.toList ≠ [] := mt String.toList_eq_nil_iff.mp hne
  refine ⟨⟨fun h => hchars ?_, ?_⟩, htext, hmore⟩
  · have hlist := congrArg String.toList h
    rw [String.toList_append] at hlist
    exact (List.append_eq_nil_iff.mp hlist).1
  · rwa [String.toList_append, List.head?_append_of_ne_nil _ hchars]

/-- `quoteArg` leaves a constant as it is. -/
theorem quoteArg_of_isConstant {text : String} (h : isConstant text) :
    Parser.quoteArg text = text := by
  simp only [isConstant, isPlain, Bool.and_eq_true, decide_eq_true_eq, List.all_eq_true] at h
  exact if_pos ⟨h.1.1, List.all_eq_true.mpr fun c hc => (h.2 c hc).1⟩

theorem faithful_bare (hliteral : SimpleLiteral literal) {text : String} (h : isConstant text) :
    (bare text).Faithful literal := by
  simp only [isConstant, isPlain, Bool.and_eq_true, decide_eq_true_eq, List.all_eq_true,
    Bool.not_eq_true'] at h
  obtain ⟨⟨hne, hhead⟩, hchars⟩ := h
  refine ⟨hne, hhead, fun c hc => ?_⟩
  exact (ordinary_of_isSimpleChar hliteral (hchars c hc).1).mpr (by simp [(hchars c hc).2])

end Word

section
variable {literal : Char → Bool}

/-- Ordinary text is read inside one word. -/
theorem run_ordinary (text : List Char) {cs : List Char} (hcs : ∀ c ∈ cs, Ordinary literal c) :
    (commandLexer literal).run (.word text) cs = (.word (text ++ cs), []) := by
  induction cs generalizing text with
  | nil => simp
  | cons c cs ih =>
    obtain ⟨hc, hcs⟩ := List.forall_mem_cons.mp hcs
    have hstep : (commandLexer literal).step (.word text) c = (.word (text ++ [c]), []) :=
      lexBare_of_ordinary hc (by simp)
    rw [Transducer.run_cons_silent _ hstep, ih _ hcs, List.append_assoc, List.singleton_append]

theorem run_bare {cs : List Char} (hne : cs ≠ []) (hhead : cs.head? ≠ some '#')
    (hcs : ∀ c ∈ cs, Ordinary literal c) :
    (commandLexer literal).run .between cs = (.word cs, []) := by
  cases cs with
  | nil => exact absurd rfl hne
  | cons c cs =>
    obtain ⟨hc, hcs⟩ := List.forall_mem_cons.mp hcs
    have hstep : (commandLexer literal).step .between c = (.word [c], []) :=
      lexBare_of_ordinary hc fun _ hhash => hhead (congrArg some hhash)
    rw [Transducer.run_cons_silent _ hstep, run_ordinary _ hcs, List.singleton_append]

/-- A faithful word leaves the lexer inside the word it stands for. -/
theorem run_word (hliteral : SimpleLiteral literal) {w : Word} (hw : w.Faithful literal) :
    (commandLexer literal).run .between w.text.toList = (.word w.value.toList, []) := by
  have hbare : ∀ text : String, lex literal text = some [.argument text.toList] →
      (commandLexer literal).run .between text.toList = (.word text.toList, []) := by
    intro text hlex
    obtain ⟨hne, hhead, hcs⟩ := (lex_bare_iff text).mp hlex
    exact run_bare (mt String.toList_eq_nil_iff.mp hne) hhead hcs
  have hlex := (w.lex_text_iff hliteral).mpr hw
  cases w with
  | bare text => exact hbare text hlex
  | quoteArg arg =>
    rw [Word.text, Word.value] at hlex ⊢
    by_cases hsimple : arg ≠ "" ∧ arg.toList.all isSimpleChar
    · have htext : Parser.quoteArg arg = arg := if_pos hsimple
      rw [htext] at hlex ⊢
      exact hbare arg hlex
    · have htext : Parser.quoteArg arg = Parser.singleQuoted arg := if_neg hsimple
      rw [htext]
      exact run_singleQuoted arg
  | singleQuoted arg => exact run_singleQuoted arg
  | sessionTarget name => exact hbare ("=" ++ name) hlex

/-! ## A word that is not faithful -/

theorem lexFrom_comment (cs : List Char) : lexFrom literal .comment cs = some [] := by
  induction cs with
  | nil => rfl
  | cons c cs ih => rw [lexFrom_cons, lexChar, ih]; rfl

theorem lexFrom_failed (cs : List Char) : lexFrom literal .failed cs = none := by
  induction cs with
  | nil => rfl
  | cons c cs ih => rw [lexFrom_cons, lexChar, ih]; rfl

/-- The lexer is inside an argument. -/
def LexMode.Begun : LexMode → Prop
  | .word _ | .escape _ | .quoted _ => True
  | .between | .comment | .failed => False

/-- What a character does to a word. -/
theorem lexChar_word_cases (text : List Char) (c : Char) :
    (c = QUOTE ∧ lexChar literal (.word text) c = (.quoted text, [])) ∨
      (∃ next more, lexChar literal (.word text) c = (next, .argument text :: more)) ∨
      (c = '\\' ∧ lexChar literal (.word text) c = (.escape text, [])) ∨
      (Ordinary literal c ∧ lexChar literal (.word text) c = (.word (text ++ [c]), [])) ∨
      lexChar literal (.word text) c = (.failed, []) := by
  by_cases hc : Ordinary literal c
  · exact .inr (.inr (.inr (.inl ⟨hc, lexBare_of_ordinary hc (by simp)⟩)))
  · rw [lexChar, lexBare]
    split
    · next hquote => exact .inl ⟨hquote, rfl⟩
    split
    · exact .inr (.inl ⟨.between, [], rfl⟩)
    split
    · exact .inr (.inl ⟨.between, [.special c], rfl⟩)
    split
    · next hcomment => cases hcomment.2
    split
    · next hback => exact .inr (.inr (.inl ⟨hback, rfl⟩))
    split
    · next hquote hblank hspecial hcomment hback hliteral =>
      exact absurd ⟨hquote, hblank, hspecial, hback, hliteral⟩ hc
    · exact .inr (.inr (.inr (.inr rfl)))

/-- What was read of an argument is the beginning of it. -/
theorem prefix_of_lexFrom {mode : LexMode} (hmode : mode.Begun) {cs : List Char}
    {tokens : List LexToken} (h : lexFrom literal mode cs = some tokens) :
    ∃ text more, tokens = .argument text :: more ∧ mode.text <+: text := by
  induction cs generalizing mode tokens with
  | nil =>
    cases mode with
    | word text => cases h; exact ⟨text, [], rfl, List.prefix_rfl⟩
    | escape text => cases h
    | quoted text => cases h
    | between => cases hmode
    | comment => cases hmode
    | failed => cases hmode
  | cons c cs ih =>
    rw [lexFrom_cons] at h
    obtain ⟨rest, hrest, rfl⟩ := Option.map_eq_some_iff.mp h
    -- one more character, or the argument goes on as it is
    have hgrows : ∀ next : LexMode, next.Begun → (lexChar literal mode c).1 = next →
        (lexChar literal mode c).2 = [] → mode.text <+: next.text →
        ∃ text more, (lexChar literal mode c).2 ++ rest = .argument text :: more ∧
          mode.text <+: text := by
      intro next hbegun hnext hout hprefix
      rw [hnext] at hrest
      obtain ⟨text, more, rfl, htext⟩ := ih hbegun hrest
      exact ⟨text, more, by rw [hout]; rfl, hprefix.trans htext⟩
    have hfails : (lexChar literal mode c).1 ≠ .failed := by
      intro hfailed
      rw [hfailed, lexFrom_failed] at hrest
      cases hrest
    cases mode with
    | between => cases hmode
    | comment => cases hmode
    | failed => cases hmode
    | quoted text =>
      by_cases hc : c = QUOTE
      · have hstep : lexChar literal (.quoted text) c = (.word text, []) := if_pos hc
        exact hgrows (.word text) trivial (by rw [hstep]) (by rw [hstep]) List.prefix_rfl
      · have hstep : lexChar literal (.quoted text) c = (.quoted (text ++ [c]), []) := if_neg hc
        exact hgrows (.quoted (text ++ [c])) trivial (by rw [hstep]) (by rw [hstep])
          (List.prefix_append _ _)
    | escape text =>
      by_cases hc : c = QUOTE
      · have hstep : lexChar literal (.escape text) c = (.word (text ++ [QUOTE]), []) := if_pos hc
        exact hgrows (.word (text ++ [QUOTE])) trivial (by rw [hstep]) (by rw [hstep])
          (List.prefix_append _ _)
      · exact absurd (congrArg Prod.fst (if_neg hc : lexChar literal (.escape text) c = _)) hfails
    | word text =>
      rcases lexChar_word_cases text c with ⟨-, hstep⟩ | ⟨next, more, hstep⟩ | ⟨-, hstep⟩ |
        ⟨-, hstep⟩ | hstep
      · exact hgrows (.quoted text) trivial (by rw [hstep]) (by rw [hstep]) List.prefix_rfl
      · exact ⟨text, more ++ rest, by rw [hstep]; rfl, List.prefix_rfl⟩
      · exact hgrows (.escape text) trivial (by rw [hstep]) (by rw [hstep]) List.prefix_rfl
      · exact hgrows (.word (text ++ [c])) trivial (by rw [hstep]) (by rw [hstep])
          (List.prefix_append _ _)
      · exact absurd (congrArg Prod.fst hstep) hfails

/-- An argument that is to have `c` next does not get another character there. -/
theorem eq_of_lexFrom (mode : LexMode) (hmode : mode.Begun) {text cs ds : List Char} {c d : Char}
    {more : List LexToken} (htext : mode.text = text ++ [d])
    (h : lexFrom literal mode cs = some (.argument (text ++ c :: ds) :: more)) : d = c := by
  obtain ⟨value, rest, hvalue, hprefix⟩ := prefix_of_lexFrom hmode h
  obtain ⟨rfl, rfl⟩ : text ++ c :: ds = value ∧ more = rest := by simpa using hvalue
  rw [htext] at hprefix
  exact (List.cons_prefix_cons.mp ((List.prefix_append_right_inj text).mp hprefix)).1

/-- Text in a word that is read as itself is ordinary, unless its first other character opens
quotes that the next one closes. -/
theorem lexFrom_word_append {text cs tail : List Char} {more : List LexToken}
    (htail : tail.head? ≠ some QUOTE)
    (h : lexFrom literal (.word text) (cs ++ tail) = some (.argument (text ++ cs) :: more)) :
    (∀ c ∈ cs, Ordinary literal c) ∨
      ∃ front back, cs = front ++ QUOTE :: QUOTE :: back ∧
        lexFrom literal (.word (text ++ front)) (back ++ tail) =
          some (.argument (text ++ cs) :: more) := by
  induction cs generalizing text with
  | nil => exact .inl fun c hc => absurd hc List.not_mem_nil
  | cons c cs ih =>
    rw [List.cons_append] at h
    rcases lexChar_word_cases text c with ⟨rfl, hstep⟩ | ⟨next, flushed, hstep⟩ | ⟨rfl, hstep⟩ |
      ⟨hc, hstep⟩ | hstep
    · -- the quotes have to be closed at once
      rw [lexFrom_cons_silent hstep] at h
      rcases cs with _ | ⟨d, cs⟩
      · rcases tail with _ | ⟨d, tail⟩
        · cases h
        · have hd : d ≠ QUOTE := fun hd => htail (congrArg some hd)
          have hquoted : lexChar literal (.quoted text) d = (.quoted (text ++ [d]), []) := if_neg hd
          rw [List.nil_append, lexFrom_cons_silent hquoted] at h
          exact absurd (eq_of_lexFrom (.quoted (text ++ [d])) trivial rfl h) hd
      · rw [List.cons_append] at h
        by_cases hd : d = QUOTE
        · subst hd
          have hclosed : lexChar literal (.quoted text) QUOTE = (.word text, []) := rfl
          rw [lexFrom_cons_silent hclosed] at h
          exact .inr ⟨[], cs, rfl, by rwa [List.append_nil]⟩
        · have hquoted : lexChar literal (.quoted text) d = (.quoted (text ++ [d]), []) := if_neg hd
          rw [lexFrom_cons_silent hquoted] at h
          exact absurd (eq_of_lexFrom (.quoted (text ++ [d])) trivial rfl h) hd
    · rw [lexFrom_cons, hstep] at h
      obtain ⟨tokens, -, hout⟩ := Option.map_eq_some_iff.mp h
      have hends : text = text ++ c :: cs := by simpa using (List.cons.inj hout).1
      simp at hends
    · -- after a backslash only a quote is read, and that is another character
      rw [lexFrom_cons_silent hstep] at h
      rcases hrest : cs ++ tail with _ | ⟨d, rest⟩
      · rw [hrest] at h
        cases h
      · rw [hrest] at h
        by_cases hd : d = QUOTE
        · have hescaped : lexChar literal (.escape text) d = (.word (text ++ [QUOTE]), []) :=
            if_pos hd
          rw [lexFrom_cons_silent hescaped] at h
          have hback := eq_of_lexFrom (.word (text ++ [QUOTE])) trivial rfl h
          exact absurd hback (by decide)
        · have hfailed : lexChar literal (.escape text) d = (.failed, []) := if_neg hd
          rw [lexFrom_cons_silent hfailed, lexFrom_failed] at h
          cases h
    · rw [lexFrom_cons_silent hstep] at h
      have hcut : text ++ c :: cs = text ++ [c] ++ cs := (List.append_cons ..)
      rw [hcut] at h ⊢
      rcases ih h with hall | ⟨front, back, rfl, hback⟩
      · exact .inl (List.forall_mem_cons.mpr ⟨hc, hall⟩)
      · refine .inr ⟨c :: front, back, rfl, ?_⟩
        rw [List.append_cons]
        exact hback
    · rw [lexFrom_cons_silent hstep, lexFrom_failed] at h
      cases h

/-! ## What a line has room for -/

/-- The text of the argument, with the quote that a backslash announces. -/
def LexMode.room : LexMode → Nat
  | .escape text => text.length + 1
  | mode => mode.text.length

/-- A quote adds nothing, any other character at most itself. -/
theorem lexChar_room (mode : LexMode) (c : Char) :
    argLength (lexChar literal mode c).2 + (lexChar literal mode c).1.room ≤
      mode.room + if c = QUOTE then 0 else 1 := by
  cases mode with
  | between =>
    simp only [lexChar, lexBare]
    split_ifs <;> simp [LexMode.room, LexMode.text, LexMode.flush, argLength]
  | word text =>
    simp only [lexChar, lexBare]
    split_ifs <;> simp [LexMode.room, LexMode.text, LexMode.flush, argLength]
  | escape text =>
    rw [lexChar]
    split <;> simp [LexMode.room, LexMode.text, argLength]
  | quoted text =>
    rw [lexChar]
    split <;> simp [LexMode.room, LexMode.text, argLength]
  | comment => simp [lexChar, LexMode.room, LexMode.text, argLength]
  | failed => simp [lexChar, LexMode.room, LexMode.text, argLength]

/-- The arguments have no more text than the line has other characters than quotes. -/
theorem argLength_lexFrom_unquoted {mode : LexMode} {cs : List Char} {tokens : List LexToken}
    (h : lexFrom literal mode cs = some tokens) :
    argLength tokens ≤ mode.room + cs.countP (· ≠ QUOTE) := by
  induction cs generalizing mode tokens with
  | nil =>
    cases mode with
    | between => cases h; exact Nat.zero_le _
    | comment => cases h; exact Nat.zero_le _
    | word text => cases h; exact le_rfl
    | escape text => cases h
    | quoted text => cases h
    | failed => cases h
  | cons c cs ih =>
    rw [lexFrom_cons] at h
    obtain ⟨more, hmore, rfl⟩ := Option.map_eq_some_iff.mp h
    have hstep := @lexChar_room literal mode c
    have hrest := ih hmore
    rw [argLength_append, List.countP_cons]
    by_cases hc : c = QUOTE
    · simp only [hc, if_true, ne_eq, not_true_eq_false, decide_false, Bool.false_eq_true,
        if_false] at hstep hrest ⊢
      omega
    · simp only [hc, if_false, ne_eq, not_false_eq_true, decide_true, if_true] at hstep hrest ⊢
      omega

theorem countP_singleQuoted (arg : String) :
    (singleQuoted arg).toList.countP (· ≠ QUOTE) = arg.toList.length := by
  have hquote : (String.singleton QUOTE).toList = [QUOTE] := String.toList_singleton _
  have hchar : ∀ c : Char, (if c = QUOTE then ESCAPED_QUOTE else [c]).countP (· ≠ QUOTE) = 1 := by
    intro c
    split
    · rfl
    · next hc => simp [hc]
  have hchars : ∀ cs : List Char, (cs.flatMap fun c =>
      if c = QUOTE then ESCAPED_QUOTE else [c]).countP (· ≠ QUOTE) = cs.length := by
    intro cs
    induction cs with
    | nil => rfl
    | cons c cs ih =>
      rw [List.flatMap_cons, List.countP_append, hchar, ih, List.length_cons, Nat.add_comm]
  rw [singleQuoted, String.toList_append, String.toList_append, hquote, escapeQuotes,
    String.toList_ofList, List.countP_append, List.countP_append, hchars]
  exact (Nat.add_zero _).trans (Nat.zero_add _)

end

/-! ## Lines -/

/-- Words joined by spaces. -/
def line (ws : List Word) : String := " ".intercalate (ws.map Word.text)

/-- The arguments a line of words stands for. -/
def arguments (ws : List Word) : List LexToken := ws.map fun w => .argument w.value.toList

/-- Bare words are constants, and the target of a session stands at the end, or before one
quoted name. -/
inductive Tidy : List Word → Prop
  | nil : Tidy []
  | bare {text : String} {ws : List Word} (htext : Word.isConstant text) (h : Tidy ws) :
      Tidy (.bare text :: ws)
  | quoteArg {arg : String} {ws : List Word} (h : Tidy ws) : Tidy (.quoteArg arg :: ws)
  | singleQuoted {arg : String} {ws : List Word} (h : Tidy ws) : Tidy (.singleQuoted arg :: ws)
  | target (name : String) : Tidy [.sessionTarget name]
  | targetThenName (name arg : String) : Tidy [.sessionTarget name, .singleQuoted arg]

/-- What follows a word on its line. -/
def lineTail : List Word → List Char
  | [] => []
  | w :: ws => ' ' :: (line (w :: ws)).toList

theorem toList_line_cons (w : Word) (ws : List Word) :
    (line (w :: ws)).toList = w.text.toList ++ lineTail ws := by
  cases ws with
  | nil => simp [line, lineTail]
  | cons w' ws => simp [line, lineTail, String.intercalate_cons_cons]

section
variable {literal : Char → Bool}

/-- A word that is followed by a space or by nothing is an argument. -/
theorem lexFrom_lineTail (text : List Char) (ws : List Word) :
    lexFrom literal (.word text) (lineTail ws) =
      (lex literal (line ws)).map (.argument text :: ·) := by
  cases ws with
  | nil => rfl
  | cons w ws =>
    have hspace : lexChar literal (.word text) ' ' = (.between, [.argument text]) := rfl
    rw [lineTail, lexFrom_cons, hspace]
    rfl

theorem lex_line_cons (hliteral : SimpleLiteral literal) {w : Word} (hw : w.Faithful literal)
    (ws : List Word) :
    lex literal (line (w :: ws)) =
      (lex literal (line ws)).map (.argument w.value.toList :: ·) := by
  rw [lex, toList_line_cons, lexFrom_append (run_word hliteral hw), lexFrom_lineTail]

/-- A faithful word does not matter. -/
theorem lex_line_cons_iff (hliteral : SimpleLiteral literal) {w : Word}
    (hw : w.Faithful literal) {ws : List Word}
    (ih : lex literal (line ws) = some (arguments ws) ↔ ∀ w ∈ ws, w.Faithful literal) :
    lex literal (line (w :: ws)) = some (arguments (w :: ws)) ↔
      ∀ w' ∈ w :: ws, w'.Faithful literal := by
  have hargs : arguments (w :: ws) = .argument w.value.toList :: arguments ws := rfl
  rw [lex_line_cons hliteral hw, hargs, List.forall_mem_cons, and_iff_right hw, ← ih]
  constructor
  · intro h
    obtain ⟨tokens, htokens, hcons⟩ := Option.map_eq_some_iff.mp h
    rw [htokens, (List.cons.inj hcons).2]
  · intro h
    rw [h]
    rfl

theorem head_lineTail (ws : List Word) : (lineTail ws).head? ≠ some QUOTE := by
  cases ws with
  | nil => exact Option.some_ne_none _ |>.symm
  | cons w ws =>
    rw [lineTail, List.head?_cons]
    decide

/-- Simple characters that are read back are ordinary, whatever follows them. -/
theorem ordinary_of_lexFrom (hliteral : SimpleLiteral literal) {text tail : List Char}
    (hsimple : text.all isSimpleChar) (htail : tail.head? ≠ some QUOTE) {more : List LexToken}
    (h : lexFrom literal .between (text ++ tail) = some (.argument text :: more)) :
    text.head? ≠ some '#' ∧ ∀ c ∈ text, ¬isSpecial c := by
  rcases text with _ | ⟨c, cs⟩
  · exact ⟨by simp, fun c hc => absurd hc List.not_mem_nil⟩
  · obtain ⟨hc, hcs⟩ := Bool.and_eq_true_iff.mp hsimple
    have hne : ∀ d : Char, ¬isSimpleChar d → c ≠ d := by
      rintro d hd rfl
      exact hd hc
    rw [List.cons_append] at h
    by_cases hhash : c = '#'
    · subst hhash
      have hcomment : lexChar literal .between '#' = (.comment, []) := rfl
      rw [lexFrom_cons_silent hcomment, lexFrom_comment] at h
      cases h
    by_cases hspecial : isSpecial c
    · have hblank : ¬isBlank c := by simp [isBlank, hne ' ' (by decide), hne '\t' (by decide)]
      have hstep : lexChar literal .between c = (.between, [.special c]) := by
        rw [lexChar, lexBare, if_neg (hne QUOTE (by decide)), if_neg hblank, if_pos hspecial]
        rfl
      rw [lexFrom_cons, hstep] at h
      obtain ⟨tokens, -, hout⟩ := Option.map_eq_some_iff.mp h
      cases (List.cons.inj hout).1
    · have hord := (ordinary_of_isSimpleChar hliteral hc).mpr hspecial
      have hstep : lexChar literal .between c = (.word [c], []) :=
        lexBare_of_ordinary hord fun _ => hhash
      rw [lexFrom_cons_silent hstep] at h
      refine ⟨fun hhead => hhash (Option.some.inj hhead),
        List.forall_mem_cons.mpr ⟨hspecial, fun d hd => ?_⟩⟩
      have hword : lexFrom literal (.word [c]) (cs ++ tail) =
          some (.argument ([c] ++ cs) :: more) := h
      rcases lexFrom_word_append htail hword with hall | ⟨front, back, rfl, -⟩
      · exact (hall d hd).2.2.1
      · -- a quote is no simple character
        simp only [List.all_append, List.all_cons, Bool.and_eq_true] at hcs
        exact absurd hcs.2.1 (by decide)

/-- A name behind `=` that is read back is ordinary, at the end of the line or before one
quoted name. -/
theorem ordinary_target {name : List Char} {ws : List Word}
    (hroom : (lineTail ws).countP (· ≠ QUOTE) ≤ argLength (arguments ws) + 1)
    (hliteral : SimpleLiteral literal)
    (h : lexFrom literal .between ('=' :: name ++ lineTail ws) =
      some (.argument ('=' :: name) :: arguments ws)) :
    ∀ c ∈ name, Ordinary literal c := by
  have hequals : Ordinary literal '=' :=
    (ordinary_of_isSimpleChar hliteral (by decide)).mpr (by decide)
  have hstep : lexChar literal .between '=' = (.word ['='], []) :=
    lexBare_of_ordinary hequals fun _ => by decide
  rw [List.cons_append, lexFrom_cons_silent hstep] at h
  have hword : lexFrom literal (.word ['=']) (name ++ lineTail ws) =
      some (.argument (['='] ++ name) :: arguments ws) := h
  rcases lexFrom_word_append (head_lineTail ws) hword with hall | ⟨front, back, rfl, hback⟩
  · exact hall
  · -- the two quotes are lost, and what comes after them has no room for them
    have hlost := argLength_lexFrom_unquoted hback
    have hcount : ∀ cs : List Char, cs.countP (· ≠ QUOTE) ≤ cs.length :=
      fun cs => List.countP_le_length
    have hb := hcount back
    simp only [argLength, LexMode.room, LexMode.text, List.countP_append, List.map_cons,
      List.sum_cons, List.length_append, List.length_cons, List.length_nil] at hlost hroom
    omega

theorem lex_target_iff (hliteral : SimpleLiteral literal) (name : String) {ws : List Word}
    (hroom : (lineTail ws).countP (· ≠ QUOTE) ≤ argLength (arguments ws) + 1)
    (ih : lex literal (line ws) = some (arguments ws) ↔ ∀ w ∈ ws, w.Faithful literal) :
    lex literal (line (.sessionTarget name :: ws)) = some (arguments (.sessionTarget name :: ws)) ↔
      ∀ w ∈ .sessionTarget name :: ws, w.Faithful literal := by
  by_cases hfaithful : (Word.sessionTarget name).Faithful literal
  · exact lex_line_cons_iff hliteral hfaithful ih
  · refine iff_of_false (fun hlex => hfaithful ?_) fun hall => hfaithful (hall _ List.mem_cons_self)
    have hchars : ("=" ++ name).toList = '=' :: name.toList := String.toList_append
    rw [lex, toList_line_cons, arguments, List.map_cons, Word.text, Word.value, hchars] at hlex
    exact ordinary_target hroom hliteral hlex

/-- A tidy line is read back word by word exactly when its words are faithful. -/
theorem lex_line_iff (hliteral : SimpleLiteral literal) {ws : List Word} (htidy : Tidy ws) :
    lex literal (line ws) = some (arguments ws) ↔ ∀ w ∈ ws, w.Faithful literal := by
  induction htidy with
  | nil => exact iff_of_true rfl fun _ h => absurd h List.not_mem_nil
  | bare htext h ih => exact lex_line_cons_iff hliteral (Word.faithful_bare hliteral htext) ih
  | @singleQuoted arg ws h ih =>
    exact lex_line_cons_iff (w := .singleQuoted arg) hliteral trivial ih
  | @quoteArg arg ws h ih =>
    by_cases hfaithful : (Word.quoteArg arg).Faithful literal
    · exact lex_line_cons_iff hliteral hfaithful ih
    · refine iff_of_false (fun hlex => hfaithful fun hne hsimple => ?_)
        fun hall => hfaithful (hall _ List.mem_cons_self)
      have htext : Word.text (.quoteArg arg) = arg := if_pos ⟨hne, hsimple⟩
      rw [lex, toList_line_cons, htext] at hlex
      exact ordinary_of_lexFrom hliteral hsimple (head_lineTail ws) hlex
  | target name =>
    exact lex_target_iff hliteral name (Nat.zero_le _)
      (iff_of_true rfl fun _ h => absurd h List.not_mem_nil)
  | targetThenName name arg =>
    have hnil : lex literal (line []) = some (arguments []) ↔
        ∀ w ∈ ([] : List Word), w.Faithful literal :=
      iff_of_true rfl fun _ h => absurd h List.not_mem_nil
    refine lex_target_iff hliteral name ?_
      (lex_line_cons_iff (w := .singleQuoted arg) hliteral trivial hnil)
    have hline : (line [.singleQuoted arg]).toList = (singleQuoted arg).toList := rfl
    rw [lineTail, hline, List.countP_cons, countP_singleQuoted]
    exact le_rfl

end

end TmuxccDriver.Parser
