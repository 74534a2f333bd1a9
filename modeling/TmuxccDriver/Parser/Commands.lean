import TmuxccDriver.Lib.Text
import TmuxccDriver.Protocol.SessionProxyControl

/-!
# Outbound commands

`parser/commands.ts`: the functions that render one tmux command line, without its LF.

Result:
1. `oneLine_quoteArg`: quoting keeps the line breaks of its argument.
-/

namespace TmuxccDriver.Parser
open TmuxccDriver.Lib TmuxccDriver.Protocol

/-! ## Quoting -/

/-- `'`. -/
def QUOTE : Char := Char.ofNat 0x27

/-- `'\''`: close the quotes, write a quote, open them again. -/
def ESCAPED_QUOTE : List Char := [QUOTE, '\\', QUOTE, QUOTE]

/-- `arg.replace(/'/g, "'\\''")`. -/
def escapeQuotes (arg : String) : String :=
  String.ofList (arg.toList.flatMap fun c => if c = QUOTE then ESCAPED_QUOTE else [c])

/-- Single quotes around the escaped argument. -/
def singleQuoted (arg : String) : String :=
  String.singleton QUOTE ++ escapeQuotes arg ++ String.singleton QUOTE

/-- `[A-Za-z0-9%@#{}.:_\-=*,/]`. -/
def isSimpleChar (c : Char) : Bool :=
  c.isAlphanum ||
    ['%', '@', '#', '\x7b', '\x7d', '.', ':', '_', '-', '=', '*', ',', '/'].contains c

/-- `quoteArg`. -/
def quoteArg (arg : String) : String :=
  if arg ≠ "" ∧ arg.toList.all isSimpleChar then arg else singleQuoted arg

/-! ## Renderers -/

/-- `EFFECT_IDS_FORMAT`. -/
def EFFECT_IDS_FORMAT : String := "#\x7bpane_id\x7d #\x7bwindow_id\x7d"

/-- `sendKeysHex`. -/
def sendKeysHex (paneId : Int) (bytes : Bytes) : String :=
  if bytes.length = 0 then "send-keys -H -t %" ++ paneId.repr
  else "send-keys -H -t %" ++ paneId.repr ++ " " ++ " ".intercalate (bytes.map hexByte)

def refreshClientSize (cols rows : Int) : String :=
  "refresh-client -C " ++ cols.repr ++ "x" ++ rows.repr

def refreshClientWindowSize (windowId cols rows : Int) : String :=
  "refresh-client -C @" ++ windowId.repr ++ ":" ++ cols.repr ++ "x" ++ rows.repr

/-- A flag and its argument, if there is one. -/
def flagged (flag : String) (arg : Option String) : List String :=
  match arg with
  | none => []
  | some a => [flag ++ quoteArg a]

/-- `-e NAME=value` for every entry. -/
def envFlags : Option Env → List String
  | none => []
  | some env => env.map fun (name, value) => "-e " ++ quoteArg (name ++ "=" ++ value)

/-- `-P -F EFFECT_IDS_FORMAT`, when the ids are asked for. -/
def printFlags (printIds : Bool) : List String :=
  if printIds then ["-P -F " ++ quoteArg EFFECT_IDS_FORMAT] else []

structure NewWindowOptions where
  name : Option String
  shellCommand : Option String
  startDirectory : Option String
  printIds : Bool
  env : Option Env

def newWindow (opts : NewWindowOptions) : String :=
  " ".intercalate (["new-window"] ++ printFlags opts.printIds ++
    flagged "-n " opts.name ++ flagged "-c " opts.startDirectory ++ envFlags opts.env ++
    flagged "" opts.shellCommand)

structure SplitWindowOptions where
  shellCommand : Option String
  startDirectory : Option String
  percent : Option Int
  printIds : Bool
  env : Option Env

def orientationFlag : SplitDirection → String
  | .horizontal => "-h"
  | .vertical => "-v"

/-- The command, its orientation flag and its target. -/
def splitHead (paneId : Option Int) (orientation : SplitDirection) : String :=
  match paneId with
  | some n => "split-window " ++ orientationFlag orientation ++ " -t %" ++ n.repr
  | none => "split-window " ++ orientationFlag orientation

def percentFlag : Option Int → List String
  | some percent => ["-p " ++ percent.repr]
  | none => []

def splitWindow (paneId : Option Int) (orientation : SplitDirection) (opts : SplitWindowOptions) :
    String :=
  " ".intercalate ([splitHead paneId orientation] ++ printFlags opts.printIds ++
    percentFlag opts.percent ++ flagged "-c " opts.startDirectory ++ envFlags opts.env ++
    flagged "" opts.shellCommand)

def breakPane (paneId : Int) (printIds : Bool) : String :=
  " ".intercalate (["break-pane -d"] ++ printFlags printIds ++ ["-s %" ++ paneId.repr])

def resizePane (paneId cols rows : Int) : String :=
  "resize-pane -t %" ++ paneId.repr ++ " -x " ++ cols.repr ++ " -y " ++ rows.repr

/-- `set-option` with its flags and target, an option and a value. -/
def setOptionAt (target option value : String) : String :=
  "set-option " ++ target ++ " " ++ quoteArg option ++ " " ++ quoteArg value

/-- `set-option -u` with its flags and target, and an option. -/
def unsetOptionAt (target option : String) : String :=
  "set-option " ++ target ++ " " ++ quoteArg option

def setOptionForWindow (windowId : Int) (option value : String) : String :=
  setOptionAt ("-wt @" ++ windowId.repr) option value

def setOptionForPane (paneId : Int) (option value : String) : String :=
  setOptionAt ("-pt %" ++ paneId.repr) option value

def unsetOptionForPane (paneId : Int) (option : String) : String :=
  unsetOptionAt ("-upt %" ++ paneId.repr) option

def unsetOptionForWindow (windowId : Int) (option : String) : String :=
  unsetOptionAt ("-uwt @" ++ windowId.repr) option

def setOptionForSession (sessionName option value : String) : String :=
  setOptionAt ("-t " ++ quoteArg sessionName) option value

def unsetOptionForSession (sessionName option : String) : String :=
  unsetOptionAt ("-ut " ++ quoteArg sessionName) option

/-- `listWindows` with a format. -/
def listWindows (format : String) (sessionId : Option Nat) : String :=
  "list-windows -F " ++ quoteArg format ++
    match sessionId with
    | none => ""
    | some id => " -t $" ++ id.repr

/-- `listPanes` with a format and no target. -/
def listPanes (format : String) : String := "list-panes -F " ++ quoteArg format

/-- `listPanes` of one session, by its id. -/
def listSessionPanes (sessionId : Nat) (format : String) : String :=
  "list-panes -s -t $" ++ sessionId.repr ++ " -F " ++ quoteArg format

/-! ## Effect ids -/

/-- Numeric ids of the entities a creating verb made. -/
structure EffectIds where
  paneNum : Nat
  windowNum : Nat
deriving DecidableEq, Repr

/-- `/^%(\d+)\s+@(\d+)$/`. -/
def matchEffectIds (line : List Char) : Option EffectIds :=
  match line with
  | '%' :: rest =>
    let (pane, rest) := rest.span Char.isDigit
    let (gap, rest) := rest.span isSpace
    match rest with
    | '@' :: window =>
      if pane ≠ [] ∧ gap ≠ [] ∧ window ≠ [] ∧ window.all Char.isDigit then
        some ⟨natOfDigits pane, natOfDigits window⟩
      else none
    | _ => none
  | _ => none

/-- `parseEffectIds`: the first line that is not blank decides. -/
def parseEffectIds (body : String) : Option EffectIds :=
  (((body.toList.splitOn '\n').map trim).find? (· ≠ [])).bind matchEffectIds

example : parseEffectIds "\n%5 @2\n" = some ⟨5, 2⟩ := by decide

/-! ## Commands of one line -/

@[simp] theorem oneLine_escapeQuotes (arg : String) : OneLine (escapeQuotes arg) ↔ OneLine arg := by
  have hchar : ∀ c : Char, '\n' ∈ (if c = QUOTE then ESCAPED_QUOTE else [c]) ↔ '\n' = c := by
    intro c
    split
    · subst_vars
      decide
    · exact List.mem_singleton
  rw [OneLine, OneLine, escapeQuotes, String.toList_ofList, List.mem_flatMap]
  simp only [hchar, exists_eq_right']

@[simp] theorem oneLine_singleQuoted (arg : String) : OneLine (singleQuoted arg) ↔ OneLine arg := by
  have hquote : OneLine (String.singleton QUOTE) := by
    rw [OneLine, String.toList_singleton]
    decide
  rw [singleQuoted, oneLine_append, oneLine_append, oneLine_escapeQuotes]
  simp only [hquote, true_and, and_true]

@[simp] theorem oneLine_quoteArg (arg : String) : OneLine (quoteArg arg) ↔ OneLine arg := by
  unfold quoteArg
  split
  · rfl
  · exact oneLine_singleQuoted arg

end TmuxccDriver.Parser
