import TmuxccDriver.Parser.CommandLexer
import TmuxccDriver.Runtime.InputPath

/-!
# Command lines as words

What the input path composes for a `command.request`, as lists of words: which of them are
constants and numbers, and how each string of the client and of the model is written. The
lines it sends are these words joined by spaces.

Results:
1. `sent_handleCommand`: the lines are the words that were composed.
2. `line_read_iff`: a line is one line and tmux reads its words back exactly when its
   strings are harmless.
3. `argument_quoting_iff`: exactly which strings are read back as one argument, for
   every way the driver writes a string.
-/

namespace TmuxccDriver.Runtime
open TmuxccDriver.Lib TmuxccDriver.Protocol TmuxccDriver.Parser TmuxccDriver.State

/-! ## The words of the renderers -/

/-- `%n`. -/
def paneWord (n : Int) : Word := .bare ("%" ++ n.repr)

/-- `@n`. -/
def windowWord (n : Int) : Word := .bare ("@" ++ n.repr)

def numberWord (n : Int) : Word := .bare n.repr

/-- A flag and its argument, if there is one. -/
def flagWords (flag : String) : Option String → List (List Word)
  | none => []
  | some arg => [[.bare flag, .quoteArg arg]]

def shellWords : Option String → List (List Word)
  | none => []
  | some shellCommand => [[.quoteArg shellCommand]]

/-- `-e NAME=value` for every entry. -/
def envWords : Option Env → List (List Word)
  | none => []
  | some env => env.map fun (name, value) => [.bare "-e", .quoteArg (name ++ "=" ++ value)]

/-- The format has a blank, so it is quoted. -/
def printWords : List (List Word) := [[.bare "-P", .bare "-F", .singleQuoted EFFECT_IDS_FORMAT]]

def newWindowWords (name cwd shellCommand : Option String) (env : Option Env) : List Word :=
  ([[Word.bare "new-window"]] ++ printWords ++ flagWords "-n" name ++ flagWords "-c" cwd ++
    envWords env ++ shellWords shellCommand).flatten

def targetWords : Option Int → List Word
  | none => []
  | some n => [.bare "-t", paneWord n]

def splitWindowWords (paneId : Option Int) (orientation : SplitDirection)
    (cwd shellCommand : Option String) (env : Option Env) : List Word :=
  ([Word.bare "split-window" :: .bare (orientationFlag orientation) :: targetWords paneId] ++
    printWords ++ flagWords "-c" cwd ++ envWords env ++ shellWords shellCommand).flatten

def breakPaneWords (n : Int) : List Word :=
  ([[Word.bare "break-pane", .bare "-d"]] ++ printWords ++ [[.bare "-s", paneWord n]]).flatten

/-- `set-option` with its flag and target, an option and a value. -/
def setOptionWords (flag : String) (target : Word) (option : String) (value : Word) : List Word :=
  [.bare "set-option", .bare flag, target, .bare option, value]

def unsetOptionWords (flag : String) (target : Word) (option : String) : List Word :=
  [.bare "set-option", .bare flag, target, .bare option]

def resizePaneWords (n cols rows : Int) : List Word :=
  [.bare "resize-pane", .bare "-t", paneWord n, .bare "-x", numberWord cols, .bare "-y",
    numberWord rows]

def sendKeysWords (n : Int) (bytes : Bytes) : List Word :=
  [.bare "send-keys", .bare "-H", .bare "-t", paneWord n] ++ bytes.map fun b => .bare (hexByte b)

/-! ## The words of a request -/

/-- What is composed when the ids convert; a `TypeError` sends nothing. -/
def converted {α : Type} (r : Except TypeError α) (f : α → List (List Word)) : List (List Word) :=
  match r with
  | .ok a => f a
  | .error _ => []

namespace InputPathOptions

variable (opts : InputPathOptions)

/-- The words of a `set-object-policy`. -/
def policyWords (call : Call) (scope : PolicyScope) (paneId : Option PaneId)
    (windowId : Option WindowId) (option : PolicyOption) (value : Option String) :
    List (List Word) :=
  let name := opts.policyOptionName call option
  match scope with
  | .pane =>
    match paneId with
    | none => []
    | some pid =>
      converted (opts.paneIdToTmux pid) fun n =>
        match value with
        | none => [unsetOptionWords "-upt" (paneWord n) name]
        | some v => [setOptionWords "-pt" (paneWord n) name (.quoteArg v)]
  | .window =>
    match windowId with
    | none => []
    | some wid =>
      converted (opts.windowIdToTmux wid) fun n =>
        match value with
        | none => [unsetOptionWords "-uwt" (windowWord n) name]
        | some v => [setOptionWords "-wt" (windowWord n) name (.quoteArg v)]
  | .session =>
    match call.model.bind firstSessionName with
    | none => []
    | some sessionName =>
      match value with
      | none => [unsetOptionWords "-ut" (.quoteArg sessionName) name]
      | some v => [setOptionWords "-t" (.quoteArg sessionName) name (.quoteArg v)]

/-- The words of a session rename: the current name is a target, if it is known. -/
def renameSessionWords (current : Option String) (name : String) : List Word :=
  .bare "rename-session" ::
    match current with
    | some current => [.bare "-t", .sessionTarget current, .singleQuoted name]
    | none => [.singleQuoted name]

/-- The commands a request composes, each as its words. -/
def composed (call : Call) : WireCommand → List (List Word)
  | .openWindow name cwd shellCommand env => [newWindowWords name cwd shellCommand env]
  | .splitPane paneId direction cwd shellCommand env =>
    converted (paneId.mapM opts.paneIdToTmux) fun target =>
      [splitWindowWords target direction cwd shellCommand env]
  | .closePane paneId =>
    converted (opts.paneIdToTmux paneId) fun n =>
      [[.bare "kill-pane", .bare "-t", paneWord n]]
  | .renameWindow windowId name =>
    converted (opts.windowIdToTmux windowId) fun n =>
      [[.bare "rename-window", .bare "-t", windowWord n, .singleQuoted name]]
  | .renameSession name =>
    if name = "" then [] else [renameSessionWords (call.model.bind firstSessionName) name]
  | .selectPane paneId =>
    converted (opts.paneIdToTmux paneId) fun n =>
      [[.bare "select-pane", .bare "-t", paneWord n]]
  | .resizePane _ cols rows =>
    [[.bare "refresh-client", .bare "-C", .bare (cols.repr ++ "x" ++ rows.repr)]]
  | .resizeManagedWindow _ _ _ panes =>
    converted (panes.mapM fun pane =>
      return resizePaneWords (← opts.paneIdToTmux pane.paneId) pane.cols pane.rows) id
  | .killSession sessionName => [[.bare "kill-session", .bare "-t", .sessionTarget sessionName]]
  | .setSynchronizePanes windowId on =>
    converted (opts.windowIdToTmux windowId) fun n =>
      [setOptionWords "-wt" (windowWord n) "synchronize-panes" (.bare (onOff on))]
  | .setMonitorActivity windowId on =>
    converted (opts.windowIdToTmux windowId) fun n =>
      [setOptionWords "-wt" (windowWord n) "monitor-activity" (.bare (onOff on))]
  | .setMonitorSilence windowId seconds =>
    converted (opts.windowIdToTmux windowId) fun n =>
      [setOptionWords "-wt" (windowWord n) "monitor-silence" (numberWord (seconds.getD 0).toNat)]
  | .breakPane paneId =>
    converted (opts.paneIdToTmux paneId) fun n =>
      [breakPaneWords n]
  | .swapPane paneId targetPaneId =>
    converted (opts.paneIdToTmux paneId) fun n =>
      match targetPaneId with
      | some target =>
        converted (opts.paneIdToTmux target) fun t =>
          [[.bare "swap-pane", .bare "-s", paneWord n, .bare "-t", paneWord t]]
      | none => [[.bare "swap-pane", .bare "-D", .bare "-t", paneWord n]]
  | .renamePane paneId title =>
    converted (opts.paneIdToTmux paneId) fun n =>
      [setOptionWords "-pt" (paneWord n) TMUXCC_LABEL_OPTION (.quoteArg title)]
  | .setObjectPolicy scope paneId windowId option value =>
    opts.policyWords call scope paneId windowId option value
  | .killWindow windowId =>
    converted (opts.windowIdToTmux windowId) fun n =>
      [[.bare "kill-window", .bare "-t", windowWord n]]
  | .swapWindow sourceWindowId targetWindowId =>
    converted (opts.windowIdToTmux sourceWindowId) fun source =>
      converted (opts.windowIdToTmux targetWindowId) fun target =>
        [[.bare "swap-window", .bare "-s", windowWord source, .bare "-t", windowWord target]]
  | .paneCapture _ => []
  | .sessionProxyInfo => []

end InputPathOptions

/-! ## Their lines -/

@[simp] theorem line_singleton (w : Word) : line [w] = w.text := rfl

@[simp] theorem line_cons_cons (w w' : Word) (ws : List Word) :
    line (w :: w' :: ws) = w.text ++ " " ++ line (w' :: ws) := by
  simp [line, String.intercalate_cons_cons]

theorem line_append {ws vs : List Word} (hws : ws ≠ []) (hvs : vs ≠ []) :
    line (ws ++ vs) = line ws ++ " " ++ line vs := by
  induction ws with
  | nil => exact absurd rfl hws
  | cons w ws ih =>
    cases ws with
    | nil =>
      obtain ⟨v, vs, rfl⟩ := List.exists_cons_of_ne_nil hvs
      exact line_cons_cons w v vs
    | cons w' ws =>
      have hrest := ih (List.cons_ne_nil _ _)
      rw [List.cons_append] at hrest
      simp only [List.cons_append, line_cons_cons, hrest, String.append_assoc]

/-- Lines joined by spaces are the line of all their words. -/
theorem line_flatten {groups : List (List Word)} (h : ∀ ws ∈ groups, ws ≠ []) :
    " ".intercalate (groups.map line) = line groups.flatten := by
  induction groups with
  | nil => rfl
  | cons ws groups ih =>
    obtain ⟨hws, hgroups⟩ := List.forall_mem_cons.mp h
    have hrest := ih hgroups
    cases groups with
    | nil => simp
    | cons vs groups =>
      have hne : (vs :: groups).flatten ≠ [] := by
        rw [List.flatten_cons]
        exact List.append_ne_nil_of_left_ne_nil (hgroups vs List.mem_cons_self) _
      rw [List.flatten_cons, line_append hws hne, ← hrest, List.map_cons, List.map_cons,
        String.intercalate_cons_cons]

attribute [local simp] Word.text paneWord windowWord numberWord targetWords setOptionWords
  unsetOptionWords resizePaneWords

theorem flagged_words (flag : String) (arg : Option String) :
    flagged (flag ++ " ") arg = (flagWords flag arg).map line := by
  cases arg with
  | none => rfl
  | some arg => simp [flagged, flagWords, Word.text]

theorem shell_words (shellCommand : Option String) :
    flagged "" shellCommand = (shellWords shellCommand).map line := by
  cases shellCommand with
  | none => rfl
  | some shellCommand => simp [flagged, shellWords, Word.text]

theorem env_words (env : Option Env) : envFlags env = (envWords env).map line := by
  cases env with
  | none => rfl
  | some env => simp [envFlags, envWords, Word.text]

theorem print_words : printFlags true = printWords.map line := by
  have hquoted : Parser.quoteArg EFFECT_IDS_FORMAT = Parser.singleQuoted EFFECT_IDS_FORMAT :=
    if_neg (by decide +kernel)
  have hline : "-P -F " ++ Parser.singleQuoted EFFECT_IDS_FORMAT =
      line [.bare "-P", .bare "-F", .singleQuoted EFFECT_IDS_FORMAT] := by
    simp [← String.append_assoc]
  rw [printFlags, if_pos rfl, hquoted, hline]
  rfl

/-- No group of words is empty. -/
theorem groups_ne_nil (flag : String) (arg shellCommand : Option String) (env : Option Env) :
    (∀ ws ∈ flagWords flag arg, ws ≠ []) ∧ (∀ ws ∈ envWords env, ws ≠ []) ∧
      (∀ ws ∈ shellWords shellCommand, ws ≠ []) ∧ ∀ ws ∈ printWords, ws ≠ [] := by
  refine ⟨?_, ?_, ?_, by simp [printWords]⟩
  · cases arg with
    | none => simp [flagWords]
    | some arg => simp [flagWords]
  · cases env with
    | none => simp [envWords]
    | some env => exact List.forall_mem_map.mpr fun _ _ => List.cons_ne_nil _ _
  · cases shellCommand with
    | none => simp [shellWords]
    | some shellCommand => simp [shellWords]

theorem newWindow_words (name cwd shellCommand : Option String) (env : Option Env) :
    newWindow ⟨name, shellCommand, cwd, true, env⟩ =
      line (newWindowWords name cwd shellCommand env) := by
  obtain ⟨hname, henv, hshell, hprint⟩ := groups_ne_nil "-n" name shellCommand env
  have hcwd := (groups_ne_nil "-c" cwd none none).1
  rw [newWindowWords, ← line_flatten]
  · have hn : flagged "-n " name = (flagWords "-n" name).map line := flagged_words "-n" name
    have hc : flagged "-c " cwd = (flagWords "-c" cwd).map line := flagged_words "-c" cwd
    simp only [newWindow, List.map_append, print_words, hn, hc, env_words, shell_words,
      List.map_cons, List.map_nil, line_singleton, Word.text]
  · simp only [List.forall_mem_append, List.forall_mem_singleton]
    exact ⟨⟨⟨⟨⟨by simp, hprint⟩, hname⟩, hcwd⟩, henv⟩, hshell⟩

theorem splitHead_words (paneId : Option Int) (orientation : SplitDirection) :
    splitHead paneId orientation =
      line (.bare "split-window" :: .bare (orientationFlag orientation) :: targetWords paneId) := by
  refine String.toList_injective ?_
  cases paneId with
  | none => simp [splitHead]
  | some n =>
    simp only [splitHead, targetWords, line_cons_cons, line_singleton, Word.text, paneWord,
      String.toList_append, List.append_assoc]
    generalize n.repr = digits
    rfl

theorem splitWindow_words (paneId : Option Int) (orientation : SplitDirection)
    (cwd shellCommand : Option String) (env : Option Env) :
    splitWindow paneId orientation ⟨shellCommand, cwd, none, true, env⟩ =
      line (splitWindowWords paneId orientation cwd shellCommand env) := by
  obtain ⟨hcwd, henv, hshell, hprint⟩ := groups_ne_nil "-c" cwd shellCommand env
  rw [splitWindowWords, ← line_flatten]
  · have hc : flagged "-c " cwd = (flagWords "-c" cwd).map line := flagged_words "-c" cwd
    simp only [splitWindow, List.map_append, print_words, hc, env_words, shell_words, percentFlag,
      List.append_nil, splitHead_words, List.map_cons, List.map_nil]
  · simp only [List.forall_mem_append, List.forall_mem_singleton]
    exact ⟨⟨⟨⟨by simp, hprint⟩, hcwd⟩, henv⟩, hshell⟩

theorem breakPane_words (n : Int) : breakPane n true = line (breakPaneWords n) := by
  have hhead : "break-pane -d" = line [.bare "break-pane", .bare "-d"] := by simp
  have hsource : "-s %" ++ n.repr = line [.bare "-s", paneWord n] := by
    simp [← String.append_assoc]
  rw [breakPaneWords, ← line_flatten]
  · simp only [breakPane, List.map_append, print_words, hhead, hsource, List.map_cons,
      List.map_nil]
  · simp [printWords]

theorem resizePane_words (n cols rows : Int) :
    Parser.resizePane n cols rows = line (resizePaneWords n cols rows) := by
  refine String.toList_injective ?_
  unfold Parser.resizePane
  simp only [resizePaneWords, line_cons_cons, line_singleton, Word.text, paneWord, numberWord,
    String.toList_append, List.append_assoc]
  generalize n.repr = digits
  generalize cols.repr = width
  rfl

theorem sendKeysHex_words (n : Int) (bytes : Bytes) :
    sendKeysHex n bytes = line (sendKeysWords n bytes) := by
  have hhead : "send-keys -H -t %" ++ n.repr =
      line [.bare "send-keys", .bare "-H", .bare "-t", paneWord n] := by
    simp [← String.append_assoc]
  rw [sendKeysHex, sendKeysWords]
  split
  · next hnone =>
    rw [List.length_eq_zero_iff.mp hnone, List.map_nil, List.append_nil, hhead]
  · next hsome =>
    have hbytes : " ".intercalate (bytes.map hexByte) =
        line (bytes.map fun b => .bare (hexByte b)) := by
      rw [line, List.map_map]
      rfl
    rw [line_append (by simp) (by simpa using hsome), hhead, hbytes]

theorem setOptionAt_words {option : String} (hoption : Word.isConstant option)
    (flag : String) (target : Word) (value : String) :
    setOptionAt (flag ++ " " ++ target.text) option value =
      line (setOptionWords flag target option (.quoteArg value)) := by
  rw [setOptionAt, Word.quoteArg_of_isConstant hoption]
  simp [← String.append_assoc]

theorem unsetOptionAt_words {option : String} (hoption : Word.isConstant option)
    (flag : String) (target : Word) :
    unsetOptionAt (flag ++ " " ++ target.text) option =
      line (unsetOptionWords flag target option) := by
  rw [unsetOptionAt, Word.quoteArg_of_isConstant hoption]
  simp [← String.append_assoc]

/-! ## Constants and strings -/

theorem isPlain_hexByte (b : UInt8) : Word.isPlain (hexByte b) := by
  have hdigit : ∀ n < 16, isSimpleChar (Nat.digitChar n) && !isSpecial (Nat.digitChar n) := by
    decide
  have hhigh := hdigit (b.toNat / 16) (Nat.div_lt_of_lt_mul b.toNat_lt)
  have hlow := hdigit (b.toNat % 16) (Nat.mod_lt _ (by decide))
  rw [Word.isPlain, hexByte, String.toList_ofList, List.all_cons, List.all_cons, List.all_nil,
    hhigh, hlow]
  rfl

theorem isConstant_hexByte (b : UInt8) : Word.isConstant (hexByte b) := by
  have hhead : ∀ n < 16, Nat.digitChar n ≠ '#' := by decide
  have hfirst := hhead (b.toNat / 16) (Nat.div_lt_of_lt_mul b.toNat_lt)
  have hne : hexByte b ≠ "" := by
    intro h
    have hlist := congrArg String.toList h
    rw [hexByte, String.toList_ofList] at hlist
    cases hlist
  have hchars : (hexByte b).toList.head? ≠ some '#' := by
    rw [hexByte, String.toList_ofList, List.head?_cons]
    exact fun h => hfirst (Option.some.inj h)
  simp only [Word.isConstant, isPlain_hexByte, hne, hchars, ne_eq, not_false_eq_true, decide_true,
    Bool.and_self]

theorem isPlain_hex_take (digest : Bytes) (n : Nat) :
    Word.isPlain (String.ofList ((hex digest).toList.take n)) := by
  rw [Word.isPlain, String.toList_ofList, List.all_eq_true]
  intro c hc
  have hmem := List.mem_of_mem_take hc
  rw [hex, String.toList_join, List.mem_flatMap] at hmem
  obtain ⟨s, hs, hcs⟩ := hmem
  obtain ⟨b, -, rfl⟩ := List.mem_map.mp hs
  exact List.all_eq_true.mp (isPlain_hexByte b) c hcs

theorem isConstant_policyOptionName (opts : InputPathOptions) (call : Call)
    (option : PolicyOption) : Word.isConstant (opts.policyOptionName call option) := by
  cases option with
  | detach => exact (by decide : Word.isConstant TMUXCC_DETACH_OPTION)
  | icon => exact (by decide : Word.isConstant TMUXCC_ICON_OPTION)
  | bound =>
    unfold InputPathOptions.policyOptionName paneBoundOptionName
    cases call.clientId with
    | none => exact (by decide : Word.isConstant TMUXCC_BOUND_OPTION)
    | some id =>
      exact Word.isConstant_append (by decide) (isPlain_hex_take _ _)

theorem isConstant_paneWord (n : Int) : Word.isConstant ("%" ++ n.repr) :=
  Word.isConstant_append (by decide) (Word.isPlain_int n)

theorem isConstant_windowWord (n : Int) : Word.isConstant ("@" ++ n.repr) :=
  Word.isConstant_append (by decide) (Word.isPlain_int n)

theorem isConstant_nat (n : Nat) : Word.isConstant n.repr := by
  have hne : n.repr ≠ "" := by
    intro h
    have hlist := congrArg String.toList h
    rw [Nat.toList_repr] at hlist
    exact Nat.toDigits_ne_nil hlist
  have hhead : n.repr.toList.head? ≠ some '#' := by
    intro h
    have hmem := List.mem_of_mem_head? h
    rw [Nat.toList_repr] at hmem
    exact absurd (Nat.isDigit_of_mem_toDigits (by decide) le_rfl hmem) (by decide)
  simp only [Word.isConstant, Word.isPlain_nat, hne, hhead, ne_eq, not_false_eq_true, decide_true,
    Bool.and_self]

theorem isConstant_int (n : Int) : Word.isConstant n.repr := by
  cases n with
  | ofNat m => exact isConstant_nat m
  | negSucc m =>
    have hminus : Word.isConstant "-" := by decide
    exact Word.isConstant_append hminus (Word.isPlain_nat (m + 1))

theorem isConstant_onOff (on : Bool) : Word.isConstant (InputPathOptions.onOff on) := by
  cases on with
  | false => decide
  | true => decide

theorem isConstant_orientation (orientation : SplitDirection) :
    Word.isConstant (orientationFlag orientation) := by
  cases orientation with
  | horizontal => decide
  | vertical => decide

/-- A constant, or a string in quotes where it needs them. -/
def Written : Word → Prop
  | .bare text => Word.isConstant text
  | .quoteArg _ | .singleQuoted _ => True
  | .sessionTarget _ => False

theorem tidy_cons {w : Word} {ws : List Word} (hw : Written w) (h : Tidy ws) : Tidy (w :: ws) := by
  cases w with
  | bare text => exact .bare hw h
  | quoteArg arg => exact .quoteArg h
  | singleQuoted arg => exact .singleQuoted h
  | sessionTarget name => cases hw

theorem tidy_of_written {ws : List Word} (h : ∀ w ∈ ws, Written w) : Tidy ws := by
  induction ws with
  | nil => exact .nil
  | cons w ws ih =>
    obtain ⟨hw, hws⟩ := List.forall_mem_cons.mp h
    exact tidy_cons hw (ih hws)

theorem tidy_flatten {groups : List (List Word)} (h : ∀ ws ∈ groups, ∀ w ∈ ws, Written w) :
    Tidy groups.flatten := by
  refine tidy_of_written fun w hw => ?_
  obtain ⟨ws, hws, hmem⟩ := List.mem_flatten.mp hw
  exact h ws hws w hmem

theorem isConstant_of_tidy {ws : List Word} (htidy : Tidy ws) {text : String}
    (hw : .bare text ∈ ws) : Word.isConstant text := by
  induction htidy with
  | nil => cases hw
  | bare htext h ih =>
    rcases List.mem_cons.mp hw with hhere | hlater
    · cases hhere
      exact htext
    · exact ih hlater
  | quoteArg h ih => exact ih ((List.mem_cons.mp hw).resolve_left (by simp))
  | singleQuoted h ih => exact ih ((List.mem_cons.mp hw).resolve_left (by simp))
  | target name => simp at hw
  | targetThenName name arg => simp at hw

theorem oneLine_of_isConstant {text : String} (h : Word.isConstant text) : OneLine text := by
  simp only [Word.isConstant, Word.isPlain, Bool.and_eq_true, List.all_eq_true] at h
  exact fun hlf => absurd (h.2 _ hlf).1 (by decide)

theorem harmless_iff {literal : Char → Bool} (hliteral : SimpleLiteral literal) {ws : List Word}
    (htidy : Tidy ws) {w : Word} (hw : w ∈ ws) :
    w.Harmless literal ↔ OneLine w.text ∧ w.Faithful literal := by
  cases w with
  | bare text =>
    have htext := isConstant_of_tidy htidy hw
    exact iff_of_true trivial
      ⟨oneLine_of_isConstant htext, Word.faithful_bare hliteral htext⟩
  | quoteArg arg => exact and_congr_left' (oneLine_quoteArg arg).symm
  | singleQuoted arg =>
    exact (oneLine_singleQuoted arg).symm.trans (and_iff_left trivial).symm
  | sessionTarget name =>
    refine and_congr_left' ?_
    rw [Word.text, oneLine_append]
    exact (and_iff_right (by decide)).symm

/-- A line is one line and is read back word by word exactly when its strings are harmless. -/
theorem line_read_iff {literal : Char → Bool} (hliteral : SimpleLiteral literal) {ws : List Word}
    (htidy : Tidy ws) :
    OneLine (line ws) ∧ lex literal (line ws) = some (arguments ws) ↔
      ∀ w ∈ ws, w.Harmless literal := by
  rw [lex_line_iff hliteral htidy, line, oneLine_intercalate (by decide), List.forall_mem_map,
    ← forall₂_and]
  exact forall₂_congr fun w hw => (harmless_iff hliteral htidy hw).symm

/-! ## Every composed line -/

theorem written_groups (flag : String) (hflag : Word.isConstant flag)
    (arg shellCommand : Option String) (env : Option Env) :
    (∀ ws ∈ flagWords flag arg, ∀ w ∈ ws, Written w) ∧
      (∀ ws ∈ envWords env, ∀ w ∈ ws, Written w) ∧
      (∀ ws ∈ shellWords shellCommand, ∀ w ∈ ws, Written w) ∧
      ∀ ws ∈ printWords, ∀ w ∈ ws, Written w := by
  have henv : Word.isConstant "-e" := by decide
  have hprint : Word.isConstant "-P" ∧ Word.isConstant "-F" := by decide
  refine ⟨?_, ?_, ?_, by simp [printWords, Written, hprint]⟩
  · cases arg with
    | none => simp [flagWords]
    | some arg => simp [flagWords, Written, hflag]
  · cases env with
    | none => simp [envWords]
    | some env =>
      refine List.forall_mem_map.mpr fun _ _ => ?_
      simp [Written, henv]
  · cases shellCommand with
    | none => simp [shellWords]
    | some shellCommand => simp [shellWords, Written]

theorem tidy_newWindowWords (name cwd shellCommand : Option String) (env : Option Env) :
    Tidy (newWindowWords name cwd shellCommand env) := by
  have hhead : Word.isConstant "new-window" := by decide
  obtain ⟨hname, henv, hshell, hprint⟩ :=
    written_groups "-n" (by decide) name shellCommand env
  have hcwd := (written_groups "-c" (by decide) cwd none none).1
  refine tidy_flatten ?_
  simp only [List.forall_mem_append, List.forall_mem_singleton]
  exact ⟨⟨⟨⟨⟨hhead, hprint⟩, hname⟩, hcwd⟩, henv⟩, hshell⟩

theorem tidy_splitWindowWords (paneId : Option Int) (orientation : SplitDirection)
    (cwd shellCommand : Option String) (env : Option Env) :
    Tidy (splitWindowWords paneId orientation cwd shellCommand env) := by
  obtain ⟨hcwd, henv, hshell, hprint⟩ :=
    written_groups "-c" (by decide) cwd shellCommand env
  have hverb : Word.isConstant "split-window" := by decide
  have htarget : ∀ w ∈ targetWords paneId, Written w := by
    have hflag : Word.isConstant "-t" := by decide
    cases paneId with
    | none => simp
    | some n => simpa [Written, hflag] using isConstant_paneWord n
  refine tidy_flatten ?_
  simp only [List.forall_mem_append, List.forall_mem_singleton, List.forall_mem_cons]
  exact ⟨⟨⟨⟨⟨hverb, isConstant_orientation orientation, htarget⟩, hprint⟩, hcwd⟩, henv⟩, hshell⟩

theorem forall_converted {α : Type} {r : Except TypeError α} {f : α → List (List Word)}
    {P : List Word → Prop} (hf : ∀ a, r = .ok a → ∀ ws ∈ f a, P ws) :
    ∀ ws ∈ converted r f, P ws := by
  cases r with
  | ok a => exact hf a rfl
  | error e => exact fun ws hws => absurd hws List.not_mem_nil

theorem tidy_setOptionWords {flag option : String} {target value : Word}
    (hflag : Word.isConstant flag) (htarget : Written target) (hoption : Word.isConstant option)
    (hvalue : Written value) : Tidy (setOptionWords flag target option value) :=
  .bare (by decide) (.bare hflag (tidy_cons htarget (.bare hoption (tidy_cons hvalue .nil))))

theorem tidy_unsetOptionWords {flag option : String} {target : Word}
    (hflag : Word.isConstant flag) (htarget : Written target) (hoption : Word.isConstant option) :
    Tidy (unsetOptionWords flag target option) :=
  .bare (by decide) (.bare hflag (tidy_cons htarget (.bare hoption .nil)))

theorem tidy_policyWords (opts : InputPathOptions) (call : Call) (scope : PolicyScope)
    (paneId : Option PaneId) (windowId : Option WindowId) (option : PolicyOption)
    (value : Option String) :
    ∀ ws ∈ opts.policyWords call scope paneId windowId option value, Tidy ws := by
  have hoption := isConstant_policyOptionName opts call option
  cases scope with
  | pane =>
    cases paneId with
    | none => exact fun ws hws => absurd hws List.not_mem_nil
    | some pid =>
      refine forall_converted fun n _ => ?_
      cases value with
      | none =>
        exact List.forall_mem_singleton.mpr
          (tidy_unsetOptionWords (by decide) (isConstant_paneWord n) hoption)
      | some v =>
        exact List.forall_mem_singleton.mpr
          (tidy_setOptionWords (by decide) (isConstant_paneWord n) hoption trivial)
  | window =>
    cases windowId with
    | none => exact fun ws hws => absurd hws List.not_mem_nil
    | some wid =>
      refine forall_converted fun n _ => ?_
      cases value with
      | none =>
        exact List.forall_mem_singleton.mpr
          (tidy_unsetOptionWords (by decide) (isConstant_windowWord n) hoption)
      | some v =>
        exact List.forall_mem_singleton.mpr
          (tidy_setOptionWords (by decide) (isConstant_windowWord n) hoption trivial)
  | session =>
    rw [InputPathOptions.policyWords]
    cases call.model.bind InputPathOptions.firstSessionName with
    | none => exact fun ws hws => absurd hws List.not_mem_nil
    | some sessionName =>
      have htarget : Written (.quoteArg sessionName) := trivial
      cases value with
      | none =>
        exact List.forall_mem_singleton.mpr
          (tidy_unsetOptionWords (by decide) htarget hoption)
      | some v =>
        exact List.forall_mem_singleton.mpr
          (tidy_setOptionWords (by decide) htarget hoption trivial)

theorem tidy_renameSessionWords (current : Option String) (name : String) :
    Tidy (InputPathOptions.renameSessionWords current name) := by
  cases current with
  | none => exact .bare (by decide) (.singleQuoted .nil)
  | some current => exact .bare (by decide) (.bare (by decide) (.targetThenName current name))

theorem tidy_resizePaneWords (n cols rows : Int) : Tidy (resizePaneWords n cols rows) :=
  .bare (by decide) (.bare (by decide) (.bare (isConstant_paneWord n) (.bare (by decide)
    (.bare (isConstant_int cols) (.bare (by decide) (.bare (isConstant_int rows) .nil))))))

/-- What every conversion yields holds of all results of a list of conversions. -/
theorem forall_mem_mapM {α β : Type} {f : α → Except TypeError β} {P : β → Prop}
    (hf : ∀ a b, f a = .ok b → P b) {as : List α} {bs : List β} (hbs : as.mapM f = .ok bs) :
    ∀ b ∈ bs, P b := by
  induction as generalizing bs with
  | nil =>
    rw [List.mapM_nil] at hbs
    cases hbs
    simp
  | cons a as ih =>
    rw [List.mapM_cons] at hbs
    cases hb : f a with
    | error e => simp [hb, Bind.bind, Except.bind] at hbs
    | ok b =>
      cases hrest : as.mapM f with
      | error e => simp [hb, hrest, Bind.bind, Except.bind] at hbs
      | ok rest =>
        simp only [hb, hrest, Bind.bind, Except.bind, Pure.pure, Except.pure,
          Except.ok.injEq] at hbs
        subst hbs
        exact List.forall_mem_cons.mpr ⟨hf a b hb, ih hrest⟩

theorem tidy_composed (opts : InputPathOptions) (call : Call) (command : WireCommand) :
    ∀ ws ∈ opts.composed call command, Tidy ws := by
  -- a verb, the flag of its target, and the target
  have hpane : ∀ {verb flag : String}, Word.isConstant verb → Word.isConstant flag → ∀ n : Int,
      ∀ ws ∈ [[.bare verb, .bare flag, paneWord n]], Tidy ws := fun hverb hflag n =>
    List.forall_mem_singleton.mpr (.bare hverb (.bare hflag (.bare (isConstant_paneWord n) .nil)))
  cases command with
  | openWindow name cwd shellCommand env =>
    exact List.forall_mem_singleton.mpr (tidy_newWindowWords name cwd shellCommand env)
  | splitPane paneId direction cwd shellCommand env =>
    exact forall_converted fun target _ =>
      List.forall_mem_singleton.mpr (tidy_splitWindowWords target direction cwd shellCommand env)
  | closePane paneId => exact forall_converted fun n _ => hpane (by decide) (by decide) n
  | renameWindow windowId name =>
    exact forall_converted fun n _ => List.forall_mem_singleton.mpr
      (.bare (by decide) (.bare (by decide) (.bare (isConstant_windowWord n) (.singleQuoted .nil))))
  | renameSession name =>
    rw [InputPathOptions.composed]
    split
    · exact fun ws hws => absurd hws List.not_mem_nil
    · exact List.forall_mem_singleton.mpr (tidy_renameSessionWords _ name)
  | selectPane paneId => exact forall_converted fun n _ => hpane (by decide) (by decide) n
  | resizePane paneId cols rows =>
    have hsize : Word.isConstant (cols.repr ++ "x" ++ rows.repr) :=
      Word.isConstant_append (Word.isConstant_append (isConstant_int cols) (by decide))
        (Word.isPlain_int rows)
    exact List.forall_mem_singleton.mpr (.bare (by decide) (.bare (by decide) (.bare hsize .nil)))
  | resizeManagedWindow windowId cols rows panes =>
    refine forall_converted fun lines hlines => forall_mem_mapM (fun pane ws hws => ?_) hlines
    cases hn : opts.paneIdToTmux pane.paneId with
    | error e => simp [hn, Bind.bind, Except.bind] at hws
    | ok n =>
      simp only [hn, Bind.bind, Except.bind, Pure.pure, Except.pure, Except.ok.injEq] at hws
      exact hws ▸ tidy_resizePaneWords n pane.cols pane.rows
  | killSession sessionName =>
    exact List.forall_mem_singleton.mpr
      (.bare (by decide) (.bare (by decide) (.target sessionName)))
  | setSynchronizePanes windowId on =>
    exact forall_converted fun n _ => List.forall_mem_singleton.mpr
      (tidy_setOptionWords (by decide) (isConstant_windowWord n) (by decide) (isConstant_onOff on))
  | setMonitorActivity windowId on =>
    exact forall_converted fun n _ => List.forall_mem_singleton.mpr
      (tidy_setOptionWords (by decide) (isConstant_windowWord n) (by decide) (isConstant_onOff on))
  | setMonitorSilence windowId seconds =>
    exact forall_converted fun n _ => List.forall_mem_singleton.mpr
      (tidy_setOptionWords (by decide) (isConstant_windowWord n) (by decide) (isConstant_int _))
  | breakPane paneId =>
    refine forall_converted fun n _ => List.forall_mem_singleton.mpr (tidy_flatten ?_)
    have hhead : Word.isConstant "break-pane" ∧ Word.isConstant "-d" := by decide
    have hsource : Word.isConstant "-s" := by decide
    have hprint := (written_groups "-s" (by decide) none none none).2.2.2
    simp only [List.forall_mem_append, List.forall_mem_singleton, List.forall_mem_cons]
    exact ⟨⟨hhead, hprint⟩, hsource, isConstant_paneWord n⟩
  | swapPane paneId targetPaneId =>
    refine forall_converted fun n _ => ?_
    cases targetPaneId with
    | none =>
      exact List.forall_mem_singleton.mpr (.bare (by decide) (.bare (by decide)
        (.bare (by decide) (.bare (isConstant_paneWord n) .nil))))
    | some target =>
      exact forall_converted fun t _ => List.forall_mem_singleton.mpr (.bare (by decide)
        (.bare (by decide) (.bare (isConstant_paneWord n) (.bare (by decide)
          (.bare (isConstant_paneWord t) .nil)))))
  | renamePane paneId title =>
    exact forall_converted fun n _ => List.forall_mem_singleton.mpr
      (tidy_setOptionWords (by decide) (isConstant_paneWord n) (by decide) trivial)
  | setObjectPolicy scope paneId windowId option value =>
    exact tidy_policyWords opts call scope paneId windowId option value
  | killWindow windowId =>
    exact forall_converted fun n _ => List.forall_mem_singleton.mpr
      (.bare (by decide) (.bare (by decide) (.bare (isConstant_windowWord n) .nil)))
  | swapWindow sourceWindowId targetWindowId =>
    exact forall_converted fun source _ => forall_converted fun target _ =>
      List.forall_mem_singleton.mpr (.bare (by decide) (.bare (by decide)
        (.bare (isConstant_windowWord source) (.bare (by decide)
          (.bare (isConstant_windowWord target) .nil)))))
  | paneCapture paneId => exact fun ws hws => absurd hws List.not_mem_nil
  | sessionProxyInfo => exact fun ws hws => absurd hws List.not_mem_nil

theorem tidy_sendKeysWords (n : Int) (bytes : Bytes) : Tidy (sendKeysWords n bytes) := by
  refine .bare (by decide) (.bare (by decide) (.bare (by decide) (.bare (isConstant_paneWord n)
    (tidy_of_written (List.forall_mem_map.mpr fun b _ => ?_)))))
  exact isConstant_hexByte b

/-! ## Quoting -/

/-- What is written for a string, by `quoteArg`, always in quotes, or bare behind the
`=` of a session target, is read back as that one argument: through `quoteArg` unless a
string of simple characters starts with `#` or has a brace, quoted always, bare exactly
when every character is ordinary. -/
theorem argument_quoting_iff {literal : Char → Bool} (hliteral : SimpleLiteral literal)
    {arg : String} (_harg : OneLine arg) :
    (lex literal (quoteArg arg) = some [.argument arg.toList] ↔
      (arg ≠ "" → arg.toList.all isSimpleChar →
        arg.toList.head? ≠ some '#' ∧ ∀ c ∈ arg.toList, ¬isSpecial c)) ∧
    lex literal (singleQuoted arg) = some [.argument arg.toList] ∧
    (lex literal ("=" ++ arg) = some [.argument ("=" ++ arg).toList] ↔
      ∀ c ∈ arg.toList, Ordinary literal c) :=
  ⟨lex_quoteArg_iff hliteral arg, lex_singleQuoted arg, lex_sessionTarget_iff hliteral arg⟩

/-- tmux's own choice: a double quote, `$` and `~` mean something outside quotes. -/
def tmuxLiteral (c : Char) : Bool := c ≠ '"' ∧ c ≠ '$' ∧ c ≠ '~'

theorem simpleLiteral_tmuxLiteral : SimpleLiteral tmuxLiteral := by
  intro c hc _
  have hne : ∀ d : Char, ¬isSimpleChar d → c ≠ d := by
    rintro d hd rfl
    exact hd hc
  have hdouble := hne '"' (by decide)
  have hdollar := hne '$' (by decide)
  have htilde := hne '~' (by decide)
  simp [tmuxLiteral, hdouble, hdollar, htilde]

theorem argument_quoting_iff_mixed :
    OneLine "it's a \"test\" #1; \x7bx\x7d" ∧
      lex tmuxLiteral (quoteArg "it's a \"test\" #1; \x7bx\x7d") =
        some [.argument "it's a \"test\" #1; \x7bx\x7d".toList] :=
  ⟨by decide +kernel, (argument_quoting_iff simpleLiteral_tmuxLiteral (by decide +kernel)).1.mpr
    fun _ hsimple => absurd hsimple (by decide +kernel)⟩

/-- A window named `#1` is left bare and read as a comment, `a\x7bb` is cut in pieces,
and a session `my work` that is to be killed becomes two arguments. -/
theorem argument_lost :
    lex tmuxLiteral (quoteArg "#1") = some [] ∧
    lex tmuxLiteral (quoteArg "a\x7bb") =
      some [.argument ['a'], .special '\x7b', .argument ['b']] ∧
    lex tmuxLiteral ("kill-session -t =" ++ "my work") =
      some [.argument "kill-session".toList, .argument "-t".toList, .argument "=my".toList,
        .argument "work".toList] := by
  decide +kernel

end TmuxccDriver.Runtime
