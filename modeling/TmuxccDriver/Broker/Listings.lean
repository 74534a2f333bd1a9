import TmuxccDriver.Lib.Tabular
import TmuxccDriver.Template.Freeze

/-!
# The listings of the broker

`tmux-south.ts`: `runTmux` collects what a tmux command prints, chunk by chunk, and
`listSessions`, `listSessionTopology` and `listSessionForFreeze` read tables of sessions, windows
and panes from it. tmux prints each value as it is.

An option that is not set is printed as the empty text. The marker, the binding and the close
policy are the values that the driver gives to their options.

Results:
1. `readsSession`, `readsWindow`, `readsPane`, `readsFrozenWindow`, `readsFrozenPane`: the readers
   of one line, and the rows that a line can carry.
2. `countPanes_listed`: the panes are counted by session.
3. `listings_exact_iff`: which listings are read as they are.
-/

namespace TmuxccDriver.Broker.Listings
open TmuxccDriver.Lib TmuxccDriver.Template

/-! ## tmux -/

inductive DetachPolicy
  | detach
  | kill
deriving DecidableEq, Repr

structure TmuxPane where
  id : Nat
  bound : Bool
  detach : Option DetachPolicy
  icon : String
  cwd : String

/-- The layout of a window, which is plain text. -/
structure Layout where
  text : List Char
  ne_nil : text ≠ []
  plain : ∀ c ∈ text, 0x20 < c.toNat ∧ c.toNat < 0x7f

structure TmuxWindow where
  id : Nat
  name : String
  active : Bool
  layout : Layout
  panes : List TmuxPane

structure TmuxSession where
  id : Nat
  name : String
  attached : Nat
  marked : Bool
  activity : Nat
  workspace : String
  template : String
  windows : List TmuxWindow

/-- The panes of a session, with their windows. -/
def TmuxSession.panes (s : TmuxSession) : List (TmuxWindow × TmuxPane) :=
  s.windows.flatMap fun w => w.panes.map fun p => (w, p)

/-- No two sessions have one id. -/
structure Server where
  sessions : List TmuxSession
  ids : (sessions.map TmuxSession.id).Nodup

/-- The session of each pane, as `list-panes -a` goes through them. -/
def Server.paneOwners (server : Server) : List TmuxSession :=
  server.sessions.flatMap fun s => s.panes.map fun _ => s

/-! ## What tmux prints -/

/-- An id, a sigil before a number. -/
def idText (sigil : Char) (n : Nat) : List Char := sigil :: Nat.toDigits 10 n

def optionFlag (b : Bool) : List Char := if b then ['1'] else []

def detachText : Option DetachPolicy → List Char
  | none => []
  | some .detach => "detach".toList
  | some .kill => "kill".toList

/-- `list-sessions -F FORMAT`. -/
def sessionLine (s : TmuxSession) : List Char :=
  joinTab [idText '$' s.id, s.name.toList, Nat.toDigits 10 s.windows.length,
    Nat.toDigits 10 s.attached, optionFlag s.marked, Nat.toDigits 10 s.activity,
    s.workspace.toList, s.template.toList]

/-- `list-panes -a -F #\x7bsession_id\x7d`. -/
def ownerLine (s : TmuxSession) : List Char := idText '$' s.id

/-- `list-windows -F WIN_FORMAT`. -/
def windowLine (w : TmuxWindow) : List Char :=
  joinTab [idText '@' w.id, w.name.toList, if w.active then ['1'] else ['0']]

/-- `list-panes -s -F PANE_FORMAT`. -/
def paneLine (p : TmuxWindow × TmuxPane) : List Char :=
  joinTab [idText '%' p.2.id, idText '@' p.1.id, optionFlag p.2.bound, detachText p.2.detach,
    p.2.icon.toList]

/-- `list-windows -F WIN_FMT`. -/
def frozenWindowLine (w : TmuxWindow) : List Char :=
  joinTab [idText '@' w.id, w.name.toList, w.layout.text]

/-- `list-panes -s -F PANE_FMT`. -/
def frozenPaneLine (p : TmuxWindow × TmuxPane) : List Char :=
  joinTab [idText '%' p.2.id, idText '@' p.1.id, p.2.cwd.toList]

/-! ## Running tmux -/

/-- How a child process ends for `runTmux`; the code of `close` is null after a signal. -/
inductive Ending
  | closed (code : Option Int)
  | failed (code : String)
  | timedOut
deriving DecidableEq, Repr

/-- The chunks that were delivered before the end. -/
structure Child where
  stdout : List Bytes
  stderr : List Bytes
  ending : Ending

structure TmuxRunResult where
  status : Option Int
  stdout : List Char
  stderr : List Char
  error : Option String
deriving DecidableEq, Repr

def runTmux (child : Child) : TmuxRunResult :=
  let stdout := decodeChunks child.stdout
  let stderr := decodeChunks child.stderr
  match child.ending with
  | .closed code => { status := code, stdout, stderr, error := none }
  | .failed code => { status := none, stdout, stderr, error := some code }
  | .timedOut => { status := none, stdout, stderr, error := some "ETIMEDOUT" }

/-- A run of a command that lists `text`: if it succeeds, its output is the whole text. -/
structure Listing (text : List Char) extends Child where
  answers : ending = .closed (some 0) → stdout.flatten = encode text

/-! ## Reading the listings -/

structure TmuxSessionRow where
  tmuxId : String
  name : String
  windowCount : Int
  attachedCount : Int
  tmuxccMarked : Bool
  paneCount : Nat
  lastActivity : Int
  workspaceUri : Option String
  template : Option String
deriving DecidableEq, Repr

structure TmuxWindowRow where
  windowId : String
  name : String
  active : Bool
deriving DecidableEq, Repr

structure TmuxPaneRow where
  paneId : String
  windowId : String
  bound : Bool
  detach : Option DetachPolicy
  icon : Option String
deriving DecidableEq, Repr

structure SessionTopologyResult where
  windows : List TmuxWindowRow
  panes : List TmuxPaneRow
deriving DecidableEq, Repr

/-- `parseInt(text, 10) || 0`. -/
def intOrZero (cs : List Char) : Int := (parseInt cs).getD 0

/-- An optional text, which is left out if nothing but white space is there. -/
def optionText (cs : List Char) : Option String :=
  if trim cs = [] then none else some (String.ofList (trim cs))

def countPane (counts : List Char → Nat) (line : List Char) : List Char → Nat :=
  if line = [] then counts else Function.update counts line (counts line + 1)

def countPanesBySession (child : Child) : List Char → Nat :=
  let result := runTmux child
  if result.status ≠ some 0 ∨ result.error ≠ none then fun _ => 0
  else ((trim result.stdout).splitOn '\n').foldl countPane fun _ => 0

def readSession (paneCounts : List Char → Nat) (line : List Char) : Option TmuxSessionRow :=
  if line = [] then none
  else some {
    tmuxId := String.ofList (col line 0)
    name := String.ofList (col line 1)
    windowCount := intOrZero (col line 2)
    attachedCount := intOrZero (col line 3)
    tmuxccMarked := trim (col line 4) = ['1']
    paneCount := paneCounts (col line 0)
    lastActivity := intOrZero (col line 5)
    workspaceUri := optionText (col line 6)
    template := optionText (col line 7) }

/-- The texts by which tmux says that there is no session. -/
def NO_SESSIONS : List String := ["no server running", "no sessions", "error connecting"]

def saysNoSessions (stderr : List Char) : Bool :=
  NO_SESSIONS.any fun text => decide (text.toList <:+: stderr.map Char.toLower)

/-- The result of `listSessions`, and what it reports of the binary. -/
structure SessionList where
  rows : Option (List TmuxSessionRow)
  binaryMissing : Bool
deriving DecidableEq, Repr

def listSessions (sessions paneOwners : Child) : SessionList :=
  let result := runTmux sessions
  { binaryMissing := result.error = some "ENOENT"
    rows :=
      if result.error ≠ none then none
      else if result.status ≠ some 0 then
        if saysNoSessions result.stderr then some [] else none
      else some (readRows (readSession (countPanesBySession paneOwners)) result.stdout) }

def readWindow (line : List Char) : Option TmuxWindowRow :=
  if col line 0 = [] ∨ col line 1 = [] then none
  else some {
    windowId := String.ofList (col line 0)
    name := String.ofList (col line 1)
    active := trim (col line 2) = ['1'] }

def detachPolicy (cs : List Char) : Option DetachPolicy :=
  if cs = "detach".toList then some .detach
  else if cs = "kill".toList then some .kill
  else none

def readPane (line : List Char) : Option TmuxPaneRow :=
  if col line 0 = [] ∨ col line 1 = [] then none
  else some {
    paneId := String.ofList (col line 0)
    windowId := String.ofList (col line 1)
    bound := trim (col line 2) = ['1']
    detach := detachPolicy (trim (col line 3))
    icon := optionText (col line 4) }

/-- The three parts at the first two TABs, `indexOf` and `slice`. -/
def splitTwice (line : List Char) : Option (List Char × List Char × List Char) :=
  match line.dropWhile (· ≠ '\t') with
  | [] => none
  | _ :: rest =>
    match rest.dropWhile (· ≠ '\t') with
    | [] => none
    | _ :: last => some (line.takeWhile (· ≠ '\t'), rest.takeWhile (· ≠ '\t'), last)

def readFrozenWindow (line : List Char) : Option FreezeWindowData :=
  match splitTwice line with
  | none => none
  | some (windowId, name, layoutString) =>
    if windowId = [] ∨ layoutString = [] then none
    else some {
      windowId := String.ofList windowId
      name := String.ofList name
      layoutString := String.ofList layoutString }

/-- `/^%(\d+)$/`, and the number it finds. -/
def paneNumOf : List Char → Option Nat
  | '%' :: ds => if ds ≠ [] ∧ ds.all Char.isDigit then some (natOfDigits ds) else none
  | _ => none

def readFrozenPane (line : List Char) : Option FreezePaneData :=
  if col line 0 = [] ∨ col line 1 = [] then none
  else
    (paneNumOf (trim (col line 0))).map fun paneNum =>
      { paneNum
        windowId := String.ofList (col line 1)
        cwd := String.ofList (trim (col line 2)) }

/-- The rows of two listings, if both succeed. -/
def listBoth {α β : Type} (readFirst : List Char → Option α) (readSecond : List Char → Option β)
    (first second : Child) : Option (List α × List β) :=
  let firstResult := runTmux first
  if firstResult.status ≠ some 0 ∨ firstResult.error ≠ none then none
  else
    let secondResult := runTmux second
    if secondResult.status ≠ some 0 ∨ secondResult.error ≠ none then none
    else some (readRows readFirst firstResult.stdout, readRows readSecond secondResult.stdout)

def listSessionTopology (windows panes : Child) : Option SessionTopologyResult :=
  (listBoth readWindow readPane windows panes).map fun rows => ⟨rows.1, rows.2⟩

def listSessionForFreeze (windows panes : Child) : Option FreezeSessionData :=
  (listBoth readFrozenWindow readFrozenPane windows panes).map fun rows => ⟨rows.1, rows.2⟩

/-! ## The objects' own rows -/

/-- The value of an option, left out if it is empty. -/
def ownOption (s : String) : Option String := if s = "" then none else some s

def TmuxSession.row (s : TmuxSession) : TmuxSessionRow where
  tmuxId := String.ofList (idText '$' s.id)
  name := s.name
  windowCount := s.windows.length
  attachedCount := s.attached
  tmuxccMarked := s.marked
  paneCount := s.panes.length
  lastActivity := s.activity
  workspaceUri := ownOption s.workspace
  template := ownOption s.template

def TmuxWindow.row (w : TmuxWindow) : TmuxWindowRow where
  windowId := String.ofList (idText '@' w.id)
  name := w.name
  active := w.active

def paneRow (p : TmuxWindow × TmuxPane) : TmuxPaneRow where
  paneId := String.ofList (idText '%' p.2.id)
  windowId := String.ofList (idText '@' p.1.id)
  bound := p.2.bound
  detach := p.2.detach
  icon := ownOption p.2.icon

def frozenWindow (w : TmuxWindow) : FreezeWindowData where
  windowId := String.ofList (idText '@' w.id)
  name := w.name
  layoutString := String.ofList w.layout.text

def frozenPane (p : TmuxWindow × TmuxPane) : FreezePaneData where
  paneNum := p.2.id
  windowId := String.ofList (idText '@' p.1.id)
  cwd := p.2.cwd

/-! ## Values that a line can carry -/

/-- A text that is read untrimmed. -/
def FitText (s : String) : Prop := TabFree s.toList ∧ '\n' ∉ s.toList

/-- A text that is read trimmed. -/
def FitOption (s : String) : Prop := FitText s ∧ Trimmed s.toList

def TmuxSession.Fit (s : TmuxSession) : Prop :=
  FitText s.name ∧ FitOption s.workspace ∧ FitOption s.template

def TmuxWindow.Fit (w : TmuxWindow) : Prop := FitText w.name

/-- A window without a name is left out of the topology. -/
def TmuxWindow.NamedFit (w : TmuxWindow) : Prop := w.Fit ∧ w.name ≠ ""

def PaneFit (p : TmuxWindow × TmuxPane) : Prop := FitOption p.2.icon

def FrozenPaneFit (p : TmuxWindow × TmuxPane) : Prop := FitOption p.2.cwd

instance (s : String) : Decidable (FitText s) := inferInstanceAs (Decidable (_ ∧ _))
instance (s : String) : Decidable (FitOption s) := inferInstanceAs (Decidable (_ ∧ _))

theorem plain_idText {sigil : Char} (h : 0x20 < sigil.toNat ∧ sigil.toNat < 0x7f) (n : Nat) :
    Plain (idText sigil n) :=
  List.forall_mem_cons.mpr ⟨h, plain_toDigits n⟩

theorem plain_optionFlag (b : Bool) : Plain (optionFlag b) := by cases b <;> decide

theorem plain_activeFlag (b : Bool) : Plain (if b then ['1'] else ['0']) := by cases b <;> decide

theorem plain_detachText (detach : Option DetachPolicy) : Plain (detachText detach) := by
  rcases detach with _ | _ | _ <;> decide

theorem toDigits_ne_nil (n : Nat) : Nat.toDigits 10 n ≠ [] :=
  List.ne_nil_of_length_pos Nat.length_toDigits_pos

theorem intOrZero_toDigits (n : Nat) : intOrZero (Nat.toDigits 10 n) = n := by
  rw [intOrZero, parseInt_toDigits]
  rfl

theorem trim_optionFlag (b : Bool) : decide (trim (optionFlag b) = ['1']) = b := by
  cases b <;> decide

theorem trim_activeFlag (b : Bool) :
    decide (trim (if b then ['1'] else ['0']) = ['1']) = b := by
  cases b <;> decide

theorem detachPolicy_detachText (detach : Option DetachPolicy) :
    detachPolicy (trim (detachText detach)) = detach := by
  rcases detach with _ | _ | _ <;> decide

/-- An optional text that is mangled is read as it was exactly if it is the same text. -/
theorem optionText_eq_iff {s : String} {cs : List Char} (h : Mangled s.toList cs)
    (hs : Trimmed s.toList) : optionText cs = ownOption s ↔ cs = s.toList := by
  have htrim : trim cs = cs := h.trimmed hs
  rw [optionText, ownOption, htrim]
  constructor
  · intro heq
    split at heq
    · next hnil =>
      have hempty := h.length_le
      rw [hnil, List.length_nil, Nat.le_zero, List.length_eq_zero_iff] at hempty
      rw [hnil, hempty]
    · split at heq
      · cases heq
      · rw [← Option.some.inj heq, String.toList_ofList]
  · rintro rfl
    rw [String.ofList_toList]
    refine if_congr ?_ rfl rfl
    rw [← String.toList_inj]
    rfl

/-- What is read of an option is fit for a line. -/
theorem fitOption_of_optionText {s : String} {cs : List Char} (htab : TabFree cs)
    (hbreak : '\n' ∉ cs) (h : optionText cs = ownOption s) : FitOption s := by
  have hmem : ∀ c ∈ trim cs, c ∈ cs := fun c hc =>
    (List.dropWhile_suffix isSpace).mem ((List.rdropWhile_prefix isSpace _).mem hc)
  rw [optionText, ownOption] at h
  split at h
  · split at h
    · next hempty =>
      rw [hempty]
      decide
    · cases h
  · split at h
    · next hempty =>
      rw [hempty]
      decide
    · rw [← Option.some.inj h]
      rw [FitOption, FitText, String.toList_ofList]
      exact ⟨⟨fun hin => htab (hmem _ hin), fun hin => hbreak (hmem _ hin)⟩, trimmed_trim cs⟩

theorem fitText_of_col {line : List Char} {i : Nat} (hbreak : '\n' ∉ line) {s : String}
    (h : String.ofList (col line i) = s) : FitText s := by
  rw [← h, FitText, String.toList_ofList]
  exact ⟨fun htab => (mem_of_mem_col _ htab).2 rfl, fun hin => hbreak (mem_of_mem_col _ hin).1⟩

theorem break_not_mem_col {line : List Char} (hbreak : '\n' ∉ line) (i : Nat) :
    '\n' ∉ col line i := fun hin => hbreak (mem_of_mem_col _ hin).1

theorem tabFree_col (line : List Char) (i : Nat) : TabFree (col line i) := fun hin =>
  (mem_of_mem_col _ hin).2 rfl

/-! ## Sessions -/

/-- The row that is read of a session, with the panes counted by `paneCounts`. -/
def TmuxSession.rowWith (paneCounts : List Char → Nat) (s : TmuxSession) : TmuxSessionRow :=
  { s.row with paneCount := paneCounts (idText '$' s.id) }

/-- The columns of a session, with its texts as they have been decoded. -/
def sessionColumns (s : TmuxSession) (name workspace template : List Char) : List (List Char) :=
  [idText '$' s.id, name, Nat.toDigits 10 s.windows.length, Nat.toDigits 10 s.attached,
    optionFlag s.marked, Nat.toDigits 10 s.activity] ++ [workspace, template]

theorem plain_dollar (n : Nat) : Plain (idText '$' n) := plain_idText (by decide) n
theorem plain_at (n : Nat) : Plain (idText '@' n) := plain_idText (by decide) n
theorem plain_percent (n : Nat) : Plain (idText '%' n) := plain_idText (by decide) n

theorem tabFree_sessionColumns (s : TmuxSession) {name workspace template : List Char}
    (hname : TabFree name) (hworkspace : TabFree workspace) (htemplate : TabFree template) :
    ∀ column ∈ sessionColumns s name workspace template, TabFree column := by
  simp only [sessionColumns, List.cons_append, List.nil_append, List.forall_mem_cons]
  exact ⟨(plain_dollar _).tabFree, hname, (plain_toDigits _).tabFree, (plain_toDigits _).tabFree,
    (plain_optionFlag _).tabFree, (plain_toDigits _).tabFree, hworkspace, htemplate,
    fun _ h => absurd h List.not_mem_nil⟩

theorem mangled_sessionLine {s : TmuxSession} {l : List Char} (h : Mangled (sessionLine s) l) :
    ∃ name workspace template, Mangled s.name.toList name ∧
      Mangled s.workspace.toList workspace ∧ Mangled s.template.toList template ∧
      l = joinTab (sessionColumns s name workspace template) := by
  obtain ⟨columns, hall, rfl⟩ := exists_of_mangled_joinTab h
  simp only [List.forall₂_cons_left_iff, List.forall₂_nil_left_iff] at hall
  obtain ⟨_, _, h0, ⟨name, _, hname, ⟨_, _, h2, ⟨_, _, h3, ⟨_, _, h4, ⟨_, _, h5,
    ⟨workspace, _, hworkspace, ⟨template, _, htemplate, rfl, rfl⟩, rfl⟩, rfl⟩, rfl⟩, rfl⟩, rfl⟩,
    rfl⟩, rfl⟩ := hall
  refine ⟨name, workspace, template, hname, hworkspace, htemplate, ?_⟩
  rw [h0.eq_of_plain (plain_dollar _), h2.eq_of_plain (plain_toDigits _),
    h3.eq_of_plain (plain_toDigits _), h4.eq_of_plain (plain_optionFlag _),
    h5.eq_of_plain (plain_toDigits _)]
  rfl

section Session

variable (counts : List Char → Nat) (s : TmuxSession) {name workspace template : List Char}
  (hname : TabFree name) (hworkspace : TabFree workspace) (htemplate : TabFree template)
include hname hworkspace htemplate

theorem col_sessionColumns (i : Nat) :
    col (joinTab (sessionColumns s name workspace template)) i =
      (sessionColumns s name workspace template).getD i [] :=
  col_joinTab (List.cons_ne_nil _ _) (tabFree_sessionColumns s hname hworkspace htemplate) i

theorem read_sessionColumns :
    readSession counts (joinTab (sessionColumns s name workspace template)) =
      some { s.rowWith counts with
        name := String.ofList name
        workspaceUri := optionText workspace
        template := optionText template } := by
  have hcol := col_sessionColumns s hname hworkspace htemplate
  have hid : col (joinTab (sessionColumns s name workspace template)) 0 ≠ [] := by
    rw [hcol]
    exact List.cons_ne_nil _ _
  rw [readSession, if_neg (ne_nil_of_col hid)]
  simp only [hcol]
  simp [sessionColumns, intOrZero_toDigits, trim_optionFlag, TmuxSession.rowWith, TmuxSession.row]

theorem readSession_trimEnd :
    readSession counts (trimEnd (joinTab (sessionColumns s name workspace template))) =
      readSession counts (joinTab (sessionColumns s name workspace template)) := by
  have htab : ∀ column ∈ [idText '$' s.id, name, Nat.toDigits 10 s.windows.length,
      Nat.toDigits 10 s.attached, optionFlag s.marked] ++ [Nat.toDigits 10 s.activity],
      TabFree column := by
    simp only [List.cons_append, List.nil_append, List.forall_mem_cons]
    exact ⟨(plain_dollar _).tabFree, hname, (plain_toDigits _).tabFree, (plain_toDigits _).tabFree,
      (plain_optionFlag _).tabFree, (plain_toDigits _).tabFree,
      fun _ h => absurd h List.not_mem_nil⟩
  have hfixed : ∀ i ≤ 5, col (trimEnd (joinTab (sessionColumns s name workspace template))) i =
      col (joinTab (sessionColumns s name workspace template)) i := fun i hi =>
    col_trimEnd_joinTab htab (toDigits_ne_nil _) (plain_toDigits _) [workspace, template] hi
  have hoption : ∀ i,
      optionText (col (trimEnd (joinTab (sessionColumns s name workspace template))) i) =
        optionText (col (joinTab (sessionColumns s name workspace template)) i) := fun i => by
    rw [optionText, optionText, trim_col_trimEnd]
  have hid : col (joinTab (sessionColumns s name workspace template)) 0 ≠ [] := by
    rw [col_sessionColumns s hname hworkspace htemplate]
    exact List.cons_ne_nil _ _
  have hid' := hid
  rw [← hfixed 0 (by decide)] at hid'
  rw [readSession, readSession, if_neg (ne_nil_of_col hid), if_neg (ne_nil_of_col hid'),
    hoption 6, hoption 7, hfixed 0 (by decide), hfixed 1 (by decide), hfixed 2 (by decide),
    hfixed 3 (by decide), hfixed 4 (by decide), hfixed 5 (by decide)]

end Session

theorem oneLine_joinTab {columns : List (List Char)} (h : ∀ column ∈ columns, '\n' ∉ column) :
    '\n' ∉ joinTab columns := by
  induction columns with
  | nil => exact List.not_mem_nil
  | cons column columns ih =>
    rw [List.forall_mem_cons] at h
    rcases columns with _ | ⟨next, columns⟩
    · rw [joinTab, List.intercalate_singleton]
      exact h.1
    · have hjoin := joinTab_append (List.cons_ne_nil column []) (List.cons_ne_nil next columns)
      rw [List.singleton_append] at hjoin
      rw [hjoin, joinTab.eq_1 [column], List.intercalate_singleton, List.mem_append, List.mem_cons]
      rintro (hfirst | htab | hrest)
      · exact h.1 hfirst
      · cases htab
      · exact ih h.2 hrest

theorem head_joinTab (c : Char) (cs : List Char) (columns : List (List Char)) :
    ∃ rest, joinTab ((c :: cs) :: columns) = c :: rest := by
  rcases columns with _ | ⟨next, columns⟩
  · exact ⟨cs, by rw [joinTab, List.intercalate_singleton]⟩
  · have hjoin := joinTab_append (List.cons_ne_nil (c :: cs) []) (List.cons_ne_nil next columns)
    rw [List.singleton_append] at hjoin
    rw [hjoin, joinTab.eq_1 [c :: cs], List.intercalate_singleton]
    exact ⟨_, rfl⟩

/-- How sessions are read. -/
theorem readsSession (counts : List Char → Nat) :
    ReadsRow sessionLine (readSession counts) (TmuxSession.rowWith counts) TmuxSession.Fit where
  head s := by
    obtain ⟨rest, hrest⟩ := head_joinTab '$' (Nat.toDigits 10 s.id) _
    exact ⟨'$', rest, hrest, by decide, by decide⟩
  blank := rfl
  oneLine s hs := by
    obtain ⟨hname, hworkspace, htemplate⟩ := hs
    refine oneLine_joinTab ?_
    simp only [List.forall_mem_cons]
    exact ⟨(plain_dollar _).oneLine, hname.2, (plain_toDigits _).oneLine,
      (plain_toDigits _).oneLine, (plain_optionFlag _).oneLine, (plain_toDigits _).oneLine,
      hworkspace.1.2, htemplate.1.2, fun _ h => absurd h List.not_mem_nil⟩
  exact s l hs hl := by
    obtain ⟨hname, hworkspace, htemplate⟩ := hs
    obtain ⟨name, workspace, template, hn, hw, ht, rfl⟩ := mangled_sessionLine hl
    constructor
    · intro heq
      rw [read_sessionColumns counts s (hn.tabFree hname.1) (hw.tabFree hworkspace.1.1)
        (ht.tabFree htemplate.1.1)] at heq
      have hrow := Option.some.inj heq
      have hname' : name = s.name.toList := by
        rw [← show String.ofList name = s.name from congrArg TmuxSessionRow.name hrow,
          String.toList_ofList]
      have hworkspace' : workspace = s.workspace.toList :=
        (optionText_eq_iff hw hworkspace.2).mp (congrArg TmuxSessionRow.workspaceUri hrow)
      have htemplate' : template = s.template.toList :=
        (optionText_eq_iff ht htemplate.2).mp (congrArg TmuxSessionRow.template hrow)
      rw [hname', hworkspace', htemplate']
      rfl
    · intro heq
      have hown := read_sessionColumns counts s hname.1 hworkspace.1.1 htemplate.1.1
      rw [(optionText_eq_iff (Mangled.refl _) hworkspace.2).mpr rfl,
        (optionText_eq_iff (Mangled.refl _) htemplate.2).mpr rfl, String.ofList_toList] at hown
      rw [heq]
      exact hown
  trimEnd s l hs hl := by
    obtain ⟨hname, hworkspace, htemplate⟩ := hs
    obtain ⟨name, workspace, template, hn, hw, ht, rfl⟩ := mangled_sessionLine hl
    exact readSession_trimEnd counts s (hn.tabFree hname.1) (hw.tabFree hworkspace.1.1)
      (ht.tabFree htemplate.1.1)
  fit s l hbreak hread := by
    rw [readSession] at hread
    split at hread
    · cases hread
    · have hrow := Option.some.inj hread
      exact ⟨fitText_of_col hbreak (congrArg TmuxSessionRow.name hrow),
        fitOption_of_optionText (tabFree_col _ _) (break_not_mem_col hbreak _)
          (congrArg TmuxSessionRow.workspaceUri hrow),
        fitOption_of_optionText (tabFree_col _ _) (break_not_mem_col hbreak _)
          (congrArg TmuxSessionRow.template hrow)⟩

/-! ## Windows -/

theorem mangled_three {first name last l : List Char} (hfirst : Plain first) (hlast : Plain last)
    (h : Mangled (joinTab [first, name, last]) l) :
    ∃ name', Mangled name name' ∧ l = joinTab [first, name', last] := by
  obtain ⟨columns, hall, rfl⟩ := exists_of_mangled_joinTab h
  simp only [List.forall₂_cons_left_iff, List.forall₂_nil_left_iff] at hall
  obtain ⟨_, _, h0, ⟨name', _, hname, ⟨_, _, h2, rfl, rfl⟩, rfl⟩, rfl⟩ := hall
  exact ⟨name', hname, by rw [h0.eq_of_plain hfirst, h2.eq_of_plain hlast]⟩

theorem oneLine_three {first name last : List Char} (hfirst : Plain first) (hlast : Plain last)
    (hname : '\n' ∉ name) : '\n' ∉ joinTab [first, name, last] := by
  refine oneLine_joinTab ?_
  simp only [List.forall_mem_cons]
  exact ⟨hfirst.oneLine, hname, hlast.oneLine, fun _ h => absurd h List.not_mem_nil⟩

theorem ne_nil_of_named {s : String} {name : List Char} (h : Mangled s.toList name) (hs : s ≠ "") :
    name ≠ [] := by
  rintro rfl
  refine hs (String.toList_inj.mp ?_)
  exact List.length_eq_zero_iff.mp (Nat.le_zero.mp h.length_le)

theorem activeFlag_ne_nil (b : Bool) : (if b then ['1'] else ['0']) ≠ [] := by
  cases b <;> decide

theorem readWindow_columns (w : TmuxWindow) {name : List Char} (hname : TabFree name)
    (hne : name ≠ []) :
    readWindow (joinTab [idText '@' w.id, name, if w.active then ['1'] else ['0']]) =
      some { w.row with name := String.ofList name } := by
  have htab : ∀ column ∈ [idText '@' w.id, name, if w.active then ['1'] else ['0']],
      TabFree column := by
    simp only [List.forall_mem_cons]
    exact ⟨(plain_at _).tabFree, hname, (plain_activeFlag _).tabFree,
      fun _ h => absurd h List.not_mem_nil⟩
  have hcol := col_joinTab (List.cons_ne_nil _ _) htab
  rw [readWindow, hcol 0, hcol 1, hcol 2, if_neg]
  · simp [trim_activeFlag, TmuxWindow.row]
  · rintro (hid | hnil)
    · cases hid
    · exact hne hnil

/-- How windows are read. -/
theorem readsWindow : ReadsRow windowLine readWindow TmuxWindow.row TmuxWindow.NamedFit where
  head w := by
    obtain ⟨rest, hrest⟩ := head_joinTab '@' (Nat.toDigits 10 w.id) _
    exact ⟨'@', rest, hrest, by decide, by decide⟩
  blank := rfl
  oneLine w hw := oneLine_three (plain_at _) (plain_activeFlag _) hw.1.2
  exact w l hw hl := by
    obtain ⟨hfit, hnamed⟩ := hw
    obtain ⟨name, hname, rfl⟩ := mangled_three (plain_at _) (plain_activeFlag _) hl
    constructor
    · intro heq
      rw [readWindow_columns w (hname.tabFree hfit.1) (ne_nil_of_named hname hnamed)] at heq
      have hsame : String.ofList name = w.name := congrArg TmuxWindowRow.name (Option.some.inj heq)
      rw [windowLine, ← hsame, String.toList_ofList]
    · intro heq
      rw [heq, windowLine, readWindow_columns w hfit.1 (ne_nil_of_named (Mangled.refl _) hnamed),
        String.ofList_toList]
      rfl
  trimEnd w l hw hl := by
    obtain ⟨name, -, rfl⟩ := mangled_three (plain_at _) (plain_activeFlag _) hl
    have htrim := trimEnd_joinTab [idText '@' w.id, name] (activeFlag_ne_nil w.active)
      (plain_activeFlag _)
    exact congrArg readWindow htrim
  fit w l hbreak hread := by
    rw [readWindow] at hread
    split at hread
    · cases hread
    · next hne =>
      have hname : String.ofList (col l 1) = w.name :=
        congrArg TmuxWindowRow.name (Option.some.inj hread)
      refine ⟨fitText_of_col hbreak hname, fun hempty => hne (.inr ?_)⟩
      rw [hempty] at hname
      rw [← String.toList_ofList (l := col l 1), hname]
      rfl

theorem splitTwice_joinTab {a b : List Char} (ha : TabFree a) (hb : TabFree b) (c : List Char) :
    splitTwice (joinTab [a, b, c]) = some (a, b, c) := by
  have hjoin : joinTab [a, b, c] = a ++ '\t' :: (b ++ '\t' :: c) := by
    simp [joinTab, List.intercalate_cons_cons]
  have hskip : ∀ {front : List Char}, TabFree front → ∀ x ∈ front, decide (x ≠ '\t') = true :=
    fun hfront x hx => decide_eq_true fun heq => hfront (heq ▸ hx)
  rw [hjoin, splitTwice, List.dropWhile_append_of_pos (hskip ha),
    List.takeWhile_append_of_pos (hskip ha), List.dropWhile_cons_of_neg (by decide),
    List.takeWhile_cons_of_neg (by decide)]
  simp only []
  rw [List.dropWhile_append_of_pos (hskip hb), List.takeWhile_append_of_pos (hskip hb),
    List.dropWhile_cons_of_neg (by decide), List.takeWhile_cons_of_neg (by decide),
    List.append_nil, List.append_nil]

/-- The second of the parts has no TAB, and is of the line. -/
theorem splitTwice_spec {line a b c : List Char} (h : splitTwice line = some (a, b, c)) :
    TabFree b ∧ ∀ x ∈ b, x ∈ line := by
  simp only [splitTwice] at h
  split at h
  · cases h
  · next x rest hrest =>
    split at h
    · cases h
    · simp only [Option.some.injEq, Prod.mk.injEq] at h
      obtain ⟨-, rfl, -⟩ := h
      constructor
      · intro htab
        have hnot := List.mem_takeWhile_imp htab
        exact absurd hnot (by decide)
      · intro y hy
        have hmem : y ∈ line.dropWhile (· ≠ '\t') := by
          rw [hrest]
          exact List.mem_cons_of_mem _ ((List.takeWhile_prefix _).mem hy)
        exact (List.dropWhile_suffix _).mem hmem

theorem readFrozenWindow_columns (w : TmuxWindow) {name : List Char} (hname : TabFree name) :
    readFrozenWindow (joinTab [idText '@' w.id, name, w.layout.text]) =
      some { frozenWindow w with name := String.ofList name } := by
  rw [readFrozenWindow, splitTwice_joinTab (plain_at _).tabFree hname]
  simp only []
  rw [if_neg]
  · rfl
  · rintro (hid | hlayout)
    · cases hid
    · exact w.layout.ne_nil hlayout

/-- How windows are read for a freeze. -/
theorem readsFrozenWindow :
    ReadsRow frozenWindowLine readFrozenWindow frozenWindow TmuxWindow.Fit where
  head w := by
    obtain ⟨rest, hrest⟩ := head_joinTab '@' (Nat.toDigits 10 w.id) _
    exact ⟨'@', rest, hrest, by decide, by decide⟩
  blank := rfl
  oneLine w hw := oneLine_three (plain_at _) w.layout.plain hw.2
  exact w l hw hl := by
    obtain ⟨name, hname, rfl⟩ := mangled_three (plain_at _) w.layout.plain hl
    constructor
    · intro heq
      rw [readFrozenWindow_columns w (hname.tabFree hw.1)] at heq
      have hsame : String.ofList name = w.name :=
        congrArg FreezeWindowData.name (Option.some.inj heq)
      rw [frozenWindowLine, ← hsame, String.toList_ofList]
    · intro heq
      rw [heq, frozenWindowLine, readFrozenWindow_columns w hw.1, String.ofList_toList]
      rfl
  trimEnd w l hw hl := by
    obtain ⟨name, -, rfl⟩ := mangled_three (plain_at _) w.layout.plain hl
    have htrim := trimEnd_joinTab [idText '@' w.id, name] w.layout.ne_nil w.layout.plain
    exact congrArg readFrozenWindow htrim
  fit w l hbreak hread := by
    rw [readFrozenWindow] at hread
    split at hread
    · cases hread
    · next a b c hparts =>
      obtain ⟨htab, hmem⟩ := splitTwice_spec hparts
      split at hread
      · cases hread
      · have hname : String.ofList b = w.name :=
          congrArg FreezeWindowData.name (Option.some.inj hread)
        rw [TmuxWindow.Fit, ← hname, FitText, String.toList_ofList]
        exact ⟨htab, fun hin => hbreak (hmem _ hin)⟩

/-! ## Panes -/

/-- The columns of a pane, with its icon as it has been decoded. -/
def paneColumns (p : TmuxWindow × TmuxPane) (icon : List Char) : List (List Char) :=
  [idText '%' p.2.id, idText '@' p.1.id, optionFlag p.2.bound, detachText p.2.detach, icon]

theorem tabFree_paneColumns (p : TmuxWindow × TmuxPane) {icon : List Char} (hicon : TabFree icon) :
    ∀ column ∈ paneColumns p icon, TabFree column := by
  simp only [paneColumns, List.forall_mem_cons]
  exact ⟨(plain_percent _).tabFree, (plain_at _).tabFree, (plain_optionFlag _).tabFree,
    (plain_detachText _).tabFree, hicon, fun _ h => absurd h List.not_mem_nil⟩

theorem mangled_paneLine {p : TmuxWindow × TmuxPane} {l : List Char} (h : Mangled (paneLine p) l) :
    ∃ icon, Mangled p.2.icon.toList icon ∧ l = joinTab (paneColumns p icon) := by
  obtain ⟨columns, hall, rfl⟩ := exists_of_mangled_joinTab h
  simp only [List.forall₂_cons_left_iff, List.forall₂_nil_left_iff] at hall
  obtain ⟨_, _, h0, ⟨_, _, h1, ⟨_, _, h2, ⟨_, _, h3, ⟨icon, _, hicon, rfl, rfl⟩, rfl⟩, rfl⟩, rfl⟩,
    rfl⟩ := hall
  refine ⟨icon, hicon, ?_⟩
  rw [h0.eq_of_plain (plain_percent _), h1.eq_of_plain (plain_at _),
    h2.eq_of_plain (plain_optionFlag _), h3.eq_of_plain (plain_detachText _)]
  rfl

theorem readPane_columns (p : TmuxWindow × TmuxPane) {icon : List Char} (hicon : TabFree icon) :
    readPane (joinTab (paneColumns p icon)) = some { paneRow p with icon := optionText icon } := by
  have hcol : ∀ i, col (joinTab (paneColumns p icon)) i = (paneColumns p icon).getD i [] :=
    col_joinTab (List.cons_ne_nil _ _) (tabFree_paneColumns p hicon)
  rw [readPane, hcol 0, hcol 1, hcol 2, hcol 3, hcol 4, if_neg]
  · simp [paneColumns, trim_optionFlag, detachPolicy_detachText, paneRow]
  · rintro (hpane | hwindow)
    · cases hpane
    · cases hwindow

/-- How panes are read. -/
theorem readsPane : ReadsRow paneLine readPane paneRow PaneFit where
  head p := by
    obtain ⟨rest, hrest⟩ := head_joinTab '%' (Nat.toDigits 10 p.2.id) _
    exact ⟨'%', rest, hrest, by decide, by decide⟩
  blank := rfl
  oneLine p hp := by
    refine oneLine_joinTab ?_
    simp only [List.forall_mem_cons]
    exact ⟨(plain_percent _).oneLine, (plain_at _).oneLine, (plain_optionFlag _).oneLine,
      (plain_detachText _).oneLine, hp.1.2, fun _ h => absurd h List.not_mem_nil⟩
  exact p l hp hl := by
    obtain ⟨icon, hicon, rfl⟩ := mangled_paneLine hl
    constructor
    · intro heq
      rw [readPane_columns p (hicon.tabFree hp.1.1)] at heq
      have hsame := (optionText_eq_iff hicon hp.2).mp
        (congrArg TmuxPaneRow.icon (Option.some.inj heq))
      rw [hsame]
      rfl
    · intro heq
      have hown := readPane_columns p hp.1.1
      rw [(optionText_eq_iff (Mangled.refl _) hp.2).mpr rfl] at hown
      rw [heq]
      exact hown
  trimEnd p l hp hl := by
    obtain ⟨icon, -, rfl⟩ := mangled_paneLine hl
    have htab : ∀ column ∈ [idText '%' p.2.id] ++ [idText '@' p.1.id], TabFree column := by
      simp only [List.cons_append, List.nil_append, List.forall_mem_cons]
      exact ⟨(plain_percent _).tabFree, (plain_at _).tabFree, fun _ h => absurd h List.not_mem_nil⟩
    have hfixed : ∀ i ≤ 1, col (trimEnd (joinTab (paneColumns p icon))) i =
        col (joinTab (paneColumns p icon)) i := fun i hi =>
      col_trimEnd_joinTab htab (List.cons_ne_nil _ _) (plain_at _)
        [optionFlag p.2.bound, detachText p.2.detach, icon] hi
    rw [readPane, readPane, hfixed 0 (by decide), hfixed 1 (by decide), optionText, optionText,
      trim_col_trimEnd, trim_col_trimEnd, trim_col_trimEnd]
  fit p l hbreak hread := by
    rw [readPane] at hread
    split at hread
    · cases hread
    · exact fitOption_of_optionText (tabFree_col _ _) (break_not_mem_col hbreak _)
        (congrArg TmuxPaneRow.icon (Option.some.inj hread))

theorem paneNumOf_idText (n : Nat) : paneNumOf (trim (idText '%' n)) = some n := by
  have htrim : trim (idText '%' n) = idText '%' n := (plain_percent n).trimmed
  have hdigits : (Nat.toDigits 10 n).all Char.isDigit = true := List.all_eq_true.mpr fun d hd =>
    Nat.isDigit_of_mem_toDigits (by decide) (by decide) hd
  rw [htrim, idText, paneNumOf, if_pos ⟨toDigits_ne_nil n, hdigits⟩, natOfDigits_toDigits]

theorem mangled_frozenPaneLine {p : TmuxWindow × TmuxPane} {l : List Char}
    (h : Mangled (frozenPaneLine p) l) : ∃ cwd, Mangled p.2.cwd.toList cwd ∧
      l = joinTab [idText '%' p.2.id, idText '@' p.1.id, cwd] := by
  obtain ⟨columns, hall, rfl⟩ := exists_of_mangled_joinTab h
  simp only [List.forall₂_cons_left_iff, List.forall₂_nil_left_iff] at hall
  obtain ⟨_, _, h0, ⟨_, _, h1, ⟨cwd, _, hcwd, rfl, rfl⟩, rfl⟩, rfl⟩ := hall
  exact ⟨cwd, hcwd, by rw [h0.eq_of_plain (plain_percent _), h1.eq_of_plain (plain_at _)]⟩

theorem readFrozenPane_columns (p : TmuxWindow × TmuxPane) {cwd : List Char} (hcwd : TabFree cwd) :
    readFrozenPane (joinTab [idText '%' p.2.id, idText '@' p.1.id, cwd]) =
      some { frozenPane p with cwd := String.ofList (trim cwd) } := by
  have htab : ∀ column ∈ [idText '%' p.2.id, idText '@' p.1.id, cwd], TabFree column := by
    simp only [List.forall_mem_cons]
    exact ⟨(plain_percent _).tabFree, (plain_at _).tabFree, hcwd,
      fun _ h => absurd h List.not_mem_nil⟩
  have hcol := col_joinTab (List.cons_ne_nil _ _) htab
  rw [readFrozenPane, hcol 0, hcol 1, hcol 2, if_neg]
  · simp [paneNumOf_idText, frozenPane]
  · rintro (hpane | hwindow)
    · cases hpane
    · cases hwindow

/-- How panes are read for a freeze. -/
theorem readsFrozenPane : ReadsRow frozenPaneLine readFrozenPane frozenPane FrozenPaneFit where
  head p := by
    obtain ⟨rest, hrest⟩ := head_joinTab '%' (Nat.toDigits 10 p.2.id) _
    exact ⟨'%', rest, hrest, by decide, by decide⟩
  blank := rfl
  oneLine p hp := by
    refine oneLine_joinTab ?_
    simp only [List.forall_mem_cons]
    exact ⟨(plain_percent _).oneLine, (plain_at _).oneLine, hp.1.2,
      fun _ h => absurd h List.not_mem_nil⟩
  exact p l hp hl := by
    obtain ⟨cwd, hcwd, rfl⟩ := mangled_frozenPaneLine hl
    constructor
    · intro heq
      rw [readFrozenPane_columns p (hcwd.tabFree hp.1.1)] at heq
      have htrim : trim cwd = cwd := hcwd.trimmed hp.2
      have hsame : String.ofList (trim cwd) = p.2.cwd :=
        congrArg FreezePaneData.cwd (Option.some.inj heq)
      rw [htrim] at hsame
      rw [frozenPaneLine, ← hsame, String.toList_ofList]
    · intro heq
      have htrim : trim p.2.cwd.toList = p.2.cwd.toList := hp.2
      rw [heq, frozenPaneLine, readFrozenPane_columns p hp.1.1, htrim, String.ofList_toList]
      rfl
  trimEnd p l hp hl := by
    obtain ⟨cwd, -, rfl⟩ := mangled_frozenPaneLine hl
    have htab : ∀ column ∈ [idText '%' p.2.id] ++ [idText '@' p.1.id], TabFree column := by
      simp only [List.cons_append, List.nil_append, List.forall_mem_cons]
      exact ⟨(plain_percent _).tabFree, (plain_at _).tabFree, fun _ h => absurd h List.not_mem_nil⟩
    have hfixed : ∀ i ≤ 1,
        col (trimEnd (joinTab [idText '%' p.2.id, idText '@' p.1.id, cwd])) i =
          col (joinTab [idText '%' p.2.id, idText '@' p.1.id, cwd]) i := fun i hi =>
      col_trimEnd_joinTab htab (List.cons_ne_nil _ _) (plain_at _) [cwd] hi
    rw [readFrozenPane, readFrozenPane, hfixed 0 (by decide), hfixed 1 (by decide),
      trim_col_trimEnd]
  fit p l hbreak hread := by
    rw [readFrozenPane] at hread
    split at hread
    · cases hread
    · obtain ⟨paneNum, -, hrow⟩ := Option.map_eq_some_iff.mp hread
      have hcwd : String.ofList (trim (col l 2)) = p.2.cwd := congrArg FreezePaneData.cwd hrow
      have hmem : ∀ c ∈ trim (col l 2), c ∈ col l 2 := fun c hc =>
        (List.dropWhile_suffix isSpace).mem ((List.rdropWhile_prefix isSpace _).mem hc)
      rw [FrozenPaneFit, ← hcwd, FitOption, FitText, String.toList_ofList]
      exact ⟨⟨fun hin => tabFree_col l 2 (hmem _ hin), fun hin =>
        break_not_mem_col hbreak 2 (hmem _ hin)⟩, trimmed_trim _⟩

/-! ## Counting panes -/

theorem foldl_countPane (lines : List (List Char)) (counts : List Char → Nat) (key : List Char)
    (hkey : key ≠ []) : lines.foldl countPane counts key = counts key + lines.count key := by
  induction lines generalizing counts with
  | nil => rfl
  | cons line lines ih =>
    rw [List.foldl_cons, ih, List.count_cons, countPane]
    split
    · next hnil =>
      have hne : (line == key) = false := by
        rw [hnil, beq_eq_false_iff_ne]
        exact hkey.symm
      rw [hne]
      rfl
    · rcases eq_or_ne key line with rfl | hne
      · rw [Function.update_self, if_pos (beq_self_eq_true key)]
        omega
      · rw [Function.update_of_ne hne, if_neg (by simpa using hne.symm), Nat.add_zero]

theorem idText_inj {sigil : Char} {m n : Nat} (h : idText sigil m = idText sigil n) : m = n := by
  rw [← natOfDigits_toDigits m, (List.cons.inj h).2, natOfDigits_toDigits]

theorem count_owner (s t : TmuxSession) : ((t.panes.map fun _ => t).map ownerLine).count
    (ownerLine s) = if t.id = s.id then t.panes.length else 0 := by
  rw [List.map_map]
  split
  · next heq =>
    have hline : ownerLine t = ownerLine s := by rw [ownerLine, ownerLine, heq]
    rw [List.count_eq_length.mpr fun l hl => ?_, List.length_map]
    obtain ⟨p, -, rfl⟩ := List.mem_map.mp hl
    exact hline.symm
  · next hne =>
    rw [List.count_eq_zero]
    intro hmem
    obtain ⟨p, -, hp⟩ := List.mem_map.mp hmem
    exact hne (idText_inj hp)

/-- The lines of the panes of one session. -/
theorem count_owners {sessions : List TmuxSession} (hids : (sessions.map TmuxSession.id).Nodup)
    {s : TmuxSession} (hs : s ∈ sessions) :
    ((sessions.flatMap fun t => t.panes.map fun _ => t).map ownerLine).count (ownerLine s) =
      s.panes.length := by
  induction sessions with
  | nil => exact absurd hs List.not_mem_nil
  | cons t ts ih =>
    rw [List.map_cons, List.nodup_cons] at hids
    rw [List.flatMap_cons, List.map_append, List.count_append, count_owner]
    rcases List.mem_cons.mp hs with rfl | hlater
    · rw [if_pos rfl, Nat.add_eq_left, List.count_eq_zero]
      intro hmem
      obtain ⟨u, hu, hline⟩ := List.mem_map.mp hmem
      obtain ⟨t, ht, hpane⟩ := List.mem_flatMap.mp hu
      obtain ⟨p, -, rfl⟩ := List.mem_map.mp hpane
      exact hids.1 (List.mem_map.mpr ⟨t, ht, idText_inj hline⟩)
    · have hne : t.id ≠ s.id := fun heq => hids.1 (heq ▸ List.mem_map_of_mem hlater)
      rw [if_neg hne, Nat.zero_add, ih hids.2 hlater]

/-- A line that is not skipped. -/
def nonBlank (line : List Char) : Option (List Char) := if line = [] then none else some line

/-- How the sessions of the panes are read. -/
theorem readsOwner : ReadsRow ownerLine nonBlank ownerLine fun _ => True where
  head s := ⟨'$', _, rfl, by decide, by decide⟩
  blank := rfl
  oneLine s _ := (plain_dollar s.id).oneLine
  exact s l _ hl := by
    rw [hl.eq_of_plain (plain_dollar s.id), ownerLine]
    exact iff_of_true (if_neg (List.cons_ne_nil _ _)) rfl
  trimEnd s l _ hl := by
    rw [hl.eq_of_plain (plain_dollar s.id)]
    exact congrArg nonBlank (plain_dollar s.id).trimEnd
  fit _ _ _ _ := trivial

theorem count_filterMap_nonBlank (lines : List (List Char)) {key : List Char} (hkey : key ≠ []) :
    (lines.filterMap nonBlank).count key = lines.count key := by
  induction lines with
  | nil => rfl
  | cons line lines ih =>
    rw [List.filterMap_cons, nonBlank]
    split
    · next hnone =>
      split at hnone
      · next hnil =>
        rw [ih, hnil, List.count_cons_of_ne hkey.symm]
      · cases hnone
    · next some hsome =>
      split at hsome
      · cases hsome
      · cases hsome
        rw [List.count_cons, List.count_cons, ih]

/-- The lines of the owners are never mangled. -/
theorem lines_of_owners {owners : List TmuxSession} {ls : List (List Char)}
    (hls : List.Forall₂ (fun s l => Mangled (ownerLine s) l) owners ls) :
    ls = owners.map ownerLine := by
  induction hls with
  | nil => rfl
  | cons hl _ ih =>
    rw [List.map_cons, hl.eq_of_plain (plain_dollar _), ih]

theorem runTmux_closed {child : Child} {code : Option Int} (h : child.ending = .closed code) :
    runTmux child = ⟨code, decodeChunks child.stdout, decodeChunks child.stderr, none⟩ := by
  rw [runTmux, h]

/-- The panes of each session are counted, however the output was cut. -/
theorem countPanes_listed {server : Server} (owners : Listing (printed ownerLine server.paneOwners))
    (hended : owners.ending = .closed (some 0)) {s : TmuxSession} (hs : s ∈ server.sessions) :
    countPanesBySession owners.toChild (idText '$' s.id) = s.panes.length := by
  have hmangled := mangled_decodeChunks (owners.answers hended)
  obtain ⟨ls, hls, htext⟩ := exists_of_mangled_printed hmangled
  have hsame := lines_of_owners hls
  have hread := readRows_printed readsOwner (fun _ _ => trivial) hls
  have hkey : idText '$' s.id ≠ [] := List.cons_ne_nil _ _
  have hcount := congrArg (List.count (idText '$' s.id)) hread
  rw [readRows, count_filterMap_nonBlank _ hkey, count_filterMap_nonBlank _ hkey, hsame] at hcount
  simp only [countPanesBySession, runTmux_closed hended]
  rw [if_neg (by simp), foldl_countPane _ _ _ hkey, Nat.zero_add, htext, hsame, hcount]
  exact count_owners server.ids hs

theorem not_answered {child : Child} (h : child.ending ≠ .closed (some 0)) :
    (runTmux child).status ≠ some 0 ∨ (runTmux child).error ≠ none := by
  left
  rcases hending : child.ending with code | code | _
  · rw [runTmux_closed hending]
    exact fun hcode => h (hending.trans (congrArg Ending.closed hcode))
  · simp [runTmux, hending]
  · simp [runTmux, hending]

theorem countPanes_unlisted {owners : Child} (hended : owners.ending ≠ .closed (some 0)) :
    countPanesBySession owners = fun _ => 0 := by
  simp only [countPanesBySession]
  rw [if_pos (not_answered hended)]

/-! ## The listings -/

/-- No chunk of the output ends within a character. -/
def Uncut (child : Child) : Prop := ∀ chunk ∈ child.stdout, Whole chunk

/-- tmux fails, and says that it has no sessions. -/
def Refused (child : Child) : Prop :=
  ∃ code, child.ending = .closed code ∧ code ≠ some 0 ∧
    saysNoSessions (decodeChunks child.stderr) = true

/-- What `listSessions` needs: texts without TAB, line break and, in the options, white space at
the ends, an output that is not cut within a character, and the list of the panes. -/
structure SessionsFit (server : Server) (sessions owners : Child) : Prop where
  answered : sessions.ending = .closed (some 0) → (∀ s ∈ server.sessions, s.Fit) ∧
    Uncut sessions ∧ (owners.ending = .closed (some 0) ∨ ∀ s ∈ server.sessions, s.panes = [])
  refused : Refused sessions → server.sessions = []

/-- What a query of two listings needs. -/
def BothFit {α β : Type} (FitFirst : α → Prop) (FitSecond : β → Prop) (as : List α) (bs : List β)
    (first second : Child) : Prop :=
  first.ending = .closed (some 0) → second.ending = .closed (some 0) →
    ((∀ a ∈ as, FitFirst a) ∧ Uncut first) ∧ (∀ b ∈ bs, FitSecond b) ∧ Uncut second

theorem paneCount_of_mem {counts : List Char → Nat} {text : List Char} {row : TmuxSessionRow}
    (h : row ∈ readRows (readSession counts) text) : row.paneCount = counts row.tmuxId.toList := by
  obtain ⟨l, -, hread⟩ := List.mem_filterMap.mp h
  rw [readSession] at hread
  split at hread
  · cases hread
  · rw [← Option.some.inj hread]
    dsimp only
    rw [String.toList_ofList]

/-- The sessions are read with the panes counted right. -/
theorem sessions_answered_iff {server : Server} {counts : List Char → Nat} {chunks : List Bytes}
    (hchunks : chunks.flatten = encode (printed sessionLine server.sessions)) :
    readRows (readSession counts) (decodeChunks chunks) = server.sessions.map TmuxSession.row ↔
      ((∀ s ∈ server.sessions, s.Fit) ∧ ∀ chunk ∈ chunks, Whole chunk) ∧
        ∀ s ∈ server.sessions, counts (idText '$' s.id) = s.panes.length := by
  have hcounted : (∀ s ∈ server.sessions, counts (idText '$' s.id) = s.panes.length) →
      server.sessions.map (TmuxSession.rowWith counts) = server.sessions.map TmuxSession.row :=
    fun hcounts => List.map_congr_left fun s hs => by
      rw [TmuxSession.rowWith, hcounts s hs]
      rfl
  rw [← rows_exact_iff (readsSession counts) hchunks]
  constructor
  · intro heq
    have hcounts : ∀ s ∈ server.sessions, counts (idText '$' s.id) = s.panes.length := by
      intro s hs
      have hmem : s.row ∈ readRows (readSession counts) (decodeChunks chunks) :=
        heq ▸ List.mem_map_of_mem hs
      have hcount := paneCount_of_mem hmem
      rw [TmuxSession.row, String.toList_ofList] at hcount
      exact hcount.symm
    exact ⟨heq.trans (hcounted hcounts).symm, hcounts⟩
  · rintro ⟨heq, hcounts⟩
    exact heq.trans (hcounted hcounts)

theorem counts_iff {server : Server} (owners : Listing (printed ownerLine server.paneOwners)) :
    (∀ s ∈ server.sessions,
      countPanesBySession owners.toChild (idText '$' s.id) = s.panes.length) ↔
      owners.ending = .closed (some 0) ∨ ∀ s ∈ server.sessions, s.panes = [] := by
  rcases eq_or_ne owners.ending (.closed (some 0)) with hended | hended
  · exact iff_of_true (fun s hs => countPanes_listed owners hended hs) (.inl hended)
  · rw [countPanes_unlisted hended, or_iff_right hended]
    exact forall₂_congr fun s _ => by rw [eq_comm, List.length_eq_zero_iff]

/-- `listSessions` fails or gives each session its own row, exactly if the sessions fit. -/
theorem listSessions_iff {server : Server}
    (sessions : Listing (printed sessionLine server.sessions))
    (owners : Listing (printed ownerLine server.paneOwners)) :
    (∀ rows, (listSessions sessions.toChild owners.toChild).rows = some rows →
      rows = server.sessions.map TmuxSession.row) ↔
      SessionsFit server sessions.toChild owners.toChild := by
  rcases hending : sessions.ending with code | code | _
  · have hrun := runTmux_closed hending
    rcases eq_or_ne code (some 0) with rfl | hcode
    · have hrows : (listSessions sessions.toChild owners.toChild).rows =
          some (readRows (readSession (countPanesBySession owners.toChild))
            (decodeChunks sessions.stdout)) := by
        simp [listSessions, hrun]
      rw [hrows]
      simp only [Option.some.injEq, forall_eq']
      rw [sessions_answered_iff (sessions.answers hending), counts_iff]
      constructor
      · rintro ⟨⟨hfit, huncut⟩, hcounts⟩
        refine ⟨fun _ => ⟨hfit, huncut, hcounts⟩, fun ⟨code, hclosed, hne, _⟩ => ?_⟩
        rw [hending] at hclosed
        exact absurd (Ending.closed.inj hclosed).symm hne
      · intro h
        obtain ⟨hfit, huncut, hcounts⟩ := h.answered hending
        exact ⟨⟨hfit, huncut⟩, hcounts⟩
    · have hanswered : sessions.ending ≠ .closed (some 0) := by
        rw [hending]
        exact fun heq => hcode (Ending.closed.inj heq)
      have hrows : (listSessions sessions.toChild owners.toChild).rows =
          if saysNoSessions (decodeChunks sessions.stderr) then some [] else none := by
        simp [listSessions, hrun, hcode]
      rw [hrows]
      split
      · next hsays =>
        simp only [Option.some.injEq, forall_eq']
        rw [eq_comm, List.map_eq_nil_iff]
        exact ⟨fun hnil => ⟨fun h => absurd h hanswered, fun _ => hnil⟩,
          fun h => h.refused ⟨code, hending, hcode, hsays⟩⟩
      · next hsays =>
        refine iff_of_true (fun rows h => by cases h) ⟨fun h => absurd h hanswered, ?_⟩
        rintro ⟨_, _, _, hsays'⟩
        exact absurd hsays' hsays
  · refine iff_of_true (fun rows h => ?_) ⟨fun h => ?_, ?_⟩
    · simp [listSessions, runTmux, hending] at h
    · cases hending.symm.trans h
    · rintro ⟨_, hclosed, _⟩
      cases hending.symm.trans hclosed
  · refine iff_of_true (fun rows h => ?_) ⟨fun h => ?_, ?_⟩
    · simp [listSessions, runTmux, hending] at h
    · cases hending.symm.trans h
    · rintro ⟨_, hclosed, _⟩
      cases hending.symm.trans hclosed

/-- A query of two listings fails or gives each object its own row, exactly if they fit. -/
theorem listBoth_iff {α β ω υ : Type} {line : α → List Char} {read : List Char → Option ω}
    {value : α → ω} {Fit : α → Prop} {line' : β → List Char} {read' : List Char → Option υ}
    {value' : β → υ} {Fit' : β → Prop} (h : ReadsRow line read value Fit)
    (h' : ReadsRow line' read' value' Fit') {as : List α} {bs : List β}
    (first : Listing (printed line as)) (second : Listing (printed line' bs)) :
    (∀ rows, listBoth read read' first.toChild second.toChild = some rows →
      rows = (as.map value, bs.map value')) ↔
      BothFit Fit Fit' as bs first.toChild second.toChild := by
  rcases eq_or_ne first.ending (.closed (some 0)) with hfirst | hfirst
  · rcases eq_or_ne second.ending (.closed (some 0)) with hsecond | hsecond
    · simp only [listBoth, runTmux_closed hfirst, runTmux_closed hsecond]
      rw [if_neg (by simp), if_neg (by simp)]
      simp only [Option.some.injEq, forall_eq', Prod.mk.injEq]
      rw [rows_exact_iff h (first.answers hfirst), rows_exact_iff h' (second.answers hsecond)]
      exact ⟨fun hfit _ _ => hfit, fun hfit => hfit hfirst hsecond⟩
    · refine iff_of_true (fun rows hrows => ?_) fun _ hended => absurd hended hsecond
      simp only [listBoth] at hrows
      rw [if_pos (not_answered hsecond)] at hrows
      split at hrows <;> cases hrows
  · refine iff_of_true (fun rows hrows => ?_) fun hended _ => absurd hended hfirst
    simp only [listBoth] at hrows
    rw [if_pos (not_answered hfirst)] at hrows
    cases hrows

/-- A result that is only put together from the rows. -/
theorem map_exact_iff {α β : Type} {f : α → β} (hf : Function.Injective f) {x : Option α} {v : α} :
    (∀ result, x.map f = some result → result = f v) ↔ ∀ rows, x = some rows → rows = v := by
  constructor
  · rintro h rows rfl
    exact hf (h _ rfl)
  · intro h result hresult
    obtain ⟨rows, hrows, rfl⟩ := Option.map_eq_some_iff.mp hresult
    rw [h rows hrows]

/-- Each of the three queries fails or returns exactly one row for each session, window or pane,
with its own values, exactly if the texts are fit for a table and no chunk ends within a
character. -/
theorem listings_exact_iff (server : Server)
    (sessions : Listing (printed sessionLine server.sessions))
    (owners : Listing (printed ownerLine server.paneOwners)) (s : TmuxSession)
    (windows : Listing (printed windowLine s.windows)) (panes : Listing (printed paneLine s.panes))
    (frozenWindows : Listing (printed frozenWindowLine s.windows))
    (frozenPanes : Listing (printed frozenPaneLine s.panes)) :
    ((∀ rows, (listSessions sessions.toChild owners.toChild).rows = some rows →
        rows = server.sessions.map TmuxSession.row) ↔
      SessionsFit server sessions.toChild owners.toChild) ∧
    ((∀ result, listSessionTopology windows.toChild panes.toChild = some result →
        result = ⟨s.windows.map TmuxWindow.row, s.panes.map paneRow⟩) ↔
      BothFit TmuxWindow.NamedFit PaneFit s.windows s.panes windows.toChild panes.toChild) ∧
    ((∀ data, listSessionForFreeze frozenWindows.toChild frozenPanes.toChild = some data →
        data = ⟨s.windows.map frozenWindow, s.panes.map frozenPane⟩) ↔
      BothFit TmuxWindow.Fit FrozenPaneFit s.windows s.panes frozenWindows.toChild
        frozenPanes.toChild) := by
  refine ⟨listSessions_iff sessions owners, ?_, ?_⟩
  · rw [← listBoth_iff readsWindow readsPane windows panes]
    refine map_exact_iff (f := fun rows => (⟨rows.1, rows.2⟩ : SessionTopologyResult))
      (fun a b heq => ?_) (v := (_, _))
    obtain ⟨hwindows, hpanes⟩ := SessionTopologyResult.mk.inj heq
    exact Prod.ext hwindows hpanes
  · rw [← listBoth_iff readsFrozenWindow readsFrozenPane frozenWindows frozenPanes]
    refine map_exact_iff (f := fun rows => (⟨rows.1, rows.2⟩ : FreezeSessionData))
      (fun a b heq => ?_) (v := (_, _))
    obtain ⟨hwindows, hpanes⟩ := FreezeSessionData.mk.inj heq
    exact Prod.ext hwindows hpanes

/-- A run that answers with the text in the given chunks. -/
def answering {text : List Char} (chunks : List Bytes) (h : chunks.flatten = encode text) :
    Listing text where
  stdout := chunks
  stderr := []
  ending := .closed (some 0)
  answers _ := h

/-- A window of one pane, named by a letter of two bytes. -/
def accented : TmuxWindow where
  id := 1
  name := "é"
  active := true
  layout := ⟨"b25d,80x24,0,0,1".toList, by decide,
    (by decide : Plain "b25d,80x24,0,0,1".toList)⟩
  panes := [{ id := 1, bound := false, detach := none, icon := "", cwd := "/" }]

/-- A session whose workspace has a line break in it. -/
def brokenWorkspace : TmuxSession where
  id := 1
  name := "dev"
  attached := 0
  marked := true
  activity := 5
  workspace := "file:///a\n$2\tghost"
  template := ""
  windows := [accented]

/-- A session is invented, and a name that lies in two chunks is misread. -/
theorem listing_invented_misread :
    let server : Server := ⟨[brokenWorkspace], by decide⟩
    (∃ (sessions : Listing (printed sessionLine server.sessions))
      (owners : Listing (printed ownerLine server.paneOwners)) (rows : List TmuxSessionRow),
      (listSessions sessions.toChild owners.toChild).rows = some rows ∧
        rows.map TmuxSessionRow.tmuxId = ["$1", "$2"]) ∧
    ∃ (windows : Listing (printed windowLine brokenWorkspace.windows))
      (panes : Listing (printed paneLine brokenWorkspace.panes)) (result : SessionTopologyResult),
      listSessionTopology windows.toChild panes.toChild = some result ∧
        result.windows.map TmuxWindowRow.name = ["\ufffd\ufffd"] := by
  refine ⟨⟨answering [encode _] (List.append_nil _), answering [encode _] (List.append_nil _), _,
      rfl, ?_⟩,
    answering [(encode (printed windowLine brokenWorkspace.windows)).take 4,
      (encode (printed windowLine brokenWorkspace.windows)).drop 4] (by simp),
    answering [encode _] (List.append_nil _), _, rfl, ?_⟩
  · decide +kernel
  · decide +kernel

end TmuxccDriver.Broker.Listings
