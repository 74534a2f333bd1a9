import TmuxccDriver.Lib.Tabular
import TmuxccDriver.Template.Apply

/-!
# Templates that fit

A tmux that splits a pane in half, and that accepts a layout that is consistent and fits the
window: for which templates every command of `applyCompiledTemplate` is accepted.

The panes are split off one after the other, each from the one before, and only then laid out.

Results:
1. `splits_iff`: how often a pane can be split in half.
2. `collectLeaves_ok`: a valid tree compiles to its leaves.
3. `apply_iff`: when all commands are accepted.
-/

namespace TmuxccDriver.Template
open TmuxccDriver.Lib TmuxccDriver.Parser

/-! ## A tmux server -/

structure TmuxPane where
  paneNum : Nat
  cols : Nat
  rows : Nat
  /-- What the pane was created with. -/
  spec : CompiledPane
deriving DecidableEq

structure TmuxWindow where
  windowNum : Nat
  name : Option String
  cols : Nat
  rows : Nat
  panes : List TmuxPane
deriving DecidableEq

/-- A session and its server: the size of its new windows, its windows in order, and the next
ids. -/
structure Tmux where
  cols : Nat
  rows : Nat
  windows : List TmuxWindow
  nextPane : Nat
  nextWindow : Nat
  template : Option String := none
deriving DecidableEq

def TmuxWindow.hasPane (window : TmuxWindow) (paneNum : Nat) : Bool :=
  window.panes.any (·.paneNum = paneNum)

def TmuxPane.extent (pane : TmuxPane) : Protocol.SplitDirection → Nat
  | .horizontal => pane.cols
  | .vertical => pane.rows

/-- The size of the new pane when a pane of the size is split. -/
def half (size : Nat) : Nat := (size - 1) / 2

def TmuxPane.withExtent (pane : TmuxPane) (orientation : Protocol.SplitDirection) (size : Nat) :
    TmuxPane :=
  match orientation with
  | .horizontal => { pane with cols := size }
  | .vertical => { pane with rows := size }

/-- The pane and the one that is split off it. -/
def TmuxPane.split (pane : TmuxPane) (orientation : Protocol.SplitDirection) (paneNum : Nat)
    (spec : CompiledPane) : List TmuxPane :=
  let size := pane.extent orientation
  [pane.withExtent orientation (size - 1 - half size),
    { pane.withExtent orientation (half size) with paneNum, spec }]

/-- The new pane comes right after the pane that is split. -/
def TmuxWindow.split (window : TmuxWindow) (target : Nat) (orientation : Protocol.SplitDirection)
    (paneNum : Nat) (spec : CompiledPane) : TmuxWindow :=
  { window with
    panes := window.panes.flatMap fun pane =>
      if pane.paneNum = target then pane.split orientation paneNum spec else [pane] }

/-- The panes take the sizes of the cells, in order. -/
def resize : List TmuxPane → List Geometry → List TmuxPane
  | pane :: panes, g :: gs =>
    { pane with cols := g.width.toNat, rows := g.height.toNat } :: resize panes gs
  | panes, _ => panes

def TmuxWindow.layOut (window : TmuxWindow) (layout : List Char) : TmuxWindow :=
  match parseLayout layout with
  | .ok parsed => { window with panes := resize window.panes (leafRects parsed.root) }
  | .error _ => window

/-- Which layouts tmux accepts for a window of a size with a number of panes. -/
abbrev LayoutCheck := List Char → Nat → Nat → Nat → Bool

/-- A consistent layout of the whole window, with a cell for each pane, is accepted. -/
def LayoutCheck.AcceptsConsistent (accepts : LayoutCheck) : Prop :=
  ∀ (layout : ParsedLayout) (cols rows : Nat), Tiles layout.root → Positive layout.root →
    layout.root.geometry = ⟨cols, rows, 0, 0⟩ →
    accepts (dumpLayout layout) cols rows (leafRects layout.root).length = true

/-- The reply of a creating command with `-P -F`. -/
def effectIdsText (ids : EffectIds) : String :=
  "%" ++ ids.paneNum.repr ++ " @" ++ ids.windowNum.repr

def windowIdsText (windows : List TmuxWindow) : String :=
  String.join (windows.map fun window => "@" ++ window.windowNum.repr ++ "\n")

def accepted (body : String) (tmux : Tmux) : CommandResult × Tmux := (⟨true, body⟩, tmux)

def refused (message : String) (tmux : Tmux) : CommandResult × Tmux := (⟨false, message⟩, tmux)

/-- What tmux makes of a command. -/
def Tmux.exec (accepts : LayoutCheck) (tmux : Tmux) (command : TmuxCommand) :
    CommandResult × Tmux :=
  match command with
  | .listWindowIds => accepted (windowIdsText tmux.windows) tmux
  | .setTemplateOption _ templateName => accepted "" { tmux with template := some templateName }
  | .newWindow opts =>
    let pane : TmuxPane := ⟨tmux.nextPane, tmux.cols, tmux.rows,
      ⟨opts.startDirectory, opts.shellCommand, opts.env⟩⟩
    accepted (effectIdsText ⟨tmux.nextPane, tmux.nextWindow⟩)
      { tmux with
        windows := tmux.windows ++ [⟨tmux.nextWindow, opts.name, tmux.cols, tmux.rows, [pane]⟩]
        nextPane := tmux.nextPane + 1
        nextWindow := tmux.nextWindow + 1 }
  | .splitWindow target orientation opts =>
    match tmux.windows.find? (·.hasPane target) with
    | none => refused ("can't find pane: %" ++ target.repr) tmux
    | some window =>
      if window.panes.any fun pane => pane.paneNum = target ∧ pane.extent orientation < 3 then
        refused "no space for a new pane" tmux
      else
        accepted (effectIdsText ⟨tmux.nextPane, window.windowNum⟩)
          { tmux with
            windows := tmux.windows.map fun window => window.split target orientation
              tmux.nextPane ⟨opts.startDirectory, opts.shellCommand, opts.env⟩
            nextPane := tmux.nextPane + 1 }
  | .displayWindowSize paneNum =>
    match tmux.windows.find? (·.hasPane paneNum) with
    | none => refused ("can't find pane: %" ++ paneNum.repr) tmux
    | some window => accepted (window.cols.repr ++ "x" ++ window.rows.repr) tmux
  | .selectLayout windowNum layout =>
    match tmux.windows.find? (·.windowNum = windowNum) with
    | none => refused ("can't find window: @" ++ windowNum.repr) tmux
    | some window =>
      if accepts layout window.cols window.rows window.panes.length then
        accepted ""
          { tmux with
            windows := tmux.windows.map fun window =>
              if window.windowNum = windowNum then window.layOut layout else window }
      else refused "invalid layout" tmux
  | .killWindow windowNum =>
    if tmux.windows.any (·.windowNum = windowNum) then
      accepted "" { tmux with windows := tmux.windows.filter (·.windowNum ≠ windowNum) }
    else refused ("can't find window: @" ++ windowNum.repr) tmux

/-- Ids are below the next ones, windows have different ids, and there is a window. -/
structure Tmux.WellFormed (tmux : Tmux) : Prop where
  panes : ∀ window ∈ tmux.windows, ∀ pane ∈ window.panes, pane.paneNum < tmux.nextPane
  windows : ∀ window ∈ tmux.windows, window.windowNum < tmux.nextWindow
  distinct : (tmux.windows.map TmuxWindow.windowNum).Nodup
  nonempty : tmux.windows ≠ []

/-! ## The leaves of a tree -/

mutual

/-- The panes of a tree, in depth-first order. -/
def leaves : TemplateNode → List TemplatePane
  | .pane pane => [pane]
  | .split _ children _ => leavesOf children

def leavesOf : List TemplateNode → List TemplatePane
  | [] => []
  | child :: children => leaves child ++ leavesOf children

end

mutual

/-- A tree that passes the checks compiles to its leaves. -/
theorem collectLeaves_ok : (node : TemplateNode) → ∀ {path : String} {panes : List TemplatePane},
    collectLeaves path node = .ok panes → panes = leaves node ∧ NonEmptySplits node
  | .pane pane, _, _, h => ⟨(Except.ok.inj h).symm, .pane pane⟩
  | .split orientation children sizes, path, panes, h => by
    rw [collectLeaves] at h
    have htwo : ¬children.length < 2 := by
      intro hfew
      rw [if_pos hfew] at h
      cases h
    rw [if_neg htwo] at h
    have hchildren : collectLeavesOf path 0 children = .ok panes := by
      cases sizes with
      | none => exact h
      | some sizes => exact (except_bind_eq_ok h).choose_spec.2
    obtain ⟨hpanes, hall⟩ := collectLeavesOf_ok children hchildren
    refine ⟨hpanes, .split orientation sizes ?_ hall⟩
    rintro rfl
    exact htwo (by decide)

theorem collectLeavesOf_ok : (children : List TemplateNode) →
    ∀ {path : String} {i : Nat} {panes : List TemplatePane},
      collectLeavesOf path i children = .ok panes →
        panes = leavesOf children ∧ ∀ child ∈ children, NonEmptySplits child
  | [], _, _, _, h => ⟨(Except.ok.inj h).symm, by simp⟩
  | child :: children, path, i, panes, h => by
    rw [collectLeavesOf] at h
    obtain ⟨first, hfirst, h⟩ := except_bind_eq_ok h
    obtain ⟨rest, hrest, h⟩ := except_bind_eq_ok h
    obtain ⟨rfl, hnonempty⟩ := collectLeaves_ok child hfirst
    obtain ⟨rfl, hall⟩ := collectLeavesOf_ok children hrest
    exact ⟨(Except.ok.inj h).symm, List.forall_mem_cons.mpr ⟨hnonempty, hall⟩⟩

end

theorem length_leafRectsOf_placeChildren {orientation : Orientation} {g : Geometry}
    {children : List TemplateNode} (h : ∀ child ∈ children, ∀ g' root,
      geometryToCell child g' = some root → (leafRects root).length = (leaves child).length)
    {sizes : List Int} (hlen : sizes.length = children.length) {offset : Int}
    {cells : List LayoutCell}
    (hcells : placeChildren orientation g children sizes offset = some cells) :
    (leafRectsOf cells).length = (leavesOf children).length := by
  induction children generalizing sizes offset cells with
  | nil =>
    obtain rfl := Option.some.inj (placeChildren_nil.symm.trans hcells)
    rfl
  | cons child children ih =>
    obtain ⟨size, sizes, rfl⟩ := List.exists_cons_of_length_eq_add_one hlen
    obtain ⟨first, rest, hfirst, hrest, rfl⟩ := placeChildren_cons_eq_some.mp hcells
    rw [leafRectsOf, leavesOf, List.length_append, List.length_append,
      h child List.mem_cons_self _ _ hfirst,
      ih (fun c hc => h c (List.mem_cons_of_mem _ hc)) (by simpa using hlen) hrest]

/-- The layout of a tree has a cell for each of its panes. -/
theorem length_leafRects_geometryToCell {node : TemplateNode} (h : NonEmptySplits node)
    {g : Geometry} {root : LayoutCell} (hroot : geometryToCell node g = some root) :
    (leafRects root).length = (leaves node).length := by
  induction h generalizing g root with
  | pane spec =>
    rw [geometryToCell] at hroot
    obtain rfl := Option.some.inj hroot
    rfl
  | @split orientation sizes children hne hchildren ih =>
    obtain ⟨extents, cells, hextents, hcells, rfl⟩ := geometryToCell_split_eq_some.mp hroot
    have hlen := length_of_distributeSizes hextents
    rw [length_weightsFor] at hlen
    rw [leafRects, leaves]
    exact length_leafRectsOf_placeChildren (fun child hchild _ _ => ih child hchild) hlen hcells

/-- What a window of a template is to be: its name and its panes in depth-first order. -/
def WindowTemplate.content (window : WindowTemplate) : Option String × List CompiledPane :=
  (window.name, match window.geometry with
    | none => [{}]
    | some geometry => (leaves geometry).map leafToPane)

/-- A window and what it compiles to. -/
structure CompilesFrom (window : WindowTemplate) (compiled : CompiledWindow) : Prop where
  name : compiled.name = window.content.1
  panes : compiled.panes = window.content.2
  nonempty : compiled.panes ≠ []
  geometry : compiled.geometry = if 1 < compiled.panes.length then window.geometry else none
  splits : ∀ geometry ∈ window.geometry, NonEmptySplits geometry

theorem leaves_ne_nil {node : TemplateNode} (h : NonEmptySplits node) : leaves node ≠ [] := by
  induction h with
  | pane spec => exact List.cons_ne_nil _ _
  | @split orientation sizes children hne hchildren ih =>
    cases children with
    | nil => exact absurd rfl hne
    | cons child children =>
      rw [leaves, leavesOf]
      exact List.append_ne_nil_of_left_ne_nil (ih child List.mem_cons_self) _

theorem compileWindow_ok {window : WindowTemplate} {index : Nat} {compiled : CompiledWindow}
    (h : compileWindow window index = .ok compiled) : CompilesFrom window compiled := by
  unfold compileWindow at h
  split at h
  · next hgeometry =>
    cases h
    exact ⟨rfl, by rw [WindowTemplate.content, hgeometry], List.cons_ne_nil _ _,
      by simp, by simp [hgeometry]⟩
  · next geometry hgeometry =>
    obtain ⟨panes, hpanes, h⟩ := except_bind_eq_ok h
    obtain ⟨rfl, hsplits⟩ := collectLeaves_ok geometry hpanes
    cases h
    refine ⟨rfl, by rw [WindowTemplate.content, hgeometry], ?_, by rw [hgeometry], ?_⟩
    · exact fun hnil => leaves_ne_nil hsplits (List.map_eq_nil_iff.mp hnil)
    · intro other hother
      rw [hgeometry] at hother
      cases hother
      exact hsplits

theorem compileWindows_ok {windows : List WindowTemplate} {index : Nat}
    {compiled : List CompiledWindow} (h : compileWindows windows index = .ok compiled) :
    List.Forall₂ CompilesFrom windows compiled := by
  induction windows generalizing index compiled with
  | nil =>
    cases h
    exact .nil
  | cons window windows ih =>
    obtain ⟨first, hfirst, h⟩ := except_bind_eq_ok h
    obtain ⟨rest, hrest, h⟩ := except_bind_eq_ok h
    cases h
    exact .cons (compileWindow_ok hfirst) (ih hrest)

theorem compileTemplate_ok {template : SessionTemplate} {plan : CompiledTemplate}
    (h : compileTemplate template = .ok plan) :
    List.Forall₂ CompilesFrom template.windows plan.windows ∧ plan.windows ≠ [] := by
  unfold compileTemplate at h
  split at h
  · cases h
  · next hne =>
    obtain ⟨windows, hwindows, h⟩ := except_bind_eq_ok h
    cases h
    have hall := compileWindows_ok hwindows
    refine ⟨hall, ?_⟩
    rintro rfl
    exact hne hall.length_eq

/-! ## Halves -/

/-- A pane of the size is split, the new pane again, and so on. -/
def splits : Nat → Nat → Prop
  | 0, _ => True
  | n + 1, size => 3 ≤ size ∧ splits n (half size)

theorem splits_iff (n size : Nat) : splits n size ↔ n = 0 ∨ 2 ^ (n + 1) ≤ size + 1 := by
  induction n generalizing size with
  | zero => exact ⟨fun _ => .inl rfl, fun _ => trivial⟩
  | succ n ih =>
    have hpow : 2 ≤ 2 ^ (n + 1) := Nat.le_self_pow (Nat.succ_ne_zero n) 2
    have hdouble : 2 ^ (n + 1 + 1) = 2 * 2 ^ (n + 1) := Nat.pow_succ'
    rw [splits, ih, half, hdouble]
    constructor
    · rintro ⟨hthree, rfl | hhalf⟩
      · exact .inr (by omega)
      · exact .inr (by omega)
    · rintro (h | h)
      · cases h
      · refine ⟨by omega, ?_⟩
        exact .inr (by omega)

/-! ## Replies are read back -/

theorem digitsNum_toDigits (n : Nat) : digitsNum (Nat.toDigits 10 n) = some n := by
  have hdigits : (Nat.toDigits 10 n).all Char.isDigit = true :=
    List.all_eq_true.mpr isDigit_toDigits
  rw [digitsNum, if_pos ⟨Nat.toDigits_ne_nil, hdigits⟩, natOfDigits_toDigits]

theorem plain_cons {c : Char} (hc : 0x20 < c.toNat ∧ c.toNat < 0x7f) (n : Nat) :
    Plain (c :: Nat.toDigits 10 n) :=
  List.forall_mem_cons.mpr ⟨hc, plain_toDigits n⟩

theorem tmuxNum_windowId (n : Nat) : tmuxNum ('@' :: Nat.toDigits 10 n) = some n := by
  have htrim : trim ('@' :: Nat.toDigits 10 n) = '@' :: Nat.toDigits 10 n :=
    (plain_cons (by decide) n).trimmed
  rw [tmuxNum, htrim]
  exact digitsNum_toDigits n

theorem parseDims_dims (cols rows : Nat) :
    parseDims (Nat.toDigits 10 cols ++ 'x' :: Nat.toDigits 10 rows) = some (cols, rows) := by
  have hplain : Plain (Nat.toDigits 10 cols ++ 'x' :: Nat.toDigits 10 rows) :=
    List.forall_mem_append.mpr ⟨plain_toDigits cols, plain_cons (by decide) rows⟩
  have hspan : (Nat.toDigits 10 cols ++ 'x' :: Nat.toDigits 10 rows).span (· ≠ 'x') =
      (Nat.toDigits 10 cols, 'x' :: Nat.toDigits 10 rows) := by
    have hdigits : ∀ c ∈ Nat.toDigits 10 cols, decide (c ≠ 'x') = true := by
      intro c hc
      have hdigit := isDigit_toDigits c hc
      rw [decide_eq_true_iff]
      rintro rfl
      exact absurd hdigit (by decide)
    rw [List.span_eq_takeWhile_dropWhile, List.takeWhile_append_of_pos hdigits,
      List.dropWhile_append_of_pos hdigits]
    simp
  rw [parseDims, hplain.trimmed, hspan]
  simp only [digitsNum_toDigits]
  rfl

theorem toList_effectIdsText (ids : EffectIds) : (effectIdsText ids).toList =
    '%' :: (Nat.toDigits 10 ids.paneNum ++ ' ' :: '@' :: Nat.toDigits 10 ids.windowNum) := by
  simp [effectIdsText, Nat.toList_repr]

theorem parseEffectIds_effectIdsText (ids : EffectIds) :
    parseEffectIds (effectIdsText ids) = some ids := by
  have hwindow : Plain ('@' :: Nat.toDigits 10 ids.windowNum) := plain_cons (by decide) _
  have hpane : Plain ('%' :: Nat.toDigits 10 ids.paneNum) := plain_cons (by decide) _
  have hline : '\n' ∉ (effectIdsText ids).toList := by
    rw [toList_effectIdsText, ← List.cons_append, List.mem_append]
    rintro (h | h)
    · exact hpane.oneLine h
    · exact hwindow.oneLine ((List.mem_cons.mp h).resolve_left (by decide))
  have htrim : Trimmed (effectIdsText ids).toList := by
    rw [trimmed_iff, toList_effectIdsText]
    refine ⟨by rintro _ ⟨⟩; decide, ?_⟩
    rw [← List.cons_append, List.getLast?_append_of_ne_nil _ (List.cons_ne_nil _ _),
      List.getLast?_cons_cons]
    exact (trimmed_iff.mp hwindow.trimmed).2
  have hspanPane : (Nat.toDigits 10 ids.paneNum ++ ' ' :: '@' :: Nat.toDigits 10 ids.windowNum).span
      Char.isDigit =
        (Nat.toDigits 10 ids.paneNum, ' ' :: '@' :: Nat.toDigits 10 ids.windowNum) := by
    rw [List.span_eq_takeWhile_dropWhile, List.takeWhile_append_of_pos isDigit_toDigits,
      List.dropWhile_append_of_pos isDigit_toDigits]
    simp
  have hspanGap : (' ' :: '@' :: Nat.toDigits 10 ids.windowNum).span isSpace =
      ([' '], '@' :: Nat.toDigits 10 ids.windowNum) := by
    rw [List.span_eq_takeWhile_dropWhile, List.takeWhile_cons_of_pos (by decide),
      List.dropWhile_cons_of_pos (by decide), List.takeWhile_cons_of_neg (by decide),
      List.dropWhile_cons_of_neg (by decide)]
  have hall : (Nat.toDigits 10 ids.windowNum).all Char.isDigit = true :=
    List.all_eq_true.mpr isDigit_toDigits
  have hne : (effectIdsText ids).toList ≠ [] := by
    rw [toList_effectIdsText]
    exact List.cons_ne_nil _ _
  rw [parseEffectIds, List.splitOn_eq_singleton hline, List.map_singleton, htrim,
    List.find?_cons_of_pos (by simpa using hne), Option.bind_some, toList_effectIdsText,
    matchEffectIds]
  simp only [hspanPane, hspanGap]
  rw [if_pos ⟨Nat.toDigits_ne_nil, List.cons_ne_nil _ _, Nat.toDigits_ne_nil, hall⟩,
    natOfDigits_toDigits, natOfDigits_toDigits]

/-- The first line of a reply whose first line is plain. -/
theorem firstLine_trim {line : List Char} (hplain : Plain line) (hne : line ≠ [])
    (rest : List Char) : firstLine (trim (line ++ '\n' :: rest)) = some line := by
  have hspace := trimmed_iff.mp hplain.trimmed
  have hdrop : (line ++ '\n' :: rest).dropWhile isSpace = line ++ '\n' :: rest := by
    rw [dropWhile_eq_self, List.head?_append_of_ne_nil _ hne]
    exact hspace.1
  have hlast : ∃ x ∈ line.getLast?, isSpace x = false :=
    ⟨_, List.getLast?_eq_some_getLast hne, hspace.2 _ (List.getLast?_eq_some_getLast hne)⟩
  rw [trim_eq, hdrop, trimEnd_append_of_last hlast]
  -- What is left behind the line is nothing, or starts with its line break.
  have hfirst : ∀ tail, tail = [] ∨ (∃ t, tail = '\n' :: t) →
      firstLine (line ++ tail) = some line := by
    rintro tail htail
    obtain ⟨others, hsplit⟩ : ∃ others, (line ++ tail).splitOn '\n' = line :: others := by
      rcases htail with rfl | ⟨t, rfl⟩
      · rw [List.append_nil, List.splitOn_eq_singleton hplain.oneLine]
        exact ⟨_, rfl⟩
      · rw [List.splitOn_append_cons_self_of_not_mem hplain.oneLine]
        exact ⟨_, rfl⟩
    rw [firstLine, hsplit, List.map_cons, hplain.trimmed,
      List.find?_cons_of_pos (by simpa using hne)]
  refine hfirst _ ?_
  rcases List.prefix_cons_iff.mp (List.rdropWhile_prefix isSpace ('\n' :: rest)) with
    hnil | ⟨t, ht, -⟩
  · exact .inl hnil
  · exact .inr ⟨t, ht⟩

theorem tmuxText_windowIdsText (window : TmuxWindow) (windows : List TmuxWindow) :
    (firstLine (tmuxText ⟨true, windowIdsText (window :: windows)⟩)).bind tmuxNum =
      some window.windowNum := by
  have htext : (windowIdsText (window :: windows)).toList =
      '@' :: Nat.toDigits 10 window.windowNum ++ '\n' :: (windowIdsText windows).toList := by
    simp [windowIdsText, String.join_cons, Nat.toList_repr]
  rw [tmuxText, htext, firstLine_trim (plain_cons (by decide) _) (List.cons_ne_nil _ _),
    Option.bind_some, tmuxNum_windowId]

theorem parseDims_tmuxText (cols rows : Nat) :
    parseDims (tmuxText ⟨true, cols.repr ++ "x" ++ rows.repr⟩) = some (cols, rows) := by
  have hplain : Plain (Nat.toDigits 10 cols ++ 'x' :: Nat.toDigits 10 rows) :=
    List.forall_mem_append.mpr ⟨plain_toDigits cols, plain_cons (by decide) rows⟩
  have htext : (cols.repr ++ "x" ++ rows.repr).toList =
      Nat.toDigits 10 cols ++ 'x' :: Nat.toDigits 10 rows := by
    simp [Nat.toList_repr]
  rw [tmuxText, htext, hplain.trimmed, parseDims_dims]

/-! ## One command -/

section Exec

variable {σ : Type} (tmuxExec : σ → TmuxCommand → CommandResult × σ)
  (jsonStringify : String → String)

/-- The state after a command. -/
def Applicator.after (s : Applicator σ) (command : TmuxCommand) : Applicator σ :=
  { s with
    tmux := (tmuxExec s.tmux command).2
    log := s.log ++ [⟨command, (tmuxExec s.tmux command).1⟩] }

theorem send_exec (s : Applicator σ) (command : TmuxCommand) :
    Program.Triple (· = s) (send tmuxExec command)
      (fun result t => result = (tmuxExec s.tmux command).1 ∧ t = s.after tmuxExec command)
      (fun _ _ => False) := by
  rintro _ rfl
  exact ⟨rfl, rfl⟩

theorem refuse_stops {α : Type} {P : Applicator σ → Prop} (verb : String) (command : TmuxCommand)
    (result : CommandResult) {Q : α → Applicator σ → Prop} {c : Prop} (hc : c) :
    Program.Triple P (refuse verb command result : Apply σ α) Q (fun _ _ => c) :=
  fun _ _ => hc

theorem run_exec (s : Applicator σ) (verb : String) (command : TmuxCommand) :
    Program.Triple (· = s) (run tmuxExec verb command)
      (fun _ t => (tmuxExec s.tmux command).1.ok = true ∧ t = s.after tmuxExec command)
      (fun _ _ => ¬(tmuxExec s.tmux command).1.ok = true) := by
  refine ((send_exec tmuxExec s command).errors fun _ _ h => h.elim).bind fun result =>
    .of_state fun t ht => .ite (fun hok => ?_) fun hok => refuse_stops _ _ _ (ht.1 ▸ hok)
  rintro _ rfl
  exact ⟨ht.1 ▸ hok, ht.2⟩

theorem query_exec (s : Applicator σ) (verb : String) (command : TmuxCommand) :
    Program.Triple (· = s) (query tmuxExec verb command)
      (fun text t => (tmuxExec s.tmux command).1.ok = true ∧
        text = tmuxText (tmuxExec s.tmux command).1 ∧ t = s.after tmuxExec command)
      (fun _ _ => ¬(tmuxExec s.tmux command).1.ok = true) := by
  refine ((send_exec tmuxExec s command).errors fun _ _ h => h.elim).bind fun result =>
    .of_state fun t ht => .ite (fun hok => ?_) fun hok => refuse_stops _ _ _ (ht.1 ▸ hok)
  rintro _ rfl
  exact ⟨ht.1 ▸ hok, ht.1 ▸ rfl, ht.2⟩

/-- A creating command whose reply, if it is accepted, can be read. -/
theorem runCreating_exec (s : Applicator σ) (verb : String) (command : TmuxCommand)
    {ids : EffectIds} (hids : (tmuxExec s.tmux command).1.ok = true →
      parseEffectIds (tmuxExec s.tmux command).1.body = some ids) :
    Program.Triple (· = s) (runCreating tmuxExec jsonStringify verb command)
      (fun minted t => (tmuxExec s.tmux command).1.ok = true ∧ minted = ids ∧
        t = s.after tmuxExec command)
      (fun _ _ => ¬(tmuxExec s.tmux command).1.ok = true) := by
  refine ((send_exec tmuxExec s command).errors fun _ _ h => h.elim).bind fun result =>
    .of_state fun t ht => .ite (fun hok => ?_) fun hok => refuse_stops _ _ _ (ht.1 ▸ hok)
  obtain ⟨rfl, rfl⟩ := ht
  rw [hids hok]
  rintro _ rfl
  exact ⟨hok, rfl, rfl⟩

end Exec

/-! ## A window is built -/

/-- The window that is being built is the last one: its panes so far, of which `last` is the
newest, and what it is known by to tmux and to the code. -/
structure Building (before : List TmuxWindow) (created : List AppliedWindow) (window : TmuxWindow)
    (firstPane : Nat) (front : List TmuxPane) (last : TmuxPane) (s : Applicator Tmux) : Prop where
  windows : s.tmux.windows = before ++ [{ window with panes := front ++ [last] }]
  created : s.created =
    created ++ [⟨window.windowNum, (front ++ [last]).map TmuxPane.paneNum, window.name⟩]
  front_lt : ∀ pane ∈ front, pane.paneNum < last.paneNum
  before_lt : ∀ w ∈ before, ∀ pane ∈ w.panes, pane.paneNum < firstPane
  first : ∃ pane ∈ front ++ [last], pane.paneNum = firstPane
  first_le : ∀ pane ∈ front ++ [last], firstPane ≤ pane.paneNum
  windowNum : ∀ w ∈ before, w.windowNum < window.windowNum
  nextPane : s.tmux.nextPane = last.paneNum + 1
  nextWindow : s.tmux.nextWindow = window.windowNum + 1
  size : s.tmux.cols = window.cols ∧ s.tmux.rows = window.rows

theorem flatMap_split_ignored {panes : List TmuxPane} {target : Nat}
    (h : ∀ pane ∈ panes, pane.paneNum < target) (orientation : Protocol.SplitDirection)
    (paneNum : Nat) (spec : CompiledPane) :
    (panes.flatMap fun pane =>
      if pane.paneNum = target then pane.split orientation paneNum spec else [pane]) = panes := by
  induction panes with
  | nil => rfl
  | cons pane panes ih =>
    obtain ⟨hpane, hpanes⟩ := List.forall_mem_cons.mp h
    rw [List.flatMap_cons, if_neg hpane.ne, ih hpanes]
    rfl

theorem find?_hasPane {before : List TmuxWindow} {window : TmuxWindow} {paneNum : Nat}
    (hbefore : ∀ w ∈ before, ∀ pane ∈ w.panes, pane.paneNum < paneNum)
    (hwindow : ∃ pane ∈ window.panes, pane.paneNum = paneNum) :
    (before ++ [window]).find? (·.hasPane paneNum) = some window := by
  have hnone : before.find? (·.hasPane paneNum) = none := by
    rw [List.find?_eq_none]
    intro w hw hhas
    obtain ⟨pane, hpane, hnum⟩ := List.any_eq_true.mp hhas
    exact absurd (of_decide_eq_true hnum) (hbefore w hw pane hpane).ne
  have hhas : window.hasPane paneNum = true := by
    obtain ⟨pane, hpane, hnum⟩ := hwindow
    exact List.any_eq_true.mpr ⟨pane, hpane, decide_eq_true hnum⟩
  rw [List.find?_append, hnone, Option.none_or, List.find?_singleton, if_pos hhas]

section Building

variable {accepts : LayoutCheck} {jsonStringify : String → String} {spoiled : Spoiled}
  {before : List TmuxWindow}
  {created : List AppliedWindow} {window : TmuxWindow} {firstPane : Nat} {front : List TmuxPane}
  {last : TmuxPane}

/-- The pane that a split of `last` leaves of it. -/
def TmuxPane.shrunk (pane : TmuxPane) : TmuxPane :=
  { pane with cols := pane.cols - 1 - half pane.cols }

/-- The pane that is split off `last`. -/
def TmuxPane.splitOff (pane : TmuxPane) (spec : CompiledPane) : TmuxPane :=
  { pane with paneNum := pane.paneNum + 1, cols := half pane.cols, spec }

theorem Building.last_lt {s : Applicator Tmux}
    (h : Building before created window firstPane front last s) :
    ∀ w ∈ before, ∀ pane ∈ w.panes, pane.paneNum < last.paneNum := by
  intro w hw pane hpane
  exact (h.before_lt w hw pane hpane).trans_le (h.first_le last (by simp))

/-- The last pane is split exactly if it has three columns. -/
theorem Building.exec_split (accepts : LayoutCheck) {s : Applicator Tmux}
    (h : Building before created window firstPane front last s) (opts : SplitWindowOptions) :
    if 3 ≤ last.cols then
      s.tmux.exec accepts (.splitWindow last.paneNum .horizontal opts) =
        accepted (effectIdsText ⟨last.paneNum + 1, window.windowNum⟩)
          { s.tmux with
            windows := before ++ [{ window with
              panes := front ++ [last.shrunk, last.splitOff
                ⟨opts.startDirectory, opts.shellCommand, opts.env⟩] }]
            nextPane := last.paneNum + 2 }
    else
      (s.tmux.exec accepts (.splitWindow last.paneNum .horizontal opts)).1.ok = false := by
  have hfind : s.tmux.windows.find? (·.hasPane last.paneNum) =
      some { window with panes := front ++ [last] } := by
    rw [h.windows]
    exact find?_hasPane h.last_lt ⟨last, by simp, rfl⟩
  have hsmall : ((front ++ [last]).any fun pane =>
      pane.paneNum = last.paneNum ∧ pane.extent .horizontal < 3) = decide (last.cols < 3) := by
    rw [List.any_append, List.any_eq_false.mpr]
    · simp [TmuxPane.extent]
    · intro pane hpane
      simp [(h.front_lt pane hpane).ne]
  have hwindows : ∀ spec : CompiledPane,
      s.tmux.windows.map (fun w => w.split last.paneNum .horizontal s.tmux.nextPane spec) =
        before ++ [{ window with panes := front ++ [last.shrunk, last.splitOff spec] }] := by
    intro spec
    rw [h.windows, List.map_append, List.map_singleton, h.nextPane]
    congr 1
    · refine (List.map_congr_left fun w hw => ?_).trans (List.map_id _)
      rw [TmuxWindow.split, flatMap_split_ignored (h.last_lt w hw)]
      rfl
    · rw [TmuxWindow.split, List.flatMap_append, flatMap_split_ignored h.front_lt]
      simp [TmuxPane.split, TmuxPane.extent, TmuxPane.withExtent, TmuxPane.shrunk,
        TmuxPane.splitOff]
  rw [Tmux.exec, hfind]
  dsimp only
  rw [hsmall, hwindows, h.nextPane]
  split
  · next hroom => rw [decide_eq_false (Nat.not_lt.mpr hroom)]; rfl
  · next hnarrow => rw [decide_eq_true (Nat.not_le.mp hnarrow)]; rfl

theorem Building.push {s t : Applicator Tmux}
    (h : Building before created window firstPane front last s) (spec : CompiledPane)
    (hcreated : t.created = s.created)
    (htmux : t.tmux = { s.tmux with
      windows := before ++ [{ window with panes := front ++ [last.shrunk, last.splitOff spec] }]
      nextPane := last.paneNum + 2 }) :
    Building before created window firstPane (front ++ [last.shrunk]) (last.splitOff spec)
      (pushPane (last.paneNum + 1) t) := by
  have hnums : (front ++ [last.shrunk] ++ [last.splitOff spec]).map TmuxPane.paneNum =
      (front ++ [last]).map TmuxPane.paneNum ++ [last.paneNum + 1] := by
    simp [TmuxPane.shrunk, TmuxPane.splitOff]
  have hfirst : firstPane ≤ last.paneNum := h.first_le last (by simp)
  refine ⟨?_, ?_, ?_, h.before_lt, ?_, ?_, h.windowNum, ?_, ?_, ?_⟩
  · rw [pushPane, htmux, List.append_assoc]
    rfl
  · rw [pushPane, hcreated, h.created, List.modifyLast_concat, hnums]
  · intro pane hpane
    rcases List.mem_append.mp hpane with hfront | hlast
    · exact (h.front_lt pane hfront).trans (Nat.lt_succ_self _)
    · rw [List.mem_singleton.mp hlast]
      exact Nat.lt_succ_self _
  · obtain ⟨pane, hpane, hnum⟩ := h.first
    rcases List.mem_append.mp hpane with hfront | hlast
    · exact ⟨pane, by simp [hfront], hnum⟩
    · rw [List.mem_singleton.mp hlast] at hnum
      exact ⟨last.shrunk, by simp, hnum⟩
  · intro pane hpane
    rcases List.mem_append.mp hpane with hrest | hnew
    · rcases List.mem_append.mp hrest with hfront | hlast
      · exact h.first_le pane (List.mem_append_left _ hfront)
      · rw [List.mem_singleton.mp hlast]
        exact hfirst
    · rw [List.mem_singleton.mp hnew]
      exact hfirst.trans (Nat.le_succ _)
  · rw [pushPane, htmux]
    rfl
  · rw [pushPane, htmux]
    exact h.nextWindow
  · rw [pushPane, htmux]
    exact h.size

/-- The last pane is split, and the new pane is the last one. -/
theorem Building.split (opts : SplitWindowOptions) :
    Program.Triple (Building before created window firstPane front last)
      (runCreating (Tmux.exec accepts) jsonStringify "split-pane"
        (.splitWindow last.paneNum .horizontal opts))
      (fun ids s => 3 ≤ last.cols ∧ ids.paneNum = last.paneNum + 1 ∧
        Building before created window firstPane (front ++ [last.shrunk])
          (last.splitOff ⟨opts.startDirectory, opts.shellCommand, opts.env⟩)
          (pushPane ids.paneNum s))
      (fun _ _ => ¬3 ≤ last.cols) := by
  refine .of_state fun s h => ?_
  have hexec := h.exec_split accepts opts
  split at hexec
  · next hroom =>
    have hids : (s.tmux.exec accepts (.splitWindow last.paneNum .horizontal opts)).1.ok = true →
        parseEffectIds (s.tmux.exec accepts (.splitWindow last.paneNum .horizontal opts)).1.body =
          some ⟨last.paneNum + 1, window.windowNum⟩ := by
      intro _
      rw [hexec]
      exact parseEffectIds_effectIdsText _
    refine (runCreating_exec _ jsonStringify s "split-pane" _ hids).mono (fun _ h => h) ?_ ?_
    · rintro _ _ ⟨-, rfl, rfl⟩
      refine ⟨hroom, rfl, h.push _ rfl ?_⟩
      rw [Applicator.after, hexec]
      rfl
    · intro e t hok
      rw [hexec] at hok
      exact absurd rfl hok
  · next hnarrow =>
    have hids : (s.tmux.exec accepts (.splitWindow last.paneNum .horizontal opts)).1.ok = true →
        parseEffectIds (s.tmux.exec accepts (.splitWindow last.paneNum .horizontal opts)).1.body =
          some ⟨last.paneNum + 1, window.windowNum⟩ := by
      intro hok
      rw [hexec] at hok
      cases hok
    refine (runCreating_exec _ jsonStringify s "split-pane" _ hids).mono (fun _ h => h) ?_
      fun _ _ _ => hnarrow
    rintro _ _ ⟨hok, -⟩
    rw [hexec] at hok
    cases hok

/-- The panes of a window are split off exactly if there is room for each in turn. -/
theorem Building.splitPanes (panes : List CompiledPane) :
    Program.Triple (Building before created window firstPane front last)
      (splitPanes (Tmux.exec accepts) jsonStringify last.paneNum panes)
      (fun _ s => splits panes.length last.cols ∧ ∃ front' last',
        Building before created window firstPane front' last' s ∧
          (front' ++ [last']).map TmuxPane.spec = (front ++ [last]).map TmuxPane.spec ++ panes)
      (fun _ _ => ¬splits panes.length last.cols) := by
  induction panes generalizing front last with
  | nil =>
    intro s h
    exact ⟨trivial, front, last, h, (List.append_nil _).symm⟩
  | cons pane rest ih =>
    refine Program.Triple.bind ((Building.split (splitWindowOpts pane)).errors
      fun _ _ hnarrow hsplits => hnarrow hsplits.1) fun ids => ?_
    refine .of_state fun s hs => ?_
    obtain ⟨hroom, hnum, h⟩ := hs
    have hrest := @ih (front ++ [last.shrunk]) (last.splitOff pane)
    refine Program.Triple.bind (Program.Triple.modify (Q := fun _ => Building before created window
      firstPane (front ++ [last.shrunk]) (last.splitOff pane)) ?_) fun _ => ?_
    · rintro _ rfl
      exact h
    · rw [hnum]
      refine hrest.mono (fun _ h => h) ?_ fun _ _ hfails hsplits => hfails hsplits.2
      rintro _ t ⟨hsplits, front', last', hbuilding, hspecs⟩
      refine ⟨⟨hroom, hsplits⟩, front', last', hbuilding, ?_⟩
      rw [hspecs]
      simp [TmuxPane.shrunk, TmuxPane.splitOff]

/-! ## Windows are laid out -/

@[simp] theorem map_resize {β : Type} {f : TmuxPane → β}
    (hf : ∀ pane cols rows, f { pane with cols, rows } = f pane) (panes : List TmuxPane)
    (cells : List Geometry) : (resize panes cells).map f = panes.map f := by
  induction panes generalizing cells with
  | nil => cases cells <;> rfl
  | cons pane panes ih =>
    cases cells with
    | nil => rfl
    | cons g gs => rw [resize, List.map_cons, List.map_cons, hf, ih]

/-- The name of a window, and what its panes were created with. -/
def TmuxWindow.content (window : TmuxWindow) : Option String × List CompiledPane :=
  (window.name, window.panes.map TmuxPane.spec)

def CompiledWindow.content (window : CompiledWindow) : Option String × List CompiledPane :=
  (window.name, window.panes)

/-- How the code reports a window. -/
def TmuxWindow.applied (window : TmuxWindow) : AppliedWindow :=
  ⟨window.windowNum, window.panes.map TmuxPane.paneNum, window.name⟩

/-- A layout changes the sizes of panes only. -/
theorem layOut_same (window : TmuxWindow) (layout : List Char) :
    (window.layOut layout).windowNum = window.windowNum ∧
      (window.layOut layout).content = window.content ∧
      (window.layOut layout).applied = window.applied := by
  unfold TmuxWindow.layOut
  split
  · refine ⟨rfl, ?_, ?_⟩
    · simp only [TmuxWindow.content]
      rw [map_resize fun _ _ _ => rfl]
    · simp only [TmuxWindow.applied]
      rw [map_resize fun _ _ _ => rfl]
  · exact ⟨rfl, rfl, rfl⟩

/-- The windows that are done: what tmux has of them, and what the code reports. -/
structure Reached (start : Tmux) (done : List CompiledWindow) (s : Applicator Tmux) : Prop where
  size : s.tmux.cols = start.cols ∧ s.tmux.rows = start.rows
  windows : ∃ built, s.tmux.windows = start.windows ++ built ∧
    built.map TmuxWindow.content = done.map CompiledWindow.content ∧
    s.created = built.map TmuxWindow.applied ∧ ∀ w ∈ built, start.nextWindow ≤ w.windowNum
  panes_lt : ∀ w ∈ s.tmux.windows, ∀ pane ∈ w.panes, pane.paneNum < s.tmux.nextPane
  windows_lt : ∀ w ∈ s.tmux.windows, w.windowNum < s.tmux.nextWindow
  next_le : start.nextWindow ≤ s.tmux.nextWindow

/-- A new window of one pane is begun. -/
theorem Reached.newWindow {start : Tmux} {done : List CompiledWindow} (opts : NewWindowOptions)
    {s : Applicator Tmux} (h : Reached start done s) :
    Program.Triple (· = s)
      (runCreating (Tmux.exec accepts) jsonStringify "open-window" (.newWindow opts))
      (fun ids t => ids = ⟨s.tmux.nextPane, s.tmux.nextWindow⟩ ∧
        Building s.tmux.windows s.created
          ⟨s.tmux.nextWindow, opts.name, start.cols, start.rows, []⟩ s.tmux.nextPane []
          ⟨s.tmux.nextPane, start.cols, start.rows,
            ⟨opts.startDirectory, opts.shellCommand, opts.env⟩⟩ (pushWindow ids opts.name t))
      (fun _ _ => False) := by
  have hids : (s.tmux.exec accepts (.newWindow opts)).1.ok = true →
      parseEffectIds (s.tmux.exec accepts (.newWindow opts)).1.body =
        some ⟨s.tmux.nextPane, s.tmux.nextWindow⟩ := fun _ => parseEffectIds_effectIdsText _
  refine (runCreating_exec _ jsonStringify s "open-window" _ hids).mono (fun _ h => h) ?_
    fun _ _ hok => hok rfl
  rintro _ _ ⟨-, rfl, rfl⟩
  refine ⟨rfl, ?_, rfl, by simp, h.panes_lt, ⟨_, List.mem_singleton_self _, rfl⟩, by simp,
    h.windows_lt, rfl, rfl, h.size⟩
  rw [← h.size.1, ← h.size.2]
  rfl

/-- The window is built, as a window of the name with panes of the specs. -/
def Finished (before : List TmuxWindow) (created : List AppliedWindow) (window : TmuxWindow)
    (firstPane : Nat) (specs : List CompiledPane) (s : Applicator Tmux) : Prop :=
  ∃ w : TmuxWindow, s.tmux.windows = before ++ [w] ∧ s.created = created ++ [w.applied] ∧
    w.content = (window.name, specs) ∧ w.windowNum = window.windowNum ∧
    (∀ n ∈ w.applied.paneNums, n < s.tmux.nextPane) ∧ firstPane ≤ s.tmux.nextPane ∧
    s.tmux.nextWindow = window.windowNum + 1 ∧
    s.tmux.cols = window.cols ∧ s.tmux.rows = window.rows

theorem Building.paneNums_lt {s : Applicator Tmux}
    (h : Building before created window firstPane front last s) :
    ∀ n ∈ (front ++ [last]).map TmuxPane.paneNum, n < s.tmux.nextPane := by
  intro n hn
  obtain ⟨pane, hpane, rfl⟩ := List.mem_map.mp hn
  rw [h.nextPane]
  rcases List.mem_append.mp hpane with hfront | hlast
  · exact (h.front_lt pane hfront).trans (Nat.lt_succ_self _)
  · rw [List.mem_singleton.mp hlast]
    exact Nat.lt_succ_self _

theorem Building.firstPane_le {s : Applicator Tmux}
    (h : Building before created window firstPane front last s) : firstPane ≤ s.tmux.nextPane := by
  rw [h.nextPane]
  exact (h.first_le last (by simp)).trans (Nat.le_succ _)

theorem Building.finished {s : Applicator Tmux}
    (h : Building before created window firstPane front last s) :
    Finished before created window firstPane ((front ++ [last]).map TmuxPane.spec) s :=
  ⟨_, h.windows, h.created, rfl, rfl, h.paneNums_lt, h.firstPane_le, h.nextWindow, h.size⟩

theorem Building.exec_display (accepts : LayoutCheck) {s : Applicator Tmux}
    (h : Building before created window firstPane front last s) :
    s.tmux.exec accepts (.displayWindowSize firstPane) =
      accepted (window.cols.repr ++ "x" ++ window.rows.repr) s.tmux := by
  have hfind : s.tmux.windows.find? (·.hasPane firstPane) =
      some { window with panes := front ++ [last] } := by
    rw [h.windows]
    exact find?_hasPane h.before_lt h.first
  rw [Tmux.exec, hfind]

theorem Building.exec_selectLayout (accepts : LayoutCheck) {s : Applicator Tmux}
    (h : Building before created window firstPane front last s) (layout : List Char) :
    if accepts layout window.cols window.rows (front ++ [last]).length = true then
      s.tmux.exec accepts (.selectLayout window.windowNum layout) =
        accepted "" { s.tmux with
          windows := before ++ [{ window with panes := front ++ [last] }.layOut layout] }
    else (s.tmux.exec accepts (.selectLayout window.windowNum layout)).1.ok = false := by
  have hnone : before.find? (·.windowNum = window.windowNum) = none := by
    rw [List.find?_eq_none]
    intro w hw hnum
    exact absurd (of_decide_eq_true hnum) (h.windowNum w hw).ne
  have hfind : s.tmux.windows.find? (·.windowNum = window.windowNum) =
      some { window with panes := front ++ [last] } := by
    rw [h.windows, List.find?_append, hnone, Option.none_or, List.find?_singleton,
      if_pos (decide_eq_true rfl)]
  have hwindows : s.tmux.windows.map (fun w =>
      if w.windowNum = window.windowNum then w.layOut layout else w) =
        before ++ [{ window with panes := front ++ [last] }.layOut layout] := by
    rw [h.windows, List.map_append, List.map_singleton, if_pos rfl]
    congr 1
    refine (List.map_congr_left fun w hw => ?_).trans (List.map_id _)
    rw [if_neg (h.windowNum w hw).ne]
    rfl
  rw [Tmux.exec, hfind]
  dsimp only
  rw [hwindows]
  split
  · rfl
  · rfl

theorem Building.congr {s t : Applicator Tmux}
    (h : Building before created window firstPane front last s) (htmux : t.tmux = s.tmux)
    (hcreated : t.created = s.created) :
    Building before created window firstPane front last t := by
  refine ⟨?_, ?_, h.front_lt, h.before_lt, h.first, h.first_le, h.windowNum, ?_, ?_, ?_⟩
  · rw [htmux, h.windows]
  · rw [hcreated, h.created]
  · rw [htmux, h.nextPane]
  · rw [htmux, h.nextWindow]
  · rw [htmux]
    exact h.size

/-- The panes are laid out exactly if tmux accepts the layout. -/
theorem Building.selectLayout (layout : List Char) :
    Program.Triple (Building before created window firstPane front last)
      (run (Tmux.exec accepts) "select-layout" (.selectLayout window.windowNum layout))
      (fun _ s => accepts layout window.cols window.rows (front ++ [last]).length = true ∧
        Finished before created window firstPane ((front ++ [last]).map TmuxPane.spec) s)
      (fun _ _ => ¬accepts layout window.cols window.rows (front ++ [last]).length = true) := by
  refine .of_state fun s h => ?_
  have hexec := h.exec_selectLayout accepts layout
  split at hexec
  · next haccepts =>
    refine (run_exec _ s _ _).mono (fun _ h => h) ?_ fun _ _ hok => ?_
    · rintro _ _ ⟨-, rfl⟩
      obtain ⟨hnum, hcontent, happlied⟩ :=
        layOut_same { window with panes := front ++ [last] } layout
      refine ⟨haccepts, _, by rw [Applicator.after, hexec]; rfl, ?_, hcontent, hnum, ?_, ?_, ?_, ?_⟩
      · rw [happlied]
        exact h.created
      · rw [happlied, Applicator.after, hexec]
        exact h.paneNums_lt
      · rw [Applicator.after, hexec]
        exact h.firstPane_le
      · rw [Applicator.after, hexec]
        exact h.nextWindow
      · rw [Applicator.after, hexec]
        exact h.size
    · rw [hexec] at hok
      exact absurd rfl hok
  · next hrefuses =>
    refine (run_exec _ s _ _).mono (fun _ h => h) ?_ fun _ _ _ => hrefuses
    rintro _ _ ⟨hok, -⟩
    rw [hexec] at hok
    cases hok

/-- The layout of the tree is accepted. -/
def AcceptsTree (accepts : LayoutCheck) (spoiled : Spoiled) (geometry : TemplateNode)
    (cols rows panes : Nat) : Prop :=
  ∃ text ∈ layoutText spoiled geometry cols rows, accepts text cols rows panes = true

theorem Building.layOut (geometry : TemplateNode) :
    Program.Triple (Building before created window firstPane front last)
      (layOut (Tmux.exec accepts) jsonStringify spoiled ⟨firstPane, window.windowNum⟩ geometry)
      (fun _ s => AcceptsTree accepts spoiled geometry window.cols window.rows
          (front ++ [last]).length ∧
        Finished before created window firstPane ((front ++ [last]).map TmuxPane.spec) s)
      (fun _ _ => ¬AcceptsTree accepts spoiled geometry window.cols window.rows
          (front ++ [last]).length) := by
  refine .of_state fun s h => ?_
  have hdisplay := h.exec_display accepts
  refine Program.Triple.bind ((query_exec _ s _ _).errors fun _ _ hok => ?_) fun text => ?_
  · rw [hdisplay] at hok
    exact absurd rfl hok
  refine .of_state fun t ht => ?_
  obtain ⟨-, rfl, rfl⟩ := ht
  have hbuilding := h.congr (t := s.after (Tmux.exec accepts) (.displayWindowSize firstPane))
    (by rw [Applicator.after, hdisplay]; rfl) rfl
  rw [hdisplay]
  dsimp only [accepted]
  rw [parseDims_tmuxText]
  dsimp only
  split
  · next hnone =>
    rintro _ -
    rintro ⟨text, htext, -⟩
    rw [hnone] at htext
    cases htext
  · next text htext =>
    have hiff : AcceptsTree accepts spoiled geometry window.cols window.rows
        (front ++ [last]).length ↔
          accepts text window.cols window.rows (front ++ [last]).length = true := by
      simp [AcceptsTree, htext]
    rw [hiff]
    refine (Building.selectLayout _).mono ?_ (fun _ _ h => h) fun _ _ h => h
    rintro _ rfl
    exact hbuilding

/-! ## All windows -/

/-- Every command for the window is accepted, in a session of the size. -/
def FitsCompiled (accepts : LayoutCheck) (spoiled : Spoiled) (cols rows : Nat)
    (window : CompiledWindow) : Prop :=
  splits (window.panes.length - 1) cols ∧
    ∀ geometry ∈ window.geometry,
      AcceptsTree accepts spoiled geometry cols rows window.panes.length

theorem Reached.append {start : Tmux} {done : List CompiledWindow} {s t : Applicator Tmux}
    (h : Reached start done s) {compiled : CompiledWindow}
    (hfinished : Finished s.tmux.windows s.created
      ⟨s.tmux.nextWindow, compiled.name, start.cols, start.rows, []⟩ s.tmux.nextPane
      compiled.panes t) : Reached start (done ++ [compiled]) t := by
  obtain ⟨w, hwindows, hcreated, hcontent, hnum, hpanes, hfirst, hnext, hsize⟩ := hfinished
  obtain ⟨built, hbuilt, hcontents, happlied, hnewer⟩ := h.windows
  refine ⟨hsize, ⟨built ++ [w], ?_, ?_, ?_, ?_⟩, ?_, ?_, ?_⟩
  · rw [hwindows, hbuilt, List.append_assoc]
  · rw [List.map_append, List.map_append, hcontents, List.map_singleton, hcontent]
    rfl
  · rw [hcreated, happlied, List.map_append, List.map_singleton]
  · refine List.forall_mem_append.mpr ⟨hnewer, List.forall_mem_singleton.mpr ?_⟩
    rw [hnum]
    exact h.next_le
  · rw [hwindows]
    refine List.forall_mem_append.mpr ⟨fun w' hw' pane hpane => ?_,
      List.forall_mem_singleton.mpr fun pane hpane => ?_⟩
    · exact (h.panes_lt w' hw' pane hpane).trans_le hfirst
    · exact hpanes _ (List.mem_map_of_mem hpane)
  · rw [hwindows, hnext]
    refine List.forall_mem_append.mpr ⟨fun w' hw' => ?_, List.forall_mem_singleton.mpr ?_⟩
    · exact (h.windows_lt w' hw').trans (Nat.lt_succ_self _)
    · rw [hnum]
      exact Nat.lt_succ_self _
  · rw [hnext]
    exact h.next_le.trans (Nat.le_succ _)

/-- A window is applied exactly if it fits. -/
theorem Reached.applyWindow (start : Tmux) (done : List CompiledWindow) {compiled : CompiledWindow}
    (hpanes : compiled.panes ≠ []) :
    Program.Triple (Reached start done)
      (applyWindow (Tmux.exec accepts) jsonStringify spoiled compiled)
      (fun _ s => FitsCompiled accepts spoiled start.cols start.rows compiled ∧
        Reached start (done ++ [compiled]) s)
      (fun _ _ => ¬FitsCompiled accepts spoiled start.cols start.rows compiled) := by
  refine .of_state fun s h => ?_
  unfold Template.applyWindow
  split
  · next hnil => exact absurd hnil hpanes
  · next first rest hcons =>
    have hcount : compiled.panes.length - 1 = rest.length := by rw [hcons]; rfl
    refine Program.Triple.bind ((h.newWindow (newWindowOpts compiled first)).errors
      fun _ _ h => h.elim) fun ids => .of_state fun t ht => ?_
    obtain ⟨rfl, hbuilding⟩ := ht
    refine Program.Triple.bind (Program.Triple.modify (Q := fun _ => Building s.tmux.windows
      s.created ⟨s.tmux.nextWindow, compiled.name, start.cols, start.rows, []⟩ s.tmux.nextPane []
      ⟨s.tmux.nextPane, start.cols, start.rows, first⟩) ?_) fun _ => ?_
    · rintro _ rfl
      exact hbuilding
    refine Program.Triple.bind ((Building.splitPanes rest).errors fun _ _ hfails hfits => ?_)
      fun _ => .of_state fun u hu => ?_
    · exact hfails (hcount ▸ hfits.1)
    obtain ⟨hsplits, front, last, hbuilding, hspecs⟩ := hu
    have hspecs : (front ++ [last]).map TmuxPane.spec = compiled.panes := by rw [hspecs, hcons]; rfl
    have hlength : (front ++ [last]).length = compiled.panes.length := by
      rw [← hspecs, List.length_map]
    rw [← hcount] at hsplits
    split
    · next hgeometry =>
      rintro _ rfl
      exact ⟨⟨hsplits, by simp [hgeometry]⟩, h.append (hspecs ▸ hbuilding.finished)⟩
    · next geometry hgeometry =>
      have hlayOut := @Building.layOut accepts jsonStringify spoiled s.tmux.windows s.created
        ⟨s.tmux.nextWindow, compiled.name, start.cols, start.rows, []⟩ s.tmux.nextPane front last
        geometry
      refine hlayOut.mono (by rintro _ rfl; exact hbuilding) ?_ ?_
      · rintro _ v ⟨haccepts, hfinished⟩
        rw [hspecs] at hfinished
        rw [hlength] at haccepts
        refine ⟨⟨hsplits, fun other hother => ?_⟩, h.append hfinished⟩
        rw [hgeometry] at hother
        cases hother
        exact haccepts
      · rintro _ _ hrefuses hfits
        rw [hlength] at hrefuses
        exact hrefuses (hfits.2 geometry hgeometry)

theorem Reached.applyWindows {start : Tmux} {windows : List CompiledWindow}
    (hpanes : ∀ w ∈ windows, w.panes ≠ []) :
    Program.Triple (Reached start [])
      (Program.forEach windows (Template.applyWindow (Tmux.exec accepts) jsonStringify spoiled))
      (fun _ s => (∀ w ∈ windows, FitsCompiled accepts spoiled start.cols start.rows w) ∧
        Reached start windows s)
      (fun _ _ => ¬∀ w ∈ windows, FitsCompiled accepts spoiled start.cols start.rows w) := by
  refine (Program.Triple.forEach (I := fun done s =>
    (∀ w ∈ done, FitsCompiled accepts spoiled start.cols start.rows w) ∧ Reached start done s)
    fun done window rest hwindows => .of_state fun s hs => ?_).mono ?_ (fun _ _ h => h)
      fun _ _ h => h
  · have hmem : window ∈ windows := by simp [hwindows]
    refine (Reached.applyWindow start done (hpanes window hmem)).mono ?_ ?_ ?_
    · rintro _ rfl
      exact hs.2
    · rintro _ t ⟨hfits, hreached⟩
      exact ⟨List.forall_mem_append.mpr ⟨hs.1, List.forall_mem_singleton.mpr hfits⟩, hreached⟩
    · exact fun _ _ hfails hall => hfails (hall window hmem)
  · exact fun s h => ⟨by simp, h⟩

end Building

/-! ## The whole application -/

section Apply

variable {accepts : LayoutCheck} {jsonStringify : String → String} {spoiled : Spoiled}

theorem Reached.congr {start : Tmux} {done : List CompiledWindow} {s t : Applicator Tmux}
    (h : Reached start done s) {templateName : Option String}
    (htmux : t.tmux = { s.tmux with template := templateName }) (hcreated : t.created = s.created) :
    Reached start done t := by
  refine ⟨?_, ?_, ?_, ?_, ?_⟩
  · rw [htmux]
    exact h.size
  · rw [htmux, hcreated]
    exact h.windows
  · rw [htmux]
    exact h.panes_lt
  · rw [htmux]
    exact h.windows_lt
  · rw [htmux]
    exact h.next_le

/-- The number of the window that is killed at the end. -/
def initialNum (start : Tmux) (killInitialWindow : Bool) : Option Nat :=
  if killInitialWindow then start.windows.head?.map TmuxWindow.windowNum else none

theorem identifyInitialWindow_exec {start : Tmux} (hstart : start.WellFormed)
    (killInitialWindow : Bool) :
    Program.Triple (· = ⟨start, [], []⟩)
      (identifyInitialWindow (Tmux.exec accepts) killInitialWindow)
      (fun id s => id.bind tmuxNum = initialNum start killInitialWindow ∧ Reached start [] s)
      (fun _ _ => False) := by
  have hreached : Reached start [] ⟨start, [], []⟩ :=
    ⟨⟨rfl, rfl⟩, ⟨[], (List.append_nil _).symm, rfl, rfl, by simp⟩, hstart.panes, hstart.windows,
      le_rfl⟩
  refine .ite (fun hkill => ?_) fun hkill => ?_
  · refine Program.Triple.bind ((query_exec _ _ _ _).errors fun _ _ hok => hok rfl) fun text => ?_
    rintro s ⟨-, rfl, rfl⟩
    refine ⟨?_, hreached.congr rfl rfl⟩
    obtain ⟨first, rest, hwindows⟩ := List.exists_cons_of_ne_nil hstart.nonempty
    rw [initialNum, if_pos hkill, hwindows]
    show (firstLine (tmuxText ⟨true, windowIdsText start.windows⟩)).bind tmuxNum = _
    rw [hwindows, tmuxText_windowIdsText]
    rfl
  · rintro _ rfl
    refine ⟨?_, hreached⟩
    rw [initialNum, if_neg hkill]
    rfl

theorem recordTemplate_exec {start : Tmux} {done : List CompiledWindow} (plan : CompiledTemplate)
    (sessionName : String) :
    Program.Triple (Reached start done) (recordTemplate (Tmux.exec accepts) plan sessionName)
      (fun _ => Reached start done) (fun _ _ => False) := by
  unfold recordTemplate
  split
  · exact fun _ h => h
  · refine .of_state fun s hs => (run_exec _ s _ _).mono (fun _ h => h) ?_ fun _ _ hok => hok rfl
    rintro _ _ ⟨-, rfl⟩
    exact hs.congr rfl rfl

/-- The session has the windows that it had, but for the initial one where it is killed, and the
windows of the template, which are reported. -/
def Created (template : SessionTemplate) (killInitialWindow : Bool) (start : Tmux)
    (windows : List AppliedWindow) (tmux : Tmux) : Prop :=
  ∃ built : List TmuxWindow,
    tmux.windows = (if killInitialWindow then start.windows.tail else start.windows) ++ built ∧
    built.map TmuxWindow.content = template.windows.map WindowTemplate.content ∧
    windows = built.map TmuxWindow.applied

theorem Reached.created {start : Tmux} {windows : List CompiledWindow} {s : Applicator Tmux}
    (h : Reached start windows s) {template : SessionTemplate}
    (hcontents : windows.map CompiledWindow.content =
      template.windows.map WindowTemplate.content) :
    Created template false start s.created s.tmux := by
  obtain ⟨built, hwindows, hbuilt, hcreated, -⟩ := h.windows
  exact ⟨built, hwindows, hbuilt.trans hcontents, hcreated⟩

theorem killInitial_exec {start : Tmux} (hstart : start.WellFormed) {killInitialWindow : Bool}
    {id : Option (List Char)} (hid : id.bind tmuxNum = initialNum start killInitialWindow)
    {windows : List CompiledWindow} {template : SessionTemplate}
    (hcontents : windows.map CompiledWindow.content =
      template.windows.map WindowTemplate.content) :
    Program.Triple (Reached start windows) (killInitial (Tmux.exec accepts) id)
      (fun _ s => Created template killInitialWindow start s.created s.tmux)
      (fun _ _ => False) := by
  obtain ⟨first, rest, hwindows⟩ := List.exists_cons_of_ne_nil hstart.nonempty
  unfold killInitial
  rw [hid, initialNum, hwindows]
  cases killInitialWindow with
  | false => exact fun s h => h.created hcontents
  | true =>
    refine .of_state fun s hs => ?_
    obtain ⟨built, hbuilt, hcontent, hcreated, hnewer⟩ := hs.windows
    rw [hwindows] at hbuilt
    have hany : s.tmux.windows.any (·.windowNum = first.windowNum) = true := by
      rw [hbuilt]
      simp
    -- The window that is killed is no other than the first: ids are distinct, and new ones larger.
    have hothers : ∀ w ∈ rest ++ built, decide (w.windowNum ≠ first.windowNum) = true := by
      have hdistinct := hstart.distinct
      rw [hwindows, List.map_cons, List.nodup_cons] at hdistinct
      intro w hw
      rw [decide_eq_true_iff]
      rcases List.mem_append.mp hw with hrest | hnew
      · intro heq
        exact hdistinct.1 (heq ▸ List.mem_map_of_mem hrest)
      · have hfirst := hstart.windows first (by simp [hwindows])
        exact (hfirst.trans_le (hnewer w hnew)).ne'
    have hexec : s.tmux.exec accepts (.killWindow first.windowNum) =
        accepted "" { s.tmux with windows := rest ++ built } := by
      rw [Tmux.exec, if_pos hany, hbuilt, List.cons_append,
        List.filter_cons_of_neg (by simp), List.filter_eq_self.mpr hothers]
    refine (run_exec _ s _ _).mono (fun _ h => h) ?_ fun _ _ hok => hok (by rw [hexec]; rfl)
    rintro _ _ ⟨-, rfl⟩
    refine ⟨built, ?_, hcontent.trans hcontents, hcreated⟩
    rw [Applicator.after, hexec, hwindows]
    rfl

theorem applyCompiledTemplate_exec (accepts : LayoutCheck) (jsonStringify : String → String)
    (spoiled : Spoiled)
    {start : Tmux} (hstart : start.WellFormed)
    {plan : CompiledTemplate} (hpanes : ∀ w ∈ plan.windows, w.panes ≠ []) (sessionName : String)
    (killInitialWindow : Bool) {template : SessionTemplate}
    (hcontents : plan.windows.map CompiledWindow.content =
      template.windows.map WindowTemplate.content) :
    Program.Triple (· = ⟨start, [], []⟩)
      (applyCompiledTemplate (Tmux.exec accepts) jsonStringify spoiled plan sessionName
        killInitialWindow)
      (fun windows s => (∀ w ∈ plan.windows, FitsCompiled accepts spoiled start.cols start.rows w) ∧
        Created template killInitialWindow start windows s.tmux)
      (fun _ _ => ¬∀ w ∈ plan.windows, FitsCompiled accepts spoiled start.cols start.rows w) := by
  refine Program.Triple.bind ((identifyInitialWindow_exec hstart killInitialWindow).errors
    fun _ _ h => h.elim) fun id => .of_state fun s hs => ?_
  obtain ⟨hid, hreached⟩ := hs
  refine Program.Triple.bind (Program.Triple.mono (recordTemplate_exec plan sessionName)
    (by rintro _ rfl; exact hreached) (fun _ _ h => h) fun _ _ h => h.elim) fun _ => ?_
  refine Program.Triple.bind (Reached.applyWindows hpanes) fun _ => .of_state fun t ht => ?_
  obtain ⟨hfits, hreached⟩ := ht
  refine Program.Triple.bind (Program.Triple.mono (killInitial_exec hstart hid hcontents)
    (by rintro _ rfl; exact hreached) (fun _ _ h => h) fun _ _ h => h.elim) fun _ => ?_
  exact fun u hcreated => ⟨hfits, hcreated⟩

/-- The window of the session can hold every split of the panes of the tree, one after the
other, and the layout is consistent, or accepted even so. -/
def FitsWindow (accepts : LayoutCheck) (spoiled : Spoiled) (cols rows : Nat)
    (geometry : TemplateNode) : Prop :=
  (leaves geometry).length ≤ 1 ∨
    2 ^ (leaves geometry).length ≤ cols + 1 ∧
      (roomy geometry ⟨cols, rows, 0, 0⟩ = true ∨
        AcceptsTree accepts spoiled geometry cols rows (leaves geometry).length)

/-- A layout without a cell that is too small is accepted. -/
theorem accepts_of_roomy (haccepts : accepts.AcceptsConsistent) {geometry : TemplateNode}
    (hsplits : NonEmptySplits geometry) {cols rows : Nat} (hcan : CanHold geometry cols rows)
    (hroomy : roomy geometry ⟨cols, rows, 0, 0⟩ = true) :
    AcceptsTree accepts spoiled geometry cols rows (leaves geometry).length := by
  have hcols : (1 : Int) ≤ minExtent .horizontal geometry := by
    exact_mod_cast one_le_minExtent .horizontal hsplits
  have hrows : (1 : Int) ≤ minExtent .vertical geometry := by
    exact_mod_cast one_le_minExtent .vertical hsplits
  have hwindow : (⟨cols, rows, 0, 0⟩ : Geometry).Positive :=
    ⟨hcols.trans hcan.1, hrows.trans hcan.2⟩
  obtain ⟨root, hroot, htiles, hpositive⟩ := (sound_iff hsplits hwindow).mpr hroomy
  have htext : layoutText spoiled geometry cols rows = some (dumpLayout ⟨0, 0, root⟩) := by
    rw [layoutText, serializeGeometry, hroot]
    rfl
  refine ⟨_, htext, ?_⟩
  rw [← length_leafRects_geometryToCell hsplits hroot]
  exact haccepts ⟨0, 0, root⟩ cols rows htiles hpositive (geometry_of_geometryToCell hroot)

theorem fitsCompiled_iff (haccepts : accepts.AcceptsConsistent) {window : WindowTemplate}
    {compiled : CompiledWindow} (h : CompilesFrom window compiled) {cols rows : Nat}
    (hcan : ∀ geometry ∈ window.geometry, CanHold geometry cols rows) :
    FitsCompiled accepts spoiled cols rows compiled ↔
      ∀ geometry ∈ window.geometry, FitsWindow accepts spoiled cols rows geometry := by
  have hpanes := h.panes
  have hgeometry := h.geometry
  unfold WindowTemplate.content at hpanes
  cases hwindow : window.geometry with
  | none =>
    rw [hwindow] at hpanes hgeometry
    have hlength : compiled.panes.length = 1 := by rw [hpanes]; rfl
    rw [FitsCompiled, hlength, hgeometry]
    simp [splits]
  | some geometry =>
    rw [hwindow] at hpanes hgeometry
    have hlength : compiled.panes.length = (leaves geometry).length := by
      rw [hpanes]
      exact List.length_map _
    have hne : (leaves geometry).length ≠ 0 := by
      rw [← hlength]
      exact fun hzero => h.nonempty (List.length_eq_zero_iff.mp hzero)
    have hsplits := h.splits geometry hwindow
    have haccepted : _ → AcceptsTree accepts spoiled geometry _ _ _ :=
      accepts_of_roomy haccepts hsplits (hcan geometry hwindow)
    rw [FitsCompiled, hlength, hgeometry, hlength, splits_iff,
      Nat.sub_add_cancel (Nat.one_le_iff_ne_zero.mpr hne)]
    simp only [Option.mem_def, Option.some.injEq, forall_eq', FitsWindow]
    by_cases hone : (leaves geometry).length ≤ 1
    · simp [hone, Nat.not_lt.mpr hone]
    · have hmany : 1 < (leaves geometry).length := Nat.not_le.mp hone
      have hsub : (leaves geometry).length - 1 ≠ 0 := Nat.sub_ne_zero_of_lt hmany
      simp only [hmany, if_true, Option.some.injEq, forall_eq', hsub, false_or, hone]
      exact and_congr_right fun _ => ⟨.inr, fun h => h.elim haccepted id⟩

section Compiled

variable {windows : List WindowTemplate} {compiled : List CompiledWindow}

theorem panes_ne_nil (h : List.Forall₂ CompilesFrom windows compiled) :
    ∀ w ∈ compiled, w.panes ≠ [] := by
  induction h with
  | nil => simp
  | cons hfirst _ ih => exact List.forall_mem_cons.mpr ⟨hfirst.nonempty, ih⟩

theorem map_content (h : List.Forall₂ CompilesFrom windows compiled) :
    compiled.map CompiledWindow.content = windows.map WindowTemplate.content := by
  induction h with
  | nil => rfl
  | cons hfirst _ ih =>
    rw [List.map_cons, List.map_cons, ih]
    exact congrArg (· :: _) (Prod.ext hfirst.name hfirst.panes)

theorem fits_iff (haccepts : accepts.AcceptsConsistent)
    (h : List.Forall₂ CompilesFrom windows compiled) {cols rows : Nat}
    (hcan : ∀ window ∈ windows, ∀ geometry ∈ window.geometry, CanHold geometry cols rows) :
    (∀ w ∈ compiled, FitsCompiled accepts spoiled cols rows w) ↔
      ∀ window ∈ windows, ∀ geometry ∈ window.geometry,
        FitsWindow accepts spoiled cols rows geometry := by
  induction h with
  | nil => simp
  | cons hfirst _ ih =>
    obtain ⟨hcanFirst, hcan⟩ := List.forall_mem_cons.mp hcan
    rw [List.forall_mem_cons, List.forall_mem_cons, fitsCompiled_iff haccepts hfirst hcanFirst,
      ih hcan]

end Compiled

/-- Every command is accepted, and the session has exactly the windows of the template in
addition, less the initial one where it is killed. -/
structure Applies (template : SessionTemplate) (killInitialWindow : Bool) (start : Tmux)
    (outcome : Except ApplyError (List AppliedWindow) × Applicator Tmux) : Prop where
  accepted : ∀ exchange ∈ outcome.2.log, exchange.result.ok = true
  created : ∃ windows, outcome.1 = .ok windows ∧
    Created template killInitialWindow start windows outcome.2.tmux

/-- `applyCompiledTemplate`, with nothing sent or created before. -/
def applied {σ : Type} (tmuxExec : σ → TmuxCommand → CommandResult × σ)
    (jsonStringify : String → String) (spoiled : Spoiled) (plan : CompiledTemplate)
    (sessionName : String)
    (killInitialWindow : Bool) (tmux : σ) :
    Except ApplyError (List AppliedWindow) × Applicator σ :=
  applyCompiledTemplate tmuxExec jsonStringify spoiled plan sessionName killInitialWindow
    ⟨tmux, [], []⟩

theorem reports_applied {σ : Type} (tmuxExec : σ → TmuxCommand → CommandResult × σ)
    (jsonStringify : String → String) (spoiled : Spoiled) {plan : CompiledTemplate}
    (hpanes : ∀ window ∈ plan.windows, window.panes ≠ []) (sessionName : String)
    (killInitialWindow : Bool) (tmux : σ) :
    Reports plan killInitialWindow
      (applied tmuxExec jsonStringify spoiled plan sessionName killInitialWindow tmux).2.log
      (applied tmuxExec jsonStringify spoiled plan sessionName killInitialWindow tmux).1 := by
  have hreports := applyCompiledTemplate_reports tmuxExec jsonStringify spoiled hpanes
    sessionName killInitialWindow tmux _ rfl
  rw [applied]
  split at hreports
  · next hrun => rwa [hrun]
  · next hrun => rwa [hrun]

/-- With any tmux, the application stops at the first refusal, reports what has been minted, and
kills only the initial window, after all windows of the template. With a tmux that splits in
halves, nothing is refused and everything is created exactly if each window fits. -/
theorem apply_iff (jsonStringify : String → String) (spoiled : Spoiled) {template : SessionTemplate}
    {plan : CompiledTemplate} (hplan : compileTemplate template = .ok plan) (sessionName : String)
    (killInitialWindow : Bool) (haccepts : accepts.AcceptsConsistent) {start : Tmux}
    (hstart : start.WellFormed)
    (hcan : ∀ window ∈ template.windows, ∀ geometry ∈ window.geometry,
      CanHold geometry start.cols start.rows) :
    (∀ (σ : Type) (tmuxExec : σ → TmuxCommand → CommandResult × σ) (tmux : σ),
      Reports plan killInitialWindow
        (applied tmuxExec jsonStringify spoiled plan sessionName killInitialWindow tmux).2.log
        (applied tmuxExec jsonStringify spoiled plan sessionName killInitialWindow tmux).1) ∧
    (Applies template killInitialWindow start
        (applied (Tmux.exec accepts) jsonStringify spoiled plan sessionName killInitialWindow
          start) ↔
      ∀ window ∈ template.windows, ∀ geometry ∈ window.geometry,
        FitsWindow accepts spoiled start.cols start.rows geometry) := by
  obtain ⟨hcompiles, -⟩ := compileTemplate_ok hplan
  have hpanes := panes_ne_nil hcompiles
  refine ⟨fun σ tmuxExec tmux => reports_applied tmuxExec jsonStringify spoiled hpanes
    sessionName killInitialWindow tmux, ?_⟩
  have hreports := reports_applied (Tmux.exec accepts) jsonStringify spoiled hpanes
    sessionName killInitialWindow start
  have hexec := applyCompiledTemplate_exec accepts jsonStringify spoiled hstart hpanes
    sessionName killInitialWindow (map_content hcompiles) _ rfl
  rw [← fits_iff haccepts hcompiles hcan]
  rw [applied] at hreports ⊢
  split at hexec
  · next windows final hrun =>
    rw [hrun] at hreports ⊢
    refine ⟨fun _ => hexec.1, fun _ => ⟨fun exchange h => ?_, windows, rfl, hexec.2⟩⟩
    exact (hreports.created.1 exchange h).1
  · next e final hrun =>
    rw [hrun]
    refine ⟨fun happlies => ?_, fun hfits => absurd hfits hexec⟩
    obtain ⟨windows, hok, -⟩ := happlies.created
    cases hok

end Apply

/-- A layout of the size of the window, with a cell for each pane. -/
def layoutOfSize : LayoutCheck := fun layout cols rows count =>
  match parseLayout layout with
  | .ok parsed => parsed.root.geometry = ⟨cols, rows, 0, 0⟩ ∧ (leafRects parsed.root).length = count
  | .error _ => false

theorem acceptsConsistent_layoutOfSize : layoutOfSize.AcceptsConsistent := by
  intro layout cols rows htiles hpositive hgeometry
  have hproper := htiles.proper hpositive (by rw [hgeometry]; exact ⟨le_rfl, le_rfl⟩)
  rw [layoutOfSize, parseLayout_dumpLayout hproper]
  exact decide_eq_true ⟨hgeometry, rfl⟩

/-- A server with one session of one window, 80 columns wide and 24 rows high. -/
def oneWindow : Tmux := ⟨80, 24, [⟨0, none, 80, 24, [⟨0, 80, 24, {}⟩]⟩], 1, 1, none⟩

theorem wellFormed_oneWindow : oneWindow.WellFormed :=
  ⟨by simp [oneWindow], by simp [oneWindow], by simp [oneWindow], by simp [oneWindow]⟩

/-- A window of panes one above the other. -/
def stack (panes : Nat) : TemplateNode := .split .vertical (List.replicate panes (.pane {})) none

def stackTemplate (panes : Nat) : SessionTemplate :=
  { name := none, windows := [{ name := none, geometry := some (stack panes) }] }

def stackPlan (panes : Nat) : CompiledTemplate :=
  { windows := [{ panes := List.replicate panes {}, geometry := some (stack panes) }] }

/-- Six panes fit into 80 columns. -/
theorem apply_iff_stack : Applies (stackTemplate 6) true oneWindow
    (applied (Tmux.exec layoutOfSize) id (fun _ _ _ => none) (stackPlan 6) "main" true
      oneWindow) := by
  have hplan : compileTemplate (stackTemplate 6) = .ok (stackPlan 6) := rfl
  have hcan : ∀ window ∈ (stackTemplate 6).windows, ∀ geometry ∈ window.geometry,
      CanHold geometry oneWindow.cols oneWindow.rows := by
    simp only [stackTemplate, List.forall_mem_singleton, Option.mem_some_iff, forall_eq']
    decide
  refine (apply_iff id (fun _ _ _ => none) hplan "main" true acceptsConsistent_layoutOfSize
    wellFormed_oneWindow
    hcan).2.mpr ?_
  simp only [stackTemplate, List.forall_mem_singleton, Option.mem_some_iff, forall_eq']
  exact .inr ⟨by decide, .inl (by decide +kernel)⟩

/-- Seven panes of two rows or more fit into 24 rows, but the sixth split is refused: the pane to
split is one column wide. -/
theorem stack_refused : compileTemplate (stackTemplate 7) = .ok (stackPlan 7) ∧
    layoutOfSize.AcceptsConsistent ∧ oneWindow.WellFormed ∧ CanHold (stack 7) 80 24 ∧
    roomy (stack 7) ⟨80, 24, 0, 0⟩ = true ∧
    ¬Applies (stackTemplate 7) true oneWindow
      (applied (Tmux.exec layoutOfSize) id (fun _ _ _ => none) (stackPlan 7) "main" true
        oneWindow) := by
  refine ⟨rfl, acceptsConsistent_layoutOfSize, wellFormed_oneWindow, by decide, by decide +kernel,
    fun happlies => ?_⟩
  obtain ⟨windows, hok, -⟩ := happlies.created
  have hfails : (applied (Tmux.exec layoutOfSize) id (fun _ _ _ => none) (stackPlan 7) "main" true
      oneWindow).1.isOk = false := by decide +kernel
  rw [hok] at hfails
  cases hfails

end TmuxccDriver.Template
