import Mathlib.Data.Finset.Max
import TmuxccDriver.Parser.LayoutGeometry

/-!
# Freezing a session

`template/freeze.ts` and `template/compile.ts`: the layout of a live window becomes a template
whose weights are the sizes of the cells, and the template a geometry that is laid out again.

Results:
1. `distributeSizes_eq_iff`: when sizes are given back for themselves as weights. `even_of_lt`,
   `le_of_even`: what that means in a window of up to 2^25 cells.
2. `geometryToCell_actualToDesiredNode`, `even_of_leafRects`: when a whole tree is.
3. `collectLeaves_frozen_split`: when a frozen window compiles.
4. `freeze_round_trip_iff`: all of it together.
-/

namespace TmuxccDriver.Template
open TmuxccDriver.Lib TmuxccDriver.Parser

/-! ## Templates -/

structure WindowTemplate where
  name : Option String := none
  geometry : Option TemplateNode := none

structure SessionTemplate where
  name : Option String := none
  windows : List WindowTemplate

/-! ## Freezing -/

structure FreezeWindowData where
  windowId : String
  name : String
  layoutString : String

structure FreezePaneData where
  paneNum : Nat
  windowId : String
  cwd : String

structure FreezeSessionData where
  windows : List FreezeWindowData
  panes : List FreezePaneData

inductive FreezeError
  | unparseable (error : LayoutParseError)
  | noWindows

/-- The spec of a frozen leaf: its working directory, if that is known and not empty. -/
def frozenPane (cwdByPaneNum : Nat → Option String) (paneId : Option Nat) : TemplatePane :=
  { cwd := (paneId.bind cwdByPaneNum).filter (· ≠ "") }

mutual

def actualToDesiredNode (cwdByPaneNum : Nat → Option String) : LayoutCell → TemplateNode
  | .leaf _ paneId => .pane (frozenPane cwdByPaneNum paneId)
  | .split orientation _ children =>
    .split orientation (actualToDesiredNodes cwdByPaneNum children)
      (some (children.map fun cell => (cell.geometry.extent orientation : ℚ)))

def actualToDesiredNodes (cwdByPaneNum : Nat → Option String) : List LayoutCell → List TemplateNode
  | [] => []
  | cell :: cells =>
    actualToDesiredNode cwdByPaneNum cell :: actualToDesiredNodes cwdByPaneNum cells

end

/-- The map that `buildFrozenTemplate` builds: a later row of a pane replaces an earlier one. -/
def cwdByPaneNum (panes : List FreezePaneData) (paneNum : Nat) : Option String :=
  (panes.reverse.find? fun pane => pane.paneNum = paneNum).map FreezePaneData.cwd

/-- One window of `buildFrozenTemplate`. -/
def freezeWindow (cwds : Nat → Option String) (win : FreezeWindowData) :
    Except FreezeError WindowTemplate :=
  match parseLayout win.layoutString.toList with
  | .error e => .error (.unparseable e)
  | .ok parsed =>
    let geometry :=
      match parsed.root with
      | .leaf _ paneId => .pane (frozenPane cwds paneId)
      | .split .. => actualToDesiredNode cwds parsed.root
    .ok { name := if win.name ≠ "" then some win.name else none, geometry := some geometry }

def buildFrozenTemplate (data : FreezeSessionData) (name : Option String) :
    Except FreezeError SessionTemplate := do
  let windows ← data.windows.mapM (freezeWindow (cwdByPaneNum data.panes))
  if windows = [] then throw .noWindows
  return { name, windows }

/-! ## Compiling -/

structure CompiledPane where
  cwd : Option String := none
  shellCommand : Option String := none
  env : Option (List (String × String)) := none
deriving DecidableEq, Repr

structure CompiledWindow where
  name : Option String := none
  panes : List CompiledPane
  geometry : Option TemplateNode := none

structure CompiledTemplate where
  templateName : Option String := none
  windows : List CompiledWindow

/-- `TemplateValidationError`, with the path of the node that its message names. -/
inductive TemplateValidationError
  | noWindows
  | fewChildren (path : String) (count : Nat)
  | sizesLength (path : String) (sizes children : Nat)
  | badWeight (path : String) (index : Nat) (weight : ℚ)
deriving DecidableEq, Repr

/-- A weight is a finite double, and positive. -/
def isWeight (weight : ℚ) : Bool :=
  match Double.ofRat weight with
  | .finite value => decide (0 < value)
  | _ => false

def leafToPane (leaf : TemplatePane) : CompiledPane :=
  { cwd := leaf.cwd, shellCommand := leaf.command, env := leaf.env }

/-- The check of `sizes`. -/
def checkSizes (path : String) (childCount : Nat) (sizes : List ℚ) :
    Except TemplateValidationError Unit :=
  if sizes.length ≠ childCount then .error (.sizesLength path sizes.length childCount)
  else
    match sizes.zipIdx.find? fun weight => !isWeight weight.1 with
    | some (weight, i) => .error (.badWeight path i weight)
    | none => .ok ()

mutual

/-- `collectLeaves`; `out` is what it adds. -/
def collectLeaves (path : String) : TemplateNode →
    Except TemplateValidationError (List TemplatePane)
  | .pane pane => .ok [pane]
  | .split _ children sizes => do
    if children.length < 2 then throw (.fewChildren path children.length)
    match sizes with
    | none => pure ()
    | some sizes => checkSizes path children.length sizes
    collectLeavesOf path 0 children

/-- The children from the `i`-th on. -/
def collectLeavesOf (path : String) (i : Nat) :
    List TemplateNode → Except TemplateValidationError (List TemplatePane)
  | [] => .ok []
  | child :: children => do
    let leaves ← collectLeaves s!"{path}.children[{i}]" child
    let rest ← collectLeavesOf path (i + 1) children
    return leaves ++ rest

end

def compileWindow (window : WindowTemplate) (index : Nat) :
    Except TemplateValidationError CompiledWindow :=
  match window.geometry with
  | none => .ok { name := window.name, panes := [{}] }
  | some geometry => do
    let leaves ← collectLeaves s!"windows[{index}].geometry" geometry
    let panes := leaves.map leafToPane
    return {
      name := window.name, panes, geometry := if panes.length > 1 then some geometry else none }

def compileWindows : List WindowTemplate → Nat →
    Except TemplateValidationError (List CompiledWindow)
  | [], _ => .ok []
  | window :: windows, i => do
    let compiled ← compileWindow window i
    let rest ← compileWindows windows (i + 1)
    return compiled :: rest

def compileTemplate (template : SessionTemplate) :
    Except TemplateValidationError CompiledTemplate :=
  if template.windows.length = 0 then .error .noWindows
  else do
    let windows ← compileWindows template.windows 0
    return { templateName := template.name, windows }

/-! ## Rectangles -/

mutual

/-- The rectangles of the leaves, in depth-first order. -/
def leafRects : LayoutCell → List Geometry
  | .leaf g _ => [g]
  | .split _ _ children => leafRectsOf children

def leafRectsOf : List LayoutCell → List Geometry
  | [] => []
  | cell :: cells => leafRects cell ++ leafRectsOf cells

end

mutual

def eraseIds : LayoutCell → LayoutCell
  | .leaf g _ => .leaf g none
  | .split orientation g children => .split orientation g (eraseIdsOf children)

def eraseIdsOf : List LayoutCell → List LayoutCell
  | [] => []
  | cell :: cells => eraseIds cell :: eraseIdsOf cells

end

/-- Every split has at least two children. -/
inductive TwoChildren : LayoutCell → Prop
  | leaf (g : Geometry) (paneId : Option Nat) : TwoChildren (.leaf g paneId)
  | split (orientation : Orientation) (g : Geometry) {children : List LayoutCell}
      (htwo : 2 ≤ children.length) (hchildren : ∀ child ∈ children, TwoChildren child) :
      TwoChildren (.split orientation g children)

/-- The layout of a whole window that satisfies tmux's layout check. -/
structure WindowLayout (root : LayoutCell) : Prop where
  tiles : Tiles root
  positive : Positive root
  twoChildren : TwoChildren root
  origin : root.geometry.x = 0 ∧ root.geometry.y = 0

/-- The session of one window with the layout. -/
def sessionOf (root : LayoutCell) (panes : List FreezePaneData) (name : String) :
    FreezeSessionData :=
  ⟨[⟨"@1", name, String.ofList (dumpLayout ⟨0, 0, root⟩)⟩], panes⟩

/-- Frozen, compiled and laid out in a window of the same size, the leaves have the same
rectangles; a window of one pane has no geometry to lay out. -/
structure FreezeRoundTrips (root : LayoutCell) (panes : List FreezePaneData) (name : String)
    (template : SessionTemplate) (window : CompiledWindow) : Prop where
  frozen : buildFrozenTemplate (sessionOf root panes name) none = .ok template
  compiled : compileTemplate template = .ok { windows := [window] }
  paneCount : window.panes.length = (leafRects root).length
  geometry : ∀ node ∈ window.geometry,
    ∃ laidOut ∈ geometryToCell node ⟨root.geometry.width, root.geometry.height, 0, 0⟩,
      (∃ text ∈ serializeGeometry node root.geometry.width root.geometry.height, ∃ csum,
        parseLayout text = .ok ⟨csum, csum, laidOut⟩) ∧
      Tiles laidOut ∧ leafRects laidOut = leafRects root

/-! ## Sizes that are given back -/

/-- The weights of a split of whole sizes. -/
def asWeights (sizes : List Int) : List ℚ := sizes.map fun size : Int => (size : ℚ)

/-- What the share of each size lacks of it: the part that the child has from the start. Of exact
shares, a child of average size has one. -/
def headStarts (sizes : List Int) (exact : List ℚ) : List ℚ :=
  List.zipWith (fun (size : Int) x => (size : ℚ) - x) sizes exact

/-- No child has more than two, and none has more than a sibling by one or more, except that it
may have exactly one more if it comes first. -/
structure Fair (starts : List ℚ) : Prop where
  bounds : ∀ start ∈ starts, 0 < start ∧ start ≤ 2
  pairwise : starts.Pairwise fun a b => a ≤ 1 + b ∧ b < 1 + a

instance (starts : List ℚ) : Decidable (Fair starts) :=
  decidable_of_iff (_ ∧ _) ⟨fun h => ⟨h.1, h.2⟩, fun h => ⟨h.bounds, h.pairwise⟩⟩

/-- The shares of the sizes are finite doubles, and what they lack is fair. -/
def Even (sizes : List Int) : Prop :=
  ∃ exact ∈ exactShares sizes.sum (asWeights sizes), Fair (headStarts sizes exact)

instance (sizes : List Int) : Decidable (Even sizes) :=
  inferInstanceAs (Decidable (∃ exact ∈ exactShares sizes.sum (asWeights sizes), _))

section Sizes
variable {sizes : List Int} {exact : List ℚ}

theorem length_headStarts (hlen : exact.length = sizes.length) :
    (headStarts sizes exact).length = sizes.length := by
  rw [headStarts, List.length_zipWith, hlen, Nat.min_self]

theorem getElem_headStarts (hlen : exact.length = sizes.length) {i : Nat} (hi : i < sizes.length)
    (h : i < (headStarts sizes exact).length) :
    (headStarts sizes exact)[i] = sizes[i] - exact[i] :=
  List.getElem_zipWith ..

/-- One child and another one, with their places: the first has not one more, or exactly one more
and comes first. -/
def Precedes (a b : Nat × ℚ) : Prop := a.2 < 1 + b.2 ∨ a.2 = 1 + b.2 ∧ a.1 < b.1

theorem pairwise_iff_precedes {starts : List ℚ} :
    starts.Pairwise (fun a b => a ≤ 1 + b ∧ b < 1 + a) ↔
      ∀ i (hi : i < starts.length) j (hj : j < starts.length),
        Precedes (i, starts[i]) (j, starts[j]) := by
  rw [List.pairwise_iff_getElem]
  constructor
  · intro hpairs i hi j hj
    rcases lt_trichotomy i j with hij | rfl | hji
    · exact (hpairs i j hi hj hij).1.lt_or_eq.imp id fun heq => ⟨heq, hij⟩
    · exact .inl (lt_one_add _)
    · exact .inl (hpairs j i hj hi hji).2
  · intro hall i j hi hj hij
    constructor
    · exact (hall i hi j hj).elim le_of_lt fun h => h.1.le
    · exact (hall j hj i hi).resolve_right fun h => Nat.lt_asymm hij h.2

/-- A share is rounded to one below its size, as the size needs, if at most one is lacking. -/
theorem floor_share_down (size : Int) (x : ℚ) :
    size - 1 = ⌊x⌋ ↔ 0 < size - x ∧ size - x ≤ 1 := by
  rw [eq_comm, Int.floor_eq_iff]
  push_cast
  constructor
  · rintro ⟨hle, hlt⟩
    constructor <;> linarith
  · rintro ⟨hlt, hle⟩
    constructor <;> linarith

theorem floor_share_up (size : Int) (x : ℚ) :
    size - 1 = ⌊x⌋ + 1 ↔ 1 < size - x ∧ size - x ≤ 2 := by
  have hfloor : size - 1 = ⌊x⌋ + 1 ↔ ⌊x⌋ = size - 2 := by omega
  rw [hfloor, Int.floor_eq_iff]
  push_cast
  constructor
  · rintro ⟨hle, hlt⟩
    constructor <;> linarith
  · rintro ⟨hlt, hle⟩
    constructor <;> linarith

theorem roundsUp_iff (hlen : exact.length = sizes.length) {i : Nat} (hi : i < sizes.length) :
    RoundsUp exact (sizes.map (· - 1)) i ↔
      1 < sizes[i] - exact[i] ∧ sizes[i] - exact[i] ≤ 2 := by
  rw [RoundsUp, List.getElem?_map, List.getElem?_map, List.getElem?_eq_getElem hi,
    List.getElem?_eq_getElem (hlen ▸ hi)]
  exact Option.some_inj.trans (floor_share_up _ _)

/-- The sizes are rounded shares exactly if each lacks something, and at most two. -/
theorem rounded_iff (hlen : exact.length = sizes.length) :
    Rounded exact (sizes.map (· - 1)) ↔
      ∀ i (hi : i < sizes.length), 0 < sizes[i] - exact[i] ∧ sizes[i] - exact[i] ≤ 2 := by
  have hdown : ∀ i (hi : i < sizes.length),
      (sizes.map (· - 1))[i]? = (exact.map Int.floor)[i]? ↔
        0 < sizes[i] - exact[i] ∧ sizes[i] - exact[i] ≤ 1 := by
    intro i hi
    rw [List.getElem?_map, List.getElem?_map, List.getElem?_eq_getElem hi,
      List.getElem?_eq_getElem (hlen ▸ hi)]
    exact Option.some_inj.trans (floor_share_down _ _)
  constructor
  · intro hrounded i hi
    rcases hrounded i (hlen ▸ hi) with hfloor | hup
    · obtain ⟨hlt, hle⟩ := (hdown i hi).mp hfloor
      exact ⟨hlt, hle.trans one_le_two⟩
    · obtain ⟨hlt, hle⟩ := (roundsUp_iff hlen hi).mp hup
      exact ⟨zero_lt_one.trans hlt, hle⟩
  · intro hbounds i hi
    rw [hlen] at hi
    obtain ⟨hlt, hle⟩ := hbounds i hi
    exact (le_or_gt _ 1).imp (fun hone => (hdown i hi).mpr ⟨hlt, hone⟩)
      fun hone => (roundsUp_iff hlen hi).mpr ⟨hone, hle⟩

theorem fract_share {size c : Int} {x : ℚ} (hfloor : ⌊x⌋ = size - c) :
    Int.fract x = c - (size - x) := by
  rw [← Int.self_sub_floor, hfloor]
  push_cast
  ring

/-- A child that is rounded up is before another one that is rounded down if it precedes it. -/
theorem before_iff {a b : Int} {x y : ℚ} (i j : Nat) (hup : 1 < a - x ∧ a - x ≤ 2)
    (hdown : 0 < b - y ∧ b - y ≤ 1) :
    Before (i, Int.fract x) (j, Int.fract y) ↔ Precedes (i, a - x) (j, b - y) := by
  have hfloorUp := (floor_share_up a x).mpr hup
  have hfloorDown := (floor_share_down b y).mpr hdown
  rw [fract_share (show ⌊x⌋ = a - 2 by omega), fract_share hfloorDown.symm, Before, Precedes]
  push_cast
  refine or_congr ⟨fun h => by linarith, fun h => by linarith⟩ (and_congr_left fun _ => ?_)
  exact ⟨fun h => by linarith, fun h => by linarith⟩

theorem mem_remainderOrder_iff {a : Nat × ℚ} :
    a ∈ remainderOrder exact ↔ ∃ hi : a.1 < exact.length, a = (a.1, Int.fract exact[a.1]) := by
  rw [mem_remainderOrder]
  constructor
  · intro h
    obtain ⟨x, hx, hfract⟩ := Option.map_eq_some_iff.mp h
    obtain ⟨hi, rfl⟩ := List.getElem?_eq_some_iff.mp hx
    exact ⟨hi, Prod.ext rfl hfract.symm⟩
  · rintro ⟨hi, ha⟩
    rw [List.getElem?_eq_getElem hi, Option.map_some]
    exact congrArg some (congrArg Prod.snd ha).symm

/-- Of children that lack at most two, those rounded up come first exactly if each precedes the
others. -/
theorem before_all_iff (hlen : exact.length = sizes.length)
    (hbounds : ∀ i (hi : i < sizes.length), 0 < sizes[i] - exact[i] ∧ sizes[i] - exact[i] ≤ 2) :
    (∀ a ∈ remainderOrder exact, ∀ b ∈ remainderOrder exact,
        RoundsUp exact (sizes.map (· - 1)) a.1 →
        ¬RoundsUp exact (sizes.map (· - 1)) b.1 → Before a b) ↔
    ∀ i (hi : i < sizes.length) j (hj : j < sizes.length),
      Precedes (i, sizes[i] - exact[i]) (j, sizes[j] - exact[j]) := by
  constructor
  · intro hbefore i hi j hj
    rcases le_or_gt ((sizes[i] : ℚ) - exact[i]) 1 with hsmall | hlarge
    · exact .inl (by linarith [(hbounds j hj).1])
    · rcases le_or_gt ((sizes[j] : ℚ) - exact[j]) 1 with hdown | hup
      · have hmem : ∀ k (hk : k < sizes.length),
            (k, Int.fract exact[k]) ∈ remainderOrder exact := fun k hk =>
          mem_remainderOrder_iff.mpr ⟨hk.trans_eq hlen.symm, rfl⟩
        have hlarge' := And.intro hlarge (hbounds i hi).2
        refine (before_iff i j hlarge' ⟨(hbounds j hj).1, hdown⟩).mp ?_
        exact hbefore _ (hmem i hi) _ (hmem j hj) ((roundsUp_iff hlen hi).mpr hlarge')
          fun hup => absurd ((roundsUp_iff hlen hj).mp hup).1 (not_lt.mpr hdown)
      · exact .inl (by linarith [(hbounds i hi).2])
  · intro hall a ha b hb hup hdown
    obtain ⟨hi, ha⟩ := mem_remainderOrder_iff.mp ha
    obtain ⟨hj, hb⟩ := mem_remainderOrder_iff.mp hb
    rw [hlen] at hi hj
    have hlarge := (roundsUp_iff hlen hi).mp hup
    have hsmall : (sizes[b.1] : ℚ) - exact[b.1] ≤ 1 := by
      by_contra hgt
      exact hdown ((roundsUp_iff hlen hj).mpr ⟨not_le.mp hgt, (hbounds _ hj).2⟩)
    rw [ha, hb]
    exact (before_iff _ _ hlarge ⟨(hbounds _ hj).1, hsmall⟩).mpr (hall _ hi _ hj)

theorem map_sub_one_map_one_add (sizes : List Int) : (sizes.map (· - 1)).map (1 + ·) = sizes := by
  rw [List.map_map]
  exact (List.map_congr_left fun size _ => add_sub_cancel 1 size).trans (List.map_id _)

theorem sum_map_sub_one (sizes : List Int) :
    (sizes.map (· - 1)).sum = sizes.sum - sizes.length := by
  have hsum := sum_map_add (sizes.map (· - 1))
  rw [map_sub_one_map_one_add, List.length_map] at hsum
  omega

/-- Shares are rounded to their sizes exactly if what they lack is fair. -/
theorem largestRemainder_eq_sizes_iff (hlen : exact.length = sizes.length) :
    largestRemainder exact (sizes.sum - sizes.length) = sizes.map (· - 1) ↔
      Fair (headStarts sizes exact) := by
  have hlenStarts := length_headStarts hlen
  have hbounds : (∀ start ∈ headStarts sizes exact, 0 < start ∧ start ≤ 2) ↔
      ∀ i (hi : i < sizes.length), 0 < sizes[i] - exact[i] ∧ sizes[i] - exact[i] ≤ 2 := by
    rw [List.forall_mem_iff_getElem]
    refine ⟨fun h i hi => ?_, fun h i hi => ?_⟩
    · rw [← getElem_headStarts hlen hi (hlenStarts ▸ hi)]
      exact h i _
    · rw [getElem_headStarts hlen (hlenStarts ▸ hi) hi]
      exact h i _
  have hprecedes : (∀ i (hi : i < (headStarts sizes exact).length)
      j (hj : j < (headStarts sizes exact).length),
        Precedes (i, (headStarts sizes exact)[i]) (j, (headStarts sizes exact)[j])) ↔
      ∀ i (hi : i < sizes.length) j (hj : j < sizes.length),
        Precedes (i, sizes[i] - exact[i]) (j, sizes[j] - exact[j]) := by
    refine ⟨fun h i hi j hj => ?_, fun h i hi j hj => ?_⟩
    · rw [← getElem_headStarts hlen hi (hlenStarts ▸ hi),
        ← getElem_headStarts hlen hj (hlenStarts ▸ hj)]
      exact h i _ j _
    · rw [getElem_headStarts hlen (hlenStarts ▸ hi) hi,
        getElem_headStarts hlen (hlenStarts ▸ hj) hj]
      exact h i _ j _
  rw [largestRemainder_eq_iff (by rw [List.length_map, hlen]) (sum_map_sub_one sizes),
    rounded_iff hlen]
  constructor
  · rintro ⟨hall, hbefore⟩
    exact ⟨hbounds.mpr hall, pairwise_iff_precedes.mpr
      (hprecedes.mpr ((before_all_iff hlen hall).mp hbefore))⟩
  · rintro ⟨hall, hpairs⟩
    have hall := hbounds.mp hall
    exact ⟨hall, (before_all_iff hlen hall).mpr (hprecedes.mp (pairwise_iff_precedes.mp hpairs))⟩

/-- Sizes that are weights are given back exactly if they are even. -/
theorem distributeSizes_eq_iff (htwo : 2 ≤ sizes.length) (hpos : ∀ size ∈ sizes, 1 ≤ size) :
    distributeSizes sizes.sum (asWeights sizes) = some sizes ↔ Even sizes := by
  have hlenWeights : (asWeights sizes).length = sizes.length := List.length_map _
  have hle := List.card_nsmul_le_sum sizes 1 hpos
  rw [nsmul_eq_mul, mul_one] at hle
  have hinj : Function.Injective (List.map fun size : Int => 1 + size) :=
    List.map_injective_iff.mpr (add_right_injective 1)
  cases hexact : exactShares sizes.sum (asWeights sizes) with
  | none =>
    rw [distributeSizes, if_neg (by omega), if_neg (by omega), if_neg (by omega), hexact, Even,
      hexact]
    simp
  | some exact =>
    have hlen : exact.length = sizes.length := (length_exactShares hexact).trans hlenWeights
    have hparts := largestRemainder_eq_sizes_iff hlen
    rw [distributeSizes_eq (by omega) (by omega) hexact, hlenWeights]
    have heven : Even sizes ↔ Fair (headStarts sizes exact) := by simp [Even, hexact]
    rw [heven, ← hparts]
    constructor
    · intro h
      obtain ⟨-, hsome⟩ := Option.ite_none_left_eq_some.mp h
      exact hinj ((Option.some.inj hsome).trans (map_sub_one_map_one_add sizes).symm)
    · intro h
      have happortions : Apportions exact (sizes.sum - sizes.length) := by
        refine sum_largestRemainder_iff.mp ?_
        rw [h, sum_map_sub_one]
      have hge := happortions.ge
      rw [if_neg (by omega), h, map_sub_one_map_one_add]

/-! ### In a window of up to 2^25 cells -/

/-- What an exact share lacks: a child of average size lacks one. -/
def headStart (sizes : List Int) (size : Int) : ℚ := sizes.length * size / sizes.sum

/-- The sizes of two children or more in a window of up to 2^25 cells. -/
structure SmallSplit (sizes : List Int) : Prop where
  two : 2 ≤ sizes.length
  pos : ∀ size ∈ sizes, 1 ≤ size
  small : sizes.sum ≤ 2 ^ 25

/-- A natural number is its own weight. -/
theorem weights_natCast {sizes : List ℕ} (hpos : ∀ size ∈ sizes, 0 < size)
    (hsum : sizes.sum < 2 ^ 53) :
    ((asWeights (sizes.map ((↑) : ℕ → ℤ))).map fun w => Double.finite (normWeight w)) =
      sizes.map fun size : ℕ => Double.finite size := by
  rw [asWeights, List.map_map, List.map_map]
  refine List.map_congr_left fun size hsize => ?_
  have hnorm : normWeight size = size := by
    rw [normWeight, Double.ofRat_natCast ((List.le_sum_of_mem hsize).trans_lt hsum)]
    exact if_pos (by exact_mod_cast hpos size hsize)
  simpa using hnorm

/-- One share: the product is exact, and only the quotient is rounded. -/
theorem share_natCast {n sum size : ℕ} (hn : n ≤ sum) (hpos : 0 < size) (hle : size ≤ sum)
    (hsmall : sum ≤ 2 ^ 25) :
    Double.ofRat ((sum - n : ℕ) : ℚ) * Double.finite size / Double.finite sum =
      Double.finite (nearest (size - n * size / sum)) := by
  have hproduct : (sum - n) * size < 2 ^ 53 :=
    (Nat.mul_le_mul (show _ ≤ 2 ^ 25 by omega) (show _ ≤ 2 ^ 25 by omega)).trans_lt (by norm_num)
  have hsumQ : (sum : ℚ) ≠ 0 := by exact_mod_cast (by omega : sum ≠ 0)
  have hshare : (((sum - n) * size : ℕ) : ℚ) / sum = size - n * size / sum := by
    rw [Nat.cast_mul, Nat.cast_sub hn]
    field_simp
  have hnonneg : (0 : ℚ) ≤ (((sum - n) * size : ℕ) : ℚ) / sum := by positivity
  have hbound : (((sum - n) * size : ℕ) : ℚ) / sum ≤ 2 ^ 25 := by
    have hstart : (0 : ℚ) ≤ n * size / sum := by positivity
    have hsizeQ : (size : ℚ) ≤ 2 ^ 25 := by exact_mod_cast hle.trans hsmall
    rw [hshare]
    linarith
  rw [Double.ofRat_natCast (by omega), Double.finite_mul_finite, ← Nat.cast_mul,
    Double.ofRat_natCast hproduct, Double.finite_div_finite hsumQ,
    Double.ofRat_eq_finite (Double.nearest_lt_limit hnonneg hbound), hshare]

/-- The shares are off by one rounding only. -/
theorem exactShares_of_small (h : SmallSplit sizes) :
    exactShares sizes.sum (asWeights sizes) =
      some (sizes.map fun size => nearest (size - headStart sizes size)) := by
  obtain ⟨htwo, hpos, hsmall⟩ := h
  lift sizes to List ℕ using fun size hsize => by linarith [hpos size hsize]
  have hsum : (sizes.map ((↑) : ℕ → ℤ)).sum = (sizes.sum : ℤ) :=
    (map_list_sum (Nat.castRingHom ℤ) sizes).symm
  have hlen : (asWeights (sizes.map ((↑) : ℕ → ℤ))).length = sizes.length := by simp [asWeights]
  have hle := List.card_nsmul_le_sum _ 1 hpos
  simp only [List.length_map, nsmul_eq_mul, mul_one] at hle htwo
  rw [hsum] at hle hsmall
  have hmem : ∀ size ∈ sizes, 0 < size := fun size hsize => by
    exact_mod_cast hpos size (List.mem_map_of_mem hsize)
  have hsumPos : (Double.finite (sizes.sum : ℚ)).isPos = true := by
    simp only [Double.isPos, decide_eq_true_iff]
    exact_mod_cast (by omega : 0 < sizes.sum)
  have hremaining :
      ((sizes.sum : ℤ) - sizes.length : ℤ) = (sizes.sum - sizes.length : ℕ) := by omega
  simp only [exactShares, hlen, hsum, weights_natCast hmem (by omega),
    Double.sum_natCast (by omega : sizes.sum < 2 ^ 53), if_pos hsumPos, hremaining,
    Double.mapM_finite?_eq_some, List.map_map]
  refine List.map_congr_left fun size hsize => ?_
  simp only [Function.comp_apply, headStart, hsum, List.length_map, Int.cast_natCast]
  exact share_natCast (by omega) (hmem size hsize) (List.le_sum_of_mem hsize) (by omega)

theorem SmallSplit.length_le_sum (h : SmallSplit sizes) : sizes.length ≤ sizes.sum := by
  have hle := List.card_nsmul_le_sum sizes 1 h.pos
  rwa [nsmul_eq_mul, mul_one] at hle

theorem SmallSplit.sum_pos (h : SmallSplit sizes) : (0 : ℚ) < sizes.sum := by
  have hle := h.length_le_sum
  have htwo := h.two
  exact_mod_cast (by omega : 0 < sizes.sum)

theorem SmallSplit.inv_le (h : SmallSplit sizes) : 1 / 2 ^ 25 ≤ 1 / (sizes.sum : ℚ) :=
  one_div_le_one_div_of_le h.sum_pos (by exact_mod_cast h.small)

theorem headStart_bounds (h : SmallSplit sizes) {size : Int} (hsize : size ∈ sizes) :
    1 / 2 ^ 25 ≤ headStart sizes size ∧ 0 ≤ size - headStart sizes size ∧
      size - headStart sizes size ≤ 2 ^ 25 := by
  have hsum := h.sum_pos
  have hone : (1 : ℚ) ≤ size := by exact_mod_cast h.pos size hsize
  have hmax : (size : ℚ) ≤ sizes.sum := by
    exact_mod_cast List.single_le_sum (fun a ha => zero_le_one.trans (h.pos a ha)) size hsize
  have hlen : (1 : ℚ) ≤ sizes.length := by exact_mod_cast one_le_two.trans h.two
  have hlenSum : (sizes.length : ℚ) ≤ sizes.sum := by exact_mod_cast h.length_le_sum
  have hsmall : (sizes.sum : ℚ) ≤ 2 ^ 25 := by exact_mod_cast h.small
  have hlow : 1 / (sizes.sum : ℚ) ≤ headStart sizes size :=
    div_le_div_of_nonneg_right (by nlinarith) hsum.le
  have hhigh : headStart sizes size ≤ size := by
    rw [headStart, div_le_iff₀ hsum, mul_comm]
    exact mul_le_mul_of_nonneg_left hlenSum (zero_le_one.trans hone)
  have hinv := h.inv_le
  have hpos : (0 : ℚ) < 1 / 2 ^ 25 := by norm_num
  exact ⟨hinv.trans hlow, by linarith, by linarith⟩

/-- What a rounded share lacks is nearly what the exact one does. -/
theorem abs_lack_sub_headStart_le (h : SmallSplit sizes) {size : Int} (hsize : size ∈ sizes) :
    |size - nearest (size - headStart sizes size) - headStart sizes size| ≤ 1 / 2 ^ 28 := by
  obtain ⟨-, hnonneg, hbound⟩ := headStart_bounds h hsize
  have hdist := abs_nearest_sub_le_of_le hnonneg hbound
  rw [abs_sub_comm] at hdist
  convert hdist using 2
  ring

theorem even_iff_of_small (h : SmallSplit sizes) : Even sizes ↔
    Fair (sizes.map fun size => size - nearest (size - headStart sizes size)) := by
  rw [Even, exactShares_of_small h]
  simp [headStarts, List.zipWith_map_right, List.zipWith_self]

/-- The head starts of whole sizes differ from one by a whole number of parts. -/
theorem headStart_lt_iff (h : SmallSplit sizes) (a b : Int) :
    (sizes.length * a < sizes.sum + sizes.length * b →
      headStart sizes a + 1 / 2 ^ 25 ≤ 1 + headStart sizes b) ∧
    (sizes.sum + sizes.length * b < sizes.length * a →
      1 + headStart sizes b + 1 / 2 ^ 25 ≤ headStart sizes a) := by
  have hsum := h.sum_pos
  have hinv := h.inv_le
  have hone : 1 + headStart sizes b = (sizes.sum + sizes.length * b) / sizes.sum := by
    rw [headStart, add_div, div_self hsum.ne']
  rw [hone]
  constructor
  · intro hlt
    have hle : (sizes.length * a + 1 : ℚ) ≤ sizes.sum + sizes.length * b := by
      exact_mod_cast Int.add_one_le_of_lt hlt
    have hdiv := div_le_div_of_nonneg_right hle hsum.le
    rw [add_div] at hdiv
    rw [headStart]
    linarith
  · intro hlt
    have hle : (sizes.sum + sizes.length * b + 1 : ℚ) ≤ sizes.length * a := by
      exact_mod_cast Int.add_one_le_of_lt hlt
    have hdiv := div_le_div_of_nonneg_right hle hsum.le
    rw [add_div] at hdiv
    rw [headStart]
    linarith

/-- The smallest child is at most average. -/
theorem exists_headStart_le_one (h : SmallSplit sizes) :
    ∃ size ∈ sizes, headStart sizes size ≤ 1 := by
  have hne : sizes ≠ [] := List.length_pos_iff.mp (by have := h.two; omega)
  obtain ⟨size, hsize, hmin⟩ := sizes.toFinset.exists_min_image id
    (List.toFinset_nonempty_iff sizes |>.mpr hne)
  have hle := List.card_nsmul_le_sum sizes size fun other hother =>
    hmin other (List.mem_toFinset.mpr hother)
  refine ⟨size, List.mem_toFinset.mp hsize, ?_⟩
  rw [nsmul_eq_mul] at hle
  rw [headStart, div_le_one h.sum_pos]
  exact_mod_cast hle

/-- Children are given back if none is larger than a sibling by the average child or more. -/
theorem even_of_lt (h : SmallSplit sizes)
    (hlt : ∀ a ∈ sizes, ∀ b ∈ sizes, sizes.length * a < sizes.sum + sizes.length * b) :
    Even sizes := by
  have hclose : ∀ a ∈ sizes, ∀ b ∈ sizes, headStart sizes a + 1 / 2 ^ 25 ≤ 1 + headStart sizes b :=
    fun a ha b hb => (headStart_lt_iff h a b).1 (hlt a ha b hb)
  obtain ⟨least, hleast, hone⟩ := exists_headStart_le_one h
  refine (even_iff_of_small h).mpr ⟨?_, ?_⟩
  · intro start hstart
    obtain ⟨size, hsize, rfl⟩ := List.mem_map.mp hstart
    have hdist := abs_le.mp (abs_lack_sub_headStart_le h hsize)
    have hlow := (headStart_bounds h hsize).1
    have hhigh := hclose size hsize least hleast
    constructor <;> linarith [hdist.1, hdist.2]
  · rw [List.pairwise_map]
    refine List.pairwise_of_forall_mem_list fun a ha b hb => ?_
    have hdistA := abs_le.mp (abs_lack_sub_headStart_le h ha)
    have hdistB := abs_le.mp (abs_lack_sub_headStart_le h hb)
    have hab := hclose a ha b hb
    have hba := hclose b hb a ha
    constructor <;> linarith [hdistA.1, hdistA.2, hdistB.1, hdistB.2]

/-- They are not if one is larger than a sibling by more than that. -/
theorem le_of_even (h : SmallSplit sizes) (heven : Even sizes) :
    ∀ a ∈ sizes, ∀ b ∈ sizes, sizes.length * a ≤ sizes.sum + sizes.length * b := by
  intro a ha b hb
  by_contra hlt
  have hfar := (headStart_lt_iff h a b).2 (not_le.mp hlt)
  have hpairs := ((even_iff_of_small h).mp heven).pairwise
  rw [List.pairwise_map] at hpairs
  -- whichever of the two comes first
  have hle := (hpairs.imp And.left).forall_of_forall_of_flip (fun x _ => by linarith)
    (hpairs.imp fun hab => hab.2.le) ha hb
  have hdistA := abs_le.mp (abs_lack_sub_headStart_le h ha)
  have hdistB := abs_le.mp (abs_lack_sub_headStart_le h hb)
  linarith [hdistA.1, hdistB.2]

-- In between, the doubles decide: 35 is larger than 11 by exactly the average.
example : distributeSizes 72 (asWeights [26, 35, 11]) = some [26, 34, 12] := by decide +kernel

end Sizes

/-! ## Trees that are given back -/

/-- At every split, the sizes of the children are weights of a template, and even. -/
inductive EvenSplits : LayoutCell → Prop
  | leaf (g : Geometry) (paneId : Option Nat) : EvenSplits (.leaf g paneId)
  | split {orientation : Orientation} (g : Geometry) {children : List LayoutCell}
      (hweights :
        ∀ weight ∈ asWeights (children.map fun child => child.geometry.extent orientation),
        isWeight weight = true)
      (heven : Even (children.map fun child => child.geometry.extent orientation))
      (hchildren : ∀ child ∈ children, EvenSplits child) :
      EvenSplits (.split orientation g children)

section Trees
variable {cwds : Nat → Option String}

@[simp] theorem length_actualToDesiredNodes (cells : List LayoutCell) :
    (actualToDesiredNodes cwds cells).length = cells.length := by
  induction cells with
  | nil => rfl
  | cons cell cells ih => rw [actualToDesiredNodes, List.length_cons, ih, List.length_cons]

theorem map_cast_extent (orientation : Orientation) (children : List LayoutCell) :
    children.map (fun child => (child.geometry.extent orientation : ℚ)) =
      asWeights (children.map fun child => child.geometry.extent orientation) := by
  rw [asWeights, List.map_map]
  rfl

/-- A frozen split, laid out in some extent, is given its own sizes as weights. -/
theorem geometryToCell_frozen_split {orientation : Orientation} {g g' : Geometry}
    {children : List LayoutCell} {root : LayoutCell} :
    geometryToCell (actualToDesiredNode cwds (.split orientation g children)) g' = some root ↔
      ∃ extents cells, distributeSizes (g'.extent orientation - (children.length - 1))
          (asWeights (children.map fun child => child.geometry.extent orientation)) = some extents ∧
        placeChildren orientation g' (actualToDesiredNodes cwds children) extents
          (g'.offset orientation) = some cells ∧
        root = .split orientation g' cells := by
  rw [actualToDesiredNode, geometryToCell_split_eq_some, length_actualToDesiredNodes, weightsFor,
    if_neg (by simp), map_cast_extent]

/-- Where each child stands at its own offset with its own size, it is laid out as itself. -/
theorem placeChildren_self {orientation : Orientation} {g : Geometry} {cells : List LayoutCell}
    {offset : Int} (hcontiguous : Contiguous orientation g offset cells)
    (h : ∀ cell ∈ cells,
      geometryToCell (actualToDesiredNode cwds cell) cell.geometry = some (eraseIds cell)) :
    placeChildren orientation g (actualToDesiredNodes cwds cells)
      (cells.map fun cell => cell.geometry.extent orientation) offset =
        some (eraseIdsOf cells) := by
  induction cells generalizing offset with
  | nil => rfl
  | cons cell cells ih =>
    obtain ⟨hcell, hcells⟩ := hcontiguous
    refine placeChildren_cons_eq_some.mpr ⟨eraseIds cell, eraseIdsOf cells, ?_, ?_, rfl⟩
    · rw [← hcell]
      exact h cell List.mem_cons_self
    · exact ih hcells fun c hc => h c (List.mem_cons_of_mem _ hc)

/-- The extents of the children, with the separators, fill the split. -/
theorem sum_extents_of_tiles {orientation : Orientation} {g : Geometry} {children : List LayoutCell}
    (h : Tiles (.split orientation g children)) :
    g.extent orientation - (children.length - 1) =
      (children.map fun child => child.geometry.extent orientation).sum := by
  cases h with
  | split _ _ _ hsum => omega

theorem one_le_extents {orientation : Orientation} {children : List LayoutCell}
    (hpos : ∀ child ∈ children, Positive child) :
    ∀ size ∈ children.map fun child => child.geometry.extent orientation, 1 ≤ size := by
  intro size hsize
  obtain ⟨child, hchild, rfl⟩ := List.mem_map.mp hsize
  exact (hpos child hchild).geometry.extent orientation

/-- A tree whose splits are even is laid out as itself. -/
theorem geometryToCell_actualToDesiredNode {cell : LayoutCell} (htiles : Tiles cell)
    (hpos : Positive cell) (htwo : TwoChildren cell) (heven : EvenSplits cell) :
    geometryToCell (actualToDesiredNode cwds cell) cell.geometry = some (eraseIds cell) := by
  induction htiles with
  | leaf g paneId => rfl
  | @split orientation g children hne hchildren hcontiguous hsum ih =>
    cases hpos with | split hg _ hpos => ?_
    cases htwo with | split _ _ htwo htwos => ?_
    cases heven with | split _ _ heven hevens => ?_
    have htiles : Tiles (.split orientation g children) := .split hne hchildren hcontiguous hsum
    refine geometryToCell_frozen_split.mpr ⟨_, eraseIdsOf children, ?_,
      placeChildren_self hcontiguous fun child hchild => ih child hchild (hpos child hchild)
        (htwos child hchild) (hevens child hchild), rfl⟩
    change distributeSizes (g.extent orientation - _) _ = _
    rw [sum_extents_of_tiles htiles]
    exact (distributeSizes_eq_iff (by rwa [List.length_map]) (one_le_extents hpos)).mpr heven

/-! ## Leaves -/

/-- The first leaf has the near corner of a rectangle, and the last one the far corner. -/
structure Corners (leaves : List Geometry) (g : Geometry) : Prop where
  first : ∃ first ∈ leaves.head?, first.x = g.x ∧ first.y = g.y
  last : ∃ last ∈ leaves.getLast?, last.x + last.width = g.x + g.width ∧
    last.y + last.height = g.y + g.height

theorem Corners.append {orientation : Orientation} {g : Geometry} {offset a b : Int}
    {leaves others : List Geometry} (h : Corners leaves (g.child orientation offset a))
    (h' : Corners others (g.child orientation (offset + a + 1) b)) :
    Corners (leaves ++ others) (g.child orientation offset (a + (b + 1))) := by
  obtain ⟨first, hfirst, hx, hy⟩ := h.first
  obtain ⟨last, hlast, hright, hbottom⟩ := h'.last
  refine ⟨⟨first, ?_, ?_⟩, ⟨last, ?_, ?_⟩⟩
  · rw [List.head?_append, hfirst]
    rfl
  · cases orientation <;> exact ⟨hx, hy⟩
  · rw [List.getLast?_append, hlast]
    rfl
  · cases orientation with
    | horizontal =>
      simp only [Geometry.child] at hright hbottom ⊢
      exact ⟨by omega, hbottom⟩
    | vertical =>
      simp only [Geometry.child] at hright hbottom ⊢
      exact ⟨hright, by omega⟩

theorem corners_of_contiguous {orientation : Orientation} {g : Geometry} {cells : List LayoutCell}
    (hne : cells ≠ []) {offset : Int} (hcontiguous : Contiguous orientation g offset cells)
    (h : ∀ cell ∈ cells, Corners (leafRects cell) cell.geometry) :
    Corners (leafRectsOf cells) (g.child orientation offset
      ((cells.map fun cell => cell.geometry.extent orientation).sum + (cells.length - 1))) := by
  induction cells generalizing offset with
  | nil => exact absurd rfl hne
  | cons cell cells ih =>
    obtain ⟨hcell, hcells⟩ := hcontiguous
    have hfirst := h cell List.mem_cons_self
    rw [hcell] at hfirst
    cases cells with
    | nil => simpa [leafRectsOf] using hfirst
    | cons next rest =>
      have hrest := ih (by simp) hcells fun c hc => h c (List.mem_cons_of_mem _ hc)
      have happend := hfirst.append hrest
      rw [List.map_cons, List.sum_cons, List.length_cons, leafRectsOf]
      convert happend using 2
      push_cast
      ring

theorem corners_of_tiles {cell : LayoutCell} (h : Tiles cell) :
    Corners (leafRects cell) cell.geometry := by
  induction h with
  | leaf g paneId => exact ⟨⟨g, rfl, rfl, rfl⟩, ⟨g, rfl, rfl, rfl⟩⟩
  | @split orientation g children hne hchildren hcontiguous hsum ih =>
    have hself : g.child orientation (g.offset orientation) (g.extent orientation) = g := by
      cases orientation <;> rfl
    have hcorners := corners_of_contiguous hne hcontiguous ih
    rwa [hsum, hself] at hcorners

/-- Cells that fit together are as large as their leaves. -/
theorem geometry_eq_of_leafRects {cell other : LayoutCell} (h : Tiles cell) (h' : Tiles other)
    (hleaves : leafRects cell = leafRects other) : cell.geometry = other.geometry := by
  have hcorners := corners_of_tiles h
  rw [hleaves] at hcorners
  obtain ⟨⟨first, hfirst, hx, hy⟩, ⟨last, hlast, hright, hbottom⟩⟩ := hcorners
  obtain ⟨⟨first', hfirst', hx', hy'⟩, ⟨last', hlast', hright', hbottom'⟩⟩ := corners_of_tiles h'
  obtain rfl : first = first' := Option.mem_unique hfirst hfirst'
  obtain rfl : last = last' := Option.mem_unique hlast hlast'
  have hgeometry : ∀ g g' : Geometry, g.x = g'.x → g.y = g'.y →
      g.x + g.width = g'.x + g'.width → g.y + g.height = g'.y + g'.height → g = g' := by
    rintro ⟨w, h, x, y⟩ ⟨w', h', x', y'⟩ hx hy hright hbottom
    simp only at hx hy hright hbottom
    simp only [Geometry.mk.injEq]
    omega
  exact hgeometry _ _ (hx.symm.trans hx') (hy.symm.trans hy') (hright.symm.trans hright')
    (hbottom.symm.trans hbottom')

/-- As many leaves are laid out as were frozen. -/
theorem length_leafRects_placeChildren {orientation : Orientation} {g : Geometry}
    {cells : List LayoutCell} (h : ∀ cell ∈ cells, ∀ g' root,
      geometryToCell (actualToDesiredNode cwds cell) g' = some root →
        (leafRects root).length = (leafRects cell).length)
    {sizes : List Int} (hlen : sizes.length = cells.length) {offset : Int} {laid : List LayoutCell}
    (hlaid : placeChildren orientation g (actualToDesiredNodes cwds cells) sizes offset =
      some laid) :
    (leafRectsOf laid).length = (leafRectsOf cells).length := by
  induction cells generalizing sizes offset laid with
  | nil =>
    rw [actualToDesiredNodes, placeChildren_nil] at hlaid
    obtain rfl := Option.some.inj hlaid
    rfl
  | cons cell cells ih =>
    obtain ⟨size, sizes, rfl⟩ := List.exists_cons_of_length_eq_add_one hlen
    obtain ⟨first, rest, hfirst, hrest, rfl⟩ := placeChildren_cons_eq_some.mp hlaid
    rw [leafRectsOf, leafRectsOf, List.length_append, List.length_append,
      h cell List.mem_cons_self _ _ hfirst,
      ih (fun c hc => h c (List.mem_cons_of_mem _ hc)) (by simpa using hlen) hrest]

theorem length_leafRects {cell : LayoutCell} (h : Tiles cell) {g : Geometry} {root : LayoutCell}
    (hroot : geometryToCell (actualToDesiredNode cwds cell) g = some root) :
    (leafRects root).length = (leafRects cell).length := by
  induction h generalizing g root with
  | leaf _ paneId =>
    rw [actualToDesiredNode, geometryToCell] at hroot
    obtain rfl := Option.some.inj hroot
    rfl
  | @split orientation g' children hne hchildren hcontiguous hsum ih =>
    obtain ⟨extents, cells, hextents, hcells, rfl⟩ := geometryToCell_frozen_split.mp hroot
    have hlen := length_of_distributeSizes hextents
    rw [asWeights, List.length_map, List.length_map] at hlen
    rw [leafRects, leafRects]
    exact length_leafRects_placeChildren (fun child hchild _ _ => ih child hchild) hlen hcells

/-- If the leaves of the children are laid out as they were, so are the children. -/
theorem sizes_eq_of_leafRects {orientation : Orientation} {g : Geometry} {cells : List LayoutCell}
    (htiles : ∀ cell ∈ cells, Tiles cell) {sizes : List Int} (hlen : sizes.length = cells.length)
    {offset : Int} {laid : List LayoutCell}
    (hlaid : placeChildren orientation g (actualToDesiredNodes cwds cells) sizes offset = some laid)
    (htilesLaid : ∀ cell ∈ laid, Tiles cell) (h : leafRectsOf laid = leafRectsOf cells) :
    sizes = cells.map (fun cell => cell.geometry.extent orientation) ∧
      ∀ cell ∈ cells, ∃ root,
        geometryToCell (actualToDesiredNode cwds cell) cell.geometry = some root ∧
        Tiles root ∧ leafRects root = leafRects cell := by
  induction cells generalizing sizes offset laid with
  | nil => exact ⟨List.eq_nil_of_length_eq_zero hlen, nofun⟩
  | cons cell cells ih =>
    obtain ⟨size, sizes, rfl⟩ := List.exists_cons_of_length_eq_add_one hlen
    have hcell := htiles cell List.mem_cons_self
    obtain ⟨first, rest, hfirst, hrest, rfl⟩ := placeChildren_cons_eq_some.mp hlaid
    obtain ⟨htilesFirst, htilesRest⟩ := List.forall_mem_cons.mp htilesLaid
    rw [leafRectsOf, leafRectsOf] at h
    obtain ⟨hsame, hrestSame⟩ := List.append_inj h (length_leafRects hcell hfirst)
    obtain ⟨hsizes, hcells⟩ := ih (fun c hc => htiles c (List.mem_cons_of_mem _ hc))
      (by simpa using hlen) hrest htilesRest hrestSame
    have hgeometry := geometry_eq_of_leafRects htilesFirst hcell hsame
    rw [geometry_of_geometryToCell hfirst] at hgeometry
    rw [hgeometry] at hfirst
    refine ⟨?_, List.forall_mem_cons.mpr ⟨⟨first, hfirst, htilesFirst, hsame⟩, hcells⟩⟩
    rw [List.map_cons, ← hsizes, ← hgeometry, Geometry.extent_child]

/-! ## Frozen windows compile -/

theorem checkSizes_ok_iff {path : String} {weights : List ℚ} :
    checkSizes path weights.length weights = .ok () ↔ ∀ w ∈ weights, isWeight w = true := by
  rw [checkSizes, if_neg (by simp)]
  cases hfind : weights.zipIdx.find? fun weight => !isWeight weight.1 with
  | none =>
    refine ⟨fun _ w hw => ?_, fun _ => rfl⟩
    obtain ⟨i, hi⟩ := List.mem_iff_getElem?.mp hw
    have hweight := List.find?_eq_none.mp hfind (w, i) (List.mem_zipIdx_iff_getElem?.mpr hi)
    simpa using hweight
  | some weight =>
    refine ⟨nofun, fun hall => ?_⟩
    have hmem : (weight.1, weight.2) ∈ weights.zipIdx := List.mem_of_find?_eq_some hfind
    have hbad := List.find?_some hfind
    rw [hall weight.1 (List.fst_mem_of_mem_zipIdx hmem)] at hbad
    cases hbad

theorem collectLeavesOf_cons_eq_ok {path : String} {i : Nat} {child : TemplateNode}
    {children : List TemplateNode} {leaves : List TemplatePane} :
    collectLeavesOf path i (child :: children) = .ok leaves ↔
      ∃ first rest, collectLeaves s!"{path}.children[{i}]" child = .ok first ∧
        collectLeavesOf path (i + 1) children = .ok rest ∧ leaves = first ++ rest := by
  rw [collectLeavesOf]
  cases collectLeaves s!"{path}.children[{i}]" child with
  | error e => simp [bind, Except.bind]
  | ok first =>
    cases collectLeavesOf path (i + 1) children with
    | error e => simp [bind, Except.bind]
    | ok rest => simp [bind, Except.bind, pure, Except.pure, eq_comm]

/-- A frozen split is checked for its sizes. -/
theorem collectLeaves_frozen_split {path : String} {orientation : Orientation} {g : Geometry}
    {children : List LayoutCell} (htwo : 2 ≤ children.length) {leaves : List TemplatePane} :
    collectLeaves path (actualToDesiredNode cwds (.split orientation g children)) = .ok leaves ↔
      (∀ weight ∈ asWeights (children.map fun child => child.geometry.extent orientation),
        isWeight weight = true) ∧
      collectLeavesOf path 0 (actualToDesiredNodes cwds children) = .ok leaves := by
  have hcheck : checkSizes path (asWeights (children.map fun child =>
      child.geometry.extent orientation)).length _ = .ok () ↔ _ := checkSizes_ok_iff
  rw [show (asWeights (children.map _)).length = children.length by simp [asWeights]] at hcheck
  rw [← hcheck, actualToDesiredNode, collectLeaves, length_actualToDesiredNodes, if_neg (by omega),
    map_cast_extent]
  dsimp only
  cases checkSizes path children.length
      (asWeights (children.map fun child => child.geometry.extent orientation)) with
  | error e => simp [bind, Except.bind]
  | ok _ => simp [bind, Except.bind]

theorem length_of_collectLeavesOf {cells : List LayoutCell} {path : String} {i : Nat}
    {leaves : List TemplatePane}
    (h : ∀ cell ∈ cells, ∀ path leaves,
      collectLeaves path (actualToDesiredNode cwds cell) = .ok leaves →
      leaves.length = (leafRects cell).length)
    (hleaves : collectLeavesOf path i (actualToDesiredNodes cwds cells) = .ok leaves) :
    leaves.length = (leafRectsOf cells).length := by
  induction cells generalizing i leaves with
  | nil =>
    rw [actualToDesiredNodes, collectLeavesOf] at hleaves
    obtain rfl := Except.ok.inj hleaves
    rfl
  | cons cell cells ih =>
    obtain ⟨first, rest, hfirst, hrest, rfl⟩ := collectLeavesOf_cons_eq_ok.mp hleaves
    rw [leafRectsOf, List.length_append, List.length_append, h cell List.mem_cons_self _ _ hfirst,
      ih (fun c hc => h c (List.mem_cons_of_mem _ hc)) hrest]

/-- A leaf is collected for each that was frozen. -/
theorem length_of_collectLeaves {cell : LayoutCell} (htwo : TwoChildren cell) {path : String}
    {leaves : List TemplatePane}
    (h : collectLeaves path (actualToDesiredNode cwds cell) = .ok leaves) :
    leaves.length = (leafRects cell).length := by
  induction htwo generalizing path leaves with
  | leaf g paneId =>
    rw [actualToDesiredNode, collectLeaves] at h
    obtain rfl := Except.ok.inj h
    rfl
  | @split orientation g children htwo htwos ih =>
    exact length_of_collectLeavesOf (fun child hchild _ _ => ih child hchild)
      ((collectLeaves_frozen_split htwo).mp h).2

theorem collects_of_collectLeavesOf {cells : List LayoutCell} {path : String} {i : Nat}
    {leaves : List TemplatePane}
    (h : collectLeavesOf path i (actualToDesiredNodes cwds cells) = .ok leaves) :
    ∀ cell ∈ cells, ∃ path leaves,
      collectLeaves path (actualToDesiredNode cwds cell) = .ok leaves := by
  induction cells generalizing i leaves with
  | nil => nofun
  | cons cell cells ih =>
    obtain ⟨first, rest, hfirst, hrest, -⟩ := collectLeavesOf_cons_eq_ok.mp h
    exact List.forall_mem_cons.mpr ⟨⟨_, first, hfirst⟩, ih hrest⟩

theorem collects_children {cells : List LayoutCell} {path : String} {i : Nat}
    (h : ∀ cell ∈ cells, ∀ path, ∃ leaves,
      collectLeaves path (actualToDesiredNode cwds cell) = .ok leaves) :
    ∃ leaves, collectLeavesOf path i (actualToDesiredNodes cwds cells) = .ok leaves := by
  induction cells generalizing i with
  | nil => exact ⟨[], rfl⟩
  | cons cell cells ih =>
    obtain ⟨first, hfirst⟩ := h cell List.mem_cons_self s!"{path}.children[{i}]"
    obtain ⟨rest, hrest⟩ := ih (fun c hc => h c (List.mem_cons_of_mem _ hc)) (i := i + 1)
    exact ⟨first ++ rest, collectLeavesOf_cons_eq_ok.mpr ⟨first, rest, hfirst, hrest, rfl⟩⟩

/-- A tree whose splits are even passes the checks of the compiler. -/
theorem collectLeaves_of_even {cell : LayoutCell} (htwo : TwoChildren cell)
    (heven : EvenSplits cell)
    (path : String) :
    ∃ leaves, collectLeaves path (actualToDesiredNode cwds cell) = .ok leaves := by
  induction htwo generalizing path with
  | leaf g paneId => exact ⟨_, rfl⟩
  | @split orientation g children htwo htwos ih =>
    cases heven with | split _ hweights _ hevens => ?_
    obtain ⟨leaves, hleaves⟩ := collects_children (i := 0)
      fun child hchild => ih child hchild (hevens child hchild)
    exact ⟨leaves, (collectLeaves_frozen_split htwo).mpr ⟨hweights, hleaves⟩⟩

/-- Only a tree whose splits are even keeps its leaves. -/
theorem even_of_leafRects {cell : LayoutCell} (htiles : Tiles cell) (hpos : Positive cell)
    (htwo : TwoChildren cell) {path : String} {leaves : List TemplatePane}
    (hcollect : collectLeaves path (actualToDesiredNode cwds cell) = .ok leaves) {root : LayoutCell}
    (hroot : geometryToCell (actualToDesiredNode cwds cell) cell.geometry = some root)
    (htilesRoot : Tiles root) (h : leafRects root = leafRects cell) : EvenSplits cell := by
  induction htiles generalizing path leaves root with
  | leaf g paneId => exact .leaf g paneId
  | @split orientation g children hne hchildren hcontiguous hsum ih =>
    cases hpos with | split hg _ hpos => ?_
    cases htwo with | split _ _ htwo htwos => ?_
    have htiles : Tiles (.split orientation g children) := .split hne hchildren hcontiguous hsum
    obtain ⟨hweights, hcollects⟩ := (collectLeaves_frozen_split htwo).mp hcollect
    obtain ⟨extents, cells, hextents, hcells, rfl⟩ := geometryToCell_frozen_split.mp hroot
    have hlen := length_of_distributeSizes hextents
    rw [asWeights, List.length_map, List.length_map] at hlen
    cases htilesRoot with | split _ htilesCells _ _ => ?_
    obtain ⟨rfl, hleaves⟩ := sizes_eq_of_leafRects hchildren hlen hcells htilesCells h
    change distributeSizes (g.extent orientation - _) _ = _ at hextents
    rw [sum_extents_of_tiles htiles] at hextents
    refine .split g hweights
      ((distributeSizes_eq_iff (by rwa [List.length_map]) (one_le_extents hpos)).mp hextents)
      fun child hchild => ?_
    obtain ⟨child', hchild', htilesChild, hsame⟩ := hleaves child hchild
    obtain ⟨path', leaves', hcollect'⟩ := collects_of_collectLeavesOf hcollects child hchild
    exact ih child hchild (hpos child hchild) (htwos child hchild) hcollect' hchild' htilesChild
      hsame

mutual

theorem leafRects_eraseIds : (cell : LayoutCell) → leafRects (eraseIds cell) = leafRects cell
  | .leaf _ _ => rfl
  | .split _ _ children => leafRectsOf_eraseIdsOf children

theorem leafRectsOf_eraseIdsOf : (cells : List LayoutCell) →
    leafRectsOf (eraseIdsOf cells) = leafRectsOf cells
  | [] => rfl
  | cell :: cells => by
    rw [eraseIdsOf, leafRectsOf, leafRects_eraseIds cell, leafRectsOf_eraseIdsOf cells, leafRectsOf]

end

theorem mem_eraseIdsOf {cells : List LayoutCell} {cell : LayoutCell} (h : cell ∈ eraseIdsOf cells) :
    ∃ other ∈ cells, cell = eraseIds other := by
  induction cells with
  | nil => cases h
  | cons first cells ih =>
    rw [eraseIdsOf] at h
    rcases List.mem_cons.mp h with rfl | hrest
    · exact ⟨first, List.mem_cons_self, rfl⟩
    · obtain ⟨other, hother, rfl⟩ := ih hrest
      exact ⟨other, List.mem_cons_of_mem _ hother, rfl⟩

theorem proper_eraseIds {cell : LayoutCell} (h : Proper cell) : Proper (eraseIds cell) := by
  induction h with
  | leaf hg paneId => exact .leaf hg none
  | @split g hg orientation children hne hchildren ih =>
    rw [eraseIds]
    refine .split hg orientation ?_ fun cell hcell => ?_
    · cases children with
      | nil => exact absurd rfl hne
      | cons child children => simp [eraseIdsOf]
    · obtain ⟨child, hchild, rfl⟩ := mem_eraseIdsOf hcell
      exact ih child hchild

@[simp] theorem geometry_eraseIds (cell : LayoutCell) :
    (eraseIds cell).geometry = cell.geometry := by
  cases cell <;> rfl

theorem contiguous_eraseIdsOf {orientation : Orientation} {g : Geometry} {cells : List LayoutCell}
    {offset : Int} (h : Contiguous orientation g offset cells) :
    Contiguous orientation g offset (eraseIdsOf cells) := by
  induction cells generalizing offset with
  | nil => exact trivial
  | cons cell cells ih =>
    obtain ⟨hcell, hcells⟩ := h
    rw [eraseIdsOf, Contiguous, geometry_eraseIds]
    exact ⟨hcell, ih hcells⟩

theorem map_extent_eraseIdsOf (orientation : Orientation) (cells : List LayoutCell) :
    (eraseIdsOf cells).map (fun cell => cell.geometry.extent orientation) =
      cells.map fun cell => cell.geometry.extent orientation := by
  induction cells with
  | nil => rfl
  | cons cell cells ih => rw [eraseIdsOf, List.map_cons, List.map_cons, ih, geometry_eraseIds]

theorem tiles_eraseIds {cell : LayoutCell} (h : Tiles cell) : Tiles (eraseIds cell) := by
  induction h with
  | leaf g paneId => exact .leaf g none
  | @split orientation g children hne hchildren hcontiguous hsum ih =>
    have hextents := map_extent_eraseIdsOf orientation children
    have hlen := congrArg List.length hextents
    rw [List.length_map, List.length_map] at hlen
    refine .split ?_ (fun cell hcell => ?_) (contiguous_eraseIdsOf hcontiguous) ?_
    · rw [← List.length_pos_iff, hlen]
      exact List.length_pos_iff.mpr hne
    · obtain ⟨child, hchild, rfl⟩ := mem_eraseIdsOf hcell
      exact ih child hchild
    · rw [hextents, hlen]
      exact hsum

end Trees

/-! ## The round trip -/

/-- The template of a window that is frozen alone. -/
def frozenTemplate (root : LayoutCell) (panes : List FreezePaneData) (name : String) :
    SessionTemplate :=
  { windows := [{
      name := if name ≠ "" then some name else none
      geometry := some (actualToDesiredNode (cwdByPaneNum panes) root) }] }

theorem buildFrozenTemplate_sessionOf {root : LayoutCell} (h : Proper root)
    (panes : List FreezePaneData) (name : String) :
    buildFrozenTemplate (sessionOf root panes name) none =
      .ok (frozenTemplate root panes name) := by
  have hfreeze : freezeWindow (cwdByPaneNum panes)
      ⟨"@1", name, String.ofList (dumpLayout ⟨0, 0, root⟩)⟩ = .ok
        { name := if name ≠ "" then some name else none
          geometry := some (actualToDesiredNode (cwdByPaneNum panes) root) } := by
    rw [freezeWindow, String.toList_ofList, parseLayout_dumpLayout h]
    cases root <;> rfl
  simp only [buildFrozenTemplate, sessionOf, List.mapM_cons, List.mapM_nil, hfreeze]
  rfl

/-- The window that it compiles to, with the leaves. -/
def frozenWindow (root : LayoutCell) (panes : List FreezePaneData) (name : String)
    (leaves : List TemplatePane) : CompiledWindow where
  name := if name ≠ "" then some name else none
  panes := leaves.map leafToPane
  geometry :=
    if leaves.length > 1 then some (actualToDesiredNode (cwdByPaneNum panes) root) else none

theorem compileTemplate_frozen {root : LayoutCell} {panes : List FreezePaneData} {name : String}
    {window : CompiledWindow} :
    compileTemplate (frozenTemplate root panes name) = .ok { windows := [window] } ↔
      ∃ leaves, collectLeaves s!"windows[{0}].geometry"
          (actualToDesiredNode (cwdByPaneNum panes) root) = .ok leaves ∧
        window = frozenWindow root panes name leaves := by
  simp only [compileTemplate, frozenTemplate, compileWindows, compileWindow]
  cases collectLeaves s!"windows[{0}].geometry" (actualToDesiredNode (cwdByPaneNum panes) root) with
  | error e => simp [bind, Except.bind]
  | ok leaves => simp [bind, Except.bind, pure, Except.pure, frozenWindow, eq_comm]

theorem leafRects_split {orientation : Orientation} {g : Geometry} {children : List LayoutCell}
    (htwo : 2 ≤ children.length) (htiles : ∀ child ∈ children, Tiles child) :
    1 < (leafRects (.split orientation g children)).length := by
  have hleaf : ∀ child ∈ children, 0 < (leafRects child).length := by
    intro child hchild
    obtain ⟨first, hfirst, -⟩ := (corners_of_tiles (htiles child hchild)).first
    exact List.length_pos_iff_exists_mem.mpr ⟨first, List.mem_of_mem_head? hfirst⟩
  match children with
  | a :: b :: rest =>
    have ha := hleaf a (by simp)
    have hb := hleaf b (by simp)
    rw [leafRects, leafRectsOf, leafRectsOf, List.length_append, List.length_append]
    omega

theorem WindowLayout.proper {root : LayoutCell} (h : WindowLayout root) : Proper root :=
  h.tiles.proper h.positive ⟨h.origin.1.ge, h.origin.2.ge⟩

theorem WindowLayout.geometry {root : LayoutCell} (h : WindowLayout root) :
    (⟨root.geometry.width, root.geometry.height, 0, 0⟩ : Geometry) = root.geometry := by
  have hgeometry : ∀ g : Geometry, g.x = 0 → g.y = 0 → ⟨g.width, g.height, 0, 0⟩ = g := by
    rintro ⟨width, height, x, y⟩ rfl rfl
    rfl
  exact hgeometry _ h.origin.1 h.origin.2

theorem even_of_freezeRoundTrips {root : LayoutCell} (h : WindowLayout root)
    {panes : List FreezePaneData} {name : String} {template : SessionTemplate}
    {window : CompiledWindow} (hround : FreezeRoundTrips root panes name template window) :
    EvenSplits root := by
  obtain rfl :=
    Except.ok.inj (hround.frozen.symm.trans (buildFrozenTemplate_sessionOf h.proper panes name))
  obtain ⟨leaves, hleaves, rfl⟩ := compileTemplate_frozen.mp hround.compiled
  have hlen := length_of_collectLeaves h.twoChildren hleaves
  cases root with
  | leaf g paneId => exact .leaf g paneId
  | split orientation g children =>
    cases h.twoChildren with | split _ _ htwo htwos => ?_
    cases h.tiles with | split hne hchildren hcontiguous hsum => ?_
    have hmany : 1 < (leafRects (.split orientation g children)).length :=
      leafRects_split htwo hchildren
    obtain ⟨laidOut, hlaidOut, -, htiles, hsame⟩ := hround.geometry _ (if_pos (by omega))
    rw [h.geometry] at hlaidOut
    exact even_of_leafRects h.tiles h.positive h.twoChildren hleaves hlaidOut htiles hsame

theorem freezeRoundTrips_of_even {root : LayoutCell} (h : WindowLayout root)
    (heven : EvenSplits root) (panes : List FreezePaneData) (name : String) :
    ∃ template window, FreezeRoundTrips root panes name template window := by
  obtain ⟨leaves, hleaves⟩ : ∃ leaves, collectLeaves s!"windows[{0}].geometry"
      (actualToDesiredNode (cwdByPaneNum panes) root) = .ok leaves :=
    collectLeaves_of_even h.twoChildren heven _
  have hself : geometryToCell (actualToDesiredNode (cwdByPaneNum panes) root)
      ⟨root.geometry.width, root.geometry.height, 0, 0⟩ = some (eraseIds root) := by
    rw [h.geometry]
    exact geometryToCell_actualToDesiredNode h.tiles h.positive h.twoChildren heven
  refine ⟨frozenTemplate root panes name, frozenWindow root panes name leaves,
    buildFrozenTemplate_sessionOf h.proper panes name,
    compileTemplate_frozen.mpr ⟨leaves, hleaves, rfl⟩, ?_, fun node hnode => ?_⟩
  · rw [frozenWindow, List.length_map, length_of_collectLeaves h.twoChildren hleaves]
  · obtain ⟨-, hsome⟩ := Option.ite_none_right_eq_some.mp hnode
    cases hsome
    have htext : serializeGeometry (actualToDesiredNode (cwdByPaneNum panes) root)
        root.geometry.width root.geometry.height = some (dumpLayout ⟨0, 0, eraseIds root⟩) := by
      rw [serializeGeometry, hself]
      rfl
    exact ⟨eraseIds root, hself, ⟨_, htext, _, parseLayout_dumpLayout (proper_eraseIds h.proper)⟩,
      tiles_eraseIds h.tiles, leafRects_eraseIds root⟩

/-- A frozen window keeps the rectangles of its leaves exactly if all its splits are even. -/
theorem freeze_round_trip_iff {root : LayoutCell} (h : WindowLayout root)
    (panes : List FreezePaneData) (name : String) :
    (∃ template window, FreezeRoundTrips root panes name template window) ↔ EvenSplits root :=
  ⟨fun ⟨_, _, hround⟩ => even_of_freezeRoundTrips h hround,
    fun heven => freezeRoundTrips_of_even h heven panes name⟩

/-- Two panes side by side. -/
def twoPanes (left right : Int) : LayoutCell :=
  .split .horizontal ⟨left + right + 1, 24, 0, 0⟩
    [.leaf ⟨left, 24, 0, 0⟩ (some 1), .leaf ⟨right, 24, left + 1, 0⟩ (some 2)]

theorem windowLayout_twoPanes {left right : Int} (hleft : 1 ≤ left) (hright : 1 ≤ right) :
    WindowLayout (twoPanes left right) where
  tiles := .split (by simp) (by simp [Tiles.leaf])
    (by simp [Contiguous, LayoutCell.geometry, Geometry.child, Geometry.offset, Geometry.extent])
    (by simp [LayoutCell.geometry, Geometry.extent])
  positive := .split ⟨by simpa using (by omega : 0 ≤ left + right), (by decide : (1 : Int) ≤ 24)⟩ _
    (by simpa using ⟨.leaf ⟨hleft, (by decide : (1 : Int) ≤ 24)⟩ _,
      .leaf ⟨hright, (by decide : (1 : Int) ≤ 24)⟩ _⟩)
  twoChildren := .split _ _ (by simp) (by simp [TwoChildren.leaf])
  origin := ⟨rfl, rfl⟩

theorem freeze_round_trip_halves :
    ∃ template window,
      FreezeRoundTrips (twoPanes 40 39) [⟨1, "@1", "/src"⟩] "work" template window :=
  (freeze_round_trip_iff (windowLayout_twoPanes (by decide) (by decide)) _ _).mpr
    (.split _ (by decide +kernel) (by decide +kernel) (by simpa using ⟨.leaf _ _, .leaf _ _⟩))

/-- One column beside nine come back as two beside eight. -/
theorem freeze_round_trip_narrow :
    WindowLayout (twoPanes 1 9) ∧
      (geometryToCell (actualToDesiredNode (fun _ => none) (twoPanes 1 9)) ⟨11, 24, 0, 0⟩).map
        leafRects = some [⟨2, 24, 0, 0⟩, ⟨8, 24, 3, 0⟩] ∧
      ¬∃ template window, FreezeRoundTrips (twoPanes 1 9) [] "work" template window := by
  have hlayout : WindowLayout (twoPanes 1 9) := windowLayout_twoPanes (by decide) (by decide)
  refine ⟨hlayout, by decide +kernel, ?_⟩
  rintro ⟨template, window, hround⟩
  cases even_of_freezeRoundTrips hlayout hround with
  | split _ _ heven _ => exact absurd heven (by decide +kernel)

end TmuxccDriver.Template
