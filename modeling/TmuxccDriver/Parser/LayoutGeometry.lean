import Mathlib.Algebra.Order.BigOperators.Group.List
import Mathlib.Data.Rat.Floor
import TmuxccDriver.Lib.Apportion
import TmuxccDriver.Lib.Binary64
import TmuxccDriver.Parser.LayoutRoundTrip

/-!
# Desired geometry

The write direction of `parser/layout-string.ts`: a tree of weights becomes a layout string of
whole cells. Weights and shares are doubles; numbers of cells are whole and exact.

Results:
1. `fills_iff`: when the sizes sum to the total and each child gets a cell. `divides_of_small`:
   the doubles do no harm in a window of up to 2^25 cells.
2. `sound_iff`: when the cells fit together and are all at least one wide and high.
3. `serializeGeometry_iff`: when tmux accepts the string.
-/

namespace TmuxccDriver.Parser
open TmuxccDriver.Lib

/-! ## Templates -/

structure TemplatePane where
  cwd : Option String := none
  command : Option String := none
  env : Option (List (String × String)) := none
deriving DecidableEq, Repr

/-- The `kind` of a split is `hsplit` if it is horizontal, and `vsplit` if it is vertical. A
number of `sizes` is read as the nearest double. -/
inductive TemplateNode
  | pane (pane : TemplatePane)
  | split (orientation : Orientation) (children : List TemplateNode) (sizes : Option (List ℚ))

/-! ## Sizes -/

/-- A weight that is finite and positive, or else zero. -/
def normWeight (w : ℚ) : ℚ :=
  match Double.ofRat w with
  | .finite w => if 0 < w then w else 0
  | _ => 0

/-- The shares of the cells that are left when each child has one, `exact`; none if one of them
is `Infinity` or `NaN`. -/
def exactShares (total : Int) (weights : List ℚ) : Option (List ℚ) :=
  let n := weights.length
  let norm := weights.map fun w => Double.finite (normWeight w)
  let weightSum := Double.sum norm
  let effective := if weightSum.isPos then norm else List.replicate n (.finite 1)
  let effSum := if weightSum.isPos then weightSum else .ofRat n
  let remaining := total - n
  let exact := effective.map fun w => .ofRat remaining * w / effSum
  exact.mapM Double.finite?

/-- `distributeSizes`. None where the sizes are not all whole, as a share is `Infinity` or `NaN`,
and where `order` has fewer entries than are read and a `TypeError` is thrown. -/
def distributeSizes (total : Int) (weights : List ℚ) : Option (List Int) :=
  let n := weights.length
  if n = 0 then some []
  else if n = 1 then some [total]
  else if total < n then
    let each := total / n
    let rem := total - each * n
    some (bump (List.replicate n each) ((List.range n).take rem.toNat))
  else
    match exactShares total weights with
    | none => none
    | some exact =>
      let remaining := total - n
      let floors := exact.map Int.floor
      let leftover := remaining - floors.sum
      let order := remainderOrder exact
      if n < leftover then none
      else some (bump (floors.map (1 + ·)) ((order.take leftover.toNat).map Prod.fst))

/-- `weightsFor`. -/
def weightsFor (childCount : Nat) (sizes : Option (List ℚ)) : List ℚ :=
  match sizes with
  | none => List.replicate childCount 1
  | some sizes => if sizes.length ≠ childCount then List.replicate childCount 1 else sizes

/-! ## Cells -/

namespace Geometry

variable (g : Geometry)

/-- The size along the axis of a split. -/
def extent : Orientation → Int
  | .horizontal => g.width
  | .vertical => g.height

/-- The offset along the axis of a split. -/
def offset : Orientation → Int
  | .horizontal => g.x
  | .vertical => g.y

/-- A child of a split spans it across the axis. -/
def child (orientation : Orientation) (offset size : Int) : Geometry :=
  match orientation with
  | .horizontal => ⟨size, g.height, offset, g.y⟩
  | .vertical => ⟨g.width, size, g.x, offset⟩

end Geometry

mutual

/-- `geometryToCell`; the two branches for a split differ in the axis. None where the cells are
not all whole, or a `TypeError` is thrown. -/
def geometryToCell : TemplateNode → Geometry → Option LayoutCell
  | .pane _, g => some (.leaf g none)
  | .split orientation children sizes, g => do
    let n := children.length
    let extents ← distributeSizes (g.extent orientation - (n - 1)) (weightsFor n sizes)
    let cells ← placeChildren orientation g children extents (g.offset orientation)
    return .split orientation g cells

def placeChildren (orientation : Orientation) (g : Geometry) :
    List TemplateNode → List Int → Int → Option (List LayoutCell)
  | child :: children, size :: sizes, offset => do
    let cell ← geometryToCell child (g.child orientation offset size)
    let cells ← placeChildren orientation g children sizes (offset + size + 1)
    return cell :: cells
  | _, _, _ => some []

end

/-- `serializeGeometry`. -/
def serializeGeometry (node : TemplateNode) (cols rows : Int) : Option (List Char) := do
  let root ← geometryToCell node ⟨cols, rows, 0, 0⟩
  return dumpLayout ⟨0, 0, root⟩

/-! ## Shares -/

@[simp] theorem length_weightsFor (childCount : Nat) (sizes : Option (List ℚ)) :
    (weightsFor childCount sizes).length = childCount := by
  unfold weightsFor
  split
  · exact List.length_replicate
  · split
    · exact List.length_replicate
    · next h => exact not_not.mp h

theorem normWeight_cases (w : ℚ) :
    normWeight w = 0 ∨ 0 < normWeight w ∧ Double.ofRat w = .finite (normWeight w) := by
  unfold normWeight
  split
  · next value heq =>
    split
    · next h => exact .inr ⟨h, heq⟩
    · exact .inl rfl
  · exact .inl rfl

theorem normWeight_nonneg (w : ℚ) : 0 ≤ normWeight w :=
  (normWeight_cases w).elim (fun h => h.ge) fun h => h.1.le

theorem summable_normWeight (weights : List ℚ) : Double.Summable (weights.map normWeight) := by
  intro w hw
  obtain ⟨w, -, rfl⟩ := List.mem_map.mp hw
  refine ⟨normWeight_nonneg w, ?_⟩
  rcases normWeight_cases w with hzero | ⟨-, hfinite⟩
  · rw [hzero]
    exact_mod_cast onGrid_natCast 0
  · rw [← (Double.ofRat_eq_finite_iff.mp hfinite).2]
    exact onGrid_nearest w

section Shares
variable {total : Int} {weights exact : List ℚ}

theorem length_exactShares (h : exactShares total weights = some exact) :
    exact.length = weights.length := by
  have hmap := congrArg List.length (Double.mapM_finite?_eq_some.mp h)
  rw [List.length_map, List.length_map] at hmap
  rw [← hmap]
  split <;> simp

theorem exactShares_nonneg (htotal : weights.length ≤ total)
    (h : exactShares total weights = some exact) : ∀ x ∈ exact, 0 ≤ x := by
  have hone : (Double.finite 1).Nonneg := fun _ heq => Double.finite.inj heq ▸ zero_le_one
  have hnorm : ∀ w ∈ weights.map fun w => Double.finite (normWeight w), w.Nonneg := by
    intro w hw
    obtain ⟨w, -, rfl⟩ := List.mem_map.mp hw
    exact fun _ heq => Double.finite.inj heq ▸ normWeight_nonneg w
  have hremaining : (Double.ofRat ((total - weights.length : Int) : ℚ)).Nonneg :=
    Double.nonneg_ofRat (by exact_mod_cast Int.sub_nonneg.mpr htotal)
  have hshares := Double.mapM_finite?_eq_some.mp h
  intro x hx
  have hmem := hshares ▸ List.mem_map_of_mem (f := Double.finite) hx
  obtain ⟨w, hw, heq⟩ := List.mem_map.mp hmem
  refine Double.Nonneg.div (hremaining.mul ?_) ?_ x heq
  · split at hw
    · exact hnorm w hw
    · exact List.eq_of_mem_replicate hw ▸ hone
  · split
    · exact Double.nonneg_sum hnorm
    · exact Double.nonneg_ofRat (Nat.cast_nonneg _)

/-- The doubles do no harm: the shares are all finite, and what their floors leave of the cells
is not negative, and at most one for each child. -/
def Divides (total : Int) (weights : List ℚ) : Prop :=
  weights.length = 1 ∨
    ∃ exact ∈ exactShares total weights, Apportions exact (total - weights.length)

instance (total : Int) (weights : List ℚ) : Decidable (Divides total weights) :=
  inferInstanceAs (Decidable (_ ∨ _))

/-- Weights that are all zero count as equal, and their shares lose little. -/
theorem exactShares_of_zero {r : ℕ} (hr : total - weights.length = r) (hsmall : r ≤ 2 ^ 25)
    (hne : weights ≠ []) (hlen : weights.length ≤ 2 ^ 25)
    (hzero : (weights.map normWeight).sum = 0) :
    ∃ ys, exactShares total weights = some ys ∧ (r : ℚ) - 1 < ys.sum ∧ ys.sum < r + 1 := by
  obtain ⟨sum, hsum, hlow, hhigh⟩ := Double.sum_bounds (summable_normWeight weights)
    (by rw [hzero, zero_mul]; exact Double.lt_limit (by positivity))
  rw [hzero, zero_mul] at hlow hhigh
  have hnot : ¬(Double.finite sum).isPos = true := by simp [Double.isPos, hhigh]
  have hones : Double.Summable (List.replicate weights.length 1) := fun w hw =>
    List.eq_of_mem_replicate hw ▸ ⟨zero_le_one, by exact_mod_cast onGrid_natCast 1⟩
  have hcount : (List.replicate weights.length (1 : ℚ)).sum = weights.length := by simp
  have hpos : (0 : ℚ) < weights.length := by exact_mod_cast List.length_pos_iff.mpr hne
  have hbound : (weights.length : ℚ) ≤ 2 ^ 990 := by
    have hle : (weights.length : ℚ) ≤ 2 ^ 25 := by exact_mod_cast hlen
    exact hle.trans (pow_le_pow_right₀ one_le_two (by norm_num))
  have hdown : (1 - roundoff) ^ weights.length ≤ 1 :=
    pow_le_one₀ (by norm_num [roundoff]) (by norm_num [roundoff])
  have hup : 1 ≤ (1 + roundoff) ^ weights.length := one_le_pow₀ (by norm_num [roundoff])
  obtain ⟨ys, hys, hbounds⟩ := Double.sum_shares hones (hcount ▸ hpos) (hcount ▸ hbound)
    (by rwa [List.length_replicate]) hsmall weights.length
    (by rw [hcount, List.length_replicate]; exact mul_le_of_le_one_right hpos.le hdown)
    (by rw [hcount, List.length_replicate]; exact le_mul_of_one_le_right hpos.le hup)
  refine ⟨ys, ?_, hbounds⟩
  have hmap : (weights.map fun w => Double.finite (normWeight w)) =
      (weights.map normWeight).map Double.finite := (List.map_map ..).symm
  rw [List.map_replicate] at hys
  simp only [exactShares, hr, Int.cast_natCast, hmap, Double.mapM_finite?_eq_some]
  rw [hsum, if_neg hnot, if_neg hnot, Double.ofRat_natCast (hlen.trans_lt (by norm_num)),
    List.map_replicate]
  exact hys

theorem exactShares_of_pos {r : ℕ} (hr : total - weights.length = r) (hsmall : r ≤ 2 ^ 25)
    (hlen : weights.length ≤ 2 ^ 25) (hpos : 0 < (weights.map normWeight).sum)
    (hsum : (weights.map normWeight).sum ≤ 2 ^ 990) :
    ∃ ys, exactShares total weights = some ys ∧ (r : ℚ) - 1 < ys.sum ∧ ys.sum < r + 1 := by
  obtain ⟨sum, ys, hsumPos, hsum', hys, hbounds⟩ := Double.sum_shares_of_sum
    (summable_normWeight weights) hpos hsum (by simpa using hlen) hsmall
  refine ⟨ys, ?_, hbounds⟩
  have hisPos : (Double.finite sum).isPos = true := by simpa [Double.isPos] using hsumPos
  have hmap : (weights.map fun w => Double.finite (normWeight w)) =
      (weights.map normWeight).map Double.finite := (List.map_map ..).symm
  simp only [exactShares, hr, Int.cast_natCast, hmap, Double.mapM_finite?_eq_some]
  rw [hsum', if_pos hisPos, if_pos hisPos, List.map_map]
  exact hys

/-- They do none in a window of up to 2^25 cells, unless the weights are enormous. -/
theorem divides_of_small (hne : weights ≠ []) (htotal : weights.length ≤ total)
    (hsmall : total ≤ 2 ^ 25) (hsum : (weights.map normWeight).sum ≤ 2 ^ 990) :
    Divides total weights := by
  rcases Nat.lt_or_ge weights.length 2 with hfew | htwo
  · exact .inl (by have := List.length_pos_iff.mpr hne; omega)
  right
  obtain ⟨r, hr⟩ := Int.eq_ofNat_of_zero_le (Int.sub_nonneg.mpr htotal)
  have hr' : r ≤ 2 ^ 25 := by omega
  have hlen : weights.length ≤ 2 ^ 25 := by omega
  have hrQ : ((total - weights.length : Int) : ℚ) = r := by
    exact_mod_cast congrArg (Int.cast : Int → ℚ) hr
  have hnonneg : 0 ≤ (weights.map normWeight).sum :=
    List.sum_nonneg fun w hw => (summable_normWeight weights w hw).1
  -- weights that sum to zero are replaced by ones
  have hshares : ∃ ys, exactShares total weights = some ys ∧ (r : ℚ) - 1 < ys.sum ∧
      ys.sum < r + 1 := by
    rcases hnonneg.eq_or_lt with hzero | hpos
    · exact exactShares_of_zero hr hr' hne hlen hzero.symm
    · exact exactShares_of_pos hr hr' hlen hpos hsum
  obtain ⟨ys, hys, hlow, hhigh⟩ := hshares
  exact ⟨ys, hys, apportions_of_sum (by rw [hrQ]; exact hlow) (by rw [hrQ]; exact hhigh)⟩

theorem distributeSizes_eq (hn : 2 ≤ weights.length) (htotal : weights.length ≤ total)
    (h : exactShares total weights = some exact) :
    distributeSizes total weights =
      if weights.length < total - weights.length - (exact.map Int.floor).sum then none
      else some ((largestRemainder exact (total - weights.length)).map (1 + ·)) := by
  unfold distributeSizes
  rw [if_neg (by omega), if_neg (by omega), if_neg (by omega), h, largestRemainder,
    ← bump_map_add 1]
  rfl

theorem length_of_distributeSizes {sizes : List Int}
    (h : distributeSizes total weights = some sizes) :
    sizes.length = weights.length := by
  unfold distributeSizes at h
  dsimp only at h
  split at h
  · next hn =>
    obtain rfl := Option.some.inj h
    exact hn.symm
  · split at h
    · next hn =>
      obtain rfl := Option.some.inj h
      exact hn.symm
    · split at h
      · obtain rfl := Option.some.inj h
        rw [length_bump, List.length_replicate]
      · split at h
        · cases h
        · next exact hexact =>
          split at h
          · cases h
          · obtain rfl := Option.some.inj h
            rw [length_bump, List.length_map, List.length_map, length_exactShares hexact]

theorem sum_map_add (xs : List Int) : (xs.map (1 + ·)).sum = xs.length + xs.sum := by
  induction xs with
  | nil => rfl
  | cons x xs ih =>
    rw [List.map_cons, List.sum_cons, ih, List.sum_cons, List.length_cons]
    push_cast
    ring

theorem one_le_of_distributeSizes (htotal : weights.length ≤ total) {sizes : List Int}
    (h : distributeSizes total weights = some sizes) : ∀ size ∈ sizes, 1 ≤ size := by
  intro size hsize
  rcases Nat.lt_or_ge weights.length 2 with hfew | htwo
  · unfold distributeSizes at h
    dsimp only at h
    split at h
    · obtain rfl := Option.some.inj h
      cases hsize
    · next hnone =>
      have hone : weights.length = 1 := by omega
      rw [if_pos hone] at h
      obtain rfl := Option.some.inj h
      rw [List.mem_singleton] at hsize
      omega
  · cases hexact : exactShares total weights with
    | none =>
      rw [distributeSizes, if_neg (by omega), if_neg (by omega), if_neg (by omega), hexact] at h
      cases h
    | some exact =>
      rw [distributeSizes_eq htwo htotal hexact] at h
      obtain ⟨-, hparts⟩ := Option.ite_none_left_eq_some.mp h
      obtain rfl := Option.some.inj hparts
      obtain ⟨part, hpart, rfl⟩ := List.mem_map.mp hsize
      obtain ⟨x, hx, hle⟩ := floor_le_of_mem_largestRemainder hpart
      have hfloor := Int.floor_nonneg.mpr (exactShares_nonneg htotal hexact x hx)
      omega

/-- The sizes make up the total, and each is at least one. -/
structure Fills (total : Int) (sizes : List Int) : Prop where
  sum : sizes.sum = total
  one_le : ∀ size ∈ sizes, 1 ≤ size

/-- They do exactly if the total has a cell for each child, and the doubles do no harm. -/
theorem fills_iff (hne : weights ≠ []) :
    (∃ sizes, distributeSizes total weights = some sizes ∧ Fills total sizes) ↔
      weights.length ≤ total ∧ Divides total weights := by
  have hpos : 0 < weights.length := List.length_pos_iff.mpr hne
  constructor
  · rintro ⟨sizes, hsizes, hfills⟩
    have htotal : weights.length ≤ total := by
      have hle := List.card_nsmul_le_sum _ 1 hfills.one_le
      rw [hfills.sum, length_of_distributeSizes hsizes] at hle
      simpa using hle
    refine ⟨htotal, ?_⟩
    rcases Nat.lt_or_ge weights.length 2 with hfew | htwo
    · exact .inl (by omega)
    · cases hexact : exactShares total weights with
      | none =>
        rw [distributeSizes, if_neg (by omega), if_neg (by omega), if_neg (by omega), hexact]
          at hsizes
        cases hsizes
      | some exact =>
        rw [distributeSizes_eq htwo htotal hexact] at hsizes
        obtain ⟨-, hparts⟩ := Option.ite_none_left_eq_some.mp hsizes
        obtain rfl := Option.some.inj hparts
        have hsum := hfills.sum
        rw [sum_map_add, length_largestRemainder, length_exactShares hexact] at hsum
        exact .inr ⟨exact, hexact, sum_largestRemainder_iff.mp (by omega)⟩
  · rintro ⟨htotal, hdivides⟩
    suffices hsizes : ∃ sizes, distributeSizes total weights = some sizes ∧ sizes.sum = total by
      obtain ⟨sizes, hsizes, hsum⟩ := hsizes
      exact ⟨sizes, hsizes, hsum, one_le_of_distributeSizes htotal hsizes⟩
    rcases Nat.lt_or_ge weights.length 2 with hfew | htwo
    · exact ⟨[total], by simp [distributeSizes, show weights.length = 1 by omega], by simp⟩
    · obtain ⟨exact, hexact, happortions⟩ := hdivides.resolve_left (by omega)
      have hlen := length_exactShares hexact
      have hge := happortions.ge
      refine ⟨_, by rw [distributeSizes_eq htwo htotal hexact, if_neg (by omega)], ?_⟩
      rw [sum_map_add, length_largestRemainder, hlen, sum_largestRemainder_iff.mpr happortions]
      ring

-- The fraction of each share is a third; those of the later ones are rounded to more.
example : distributeSizes 5 [4, 1, 1] = some [2, 2, 1] := by decide +kernel

end Shares

/-! ## tmux's layout check -/

/-- The children stand next to each other with a separator between, and span the split across
its axis. -/
def Contiguous (orientation : Orientation) (g : Geometry) : Int → List LayoutCell → Prop
  | _, [] => True
  | offset, cell :: cells =>
    cell.geometry = g.child orientation offset (cell.geometry.extent orientation) ∧
      Contiguous orientation g (offset + cell.geometry.extent orientation + 1) cells

/-- At every split, the children and the separators between them fill it. -/
inductive Tiles : LayoutCell → Prop
  | leaf (g : Geometry) (paneId : Option Nat) : Tiles (.leaf g paneId)
  | split {orientation : Orientation} {g : Geometry} {children : List LayoutCell}
      (hne : children ≠ []) (hchildren : ∀ child ∈ children, Tiles child)
      (hcontiguous : Contiguous orientation g (g.offset orientation) children)
      (hsum : (children.map fun child => child.geometry.extent orientation).sum +
        (children.length - 1) = g.extent orientation) : Tiles (.split orientation g children)

structure Geometry.Positive (g : Geometry) : Prop where
  width : 1 ≤ g.width
  height : 1 ≤ g.height

/-- Every cell is at least one wide and high. -/
inductive Positive : LayoutCell → Prop
  | leaf {g : Geometry} (hg : g.Positive) (paneId : Option Nat) : Positive (.leaf g paneId)
  | split {g : Geometry} (hg : g.Positive) (orientation : Orientation) {children : List LayoutCell}
      (hchildren : ∀ child ∈ children, Positive child) : Positive (.split orientation g children)

/-- The leaves of the cells are the panes of the tree, in depth-first order. -/
inductive SameShape : TemplateNode → LayoutCell → Prop
  | pane (spec : TemplatePane) (g : Geometry) : SameShape (.pane spec) (.leaf g none)
  | split (orientation : Orientation) (sizes : Option (List ℚ)) (g : Geometry)
      {children : List TemplateNode} {cells : List LayoutCell}
      (hlen : children.length = cells.length)
      (hchildren : ∀ pair ∈ children.zip cells, SameShape pair.1 pair.2) :
      SameShape (.split orientation children sizes) (.split orientation g cells)

inductive NonEmptySplits : TemplateNode → Prop
  | pane (spec : TemplatePane) : NonEmptySplits (.pane spec)
  | split (orientation : Orientation) (sizes : Option (List ℚ)) {children : List TemplateNode}
      (hne : children ≠ []) (hchildren : ∀ child ∈ children, NonEmptySplits child) :
      NonEmptySplits (.split orientation children sizes)

mutual

/-- The least number of cells along an axis: one for each leaf, and the separators. -/
def minExtent (axis : Orientation) : TemplateNode → Nat
  | .pane _ => 1
  | .split orientation children _ =>
    if orientation = axis then (minExtents axis children).sum + (children.length - 1)
    else (minExtents axis children).foldr max 0

def minExtents (axis : Orientation) : List TemplateNode → List Nat
  | [] => []
  | child :: children => minExtent axis child :: minExtents axis children

end

/-- The window can hold the tree. -/
def CanHold (node : TemplateNode) (cols rows : Int) : Prop :=
  minExtent .horizontal node ≤ cols ∧ minExtent .vertical node ≤ rows

instance (node : TemplateNode) (cols rows : Int) : Decidable (CanHold node cols rows) :=
  inferInstanceAs (Decidable (_ ∧ _))

mutual

/-- Every split is given a cell for each child and the separators, and the doubles do no harm to
its sizes. -/
def roomy : TemplateNode → Geometry → Bool
  | .pane _, _ => true
  | .split orientation children sizes, g =>
    let n := children.length
    let total := g.extent orientation - (n - 1)
    let weights := weightsFor n sizes
    match distributeSizes total weights with
    | none => false
    | some extents =>
      decide (n ≤ total ∧ Divides total weights) &&
        roomyChildren orientation g children extents (g.offset orientation)

def roomyChildren (orientation : Orientation) (g : Geometry) :
    List TemplateNode → List Int → Int → Bool
  | child :: children, size :: sizes, offset =>
    roomy child (g.child orientation offset size) &&
      roomyChildren orientation g children sizes (offset + size + 1)
  | _, _, _ => true

end

/-- The string is a layout of the whole window that tmux accepts. -/
structure Accepted (node : TemplateNode) (cols rows : Int) (root : LayoutCell) : Prop where
  cells : geometryToCell node ⟨cols, rows, 0, 0⟩ = some root
  parsed : ∃ text ∈ serializeGeometry node cols rows, ∃ csum,
    parseLayout text = .ok ⟨csum, csum, root⟩
  window : root.geometry = ⟨cols, rows, 0, 0⟩
  tiles : Tiles root
  positive : Positive root
  shape : SameShape node root

/-! ## The cells of a split -/

@[simp] theorem Geometry.extent_child (g : Geometry) (orientation : Orientation)
    (offset size : Int) : (g.child orientation offset size).extent orientation = size := by
  cases orientation <;> rfl

theorem geometryToCell_split_eq_some {orientation : Orientation} {children : List TemplateNode}
    {sizes : Option (List ℚ)} {g : Geometry} {root : LayoutCell} :
    geometryToCell (.split orientation children sizes) g = some root ↔
      ∃ extents cells, distributeSizes (g.extent orientation - (children.length - 1))
          (weightsFor children.length sizes) = some extents ∧
        placeChildren orientation g children extents (g.offset orientation) = some cells ∧
        root = .split orientation g cells := by
  simp only [geometryToCell, Option.bind_eq_bind, Option.bind_eq_some_iff, Option.pure_def,
    Option.some.injEq]
  grind

theorem geometry_of_geometryToCell {node : TemplateNode} {g : Geometry} {cell : LayoutCell}
    (h : geometryToCell node g = some cell) : cell.geometry = g := by
  cases node with
  | pane spec =>
    rw [geometryToCell] at h
    obtain rfl := Option.some.inj h
    rfl
  | split orientation children sizes =>
    obtain ⟨_, _, -, -, rfl⟩ := geometryToCell_split_eq_some.mp h
    rfl

section Children
variable {orientation : Orientation} {g : Geometry} {children : List TemplateNode}
  {sizes : List Int} {offset : Int} {cells : List LayoutCell}

theorem placeChildren_nil : placeChildren orientation g [] sizes offset = some [] := by
  simp [placeChildren]

theorem placeChildren_cons_eq_some {child : TemplateNode} {size : Int} :
    placeChildren orientation g (child :: children) (size :: sizes) offset = some cells ↔
      ∃ cell rest, geometryToCell child (g.child orientation offset size) = some cell ∧
        placeChildren orientation g children sizes (offset + size + 1) = some rest ∧
        cells = cell :: rest := by
  simp only [placeChildren, Option.bind_eq_bind, Option.bind_eq_some_iff, Option.pure_def,
    Option.some.injEq]
  grind

/-- The cells have the sizes, next to each other, and each is that of a child. -/
structure Places (orientation : Orientation) (g : Geometry) (children : List TemplateNode)
    (sizes : List Int) (offset : Int) (cells : List LayoutCell) : Prop where
  sizes : cells.map (fun cell => cell.geometry.extent orientation) = sizes
  contiguous : Contiguous orientation g offset cells
  each : List.Forall₂ (fun child cell => ∃ g', geometryToCell child g' = some cell) children cells

theorem places_of_placeChildren (hlen : children.length = sizes.length)
    (h : placeChildren orientation g children sizes offset = some cells) :
    Places orientation g children sizes offset cells := by
  induction children generalizing sizes offset cells with
  | nil =>
    obtain rfl : sizes = [] := List.eq_nil_of_length_eq_zero hlen.symm
    obtain rfl := Option.some.inj (placeChildren_nil.symm.trans h)
    exact ⟨rfl, trivial, .nil⟩
  | cons child children ih =>
    obtain ⟨size, sizes, rfl⟩ := List.exists_cons_of_length_eq_add_one hlen.symm
    obtain ⟨cell, rest, hcell, hrest, rfl⟩ := placeChildren_cons_eq_some.mp h
    have hplaces := ih (by simpa using hlen) hrest
    have hgeometry := geometry_of_geometryToCell hcell
    have hextent : cell.geometry.extent orientation = size := by
      rw [hgeometry, Geometry.extent_child]
    refine ⟨by rw [List.map_cons, hextent, hplaces.sizes], ⟨?_, ?_⟩, .cons ⟨_, hcell⟩ hplaces.each⟩
    · rw [hextent]
      exact hgeometry
    · rw [hextent]
      exact hplaces.contiguous

end Children

theorem sameShape_of_geometryToCell {node : TemplateNode} (h : NonEmptySplits node) {g : Geometry}
    {root : LayoutCell} (hroot : geometryToCell node g = some root) : SameShape node root := by
  induction h generalizing g root with
  | pane spec =>
    rw [geometryToCell] at hroot
    obtain rfl := Option.some.inj hroot
    exact .pane spec g
  | @split orientation sizes children hne hchildren ih =>
    obtain ⟨extents, cells, hextents, hcells, rfl⟩ := geometryToCell_split_eq_some.mp hroot
    have hlen := length_of_distributeSizes hextents
    rw [length_weightsFor] at hlen
    have hplaces := places_of_placeChildren hlen.symm hcells
    refine .split orientation sizes g hplaces.each.length_eq fun pair hpair => ?_
    obtain ⟨g', hg'⟩ := (List.forall₂_iff_zip.mp hplaces.each).2 hpair
    exact ih pair.1 (List.of_mem_zip hpair).1 hg'

/-! ## Cells of at least one column and row -/

theorem Geometry.Positive.child {g : Geometry} (hg : g.Positive) {orientation : Orientation}
    (offset : Int) {size : Int} (hsize : 1 ≤ size) :
    (g.child orientation offset size).Positive := by
  cases orientation with
  | horizontal => exact ⟨hsize, hg.height⟩
  | vertical => exact ⟨hg.width, hsize⟩

theorem Positive.geometry {cell : LayoutCell} (h : Positive cell) : cell.geometry.Positive := by
  cases h with
  | leaf hg _ => exact hg
  | split hg _ _ => exact hg

theorem Geometry.Positive.extent {g : Geometry} (h : g.Positive) (orientation : Orientation) :
    1 ≤ g.extent orientation := by
  cases orientation with
  | horizontal => exact h.width
  | vertical => exact h.height

/-- The cells of the tree fit together, and are all at least one wide and high. -/
def Sound (node : TemplateNode) (g : Geometry) : Prop :=
  ∃ root, geometryToCell node g = some root ∧ Tiles root ∧ Positive root

theorem placeChildren_sound_iff {orientation : Orientation} {g : Geometry} (hg : g.Positive)
    {children : List TemplateNode} {sizes : List Int} (hlen : children.length = sizes.length)
    (hsizes : ∀ size ∈ sizes, 1 ≤ size) {offset : Int}
    (h : ∀ child ∈ children, ∀ g' : Geometry, g'.Positive →
      (Sound child g' ↔ roomy child g' = true)) :
    (∃ cells, placeChildren orientation g children sizes offset = some cells ∧
      ∀ cell ∈ cells, Tiles cell ∧ Positive cell) ↔
      roomyChildren orientation g children sizes offset = true := by
  induction children generalizing sizes offset with
  | nil => simp [placeChildren, roomyChildren]
  | cons child children ih =>
    obtain ⟨size, sizes, rfl⟩ := List.exists_cons_of_length_eq_add_one hlen.symm
    obtain ⟨hsize, hsizes⟩ := List.forall_mem_cons.mp hsizes
    have hrec := @ih sizes (by simpa using hlen) hsizes (offset + size + 1)
      fun c hc => h c (List.mem_cons_of_mem _ hc)
    rw [roomyChildren, Bool.and_eq_true, ← h child List.mem_cons_self _ (hg.child offset hsize),
      ← hrec]
    constructor
    · rintro ⟨cells, hcells, hall⟩
      obtain ⟨cell, rest, hcell, hrest, rfl⟩ := placeChildren_cons_eq_some.mp hcells
      obtain ⟨hfirst, hall⟩ := List.forall_mem_cons.mp hall
      exact ⟨⟨cell, hcell, hfirst⟩, rest, hrest, hall⟩
    · rintro ⟨⟨cell, hcell, hfirst⟩, rest, hrest, hall⟩
      exact ⟨cell :: rest, placeChildren_cons_eq_some.mpr ⟨cell, rest, hcell, hrest, rfl⟩,
        List.forall_mem_cons.mpr ⟨hfirst, hall⟩⟩

/-- All is sound exactly if no split is given too little. -/
theorem sound_iff {node : TemplateNode} (h : NonEmptySplits node) {g : Geometry}
    (hg : g.Positive) : Sound node g ↔ roomy node g = true := by
  induction h generalizing g with
  | pane spec => exact ⟨fun _ => rfl, fun _ => ⟨_, rfl, .leaf g none, .leaf hg none⟩⟩
  | @split orientation sizes children hne hchildren ih =>
    have hweights : weightsFor children.length sizes ≠ [] := by
      rw [← List.length_pos_iff, length_weightsFor]
      exact List.length_pos_iff.mpr hne
    have hfills : (∃ extents, distributeSizes (g.extent orientation - (children.length - 1))
        (weightsFor children.length sizes) = some extents ∧ Fills _ extents) ↔ _ :=
      fills_iff hweights
    rw [length_weightsFor] at hfills
    rw [roomy]
    constructor
    · rintro ⟨root, hroot, htiles, hpositive⟩
      obtain ⟨extents, cells, hextents, hcells, rfl⟩ := geometryToCell_split_eq_some.mp hroot
      have hlen := length_of_distributeSizes hextents
      rw [length_weightsFor] at hlen
      have hplaces := places_of_placeChildren hlen.symm hcells
      cases htiles with | split _ htiles _ hsum => ?_
      cases hpositive with | split _ _ hpositive => ?_
      have hone : ∀ size ∈ extents, 1 ≤ size := by
        intro size hsize
        rw [← hplaces.sizes] at hsize
        obtain ⟨cell, hcell, rfl⟩ := List.mem_map.mp hsize
        exact (hpositive cell hcell).geometry.extent orientation
      rw [hplaces.sizes, ← hplaces.each.length_eq] at hsum
      have hrest := (placeChildren_sound_iff hg hlen.symm hone fun c hc _ => ih c hc).mp
        ⟨cells, hcells, fun cell hcell => ⟨htiles cell hcell, hpositive cell hcell⟩⟩
      simp only [hextents, hrest, Bool.and_true, decide_eq_true_iff]
      exact hfills.mp ⟨extents, hextents, by omega, hone⟩
    · intro hroomy
      cases hextents : distributeSizes (g.extent orientation - (children.length - 1))
          (weightsFor children.length sizes) with
      | none => simp [hextents] at hroomy
      | some extents =>
        simp only [hextents, Bool.and_eq_true, decide_eq_true_iff] at hroomy
        obtain ⟨hdivides, hrest⟩ := hroomy
        obtain ⟨extents', hextents', hsum, hone⟩ := hfills.mpr hdivides
        obtain rfl := Option.some.inj (hextents.symm.trans hextents')
        have hlen := length_of_distributeSizes hextents
        rw [length_weightsFor] at hlen
        obtain ⟨cells, hcells, hall⟩ :=
          (placeChildren_sound_iff hg hlen.symm hone fun c hc _ => ih c hc).mpr hrest
        have hplaces := places_of_placeChildren hlen.symm hcells
        have hlenCells := hplaces.each.length_eq
        refine ⟨_, geometryToCell_split_eq_some.mpr ⟨extents, cells, hextents, hcells, rfl⟩,
          .split ?_ (fun cell hcell => (hall cell hcell).1) hplaces.contiguous ?_,
          .split hg orientation fun cell hcell => (hall cell hcell).2⟩
        · rw [← List.length_pos_iff, ← hlenCells]
          exact List.length_pos_iff.mpr hne
        · rw [hplaces.sizes, hsum, ← hlenCells]
          ring

/-- Offsets only grow from that of the split. -/
theorem Contiguous.nonneg {orientation : Orientation} {g : Geometry} (hg : 0 ≤ g.x ∧ 0 ≤ g.y)
    {cells : List LayoutCell} {offset : Int} (hoffset : 0 ≤ offset)
    (h : Contiguous orientation g offset cells) (hpos : ∀ cell ∈ cells, Positive cell) :
    ∀ cell ∈ cells, 0 ≤ cell.geometry.x ∧ 0 ≤ cell.geometry.y := by
  induction cells generalizing offset with
  | nil => simp
  | cons cell cells ih =>
    obtain ⟨hcell, hcells⟩ := h
    obtain ⟨hpos, hposs⟩ := List.forall_mem_cons.mp hpos
    have hextent := hpos.geometry.extent orientation
    refine List.forall_mem_cons.mpr ⟨?_, ih (by omega) hcells hposs⟩
    rw [hcell]
    cases orientation with
    | horizontal => exact ⟨hoffset, hg.2⟩
    | vertical => exact ⟨hg.1, hoffset⟩

theorem Tiles.proper {cell : LayoutCell} (h : Tiles cell) (hpos : Positive cell)
    (horigin : 0 ≤ cell.geometry.x ∧ 0 ≤ cell.geometry.y) : Proper cell := by
  induction h with
  | leaf g paneId =>
    have hg := hpos.geometry
    exact .leaf ⟨by linarith [hg.width], by linarith [hg.height], horigin.1, horigin.2⟩ paneId
  | @split orientation g children hne hchildren hcontiguous hsum ih =>
    have hg := hpos.geometry
    cases hpos with
    | split _ _ hposs =>
      have hoffset : 0 ≤ g.offset orientation := by
        cases orientation with
        | horizontal => exact horigin.1
        | vertical => exact horigin.2
      have horigins := hcontiguous.nonneg horigin hoffset hposs
      exact .split ⟨by linarith [hg.width], by linarith [hg.height], horigin.1, horigin.2⟩
        orientation hne fun child hchild =>
          ih child hchild (hposs child hchild) (horigins child hchild)

/-! ## Accepted layouts -/

theorem one_le_minExtent (axis : Orientation) {node : TemplateNode} (h : NonEmptySplits node) :
    1 ≤ minExtent axis node := by
  induction h with
  | pane spec => exact le_rfl
  | @split orientation sizes children hne hchildren ih =>
    cases children with
    | nil => exact absurd rfl hne
    | cons child children =>
      have hchild := ih child List.mem_cons_self
      rw [minExtent, minExtents]
      split
      · rw [List.sum_cons]
        omega
      · exact hchild.trans (le_max_left _ _)

/-- tmux accepts the layout exactly if no split is given too little. -/
theorem serializeGeometry_iff {node : TemplateNode} (h : NonEmptySplits node) {cols rows : Int}
    (hcan : CanHold node cols rows) :
    (∃ root, Accepted node cols rows root) ↔ roomy node ⟨cols, rows, 0, 0⟩ = true := by
  have hcols : (1 : Int) ≤ minExtent .horizontal node := by
    exact_mod_cast one_le_minExtent .horizontal h
  have hrows : (1 : Int) ≤ minExtent .vertical node := by
    exact_mod_cast one_le_minExtent .vertical h
  have hwindow : (⟨cols, rows, 0, 0⟩ : Geometry).Positive :=
    ⟨hcols.trans hcan.1, hrows.trans hcan.2⟩
  rw [← sound_iff h hwindow]
  constructor
  · rintro ⟨root, haccepted⟩
    exact ⟨root, haccepted.cells, haccepted.tiles, haccepted.positive⟩
  · rintro ⟨root, hroot, htiles, hpositive⟩
    have hgeometry := geometry_of_geometryToCell hroot
    have hproper := htiles.proper hpositive (by simp [hgeometry])
    have htext : serializeGeometry node cols rows = some (dumpLayout ⟨0, 0, root⟩) := by
      rw [serializeGeometry, hroot]
      rfl
    exact ⟨root, hroot, ⟨_, htext, _, parseLayout_dumpLayout hproper⟩, hgeometry, htiles, hpositive,
      sameShape_of_geometryToCell h hroot⟩

/-- Three panes in five columns, nested. -/
def nestedNode (sizes : Option (List ℚ)) : TemplateNode :=
  .split .horizontal [.pane {}, .split .horizontal [.pane {}, .pane {}] none] sizes

theorem nonEmptySplits_nestedNode (sizes : Option (List ℚ)) : NonEmptySplits (nestedNode sizes) :=
  .split _ _ (by simp) (by simpa using ⟨.pane {}, .split _ _ (by simp) (by simpa using .pane {})⟩)

theorem serializeGeometry_iff_nested : ∃ root, Accepted (nestedNode (some [1, 5])) 5 24 root :=
  (serializeGeometry_iff (nonEmptySplits_nestedNode _) (by decide)).mpr (by decide +kernel)

/-- The window can hold the panes, but the inner split is given one column, and both its panes
have none. -/
theorem serializeGeometry_too_narrow :
    NonEmptySplits (nestedNode (some [9, 1])) ∧ CanHold (nestedNode (some [9, 1])) 5 24 ∧
      serializeGeometry (nestedNode (some [9, 1])) 5 24 =
        some "ed1c,5x24,0,0\x7b3x24,0,0,1x24,4,0\x7b0x24,4,0,0x24,5,0\x7d\x7d".toList ∧
      ¬∃ root, Accepted (nestedNode (some [9, 1])) 5 24 root := by
  refine ⟨nonEmptySplits_nestedNode _, by decide, by decide +kernel, ?_⟩
  rintro ⟨root, haccepted⟩
  have hwindow : (⟨5, 24, 0, 0⟩ : Geometry).Positive := ⟨by decide, by decide⟩
  have hroomy := (sound_iff (nonEmptySplits_nestedNode _) hwindow).mp
    ⟨root, haccepted.cells, haccepted.tiles, haccepted.positive⟩
  exact absurd hroomy (by decide +kernel)

end TmuxccDriver.Parser
