import Mathlib.Algebra.BigOperators.Group.List.Basic
import Mathlib.Algebra.Order.BigOperators.Group.List
import Mathlib.Algebra.Order.Field.Power
import Mathlib.Algebra.Order.Ring.Pow
import Mathlib.Data.Int.Log
import Mathlib.Data.Rat.Floor
import Mathlib.Tactic.Linarith
import Mathlib.Tactic.NormNum
import Mathlib.Tactic.Positivity
import Mathlib.Tactic.Ring

/-!
# Doubles

Binary64 numbers that are not negative: sums, products and quotients are rounded to the nearest
one, and to the even one between two.

Results:
1. `abs_nearest_sub_le`, `nearest_error`: how far a rounded number is from the exact one.
2. `nearest_of_multiple`: what is a double already stays.
3. `sum_bounds`: a sum of rounded additions.
4. `sum_shares_of_sum`: shares in proportion to weights sum to nearly what is shared.
-/

namespace TmuxccDriver.Lib

/-! ## Rounding -/

/-- The nearest integer, and of two the even one. -/
def roundEven (x : ℚ) : ℤ :=
  if Int.fract x < 1 / 2 then ⌊x⌋
  else if 1 / 2 < Int.fract x then ⌊x⌋ + 1
  else if ⌊x⌋ % 2 = 0 then ⌊x⌋ else ⌊x⌋ + 1

/-- The exponent of the last place of the doubles around a number. -/
def lastPlace (x : ℚ) : ℤ := max (Int.log 2 x - 52) (-1074)

/-- The nearest double, if exponents had no upper bound. -/
def nearest (x : ℚ) : ℚ := roundEven (x / 2 ^ lastPlace x) * 2 ^ lastPlace x

theorem roundEven_cases (x : ℚ) :
    roundEven x = ⌊x⌋ ∧ Int.fract x ≤ 1 / 2 ∨ roundEven x = ⌊x⌋ + 1 ∧ 1 / 2 ≤ Int.fract x := by
  unfold roundEven
  split
  · next h => exact .inl ⟨rfl, h.le⟩
  · next hge =>
    split
    · next h => exact .inr ⟨rfl, h.le⟩
    · next hle =>
      split
      · exact .inl ⟨rfl, not_lt.mp hle⟩
      · exact .inr ⟨rfl, not_lt.mp hge⟩

theorem abs_roundEven_sub_le (x : ℚ) : |(roundEven x : ℚ) - x| ≤ 1 / 2 := by
  have hfract := Int.floor_add_fract x
  rw [abs_le]
  rcases roundEven_cases x with ⟨heq, hle⟩ | ⟨heq, hge⟩
  · have hnonneg := Int.fract_nonneg x
    rw [heq]
    constructor <;> linarith
  · have hlt := Int.fract_lt_one x
    rw [heq, Int.cast_add, Int.cast_one]
    constructor <;> linarith

theorem roundEven_nonneg {x : ℚ} (h : 0 ≤ x) : 0 ≤ roundEven x := by
  have hfloor := Int.floor_nonneg.mpr h
  rcases roundEven_cases x with ⟨heq, -⟩ | ⟨heq, -⟩ <;> omega

@[simp] theorem roundEven_intCast (n : ℤ) : roundEven n = n := by
  rw [roundEven, Int.fract_intCast, if_pos (by norm_num), Int.floor_intCast]

theorem lastPlace_pos (x : ℚ) : (0 : ℚ) < 2 ^ lastPlace x := zpow_pos two_pos _

theorem nearest_nonneg {x : ℚ} (h : 0 ≤ x) : 0 ≤ nearest x :=
  mul_nonneg (Int.cast_nonneg (roundEven_nonneg (div_nonneg h (lastPlace_pos x).le)))
    (lastPlace_pos x).le

/-- A rounded number is at most half a last place away. -/
theorem abs_nearest_sub_le (x : ℚ) : |nearest x - x| ≤ 2 ^ lastPlace x / 2 := by
  have hpos := lastPlace_pos x
  have hscaled : nearest x - x =
      (roundEven (x / 2 ^ lastPlace x) - x / 2 ^ lastPlace x) * 2 ^ lastPlace x := by
    rw [sub_mul, div_mul_cancel₀ _ hpos.ne']
    rfl
  rw [hscaled, abs_mul, abs_of_pos hpos]
  have hround := mul_le_mul_of_nonneg_right (abs_roundEven_sub_le (x / 2 ^ lastPlace x)) hpos.le
  linarith

/-- Numbers of up to 26 bits are rounded by at most 2^-28. -/
theorem abs_nearest_sub_le_of_le {x : ℚ} (hx : 0 ≤ x) (h : x ≤ 2 ^ 25) :
    |nearest x - x| ≤ 1 / 2 ^ 28 := by
  have hlog : Int.log 2 x ≤ 25 := by
    rcases hx.eq_or_lt with rfl | hpos
    · rw [Int.log_zero_right]
      norm_num
    · have hmono := Int.log_mono_right (b := 2) hpos h
      rwa [show (2 : ℚ) ^ 25 = ((2 : ℕ) : ℚ) ^ (25 : ℤ) by norm_num, Int.log_zpow one_lt_two]
        at hmono
  have hplace : (2 : ℚ) ^ lastPlace x ≤ 2 ^ (-27 : ℤ) :=
    zpow_le_zpow_right₀ one_le_two (by rw [lastPlace]; omega)
  calc |nearest x - x| ≤ 2 ^ lastPlace x / 2 := abs_nearest_sub_le x
    _ ≤ 2 ^ (-27 : ℤ) / 2 := div_le_div_of_nonneg_right hplace zero_le_two
    _ = 1 / 2 ^ 28 := by norm_num

/-- A multiple of a power of two that is not below the last place stays. -/
theorem nearest_of_multiple {x : ℚ} {k : ℤ} (m : ℤ) (hx : x = m * 2 ^ k) (hk : lastPlace x ≤ k) :
    nearest x = x := by
  have hpos := lastPlace_pos x
  have hpow : (2 : ℚ) ^ k = ((2 : ℤ) ^ (k - lastPlace x).toNat : ℤ) * 2 ^ lastPlace x := by
    rw [Int.cast_pow, Int.cast_ofNat, ← zpow_natCast, Int.toNat_of_nonneg (by omega),
      ← zpow_add₀ two_ne_zero, sub_add_cancel]
  have hwhole : x / 2 ^ lastPlace x = (m * 2 ^ (k - lastPlace x).toNat : ℤ) := by
    rw [div_eq_iff hpos.ne', Int.cast_mul, mul_assoc, ← hpow]
    exact hx
  rw [nearest, hwhole, roundEven_intCast, ← hwhole, div_mul_cancel₀ _ hpos.ne']

/-- Whole numbers of up to 53 bits are doubles. -/
theorem nearest_natCast {n : ℕ} (h : n < 2 ^ 53) : nearest n = n := by
  refine nearest_of_multiple (k := 0) n (by simp) ?_
  have hlog : Nat.log 2 n ≤ 52 := by
    rcases Nat.eq_zero_or_pos n with rfl | hpos
    · simp
    · exact Nat.lt_succ_iff.mp ((Nat.log_lt_iff_lt_pow (by norm_num) hpos.ne').mpr h)
  rw [lastPlace, Int.log_natCast]
  omega

@[simp] theorem nearest_zero : nearest 0 = 0 := by
  simpa using nearest_natCast (n := 0) (by norm_num)

/-- A multiple of the least double. -/
def OnGrid (x : ℚ) : Prop := ∃ m : ℤ, x = m * 2 ^ (-1074 : ℤ)

theorem onGrid_natCast (n : ℕ) : OnGrid n :=
  ⟨n * 2 ^ 1074, by
    rw [Int.cast_mul, Int.cast_pow, Int.cast_ofNat, mul_assoc, ← zpow_natCast,
      ← zpow_add₀ two_ne_zero]
    simp⟩

theorem OnGrid.add {x y : ℚ} (hx : OnGrid x) (hy : OnGrid y) : OnGrid (x + y) := by
  obtain ⟨m, rfl⟩ := hx
  obtain ⟨k, rfl⟩ := hy
  exact ⟨m + k, by rw [Int.cast_add, add_mul]⟩

theorem OnGrid.natCast_mul {x : ℚ} (n : ℕ) (hx : OnGrid x) : OnGrid (n * x) := by
  obtain ⟨m, rfl⟩ := hx
  exact ⟨n * m, by rw [Int.cast_mul, Int.cast_natCast, mul_assoc]⟩

theorem onGrid_nearest (x : ℚ) : OnGrid (nearest x) := by
  have hle : -1074 ≤ lastPlace x := le_max_right _ _
  refine ⟨roundEven (x / 2 ^ lastPlace x) * 2 ^ (lastPlace x + 1074).toNat, ?_⟩
  rw [Int.cast_mul, Int.cast_pow, Int.cast_ofNat, mul_assoc, ← zpow_natCast,
    Int.toNat_of_nonneg (by omega), ← zpow_add₀ two_ne_zero, nearest]
  congr 2
  ring

/-- The unit roundoff. -/
def roundoff : ℚ := 1 / 2 ^ 53

theorem roundoff_pos : 0 < roundoff := by norm_num [roundoff]

theorem lastPlace_le_of_normal {x : ℚ} (h : 2 ^ (-1022 : ℤ) ≤ x) :
    (2 : ℚ) ^ lastPlace x ≤ x / 2 ^ 52 := by
  have hpos : 0 < x := (zpow_pos two_pos _).trans_le h
  have hlog : -1022 ≤ Int.log 2 x :=
    (Int.zpow_le_iff_le_log one_lt_two hpos).mp (by exact_mod_cast h)
  have hself : (2 : ℚ) ^ Int.log 2 x ≤ x := by exact_mod_cast Int.zpow_log_le_self one_lt_two hpos
  have hplace : lastPlace x = Int.log 2 x - 52 := max_eq_left (by omega)
  rw [hplace, zpow_sub₀ two_ne_zero]
  exact div_le_div_of_nonneg_right hself (by positivity)

theorem nearest_of_subnormal {x : ℚ} (hx : 0 ≤ x) (hgrid : OnGrid x) (h : x < 2 ^ (-1022 : ℤ)) :
    nearest x = x := by
  rcases hx.eq_or_lt with rfl | hpos
  · exact nearest_zero
  · obtain ⟨m, hm⟩ := hgrid
    refine nearest_of_multiple m hm ?_
    have hlog : Int.log 2 x < -1022 :=
      (Int.lt_zpow_iff_log_lt one_lt_two hpos).mp (by exact_mod_cast h)
    rw [lastPlace]
    omega

/-- The error of rounding a number of the grid is relative. -/
theorem nearest_error {x : ℚ} (hx : 0 ≤ x) (hgrid : OnGrid x) :
    x * (1 - roundoff) ≤ nearest x ∧ nearest x ≤ x * (1 + roundoff) := by
  have hroundoff : x * roundoff = x / 2 ^ 52 / 2 := by
    rw [roundoff]
    ring
  rcases lt_or_ge x (2 ^ (-1022 : ℤ)) with hsub | hnormal
  · rw [nearest_of_subnormal hx hgrid hsub]
    have hnonneg : 0 ≤ x * roundoff := mul_nonneg hx roundoff_pos.le
    constructor <;> linarith
  · have hdist := abs_le.mp (abs_nearest_sub_le x)
    have hplace := lastPlace_le_of_normal hnormal
    constructor <;> linarith [hdist.1, hdist.2]

/-- What a quotient may be off by, however small it is. -/
@[irreducible] def underflow : ℚ := 2 ^ (-1075 : ℤ)

theorem underflow_pos : 0 < underflow := by
  rw [underflow]
  exact zpow_pos two_pos _

theorem underflow_le : underflow ≤ 1 / 2 ^ 27 := by
  rw [underflow, one_div, ← zpow_natCast, ← zpow_neg]
  exact zpow_le_zpow_right₀ one_le_two (by norm_num)

theorem lastPlace_of_subnormal {x : ℚ} (hpos : 0 < x) (h : x < 2 ^ (-1022 : ℤ)) :
    lastPlace x = -1074 := by
  have hlog : Int.log 2 x < -1022 :=
    (Int.lt_zpow_iff_log_lt one_lt_two hpos).mp (by exact_mod_cast h)
  rw [lastPlace]
  omega

theorem nearest_error_any {x : ℚ} (hx : 0 ≤ x) :
    x * (1 - roundoff) - underflow ≤ nearest x ∧ nearest x ≤ x * (1 + roundoff) + underflow := by
  have hunderflow := underflow_pos
  have hnonneg : 0 ≤ x * roundoff := mul_nonneg hx roundoff_pos.le
  rcases hx.eq_or_lt with rfl | hpos
  · rw [nearest_zero]
    constructor <;> linarith
  · have hplace : (2 : ℚ) ^ lastPlace x / 2 ≤ x * roundoff + underflow := by
      rcases lt_or_ge x (2 ^ (-1022 : ℤ)) with hsub | hnormal
      · rw [lastPlace_of_subnormal hpos hsub, underflow, show (-1074 : ℤ) = -1075 + 1 by rfl,
          zpow_add_one₀ two_ne_zero]
        linarith
      · have hle := lastPlace_le_of_normal hnormal
        rw [roundoff] at hnonneg ⊢
        linarith
    have hdist := abs_le.mp (abs_nearest_sub_le x)
    constructor <;> linarith [hdist.1, hdist.2]

/-! ## Doubles -/

/-- A double that is not negative. -/
inductive Double
  | finite (value : ℚ)
  | infinite
  | nan
deriving DecidableEq, Repr

namespace Double

/-- What no finite double is as large as. -/
@[irreducible] def limit : ℚ := 2 ^ 1024

/-- The nearest double, or `Infinity` where none is as large. -/
def ofRat (x : ℚ) : Double := if nearest x < limit then finite (nearest x) else infinite

def finite? : Double → Option ℚ
  | finite value => some value
  | _ => none

/-- Larger than zero. -/
def isPos : Double → Bool
  | finite value => decide (0 < value)
  | infinite => true
  | nan => false

def add : Double → Double → Double
  | finite a, finite b => ofRat (a + b)
  | nan, _ => nan
  | _, nan => nan
  | _, _ => infinite

def mul : Double → Double → Double
  | finite a, finite b => ofRat (a * b)
  | finite a, infinite => if a = 0 then nan else infinite
  | infinite, finite b => if b = 0 then nan else infinite
  | infinite, infinite => infinite
  | _, _ => nan

def div : Double → Double → Double
  | finite a, finite b =>
    if b = 0 then if a = 0 then nan else infinite
    else ofRat (a / b)
  | finite _, infinite => finite 0
  | infinite, finite _ => infinite
  | _, _ => nan

instance : Add Double := ⟨add⟩
instance : Mul Double := ⟨mul⟩
instance : Div Double := ⟨div⟩

/-- The numbers are added from the left. -/
def sum (xs : List Double) : Double := xs.foldl (· + ·) (finite 0)

theorem lt_limit {x : ℚ} (h : x ≤ 2 ^ 1016) : x < limit := by
  rw [limit]
  exact h.trans_lt (pow_lt_pow_right₀ one_lt_two (by norm_num))

theorem nearest_lt_limit {x : ℚ} (hx : 0 ≤ x) (h : x ≤ 2 ^ 25) : nearest x < limit := by
  have hdist := abs_le.mp (abs_nearest_sub_le_of_le hx h)
  have hle : nearest x ≤ 2 ^ 26 := by linarith [hdist.2]
  exact lt_limit (hle.trans (pow_le_pow_right₀ one_le_two (by norm_num)))

theorem ofRat_eq_finite {x : ℚ} (h : nearest x < limit) : ofRat x = finite (nearest x) := if_pos h

theorem ofRat_natCast {n : ℕ} (h : n < 2 ^ 53) : ofRat n = finite n := by
  have hlt : (n : ℚ) < limit := by
    rw [limit]
    exact_mod_cast h.trans (Nat.pow_lt_pow_right one_lt_two (by norm_num))
  rw [ofRat, nearest_natCast h, if_pos hlt]

theorem ofRat_eq_finite_iff {x y : ℚ} : ofRat x = finite y ↔ nearest x < limit ∧ nearest x = y := by
  unfold ofRat
  split <;> simp [*]

theorem finite_add_finite (a b : ℚ) : finite a + finite b = ofRat (a + b) := rfl

theorem finite_mul_finite (a b : ℚ) : finite a * finite b = ofRat (a * b) := rfl

theorem finite_div_finite {b : ℚ} (hb : b ≠ 0) (a : ℚ) : finite a / finite b = ofRat (a / b) :=
  if_neg hb

/-- Whatever a finite double may be. -/
def Nonneg (x : Double) : Prop := ∀ value, x = finite value → 0 ≤ value

theorem nonneg_ofRat {x : ℚ} (h : 0 ≤ x) : (ofRat x).Nonneg := by
  rintro _ heq
  obtain ⟨-, rfl⟩ := ofRat_eq_finite_iff.mp heq
  exact nearest_nonneg h

theorem Nonneg.add {x y : Double} (hx : x.Nonneg) (hy : y.Nonneg) : (x + y).Nonneg := by
  cases x with
  | finite a =>
    cases y with
    | finite b => exact nonneg_ofRat (add_nonneg (hx _ rfl) (hy _ rfl))
    | infinite => nofun
    | nan => nofun
  | infinite => cases y <;> nofun
  | nan => nofun

theorem Nonneg.mul {x y : Double} (hx : x.Nonneg) (hy : y.Nonneg) : (x * y).Nonneg := by
  have hspecial : ∀ c : ℚ, (if c = 0 then nan else infinite).Nonneg := by
    intro c
    split <;> nofun
  cases x with
  | finite a =>
    cases y with
    | finite b => exact nonneg_ofRat (mul_nonneg (hx _ rfl) (hy _ rfl))
    | infinite => exact hspecial a
    | nan => nofun
  | infinite =>
    cases y with
    | finite b => exact hspecial b
    | infinite => nofun
    | nan => nofun
  | nan => nofun

theorem Nonneg.div {x y : Double} (hx : x.Nonneg) (hy : y.Nonneg) : (x / y).Nonneg := by
  cases x with
  | finite a =>
    cases y with
    | finite b =>
      change (if b = 0 then if a = 0 then nan else infinite else ofRat (a / b)).Nonneg
      split
      · split <;> nofun
      · exact nonneg_ofRat (div_nonneg (hx _ rfl) (hy _ rfl))
    | infinite => rintro _ ⟨⟩; exact le_rfl
    | nan => nofun
  | infinite => cases y <;> nofun
  | nan => nofun

theorem nonneg_sum {xs : List Double} (h : ∀ x ∈ xs, x.Nonneg) : (sum xs).Nonneg := by
  suffices hfrom : ∀ x : Double, x.Nonneg → (xs.foldl (· + ·) x).Nonneg from
    hfrom _ fun _ heq => (finite.inj heq).le
  induction xs with
  | nil => exact fun x hx => hx
  | cons y xs ih =>
    obtain ⟨hy, hxs⟩ := List.forall_mem_cons.mp h
    exact fun x hx => ih hxs _ (hx.add hy)

theorem mapM_finite?_eq_some {xs : List Double} {ys : List ℚ} :
    xs.mapM finite? = some ys ↔ xs = ys.map finite := by
  induction xs generalizing ys with
  | nil => cases ys <;> simp
  | cons x xs ih =>
    cases x with
    | finite value =>
      cases ys with
      | nil => simp [finite?, Option.bind_eq_some_iff]
      | cons y ys => simp [finite?, Option.bind_eq_some_iff, ih, and_comm]
    | infinite => cases ys <;> simp [finite?]
    | nan => cases ys <;> simp [finite?]

/-! ## Sums -/

/-- Numbers that a sum can be taken of. -/
def Summable (ws : List ℚ) : Prop := ∀ w ∈ ws, 0 ≤ w ∧ OnGrid w

/-- Each addition is off by the unit roundoff at most. -/
theorem foldl_add_bounds {ws : List ℚ} (hws : Summable ws) {a : ℚ} (ha : 0 ≤ a) (hgrid : OnGrid a)
    (hfit : (a + ws.sum) * (1 + roundoff) ^ ws.length < limit) :
    ∃ total, (ws.map finite).foldl (· + ·) (finite a) = finite total ∧
      (a + ws.sum) * (1 - roundoff) ^ ws.length ≤ total ∧
      total ≤ (a + ws.sum) * (1 + roundoff) ^ ws.length := by
  induction ws generalizing a with
  | nil => exact ⟨a, rfl, by simp, by simp⟩
  | cons w ws ih =>
    obtain ⟨⟨hw, hwgrid⟩, hws⟩ := List.forall_mem_cons.mp hws
    have hrest : 0 ≤ ws.sum := List.sum_nonneg fun v hv => (hws v hv).1
    have hup : (1 : ℚ) ≤ 1 + roundoff := by linarith [roundoff_pos]
    have hdown : (0 : ℚ) ≤ 1 - roundoff := by norm_num [roundoff]
    have hpow := one_le_pow₀ hup (n := ws.length)
    have hpowDown := pow_nonneg hdown ws.length
    obtain ⟨hle, hge⟩ := nearest_error (add_nonneg ha hw) (hgrid.add hwgrid)
    -- what is added up so far is off by one more factor
    have hsum : nearest (a + w) + ws.sum ≤ (a + (w + ws.sum)) * (1 + roundoff) := by
      nlinarith
    have hsum' : (a + (w + ws.sum)) * (1 - roundoff) ≤ nearest (a + w) + ws.sum := by
      nlinarith [roundoff_pos]
    rw [List.sum_cons, List.length_cons, pow_succ'] at hfit
    have hfit' : (nearest (a + w) + ws.sum) * (1 + roundoff) ^ ws.length < limit := by
      have hmul := mul_le_mul_of_nonneg_right hsum (zero_le_one.trans hpow)
      linarith
    have hstep : nearest (a + w) < limit := by
      have hone := le_mul_of_one_le_right
        (add_nonneg (nearest_nonneg (add_nonneg ha hw)) hrest) hpow
      linarith
    obtain ⟨total, htotal, hlow, hhigh⟩ :=
      ih hws (nearest_nonneg (add_nonneg ha hw)) (onGrid_nearest _) hfit'
    refine ⟨total, ?_, ?_, ?_⟩
    · rw [List.map_cons, List.foldl_cons, finite_add_finite, ofRat_eq_finite hstep]
      exact htotal
    · have hmul := mul_le_mul_of_nonneg_right hsum' hpowDown
      rw [List.sum_cons, List.length_cons, pow_succ']
      linarith
    · have hmul := mul_le_mul_of_nonneg_right hsum (zero_le_one.trans hpow)
      rw [List.sum_cons, List.length_cons, pow_succ']
      linarith

theorem sum_bounds {ws : List ℚ} (hws : Summable ws)
    (hfit : ws.sum * (1 + roundoff) ^ ws.length < limit) :
    ∃ total, sum (ws.map finite) = finite total ∧
      ws.sum * (1 - roundoff) ^ ws.length ≤ total ∧
        total ≤ ws.sum * (1 + roundoff) ^ ws.length := by
  have hbounds :=
    foldl_add_bounds hws le_rfl (by simpa using onGrid_natCast 0) (by simpa using hfit)
  simpa [sum] using hbounds

/-! ## Proportional shares -/

/-- The share of a whole number in proportion to a weight is off by two roundings. -/
theorem share_bounds {r : ℕ} (hr : r < 2 ^ 53) {w : ℚ} (hw : 0 ≤ w) (hgrid : OnGrid w) {total : ℚ}
    (htotal : 0 < total) (hproduct : r * w * (1 + roundoff) < limit)
    (hquotient : r * w / total * (1 + roundoff) ^ 2 + underflow < limit) :
    ∃ y, ofRat r * finite w / finite total = finite y ∧
      r * w / total * (1 - roundoff) ^ 2 - underflow ≤ y ∧
      y ≤ r * w / total * (1 + roundoff) ^ 2 + underflow := by
  have hrw : (0 : ℚ) ≤ r * w := mul_nonneg (Nat.cast_nonneg r) hw
  have hdown : (0 : ℚ) ≤ 1 - roundoff := by norm_num [roundoff]
  have hup : (0 : ℚ) ≤ 1 + roundoff := by norm_num [roundoff]
  obtain ⟨hle, hge⟩ := nearest_error hrw (hgrid.natCast_mul r)
  obtain ⟨hle', hge'⟩ := nearest_error_any (div_nonneg (nearest_nonneg hrw) htotal.le)
  have hlow : r * w / total * (1 - roundoff) ^ 2 ≤ nearest (r * w) / total * (1 - roundoff) := by
    calc r * w / total * (1 - roundoff) ^ 2 = r * w * (1 - roundoff) / total * (1 - roundoff) := by
          ring
      _ ≤ nearest (r * w) / total * (1 - roundoff) := by gcongr
  have hhigh : nearest (r * w) / total * (1 + roundoff) ≤ r * w / total * (1 + roundoff) ^ 2 := by
    calc nearest (r * w) / total * (1 + roundoff)
        ≤ r * w * (1 + roundoff) / total * (1 + roundoff) := by
          gcongr
      _ = r * w / total * (1 + roundoff) ^ 2 := by ring
  refine ⟨nearest (nearest (r * w) / total), ?_, by linarith, by linarith⟩
  rw [ofRat_natCast hr, finite_mul_finite, ofRat_eq_finite (hge.trans_lt hproduct),
    finite_div_finite htotal.ne', ofRat_eq_finite]
  linarith

theorem shares_bounds {r : ℕ} (hr : r < 2 ^ 53) {total : ℚ} (htotal : 0 < total) {ws : List ℚ}
    (hws : Summable ws) (hproduct : r * ws.sum * (1 + roundoff) < limit)
    (hquotient : r * ws.sum / total * (1 + roundoff) ^ 2 + underflow < limit) :
    ∃ ys : List ℚ, (ws.map fun w => ofRat r * finite w / finite total) = ys.map finite ∧
      r * ws.sum / total * (1 - roundoff) ^ 2 - ws.length * underflow ≤ ys.sum ∧
      ys.sum ≤ r * ws.sum / total * (1 + roundoff) ^ 2 + ws.length * underflow := by
  induction ws with
  | nil => exact ⟨[], rfl, by simp, by simp⟩
  | cons w ws ih =>
    obtain ⟨⟨hw, hgrid⟩, hws⟩ := List.forall_mem_cons.mp hws
    have hrest : 0 ≤ ws.sum := List.sum_nonneg fun v hv => (hws v hv).1
    have hup : (0 : ℚ) ≤ 1 + roundoff := by norm_num [roundoff]
    have hr0 : (0 : ℚ) ≤ r := Nat.cast_nonneg r
    rw [List.sum_cons] at hproduct hquotient
    have hsplit : (r : ℚ) * (w + ws.sum) / total = r * w / total + r * ws.sum / total := by ring
    -- the limits hold of the parts of the sum
    have hpart : ∀ v, 0 ≤ v → v ≤ w + ws.sum → r * v * (1 + roundoff) < limit ∧
        r * v / total * (1 + roundoff) ^ 2 + underflow < limit := by
      intro v hv hle
      have hscaled : r * v ≤ r * (w + ws.sum) := by gcongr
      refine ⟨lt_of_le_of_lt (by gcongr) hproduct, lt_of_le_of_lt ?_ hquotient⟩
      gcongr
    obtain ⟨hproduct₁, hquotient₁⟩ := hpart w hw (by linarith)
    obtain ⟨hproduct₂, hquotient₂⟩ := hpart ws.sum hrest (by linarith)
    obtain ⟨y, hy, hlow, hhigh⟩ := share_bounds hr hw hgrid htotal hproduct₁ hquotient₁
    obtain ⟨ys, hys, hlows, hhighs⟩ := ih hws hproduct₂ hquotient₂
    refine ⟨y :: ys, by rw [List.map_cons, hy, hys, List.map_cons], ?_, ?_⟩
    · rw [List.sum_cons, List.sum_cons, List.length_cons, hsplit]
      push_cast
      linarith
    · rw [List.sum_cons, List.sum_cons, List.length_cons, hsplit]
      push_cast
      linarith

/-- A few roundings do not add up: the factors stay close to one. -/
theorem one_sub_roundoff_pow {n : ℕ} : 1 - n * roundoff ≤ (1 - roundoff) ^ n := by
  have hbernoulli := one_add_mul_le_pow (a := -roundoff) (by norm_num [roundoff]) n
  linarith [show (1 + -roundoff) ^ n = (1 - roundoff) ^ n by rw [← sub_eq_add_neg]]

theorem roundoff_pow_mul_le (n : ℕ) : (1 + roundoff) ^ n * (1 - roundoff) ^ n ≤ 1 := by
  rw [← mul_pow]
  refine pow_le_one₀ (mul_nonneg ?_ ?_) ?_ <;> norm_num [roundoff]

theorem one_add_roundoff_pow_le {n : ℕ} (hn : n ≤ 2 ^ 25) : (1 + roundoff) ^ n ≤ 2 := by
  have hhalf : (n : ℚ) * roundoff ≤ 1 / 2 := by
    have hnQ : (n : ℚ) ≤ 2 ^ 25 := by exact_mod_cast hn
    refine (mul_le_mul_of_nonneg_right hnQ roundoff_pos.le).trans ?_
    norm_num [roundoff]
  have hlow : 1 / 2 ≤ (1 - roundoff) ^ n := by
    have hpow := one_sub_roundoff_pow (n := n)
    linarith
  have hup : (0 : ℚ) ≤ (1 + roundoff) ^ n := pow_nonneg (by norm_num [roundoff]) n
  have hmul := mul_le_mul_of_nonneg_left hlow hup
  have hinverse := roundoff_pow_mul_le n
  linarith

/-- The shares of a whole number sum to less than one more or less than it, unless it or the
weights are very large. -/
theorem sum_shares {ws : List ℚ} (hws : Summable ws) (hpos : 0 < ws.sum) (hsum : ws.sum ≤ 2 ^ 990)
    (hn : ws.length ≤ 2 ^ 25) {r : ℕ} (hr : r ≤ 2 ^ 25) (total : ℚ)
    (hlow : ws.sum * (1 - roundoff) ^ ws.length ≤ total)
    (hhigh : total ≤ ws.sum * (1 + roundoff) ^ ws.length) :
    ∃ ys : List ℚ, (ws.map fun w => ofRat r * finite w / finite total) = ys.map finite ∧
      r - 1 < ys.sum ∧ ys.sum < r + 1 := by
  have hrQ : (r : ℚ) ≤ 2 ^ 25 := by exact_mod_cast hr
  have hnQ : (ws.length : ℚ) ≤ 2 ^ 25 := by exact_mod_cast hn
  have hr0 : (0 : ℚ) ≤ r := Nat.cast_nonneg r
  have hn0 : (0 : ℚ) ≤ ws.length := Nat.cast_nonneg _
  have hdown : (0 : ℚ) < 1 - roundoff := by norm_num [roundoff]
  have hup : (0 : ℚ) < 1 + roundoff := by norm_num [roundoff]
  have hc : ((ws.length + 2 : ℕ) : ℚ) * roundoff ≤ 1 / 2 ^ 27 := by
    have hle : ((ws.length + 2 : ℕ) : ℚ) ≤ 2 ^ 26 := by
      push_cast
      linarith [show (2 : ℚ) ^ 25 + 2 ≤ 2 ^ 26 by norm_num]
    refine (mul_le_mul_of_nonneg_right hle roundoff_pos.le).trans ?_
    norm_num [roundoff]
  have hpow := one_sub_roundoff_pow (n := ws.length + 2)
  have hinverse := roundoff_pow_mul_le ws.length
  have hinverse₂ := roundoff_pow_mul_le 2
  have hdownN := pow_pos hdown ws.length
  have hupN := pow_pos hup ws.length
  rw [pow_add] at hpow
  have htotal : 0 < total := (mul_pos hpos hdownN).trans_le hlow
  -- the exact sum over the rounded one
  have hratioLow : (1 - roundoff) ^ ws.length ≤ ws.sum / total := by
    rw [le_div_iff₀ htotal]
    calc (1 - roundoff) ^ ws.length * total
        ≤ (1 - roundoff) ^ ws.length * (ws.sum * (1 + roundoff) ^ ws.length) := by
          exact mul_le_mul_of_nonneg_left hhigh hdownN.le
      _ = ws.sum * ((1 + roundoff) ^ ws.length * (1 - roundoff) ^ ws.length) := by ring
      _ ≤ ws.sum := mul_le_of_le_one_right hpos.le hinverse
  have hratioHigh : ws.sum / total * (1 - roundoff) ^ ws.length ≤ 1 := by
    rw [div_mul_eq_mul_div, div_le_one htotal]
    exact hlow
  have hc0 : 0 ≤ ((ws.length + 2 : ℕ) : ℚ) * roundoff :=
    mul_nonneg (Nat.cast_nonneg _) roundoff_pos.le
  generalize ((ws.length + 2 : ℕ) : ℚ) * roundoff = c at hc hpow hc0
  have hfactorLow : 1 - c ≤ ws.sum / total * (1 - roundoff) ^ 2 :=
    hpow.trans (mul_le_mul_of_nonneg_right hratioLow (sq_nonneg _))
  have hfactorHigh : ws.sum / total * (1 + roundoff) ^ 2 ≤ 1 + 2 * c := by
    have hquotient : 0 ≤ ws.sum / total * (1 + roundoff) ^ 2 :=
      mul_nonneg (div_nonneg hpos.le htotal.le) (sq_nonneg _)
    have hle : ws.sum / total * (1 + roundoff) ^ 2 * (1 - c) ≤ 1 := by
      calc ws.sum / total * (1 + roundoff) ^ 2 * (1 - c)
          ≤ ws.sum / total * (1 + roundoff) ^ 2 *
              ((1 - roundoff) ^ ws.length * (1 - roundoff) ^ 2) :=
            mul_le_mul_of_nonneg_left hpow hquotient
        _ = ws.sum / total * (1 - roundoff) ^ ws.length *
              ((1 + roundoff) ^ 2 * (1 - roundoff) ^ 2) := by ring
        _ ≤ 1 * 1 := mul_le_mul hratioHigh hinverse₂
            (mul_nonneg (sq_nonneg _) (sq_nonneg _)) zero_le_one
        _ = 1 := one_mul 1
    nlinarith
  have hunderflow : ws.length * underflow ≤ 1 / 4 := by
    have hmul := mul_le_mul_of_nonneg_right hnQ underflow_pos.le
    linarith [underflow_le]
  have hrc : r * c ≤ 1 / 4 := by
    calc r * c ≤ 2 ^ 25 * (1 / 2 ^ 27) := mul_le_mul hrQ hc hc0 (by norm_num)
      _ = 1 / 4 := by norm_num
  have hproduct : r * ws.sum * (1 + roundoff) ≤ 2 ^ 1016 := by
    calc r * ws.sum * (1 + roundoff) ≤ 2 ^ 25 * 2 ^ 990 * 2 ^ 1 :=
          mul_le_mul (mul_le_mul hrQ hsum hpos.le (by norm_num)) (by norm_num [roundoff]) hup.le
            (by positivity)
      _ = 2 ^ 1016 := by rw [← pow_add, ← pow_add]
  have hquotient : r * ws.sum / total * (1 + roundoff) ^ 2 + underflow ≤ 2 ^ 26 := by
    rw [mul_div_assoc, mul_assoc]
    have hmul := mul_le_mul_of_nonneg_left hfactorHigh hr0
    linarith [underflow_le]
  obtain ⟨ys, hys, hlow', hhigh'⟩ := shares_bounds (hr.trans_lt (by norm_num)) htotal hws
    (lt_limit hproduct) (lt_limit (hquotient.trans (pow_le_pow_right₀ one_le_two (by norm_num))))
  rw [mul_div_assoc, mul_assoc] at hlow' hhigh'
  have hlowR := mul_le_mul_of_nonneg_left hfactorLow hr0
  have hhighR := mul_le_mul_of_nonneg_left hfactorHigh hr0
  exact ⟨ys, hys, by linarith, by linarith⟩

/-- Sums of whole numbers are exact up to 53 bits. -/
theorem sum_natCast {ns : List ℕ} (h : ns.sum < 2 ^ 53) :
    sum (ns.map fun n : ℕ => finite n) = finite ns.sum := by
  suffices hfrom : ∀ k : ℕ, k + ns.sum < 2 ^ 53 →
      (ns.map fun n : ℕ => finite n).foldl (· + ·) (finite k) = finite ((k + ns.sum : ℕ) : ℚ) by
    simpa [sum] using hfrom 0 (by omega)
  induction ns with
  | nil => exact fun k _ => rfl
  | cons n ns ih =>
    intro k hk
    rw [List.sum_cons] at h hk
    rw [List.map_cons, List.foldl_cons, finite_add_finite, ← Nat.cast_add,
      ofRat_natCast (by omega), ih (by omega) (k + n) (by omega), List.sum_cons, Nat.add_assoc]

/-- The sum of the weights may be rounded itself. -/
theorem sum_shares_of_sum {ws : List ℚ} (hws : Summable ws) (hpos : 0 < ws.sum)
    (hsum : ws.sum ≤ 2 ^ 990) (hn : ws.length ≤ 2 ^ 25) {r : ℕ} (hr : r ≤ 2 ^ 25) :
    ∃ (total : ℚ) (ys : List ℚ), 0 < total ∧ sum (ws.map finite) = finite total ∧
      (ws.map fun w => ofRat r * finite w / finite total) = ys.map finite ∧
      r - 1 < ys.sum ∧ ys.sum < r + 1 := by
  have hfit : ws.sum * (1 + roundoff) ^ ws.length ≤ 2 ^ 1016 := by
    calc ws.sum * (1 + roundoff) ^ ws.length ≤ 2 ^ 990 * 2 ^ 1 :=
          mul_le_mul hsum (by simpa using one_add_roundoff_pow_le hn)
            (pow_nonneg (by norm_num [roundoff]) _) (by positivity)
      _ = 2 ^ 991 := (pow_add _ _ _).symm
      _ ≤ 2 ^ 1016 := pow_le_pow_right₀ one_le_two (by norm_num)
  obtain ⟨total, htotal, hlow, hhigh⟩ := sum_bounds hws (lt_limit hfit)
  have hdown : (0 : ℚ) < 1 - roundoff := by norm_num [roundoff]
  obtain ⟨ys, hys, hbounds⟩ := sum_shares hws hpos hsum hn hr _ hlow hhigh
  exact ⟨total, ys, (mul_pos hpos (pow_pos hdown _)).trans_le hlow, htotal, hys, hbounds⟩

end Double

end TmuxccDriver.Lib
