import Mathlib.Algebra.Order.Field.Power
import Mathlib.Data.Nat.Cast.Order.Field
import Mathlib.Tactic.FieldSimp
import Mathlib.Tactic.Linarith
import Mathlib.Tactic.NormNum
import Mathlib.Tactic.Positivity
import DocQuery.Number.Shortest
import DocQuery.Proofs.Number.Digits
/-!
# Seventeen digits suffice

The decimals of seventeen digits lie so close that one of them reads back as a given double: the
spacing of the grid is less than the length of the interval of reals that do. So the search for
the shortest decimal always ends at a point of a grid, and that point is not zero.
-/
namespace DocQuery.Binary64

/-- A power with an exponent of either sign, as the quotient of two natural numbers. -/
theorem splitPower_eq (b : Nat) (e : Int) :
    ((if 0 ≤ e then Nat.pow b e.toNat else 1 : Nat) : ℚ) /
      ((if e < 0 then Nat.pow b (-e).toNat else 1 : Nat) : ℚ) = (b : ℚ) ^ e := by
  have power (n : Nat) : ((Nat.pow b n : Nat) : ℚ) = (b : ℚ) ^ n := Nat.cast_pow b n
  by_cases sign : 0 ≤ e
  · rw [if_pos sign, if_neg (Int.not_lt.mpr sign), power, Nat.cast_one, div_one, ← zpow_natCast,
      Int.toNat_of_nonneg sign]
  · have below : e < 0 := Int.not_le.mp sign
    rw [if_neg sign, if_pos below, power, Nat.cast_one, one_div, ← zpow_natCast,
      Int.toNat_of_nonneg (by omega), zpow_neg, inv_inv]

theorem splitPower_ne_zero {b : Nat} (base : b ≠ 0) (test : Prop) [Decidable test] (n : Nat) :
    (if test then Nat.pow b n else 1) ≠ 0 := by
  split
  · exact pow_ne_zero n base
  · exact one_ne_zero

/-- All points of a grid have the same denominator. -/
theorem onGrid_eq (n : Nat) (q k : Int) :
    onGrid n q k = (n * (onGrid 1 q k).1, (onGrid 1 q k).2) := by
  simp only [onGrid, Nat.one_mul, Nat.mul_assoc]

theorem onGrid_denominator_pos (q k : Int) : 0 < (onGrid 1 q k).2 :=
  Nat.pos_of_ne_zero
    (mul_ne_zero (splitPower_ne_zero two_ne_zero _ _) (splitPower_ne_zero (by decide) _ _))

/-- The unit `2 ^ (q - 2)` in steps of the grid. -/
theorem onGrid_unit (q k : Int) :
    ((onGrid 1 q k).1 : ℚ) / (onGrid 1 q k).2 = 2 ^ (q - 2) / 10 ^ k := by
  have two := splitPower_eq 2 (q - 2)
  have ten := splitPower_eq 10 k
  have parts : (onGrid 1 q k).1 = (if 0 ≤ q - 2 then Nat.pow 2 (q - 2).toNat else 1) *
      (if k < 0 then Nat.pow 10 (-k).toNat else 1) := by
    simp only [onGrid, Nat.one_mul]
  rw [parts]
  simp only [onGrid, Nat.cast_mul]
  rw [mul_div_mul_comm, two, ← inv_div, ten, ← div_eq_mul_inv]
  rfl

theorem onGrid_unit_pos (q k : Int) : 0 < (onGrid 1 q k).1 := by
  have quotient : 0 < ((onGrid 1 q k).1 : ℚ) / (onGrid 1 q k).2 := by
    rw [onGrid_unit]
    positivity
  apply Nat.pos_of_ne_zero
  intro none
  rw [none, Nat.cast_zero, zero_div] at quotient
  exact lt_irrefl 0 quotient

section

variable {x : Binary64}

/-- A finite double other than zero has a significand of at most fifty-three bits. -/
theorem scaled_bounds (nonzero : x.isZero = false) :
    0 < x.scaled.1 ∧ x.scaled.1 < 9007199254740992 := by
  have code : x.code ≠ 0 := of_decide_eq_false nonzero
  have bits : Nat.pow 2 52 = 4503599627370496 := rfl
  have fraction := Nat.mod_lt x.code (show 0 < 4503599627370496 by decide)
  have whole := Nat.div_add_mod x.code 4503599627370496
  unfold scaled
  dsimp only
  rw [bits]
  split
  next subnormal =>
    rw [subnormal] at whole
    constructor <;> omega
  next => constructor <;> omega

/-- The magnitude as a rational number. -/
def magnitude (x : Binary64) : ℚ :=
  x.scaled.1 * 2 ^ x.scaled.2

theorem ratio_eq_magnitude (x : Binary64) : (x.ratio.1 : ℚ) / x.ratio.2 = x.magnitude := by
  unfold ratio magnitude
  dsimp only
  split
  next sign =>
    have power : ((Nat.pow 2 x.scaled.2.toNat : Nat) : ℚ) = 2 ^ x.scaled.2 := by
      conv_rhs => rw [← Int.toNat_of_nonneg sign, zpow_natCast]
      exact Nat.cast_pow 2 _
    rw [Nat.cast_mul, Nat.cast_one, div_one, power]
  next sign =>
    have power : ((Nat.pow 2 (-x.scaled.2).toNat : Nat) : ℚ) = 2 ^ (-x.scaled.2) := by
      conv_rhs => rw [← Int.toNat_of_nonneg (show 0 ≤ -x.scaled.2 by omega), zpow_natCast]
      exact Nat.cast_pow 2 _
    rw [power, zpow_neg, div_inv_eq_mul]

theorem ratio_pos (nonzero : x.isZero = false) : 0 < x.ratio.1 ∧ 0 < x.ratio.2 := by
  obtain ⟨positive, _⟩ := scaled_bounds nonzero
  have power (n : Nat) : 0 < Nat.pow 2 n := Nat.two_pow_pos n
  unfold ratio
  dsimp only
  split
  · exact ⟨Nat.mul_pos positive (power _), Nat.one_pos⟩
  · exact ⟨positive, power _⟩

end

/-- The power of ten that the exponent tells is not above the quotient. -/
theorem pow_decimalExponent_le {num den : Nat} (above : 0 < num) (below : 0 < den) :
    (10 : ℚ) ^ decimalExponent num den ≤ num / den := by
  have power (n : Nat) : ((Nat.pow 10 n : Nat) : ℚ) = 10 ^ n := Nat.cast_pow 10 n
  have denominator : (0 : ℚ) < den := Nat.cast_pos.mpr below
  unfold decimalExponent
  split
  next reached =>
    have floor : num / den ≠ 0 := (Nat.div_pos reached below).ne'
    have digits := Decimal.pow_length_digits_le floor
    have length := Decimal.length_digits_pos (num / den)
    have exponent : ((Decimal.digits (num / den)).length : Int) - 1 =
        ((Decimal.digits (num / den)).length - 1 : Nat) := by omega
    rw [exponent, zpow_natCast, ← power]
    calc ((Nat.pow 10 ((Decimal.digits (num / den)).length - 1) : Nat) : ℚ)
        ≤ ((num / den : Nat) : ℚ) := Nat.cast_le.mpr digits
      _ ≤ num / den := Nat.cast_div_le
  next =>
    dsimp only
    split
    next exact =>
      have length := Decimal.length_digits_pos (den / num)
      have exponent : 1 - ((Decimal.digits (den / num)).length : Int) =
          -((Decimal.digits (den / num)).length - 1 : Nat) := by omega
      have total : (num : ℚ) * 10 ^ ((Decimal.digits (den / num)).length - 1) = den := by
        rw [← power, ← Nat.cast_mul, exact]
      rw [exponent, zpow_neg, zpow_natCast, ← total]
      have unit : (num : ℚ) ≠ 0 := (Nat.cast_pos.mpr above).ne'
      field_simp
      exact le_refl _
    next =>
      have digits := Decimal.lt_pow_length_digits (den / num)
      have product := (Nat.div_lt_iff_lt_mul above).mp digits
      have bound : (den : ℚ) < 10 ^ (Decimal.digits (den / num)).length * num := by
        rw [← power, ← Nat.cast_mul]
        exact Nat.cast_lt.mpr product
      rw [zpow_neg, zpow_natCast, le_div_iff₀ denominator, inv_mul_le_iff₀ (by positivity)]
      exact bound.le

section

variable {x : Binary64}

/-- The exponent with which the search for a short decimal begins. -/
def topExponent (x : Binary64) : Int :=
  decimalExponent x.ratio.1 x.ratio.2

theorem pow_topExponent_le (nonzero : x.isZero = false) :
    (10 : ℚ) ^ x.topExponent ≤ x.magnitude := by
  obtain ⟨above, below⟩ := ratio_pos nonzero
  rw [← ratio_eq_magnitude]
  exact pow_decimalExponent_le above below

/-- How far below the double the interval reaches, in quarters of the spacing. -/
def reachBelow (x : Binary64) : Nat :=
  if x.scaled.1 = Nat.pow 2 52 && -1074 < x.scaled.2 then 1 else 2

theorem reachBelow_cases (x : Binary64) :
    x.reachBelow = 2 ∨ (x.reachBelow = 1 ∧ x.scaled.1 = 4503599627370496) := by
  unfold reachBelow
  split
  next lowest =>
    simp only [Bool.and_eq_true, decide_eq_true_eq] at lowest
    exact Or.inr ⟨rfl, lowest.1⟩
  next => exact Or.inl rfl

/-- The grid of seventeen digits is finer than the interval is long. -/
theorem grid_narrow (nonzero : x.isZero = false) :
    (onGrid 1 x.scaled.2 (x.topExponent - 16)).2 <
      (x.reachBelow + 2) * (onGrid 1 x.scaled.2 (x.topExponent - 16)).1 := by
  obtain ⟨_, fits⟩ := scaled_bounds nonzero
  have unit := onGrid_unit x.scaled.2 (x.topExponent - 16)
  have denominator : (0 : ℚ) < (onGrid 1 x.scaled.2 (x.topExponent - 16)).2 :=
    Nat.cast_pos.mpr (onGrid_denominator_pos _ _)
  have start := pow_topExponent_le nonzero
  have spacing : (10 : ℚ) ^ (x.topExponent - 16) = 10 ^ x.topExponent / 10 ^ (16 : Int) :=
    zpow_sub₀ (by norm_num) _ _
  have quarter : (2 : ℚ) ^ (x.scaled.2 - 2) = 2 ^ x.scaled.2 / 4 := by
    rw [zpow_sub₀ (by norm_num)]
    norm_num
  have two : (0 : ℚ) < 2 ^ x.scaled.2 := by positivity
  -- the length of the interval in units of the grid
  have wide : (1 : ℚ) <
      (x.reachBelow + 2) * (2 ^ (x.scaled.2 - 2) / 10 ^ (x.topExponent - 16)) := by
    rw [← mul_div_assoc, one_lt_div (by positivity), spacing, quarter,
      div_lt_iff₀ (by positivity)]
    refine lt_of_le_of_lt start ?_
    unfold magnitude
    rcases reachBelow_cases x with two | ⟨one, lowest⟩
    · have small : (x.scaled.1 : ℚ) < 9007199254740992 := by exact_mod_cast fits
      rw [two]
      norm_num
      nlinarith
    · rw [one, lowest]
      norm_num
      nlinarith
  rw [← unit, ← mul_div_assoc, one_lt_div denominator] at wide
  exact_mod_cast wide

/-- The double lies at least so many steps of the grid above zero. -/
theorem grid_reached (nonzero : x.isZero = false) (extra : Nat) :
    (onGrid 1 x.scaled.2 (x.topExponent - extra)).2 ≤
      4 * x.scaled.1 * (onGrid 1 x.scaled.2 (x.topExponent - extra)).1 := by
  have unit := onGrid_unit x.scaled.2 (x.topExponent - extra)
  have denominator : (0 : ℚ) < (onGrid 1 x.scaled.2 (x.topExponent - extra)).2 :=
    Nat.cast_pos.mpr (onGrid_denominator_pos _ _)
  have finer : (10 : ℚ) ^ (x.topExponent - extra) ≤ 10 ^ x.topExponent :=
    zpow_le_zpow_right₀ (by norm_num) (by omega)
  have start := finer.trans (pow_topExponent_le nonzero)
  have quarter : (2 : ℚ) ^ (x.scaled.2 - 2) = 2 ^ x.scaled.2 / 4 := by
    rw [zpow_sub₀ (by norm_num)]
    norm_num
  have reached : (1 : ℚ) ≤
      4 * x.scaled.1 * (2 ^ (x.scaled.2 - 2) / 10 ^ (x.topExponent - extra)) := by
    rw [← mul_div_assoc, one_le_div (by positivity), quarter]
    unfold magnitude at start
    linarith
  rw [← unit, ← mul_div_assoc, one_le_div denominator] at reached
  exact_mod_cast reached

/-- The point of a grid below the double, or on it. -/
def pointBelow (x : Binary64) (k : Int) : Nat :=
  4 * x.scaled.1 * (onGrid 1 x.scaled.2 k).1 / (onGrid 1 x.scaled.2 k).2

/-- Whether a point of a grid reads back as the double. -/
def readsBack (x : Binary64) (k : Int) (d : Nat) : Bool :=
  let low := (4 * x.scaled.1 - x.reachBelow) * (onGrid 1 x.scaled.2 k).1
  let high := (4 * x.scaled.1 + 2) * (onGrid 1 x.scaled.2 k).1
  let point := d * (onGrid 1 x.scaled.2 k).2
  if x.scaled.1 % 2 = 0 then low ≤ point && point ≤ high else low < point && point < high

/-- The search looks at the two neighbours of the double on a grid and at nothing else. -/
theorem gridPoint?_cases (tie : Tie) (k : Int) :
    (gridPoint? tie x k = none ∧ x.readsBack k (x.pointBelow k) = false ∧
      x.readsBack k (x.pointBelow k + 1) = false) ∨
    gridPoint? tie x k = some (x.pointBelow k) ∨
    gridPoint? tie x k = some (x.pointBelow k + 1) := by
  generalize search : gridPoint? tie x k = point
  unfold gridPoint? interval at search
  simp only [onGrid_eq (4 * x.scaled.1 - _), onGrid_eq (4 * x.scaled.1),
    onGrid_eq (4 * x.scaled.1 + 2), decide_eq_true_eq] at search
  split at search
  next first second => exact Or.inl ⟨search.symm, first, second⟩
  next => exact Or.inr (Or.inl search.symm)
  next => exact Or.inr (Or.inr search.symm)
  next =>
    split at search
    · exact Or.inr (Or.inl search.symm)
    split at search
    · exact Or.inr (Or.inr search.symm)
    cases tie with
    | up => exact Or.inr (Or.inr search.symm)
    | even =>
      dsimp only at search
      split at search
      · exact Or.inr (Or.inl search.symm)
      · exact Or.inr (Or.inr search.symm)

/-- If both neighbours miss the interval it lies between them. -/
theorem interval_le_spacing (nonzero : x.isZero = false) {k : Int}
    (below : x.readsBack k (x.pointBelow k) = false)
    (above : x.readsBack k (x.pointBelow k + 1) = false) :
    (x.reachBelow + 2) * (onGrid 1 x.scaled.2 k).1 ≤ (onGrid 1 x.scaled.2 k).2 := by
  have unitPos := onGrid_unit_pos x.scaled.2 k
  have denPos := onGrid_denominator_pos x.scaled.2 k
  obtain ⟨positive, _⟩ := scaled_bounds nonzero
  unfold readsBack pointBelow at below above
  generalize (onGrid 1 x.scaled.2 k).1 = unit at *
  generalize (onGrid 1 x.scaled.2 k).2 = den at *
  generalize x.scaled.1 = m at *
  have sizes : x.reachBelow = 1 ∨ x.reachBelow = 2 := by
    rcases x.reachBelow_cases with two | ⟨one, _⟩
    · exact Or.inr two
    · exact Or.inl one
  generalize x.reachBelow = reach at *
  have inside : reach * unit ≤ 4 * m * unit := Nat.mul_le_mul_right unit (by omega)
  have whole : 4 * m * unit / den * den ≤ 4 * m * unit := Nat.div_mul_le_self _ _
  have next : 4 * m * unit < (4 * m * unit / den + 1) * den := by
    rw [Nat.add_mul, Nat.one_mul, Nat.mul_comm (4 * m * unit / den)]
    exact Nat.lt_mul_div_succ _ denPos
  have step : (4 * m * unit / den + 1) * den = 4 * m * unit / den * den + den := by
    rw [Nat.add_mul, Nat.one_mul]
  have high : (4 * m + 2) * unit = 4 * m * unit + 2 * unit := Nat.add_mul _ _ _
  have low : (4 * m - reach) * unit = 4 * m * unit - reach * unit := Nat.sub_mul _ _ _
  have length : (reach + 2) * unit = reach * unit + 2 * unit := Nat.add_mul _ _ _
  dsimp only at below above
  rw [low, high] at below above
  rw [length]
  rw [step] at above next
  split at below
  next =>
    rw [if_pos ‹_›] at above
    simp only [Bool.and_eq_false_iff, decide_eq_false_iff_not, Nat.not_le] at below above
    omega
  next =>
    rw [if_neg ‹_›] at above
    simp only [Bool.and_eq_false_iff, decide_eq_false_iff_not, Nat.not_lt] at below above
    omega

/-- A point that the search finds is not zero. -/
theorem gridPoint?_ne_zero (nonzero : x.isZero = false) (tie : Tie) (extra d : Nat)
    (found : gridPoint? tie x (x.topExponent - extra) = some d) : d ≠ 0 := by
  have positive : 0 < x.pointBelow (x.topExponent - extra) :=
    Nat.div_pos (grid_reached nonzero extra) (onGrid_denominator_pos _ _)
  rcases gridPoint?_cases (x := x) tie (x.topExponent - extra) with ⟨none, _⟩ | below | above
  · rw [none] at found
    cases found
  · rw [below] at found
    have same := Option.some.inj found
    omega
  · rw [above] at found
    have same := Option.some.inj found
    omega

/-- On the grid of seventeen digits there is a point that reads back. -/
theorem exists_gridPoint (nonzero : x.isZero = false) (tie : Tie) :
    ∃ d, gridPoint? tie x (x.topExponent - 16) = some d := by
  rcases gridPoint?_cases (x := x) tie (x.topExponent - 16) with ⟨_, below, above⟩ | found | found
  · have spaced := interval_le_spacing nonzero below above
    have narrow := grid_narrow nonzero
    omega
  · exact ⟨_, found⟩
  · exact ⟨_, found⟩

theorem shortestFrom_digits_ne_zero (nonzero : x.isZero = false) (tie : Tie) (steps extra : Nat)
    (left : extra ≤ 16) (total : steps + extra = 17) :
    (shortestFrom tie x x.topExponent steps extra).digits ≠ 0 := by
  induction steps generalizing extra with
  | zero => omega
  | succ steps ih =>
    rw [shortestFrom]
    split
    next d found =>
      split
      · exact one_ne_zero
      · exact gridPoint?_ne_zero nonzero tie extra d found
    next missed =>
      have more : extra ≠ 16 := by
        rintro rfl
        obtain ⟨d, found⟩ := exists_gridPoint nonzero tie
        rw [show ((16 : Nat) : Int) = 16 from rfl, found] at missed
        cases missed
      exact ih (extra + 1) (by omega) (by omega)

/-- The shortest decimal of a double other than zero has a digit other than zero. -/
theorem shortest_digits_ne_zero (nonzero : x.isZero = false) (tie : Tie) :
    (x.shortest tie).digits ≠ 0 :=
  shortestFrom_digits_ne_zero nonzero tie 17 0 (by decide) rfl

end

end DocQuery.Binary64
