import Mathlib.Data.Int.Log
import Mathlib.Data.Rat.Floor
import Mathlib.Tactic.FieldSimp
import Mathlib.Tactic.Linarith
import Mathlib.Tactic.Positivity
import Mathlib.Tactic.Ring
import BlockScript.Number.Shortest

/-! # The cell of a number

The rationals that round to a positive finite number form its cell: an interval from halfway to the
lower neighbour to halfway to the upper one, whose ends belong to it when the significand is even.
`Binary64.nearest` gives a fraction of a cell the number of that cell
(`Binary64.nearest_eq_ofNormal`), which is infinite where the exponent is too great, and the test
`Binary64.roundsTo` decides membership (`Binary64.roundsTo_iff`).
-/

namespace BlockScript

namespace Binary64

theorem two_zpow_pos (exponent : Int) : (0 : ℚ) < 2 ^ exponent := zpow_pos (by norm_num) exponent

theorem ten_zpow_pos (exponent : Int) : (0 : ℚ) < 10 ^ exponent := zpow_pos (by norm_num) exponent

/-- A power with an integer exponent, as the quotient of the two natural powers of which one is
trivial. -/
theorem zpow_eq_div (base : ℚ) (exponent : Int) :
    base ^ exponent = base ^ exponent.toNat / base ^ (-exponent).toNat := by
  rcases le_total 0 exponent with nonnegative | nonpositive
  · obtain ⟨n, rfl⟩ := Int.eq_ofNat_of_zero_le nonnegative
    simp
  · obtain ⟨n, same⟩ := Int.eq_ofNat_of_zero_le (neg_nonneg.mpr nonpositive)
    obtain rfl : exponent = -(n : Int) := by omega
    simp

/-- The value of `significand * 2 ^ exponent`. -/
def magnitude (significand : Nat) (exponent : Int) : ℚ := significand * 2 ^ exponent

/-- The quarter units between a number and the lower end of its cell. Below a power of two the lower
neighbour is half as far away. -/
def lowerGap (significand : Nat) (exponent : Int) : Nat :=
  if significand = 2 ^ 52 ∧ leastExponent < exponent then 1 else 2

/-- Whether a rational rounds to `significand * 2 ^ exponent`. -/
def InCell (significand : Nat) (exponent : Int) (x : ℚ) : Prop :=
  let low : ℚ := (4 * significand - lowerGap significand exponent) * 2 ^ (exponent - 2)
  let high : ℚ := (4 * significand + 2) * 2 ^ (exponent - 2)
  if significand % 2 = 0 then low ≤ x ∧ x ≤ high else low < x ∧ x < high

theorem lowerGap_pos (significand : Nat) (exponent : Int) : 0 < lowerGap significand exponent := by
  unfold lowerGap
  split <;> decide

theorem lowerGap_le_two (significand : Nat) (exponent : Int) :
    lowerGap significand exponent ≤ 2 := by
  unfold lowerGap
  split <;> decide

/-- Strictly between the ends is inside, whatever the parity. -/
theorem inCell_of_lt {significand : Nat} {exponent : Int} {x : ℚ}
    (above : (4 * significand - lowerGap significand exponent) * 2 ^ (exponent - 2) < x)
    (below : x < (4 * significand + 2) * 2 ^ (exponent - 2)) : InCell significand exponent x := by
  unfold InCell
  split
  · exact ⟨above.le, below.le⟩
  · exact ⟨above, below⟩

/-- Whatever is inside lies between the ends, or on one of them. -/
theorem InCell.bounds {significand : Nat} {exponent : Int} {x : ℚ}
    (inside : InCell significand exponent x) :
    (4 * significand - lowerGap significand exponent) * 2 ^ (exponent - 2) ≤ x ∧
      x ≤ (4 * significand + 2) * 2 ^ (exponent - 2) := by
  unfold InCell at inside
  split at inside
  · exact inside
  · exact ⟨inside.1.le, inside.2.le⟩

/-- A number lies in its own cell. -/
theorem inCell_magnitude (significand : Nat) (exponent : Int) :
    InCell significand exponent (magnitude significand exponent) := by
  have gap : (0 : ℚ) < lowerGap significand exponent := by
    exact_mod_cast lowerGap_pos significand exponent
  have unit := two_zpow_pos (exponent - 2)
  have scaled : magnitude significand exponent = 4 * significand * 2 ^ (exponent - 2) := by
    have split : (2 : ℚ) ^ exponent = 4 * 2 ^ (exponent - 2) := by
      rw [zpow_sub₀ (by norm_num)]
      norm_num
      ring
    rw [magnitude, split]
    ring
  rw [scaled]
  exact inCell_of_lt (by nlinarith) (by nlinarith)

/-! ## The test for the cell -/

/-- Both components over the common denominator compare as the two values do. -/
theorem commonScale_eq (digits : Nat) (power : Int) (units : Nat) (exponent : Int) :
    ∃ scale : ℚ, 0 < scale ∧
      ((commonScale digits power units exponent).1 : ℚ) = digits * 10 ^ power * scale ∧
      ((commonScale digits power units exponent).2 : ℚ) = units * 2 ^ exponent * scale := by
  refine ⟨10 ^ (-power).toNat * 2 ^ (-exponent).toNat, by positivity, ?_, ?_⟩
  · rw [zpow_eq_div _ power]
    simp only [commonScale]
    push_cast
    field_simp
  · rw [zpow_eq_div _ exponent]
    simp only [commonScale]
    push_cast
    field_simp

/-- The test decides membership in the cell. -/
theorem roundsTo_iff {significand : Nat} (positive : 0 < significand) (exponent : Int)
    (digits : Nat) (power : Int) :
    roundsTo significand exponent digits power = true ↔
      InCell significand exponent (digits * 10 ^ power) := by
  have gap := lowerGap_le_two significand exponent
  have difference : ((4 * significand - lowerGap significand exponent : Nat) : ℚ) =
      4 * significand - lowerGap significand exponent := by
    rw [Nat.cast_sub (by omega)]
    push_cast
    rfl
  obtain ⟨scale, scalePos, fromLow, low⟩ := commonScale_eq digits power
    (4 * significand - lowerGap significand exponent) (exponent - 2)
  obtain ⟨scale', scalePos', fromHigh, high⟩ := commonScale_eq digits power
    (4 * significand + 2) (exponent - 2)
  rw [difference] at low
  push_cast at high
  unfold roundsTo InCell
  simp only [← lowerGap.eq_def]
  split
  · simp only [Bool.and_eq_true, decide_eq_true_eq, ← @Nat.cast_le ℚ, fromLow, low, fromHigh, high,
      mul_le_mul_iff_left₀ scalePos, mul_le_mul_iff_left₀ scalePos']
  · simp only [Bool.and_eq_true, decide_eq_true_eq, ← @Nat.cast_lt ℚ, fromLow, low, fromHigh, high,
      mul_lt_mul_iff_left₀ scalePos, mul_lt_mul_iff_left₀ scalePos']

/-! ## Rounding a fraction -/

/-- The components of an unscaled fraction. -/
theorem unscaled_eq (numerator : Nat) {denominator : Nat} (positive : 0 < denominator)
    (exponent : Int) :
    0 < (unscaled numerator denominator exponent).2 ∧
      ((unscaled numerator denominator exponent).1 : ℚ) /
        (unscaled numerator denominator exponent).2 =
          (numerator : ℚ) / denominator / 2 ^ exponent := by
  rcases le_or_gt 0 exponent with nonnegative | negative
  · obtain ⟨n, rfl⟩ := Int.eq_ofNat_of_zero_le nonnegative
    simp only [unscaled, nonnegative, ↓reduceIte]
    refine ⟨by positivity, ?_⟩
    push_cast
    simp [div_div]
  · obtain ⟨n, same⟩ := Int.eq_ofNat_of_zero_le (neg_nonneg.mpr negative.le)
    obtain rfl : exponent = -(n : Int) := by omega
    have nonzero : ¬ (0 : Int) ≤ -(n : Int) := by omega
    simp only [unscaled, nonzero, ↓reduceIte]
    refine ⟨positive, ?_⟩
    simp
    ring

/-- The nearest whole number is the one within a half, where a half decides for the even one. -/
theorem roundHalfEven_eq {numerator denominator whole : Nat} (positive : 0 < denominator)
    (above : (whole : ℚ) - 1 / 2 ≤ (numerator : ℚ) / denominator)
    (below : (numerator : ℚ) / denominator ≤ whole + 1 / 2)
    (tie : whole % 2 = 1 →
      (whole : ℚ) - 1 / 2 < (numerator : ℚ) / denominator ∧
        (numerator : ℚ) / denominator < whole + 1 / 2) :
    roundHalfEven numerator denominator = whole := by
  have positiveRat : (0 : ℚ) < denominator := by exact_mod_cast positive
  simp only [le_div_iff₀ positiveRat, div_le_iff₀ positiveRat, lt_div_iff₀ positiveRat,
    div_lt_iff₀ positiveRat] at above below tie
  have aboveNat : 2 * (denominator * whole) ≤ 2 * numerator + denominator := by
    have : (2 * (denominator * whole) : ℚ) ≤ 2 * numerator + denominator := by linarith
    exact_mod_cast this
  have belowNat : 2 * numerator ≤ 2 * (denominator * whole) + denominator := by
    have : (2 * numerator : ℚ) ≤ 2 * (denominator * whole) + denominator := by linarith
    exact_mod_cast this
  have tieNat : whole % 2 = 1 → 2 * (denominator * whole) < 2 * numerator + denominator ∧
      2 * numerator < 2 * (denominator * whole) + denominator := by
    intro odd
    obtain ⟨strictAbove, strictBelow⟩ := tie odd
    constructor
    · have : (2 * (denominator * whole) : ℚ) < 2 * numerator + denominator := by linarith
      exact_mod_cast this
    · have : (2 * numerator : ℚ) < 2 * (denominator * whole) + denominator := by linarith
      exact_mod_cast this
  have divided := Nat.div_add_mod numerator denominator
  have small := Nat.mod_lt numerator positive
  unfold roundHalfEven
  generalize numerator / denominator = quotient at divided ⊢
  generalize numerator % denominator = remainder at divided small ⊢
  have notBelow : quotient ≤ whole := by
    by_contra smaller
    have := Nat.mul_le_mul_left denominator (show whole + 1 ≤ quotient by omega)
    rw [Nat.mul_add] at this
    omega
  have notAbove : whole ≤ quotient + 1 := by
    by_contra larger
    have := Nat.mul_le_mul_left denominator (show quotient + 2 ≤ whole by omega)
    rw [Nat.mul_add] at this
    omega
  rcases (show whole = quotient ∨ whole = quotient + 1 by omega) with rfl | rfl
  · rw [if_neg]
    omega
  · rw [Nat.mul_add] at aboveNat belowNat tieNat
    rw [if_pos]
    omega

/-- The exponent is the one at which the significand has fifty-three bits, but no less than the
least one. -/
theorem exponentFor_eq {numerator denominator : Nat} (numeratorPos : 0 < numerator)
    (denominatorPos : 0 < denominator) {exponent : Int}
    (above : (2 : ℚ) ^ (exponent + 52) ≤ (numerator : ℚ) / denominator)
    (below : (numerator : ℚ) / denominator < 2 ^ (exponent + 53)) :
    exponentFor numerator denominator = max leastExponent exponent := by
  have denominatorRat : (0 : ℚ) < denominator := by exact_mod_cast denominatorPos
  have numeratorLow : (2 : ℚ) ^ (numerator.log2 : Int) ≤ numerator := by
    exact_mod_cast Nat.log2_self_le numeratorPos.ne'
  have numeratorHigh : (numerator : ℚ) < 2 ^ ((numerator.log2 : Int) + 1) := by
    exact_mod_cast @Nat.lt_log2_self numerator
  have denominatorLow : (2 : ℚ) ^ (denominator.log2 : Int) ≤ denominator := by
    exact_mod_cast Nat.log2_self_le denominatorPos.ne'
  have denominatorHigh : (denominator : ℚ) < 2 ^ ((denominator.log2 : Int) + 1) := by
    exact_mod_cast @Nat.lt_log2_self denominator
  rw [le_div_iff₀ denominatorRat] at above
  rw [div_lt_iff₀ denominatorRat] at below
  -- The bit counts of the two components leave two exponents open.
  have notBelow : exponent + 52 + denominator.log2 < numerator.log2 + 1 := by
    have chain : (2 : ℚ) ^ (exponent + 52 + denominator.log2) < 2 ^ ((numerator.log2 : Int) + 1) :=
      calc (2 : ℚ) ^ (exponent + 52 + denominator.log2)
          = 2 ^ (exponent + 52) * 2 ^ (denominator.log2 : Int) := zpow_add₀ (by norm_num) _ _
        _ ≤ 2 ^ (exponent + 52) * denominator :=
          mul_le_mul_of_nonneg_left denominatorLow (two_zpow_pos _).le
        _ ≤ numerator := above
        _ < 2 ^ ((numerator.log2 : Int) + 1) := numeratorHigh
    exact (zpow_lt_zpow_iff_right₀ (by norm_num)).mp chain
  have notAbove : (numerator.log2 : Int) < exponent + 53 + (denominator.log2 + 1) := by
    have chain : (2 : ℚ) ^ (numerator.log2 : Int) < 2 ^ (exponent + 53 + (denominator.log2 + 1)) :=
      calc (2 : ℚ) ^ (numerator.log2 : Int) ≤ numerator := numeratorLow
        _ < 2 ^ (exponent + 53) * denominator := below
        _ ≤ 2 ^ (exponent + 53) * 2 ^ ((denominator.log2 : Int) + 1) :=
          mul_le_mul_of_nonneg_left denominatorHigh.le (two_zpow_pos _).le
        _ = 2 ^ (exponent + 53 + (denominator.log2 + 1)) := (zpow_add₀ (by norm_num) _ _).symm
    exact (zpow_lt_zpow_iff_right₀ (by norm_num)).mp chain
  rw [← le_div_iff₀ denominatorRat] at above
  rw [← div_lt_iff₀ denominatorRat] at below
  unfold exponentFor
  generalize guessed : (numerator.log2 : Int) - denominator.log2 - 52 = guess
  obtain ⟨positive, value⟩ := unscaled_eq numerator denominatorPos guess
  have positiveRat : (0 : ℚ) < (unscaled numerator denominator guess).2 := by
    exact_mod_cast positive
  have tooShort :
      (unscaled numerator denominator guess).1 / (unscaled numerator denominator guess).2 < 2 ^ 52 ↔
        (numerator : ℚ) / denominator < 2 ^ (guess + 52) := by
    rw [Nat.div_lt_iff_lt_mul positive, ← @Nat.cast_lt ℚ, Nat.cast_mul, ← div_lt_iff₀ positiveRat,
      value, div_lt_iff₀ (two_zpow_pos guess), zpow_add₀ (by norm_num), mul_comm]
    norm_num
  rcases (show guess = exponent ∨ guess = exponent + 1 by omega) with rfl | rfl
  · have long := mt tooShort.mp (not_lt.mpr above)
    simp only [if_neg long]
  · have short := tooShort.mpr (by rwa [show exponent + 1 + 52 = exponent + 53 by ring])
    simp only [if_pos short, Int.add_sub_cancel]

/-- A small fraction is rounded at the least exponent. -/
theorem exponentFor_eq_least {numerator denominator : Nat} (numeratorPos : 0 < numerator)
    (denominatorPos : 0 < denominator)
    (below : (numerator : ℚ) / denominator < 2 ^ (leastExponent + 53)) :
    exponentFor numerator denominator = leastExponent := by
  have positive : (0 : ℚ) < (numerator : ℚ) / denominator := by positivity
  have low := Int.zpow_log_le_self Nat.one_lt_two positive
  have high := Int.lt_zpow_succ_log_self Nat.one_lt_two ((numerator : ℚ) / denominator)
  have small := (Int.lt_zpow_iff_log_lt Nat.one_lt_two positive).mp (by exact_mod_cast below)
  generalize Int.log 2 ((numerator : ℚ) / denominator) = bits at low high small
  have found := exponentFor_eq numeratorPos denominatorPos
    (show (2 : ℚ) ^ (bits - 52 + 52) ≤ _ by rw [Int.sub_add_cancel]; exact_mod_cast low)
    (show _ < (2 : ℚ) ^ (bits - 52 + 53) by
      rw [show bits - 52 + 53 = bits + 1 by ring]; exact_mod_cast high)
  rw [found]
  omega

variable {significand : Nat} {exponent : Int} {numerator denominator : Nat}

/-- Whether a significand and an exponent are in the canonical form, where exponents have no
greatest one. -/
structure IsNormal (significand : Nat) (exponent : Int) : Prop where
  short : significand < 2 ^ 53
  least : leastExponent ≤ exponent
  full : 2 ^ 52 ≤ significand ∨ exponent = leastExponent

theorem IsCanonical.isNormal (canonical : IsCanonical significand exponent) :
    IsNormal significand exponent := ⟨canonical.1, canonical.2.1, canonical.2.2.2⟩

theorem IsNormal.isCanonical (normal : IsNormal significand exponent)
    (bounded : exponent ≤ greatestExponent) : IsCanonical significand exponent :=
  ⟨normal.short, normal.least, bounded, normal.full⟩

/-- The number of a significand and an exponent in normal form, infinite when the exponent is too
great. -/
def ofNormal (negative : Bool) (significand : Nat) (exponent : Int) : Binary64 :=
  if canonical : IsCanonical significand exponent then
    .finite negative significand exponent canonical
  else .infinite negative

/-- A fraction of a cell that is rounded at the exponent of the cell. -/
theorem nearest_of_exponentFor (negative : Bool) (normal : IsNormal significand exponent)
    (numeratorPos : 0 < numerator) (denominatorPos : 0 < denominator)
    (inside : InCell significand exponent ((numerator : ℚ) / denominator))
    (scale : exponentFor numerator denominator = exponent) :
    nearest negative numerator denominator = ofNormal negative significand exponent := by
  obtain ⟨positive, value⟩ := unscaled_eq numerator denominatorPos exponent
  have unit := two_zpow_pos (exponent - 2)
  have split : (2 : ℚ) ^ exponent = 4 * 2 ^ (exponent - 2) := by
    rw [zpow_sub₀ (by norm_num)]
    norm_num
    ring
  have gap : (lowerGap significand exponent : ℚ) ≤ 2 := by
    exact_mod_cast lowerGap_le_two significand exponent
  have rounded : roundHalfEven (unscaled numerator denominator exponent).1
      (unscaled numerator denominator exponent).2 = significand := by
    obtain ⟨low, high⟩ := inside.bounds
    refine roundHalfEven_eq positive ?_ ?_ fun odd => ?_
    · rw [value, split, le_div_iff₀ (by positivity)]
      nlinarith
    · rw [value, split, div_le_iff₀ (by positivity)]
      nlinarith
    · have uneven : ¬ significand % 2 = 0 := by omega
      simp only [InCell, uneven, ↓reduceIte] at inside
      rw [value, split, lt_div_iff₀ (by positivity), div_lt_iff₀ (by positivity)]
      constructor <;> nlinarith [inside.1, inside.2]
  have short : ¬ significand = 2 ^ 53 := normal.short.ne
  unfold nearest ofNormal
  simp only [scale, rounded, short, numeratorPos.ne', ↓reduceIte]

theorem zpow_add_natCast (exponent : Int) (bits : Nat) :
    (2 : ℚ) ^ (exponent + bits) = 2 ^ (bits + 2) * 2 ^ (exponent - 2) := by
  rw [← zpow_natCast, ← zpow_add₀ (by norm_num)]
  congr 1
  push_cast
  ring

theorem two_zpow_sub_one (exponent : Int) : (2 : ℚ) ^ (exponent - 1) = 2 * 2 ^ (exponent - 2) := by
  rw [← zpow_one_add₀ (by norm_num)]
  congr 1
  ring

/-- Just below a power of two, where the exponent is still the lower one, the significand is rounded
up to fifty-four bits and shifted back. -/
theorem nearest_of_rounded_up (negative : Bool) (numeratorPos : 0 < numerator)
    (denominatorPos : 0 < denominator)
    (above : ((2 : ℚ) ^ 54 - 1) * 2 ^ (exponent - 2) ≤ (numerator : ℚ) / denominator)
    (below : (numerator : ℚ) / denominator < 2 ^ (exponent + 52))
    (raised : leastExponent < exponent) :
    nearest negative numerator denominator = ofNormal negative (2 ^ 52) exponent := by
  have unit := two_zpow_pos (exponent - 2)
  have bits := zpow_add_natCast exponent
  have scale : exponentFor numerator denominator = exponent - 1 := by
    have low : (2 : ℚ) ^ (exponent - 1 + 52) ≤ (numerator : ℚ) / denominator := by
      rw [show exponent - 1 + 52 = exponent + (51 : Nat) by push_cast; ring, bits]
      linarith
    rw [exponentFor_eq numeratorPos denominatorPos low
      (by rwa [show exponent - 1 + 53 = exponent + 52 by ring])]
    omega
  obtain ⟨positive, value⟩ := unscaled_eq numerator denominatorPos (exponent - 1)
  have half := two_zpow_sub_one exponent
  have rounded : roundHalfEven (unscaled numerator denominator (exponent - 1)).1
      (unscaled numerator denominator (exponent - 1)).2 = 2 ^ 53 := by
    rw [show exponent + 52 = exponent + (52 : Nat) by rfl, bits] at below
    refine roundHalfEven_eq positive ?_ ?_ fun odd => absurd odd (by norm_num)
    · rw [value, half, le_div_iff₀ (by positivity)]
      push_cast
      linarith
    · rw [value, half, div_le_iff₀ (by positivity)]
      push_cast
      linarith
  unfold nearest ofNormal
  simp only [scale, rounded, numeratorPos.ne', ↓reduceIte, Int.sub_add_cancel]

/-- **Rounding respects cells.** The number nearest to a fraction is the number in whose cell the
fraction lies. -/
theorem nearest_eq_ofNormal (negative : Bool) (normal : IsNormal significand exponent)
    (numeratorPos : 0 < numerator) (denominatorPos : 0 < denominator)
    (inside : InCell significand exponent ((numerator : ℚ) / denominator)) :
    nearest negative numerator denominator = ofNormal negative significand exponent := by
  have unit := two_zpow_pos (exponent - 2)
  have bits := zpow_add_natCast exponent
  obtain ⟨low, high⟩ := inside.bounds
  have gap : (lowerGap significand exponent : ℚ) ≤ 2 := by
    exact_mod_cast lowerGap_le_two significand exponent
  have short : (significand : ℚ) + 1 ≤ 2 ^ 53 := by exact_mod_cast normal.short
  have below : (numerator : ℚ) / denominator < 2 ^ (exponent + 53) := by
    rw [show exponent + 53 = exponent + (53 : Nat) by rfl, bits]
    nlinarith
  by_cases least : exponent = leastExponent
  · exact nearest_of_exponentFor negative normal numeratorPos denominatorPos inside
      (by rw [least] at below ⊢; exact exponentFor_eq_least numeratorPos denominatorPos below)
  have raised : leastExponent < exponent := lt_of_le_of_ne normal.least (Ne.symm least)
  by_cases full : (2 : ℚ) ^ (exponent + 52) ≤ (numerator : ℚ) / denominator
  · refine nearest_of_exponentFor negative normal numeratorPos denominatorPos inside ?_
    rw [exponentFor_eq numeratorPos denominatorPos full below]
    omega
  -- Only a power of two has a cell that reaches below its own exponent.
  · rw [not_le] at full
    have upper : significand ≤ 2 ^ 52 := by
      by_contra larger
      have larger : (2 : ℚ) ^ 52 + 1 ≤ significand := by
        exact_mod_cast (show 2 ^ 52 + 1 ≤ significand by omega)
      rw [show exponent + 52 = exponent + (52 : Nat) by rfl, bits] at full
      nlinarith
    obtain rfl : significand = 2 ^ 52 :=
      le_antisymm upper (normal.full.resolve_right least)
    simp only [lowerGap, raised, and_self, ↓reduceIte] at low
    refine nearest_of_rounded_up negative numeratorPos denominatorPos ?_ full raised
    refine le_trans (le_of_eq ?_) low
    push_cast
    ring

/-- **What lies in the cell of a value is rounded to it.** -/
theorem nearest_of_inCell (negative : Bool) (canonical : IsCanonical significand exponent)
    (numeratorPos : 0 < numerator) (denominatorPos : 0 < denominator)
    (inside : InCell significand exponent ((numerator : ℚ) / denominator)) :
    nearest negative numerator denominator = .finite negative significand exponent canonical :=
  (nearest_eq_ofNormal negative canonical.isNormal numeratorPos denominatorPos inside).trans
    (dif_pos canonical)

end Binary64

end BlockScript
