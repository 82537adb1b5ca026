import Mathlib.Algebra.Order.Floor.Semifield
import BlockScript.Proofs.Number.Rounding

/-! # The shortest decimal reads back

Seventeen digits reach the cell of every positive finite number, so `Binary64.shortest` always finds
a decimal in the cell (`Binary64.shortest_inCell`), and a decimal of the cell is read as the number
of the cell (`Binary64.ofDecimal_of_inCell`).
-/

namespace BlockScript

namespace Binary64

theorem digitCount_pos (n : Nat) : 0 < digitCount n := Nat.length_toDigits_pos

theorem lt_pow_digitCount (n : Nat) : n < 10 ^ digitCount n :=
  (Nat.length_toDigits_le_iff (by decide) (digitCount_pos n)).mp (Nat.le_refl _)

theorem pow_digitCount_le {n : Nat} (positive : 0 < n) : 10 ^ (digitCount n - 1) ≤ n := by
  by_contra smaller
  have smaller : n < 10 ^ (digitCount n - 1) := by omega
  by_cases single : digitCount n - 1 = 0
  · rw [single] at smaller
    omega
  · have short := (Nat.length_toDigits_le_iff (b := 10) (by decide)
      (Nat.pos_of_ne_zero single)).mpr smaller
    have := digitCount_pos n
    unfold digitCount at *
    omega

/-- The digits of a positive decimal tell its size. -/
theorem digitCount_bounds {digits : Nat} (positive : 0 < digits) (power : Int) :
    (10 : ℚ) ^ (power + digitCount digits - 1) ≤ digits * 10 ^ power ∧
      (digits : ℚ) * 10 ^ power < 10 ^ (power + digitCount digits) := by
  have unit := ten_zpow_pos power
  have count := digitCount_pos digits
  constructor
  · have low : (10 : ℚ) ^ (digitCount digits - 1) ≤ digits := by
      exact_mod_cast pow_digitCount_le positive
    have split : power + (digitCount digits : Int) - 1 =
        ((digitCount digits - 1 : Nat) : Int) + power := by omega
    rw [split, zpow_add₀ (by norm_num), zpow_natCast]
    exact mul_le_mul_of_nonneg_right low unit.le
  · have high : (digits : ℚ) < 10 ^ digitCount digits := by
      exact_mod_cast lt_pow_digitCount digits
    rw [add_comm, zpow_add₀ (by norm_num), zpow_natCast]
    exact mul_lt_mul_of_pos_right high unit

variable {significand : Nat} {exponent : Int}

theorem wholeMagnitude_eq (significand : Nat) (exponent : Int) :
    wholeMagnitude significand exponent = ⌊magnitude significand exponent⌋₊ := by
  rcases le_or_gt 0 exponent with nonnegative | negative
  · obtain ⟨n, rfl⟩ := Int.eq_ofNat_of_zero_le nonnegative
    simp only [wholeMagnitude, nonnegative, ↓reduceIte, magnitude, Int.toNat_natCast, zpow_natCast]
    exact_mod_cast (Nat.floor_natCast (R := ℚ) (significand * 2 ^ n)).symm
  · obtain ⟨n, same⟩ := Int.eq_ofNat_of_zero_le (neg_nonneg.mpr negative.le)
    obtain rfl : exponent = -(n : Int) := by omega
    have below : ¬ (0 : Int) ≤ -(n : Int) := by omega
    simp only [wholeMagnitude, below, ↓reduceIte, magnitude, neg_neg, Int.toNat_natCast, zpow_neg,
      zpow_natCast, ← div_eq_mul_inv]
    exact_mod_cast (Nat.floor_div_eq_div (K := ℚ) significand (2 ^ n)).symm

/-- The digits of a scaled magnitude, once it reaches one, tell the size of the magnitude. -/
theorem pow_digitCount_sub_le {places : Nat}
    (large : 1 ≤ magnitude significand exponent * 10 ^ places) :
    (10 : ℚ) ^
        ((digitCount (wholeMagnitude (significand * 10 ^ places) exponent) : Int) - 1 - places) ≤
      magnitude significand exponent := by
  have scaled : magnitude (significand * 10 ^ places) exponent =
      magnitude significand exponent * 10 ^ places := by
    rw [magnitude, magnitude, Nat.cast_mul, Nat.cast_pow, Nat.cast_ofNat, mul_right_comm]
  have count := digitCount_bounds (Nat.floor_pos.mpr large) 0
  have floor := Nat.floor_le (zero_le_one.trans large)
  simp only [zpow_zero, mul_one, zero_add] at count
  rw [wholeMagnitude_eq, scaled, zpow_sub₀ (by norm_num), div_le_iff₀ (ten_zpow_pos _),
    zpow_natCast]
  exact count.1.trans floor

/-- A positive magnitude is at least the power of ten of its decimal exponent. -/
theorem pow_decimalExponent_le (least : leastExponent ≤ exponent) (positive : 0 < significand) :
    (10 : ℚ) ^ decimalExponent significand exponent ≤ magnitude significand exponent := by
  have unit : (2 : ℚ) ^ leastExponent ≤ 2 ^ exponent := zpow_le_zpow_right₀ (by norm_num) least
  have one : (1 : ℚ) ≤ significand := by exact_mod_cast positive
  have reach : (1 : ℚ) ≤ 2 ^ leastExponent * 10 ^ 400 := by
    rw [leastExponent, show ((-1074 : Int)) = -((1074 : Nat) : Int) by rfl, zpow_neg, zpow_natCast,
      inv_mul_eq_div, one_le_div (by positivity)]
    exact_mod_cast (show 2 ^ 1074 ≤ 10 ^ 400 by decide +kernel)
  unfold decimalExponent
  rw [show (400 : Int) = ((400 : Nat) : Int) by rfl]
  apply pow_digitCount_sub_le
  calc (1 : ℚ) ≤ 2 ^ leastExponent * 10 ^ 400 := reach
    _ ≤ 2 ^ exponent * 10 ^ 400 := mul_le_mul_of_nonneg_right unit (by positivity)
    _ ≤ significand * (2 ^ exponent * 10 ^ 400) :=
      le_mul_of_one_le_left (mul_nonneg (two_zpow_pos exponent).le (by positivity)) one
    _ = magnitude significand exponent * 10 ^ 400 := by rw [magnitude, mul_assoc]

/-- The grid point below a magnitude. -/
theorem gridPoint_bounds (significand : Nat) (exponent power : Int) :
    ((gridPoint significand exponent power).1 : ℚ) * 10 ^ power ≤ magnitude significand exponent ∧
      magnitude significand exponent <
        ((gridPoint significand exponent power).1 + 1) * 10 ^ power := by
  have numerator : ∀ n : Nat, (n : ℚ) * (2 ^ (-exponent).toNat * 10 ^ power.toNat) =
      n * 10 ^ power * (2 ^ (-exponent).toNat * 10 ^ (-power).toNat) := by
    intro n
    rw [zpow_eq_div _ power]
    field_simp
  have denominator : 0 < 2 ^ (-exponent).toNat * 10 ^ power.toNat := by positivity
  have scale : (0 : ℚ) < 2 ^ (-exponent).toNat * 10 ^ (-power).toNat := by positivity
  have value : ((significand * 2 ^ exponent.toNat * 10 ^ (-power).toNat : Nat) : ℚ) =
      magnitude significand exponent * (2 ^ (-exponent).toNat * 10 ^ (-power).toNat) := by
    rw [magnitude, zpow_eq_div _ exponent]
    push_cast
    field_simp
  simp only [gridPoint]
  generalize significand * 2 ^ exponent.toNat * 10 ^ (-power).toNat = n at value ⊢
  constructor
  · have low : ((n / (2 ^ (-exponent).toNat * 10 ^ power.toNat) : Nat) : ℚ) *
        (2 ^ (-exponent).toNat * 10 ^ power.toNat) ≤ n := by
      exact_mod_cast Nat.div_mul_le_self n _
    rw [numerator, value] at low
    exact le_of_mul_le_mul_right low scale
  · have high : (n : ℚ) < ((n / (2 ^ (-exponent).toNat * 10 ^ power.toNat) + 1 : Nat) : ℚ) *
        (2 ^ (-exponent).toNat * 10 ^ power.toNat) := by
      rw [mul_comm]
      exact_mod_cast Nat.lt_mul_div_succ n denominator
    rw [numerator, value] at high
    exact_mod_cast lt_of_mul_lt_mul_right high scale.le

/-- A decimal that the grid offers lies in the cell. -/
theorem inCell_of_onGrid (positive : 0 < significand) {power : Int} {digits : Nat}
    (found : onGrid significand exponent power = some digits) :
    InCell significand exponent (digits * 10 ^ power) := by
  rw [← roundsTo_iff positive]
  unfold onGrid at found
  simp only [Bool.and_eq_true] at found
  split at found
  · next both =>
    cases found
    split
    · exact both.2
    · exact both.1
  · split at found
    · next hit =>
      cases found
      exact hit
    · split at found
      · next hit =>
        cases found
        exact hit
      · cases found

/-- **Seventeen digits reach the cell.** The spacing of the seventeen-digit grid is less than the
cell is wide on either side of the number, so the nearer of the two neighbours on the grid is in the
cell. -/
theorem onGrid_ne_none (canonical : IsCanonical significand exponent) (positive : 0 < significand) :
    onGrid significand exponent (decimalExponent significand exponent - 16) ≠ none := by
  generalize powered : decimalExponent significand exponent - 16 = power
  have unit := two_zpow_pos (exponent - 2)
  have scaled : magnitude significand exponent = 4 * significand * 2 ^ (exponent - 2) := by
    have split := zpow_add_natCast exponent 0
    simp only [Nat.cast_zero, add_zero] at split
    rw [magnitude, split]
    ring
  have spacing : (10 : ℚ) ^ power * 10 ^ 16 ≤ magnitude significand exponent := by
    refine le_trans (le_of_eq ?_) (pow_decimalExponent_le canonical.2.1 positive)
    rw [show decimalExponent significand exponent = power + (16 : Nat) by
      rw [← powered]; push_cast; ring, zpow_add₀ (by norm_num), zpow_natCast]
  -- Half a grid step stays inside the lower and the upper half of the cell.
  have narrow : (10 : ℚ) ^ power / 2 < lowerGap significand exponent * 2 ^ (exponent - 2) := by
    unfold lowerGap
    split
    · next power =>
      rw [scaled, power.1] at spacing
      push_cast at spacing ⊢
      linarith
    · have short : (significand : ℚ) + 1 ≤ 2 ^ 53 := by exact_mod_cast canonical.1
      rw [scaled] at spacing
      push_cast
      nlinarith
  have gap : (lowerGap significand exponent : ℚ) ≤ 2 := by
    exact_mod_cast lowerGap_le_two significand exponent
  obtain ⟨low, high⟩ := gridPoint_bounds significand exponent power
  have hit : InCell significand exponent
        ((gridPoint significand exponent power).1 * 10 ^ power) ∨
      InCell significand exponent
        (((gridPoint significand exponent power).1 + 1 : Nat) * 10 ^ power) := by
    rw [scaled] at low high
    push_cast
    rcases le_total (magnitude significand exponent -
      (gridPoint significand exponent power).1 * 10 ^ power) (10 ^ power / 2) with near | far
    · rw [scaled] at near
      exact .inl (inCell_of_lt (by linarith) (by linarith))
    · rw [scaled] at far
      exact .inr (inCell_of_lt (by linarith) (by nlinarith))
  simp only [← roundsTo_iff positive] at hit
  unfold onGrid
  rcases hit with hit | hit
  · simp only [hit]
    split <;> simp
  · simp only [hit]
    split
    · simp
    · split <;> simp

/-- Dropping trailing zeros keeps the value. -/
theorem withoutTrailingZeros_eq (limit digits : Nat) (power : Int) :
    ((withoutTrailingZeros limit digits power).1 : ℚ) *
        10 ^ (withoutTrailingZeros limit digits power).2 = digits * 10 ^ power := by
  induction limit generalizing digits power with
  | zero => rfl
  | succ limit ih =>
    rw [withoutTrailingZeros]
    split
    · next zero =>
      have exact : (digits : ℚ) = 10 * (digits / 10 : Nat) := by
        exact_mod_cast (Nat.mul_div_cancel' (Nat.dvd_of_mod_eq_zero zero.1)).symm
      rw [ih, exact, zpow_add_one₀ (by norm_num)]
      ring
    · rfl

/-- **The shortest decimal lies in the cell of its number.** -/
theorem shortest_inCell (canonical : IsCanonical significand exponent)
    (positive : 0 < significand) :
    InCell significand exponent
      ((shortest significand exponent).1 * 10 ^ (shortest significand exponent).2) := by
  unfold shortest
  dsimp only
  rw [withoutTrailingZeros_eq]
  cases found : (List.range 17).findSome? fun count : Nat =>
      (onGrid significand exponent (decimalExponent significand exponent - (count : Int))).map
        fun digits => (digits, decimalExponent significand exponent - (count : Int)) with
  | none =>
    have missed := List.findSome?_eq_none_iff.mp found 16 (by decide)
    exact absurd (Option.map_eq_none_iff.mp missed) (onGrid_ne_none canonical positive)
  | some decimal =>
    obtain ⟨count, -, hit⟩ := List.exists_of_findSome?_eq_some found
    obtain ⟨digits, onIt, rfl⟩ := Option.map_eq_some_iff.mp hit
    exact inCell_of_onGrid positive onIt

/-- No cell reaches the magnitudes that are decided by their decimal size alone. -/
theorem InCell.size (canonical : IsCanonical significand exponent) (positive : 0 < significand)
    {x : ℚ} (inside : InCell significand exponent x) :
    10 ^ (-400 : Int) < x ∧ x < 10 ^ (400 : Int) := by
  obtain ⟨low, high⟩ := inside.bounds
  obtain ⟨short, least, greatest, -⟩ := canonical
  have unit := two_zpow_pos (exponent - 2)
  have gap : (lowerGap significand exponent : ℚ) ≤ 2 := by
    exact_mod_cast lowerGap_le_two significand exponent
  constructor
  · have one : (1 : ℚ) ≤ significand := by exact_mod_cast positive
    calc (10 : ℚ) ^ (-400 : Int) < 2 ^ (leastExponent - 2) := by
          rw [leastExponent, show (-400 : Int) = -((400 : Nat) : Int) by rfl,
            show (-1074 - 2 : Int) = -((1076 : Nat) : Int) by rfl, zpow_neg, zpow_neg, zpow_natCast,
            zpow_natCast, inv_lt_inv₀ (by positivity) (by positivity)]
          exact_mod_cast (show 2 ^ 1076 < 10 ^ 400 by decide +kernel)
      _ ≤ 2 ^ (exponent - 2) := zpow_le_zpow_right₀ (by norm_num) (by omega)
      _ ≤ (4 * significand - lowerGap significand exponent) * 2 ^ (exponent - 2) := by nlinarith
      _ ≤ x := low
  · have short : (significand : ℚ) + 1 ≤ 2 ^ 53 := by exact_mod_cast short
    calc x ≤ (4 * significand + 2) * 2 ^ (exponent - 2) := high
      _ ≤ 2 ^ (53 + 2) * 2 ^ (exponent - 2) :=
        mul_le_mul_of_nonneg_right (by rw [pow_add]; linarith) unit.le
      _ = 2 ^ (exponent + (53 : Nat)) := (zpow_add_natCast exponent 53).symm
      _ ≤ 2 ^ (greatestExponent + (53 : Nat)) := zpow_le_zpow_right₀ (by norm_num) (by omega)
      _ < 10 ^ (400 : Int) := by
          rw [greatestExponent, show (971 + (53 : Nat) : Int) = ((1024 : Nat) : Int) by rfl,
            show (400 : Int) = ((400 : Nat) : Int) by rfl, zpow_natCast, zpow_natCast]
          exact_mod_cast (show 2 ^ 1024 < 10 ^ 400 by decide +kernel)

/-- **A decimal of a cell is read as the number of the cell.** -/
theorem ofDecimal_of_inCell (negative : Bool) (canonical : IsCanonical significand exponent)
    (positive : 0 < significand) {digits : Nat} {power : Int}
    (inside : InCell significand exponent (digits * 10 ^ power)) :
    ofDecimal negative digits power = .finite negative significand exponent canonical := by
  obtain ⟨large, small⟩ := inside.size canonical positive
  have digitsPos : 0 < digits := by
    by_contra zero
    obtain rfl : digits = 0 := by omega
    rw [Nat.cast_zero, zero_mul] at large
    exact absurd large (not_lt.mpr (ten_zpow_pos _).le)
  obtain ⟨low, high⟩ := digitCount_bounds digitsPos power
  have notSmall : ¬ power + digitCount digits < -400 := by
    have chain := (zpow_lt_zpow_iff_right₀ (show (1 : ℚ) < 10 by norm_num)).mp (large.trans high)
    omega
  have notLarge : ¬ 400 < power + digitCount digits := by
    have chain := (zpow_lt_zpow_iff_right₀ (show (1 : ℚ) < 10 by norm_num)).mp (low.trans_lt small)
    omega
  unfold ofDecimal
  simp only [digitsPos.ne', notSmall, notLarge, or_self, ↓reduceIte]
  rcases le_or_gt 0 power with nonnegative | below
  · rw [if_pos nonnegative]
    refine nearest_of_inCell negative canonical (by positivity) Nat.one_pos ?_
    convert inside using 1
    obtain ⟨n, rfl⟩ := Int.eq_ofNat_of_zero_le nonnegative
    simp
  · rw [if_neg (not_le.mpr below)]
    refine nearest_of_inCell negative canonical digitsPos (by positivity) ?_
    convert inside using 1
    obtain ⟨n, same⟩ := Int.eq_ofNat_of_zero_le (neg_nonneg.mpr below.le)
    obtain rfl : power = -(n : Int) := by omega
    simp [div_eq_mul_inv]

end Binary64

end BlockScript
