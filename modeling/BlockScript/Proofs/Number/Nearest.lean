import BlockScript.Proofs.Number.Shortest

/-! # The nearest number

The value of a finite number is a rational. Every positive rational lies in a cell
(`Binary64.exists_inCell`), and no number is closer to it than that of the cell, so
`Binary64.nearest` gives the finite number nearest to a fraction, a tie going to the even
significand (`Binary64.rounds_nearest`), and an infinity for a fraction that is at least halfway to
the power of two behind the greatest number (`Binary64.nearest_eq_infinite`).
-/

namespace BlockScript

namespace Binary64

/-- The value of a finite number. -/
def toRat? : Binary64 → Option ℚ
  | .finite negative significand exponent _ =>
      some (if negative then -magnitude significand exponent else magnitude significand exponent)
  | _ => none

/-- The number of the opposite sign. -/
def negate : Binary64 → Binary64
  | .nan => .nan
  | .infinite negative => .infinite !negative
  | .finite negative significand exponent canonical =>
      .finite (!negative) significand exponent canonical

/-- Whether a number is finite and its significand even. -/
def IsEven : Binary64 → Prop
  | .finite _ significand _ _ => significand % 2 = 0
  | _ => False

/-- A rational is rounded to a number with a value: no finite number is closer to the rational, and
where another one is as close, the significand is even. -/
structure Rounds (q : ℚ) (x : Binary64) (value : ℚ) : Prop where
  finite : x.toRat? = some value
  closest : ∀ (y : Binary64) other, y.toRat? = some other → |value - q| ≤ |other - q|
  even : ∀ (y : Binary64) other, y.toRat? = some other → |other - q| = |value - q| →
    other ≠ value → x.IsEven

theorem toRat?_negate (x : Binary64) : x.negate.toRat? = x.toRat?.map fun value => -value := by
  cases x with
  | nan | infinite => rfl
  | finite negative => cases negative <;> simp [negate, toRat?]

theorem magnitude_nonneg (significand : Nat) (exponent : Int) :
    0 ≤ magnitude significand exponent :=
  mul_nonneg (Nat.cast_nonneg _) (two_zpow_pos exponent).le

variable {significand : Nat} {exponent : Int} {q : ℚ}

/-- The value in quarter units, in which the ends of cells are given. -/
theorem magnitude_eq_quarters (significand : Nat) (exponent : Int) :
    magnitude significand exponent = 4 * significand * 2 ^ (exponent - 2) := by
  have split := zpow_add_natCast exponent 0
  rw [Nat.cast_zero, add_zero] at split
  rw [magnitude, split]
  ring

/-! ## Neighbours -/

/-- Any other value is at least as far away as the neighbours are. -/
theorem magnitude_cases (normal : IsNormal significand exponent) {other : Nat} {scale : Int}
    (apart : IsNormal other scale) :
    magnitude other scale = magnitude significand exponent ∨
      (4 * significand + 4) * 2 ^ (exponent - 2) ≤ magnitude other scale ∨
      magnitude other scale ≤
        (4 * significand - 2 * lowerGap significand exponent) * 2 ^ (exponent - 2) := by
  have unit := two_zpow_pos (exponent - 2)
  have gap : (lowerGap significand exponent : ℚ) ≤ 2 := by
    exact_mod_cast lowerGap_le_two significand exponent
  rcases le_or_gt exponent scale with coarse | fine
  · -- A value with a greater exponent is a whole multiple of the unit.
    obtain ⟨shift, same⟩ := Int.eq_ofNat_of_zero_le (sub_nonneg.mpr coarse)
    have multiple : magnitude other scale = magnitude (other * 2 ^ shift) exponent := by
      rw [magnitude, magnitude, show scale = shift + exponent by omega, zpow_add₀ (by norm_num)]
      push_cast
      rw [zpow_natCast, mul_assoc]
    rw [multiple]
    rcases lt_trichotomy (other * 2 ^ shift) significand with below | rfl | above
    · have below : ((other * 2 ^ shift : Nat) : ℚ) + 1 ≤ significand := by exact_mod_cast below
      refine .inr (.inr ?_)
      rw [magnitude_eq_quarters]
      nlinarith
    · exact .inl rfl
    · have above : (significand : ℚ) + 1 ≤ (other * 2 ^ shift : Nat) := by exact_mod_cast above
      refine .inr (.inl ?_)
      rw [magnitude_eq_quarters]
      nlinarith
  · -- A value with a smaller exponent stays below the power of two that the first bit gives.
    have full : 2 ^ 52 ≤ significand :=
      normal.full.resolve_right fun least => by have := apart.least; omega
    have short : (other : ℚ) ≤ 2 ^ 53 - 1 := by
      have := apart.short
      rw [le_sub_iff_add_le]
      exact_mod_cast this
    have raised : leastExponent < exponent := lt_of_le_of_lt apart.least fine
    refine .inr (.inr ?_)
    calc magnitude other scale ≤ (2 ^ 53 - 1) * 2 ^ scale :=
          mul_le_mul_of_nonneg_right short (two_zpow_pos scale).le
      _ ≤ (2 ^ 53 - 1) * 2 ^ (exponent - 1) :=
          mul_le_mul_of_nonneg_left (zpow_le_zpow_right₀ (by norm_num) (by omega)) (by norm_num)
      _ = (2 ^ 54 - 2) * 2 ^ (exponent - 2) := by
          rw [two_zpow_sub_one]
          ring
      _ ≤ (4 * significand - 2 * lowerGap significand exponent) * 2 ^ (exponent - 2) := by
          refine mul_le_mul_of_nonneg_right ?_ unit.le
          rcases full.lt_or_eq with larger | rfl
          · have larger : (2 : ℚ) ^ 52 + 1 ≤ significand := by exact_mod_cast larger
            linarith
          · rw [lowerGap, if_pos ⟨rfl, raised⟩]
            norm_num

/-- **The number of a cell is the nearest.** No other value is closer to what lies in the cell, and
one that is as close is so at an end of the cell, which belongs to it when the significand is
even. -/
theorem InCell.closest (inside : InCell significand exponent q)
    (normal : IsNormal significand exponent) {other : Nat} {scale : Int}
    (apart : IsNormal other scale) :
    |magnitude significand exponent - q| ≤ |magnitude other scale - q| ∧
      (|magnitude other scale - q| = |magnitude significand exponent - q| →
        magnitude other scale ≠ magnitude significand exponent → significand % 2 = 0) := by
  have unit := two_zpow_pos (exponent - 2)
  have gap : (0 : ℚ) < lowerGap significand exponent * 2 ^ (exponent - 2) :=
    mul_pos (by exact_mod_cast lowerGap_pos significand exponent) unit
  have value := magnitude_eq_quarters significand exponent
  obtain ⟨low, high⟩ := inside.bounds
  have strict (odd : ¬ significand % 2 = 0) :
      (4 * significand - lowerGap significand exponent) * 2 ^ (exponent - 2) < q ∧
        q < (4 * significand + 2) * 2 ^ (exponent - 2) := by
    simpa only [InCell, odd, ↓reduceIte] using inside
  rcases magnitude_cases normal apart with same | above | below
  · rw [same]
    exact ⟨le_refl _, fun _ different => absurd rfl different⟩
  · have distance : |magnitude other scale - q| = magnitude other scale - q :=
      abs_of_nonneg (by nlinarith)
    rw [distance]
    refine ⟨abs_le.mpr ⟨by linarith, by linarith⟩, fun tie different => ?_⟩
    by_contra odd
    have := strict odd
    rcases abs_cases (magnitude significand exponent - q) with ⟨same, _⟩ | ⟨same, _⟩
    · exact different (by linarith)
    · linarith
  · have distance : |magnitude other scale - q| = -(magnitude other scale - q) :=
      abs_of_nonpos (by linarith)
    rw [distance]
    refine ⟨abs_le.mpr ⟨by linarith, by linarith⟩, fun tie different => ?_⟩
    by_contra odd
    have := strict odd
    rcases abs_cases (magnitude significand exponent - q) with ⟨same, _⟩ | ⟨same, _⟩
    · linarith
    · exact different (by linarith)

/-! ## Every positive rational lies in a cell -/

theorem exists_halfEven (nonnegative : 0 ≤ q) :
    ∃ whole : Nat, (whole : ℚ) - 1 / 2 ≤ q ∧ q ≤ whole + 1 / 2 ∧
      (whole % 2 = 1 → (whole : ℚ) - 1 / 2 < q ∧ q < whole + 1 / 2) := by
  have low := Nat.floor_le nonnegative
  have high := Nat.lt_floor_add_one q
  generalize ⌊q⌋₊ = floor at low high
  rcases lt_trichotomy (q - floor) (1 / 2) with less | half | more
  · exact ⟨floor, by linarith, by linarith, fun _ => ⟨by linarith, by linarith⟩⟩
  · by_cases odd : floor % 2 = 1
    · refine ⟨floor + 1, ?_, ?_, fun even => by omega⟩ <;> push_cast <;> linarith
    · exact ⟨floor, by linarith, by linarith, fun other => absurd other odd⟩
  · refine ⟨floor + 1, ?_, ?_, fun _ => ⟨?_, ?_⟩⟩ <;> push_cast <;> linarith

/-- What is rounded to a significand at an exponent lies in the cell, if it is not below the power
of two that the first bit gives. -/
theorem inCell_of_rounded (above : (significand : ℚ) - 1 / 2 ≤ q / 2 ^ exponent)
    (below : q / 2 ^ exponent ≤ significand + 1 / 2)
    (tie : significand % 2 = 1 →
      (significand : ℚ) - 1 / 2 < q / 2 ^ exponent ∧ q / 2 ^ exponent < significand + 1 / 2)
    (full : leastExponent < exponent → (2 : ℚ) ^ 52 ≤ q / 2 ^ exponent) :
    InCell significand exponent q := by
  have unit := two_zpow_pos (exponent - 2)
  have split : (2 : ℚ) ^ exponent = 4 * 2 ^ (exponent - 2) := by
    simpa [magnitude] using magnitude_eq_quarters 1 exponent
  have positive : (0 : ℚ) < 4 * 2 ^ (exponent - 2) := by positivity
  rw [split] at above below tie full
  simp only [le_div_iff₀ positive, div_le_iff₀ positive, lt_div_iff₀ positive,
    div_lt_iff₀ positive] at above below tie full
  have low : (4 * significand - lowerGap significand exponent) * 2 ^ (exponent - 2) ≤ q := by
    unfold lowerGap
    split
    · next power =>
      have bits := full power.2
      rw [power.1]
      generalize (2 : ℚ) ^ (exponent - 2) = quarter at bits unit
      push_cast
      linarith
    · push_cast
      linarith
  unfold InCell
  split
  · exact ⟨low, by linarith⟩
  · next odd =>
    obtain ⟨strictLow, strictHigh⟩ := tie (by omega)
    have gap : lowerGap significand exponent = 2 := by
      rw [lowerGap, if_neg]
      rintro ⟨rfl, -⟩
      exact odd (by norm_num)
    rw [gap]
    push_cast
    exact ⟨by linarith, by linarith⟩

/-- **Cells cover the positive rationals.** -/
theorem exists_inCell (positive : 0 < q) :
    ∃ significand exponent, IsNormal significand exponent ∧ InCell significand exponent q := by
  have low := Int.zpow_log_le_self Nat.one_lt_two positive
  have high := Int.lt_zpow_succ_log_self Nat.one_lt_two q
  generalize Int.log 2 q = bits at low high
  push_cast at low high
  obtain ⟨exponent, chosen⟩ : ∃ exponent, exponent = max leastExponent (bits - 52) := ⟨_, rfl⟩
  have unit := two_zpow_pos exponent
  have short : q / 2 ^ exponent < 2 ^ 53 := by
    rw [div_lt_iff₀ unit, ← zpow_natCast, ← zpow_add₀ (by norm_num)]
    exact high.trans_le (zpow_le_zpow_right₀ (by norm_num) (by push_cast; omega))
  have full (raised : leastExponent < exponent) : (2 : ℚ) ^ 52 ≤ q / 2 ^ exponent := by
    rw [le_div_iff₀ unit, ← zpow_natCast, ← zpow_add₀ (by norm_num)]
    exact (zpow_le_zpow_right₀ (by norm_num) (by push_cast; omega)).trans low
  obtain ⟨whole, above, below, tie⟩ := exists_halfEven (div_nonneg positive.le unit.le)
  have bounded : whole ≤ 2 ^ 53 := by
    have : (whole : ℚ) < 2 ^ 53 + 1 := by linarith
    exact Nat.lt_succ_iff.mp (by exact_mod_cast this)
  rcases bounded.lt_or_eq with narrow | rfl
  · refine ⟨whole, exponent, ⟨narrow, by omega, ?_⟩, inCell_of_rounded above below tie full⟩
    by_cases least : exponent = leastExponent
    · exact .inr least
    · have reached := full (by omega)
      have : (2 : ℚ) ^ 52 < whole + 1 := by linarith
      exact .inl (Nat.lt_succ_iff.mp (by exact_mod_cast this))
  · -- Rounded up to fifty-four bits: the cell is that of the power of two.
    refine ⟨2 ^ 52, exponent + 1, ⟨by norm_num, by omega, .inl (le_refl _)⟩, ?_⟩
    have half := two_zpow_sub_one (exponent + 1)
    rw [Int.add_sub_cancel] at half
    have quarter := two_zpow_pos (exponent + 1 - 2)
    have raised : leastExponent < exponent + 1 := by omega
    rw [div_lt_iff₀ unit, half] at short
    rw [le_div_iff₀ unit, half] at above
    simp only [InCell, lowerGap, raised, and_self, ↓reduceIte, Nat.reducePow, Nat.reduceMod]
    push_cast at above ⊢
    constructor
    · linarith
    · linarith

/-! ## Rounding -/

/-- Halfway between the greatest finite number and the power of two behind it. -/
def overflow : Nat := (2 ^ 54 - 1) * 2 ^ 970

theorem cast_overflow : (overflow : ℚ) = (2 ^ 54 - 1) * 2 ^ (greatestExponent - 1) := by
  have bits : ((2 ^ 54 - 1 : Nat) : ℚ) = 2 ^ 54 - 1 := by norm_num
  rw [overflow, Nat.cast_mul, Nat.cast_pow, bits, Nat.cast_ofNat, ← zpow_natCast]
  rfl

/-- The cells below the halfway point are those of finite numbers. -/
theorem InCell.exponent_le_iff (inside : InCell significand exponent q)
    (normal : IsNormal significand exponent) : exponent ≤ greatestExponent ↔ q < overflow := by
  obtain ⟨low, high⟩ := inside.bounds
  have unit := two_zpow_pos (exponent - 2)
  constructor
  · intro bounded
    have scale : (2 : ℚ) ^ (exponent - 2) ≤ 2 ^ (greatestExponent - 2) :=
      zpow_le_zpow_right₀ (by norm_num) (by omega)
    rw [cast_overflow, two_zpow_sub_one]
    -- The end of the last cell does not belong to it, because the significand is odd.
    by_cases last : significand = 2 ^ 53 - 1
    · have odd : ¬ significand % 2 = 0 := by rw [last]; norm_num
      simp only [InCell, odd, ↓reduceIte] at inside
      have strict := inside.2
      rw [last, Nat.cast_sub (by norm_num)] at strict
      push_cast at strict
      linarith
    · have short : (significand : ℚ) + 2 ≤ 2 ^ 53 := by
        have := normal.short
        exact_mod_cast (show significand + 2 ≤ 2 ^ 53 by omega)
      nlinarith
  · intro below
    by_contra beyond
    have raised : leastExponent < exponent := lt_of_le_of_lt (by decide) (not_le.mp beyond)
    have full := normal.full.resolve_right raised.ne'
    have bits : (2 : ℚ) ^ 54 - 1 ≤ 4 * significand - lowerGap significand exponent := by
      rcases full.lt_or_eq with larger | rfl
      · have larger : (2 : ℚ) ^ 52 + 1 ≤ significand := by exact_mod_cast larger
        have gap : (lowerGap significand exponent : ℚ) ≤ 2 := by
          exact_mod_cast lowerGap_le_two significand exponent
        linarith
      · rw [lowerGap, if_pos ⟨rfl, raised⟩]
        norm_num
    refine absurd below (not_lt.mpr ?_)
    calc (overflow : ℚ) = (2 ^ 54 - 1) * 2 ^ (greatestExponent - 1) := cast_overflow
      _ ≤ (2 ^ 54 - 1) * 2 ^ (exponent - 2) :=
          mul_le_mul_of_nonneg_left (zpow_le_zpow_right₀ (by norm_num) (by omega)) (by norm_num)
      _ ≤ (4 * significand - lowerGap significand exponent) * 2 ^ (exponent - 2) :=
          mul_le_mul_of_nonneg_right bits unit.le
      _ ≤ q := low

theorem exists_magnitude_of_toRat? {y : Binary64} {value : ℚ} (finite : y.toRat? = some value) :
    ∃ significand exponent, IsNormal significand exponent ∧
      (value = magnitude significand exponent ∨ value = -magnitude significand exponent) := by
  cases y with
  | nan | infinite => cases finite
  | finite negative significand exponent canonical =>
      refine ⟨significand, exponent, canonical.isNormal, ?_⟩
      simp only [toRat?, Option.some.injEq] at finite
      rw [← finite]
      cases negative with
      | false => exact .inl rfl
      | true => exact .inr rfl

/-- A positive rational is rounded to the number of its cell. Numbers below zero are farther away
than those of the same magnitude. -/
theorem InCell.rounds (inside : InCell significand exponent q) (positive : 0 < q)
    (canonical : IsCanonical significand exponent) :
    Rounds q (.finite false significand exponent canonical) (magnitude significand exponent) := by
  have reflected (other : Nat) (scale : Int) :
      |-magnitude other scale - q| = magnitude other scale + q ∧
        |magnitude other scale - q| ≤ magnitude other scale + q := by
    have nonnegative := magnitude_nonneg other scale
    refine ⟨?_, abs_le.mpr ⟨by linarith, by linarith⟩⟩
    rw [abs_of_nonpos (by linarith)]
    ring
  refine ⟨rfl, fun y value finite => ?_, fun y value finite tie different => ?_⟩
  · obtain ⟨other, scale, apart, rfl | rfl⟩ := exists_magnitude_of_toRat? finite
    · exact (inside.closest canonical.isNormal apart).1
    · rw [(reflected other scale).1]
      exact (inside.closest canonical.isNormal apart).1.trans (reflected other scale).2
  · obtain ⟨other, scale, apart, rfl | rfl⟩ := exists_magnitude_of_toRat? finite
    · exact (inside.closest canonical.isNormal apart).2 tie different
    · obtain ⟨nearer, even⟩ := inside.closest canonical.isNormal apart
      obtain ⟨far, bound⟩ := reflected other scale
      have zero : magnitude other scale = 0 := by
        have same : |magnitude other scale - q| = magnitude other scale + q := by linarith
        rcases abs_cases (magnitude other scale - q) with ⟨_, _⟩ | ⟨_, _⟩ <;> linarith
      rw [zero, neg_zero] at tie different
      rw [zero] at even
      exact even tie different

theorem Rounds.negate {x : Binary64} {value : ℚ} (rounds : Rounds q x value) :
    Rounds (-q) x.negate (-value) := by
  have mirrored {y : Binary64} {other : ℚ} (finite : y.toRat? = some other) :
      y.negate.toRat? = some (-other) := by
    rw [toRat?_negate, finite]
    rfl
  have distance (other : ℚ) : |other - -q| = |-other - q| := by
    rw [← abs_neg]
    congr 1
    ring
  refine ⟨mirrored rounds.finite, fun y other finite => ?_, fun y other finite tie different => ?_⟩
  · rw [distance, distance, neg_neg]
    exact rounds.closest y.negate _ (mirrored finite)
  · rw [distance, distance, neg_neg] at tie
    have even := rounds.even y.negate _ (mirrored finite) tie
      fun same => different (by rw [← same, neg_neg])
    cases x with
    | nan | infinite => cases even
    | finite => exact even

variable {numerator denominator : Nat}

theorem nearest_true (numerator denominator : Nat) :
    nearest true numerator denominator = (nearest false numerator denominator).negate := by
  unfold nearest
  split
  · rfl
  · dsimp only
    split <;> split <;> rfl

/-- **Rounding finds the nearest number** of a fraction below the halfway point. -/
theorem rounds_nearest (negative : Bool) (numerator : Nat) (positive : 0 < denominator)
    (small : (numerator : ℚ) / denominator < overflow) :
    ∃ value, Rounds (if negative then -((numerator : ℚ) / denominator) else numerator / denominator)
      (nearest negative numerator denominator) value := by
  have unsigned : ∃ value, Rounds ((numerator : ℚ) / denominator)
      (nearest false numerator denominator) value := by
    rcases numerator.eq_zero_or_pos with rfl | numeratorPos
    · have value : (zero false).toRat? = some 0 := by simp [zero, toRat?, magnitude]
      rw [Nat.cast_zero, zero_div]
      refine ⟨0, value, fun y other _ => ?_, fun y other _ tie different => ?_⟩
      · simp
      · exact (different (by simpa using tie)).elim
    · have fraction : 0 < (numerator : ℚ) / denominator := by positivity
      obtain ⟨significand, exponent, normal, inside⟩ := exists_inCell fraction
      have canonical := normal.isCanonical ((inside.exponent_le_iff normal).mpr small)
      rw [nearest_of_inCell false canonical numeratorPos positive inside]
      exact ⟨_, inside.rounds fraction canonical⟩
  obtain ⟨value, rounds⟩ := unsigned
  cases negative with
  | false => exact ⟨value, rounds⟩
  | true =>
      rw [nearest_true]
      exact ⟨-value, rounds.negate⟩

/-- **Rounding overflows** from the halfway point on. -/
theorem nearest_eq_infinite (negative : Bool) (positive : 0 < denominator)
    (large : overflow ≤ (numerator : ℚ) / denominator) :
    nearest negative numerator denominator = .infinite negative := by
  have fraction : 0 < (numerator : ℚ) / denominator := by
    refine lt_of_lt_of_le ?_ large
    rw [cast_overflow]
    exact mul_pos (by norm_num) (two_zpow_pos _)
  have numeratorPos : 0 < numerator := by
    rcases numerator.eq_zero_or_pos with rfl | numeratorPos
    · simp at fraction
    · exact numeratorPos
  obtain ⟨significand, exponent, normal, inside⟩ := exists_inCell fraction
  rw [nearest_eq_ofNormal negative normal numeratorPos positive inside]
  exact dif_neg fun canonical =>
    absurd ((inside.exponent_le_iff normal).mp canonical.2.2.1) (not_lt.mpr large)

/-! ## What rounding keeps -/

variable {x y : Binary64} {value other : ℚ}

theorem Rounds.of_finite (finite : x.toRat? = some q) : Rounds q x q where
  finite := finite
  closest y other _ := by
    rw [sub_self, abs_zero]
    exact abs_nonneg _
  even y other _ tie apart := by
    rw [sub_self, abs_zero, abs_eq_zero, sub_eq_zero] at tie
    exact absurd tie apart

/-- The value of a number is rounded to itself only. -/
theorem Rounds.eq_of_finite (rounds : Rounds q x value) (exact : y.toRat? = some q) :
    value = q := by
  have distance := rounds.closest y q exact
  rw [sub_self, abs_zero] at distance
  exact sub_eq_zero.mp (abs_nonpos_iff.mp distance)

/-- Rounding does not go below a value that is not greater. -/
theorem Rounds.le_value (rounds : Rounds q x value) (finite : y.toRat? = some other)
    (le : other ≤ q) : other ≤ value := by
  by_contra smaller
  have distance := rounds.closest y other finite
  rw [abs_of_nonpos (by linarith), abs_of_nonpos (by linarith)] at distance
  linarith

/-- Rounding does not go above a value that is not less. -/
theorem Rounds.value_le (rounds : Rounds q x value) (finite : y.toRat? = some other)
    (le : q ≤ other) : value ≤ other := by
  by_contra greater
  have distance := rounds.closest y other finite
  rw [abs_of_nonneg (by linarith), abs_of_nonneg (by linarith)] at distance
  linarith

end Binary64

end BlockScript
