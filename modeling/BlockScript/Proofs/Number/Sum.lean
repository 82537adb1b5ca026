import BlockScript.Proofs.Number.Integer

/-! # Sums of double width

The sum of two numbers is the exact sum, rounded (`Binary64.rounds_add`). A fraction that is cut
towards zero and then shifted by an integer may differ from the shifted fraction that is cut: they
lie on different sides of it if the shift crosses zero (`Binary64.cut_add`), and a sum that is
rounded may reach the integer behind it (`Binary64.cut_of_rounds`).
-/

namespace BlockScript

namespace Binary64

-- Powers are the built-in ones, also where a library brings others.
attribute [local instance (2000)] instPowNat

/-- The sum of two numbers: the exact one, rounded. Opposite infinities have none, and only two
negative zeros make a negative zero. -/
def add : Binary64 → Binary64 → Binary64
  | .nan, _ | _, .nan => .nan
  | .infinite first, .infinite second => if first = second then .infinite first else .nan
  | .infinite negative, _ | _, .infinite negative => .infinite negative
  | .finite first significand exponent _, .finite second other scale _ =>
      let total := overLeast first significand exponent + overLeast second other scale
      if total = 0 then zero (first && second)
      else nearest (total < 0) total.natAbs (2 ^ (-leastExponent).toNat)

variable {x y : Binary64} {p q s : ℚ}

/-- The value of a number as a fraction of the common denominator. -/
theorem toRat?_finite {negative : Bool} {significand : Nat} {exponent : Int}
    (canonical : IsCanonical significand exponent) :
    toRat? (.finite negative significand exponent canonical) =
      some ((overLeast negative significand exponent : ℚ) /
        (2 ^ (-leastExponent).toNat : Nat)) := by
  obtain ⟨shift, scaled⟩ := Int.eq_ofNat_of_zero_le (show 0 ≤ exponent - leastExponent by
    have := canonical.2.1
    omega)
  have opposite : leastExponent = -((-leastExponent).toNat : Int) := by decide
  have value : magnitude significand exponent =
      (significand * 2 ^ shift : ℚ) / (2 ^ (-leastExponent).toNat : Nat) := by
    have split : exponent = (shift : Int) - ((-leastExponent).toNat : Int) := by omega
    rw [magnitude, split, zpow_sub₀ (by norm_num), zpow_natCast, zpow_natCast, ← mul_div_assoc]
    push_cast
    rfl
  have scale : (exponent - leastExponent).toNat = shift := by omega
  rw [toRat?, value, overLeast, scale]
  cases negative with
  | false =>
      push_cast
      rfl
  | true =>
      push_cast
      rw [← neg_div]
      rfl

theorem rounds_zero (negative : Bool) : ∃ s, Rounds 0 (zero negative) s := by
  obtain ⟨s, rounds⟩ := rounds_nearest negative 0 Nat.one_pos (by
    rw [Nat.cast_zero, zero_div]
    exact_mod_cast (show 0 < overflow by decide +kernel))
  refine ⟨s, ?_⟩
  simpa [nearest] using rounds

/-- **Sums are rounded**, if they are below the halfway point to the power of two behind the
greatest number. -/
theorem rounds_add (first : x.toRat? = some p) (second : y.toRat? = some q)
    (small : |p + q| < overflow) : ∃ s, Rounds (p + q) (x.add y) s := by
  cases x with
  | nan | infinite => cases first
  | finite negative significand exponent canonical =>
    cases y with
    | nan | infinite => cases second
    | finite opposed other scale normal =>
      rw [toRat?_finite, Option.some.injEq] at first second
      have positive : 0 < 2 ^ (-leastExponent).toNat := Nat.two_pow_pos _
      rw [add]
      generalize overLeast negative significand exponent = a at first ⊢
      generalize overLeast opposed other scale = b at second ⊢
      generalize 2 ^ (-leastExponent).toNat = unit at *
      have total : p + q = ((a + b : Int) : ℚ) / (unit : Nat) := by
        rw [← first, ← second, Int.cast_add, add_div]
      rw [total] at small ⊢
      generalize a + b = sum at small ⊢
      split
      · rename_i none
        rw [none, Int.cast_zero, zero_div]
        exact rounds_zero _
      · have size : |(sum : ℚ) / unit| = (sum.natAbs : ℚ) / unit := by
          rw [abs_div, Nat.abs_cast, Nat.cast_natAbs, Int.cast_abs]
        obtain ⟨s, rounds⟩ := rounds_nearest (decide (sum < 0)) sum.natAbs positive (size ▸ small)
        refine ⟨s, ?_⟩
        rw [← size] at rounds
        by_cases below : sum < 0
        · have negative : (sum : ℚ) / unit < 0 :=
            div_neg_of_neg_of_pos (by exact_mod_cast below) (by exact_mod_cast positive)
          simpa [below, abs_of_neg negative] using rounds
        · have above : 0 ≤ (sum : ℚ) / unit :=
            div_nonneg (by exact_mod_cast not_lt.mp below) (by positivity)
          simpa [below, abs_of_nonneg above] using rounds

/-- A sum with a number of no more than fifty-two bits before the point does not overflow. -/
theorem abs_add_lt_overflow (finite : x.toRat? = some p) (small : |q| ≤ 2 ^ 52) :
    |p + q| < overflow := by
  cases x with
  | nan | infinite => cases finite
  | finite negative significand exponent canonical =>
      have nonnegative := magnitude_nonneg significand exponent
      have size : |p| = magnitude significand exponent := by
        simp only [toRat?, Option.some.injEq] at finite
        rw [← finite]
        cases negative with
        | false => exact abs_of_nonneg nonnegative
        | true => exact (abs_neg _).trans (abs_of_nonneg nonnegative)
      have short : (significand : ℚ) ≤ 2 ^ 53 - 1 :=
        le_sub_iff_add_le.mpr (by exact_mod_cast Nat.succ_le_of_lt canonical.1)
      have scale : (2 : ℚ) ^ exponent ≤ 2 * 2 ^ (greatestExponent - 1) := by
        rw [← zpow_one_add₀ (by norm_num), add_sub_cancel]
        exact zpow_le_zpow_right₀ (by norm_num) canonical.2.2.1
      have room : (2 : ℚ) ^ 52 < 2 ^ (greatestExponent - 1) := by
        rw [← zpow_natCast]
        exact zpow_lt_zpow_right₀ (by norm_num) (by decide)
      have bound := cast_overflow
      generalize (2 : ℚ) ^ (greatestExponent - 1) = unit at scale room bound
      calc |p + q| ≤ |p| + |q| := abs_add_le p q
        _ ≤ (2 ^ 53 - 1) * (2 * unit) + 2 ^ 52 := by
          rw [size, magnitude]
          exact add_le_add
            (mul_le_mul short scale (two_zpow_pos exponent).le (by norm_num)) small
        _ < (2 ^ 54 - 1) * unit := by linarith
        _ = overflow := bound.symm

/-! ## Cutting sums -/

/-- The integer behind a fraction, away from zero. -/
def outward (q : ℚ) : Int := if 0 < q then ⌊q⌋ + 1 else ⌈q⌉ - 1

theorem outward_neg (nonzero : q ≠ 0) : outward (-q) = -outward q := by
  unfold outward
  rcases lt_or_gt_of_ne nonzero with below | above
  · rw [if_pos (by linarith), if_neg (by linarith), Int.floor_neg]
    ring
  · rw [if_neg (by linarith), if_pos above, Int.ceil_neg]
    ring

theorem cut_ne_outward (nonzero : q ≠ 0) : cut q ≠ outward q := by
  unfold cut outward
  rcases lt_or_gt_of_ne nonzero with below | above
  · rw [if_neg (by linarith), if_neg (by linarith)]
    omega
  · rw [if_pos above.le, if_pos above]
    omega

theorem ceil_eq_floor_add_one (fraction : ∀ n : Int, q ≠ n) : ⌈q⌉ = ⌊q⌋ + 1 :=
  (Int.ceil_eq_floor_add_one_iff_notMem q).mpr fun ⟨n, same⟩ => fraction n same.symm

/-- **Cutting before a shift.** A fraction that is cut and then shifted is what the shifted fraction
is cut to, unless the shift takes it across zero: then it is the integer on the other side. -/
theorem cut_add (fraction : ∀ n : Int, q ≠ n) (d : Int) :
    cut q + d = if 0 < q ↔ 0 < q + d then cut (q + d) else outward (q + d) := by
  have nonzero : q ≠ 0 := fun same => fraction 0 (by rw [same, Int.cast_zero])
  have shifted : q + d ≠ 0 := fun same => fraction (-d) (by push_cast; linarith)
  have next := ceil_eq_floor_add_one fraction
  unfold cut outward
  rw [Int.floor_add_intCast, Int.ceil_add_intCast]
  rcases lt_or_gt_of_ne nonzero with below | above <;>
    rcases lt_or_gt_of_ne shifted with low | high
  · simp [below.not_ge, below.not_gt, low.not_ge, low.not_gt]
  · simp [below.not_ge, below.not_gt, high, next]
    omega
  · simp [above.le, above, low.not_gt, next]
    omega
  · simp [above.le, above, high.le, high]

theorem cut_of_rounds_of_pos (rounds : Rounds q x s) (above : 0 < q) (near : q < 2 ^ 53) :
    cut s = if s = outward q then outward q else cut q := by
  have low : (0 : Int) ≤ ⌊q⌋ := Int.floor_nonneg.mpr above.le
  have high : ⌊q⌋ < (2 ^ 53 : Int) := Int.floor_lt.mpr (by exact_mod_cast near)
  obtain ⟨y, floor⟩ := exists_of_le (n := ⌊q⌋) (by omega)
  obtain ⟨z, next⟩ := exists_of_le (n := ⌊q⌋ + 1) (by omega)
  have least := rounds.le_value floor (Int.floor_le q)
  have greatest := rounds.value_le next (by push_cast; exact (Int.lt_floor_add_one q).le)
  rw [outward, if_pos above, cut, cut, if_pos above.le,
    if_pos (le_trans (by exact_mod_cast low) least)]
  split
  · rename_i reached
    rw [reached, Int.floor_intCast]
  · rename_i short
    exact Int.floor_eq_iff.mpr ⟨least, lt_of_le_of_ne (by exact_mod_cast greatest)
      (by exact_mod_cast short)⟩

/-- A fraction that is rounded is cut to what the fraction is cut to, unless rounding reaches the
integer behind it. -/
theorem cut_of_rounds (rounds : Rounds q x s) (nonzero : q ≠ 0) (near : |q| < 2 ^ 53) :
    cut s = if s = outward q then outward q else cut q := by
  rcases lt_or_gt_of_ne nonzero with below | above
  · have mirrored := cut_of_rounds_of_pos rounds.negate (by linarith)
      (by rwa [abs_of_neg below] at near)
    rw [cut_neg, cut_neg, outward_neg nonzero, Int.cast_neg] at mirrored
    rw [← neg_inj, mirrored, apply_ite Neg.neg]
    simp only [neg_inj]
  · exact cut_of_rounds_of_pos rounds above (by rwa [abs_of_pos above] at near)

/-- **Cutting before or after a shift.** Both come to the same integer exactly if the shift does not
cross zero and rounding does not reach the next integer, or if both happen. -/
theorem cut_eq_cut_add_iff (fraction : ∀ n : Int, q ≠ n) {d : Int} (rounds : Rounds (q + d) x s)
    (near : |q + d| < 2 ^ 53) :
    cut s = cut q + d ↔ ((0 < q ↔ 0 < q + d) ↔ s ≠ outward (q + d)) := by
  have shifted : q + d ≠ 0 := fun same => fraction (-d) (by push_cast; linarith)
  have apart := cut_ne_outward shifted
  rw [cut_of_rounds rounds shifted near, cut_add fraction d]
  by_cases reached : s = outward (q + d) <;> by_cases side : 0 < q ↔ 0 < q + d
  · simp [reached, side, apart.symm]
  · simp [reached, side]
  · simp [reached, side]
  · simp [reached, side, apart]

end Binary64

end BlockScript
