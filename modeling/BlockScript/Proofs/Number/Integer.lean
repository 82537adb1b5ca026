import BlockScript.Proofs.Number.Nearest
import BlockScript.Proofs.Number.Reading

/-! # Integers of double width

A number is cut towards zero as its value is (`Binary64.truncated_eq_cut`), and it is whole if its
value is an integer (`Binary64.isWhole_iff`). The integers among the values are those of no more
than fifty-three significant bits, and an integer is rounded to an integer, which is the integer
itself exactly if it is one of them (`Binary64.rounds_ofInt`). So it is in whatever way the integer
is given (`Value.exists_toReal_of_rational?`).
-/

namespace BlockScript

namespace Binary64

variable {x y : Binary64} {q value : ℚ} {n m : Int}

/-- A rational cut towards zero. -/
def cut (q : ℚ) : Int := if 0 ≤ q then ⌊q⌋ else ⌈q⌉

theorem cut_intCast (n : Int) : cut n = n := by simp [cut]

/-- What is cut from a number is cut from its opposite. -/
theorem cut_neg (q : ℚ) : cut (-q) = -cut q := by
  unfold cut
  rcases lt_trichotomy q 0 with below | rfl | above
  · rw [if_pos (by linarith), if_neg (by linarith), Int.floor_neg]
  · simp
  · rw [if_neg (by linarith), if_pos above.le, Int.ceil_neg]

/-- A finite value is cut to an integer as its number is. -/
theorem truncated_eq_cut (finite : x.toRat? = some q) : x.truncated = some (cut q) := by
  cases x with
  | nan | infinite => cases finite
  | finite negative significand exponent canonical =>
      have nonnegative := magnitude_nonneg significand exponent
      have whole : (wholeMagnitude significand exponent : Int) =
          cut (magnitude significand exponent) := by
        rw [cut, if_pos nonnegative, wholeMagnitude_eq, Int.natCast_floor_eq_floor nonnegative]
      simp only [toRat?, Option.some.injEq] at finite
      rw [truncated, whole, ← finite]
      cases negative with
      | false => rfl
      | true => simp only [↓reduceIte, cut_neg]

/-- A number is whole if its value is an integer. -/
theorem isWhole_iff (finite : x.toRat? = some q) : x.isWhole = true ↔ ∃ n : Int, q = n := by
  cases x with
  | nan | infinite => cases finite
  | finite negative significand exponent canonical =>
      simp only [toRat?, Option.some.injEq] at finite
      have signed : (∃ n : Int, q = n) ↔ ∃ n : Int, magnitude significand exponent = n := by
        rw [← finite]
        cases negative with
        | false => rfl
        | true =>
            constructor
            · rintro ⟨n, same⟩
              refine ⟨-n, ?_⟩
              rw [Int.cast_neg, ← same]
              simp
            · rintro ⟨n, same⟩
              refine ⟨-n, ?_⟩
              rw [Int.cast_neg, ← same]
              simp
      have scaled : isWhole (.finite negative significand exponent canonical) = true ↔
          0 ≤ exponent ∨ significand % 2 ^ (-exponent).toNat = 0 := by simp [isWhole]
      rw [scaled, signed]
      constructor
      · intro whole
        exact ⟨wholeMagnitude significand exponent, by
          rw [Int.cast_natCast, cast_wholeMagnitude whole]⟩
      · rintro ⟨n, same⟩
        by_contra fraction
        obtain ⟨fine, uneven⟩ := not_or.mp fraction
        obtain ⟨shift, opposite⟩ := Int.eq_ofNat_of_zero_le (show 0 ≤ -exponent by omega)
        obtain rfl : exponent = -(shift : Int) := by omega
        rw [magnitude, zpow_neg, zpow_natCast, ← div_eq_mul_inv, div_eq_iff (by positivity)] at same
        have multiple : (significand : Int) = n * 2 ^ shift := by exact_mod_cast same
        refine uneven (Nat.mod_eq_zero_of_dvd ?_)
        rw [neg_neg, Int.toNat_natCast]
        exact Int.natCast_dvd_natCast.mp ⟨n, by push_cast; rw [multiple, mul_comm]⟩

/-- A large number is whole. -/
theorem isWhole_of_le (finite : x.toRat? = some q) (large : 2 ^ 52 ≤ |q|) : x.isWhole = true := by
  cases x with
  | nan | infinite => cases finite
  | finite negative significand exponent canonical =>
      simp only [toRat?, Option.some.injEq] at finite
      have size : 2 ^ 52 ≤ magnitude significand exponent := by
        rw [← abs_of_nonneg (magnitude_nonneg significand exponent)]
        rw [← finite] at large
        cases negative with
        | false => exact large
        | true =>
            rw [← abs_neg]
            exact large
      have coarse : 0 ≤ exponent := by
        by_contra fine
        have short : (significand : ℚ) < 2 ^ 53 := by exact_mod_cast canonical.1
        have half : (2 : ℚ) ^ exponent ≤ 2 ^ (-1 : Int) :=
          zpow_le_zpow_right₀ (by norm_num) (by omega)
        have positive := two_zpow_pos exponent
        rw [magnitude] at size
        rw [zpow_neg_one] at half
        nlinarith
      simp [isWhole, coarse]

/-- A value is negative if its number is. -/
theorem isNegative_iff (finite : x.toRat? = some q) : x.isNegative = true ↔ q < 0 := by
  cases x with
  | nan | infinite => cases finite
  | finite negative significand exponent canonical =>
      have unit := two_zpow_pos exponent
      have nonnegative := magnitude_nonneg significand exponent
      have zero : magnitude significand exponent = 0 ↔ significand = 0 := by
        simp [magnitude, unit.ne']
      simp only [toRat?, Option.some.injEq] at finite
      rw [← finite]
      cases negative with
      | false => simpa [isNegative] using nonnegative
      | true =>
          simp only [isNegative, Bool.true_and, bne_iff_ne, ne_eq, ↓reduceIte, neg_lt_zero, ← zero]
          exact ⟨fun apart => lt_of_le_of_ne nonnegative (Ne.symm apart), fun apart => apart.ne'⟩

/-! ## Integers that are values -/

/-- An integer with no more than fifty-three significant bits. -/
def IsShort (n : Int) : Prop :=
  ∃ significand shift : Nat, significand < 2 ^ 53 ∧ n.natAbs = significand * 2 ^ shift

/-- Integers of no more than fifty-three bits are short. -/
theorem isShort_of_le (small : n.natAbs ≤ 2 ^ 53) : IsShort n := by
  rcases small.lt_or_eq with less | same
  · exact ⟨n.natAbs, 0, less, by simp⟩
  · exact ⟨1, 53, by norm_num, by rw [same, one_mul]⟩

/-- Integers that are values are short. -/
theorem isShort_of_toRat? (finite : y.toRat? = some (n : ℚ)) : IsShort n := by
  obtain ⟨significand, exponent, normal, signed⟩ := exists_magnitude_of_toRat? finite
  have size : ((n.natAbs : Nat) : ℚ) = magnitude significand exponent := by
    rw [Nat.cast_natAbs, Int.cast_abs]
    rcases signed with same | same
    · rw [same, abs_of_nonneg (magnitude_nonneg ..)]
    · rw [same, abs_neg, abs_of_nonneg (magnitude_nonneg ..)]
  rcases le_or_gt 0 exponent with coarse | fine
  · obtain ⟨shift, rfl⟩ := Int.eq_ofNat_of_zero_le coarse
    refine ⟨significand, shift, normal.short, ?_⟩
    rw [magnitude, zpow_natCast] at size
    exact_mod_cast size
  · refine isShort_of_le (le_of_lt (lt_of_le_of_lt ?_ normal.short))
    have unit : (2 : ℚ) ^ exponent ≤ 1 := zpow_le_one_of_nonpos₀ (by norm_num) fine.le
    have bound : ((n.natAbs : Nat) : ℚ) ≤ significand := by
      rw [size, magnitude]
      exact mul_le_of_le_one_right (Nat.cast_nonneg _) unit
    exact_mod_cast bound

theorem overflow_le : overflow ≤ 2 ^ 1024 := by decide +kernel

/-- The number of a natural number with no more than fifty-three significant bits. -/
theorem exists_natural {significand shift size : Nat} (short : significand < 2 ^ 53)
    (value : size = significand * 2 ^ shift) (bounded : size < overflow) :
    ∃ y : Binary64, y.toRat? = some (size : ℚ) := by
  rcases size.eq_zero_or_pos with rfl | positive
  · exact ⟨zero false, by simp [zero, toRat?, magnitude]⟩
  have low := Nat.log2_self_le positive.ne'
  have high := @Nat.lt_log2_self size
  have greatest := (Nat.log2_lt positive.ne').mpr (bounded.trans_le overflow_le)
  generalize size.log2 = bits at low high greatest
  -- The first bit of the significand is set when it is scaled to fifty-three bits.
  rcases le_or_gt bits 52 with few | many
  · obtain ⟨room, total⟩ : ∃ room, bits + room = 52 := ⟨52 - bits, by omega⟩
    have canonical : IsCanonical (size * 2 ^ room) (-(room : Int)) := by
      refine ⟨?_, ?_, ?_, .inl ?_⟩
      · calc size * 2 ^ room < 2 ^ (bits + 1) * 2 ^ room :=
            Nat.mul_lt_mul_of_pos_right high (Nat.two_pow_pos _)
          _ = 2 ^ 53 := by rw [← Nat.pow_add]; congr 1; omega
      · unfold leastExponent; omega
      · unfold greatestExponent; omega
      · calc 2 ^ 52 = 2 ^ bits * 2 ^ room := by rw [← Nat.pow_add]; congr 1; omega
          _ ≤ size * 2 ^ room := Nat.mul_le_mul_right _ low
    refine ⟨.finite false _ _ canonical, ?_⟩
    simp [toRat?, magnitude]
  · obtain ⟨extra, rfl⟩ : ∃ extra, bits = extra + 52 := ⟨bits - 52, by omega⟩
    have divides : 2 ^ extra ∣ size := by
      have less : extra + 52 < 53 + shift := by
        have : 2 ^ (extra + 52) < 2 ^ (53 + shift) := by
          rw [Nat.pow_add 2 53 shift]
          exact low.trans_lt (value ▸ Nat.mul_lt_mul_of_pos_right short (Nat.two_pow_pos _))
        exact (Nat.pow_lt_pow_iff_right (by decide)).mp this
      rw [value]
      exact Dvd.dvd.mul_left (Nat.pow_dvd_pow 2 (by omega)) _
    obtain ⟨quotient, rfl⟩ := divides
    have canonical : IsCanonical quotient extra := by
      refine ⟨?_, ?_, ?_, .inl ?_⟩
      · rw [show extra + 52 + 1 = extra + 53 by omega, Nat.pow_add] at high
        exact Nat.lt_of_mul_lt_mul_left high
      · unfold leastExponent; omega
      · unfold greatestExponent; omega
      · rw [Nat.pow_add] at low
        exact Nat.le_of_mul_le_mul_left low (Nat.two_pow_pos _)
    refine ⟨.finite false _ _ canonical, ?_⟩
    simp [toRat?, magnitude, mul_comm]

/-- **Short integers are values**, unless they are too large. -/
theorem exists_of_isShort (short : IsShort n) (bounded : n.natAbs < overflow) :
    ∃ y : Binary64, y.toRat? = some (n : ℚ) := by
  obtain ⟨significand, shift, narrow, value⟩ := short
  obtain ⟨y, finite⟩ := exists_natural narrow value bounded
  rcases n.natAbs_eq with same | same
  · refine ⟨y, ?_⟩
    rw [finite, same]
    simp
  · refine ⟨y.negate, ?_⟩
    rw [toRat?_negate, finite, same]
    simp

/-- Integers of no more than fifty-three bits are values. -/
theorem exists_of_le (small : n.natAbs ≤ 2 ^ 53) : ∃ y : Binary64, y.toRat? = some (n : ℚ) :=
  exists_of_isShort (isShort_of_le small) (small.trans_lt (by decide +kernel))

/-! ## Rounding integers -/

/-- An integer that is too large is rounded to infinity. -/
theorem ofInt_eq_infinite (large : overflow ≤ n.natAbs) :
    ofInt n = .infinite (decide (n < 0)) := by
  refine nearest_eq_infinite _ Nat.one_pos ?_
  rw [Nat.cast_one, div_one]
  exact_mod_cast large

/-- **Integers are rounded to integers**, with no change exactly for those that are values. -/
theorem rounds_ofInt (small : n.natAbs < overflow) :
    ∃ m : Int, Rounds n (ofInt n) m ∧ (m = n ↔ IsShort n) ∧ (m < 0 ↔ n < 0) := by
  obtain ⟨value, rounds⟩ : ∃ value, Rounds n (ofInt n) value := by
    have below : (n.natAbs : ℚ) / (1 : Nat) < overflow := by
      rw [Nat.cast_one, div_one]
      exact_mod_cast small
    obtain ⟨value, rounds⟩ := rounds_nearest (decide (n < 0)) n.natAbs Nat.one_pos below
    refine ⟨value, ?_⟩
    have signed : (if decide (n < 0) = true then -((n.natAbs : ℚ) / (1 : Nat))
        else (n.natAbs : ℚ) / (1 : Nat)) = n := by
      rw [Nat.cast_natAbs, Int.cast_abs, Nat.cast_one, div_one]
      by_cases negative : n < 0
      · simp [negative, abs_of_neg (show (n : ℚ) < 0 by exact_mod_cast negative)]
      · simp [negative, abs_of_nonneg (show (0 : ℚ) ≤ n by exact_mod_cast not_lt.mp negative)]
    rwa [signed] at rounds
  -- An integer that is not exact lies beyond those that are, and so does what it is rounded to.
  obtain ⟨m, rfl⟩ : ∃ m : Int, value = m := by
    by_cases near : n.natAbs ≤ 2 ^ 53
    · obtain ⟨y, finite⟩ := exists_of_le near
      exact ⟨n, rounds.eq_of_finite finite⟩
    · refine (isWhole_iff rounds.finite).mp (isWhole_of_le rounds.finite ?_)
      rcases le_or_gt 0 n with above | below
      · obtain ⟨y, finite⟩ := exists_of_le (n := 2 ^ 53) (by decide)
        have bound := rounds.le_value finite (by exact_mod_cast (show 2 ^ 53 ≤ n by omega))
        push_cast at bound
        rw [abs_of_nonneg] <;> linarith
      · obtain ⟨y, finite⟩ := exists_of_le (n := -2 ^ 53) (by decide)
        have bound := rounds.value_le finite (by exact_mod_cast (show n ≤ -2 ^ 53 by omega))
        push_cast at bound
        rw [abs_of_nonpos] <;> linarith
  refine ⟨m, rounds, ⟨?_, ?_⟩, ⟨?_, ?_⟩⟩
  · rintro rfl
    exact isShort_of_toRat? rounds.finite
  · intro short
    obtain ⟨y, finite⟩ := exists_of_isShort short small
    exact_mod_cast rounds.eq_of_finite finite
  · intro negative
    by_contra above
    obtain ⟨y, finite⟩ := exists_of_le (n := 0) (by decide)
    have bound := rounds.le_value finite (by exact_mod_cast not_lt.mp above)
    exact absurd negative (not_lt.mpr (by exact_mod_cast bound))
  · intro negative
    obtain ⟨y, finite⟩ := exists_of_le (n := -1) (by decide)
    have bound := rounds.value_le finite (by exact_mod_cast Int.le_sub_one_of_lt negative)
    have : m ≤ -1 := by exact_mod_cast bound
    omega

/-- The integer that an integer is rounded to, where it is not too large. -/
def roundedInt (n : Int) : Int := (ofInt n).truncated.getD 0

/-- That integer is the nearest value, and it is the integer itself if that is short. -/
theorem rounds_roundedInt (small : n.natAbs < overflow) :
    Rounds n (ofInt n) (roundedInt n) ∧ (roundedInt n = n ↔ IsShort n) := by
  obtain ⟨m, rounds, exact, -⟩ := rounds_ofInt small
  have same : roundedInt n = m := by
    rw [roundedInt, truncated_eq_cut rounds.finite, cut_intCast, Option.getD_some]
  rw [same]
  exact ⟨rounds, exact⟩

/-- Short integers are not changed. -/
theorem roundedInt_of_isShort (small : n.natAbs < overflow) (short : IsShort n) :
    roundedInt n = n :=
  (rounds_roundedInt small).2.mpr short

/-- A decimal is rounded as the natural number that it denotes. -/
theorem ofDecimal_eq_nearest (negative : Bool) {digits size : Nat} {power : Int}
    (value : (digits : ℚ) * 10 ^ power = size) (positive : 0 < size) (small : size < overflow) :
    ofDecimal negative digits power = nearest negative size 1 := by
  have unit : (size : ℚ) / (1 : Nat) = size := by rw [Nat.cast_one, div_one]
  have one : (1 : ℚ) ≤ size := by exact_mod_cast positive
  obtain ⟨significand, exponent, normal, inside⟩ := exists_inCell (lt_of_lt_of_le one_pos one)
  have canonical := normal.isCanonical
    ((inside.exponent_le_iff normal).mpr (by exact_mod_cast small))
  have significandPos : 0 < significand := by
    by_contra zero
    obtain rfl : significand = 0 := by omega
    -- The cell of zero ends far below one.
    have least := normal.full.resolve_left (by norm_num)
    have tiny : (2 : ℚ) ^ (exponent - 2) ≤ 2 ^ (-2 : Int) :=
      zpow_le_zpow_right₀ (by norm_num) (by rw [least]; decide)
    have high := inside.bounds.2
    rw [Nat.cast_zero, mul_zero, zero_add] at high
    norm_num at tiny
    linarith
  rw [← value] at inside
  rw [ofDecimal_of_inCell negative canonical significandPos inside]
  rw [value, ← unit] at inside
  rw [nearest_of_inCell negative canonical positive Nat.one_pos inside]

/-- **Decimals of integers** are rounded to the number that the integer is rounded to; only the sign
of zero may differ. -/
theorem toRat?_ofDecimal {negative : Bool} {digits : Nat} {power : Int}
    (value : (if negative then -1 else 1) * ((digits : ℚ) * 10 ^ power) = n)
    (small : n.natAbs < overflow) :
    (ofDecimal negative digits power).toRat? = some (roundedInt n : ℚ) := by
  have rounds := (rounds_roundedInt small).1
  have unsigned : (digits : ℚ) * 10 ^ power = n.natAbs := by
    have nonnegative : 0 ≤ (digits : ℚ) * 10 ^ power :=
      mul_nonneg (Nat.cast_nonneg digits) (ten_zpow_pos power).le
    rw [Nat.cast_natAbs, Int.cast_abs, ← value]
    cases negative with
    | false => simp [abs_of_nonneg nonnegative]
    | true => simp [abs_of_nonneg nonnegative]
  rcases n.natAbs.eq_zero_or_pos with nothing | positive
  · obtain rfl : n = 0 := Int.natAbs_eq_zero.mp nothing
    have none : digits = 0 := by
      rw [nothing, Nat.cast_zero, mul_eq_zero] at unsigned
      exact_mod_cast unsigned.resolve_right (ten_zpow_pos power).ne'
    rw [roundedInt_of_isShort small (isShort_of_le (by decide)), none, ofDecimal]
    cases negative <;> simp [zero, toRat?, magnitude]
  · have sign : negative = decide (n < 0) := by
      have size : (0 : ℚ) < n.natAbs := by exact_mod_cast positive
      rw [unsigned] at value
      cases negative with
      | false =>
          have above : (0 : ℚ) < n := by rw [← value]; simpa using size
          simp [(show 0 < n by exact_mod_cast above).le]
      | true =>
          have below : (n : ℚ) < 0 := by rw [← value]; simpa using size
          simp [show n < 0 by exact_mod_cast below]
    rw [ofDecimal_eq_nearest negative unsigned positive small, sign]
    exact rounds.finite

end Binary64

/-! ## Values that stand for integers -/

/-- The number that a text denotes in decimal notation, before it is rounded. -/
def Numeral.rational? (text : String) : Option ℚ := do
  let chars ← withoutUnderscores false (trimmed text)
  let (negative, chars) := sign chars
  let (digits, exponent) ← decimal? chars
  return (if negative then -1 else 1) * (digits * 10 ^ exponent)

/-- A text in decimal notation is read as the number nearest to what it denotes. -/
theorem Numeral.exists_of_rational? {text : String} {q : ℚ} (denotes : rational? text = some q) :
    ∃ (negative : Bool) (digits : Nat) (power : Int),
      real? text = some (.ofDecimal negative digits power) ∧
        (if negative then -1 else 1) * ((digits : ℚ) * 10 ^ power) = q := by
  simp only [rational?, Option.bind_eq_bind, Option.bind_eq_some_iff] at denotes
  obtain ⟨signed, plain, ⟨digits, power⟩, read, value⟩ := denotes
  exact ⟨_, digits, power, real?_eq_ofDecimal plain rfl read, Option.some.inj value⟩

namespace Value

variable {value : Value} {k : Int}

/-- The number that a value stands for, before it is rounded to double width. -/
def rational? : Value → Option ℚ
  | .bool truth => some (if truth then 1 else 0)
  | .int k => some k
  | .real x => x.toRat?
  | .text chars => Numeral.rational? chars
  | _ => none

/-- An integer is read as the value that it is rounded to. -/
theorem toReal_int (small : k.natAbs < Binary64.overflow) :
    (Value.int k).toReal = .ok (.ofInt k) := by
  have finite := (Binary64.rounds_roundedInt small).1.finite
  rw [toReal]
  split
  · rename_i infinite
    rw [infinite] at finite
    cases finite
  · rfl

/-- **Values of integers.** A value that stands for an integer is read as the number that the
integer is rounded to, if the integer is not too large. -/
theorem exists_toReal_of_rational? (given : value.rational? = some (k : ℚ))
    (small : k.natAbs < Binary64.overflow) :
    ∃ x, value.toReal = .ok x ∧ x.toRat? = some (Binary64.roundedInt k : ℚ) := by
  have rounds := (Binary64.rounds_roundedInt small).1
  cases value with
  | bool truth =>
      obtain rfl : (if truth then 1 else 0) = k := by
        have same := Option.some.inj given
        cases truth <;> exact_mod_cast same
      exact ⟨_, rfl, rounds.finite⟩
  | int m =>
      obtain rfl : m = k := by exact_mod_cast Option.some.inj given
      exact ⟨_, toReal_int small, rounds.finite⟩
  | real x =>
      have finite : x.toRat? = some (k : ℚ) := given
      refine ⟨x, rfl, ?_⟩
      rw [finite, Binary64.roundedInt_of_isShort small (Binary64.isShort_of_toRat? finite)]
  | text chars =>
      obtain ⟨negative, digits, power, read, denotes⟩ := Numeral.exists_of_rational? given
      refine ⟨_, ?_, Binary64.toRat?_ofDecimal denotes small⟩
      rw [toReal, read]
  | null | list | object => cases given

end Value

/-- The literal of a number whose value is an integer. -/
theorem Gen.numberLiteral_of_integer {x : Binary64} {m : Int} (finite : x.toRat? = some (m : ℚ)) :
    numberLiteral x = ⟨toString m, if m < 0 then .unarySign else .atomic⟩ := by
  have whole := (Binary64.isWhole_iff finite).mpr ⟨m, rfl⟩
  have cut := Binary64.truncated_eq_cut finite
  have sign : x.isNegative = decide (m < 0) := by
    rw [Bool.eq_iff_iff, Binary64.isNegative_iff finite, decide_eq_true_iff]
    exact_mod_cast Iff.rfl
  rw [Binary64.cut_intCast] at cut
  cases x with
  | nan | infinite => cases finite
  | finite => simp only [numberLiteral, whole, cut, sign, ↓reduceIte, Option.getD_some,
      decide_eq_true_eq]

end BlockScript
