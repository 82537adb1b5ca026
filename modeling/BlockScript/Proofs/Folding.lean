import BlockScript.Proofs.Number.Sum
import BlockScript.Proofs.NumericField
import BlockScript.Proofs.Offset

/-! # Positions that are folded

The position of a number block is cut to an integer and then shifted, both in advance. Any other
position is shifted and then cut, by the code that is generated for it, which computes with integers
and with numbers of double width (`Runtime.numbers`). For integers both come to the same offset. For
fractions they differ where the shift crosses zero, and where the sum is rounded to an integer
(`Setting.index_folds`).
-/

namespace BlockScript

-- Powers are the built-in ones, also where a library brings others.
attribute [local instance (2000)] instPowNat

open Binary64

variable {n : Nat} {x : Binary64} {q : ℚ}

namespace Numeric

/-- The number of double width for sums with such numbers; an integer beyond all of them has
none. -/
def toReal? : Numeric → Option Binary64
  | .whole n => if n.natAbs < overflow then some (.ofInt n) else none
  | .real x => some x

/-- The sum of two numbers, exact for integers. -/
def plus : Numeric → Numeric → Option Numeric
  | .whole m, .whole n => some (.whole (m + n))
  | first, second => do return .real ((← first.toReal?).add (← second.toReal?))

/-- The difference of two numbers, exact for integers. -/
def minus : Numeric → Numeric → Option Numeric
  | .whole m, .whole n => some (.whole (m - n))
  | first, second => do return .real ((← first.toReal?).add (← second.toReal?).negate)

/-- The number cut to an integer; none for an infinity or a not-a-number. -/
def toWhole? : Numeric → Option Int
  | .whole n => some n
  | .real x => x.truncated

/-- Whether the number is not zero. -/
def isTrue : Numeric → Bool
  | .whole n => decide (n ≠ 0)
  | .real x => !x.isZero

end Numeric

namespace Runtime

/-- The numbers as values, with given numbers for the expressions that are not looked into. -/
def numbers (value : String → Option Numeric) (limit : Nat) : Runtime Numeric where
  value := value
  whole := .whole
  sum := Numeric.plus
  difference := Numeric.minus
  negative number := some number.negated
  conversion number := number.toWhole?.map .whole
  isTrue number := some number.isTrue
  limit := limit
  sum_whole _ _ := rfl
  difference_whole _ _ := rfl
  negative_whole _ := rfl
  conversion_whole _ := rfl
  isTrue_whole _ := rfl

end Runtime

/-! ## Shifted numbers -/

namespace Numeric

/-- A number whose value is an integer is that integer. -/
theorem ofNumber_of_integer {m : Int} (finite : x.toRat? = some (m : ℚ)) :
    Numeric.ofNumber x = .whole m := by
  have cut := truncated_eq_cut finite
  rw [cut_intCast] at cut
  rw [ofNumber, if_pos ((isWhole_iff finite).mpr ⟨m, rfl⟩), cut, Option.getD_some]

theorem ofNumber_of_fraction (finite : x.toRat? = some q) (fraction : ∀ m : Int, q ≠ m) :
    Numeric.ofNumber x = .real x := by
  refine if_neg fun whole => ?_
  obtain ⟨m, same⟩ := (isWhole_iff finite).mp whole
  exact fraction m same

theorem plus_real_whole (x : Binary64) (n : Int) :
    (Numeric.real x).plus (.whole n) =
      if n.natAbs < overflow then some (.real (x.add (.ofInt n))) else none := by
  by_cases small : n.natAbs < overflow
  · simp only [plus, toReal?, small, ↓reduceIte]
    rfl
  · simp only [plus, toReal?, small, ↓reduceIte]
    rfl

theorem minus_real_whole (x : Binary64) (n : Int) :
    (Numeric.real x).minus (.whole n) =
      if n.natAbs < overflow then some (.real (x.add (ofInt n).negate)) else none := by
  by_cases small : n.natAbs < overflow
  · simp only [minus, toReal?, small, ↓reduceIte]
    rfl
  · simp only [minus, toReal?, small, ↓reduceIte]
    rfl

end Numeric

/-- Fractions have no more than fifty-two bits before the point. -/
theorem Binary64.abs_lt_of_fraction (finite : x.toRat? = some q) (fraction : ∀ m : Int, q ≠ m) :
    |q| < 2 ^ 52 := by
  by_contra far
  obtain ⟨m, same⟩ := (isWhole_iff finite).mp (isWhole_of_le finite (not_lt.mp far))
  exact fraction m same

/-- What a rational with a shift comes to at double width: the shift is rounded, and then the
sum. -/
def Binary64.RoundsShifted (q : ℚ) (amount : Int) (z : Binary64) (s : ℚ) : Prop :=
  ∃ y m, Rounds amount y m ∧ Rounds (q + m) z s

namespace Runtime

variable (value : String → Option Numeric) (limit : Nat) {amount : Int}

/-- A fraction with a shift that is not too large. -/
theorem exists_shifted_fraction (finite : x.toRat? = some q) (fraction : ∀ m : Int, q ≠ m)
    (small : amount.natAbs < overflow) :
    ∃ z s, RoundsShifted q amount z s ∧
      (numbers value limit).shifted amount (.real x) = some (.real z) := by
  have near := (abs_lt_of_fraction finite fraction).le
  -- The shift is rounded to a number, which is then added.
  have added {y : Binary64} {m : ℚ} (rounds : Rounds amount y m) :
      ∃ s, RoundsShifted q amount (x.add y) s := by
    have bounded := abs_add_lt_overflow rounds.finite near
    rw [add_comm] at bounded
    obtain ⟨s, sum⟩ := rounds_add finite rounds.finite bounded
    exact ⟨s, y, m, rounds, sum⟩
  rcases Int.lt_trichotomy amount 0 with below | rfl | above
  · have opposite : (-amount).natAbs < overflow := by rwa [Int.natAbs_neg]
    obtain ⟨m, rounds, -⟩ := rounds_ofInt opposite
    have mirrored := rounds.negate
    rw [Int.cast_neg, neg_neg] at mirrored
    obtain ⟨s, sum⟩ := added mirrored
    refine ⟨_, s, sum, ?_⟩
    rw [shifted, if_neg (by omega), if_pos below]
    exact (Numeric.minus_real_whole ..).trans (if_pos opposite)
  · obtain ⟨y, zero⟩ := exists_of_le (n := 0) (by decide)
    refine ⟨x, q, ⟨y, 0, ?_, ?_⟩, rfl⟩
    · exact .of_finite zero
    · rw [add_zero]
      exact .of_finite finite
  · obtain ⟨m, rounds, -⟩ := rounds_ofInt small
    obtain ⟨s, sum⟩ := added rounds
    refine ⟨_, s, sum, ?_⟩
    rw [shifted, if_pos above]
    exact (Numeric.plus_real_whole ..).trans (if_pos small)

/-- A fraction has no sum with an integer that is too large. -/
theorem shifted_real_eq_none (large : overflow ≤ amount.natAbs) :
    (numbers value limit).shifted amount (.real x) = none := by
  have positive : 0 < overflow := by decide +kernel
  rcases Int.lt_trichotomy amount 0 with below | rfl | above
  · rw [shifted, if_neg (by omega), if_pos below]
    refine (Numeric.minus_real_whole ..).trans (if_neg ?_)
    rw [Int.natAbs_neg]
    exact Nat.not_lt.mpr large
  · rw [Int.natAbs_zero] at large
    exact absurd positive (Nat.not_lt.mpr large)
  · rw [shifted, if_pos above]
    exact (Numeric.plus_real_whole ..).trans (if_neg (Nat.not_lt.mpr large))

/-- The offset of a value whose sum with the shift is a number of double width. -/
theorem offset_of_shifted {number : Numeric} {z : Binary64} {s : ℚ}
    (moved : (numbers value limit).shifted amount number = some (.real z))
    (finite : z.toRat? = some s) (negate : Bool) :
    (numbers value limit).offset amount negate number =
      some (.whole (if negate then -cut s else cut s)) := by
  have converted : (numbers value limit).conversion (.real z) = some (.whole (cut s)) :=
    congrArg (Option.map Numeric.whole) (truncated_eq_cut finite)
  rw [offset, moved]
  simp only [Option.bind_eq_bind, Option.bind_some, converted]
  cases negate <;> rfl

end Runtime

namespace Setting

open Numeral

variable {setting : Setting n} {pass : Pass n} {block : Block n} {socket : String} {ref : Fin n}

/-- The position of a number block is folded. -/
theorem run_index_of_number (has : setting.Has ref .number) (idle : ref ∉ pass.active)
    (read : (((setting.block ref).field? "NUM").getD (.int 0)).toReal = .ok x)
    (finite : x.toRat? = some q) (plugged : block.input? socket = some ref) (depth : Nat)
    (delta : Int) (negate : Bool) :
    ((Gen.index setting block socket delta negate).runWith
        (setting.outcome (depth + 1))).run.run pass =
      (if IsWritable (Index.target setting.oneBased (cut q) delta negate) then
        .ok ⟨toString (Index.target setting.oneBased (cut q) delta negate),
          some (Index.target setting.oneBased (cut q) delta negate)⟩
      else .error .tooManyDigits, pass) := by
  have fills : Gen.Fills (setting.outcome (depth + 1)) (block.input? socket) pass
      (some (Gen.numberLiteral x)) pass := by
    rw [plugged]
    exact ⟨_, rfl, run_number has idle read depth⟩
  rw [Gen.run_index_of_yields fills.child, Index.ofHeld_numberLiteral (truncated_eq_cut finite)]

/-- The position of any other block is computed when the program runs. -/
theorem run_index_of_other {after : Pass n} {depth : Nat} {value : Expression}
    (reached : setting.Reached pass) (other : ¬ setting.Has ref .number)
    (ran : (setting.outcome depth ref).run.run pass = (.ok (.expression value), after))
    (plugged : block.input? socket = some ref) (delta : Int) (negate : Bool) :
    ((Gen.index setting block socket delta negate).runWith (setting.outcome depth)).run.run pass =
      (if IsWritable (Index.shift setting.oneBased delta) then
        .ok ⟨Index.conversionCode (Order.wrap value.code value.order
          (Gen.shiftOrder (Index.shift setting.oneBased delta)))
          (Index.shift setting.oneBased delta) negate, none⟩
      else .error .tooManyDigits, after) := by
  have fills : Gen.Fills (setting.outcome depth) (block.input? socket) pass (some value) after := by
    rw [plugged]
    exact ⟨value, rfl, ran⟩
  rw [Gen.run_index_of_yields fills.child,
    Index.ofHeld_of_not_literal (isLiteral_of_outcome reached other ran), Index.ofCode_eq]

/-- When a shift of no more than fifty-two bits can be folded into a fraction. -/
theorem offset_eq_target_iff (finite : x.toRat? = some q) (fraction : ∀ m : Int, q ≠ m)
    {oneBased : Bool} {delta : Int} (few : (Index.shift oneBased delta).natAbs ≤ 2 ^ 52)
    {y z : Binary64} {m s : ℚ} (rounded : Rounds (Index.shift oneBased delta) y m)
    (rounds : Rounds (q + m) z s) (negate : Bool) :
    (if negate then -cut s else cut s) = Index.target oneBased (cut q) delta negate ↔
      ((0 < q ↔ 0 < q + Index.shift oneBased delta) ↔
        s ≠ outward (q + Index.shift oneBased delta)) := by
  rw [Index.target_eq]
  generalize Index.shift oneBased delta = amount at *
  obtain ⟨exact, whole⟩ := exists_of_le (n := amount) (few.trans (by decide))
  obtain rfl := rounded.eq_of_finite whole
  have near : |q + amount| < 2 ^ 53 := by
    have size : |(amount : ℚ)| ≤ 2 ^ 52 := by
      rw [← Int.cast_abs, Int.abs_eq_natAbs]
      exact_mod_cast few
    have fractional := abs_lt_of_fraction finite fraction
    linarith [abs_add_le q amount]
  rw [← cut_eq_cut_add_iff fraction rounds near]
  cases negate with
  | false => rfl
  | true => exact neg_inj

/-- **Folded and computed positions.** A number block with the finite number `q` as a position is
folded: the offset is `± (cut q + amount)`, as the code and as the constant. A block of another kind
whose code evaluates to the same number is given code that adds the amount before it cuts. For an
integer `q` both offsets are the same. For a fraction the code fails if the amount is beyond the
numbers of double width, and otherwise it comes to the rounded sum, cut: if the amount has no more
than fifty-two bits, that is the folded offset exactly if the amount does not take `q` across zero
and the sum is not rounded to the integer behind it, or if both happen. -/
theorem index_folds (finite : x.toRat? = some q) (reached : setting.Reached pass)
    (plugged : block.input? socket = some ref) (depth : Nat) (delta : Int) (negate : Bool)
    (values : String → Option Numeric) (limit : Nat) (imports : List String) {amount folded : Int}
    {computed : Option Numeric} (shift : Index.shift setting.oneBased delta = amount)
    (known : Index.target setting.oneBased (cut q) delta negate = folded)
    (ran : (Runtime.numbers values limit).offset amount negate (.ofNumber x) = computed) :
    (setting.Has ref .number → ref ∉ pass.active →
      (((setting.block ref).field? "NUM").getD (.int 0)).toReal = .ok x →
      ((Gen.index setting block socket delta negate).runWith
          (setting.outcome (depth + 1))).run.run pass =
        (if IsWritable folded then .ok ⟨toString folded, some folded⟩ else .error .tooManyDigits,
          pass)) ∧
    (¬ setting.Has ref .number → ∀ value after,
      (setting.outcome depth ref).run.run pass = (.ok (.expression value), after) →
      (Runtime.numbers values limit).evaluate imports value.code = some (.ofNumber x) →
      (IsWritable amount → ∃ code,
        ((Gen.index setting block socket delta negate).runWith
          (setting.outcome depth)).run.run pass = (.ok ⟨code, none⟩, after) ∧
        (Runtime.numbers values limit).evaluate imports code = computed) ∧
      (¬ IsWritable amount →
        ((Gen.index setting block socket delta negate).runWith
          (setting.outcome depth)).run.run pass = (.error .tooManyDigits, after))) ∧
    (∀ m : Int, q = m → computed = some (.whole folded)) ∧
    ((∀ m : Int, q ≠ m) →
      (overflow ≤ amount.natAbs → computed = none) ∧
      (amount.natAbs < overflow → ∃ z s, RoundsShifted q amount z s ∧
        computed = some (.whole (if negate then -cut s else cut s)) ∧
        (amount.natAbs ≤ 2 ^ 52 → (computed = some (.whole folded) ↔
          ((0 < q ↔ 0 < q + amount) ↔ s ≠ outward (q + amount)))))) := by
  subst shift known ran
  refine ⟨fun has idle read => run_index_of_number has idle read finite plugged depth delta negate,
    ?_, ?_, ?_⟩
  · intro other value after ran evaluated
    rw [run_index_of_other reached other ran plugged]
    refine ⟨fun writable => ⟨_, by rw [if_pos writable], ?_⟩, fun refused => by rw [if_neg refused]⟩
    rw [evaluate_conversion_of_outcome reached ran writable, evaluated, Option.bind_some]
  · rintro m rfl
    rw [Numeric.ofNumber_of_integer finite, cut_intCast, Index.target_eq]
    exact (Runtime.numbers values limit).offset_whole ..
  · intro fraction
    rw [Numeric.ofNumber_of_fraction finite fraction]
    refine ⟨fun large => ?_, fun small => ?_⟩
    · rw [Runtime.offset, Runtime.shifted_real_eq_none values limit large]
      rfl
    · obtain ⟨z, s, shifted, moved⟩ :=
        Runtime.exists_shifted_fraction values limit finite fraction small
      obtain ⟨y, m, rounded, rounds⟩ := shifted
      have computed := Runtime.offset_of_shifted values limit moved rounds.finite negate
      refine ⟨z, s, ⟨y, m, rounded, rounds⟩, computed, fun few => ?_⟩
      rw [computed, Option.some.injEq, Numeric.whole.injEq]
      exact offset_eq_target_iff finite fraction few rounded rounds negate

end Setting

/-- One half. -/
def Binary64.half : Binary64 := .ofDecimal false 5 (-1)

theorem Binary64.toRat?_half : half.toRat? = some (1 / 2) := by
  have same : half = .finite false (2 ^ 52) (-53) (by decide) := by decide +kernel
  rw [same, toRat?, magnitude]
  norm_num

namespace Setting

/-- A program of one half. -/
def halfSample : Setting 1 := .ofBlocks #v[.ofKind .number [("NUM", .real half)] []] []

/-- Where positions start with one, the position `1 / 2` has the offset `-1` if it is folded, and
the offset `0` if it is what a variable holds. -/
theorem index_folds_halfSample :
    half.toRat? = some (1 / 2) ∧ accessSample.input? "AT" = some (Fin.last 0) ∧
    ((Gen.index halfSample accessSample "AT" 0 false).runWith (halfSample.outcome 1)).run.run
      (Pass.start Names.start) = (.ok ⟨"-1", some (-1)⟩, Pass.start Names.start) ∧
    (∃ code after,
      ((Gen.index variableSample accessSample "AT" 0 false).runWith
        (variableSample.outcome 1)).run.run (Pass.start Names.start) = (.ok ⟨code, none⟩, after) ∧
      (Runtime.numbers (fun _ => some (.real half)) 9).evaluate [] code = some (.whole 0)) ∧
    ∃ z s, RoundsShifted (1 / 2) (-1) z s ∧ cut s = 0 ∧ s ≠ outward (1 / 2 + -1) := by
  have plugged : accessSample.input? "AT" = some (Fin.last 0) := by decide +kernel
  have fraction (m : Int) : (1 / 2 : ℚ) ≠ m := by
    intro same
    have double : (2 * m : ℚ) = 1 := by linarith
    norm_cast at double
    omega
  have less : Index.shift true 0 = -1 := rfl
  have known : Index.target true (cut (1 / 2)) 0 false = -1 := by norm_num [Index.target, cut]
  have offset : (Runtime.numbers (fun _ => some (.real half)) 9).offset (-1) false
      (.ofNumber half) = some (.whole 0) := by decide +kernel
  have evaluated : (Runtime.numbers (fun _ => some (.real half)) 9).evaluate [] "i" =
      some (.ofNumber half) := by
    have form : Form.of? "i" = none := by decide +kernel
    have value : Numeric.ofNumber half = .real half := by decide +kernel
    rw [Runtime.evaluate, form, value]
    rfl
  have came : ((variableSample.outcome 1 (Fin.last 0)).run.run
      (Pass.start Names.start)).1.toOption = some (.expression ⟨"i", .atomic⟩) := by decide +kernel
  have other : ¬ variableSample.Has (Fin.last 0) .number := fun number => by
    cases number.unique (show variableSample.Has (Fin.last 0) .getVariable from rfl)
  have number : halfSample.Reached (Pass.start Names.start) := .start
  have holder : variableSample.Reached (Pass.start Names.start) := .start
  obtain ⟨ahead, -, -, split⟩ := index_folds toRat?_half number plugged 0 0 false
    (fun _ => some (.real half)) 9 [] less known offset
  obtain ⟨z, s, shifted, same, agree⟩ := (split fraction).2 (by decide +kernel)
  obtain ⟨code, made, value⟩ := ((index_folds toRat?_half holder plugged 1 0 false
    (fun _ => some (.real half)) 9 [] less known offset).2.1 other _ _
      (Step.eq_ok_of_toOption came) evaluated).1 (by decide +kernel)
  refine ⟨toRat?_half, plugged, ?_, ⟨code, _, made, value⟩, z, s, shifted, ?_, ?_⟩
  · rw [ahead rfl (by decide) rfl, if_pos (by decide +kernel)]
    rfl
  · simpa using same.symm
  · have crosses : ¬ ((0 : ℚ) < 1 / 2 ↔ (0 : ℚ) < 1 / 2 + -1) := by norm_num
    have differ := (agree (by decide)).not.mp (by decide)
    rw [Int.cast_neg, Int.cast_one] at differ
    exact fun reached => differ (iff_of_false crosses (not_not.mpr reached))

end Setting

end BlockScript
