/-! # Numbers in double width

A number of double width is a not-a-number, an infinity, or a sign with a significand and a power
of two. Everything is computed in exact natural arithmetic: `nearest` rounds a fraction to the
closest representable number, a half going to the even significand, and `truncated` cuts a finite
number towards zero.
-/

namespace BlockScript

-- Powers are the built-in ones, also where a library brings others.
attribute [local instance (2000)] instPowNat

/-- The least exponent of a finite number. -/
def Binary64.leastExponent : Int := -1074

/-- The greatest exponent of a finite number. -/
def Binary64.greatestExponent : Int := 971

/-- Whether a significand and an exponent are the canonical ones of a finite number: fifty-three
bits, of which the first is set unless the exponent is the least one. -/
def Binary64.IsCanonical (significand : Nat) (exponent : Int) : Prop :=
  significand < 2 ^ (53 : Nat) ∧ Binary64.leastExponent ≤ exponent ∧
    exponent ≤ Binary64.greatestExponent ∧
    (2 ^ (52 : Nat) ≤ significand ∨ exponent = Binary64.leastExponent)

instance (significand : Nat) (exponent : Int) :
    Decidable (Binary64.IsCanonical significand exponent) :=
  inferInstanceAs (Decidable (_ ∧ _ ∧ _ ∧ _))

/-- A binary floating-point number of double width. A finite number stands for
`± significand * 2 ^ exponent`, in canonical form, so only the two zeros are equal in magnitude and
different. -/
inductive Binary64 where
  | nan
  | infinite (negative : Bool)
  | finite (negative : Bool) (significand : Nat) (exponent : Int)
      (canonical : Binary64.IsCanonical significand exponent)
deriving DecidableEq

namespace Binary64

/-- Zero, of either sign. -/
def zero (negative : Bool) : Binary64 := .finite negative 0 leastExponent (by decide)

instance : Inhabited Binary64 := ⟨zero false⟩

/-- A fraction divided by a power of two, as a fraction. -/
def unscaled (numerator denominator : Nat) (exponent : Int) : Nat × Nat :=
  if 0 ≤ exponent then (numerator, denominator * 2 ^ exponent.toNat)
  else (numerator * 2 ^ (-exponent).toNat, denominator)

/-- The exponent at which a positive fraction has a significand of fifty-three bits, but no less
than the least one. -/
def exponentFor (numerator denominator : Nat) : Int :=
  let guess : Int := (numerator.log2 : Int) - (denominator.log2 : Int) - 52
  let (n, d) := unscaled numerator denominator guess
  max leastExponent (if n / d < 2 ^ (52 : Nat) then guess - 1 else guess)

/-- The whole number nearest to a fraction; a half goes to the even neighbour. -/
def roundHalfEven (numerator denominator : Nat) : Nat :=
  let quotient := numerator / denominator
  let twice := 2 * (numerator % denominator)
  if twice > denominator ∨ (twice = denominator ∧ quotient % 2 = 1) then quotient + 1
  else quotient

/-- The representable number nearest to `± numerator / denominator`, infinite when the rounded
magnitude exceeds every finite one. -/
def nearest (negative : Bool) (numerator denominator : Nat) : Binary64 :=
  if numerator = 0 then zero negative
  else
    let exponent := exponentFor numerator denominator
    let (n, d) := unscaled numerator denominator exponent
    let rounded := roundHalfEven n d
    let (significand, exponent) :=
      if rounded = 2 ^ (53 : Nat) then (2 ^ (52 : Nat), exponent + 1) else (rounded, exponent)
    if canonical : IsCanonical significand exponent then
      .finite negative significand exponent canonical
    else .infinite negative

/-- The number of decimal digits of a natural number. -/
def digitCount (n : Nat) : Nat := (Nat.toDigits 10 n).length

/-- The representable number nearest to `± digits * 10 ^ exponent`. Magnitudes far outside the
representable range are decided by their decimal size, so no huge power is ever formed. -/
def ofDecimal (negative : Bool) (digits : Nat) (exponent : Int) : Binary64 :=
  let size : Int := exponent + digitCount digits
  if digits = 0 ∨ size < -400 then zero negative
  else if 400 < size then .infinite negative
  else if 0 ≤ exponent then nearest negative (digits * 10 ^ exponent.toNat) 1
  else nearest negative digits (10 ^ (-exponent).toNat)

/-- The representable number nearest to an integer. -/
def ofInt (n : Int) : Binary64 := nearest (n < 0) n.natAbs 1

/-- The magnitude of a finite number, cut to a whole number. -/
def wholeMagnitude (significand : Nat) (exponent : Int) : Nat :=
  if 0 ≤ exponent then significand * 2 ^ exponent.toNat
  else significand / 2 ^ (-exponent).toNat

/-- The finite number cut towards zero; none for an infinity or a not-a-number. -/
def truncated : Binary64 → Option Int
  | .finite negative significand exponent _ =>
      let magnitude : Int := wholeMagnitude significand exponent
      some (if negative then -magnitude else magnitude)
  | _ => none

/-- Whether the number is finite and whole. -/
def isWhole : Binary64 → Bool
  | .finite _ significand exponent _ =>
      0 ≤ exponent || significand % 2 ^ (-exponent).toNat == 0
  | _ => false

/-- Whether the number lies below zero. A negative zero does not. -/
def isNegative : Binary64 → Bool
  | .nan => false
  | .infinite negative => negative
  | .finite negative significand _ _ => negative && significand != 0

/-- Whether the number is zero, of either sign. -/
def isZero : Binary64 → Bool
  | .finite _ significand _ _ => significand == 0
  | _ => false

/-- The sign and the magnitude, over the common denominator `2 ^ 1074`, of a finite number. -/
def overLeast (negative : Bool) (significand : Nat) (exponent : Int) : Int :=
  let magnitude : Int := significand * 2 ^ (exponent - leastExponent).toNat
  if negative then -magnitude else magnitude

/-- The place of a number on the line, scaled by `2 ^ 1074`; none for a not-a-number. -/
inductive Place where
  | below
  | at (scaled : Int)
  | above
deriving DecidableEq

/-- The place of a number that has one. -/
def place : Binary64 → Option Place
  | .nan => none
  | .infinite true => some .below
  | .infinite false => some .above
  | .finite negative significand exponent _ =>
      some (.at (overLeast negative significand exponent))

/-- The place of an integer. -/
def Place.ofInt (n : Int) : Place := .at (n * 2 ^ (1074 : Nat))

/-- The order of the line. -/
def Place.before : Place → Place → Bool
  | .below, .below => false
  | .below, _ => true
  | .at _, .below => false
  | .at a, .at b => a < b
  | .at _, .above => true
  | .above, _ => false

end Binary64

end BlockScript
