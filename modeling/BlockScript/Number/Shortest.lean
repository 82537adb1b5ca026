import BlockScript.Number.Binary64

/-! # The shortest decimal of a number

`Binary64.shortest` finds the fewest decimal digits that round back to a given finite number, and of
the decimals with that many digits the nearest one. A candidate is tested by exact comparison with
the interval of reals that round to the number; the ends belong to it when the significand is even.
`DecimalStyle` then says how digits are laid out.
-/

namespace BlockScript

-- Powers are the built-in ones, also where a library brings others.
attribute [local instance (2000)] instPowNat

namespace Binary64

/-- `digits * 10 ^ power` and `units * 2 ^ exponent` as naturals over one denominator. -/
def commonScale (digits : Nat) (power : Int) (units : Nat) (exponent : Int) : Nat × Nat :=
  (digits * 10 ^ power.toNat * 2 ^ (-exponent).toNat,
    units * 2 ^ exponent.toNat * 10 ^ (-power).toNat)

/-- Whether `digits * 10 ^ power` rounds to `significand * 2 ^ exponent`. The bounds are halfway to
the two neighbours; below a power of two the lower neighbour is half as far away. -/
def roundsTo (significand : Nat) (exponent : Int) (digits : Nat) (power : Int) : Bool :=
  let lowerGap := if significand = 2 ^ (52 : Nat) ∧ leastExponent < exponent then 1 else 2
  let (fromLow, low) := commonScale digits power (4 * significand - lowerGap) (exponent - 2)
  let (fromHigh, high) := commonScale digits power (4 * significand + 2) (exponent - 2)
  if significand % 2 = 0 then low ≤ fromLow && fromHigh ≤ high
  else low < fromLow && fromHigh < high

/-- The exponent `x` with `10 ^ x ≤ significand * 2 ^ exponent < 10 ^ (x + 1)`. Every positive
finite number exceeds `10 ^ -400`, so the digits are counted after scaling by `10 ^ 400`. -/
def decimalExponent (significand : Nat) (exponent : Int) : Int :=
  (digitCount (wholeMagnitude (significand * 10 ^ (400 : Nat)) exponent) : Int) - 1 - 400

/-- The whole part and twice the rest of `significand * 2 ^ exponent / 10 ^ power`, with the
denominator of the rest. -/
def gridPoint (significand : Nat) (exponent : Int) (power : Int) : Nat × Nat × Nat :=
  let numerator := significand * 2 ^ exponent.toNat * 10 ^ (-power).toNat
  let denominator := 2 ^ (-exponent).toNat * 10 ^ power.toNat
  (numerator / denominator, 2 * (numerator % denominator), denominator)

/-- The decimal on the grid of `10 ^ power` that rounds back and is nearest to the number; a tie
goes to the even neighbour. -/
def onGrid (significand : Nat) (exponent : Int) (power : Int) : Option Nat :=
  let (below, twice, denominator) := gridPoint significand exponent power
  let lowerHit := roundsTo significand exponent below power
  let upperHit := roundsTo significand exponent (below + 1) power
  let upperNearer := twice > denominator ∨ (twice = denominator ∧ below % 2 = 1)
  if lowerHit && upperHit then some (if upperNearer then below + 1 else below)
  else if lowerHit then some below
  else if upperHit then some (below + 1)
  else none

/-- Digits without trailing zeros, the power raised accordingly. -/
def withoutTrailingZeros : Nat → Nat → Int → Nat × Int
  | 0, digits, power => (digits, power)
  | limit + 1, digits, power =>
      if digits % 10 = 0 ∧ digits ≠ 0 then withoutTrailingZeros limit (digits / 10) (power + 1)
      else (digits, power)

/-- The shortest decimal `digits * 10 ^ power` that rounds to a positive finite number. Seventeen
digits always suffice. -/
def shortest (significand : Nat) (exponent : Int) : Nat × Int :=
  let top := decimalExponent significand exponent
  let attempt (count : Nat) : Option (Nat × Int) :=
    let power := top - (count : Int)
    (onGrid significand exponent power).map (·, power)
  let (digits, power) := ((List.range 17).findSome? attempt).getD (0, 0)
  withoutTrailingZeros 400 digits power

end Binary64

/-- How a decimal is laid out. -/
structure DecimalStyle where
  /-- The point stands inside or next to the digits, or after that many zeros, as long as it is
  above this position. -/
  leastPoint : Int
  /-- The greatest position of the point that is written without an exponent. -/
  greatestPoint : Int
  /-- The least number of digits of an exponent. -/
  exponentWidth : Nat

namespace DecimalStyle

/-- Numbers are written positionally from `0.0001` up to sixteen digits before the point, whole
ones with a trailing `.0`; other exponents have a sign and at least two digits. -/
def plain : DecimalStyle := ⟨-4, 16, 2⟩

/-- A run of zeros. -/
def zeros (n : Nat) : String := String.ofList (List.replicate n '0')

/-- The magnitude `digits * 10 ^ power`, laid out. -/
def layout (style : DecimalStyle) (digits : Nat) (power : Int) : String :=
  let text := Nat.toDigits 10 digits
  let point : Int := power + text.length
  if style.leastPoint < point ∧ point ≤ style.greatestPoint then
    if point ≤ 0 then "0." ++ zeros (-point).toNat ++ String.ofList text
    else if (text.length : Int) ≤ point then
      String.ofList text ++ zeros (point - text.length).toNat ++ ".0"
    else
      String.ofList (text.take point.toNat) ++ "." ++ String.ofList (text.drop point.toNat)
  else
    let lead := String.ofList (text.take 1)
    let tail := String.ofList (text.drop 1)
    let exponent := point - 1
    let exponentText := toString exponent.natAbs
    (if tail.isEmpty then lead else lead ++ "." ++ tail)
      ++ (if exponent < 0 then "e-" else "e+")
      ++ zeros (style.exponentWidth - exponentText.length) ++ exponentText

/-- A number in a style: the shortest decimal that reads back, `inf` and `nan` otherwise. -/
def render (style : DecimalStyle) : Binary64 → String
  | .nan => "nan"
  | .infinite negative => if negative then "-inf" else "inf"
  | .finite negative significand exponent _ =>
      let magnitude :=
        if significand = 0 then "0.0"
        else
          let (digits, power) := Binary64.shortest significand exponent
          style.layout digits power
      if negative then "-" ++ magnitude else magnitude

end DecimalStyle

end BlockScript
