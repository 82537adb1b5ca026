import BlockScript.Number.Binary64
import BlockScript.Text.DecimalDigit

/-! # Numerals

Reading numbers from text. A numeral may be surrounded by blanks, may have single underscores
between digits, and may use the decimal digits of any script. Reals also have words for infinity and
for a not-a-number.
-/

namespace BlockScript

-- Powers are the built-in ones, also where a library brings others.
attribute [local instance (2000)] instPowNat

namespace Numeral

/-- Blanks outside the basic characters. -/
def wideBlanks : Ranges :=
  [(0x85, 0x85), (0xA0, 0xA0), (0x1680, 0x1680), (0x2000, 0x200A), (0x2028, 0x2029),
    (0x202F, 0x202F), (0x205F, 0x205F), (0x3000, 0x3000)]

/-- Blanks among the basic characters: the space and the controls from tab to carriage return. -/
def isBlank (c : Char) : Bool := c = ' ' || (9 ≤ c.toNat && c.toNat ≤ 13)

/-- A character of a numeral in basic form: a wide blank becomes a space, a digit of any script the
same basic digit, and any other wide character one that no numeral has. -/
def basic (c : Char) : Char :=
  if c.toNat < 127 then c
  else if wideBlanks.has c then ' '
  else
    match Text.digitValue? c with
    | some value => Char.ofNat (48 + value)
    | none => '?'

/-- A text in basic form without the blanks around it. -/
def trimmed (text : String) : List Char :=
  let chars := (text.toList.map basic).dropWhile isBlank
  (chars.reverse.dropWhile isBlank).reverse

/-- Removes underscores that stand between two digits; none when another one is found. The flag
tells whether a digit precedes. -/
def withoutUnderscores : Bool → List Char → Option (List Char)
  | _, [] => some []
  | afterDigit, c :: rest =>
      if c = '_' then
        match rest with
        | [] => none
        | d :: _ => if afterDigit && d.isDigit then withoutUnderscores false rest else none
      else (withoutUnderscores c.isDigit rest).map (c :: ·)

/-- The natural number written by basic digits. -/
def ofDigits (digits : List Char) : Nat :=
  digits.foldl (fun n c => 10 * n + (c.toNat - 48)) 0

/-- A sign, if there is one: whether it is a minus, and the rest. -/
def sign : List Char → Bool × List Char
  | '-' :: rest => (true, rest)
  | '+' :: rest => (false, rest)
  | chars => (false, chars)

/-- The exponent part of a numeral, if it is complete: its value and the rest. -/
def exponentPart : List Char → Option (Int × List Char)
  | c :: rest =>
      if c = 'e' || c = 'E' then
        let (negative, rest) := sign rest
        let digits := rest.takeWhile Char.isDigit
        if digits.isEmpty then none
        else
          let magnitude : Int := ofDigits digits
          some (if negative then -magnitude else magnitude, rest.dropWhile Char.isDigit)
      else none
  | [] => none

/-- The fraction part of a numeral after its point. -/
def fractionPart : List Char → List Char × List Char
  | '.' :: rest => (rest.takeWhile Char.isDigit, rest.dropWhile Char.isDigit)
  | chars => ([], chars)

/-- An unsigned decimal as digits and a power of ten, which must be all of the text. -/
def decimal? (chars : List Char) : Option (Nat × Int) :=
  let whole := chars.takeWhile Char.isDigit
  let (fraction, rest) := fractionPart (chars.dropWhile Char.isDigit)
  let digits := whole ++ fraction
  if digits.isEmpty then none
  else
    let scaled (exponent : Int) := (ofDigits digits, exponent - fraction.length)
    if rest.isEmpty then some (scaled 0)
    else
      match exponentPart rest with
      | some (exponent, []) => some (scaled exponent)
      | _ => none

/-- The real that a text denotes. Digits beyond double width are rounded, and a magnitude beyond
every finite number is infinite. -/
def real? (text : String) : Option Binary64 := do
  let chars ← withoutUnderscores false (trimmed text)
  let (negative, chars) := sign chars
  let word := String.ofList (chars.map Char.toLower)
  if word = "inf" ∨ word = "infinity" then return .infinite negative
  if word = "nan" then return .nan
  let (digits, exponent) ← decimal? chars
  return .ofDecimal negative digits exponent

/-- The greatest number of digits of an integer that is read or written. -/
def greatestLength : Nat := 4300

/-- The text of an integer, unless it has too many digits. -/
def ofWhole? (n : Int) : Option String :=
  if n.natAbs < 10 ^ greatestLength then some (toString n) else none

/-- The integer that a text denotes. -/
def whole? (text : String) : Option Int := do
  let (negative, chars) := sign (trimmed text)
  let digits ← withoutUnderscores false chars
  if digits.isEmpty ∨ ¬ digits.all Char.isDigit ∨ greatestLength < digits.length then none
  else
    let magnitude : Int := ofDigits digits
    return if negative then -magnitude else magnitude

/-- Drops a fraction part with at least one digit of any script, if there is one. -/
def dropFraction : List Char → List Char
  | '.' :: d :: rest =>
      if Text.isDecimalDigit d then rest.dropWhile Text.isDecimalDigit else '.' :: d :: rest
  | chars => chars

/-- Drops an exponent part with at least one digit of any script, if there is one. -/
def dropExponent : List Char → List Char
  | c :: rest =>
      if c = 'e' || c = 'E' then
        match (sign rest).2 with
        | d :: tail =>
            if Text.isDecimalDigit d then tail.dropWhile Text.isDecimalDigit else c :: rest
        | [] => c :: rest
      else c :: rest
  | [] => []

/-- Drops a minus sign, if there is one. -/
def dropMinus : List Char → List Char
  | '-' :: rest => rest
  | chars => chars

/-- Whether code is a number literal: an optional minus, digits of any script, and optional fraction
and exponent parts. One final newline is tolerated. -/
def isLiteral (code : String) : Bool :=
  match dropMinus code.toList with
  | [] => false
  | d :: rest =>
      Text.isDecimalDigit d &&
        (let tail := dropExponent (dropFraction (rest.dropWhile Text.isDecimalDigit))
         tail == [] || tail == ['\n'])

end Numeral

end BlockScript
