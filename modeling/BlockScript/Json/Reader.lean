import BlockScript.Text.Numeral
import BlockScript.Value.Basic

/-! # Reading the exchange format

A reader for JSON texts that keeps the order of members and tells integers from reals. A repeated
member keeps its first place and its last value. Besides the standard numbers the words `NaN`,
`Infinity` and `-Infinity` are read.
-/

namespace BlockScript

namespace Json

/-- Why a text could not be read. -/
inductive ReadFault where
  /-- The text does not follow the grammar. -/
  | malformed
  /-- An integer has more digits than are read. -/
  | longInteger
deriving DecidableEq

/-- The results of readers: a part of the text may be left over. -/
abbrev Reading := Except ReadFault

/-- Blanks between the parts of a text. -/
def isBlank (c : Char) : Bool := c = ' ' || c = '\t' || c = '\n' || c = '\r'

/-- Skips blanks. -/
def skipBlanks (chars : List Char) : List Char := chars.dropWhile isBlank

/-- The value of a hexadecimal digit. -/
def hexValue? (c : Char) : Option Nat :=
  if '0' ≤ c ∧ c ≤ '9' then some (c.toNat - 48)
  else if 'a' ≤ c ∧ c ≤ 'f' then some (c.toNat - 87)
  else if 'A' ≤ c ∧ c ≤ 'F' then some (c.toNat - 55)
  else none

/-- Four hexadecimal digits and the rest. -/
def hexFour : List Char → Option (Nat × List Char)
  | a :: b :: c :: d :: rest => do
      let value := 4096 * (← hexValue? a) + 256 * (← hexValue? b) + 16 * (← hexValue? c)
        + (← hexValue? d)
      return (value, rest)
  | _ => none

/-- A numbered character after its mark: a high surrogate joins a numbered low one that follows, and
a surrogate on its own is replaced. -/
def numbered (chars : List Char) : Option (Char × List Char) := do
  let (unit, rest) ← hexFour chars
  if 0xD800 ≤ unit ∧ unit < 0xDC00 then
    match rest with
    | '\\' :: 'u' :: more =>
        let (low, after) ← hexFour more
        if 0xDC00 ≤ low ∧ low < 0xE000 then
          return (Char.ofNat (0x10000 + 1024 * (unit - 0xD800) + (low - 0xDC00)), after)
        else return (Char.ofNat 0xFFFD, rest)
    | _ => return (Char.ofNat 0xFFFD, rest)
  else if 0xDC00 ≤ unit ∧ unit < 0xE000 then return (Char.ofNat 0xFFFD, rest)
  else return (Char.ofNat unit, rest)

/-- The character of a short escape. -/
def shortEscape? (c : Char) : Option Char :=
  if c = '"' ∨ c = '\\' ∨ c = '/' then some c
  else if c = 'b' then some (Char.ofNat 8)
  else if c = 'f' then some (Char.ofNat 12)
  else if c = 'n' then some '\n'
  else if c = 'r' then some '\r'
  else if c = 't' then some '\t'
  else none

/-- The characters of a text up to its closing quote, and the rest. Each step uses up a character,
so as many steps as there are characters suffice. -/
def textBody : Nat → List Char → List Char → Option (String × List Char)
  | 0, _, _ => none
  | steps + 1, read, chars =>
      match chars with
      | [] => none
      | '"' :: rest => some (String.ofList read.reverse, rest)
      | '\\' :: 'u' :: rest => do
          let (c, rest) ← numbered rest
          textBody steps (c :: read) rest
      | '\\' :: mark :: rest => do
          let c ← shortEscape? mark
          textBody steps (c :: read) rest
      | c :: rest => if c.toNat < 0x20 then none else textBody steps (c :: read) rest

/-- A text after its opening quote, and the rest. -/
def text (chars : List Char) : Reading (String × List Char) :=
  match textBody (chars.length + 1) [] chars with
  | some found => .ok found
  | none => .error .malformed

/-- The whole part of a number: a lone zero, or digits that start with another one. -/
def wholePart : List Char → Option (List Char × List Char)
  | '0' :: rest => some (['0'], rest)
  | chars =>
      let digits := chars.takeWhile Char.isDigit
      if digits.isEmpty then none else some (digits, chars.dropWhile Char.isDigit)

/-- The fraction part of a number, if it is complete. -/
def fractionPart : List Char → Option (List Char × List Char)
  | '.' :: rest =>
      let digits := rest.takeWhile Char.isDigit
      if digits.isEmpty then none else some (digits, rest.dropWhile Char.isDigit)
  | _ => none

/-- A number after its sign, and the rest. -/
def unsigned (negative : Bool) (chars : List Char) : Reading (Value × List Char) :=
  match wholePart chars with
  | none => .error .malformed
  | some (whole, rest) =>
      let (fraction, afterFraction) := (fractionPart rest).getD ([], rest)
      let (exponent, afterExponent) := (Numeral.exponentPart afterFraction).getD (0, afterFraction)
      let isInteger := fraction.isEmpty && (Numeral.exponentPart afterFraction).isNone
      if isInteger then
        if Numeral.greatestLength < whole.length then .error .longInteger
        else
          let magnitude : Int := Numeral.ofDigits whole
          .ok (.int (if negative then -magnitude else magnitude), afterExponent)
      else
        let digits := Numeral.ofDigits (whole ++ fraction)
        .ok (.real (.ofDecimal negative digits (exponent - fraction.length)), afterExponent)

/-- The words of the format. -/
def words : List (List Char × Value) :=
  [("null".toList, .null), ("true".toList, .bool true), ("false".toList, .bool false),
    ("NaN".toList, .real .nan), ("Infinity".toList, .real (.infinite false)),
    ("-Infinity".toList, .real (.infinite true))]

/-- What follows a word at the front of a text. -/
def after? : List Char → List Char → Option (List Char)
  | [], chars => some chars
  | c :: word, d :: chars => if c = d then after? word chars else none
  | _ :: _, [] => none

/-- A word at the front of a text: its value and the rest. -/
def word? (chars : List Char) : Option (Value × List Char) :=
  words.findSome? fun entry => (after? entry.1 chars).map (entry.2, ·)

/-- A word or a number. -/
def scalar (chars : List Char) : Reading (Value × List Char) :=
  match word? chars with
  | some found => .ok found
  | none =>
      match chars with
      | '-' :: rest => unsigned true rest
      | _ => unsigned false chars

mutual

/-- A value and the rest. Entering a list or object uses up a character, and so does every further
element, so twice as many steps as there are characters suffice. -/
def value : Nat → List Char → Reading (Value × List Char)
  | 0, _ => .error .malformed
  | steps + 1, chars =>
      match chars with
      | '"' :: rest => do
          let (chars, rest) ← text rest
          return (.text chars, rest)
      | '[' :: rest =>
          match skipBlanks rest with
          | ']' :: rest => .ok (.list [], rest)
          | rest => items steps [] rest
      | '\x7b' :: rest =>
          match skipBlanks rest with
          | '\x7d' :: rest => .ok (.object [], rest)
          | rest => members steps [] rest
      | _ => scalar chars

/-- The items of a list up to its end, after those already read in reverse. -/
def items : Nat → List Value → List Char → Reading (Value × List Char)
  | 0, _, _ => .error .malformed
  | steps + 1, read, chars => do
      let (item, rest) ← value steps chars
      match skipBlanks rest with
      | ']' :: rest => return (.list (item :: read).reverse, rest)
      | ',' :: rest => items steps (item :: read) (skipBlanks rest)
      | _ => .error .malformed

/-- The members of an object up to its end, after those already read. -/
def members : Nat → Table Value → List Char → Reading (Value × List Char)
  | 0, _, _ => .error .malformed
  | steps + 1, read, chars =>
      match chars with
      | '"' :: rest => do
          let (name, rest) ← text rest
          match skipBlanks rest with
          | ':' :: rest =>
              let (entry, rest) ← value steps (skipBlanks rest)
              let read := read.insert name entry
              match skipBlanks rest with
              | '\x7d' :: rest => return (.object read, rest)
              | ',' :: rest => members steps read (skipBlanks rest)
              | _ => .error .malformed
          | _ => .error .malformed
      | _ => .error .malformed

end

/-- The value that a whole text stands for. -/
def read (source : String) : Reading Value := do
  let chars := source.toList
  let (found, rest) ← value (2 * chars.length + 2) (skipBlanks chars)
  if (skipBlanks rest).isEmpty then return found else .error .malformed

end Json

end BlockScript
