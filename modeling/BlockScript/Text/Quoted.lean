import BlockScript.Text.Printable

/-! # Quoted texts

Two ways to put a text between quotes. `quoted` writes a literal of the generated language: single
quotes, with every control character escaped. `shown` writes a text for a diagnostic: the kind of
quote is chosen to avoid escapes, and characters without a visible form are written by number.
-/

namespace BlockScript

namespace Text

/-- A number below sixteen as a hexadecimal digit. -/
def hexDigit (n : Nat) : Char :=
  if n < 10 then Char.ofNat (48 + n) else Char.ofNat (87 + n)

/-- The last `width` hexadecimal digits of a number. -/
def hex : Nat → Nat → List Char
  | 0, _ => []
  | width + 1, n => hex width (n / 16) ++ [hexDigit (n % 16)]

/-- Whether a character is a control character of the basic set. -/
def isControl (c : Char) : Bool := c.toNat < 0x20 || c.toNat == 0x7f

/-- A character as it stands inside a literal of the generated language. -/
def escaped (c : Char) : List Char :=
  if c = '\\' then ['\\', '\\']
  else if c = '\n' then ['\\', 'n']
  else if c = '\r' then ['\\', 'r']
  else if c = '\t' then ['\\', 't']
  else if c = '\'' then ['\\', '\'']
  else if isControl c then '\\' :: 'x' :: hex 2 c.toNat
  else [c]

/-- A text as a single-quoted literal of the generated language. -/
def quoted (text : String) : String :=
  String.ofList ('\'' :: text.toList.flatMap escaped ++ ['\''])

/-- A character by its number, in the shortest of the three numbered forms. -/
def numbered (c : Char) : List Char :=
  if c.toNat ≤ 0xff then '\\' :: 'x' :: hex 2 c.toNat
  else if c.toNat ≤ 0xffff then '\\' :: 'u' :: hex 4 c.toNat
  else '\\' :: 'U' :: hex 8 c.toNat

/-- A character as it stands inside a shown text with the given quote. -/
def shownChar (quote : Char) (c : Char) : List Char :=
  if c = quote || c = '\\' then ['\\', c]
  else if c = '\n' then ['\\', 'n']
  else if c = '\r' then ['\\', 'r']
  else if c = '\t' then ['\\', 't']
  else if isPrintable c then [c]
  else numbered c

/-- The quote of a shown text: double when the text has single quotes only. -/
def quoteFor (text : List Char) : Char :=
  if text.contains '\'' && !text.contains '"' then '"' else '\''

/-- A text as shown in a diagnostic. -/
def shown (text : String) : String :=
  let quote := quoteFor text.toList
  String.ofList (quote :: text.toList.flatMap (shownChar quote) ++ [quote])

end Text

end BlockScript
