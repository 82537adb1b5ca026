import BlockScript.Number.Shortest
import BlockScript.Text.Quoted
import BlockScript.Value.Basic

/-! # Writing the exchange format

Values as JSON text in basic characters only: everything else is written by its number in
sixteen-bit units. A document is written on one line, or with every element on a line of its own.
-/

namespace BlockScript

namespace Json

/-- A sixteen-bit unit by its number. -/
def unit (n : Nat) : List Char := '\\' :: 'u' :: Text.hex 4 n

/-- A character as it stands inside a written text. -/
def writtenChar (c : Char) : List Char :=
  if c = '"' then ['\\', '"']
  else if c = '\\' then ['\\', '\\']
  else if c = '\n' then ['\\', 'n']
  else if c = '\r' then ['\\', 'r']
  else if c = '\t' then ['\\', 't']
  else if c.toNat = 8 then ['\\', 'b']
  else if c.toNat = 12 then ['\\', 'f']
  else if 0x20 ≤ c.toNat ∧ c.toNat ≤ 0x7e then [c]
  else if c.toNat ≤ 0xffff then unit c.toNat
  else
    let offset := c.toNat - 0x10000
    unit (0xD800 + offset / 1024) ++ unit (0xDC00 + offset % 1024)

/-- A written text. -/
def writtenText (chars : String) : String :=
  String.ofList ('"' :: chars.toList.flatMap writtenChar ++ ['"'])

/-- A written number of double width. -/
def writtenReal : Binary64 → String
  | .nan => "NaN"
  | .infinite negative => if negative then "-Infinity" else "Infinity"
  | x => DecimalStyle.plain.render x

/-- How the elements of lists and objects are set. -/
structure Layout where
  /-- What stands between two elements at a depth. -/
  between : Nat → String
  /-- What stands after an opening bracket and before the first element at a depth. -/
  opening : Nat → String
  /-- What stands between the last element and the closing bracket at a depth. -/
  closing : Nat → String

namespace Layout

/-- Everything on one line. -/
def line : Layout := ⟨fun _ => ", ", fun _ => "", fun _ => ""⟩

/-- A new line at a depth, two blanks a level. -/
def newLine (depth : Nat) : String := "\n" ++ String.ofList (List.replicate (2 * depth) ' ')

/-- Every element on a line of its own. -/
def page : Layout :=
  ⟨fun depth => "," ++ newLine depth, newLine, fun depth => newLine (depth - 1)⟩

end Layout

/-- Elements between brackets. -/
def bracketed (layout : Layout) (depth : Nat) (opening closing : String) :
    List String → String
  | [] => opening ++ closing
  | elements =>
      opening ++ layout.opening depth ++ String.intercalate (layout.between depth) elements
        ++ layout.closing depth ++ closing

/-- A value, with its elements at a depth. -/
def write (layout : Layout) (depth : Nat) : Value → String
  | .null => "null"
  | .bool truth => if truth then "true" else "false"
  | .int n => toString n
  | .real x => writtenReal x
  | .text chars => writtenText chars
  | .list items => bracketed layout (depth + 1) "[" "]" (writeItems layout (depth + 1) items)
  | .object members =>
      bracketed layout (depth + 1) "\x7b" "\x7d" (writeMembers layout (depth + 1) members)
where
  /-- The items of a list. -/
  writeItems (layout : Layout) (depth : Nat) : List Value → List String
    | [] => []
    | item :: rest => write layout depth item :: writeItems layout depth rest
  /-- The members of an object. -/
  writeMembers (layout : Layout) (depth : Nat) : List (String × Value) → List String
    | [] => []
    | (name, entry) :: rest =>
        (writtenText name ++ ": " ++ write layout depth entry) :: writeMembers layout depth rest

/-- A value on one line. -/
def compact (value : Value) : String := write .line 0 value

/-- A value with every element on a line of its own. -/
def paged (value : Value) : String := write .page 0 value

end Json

end BlockScript
