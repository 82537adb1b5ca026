import BlockScript.Number.Shortest
import BlockScript.Text.Numeral
import BlockScript.Text.Quoted
import BlockScript.Value.Basic

/-! # Values as text

`Value.shown?` writes a value for a diagnostic, texts in quotes. `Value.display?` is the same except
that a text stands for itself. Neither writes an integer of too many digits, nor anything that holds
one.
-/

namespace BlockScript

namespace Value

/-- A value for a diagnostic. -/
def shown? : Value → Option String
  | .null => some "None"
  | .bool truth => some (if truth then "True" else "False")
  | .int n => Numeral.ofWhole? n
  | .real x => some (DecimalStyle.plain.render x)
  | .text chars => some (Text.shown chars)
  | .list items => do return "[" ++ String.intercalate ", " (← shownItems? items) ++ "]"
  | .object members => do
      return "\x7b" ++ String.intercalate ", " (← shownMembers? members) ++ "\x7d"
where
  /-- The items of a list. -/
  shownItems? : List Value → Option (List String)
    | [] => some []
    | item :: rest => do return (← shown? item) :: (← shownItems? rest)
  /-- The members of an object. -/
  shownMembers? : List (String × Value) → Option (List String)
    | [] => some []
    | (name, value) :: rest => do
        return (Text.shown name ++ ": " ++ (← shown? value)) :: (← shownMembers? rest)

/-- A value as running text. -/
def display? : Value → Option String
  | .text chars => some chars
  | value => value.shown?

end Value

end BlockScript
