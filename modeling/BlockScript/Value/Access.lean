import BlockScript.Fault
import BlockScript.Sorting.Basic
import BlockScript.Text.Numeral

/-! # Taking values apart

Each function takes from a value what a description may hold there, or says what is wrong with it.
-/

namespace BlockScript

namespace Value

/-- The member of an object, if it has one of that name. -/
def member? (value : Value) (name : String) : Attempt (Option Value) :=
  match value with
  | .object members => .ok (Table.get? members name)
  | _ => .error .notAnObject

/-- The member of an object, null when there is none. -/
def member (value : Value) (name : String) : Attempt Value :=
  return (← value.member? name).getD .null

/-- The member of an object that must be there. -/
def select (value : Value) (name : String) : Attempt Value :=
  match value with
  | .object members =>
      match Table.get? members name with
      | some found => .ok found
      | none => .error .missingMember
  | _ => .error .notSelectable

/-- A value, or another in its place when it does not count as true. -/
def orElse (value other : Value) : Value := if value.isTrue then value else other

/-- The elements of a list, the characters of a text, or the names of an object's members. -/
def elements : Value → Attempt (List Value)
  | .list items => .ok items
  | .text chars => .ok (chars.toList.map fun c => .text (String.singleton c))
  | .object members => .ok ((Table.keys members).map .text)
  | _ => .error .notIterable

/-- The elements of a value that may also be absent or count as false. -/
def optionalElements (value : Value) : Attempt (List Value) :=
  if value.isTrue then value.elements else .ok []

/-- The members of an object, none when the value does not count as true. -/
def optionalMembers (value : Value) : Attempt (Table Value) :=
  if value.isTrue then
    match value with
    | .object members => .ok members
    | _ => .error .notAnObject
  else .ok []

/-- A value as running text. -/
def display (value : Value) : Attempt String := .written value.display?

/-- Checks that a value can identify something. -/
def atom (value : Value) : Attempt Unit :=
  if value.isAtom then .ok () else .error .notAnAtom

/-- A name and a value from an element of two parts. -/
def pair (value : Value) : Attempt (Value × Value) := do
  match ← value.elements with
  | [key, entry] =>
      key.atom
      return (key, entry)
  | _ => .error .notAPair

/-- The table that a list of pairs stands for. Only texts name members. -/
def tableOfPairs : List Value → Table Value → Attempt (Table Value)
  | [], table => .ok table
  | item :: rest, table => do
      let (key, entry) ← item.pair
      match key with
      | .text name => tableOfPairs rest (table.insert name entry)
      | _ => tableOfPairs rest table

/-- The table that a value stands for: an object's members or a list of pairs, empty when the value
does not count as true. -/
def table (value : Value) : Attempt (Table Value) :=
  if value.isTrue then
    match value with
    | .object members => .ok members
    | _ => do tableOfPairs (← value.elements) []
  else .ok []

/-- The number of double width that a value stands for. -/
def toReal : Value → Attempt Binary64
  | .bool truth => .ok (.ofInt (if truth then 1 else 0))
  | .int n =>
      match Binary64.ofInt n with
      | .infinite _ => .error .tooLarge
      | x => .ok x
  | .real x => .ok x
  | .text chars =>
      match Numeral.real? chars with
      | some x => .ok x
      | none => .error .badNumeral
  | _ => .error .notANumber

/-- A number of double width cut to an integer. -/
def wholeOfReal (x : Binary64) : Attempt Int :=
  match x.truncated with
  | some n => .ok n
  | none => .error (if x = .nan then .badNumeral else .tooLarge)

/-- The integer that a value stands for, cut towards zero. -/
def toWhole : Value → Attempt Int
  | .bool truth => .ok (if truth then 1 else 0)
  | .int n => .ok n
  | .real x => wholeOfReal x
  | .text chars =>
      match Numeral.whole? chars with
      | some n => .ok n
      | none => .error .badNumeral
  | _ => .error .notANumber

/-- Whether a value is a number or a truth value. -/
def isNumeric : Value → Bool
  | .bool _ | .int _ | .real _ => true
  | _ => false

/-- Whether a value is some text. -/
def isSomeText : Value → Bool
  | .text _ => true
  | _ => false

/-- The text of a value, empty when it is none. -/
def chars : Value → String
  | .text own => own
  | _ => ""

/-- Whether one number is less than another. A not-a-number is neither less nor greater than any. -/
def isLess (a b : Value) : Bool :=
  match a.place, b.place with
  | some p, some q => p.before q
  | _, _ => false

/-- Values in increasing order: texts by code points, numbers by magnitude. Several values have an
order only when all are texts or all are numbers. -/
def inOrder (values : List Value) : Attempt (List Value) :=
  if values.length ≤ 1 then .ok values
  else if values.all isSomeText then .ok (sorted (fun a b => a.chars < b.chars) values)
  else if values.all isNumeric then .ok (sorted isLess values)
  else .error .notOrdered

end Value

end BlockScript
