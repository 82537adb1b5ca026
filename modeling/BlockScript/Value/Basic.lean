import BlockScript.Number.Binary64
import BlockScript.Table

/-! # Data values

The values that a program description is made of: null, truth values, integers of any size, numbers
of double width, texts, lists, and objects with their members in order. Numbers of different kinds
are the same when they are numerically equal, and the truth values count as one and zero.
-/

namespace BlockScript

/-- A data value. -/
inductive Value where
  | null
  | bool (truth : Bool)
  | int (n : Int)
  | real (x : Binary64)
  | text (chars : String)
  | list (items : List Value)
  | object (members : List (String × Value))
deriving Inhabited

namespace Value

/-- The place of a number or truth value on the line. -/
def place : Value → Option Binary64.Place
  | .bool truth => some (.ofInt (if truth then 1 else 0))
  | .int n => some (.ofInt n)
  | .real x => x.place
  | _ => none

/-- Whether two values that are not both lists or both objects are the same. A not-a-number is the
same as itself. -/
def sameAtom : Value → Value → Bool
  | .null, .null => true
  | .text a, .text b => a == b
  | .int a, .int b => a == b
  | .real .nan, .real .nan => true
  | a, b =>
      match a.place, b.place with
      | some p, some q => p == q
      | _, _ => false

/-- Whether two values are the same: numbers by magnitude, lists item by item, objects member by
member whatever their order. -/
def same : Value → Value → Bool
  | .list a, .list b => sameItems a b
  | .object a, .object b => a.length == b.length && sameMembers a b
  | a, b => sameAtom a b
where
  /-- Whether two lists have the same items. -/
  sameItems : List Value → List Value → Bool
    | [], [] => true
    | x :: xs, y :: ys => same x y && sameItems xs ys
    | _, _ => false
  /-- Whether every member of one table stands in the other. -/
  sameMembers : List (String × Value) → List (String × Value) → Bool
    | [], _ => true
    | (name, x) :: rest, other =>
        (match Table.get? other name with
          | some y => same x y
          | none => false) && sameMembers rest other

/-- Whether two values compare equal as numbers and texts do: a not-a-number equals nothing. -/
def equals (a b : Value) : Bool :=
  match a with
  | .real .nan => false
  | _ => same a b

/-- Whether a value can identify something: lists and objects cannot. -/
def isAtom : Value → Bool
  | .list _ => false
  | .object _ => false
  | _ => true

/-- Whether a value counts as true: everything but null, false, zero and what is empty. -/
def isTrue : Value → Bool
  | .null => false
  | .bool truth => truth
  | .int n => n != 0
  | .real x => !x.isZero
  | .text chars => !chars.isEmpty
  | .list items => !items.isEmpty
  | .object members => !members.isEmpty

/-- Whether a value is a given text. -/
def isText (value : Value) (chars : String) : Bool :=
  match value with
  | .text own => own == chars
  | _ => false

/-- Whether a value is among others. -/
def among (value : Value) (others : List Value) : Bool := others.any (same · value)

/-- The entry filed under an identifying value. -/
def lookup {α : Type} (key : Value) : List (Value × α) → Option α
  | [] => none
  | (other, entry) :: rest => if same other key then some entry else lookup key rest

end Value

end BlockScript
