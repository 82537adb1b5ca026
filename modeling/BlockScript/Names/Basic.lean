import BlockScript.Names.Reserved
import BlockScript.Value.Access

/-! # Identifiers for names

A pool hands out identifiers of the generated language. A name keeps its identifier within its
space, all spaces share one pool, and no identifier is a reserved word or is handed out for a second
purpose. An identifier is the name with every other character replaced by an underscore, with the
least number from two on that makes it free.
-/

namespace BlockScript

/-- The space that a name belongs to. -/
inductive Space where
  /-- The user's variables. -/
  | user
  /-- The user's procedures, and helpers. -/
  | procedure
  /-- Variables of the surroundings, and temporaries. -/
  | developer
  /-- A space of the caller's own. -/
  | custom (label : Value)

namespace Space

/-- The label of a space. -/
def label : Space → Value
  | .user => .text "VARIABLE"
  | .procedure => .text "PROCEDURE"
  | .developer => .text "DEVELOPER_VARIABLE"
  | .custom label => label

/-- What a renaming notice calls the space; none when the label is no text. -/
def title? : Space → Option String
  | .user => some "variable"
  | .procedure => some "procedure"
  | .developer => some "developer_variable"
  | .custom (.text label) => some (String.ofList (label.toList.map Char.toLower))
  | .custom _ => none

end Space

/-- A pool of identifiers. -/
structure Names where
  /-- The words that are never handed out. -/
  reserved : List String
  /-- The identifiers of names, with the label of the space of each. -/
  table : List ((Value × Value) × String)
  /-- The identifiers handed out so far. -/
  used : List String

namespace Names

/-- A pool that has handed out nothing. -/
def withReserved (reserved : List String) : Names := ⟨reserved, [], []⟩

/-- A pool with the reserved words of the generated language. -/
def start : Names := withReserved reservedWords

/-- Whether a character may stand anywhere in a generated identifier. -/
def isPlain (c : Char) : Bool := c.isAlphanum || c = '_'

/-- A character of a name as it stands in an identifier. -/
def plain (c : Char) : Char := if isPlain c then c else '_'

/-- Characters that do not start with a digit: a prefix is put before one. -/
def withoutLeadingDigit : List Char → List Char
  | [] => []
  | c :: rest => if c.isDigit then 'm' :: 'y' :: '_' :: c :: rest else c :: rest

/-- The identifier that a text suggests. -/
def sanitize (name : String) : String :=
  if name.isEmpty then "unnamed"
  else String.ofList (withoutLeadingDigit (name.toList.map plain))

/-- The identifier that a value suggests as a name. What counts as false has no name. -/
def suggestion (name : Value) : Attempt String :=
  match name with
  | .text chars => .ok (sanitize chars)
  | value => if value.isTrue then .error .notAText else .ok "unnamed"

/-- Whether an identifier is reserved or in use. -/
def taken (names : Names) (identifier : String) : Bool :=
  names.used.contains identifier || names.reserved.contains identifier

/-- The candidates for an identifier: the bare one, then the ones numbered from two on. -/
def candidate (base : String) : Nat → String
  | 0 => base
  | k + 1 => base ++ toString (k + 2)

/-- The first free candidate. One more candidate than there are taken identifiers suffices. -/
def firstFree (names : Names) (base : String) : String :=
  let bound := names.used.length + names.reserved.length + 1
  match (List.range bound).find? fun k => !names.taken (candidate base k) with
  | some k => candidate base k
  | none => base

/-- Marks an identifier as handed out. -/
def markUsed (names : Names) (identifier : String) : Names :=
  { names with used := identifier :: names.used }

/-- The identifier of a name, when it has one. -/
def find? (names : Names) (space : Space) (name : Value) : Option String :=
  let rec search : List ((Value × Value) × String) → Option String
    | [] => none
    | ((label, known), identifier) :: rest =>
        if label.same space.label && known.same name then some identifier else search rest
  search names.table

/-- Files an identifier under a name. -/
def record (names : Names) (space : Space) (name : Value) (identifier : String) : Names :=
  { names with table := names.table ++ [((space.label, name), identifier)] }

end Names

end BlockScript
