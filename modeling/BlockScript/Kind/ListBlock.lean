import BlockScript.Gen.Index
import BlockScript.Kind.Control
import BlockScript.Kind.Snippet

/-! # Lists -/

namespace BlockScript

namespace Gen

variable {n : Nat}

/-- Declares the import of the random module. -/
def importRandom : Gen n Unit := require "import_random" "import random"

/-- The empty list. -/
def emptyList (_ : Setting n) (_ : Block n) : Gen n Outcome := expression "[]" .atomic

/-- The codes of numbered sockets. -/
def numbered (setting : Setting n) (block : Block n) (stem default : String) (count : Int) :
    Gen n (List String) :=
  each (fun k => value setting block (stem ++ toString k) .none default) (countTo count)

/-- A list of items. -/
def listOf (setting : Setting n) (block : Block n) : Gen n Outcome := do
  let items ← numbered setting block "ADD" "None" (← lift block.itemCount)
  expression ("[" ++ String.intercalate ", " items ++ "]") .atomic

/-- A list of one item, repeated. -/
def repeatedItem (setting : Setting n) (block : Block n) : Gen n Outcome := do
  let item ← value setting block "ITEM" .none "None"
  let times ← value setting block "NUM" (.tighter .multiplicative) "0"
  expression ("[" ++ item ++ "] * " ++ times) .multiplicative

/-- The length of what a socket holds. -/
def lengthOf (default : String) (setting : Setting n) (block : Block n) : Gen n Outcome := do
  let items ← value setting block "VALUE" .none default
  expression ("len(" ++ items ++ ")") .functionCall

/-- Whether what a socket holds is empty. -/
def isEmpty (default : String) (setting : Setting n) (block : Block n) : Gen n Outcome := do
  let items ← value setting block "VALUE" .none default
  expression ("not len(" ++ items ++ ")") .logicalNot

/-- The position of an item in a list. -/
def listIndexOf (setting : Setting n) (block : Block n) : Gen n Outcome := do
  let item ← value setting block "FIND" .none "None"
  let items ← value setting block "VALUE" .none "[]"
  let side := block.fieldOr "END" "FIRST"
  let name ←
    if side.isText "FIRST" then helper "first_index" (Snippet.firstIndex setting.oneBased)
    else if side.isText "LAST" then helper "last_index" (Snippet.lastIndex setting.oneBased)
    else unhandled block [("END", side)]
  expression (name ++ "(" ++ items ++ ", " ++ item ++ ")") .functionCall

/-- The ways to say where an item stands. -/
inductive Position where
  | first
  | last
  | fromStart
  | fromEnd
deriving DecidableEq

/-- The position that an option asks for. -/
def position? (option : Value) : Option Position :=
  if option.isText "FIRST" then some .first
  else if option.isText "LAST" then some .last
  else if option.isText "FROM_START" then some .fromStart
  else if option.isText "FROM_END" then some .fromEnd
  else none

/-- The offset of a position. -/
def offset (setting : Setting n) (block : Block n) : Position → Gen n String
  | .first => .done "0"
  | .last => .done "-1"
  | .fromStart => do return (← fromStart setting block "AT").code
  | .fromEnd => do return (← fromEnd setting block "AT").code

/-- An item of a list at a position, or its removal. Removing without a use is a statement. -/
def itemAt (setting : Setting n) (block : Block n) (mode whereTo : Value) (items : String)
    (position : Position) : Gen n Outcome := do
  let place ← offset setting block position
  let pop := if position = .last then items ++ ".pop()" else items ++ ".pop(" ++ place ++ ")"
  if mode.isText "GET" then expression (items ++ "[" ++ place ++ "]") .member
  else if mode.isText "GET_REMOVE" then expression pop .functionCall
  else if mode.isText "REMOVE" then line (pop ++ "\n")
  else unhandled block [("MODE", mode), ("WHERE", whereTo)]

/-- An item of a list at random, or its removal. -/
def itemAtRandom (block : Block n) (mode whereTo : Value) (items : String) : Gen n Outcome := do
  importRandom
  if mode.isText "GET" then expression ("random.choice(" ++ items ++ ")") .functionCall
  else
    let name ← helper "lists_remove_random_item" Snippet.removeRandomItem
    let code := name ++ "(" ++ items ++ ")"
    if mode.isText "GET_REMOVE" then expression code .functionCall
    else if mode.isText "REMOVE" then line (code ++ "\n")
    else unhandled block [("MODE", mode), ("WHERE", whereTo)]

/-- An item of a list, or its removal. -/
def getIndex (setting : Setting n) (block : Block n) : Gen n Outcome := do
  let mode := block.fieldOr "MODE" "GET"
  let whereTo := block.fieldOr "WHERE" "FROM_START"
  let isRandom := whereTo.isText "RANDOM"
  let items ← value setting block "VALUE" (if isRandom then .none else .member) "[]"
  match position? whereTo with
  | some position => itemAt setting block mode whereTo items position
  | none =>
      if isRandom then itemAtRandom block mode whereTo items
      else unhandled block [("MODE", mode), ("WHERE", whereTo)]

/-- A list that is used twice: a temporary holds it unless it is a bare name. The code is what has
to come first and the name to use. -/
def listTwice (setting : Setting n) (block : Block n) : Gen n (String × String) := do
  match ← child setting block "LIST" with
  | none => return ("", "[]")
  | some list =>
      if Order.isBareName list.code list.order then return ("", list.code)
      else
        let name ← temporary (.text "tmp_list")
        return (name ++ " = " ++ list.code ++ "\n", name)

/-- A change of a list at a random position. -/
def setAtRandom (setting : Setting n) (block : Block n) (isSet : Bool) (item : String) :
    Gen n Outcome := do
  importRandom
  let (before, items) ← listTwice setting block
  let x ← temporary (.text "tmp_x")
  let code := before ++ x ++ " = int(random.random() * len(" ++ items ++ "))\n"
  if isSet then line (code ++ items ++ "[" ++ x ++ "] = " ++ item ++ "\n")
  else line (code ++ items ++ ".insert(" ++ x ++ ", " ++ item ++ ")\n")

/-- A change of a list at a position. -/
def setAt (setting : Setting n) (block : Block n) (isSet : Bool) (items item : String)
    (position : Position) : Gen n Outcome := do
  let place ← offset setting block position
  if isSet then line (items ++ "[" ++ place ++ "] = " ++ item ++ "\n")
  else if position = .last then line (items ++ ".append(" ++ item ++ ")\n")
  else line (items ++ ".insert(" ++ place ++ ", " ++ item ++ ")\n")

/-- A change of a list: an item is replaced or inserted. -/
def setIndex (setting : Setting n) (block : Block n) : Gen n Outcome := do
  let mode := block.fieldOr "MODE" "SET"
  let whereTo := block.fieldOr "WHERE" "FROM_START"
  let item ← value setting block "TO" .none "None"
  let isSet := mode.isText "SET"
  if !isSet && !mode.isText "INSERT" then
    unhandled block [("MODE", mode), ("WHERE", whereTo)]
  else if whereTo.isText "RANDOM" then setAtRandom setting block isSet item
  else
    let items ← value setting block "LIST" .member "[]"
    match position? whereTo with
    | some position => setAt setting block isSet items item position
    | none => unhandled block [("MODE", mode), ("WHERE", whereTo)]

/-- A part of what a socket holds. -/
def part (socket default : String) (setting : Setting n) (block : Block n) : Gen n Outcome := do
  let items ← value setting block socket .member default
  let bounds ← slice setting block
  expression (items ++ bounds.code) .member

/-- The keys that a list can be sorted by. -/
def sortKeys : Table String :=
  [("NUMERIC", "NUMERIC"), ("TEXT", "TEXT"), ("IGNORE_CASE", "IGNORE_CASE"),
    ("CASE_INSENSITIVE", "IGNORE_CASE")]

/-- A sorted copy of a list. -/
def sorted (setting : Setting n) (block : Block n) : Gen n Outcome := do
  let items ← value setting block "LIST" .none "[]"
  match ← choice sortKeys (block.fieldOr "TYPE" "NUMERIC") with
  | none => unhandled block [("TYPE", block.field "TYPE")]
  | some key =>
      let direction ← lift (block.fieldOr "DIRECTION" "1").display
      let name ← helper "lists_sort" Snippet.sort
      let reverse := if direction = "1" then "False" else "True"
      expression (name ++ "(" ++ items ++ ", \"" ++ key ++ "\", " ++ reverse ++ ")") .functionCall

/-- A text split into a list, or a list joined into a text. -/
def split (setting : Setting n) (block : Block n) : Gen n Outcome := do
  let mode := block.field "MODE"
  if mode.isText "SPLIT" then
    let text ← value setting block "INPUT" .member "''"
    let delimiter ← value setting block "DELIM" .none ""
    expression (text ++ ".split(" ++ delimiter ++ ")") .functionCall
  else if mode.isText "JOIN" then
    let items ← value setting block "INPUT" .none "[]"
    let delimiter ← value setting block "DELIM" .member "''"
    expression (delimiter ++ ".join(" ++ items ++ ")") .functionCall
  else reject (.unknownMode block.id block.kind mode)

/-- A reversed copy of a list. -/
def reversed (setting : Setting n) (block : Block n) : Gen n Outcome := do
  let items ← value setting block "LIST" .none "[]"
  expression ("list(reversed(" ++ items ++ "))") .functionCall

end Gen

end BlockScript
