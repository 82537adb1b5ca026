import BlockScript.Kind.ListBlock

/-! # Texts -/

namespace BlockScript

namespace Gen

variable {n : Nat}

/-- The literal of the empty text. -/
def emptyText : String := "''"

/-- A text literal. -/
def text (_ : Setting n) (block : Block n) : Gen n Outcome := do
  expression (← lift (quote (block.fieldOr "TEXT" ""))) .atomic

/-- A text made of the texts of several values. -/
def joined (setting : Setting n) (block : Block n) : Gen n Outcome := do
  let count ← lift block.itemCount
  if count = 0 then expression emptyText .atomic
  else if count = 1 then
    let item ← value setting block "ADD0" .none emptyText
    expression ("str(" ++ item ++ ")") .functionCall
  else if count = 2 then
    let first ← value setting block "ADD0" .none emptyText
    let second ← value setting block "ADD1" .none emptyText
    expression ("str(" ++ first ++ ") + str(" ++ second ++ ")") .additive
  else
    let items ← numbered setting block "ADD" emptyText count
    let x ← distinctVariable (.text "x")
    expression ("''.join([str(" ++ x ++ ") for " ++ x ++ " in [" ++ String.intercalate ", " items
      ++ "]])") .functionCall

/-- Appends to the text of a variable. -/
def append (setting : Setting n) (block : Block n) : Gen n Outcome := do
  let name ← variableName (block.field "VAR")
  let item ← value setting block "TEXT" .none emptyText
  line (name ++ " = str(" ++ name ++ ") + str(" ++ item ++ ")\n")

/-- The position of a text in another. -/
def textIndexOf (setting : Setting n) (block : Block n) : Gen n Outcome := do
  let side := block.fieldOr "END" "FIRST"
  let method ←
    if side.isText "FIRST" then pure "find"
    else if side.isText "LAST" then pure "rfind"
    else unhandled block [("END", side)]
  let part ← value setting block "FIND" .none emptyText
  let whole ← value setting block "VALUE" .member emptyText
  let code := whole ++ "." ++ method ++ "(" ++ part ++ ")"
  if setting.oneBased then expression (code ++ " + 1") .additive
  else expression code .functionCall

/-- A letter of a text. -/
def letterAt (setting : Setting n) (block : Block n) : Gen n Outcome := do
  let whereTo := block.fieldOr "WHERE" "FROM_START"
  if whereTo.isText "RANDOM" then
    let whole ← value setting block "VALUE" .none emptyText
    importRandom
    let name ← helper "text_random_letter" Snippet.randomLetter
    expression (name ++ "(" ++ whole ++ ")") .functionCall
  else
    let whole ← value setting block "VALUE" .member emptyText
    match position? whereTo with
    | some position =>
        let place ← offset setting block position
        expression (whole ++ "[" ++ place ++ "]") .member
    | none => unhandled block [("WHERE", whereTo)]

/-- The methods that change case. -/
def caseMethods : Table String :=
  [("UPPERCASE", ".upper()"), ("LOWERCASE", ".lower()"), ("TITLECASE", ".title()")]

/-- The methods that trim blanks. -/
def trimMethods : Table String :=
  [("LEFT", ".lstrip()"), ("RIGHT", ".rstrip()"), ("BOTH", ".strip()")]

/-- A method of a text, chosen by a field. -/
def chosenMethod (field : String) (methods : Table String) (setting : Setting n)
    (block : Block n) : Gen n Outcome := do
  let option := block.field field
  match ← choice methods option with
  | none => unhandled block [(field, option)]
  | some method =>
      let whole ← value setting block "TEXT" .member emptyText
      expression (whole ++ method) .functionCall

/-- Prints a value. -/
def print (setting : Setting n) (block : Block n) : Gen n Outcome := do
  let message ← value setting block "TEXT" .none emptyText
  line ("print(" ++ message ++ ")\n")

/-- The message of a prompt, from its field or else its socket. -/
def promptMessage (setting : Setting n) (block : Block n) : Gen n String :=
  if block.fields.has "TEXT" then lift (quote (block.fieldOr "TEXT" ""))
  else value setting block "TEXT" .none emptyText

/-- Asks the user for a text or a number. -/
def prompt (setting : Setting n) (block : Block n) : Gen n Outcome := do
  let code := "input(" ++ (← promptMessage setting block) ++ ")"
  let isNumber := (block.field "TYPE").isText "NUMBER"
  expression (if isNumber then "float(" ++ code ++ ")" else code) .functionCall

/-- The number of occurrences of a text in another. -/
def occurrences (setting : Setting n) (block : Block n) : Gen n Outcome := do
  let whole ← value setting block "TEXT" .member emptyText
  let part ← value setting block "SUB" .none emptyText
  expression (whole ++ ".count(" ++ part ++ ")") .functionCall

/-- A text with all occurrences of another replaced. -/
def replaced (setting : Setting n) (block : Block n) : Gen n Outcome := do
  let whole ← value setting block "TEXT" .member emptyText
  let old ← value setting block "FROM" .none emptyText
  let new ← value setting block "TO" .none emptyText
  expression (whole ++ ".replace(" ++ old ++ ", " ++ new ++ ")") .functionCall

/-- A text backwards. -/
def backwards (setting : Setting n) (block : Block n) : Gen n Outcome := do
  let whole ← value setting block "TEXT" .member emptyText
  expression (whole ++ "[::-1]") .member

end Gen

end BlockScript
