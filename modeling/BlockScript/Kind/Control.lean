import BlockScript.Kind.Expression

/-! # Branches and loops -/

namespace BlockScript

namespace Gen

variable {n : Nat}

/-- The numbers below an integer, none when it is not positive. -/
def countTo (limit : Int) : List Nat := List.range limit.toNat

/-- A branch of a conditional statement. -/
def branch (setting : Setting n) (block : Block n) (number : Nat) : Gen n String := do
  let condition ← value setting block ("IF" ++ toString number) .none "False"
  let body ← statements setting block ("DO" ++ toString number)
  let keyword := if number = 0 then "if " else "elif "
  return keyword ++ condition ++ ":\n" ++ orIfEmpty body passLine

/-- The last branch of a conditional statement. -/
def otherwise (setting : Setting n) (block : Block n) : Gen n String := do
  if ((block.mutation.get? "else").getD .null).isTrue then
    return "else:\n" ++ orIfEmpty (← statements setting block "ELSE") passLine
  else return ""

/-- A conditional statement. -/
def conditional (setting : Setting n) (block : Block n) : Gen n Outcome := do
  let further ← lift ((block.mutation.get? "elseif").getD (.int 0)).toWhole
  let branches ← each (branch setting block) (countTo (further + 1))
  line (String.join branches ++ (← otherwise setting block))

/-- The condition of a loop. -/
def loopCondition (setting : Setting n) (block : Block n) : Gen n String := do
  let mode := block.fieldOr "MODE" "WHILE"
  if mode.isText "WHILE" then value setting block "BOOL" .none "False"
  else if mode.isText "UNTIL" then
    return "not " ++ (← value setting block "BOOL" .logicalNot "False")
  else unhandled block [("MODE", mode)]

/-- A loop with a condition. -/
def conditionalLoop (setting : Setting n) (block : Block n) : Gen n Outcome := do
  let condition ← loopCondition setting block
  line ("while " ++ condition ++ ":\n" ++ (← loopBody setting block "DO"))

/-- Whether code is an integer literal, signs apart. -/
def isIntegerLiteral (code : String) : Bool :=
  let digits := code.toList.dropWhile (· = '-')
  !digits.isEmpty && digits.all Char.isDigit

/-- The number of rounds of a counted loop, from its field or else its socket. -/
def rounds (setting : Setting n) (block : Block n) : Gen n String := do
  if block.fields.has "TIMES" then
    let times := block.field "TIMES"
    match times.toReal >>= Value.wholeOfReal with
    | .ok count => return toString count
    | .error _ => unhandled block [("TIMES", times)]
  else value setting block "TIMES" .none "0"

/-- A counted loop. -/
def countedLoop (setting : Setting n) (block : Block n) : Gen n Outcome := do
  let times ← rounds setting block
  let bound := if isIntegerLiteral times then times else "int(" ++ times ++ ")"
  let counter ← distinctVariable (.text "count")
  line ("for " ++ counter ++ " in range(" ++ bound ++ "):\n" ++ (← loopBody setting block "DO"))

/-- A loop over a list. -/
def listLoop (setting : Setting n) (block : Block n) : Gen n Outcome := do
  let name ← variableName (block.field "VAR")
  let items ← value setting block "LIST" .relational "[]"
  line ("for " ++ name ++ " in " ++ items ++ ":\n" ++ (← loopBody setting block "DO"))

end Gen

end BlockScript
