import BlockScript.Kind.ListBlock

/-! # Procedures

A definition is entered with the pass and written at the end, when every temporary is known, so the
block itself leaves no code where it stands.
-/

namespace BlockScript

namespace Gen

variable {n : Nat}

/-- The body of a definition: the trap, the statement prefix, the statements. -/
def definitionBody (setting : Setting n) (block : Block n) (statements : String) :
    Attempt String := do
  let opening ← instrument setting.options.statementPrefix block
  let trap ← instrument setting.options.loopTrap block
  return Text.indented trap Text.margin ++ (Text.indented opening Text.margin ++ statements)

/-- The definition of a procedure, with or without a result. -/
def definition (setting : Setting n) (block : Block n) : Gen n Outcome := do
  let arguments ← lift block.arguments
  let others := setting.workspace.usedVariables.filter (!·.among arguments)
  let userGlobals ← each variableName others
  let name ← procedureName (block.field "NAME")
  let body ← lift (definitionBody setting block (← statements setting block "STACK"))
  let result ← value setting block "RETURN" .none ""
  let params ← each variableName arguments
  define
    { name, params, userGlobals
      body := if result.isEmpty then orIfEmpty body passLine else body
      returnLine := if result.isEmpty then "" else Text.margin ++ "return " ++ result ++ "\n"
      owner := some ⟨block.id, block.kind⟩ }
  return .nothing

/-- The code of a call. -/
def call (setting : Setting n) (block : Block n) : Gen n String := do
  let name ← procedureName (block.field "NAME")
  let arguments ← lift block.arguments
  let codes ← numbered setting block "ARG" "None" arguments.length
  return name ++ "(" ++ String.intercalate ", " codes ++ ")"

/-- A call for its result. -/
def callForResult (setting : Setting n) (block : Block n) : Gen n Outcome := do
  expression (← call setting block) .functionCall

/-- A call for its effect. -/
def callForEffect (setting : Setting n) (block : Block n) : Gen n Outcome := do
  line ((← call setting block) ++ "\n")

/-- An early return. -/
def earlyReturn (setting : Setting n) (block : Block n) : Gen n Outcome := do
  let condition ← value setting block "CONDITION" .none "False"
  let code := "if " ++ condition ++ ":\n" ++ Text.margin ++ "return"
  if ((block.mutation.get? "value").getD .null).isTrue then
    let result ← value setting block "VALUE" .none "None"
    line (code ++ " " ++ result ++ "\n")
  else line (code ++ "\n")

end Gen

end BlockScript
