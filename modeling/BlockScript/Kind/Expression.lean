import BlockScript.Gen.Setting

/-! # Numbers, logic and variables -/

namespace BlockScript

namespace Gen

variable {n : Nat}

/-- An expression as the outcome of a block. -/
def expression (code : String) (order : Order) : Gen n Outcome :=
  .done (.expression ⟨code, order⟩)

/-- A statement as the outcome of a block. -/
def line (code : String) : Gen n Outcome := .done (.statement code)

/-- The literal of a number. Whole numbers have no fraction part; the infinities and the
not-a-number are conversions of texts. -/
def numberLiteral (x : Binary64) : Expression :=
  match x with
  | .infinite true => ⟨"-float(\"inf\")", .unarySign⟩
  | .infinite false => ⟨"float(\"inf\")", .functionCall⟩
  | .nan => ⟨"float(\"nan\")", .functionCall⟩
  | x =>
      let code :=
        if x.isWhole then toString (x.truncated.getD 0) else DecimalStyle.plain.render x
      ⟨code, if x.isNegative then .unarySign else .atomic⟩

/-- A number. -/
def number (_ : Setting n) (block : Block n) : Gen n Outcome :=
  match ((block.field? "NUM").getD (.int 0)).toReal with
  | .ok x => .done (.expression (numberLiteral x))
  | .error .tooLarge => .fail .tooLarge
  | .error _ => unhandled block [("NUM", block.field "NUM")]

/-- How an operand is bound. -/
structure Operator where
  code : String
  order : Order
  left : Order
  right : Order

/-- The arithmetic operators. Sums and products group either way; differences and quotients group
to the left, powers to the right. -/
def arithmeticOperators : Table Operator :=
  [("ADD", ⟨" + ", .additive, .additive, .additive⟩),
    ("MINUS", ⟨" - ", .additive, .additive, .tighter .additive⟩),
    ("MULTIPLY", ⟨" * ", .multiplicative, .multiplicative, .multiplicative⟩),
    ("DIVIDE", ⟨" / ", .multiplicative, .multiplicative, .tighter .multiplicative⟩),
    ("POWER", ⟨" ** ", .exponentiation, .tighter .exponentiation, .exponentiation⟩)]

/-- The comparison operators. Comparisons chain, so no operand may be a bare comparison. -/
def comparisonOperators : Table String :=
  [("EQ", "=="), ("NEQ", "!="), ("LT", "<"), ("LTE", "<="), ("GT", ">"), ("GTE", ">=")]

/-- An arithmetic operation. -/
def arithmetic (setting : Setting n) (block : Block n) : Gen n Outcome := do
  let op := block.field "OP"
  match ← choice arithmeticOperators op with
  | none => unhandled block [("OP", op)]
  | some operator =>
      let a ← value setting block "A" operator.left "0"
      let b ← value setting block "B" operator.right "0"
      expression (a ++ operator.code ++ b) operator.order

/-- A comparison. -/
def comparison (setting : Setting n) (block : Block n) : Gen n Outcome := do
  let op := block.field "OP"
  match ← choice comparisonOperators op with
  | none => unhandled block [("OP", op)]
  | some operator =>
      let a ← value setting block "A" (.tighter .relational) "0"
      let b ← value setting block "B" (.tighter .relational) "0"
      expression (a ++ " " ++ operator ++ " " ++ b) .relational

/-- A connective with the default of an operand that is missing beside another. -/
structure Connective where
  word : String
  order : Order
  default : String

/-- The connective of an option. -/
def connective? (op : Value) : Option Connective :=
  if op.isText "AND" then some ⟨"and", .logicalAnd, "True"⟩
  else if op.isText "OR" then some ⟨"or", .logicalOr, "False"⟩
  else none

/-- A conjunction or disjunction. Without any operand it is false. -/
def connection (setting : Setting n) (block : Block n) : Gen n Outcome := do
  let op := block.field "OP"
  match connective? op with
  | none => unhandled block [("OP", op)]
  | some connective =>
      let a ← value setting block "A" connective.order ""
      let b ← value setting block "B" connective.order ""
      let default := if a.isEmpty && b.isEmpty then "False" else connective.default
      expression (orIfEmpty a default ++ " " ++ connective.word ++ " " ++ orIfEmpty b default)
        connective.order

/-- A negation. -/
def negation (setting : Setting n) (block : Block n) : Gen n Outcome := do
  let operand ← value setting block "BOOL" .logicalNot "True"
  expression ("not " ++ operand) .logicalNot

/-- A truth value. -/
def truth (_ : Setting n) (block : Block n) : Gen n Outcome :=
  let option := block.field "BOOL"
  let isSet := option.isText "TRUE" || option.same (.bool true)
  expression (if isSet then "True" else "False") .atomic

/-- The null value. -/
def null (_ : Setting n) (_ : Block n) : Gen n Outcome := expression "None" .atomic

/-- The value of a variable. -/
def getVariable (_ : Setting n) (block : Block n) : Gen n Outcome := do
  expression (← variableName (block.field "VAR")) .atomic

/-- An assignment to a variable. -/
def setVariable (setting : Setting n) (block : Block n) : Gen n Outcome := do
  let assigned ← value setting block "VALUE" .none "0"
  let name ← variableName (block.field "VAR")
  line (name ++ " = " ++ assigned ++ "\n")

end Gen

end BlockScript
