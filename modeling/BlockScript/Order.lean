import BlockScript.Text.Identifier

/-! # Binding strength

The order of an expression tells how tightly its outermost operator binds. A part is put in
parentheses when it binds less tightly than its place requires.
-/

namespace BlockScript

/-- Binding strength; a greater rank binds tighter. -/
structure Order where
  rank : Int
deriving DecidableEq

namespace Order

/-- No requirement at all. -/
def none : Order := ⟨0⟩
/-- Conditional expressions. -/
def conditional : Order := ⟨10⟩
/-- Disjunctions. -/
def logicalOr : Order := ⟨20⟩
/-- Conjunctions. -/
def logicalAnd : Order := ⟨30⟩
/-- Negations. -/
def logicalNot : Order := ⟨40⟩
/-- Comparisons. -/
def relational : Order := ⟨50⟩
/-- Sums and differences. -/
def additive : Order := ⟨60⟩
/-- Products and quotients. -/
def multiplicative : Order := ⟨70⟩
/-- Signs. -/
def unarySign : Order := ⟨80⟩
/-- Powers. -/
def exponentiation : Order := ⟨90⟩
/-- Attributes and subscripts. -/
def member : Order := ⟨100⟩
/-- Calls, which bind as tightly as attributes and subscripts. -/
def functionCall : Order := ⟨100⟩
/-- Names, literals and displays. -/
def atomic : Order := ⟨110⟩

/-- All orders by name, from the loosest on. -/
def named : List (String × Order) :=
  [("NONE", none), ("CONDITIONAL", conditional), ("LOGICAL_OR", logicalOr),
    ("LOGICAL_AND", logicalAnd), ("LOGICAL_NOT", logicalNot), ("RELATIONAL", relational),
    ("ADDITIVE", additive), ("MULTIPLICATIVE", multiplicative), ("UNARY_SIGN", unarySign),
    ("EXPONENTIATION", exponentiation), ("MEMBER", member), ("FUNCTION_CALL", functionCall),
    ("ATOMIC", atomic)]

/-- Whether a part must be put in parentheses. Equal strength groups to the left and needs none. -/
def needsParens (part required : Order) : Bool := part.rank < required.rank

/-- The order to require of an operand that may not have the operator's own strength. -/
def tighter (order : Order) : Order := ⟨order.rank + 1⟩

/-- The code of a part, in parentheses if its place requires them. -/
def wrap (code : String) (part required : Order) : String :=
  if part.needsParens required then "(" ++ code ++ ")" else code

theorem wrap_of_le {part required : Order} (code : String) (enough : required.rank ≤ part.rank) :
    wrap code part required = code := by
  simp [wrap, needsParens, Int.not_lt.mpr enough]

theorem wrap_of_lt {part required : Order} (code : String) (loose : part.rank < required.rank) :
    wrap code part required = "(" ++ code ++ ")" := by
  simp [wrap, needsParens, loose]

/-- Whether an expression is a plain identifier, which can be evaluated twice at no cost. -/
def isBareName (code : String) (order : Order) : Bool :=
  order == atomic && Text.isIdentifier code

end Order

end BlockScript
