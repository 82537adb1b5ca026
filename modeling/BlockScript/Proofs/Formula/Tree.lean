import BlockScript.Kind.Basic
import BlockScript.Proofs.Formula.Parsing
import BlockScript.Proofs.Number.Reading

/-! # Trees of operations

A tree of operations is what blocks of arithmetic, comparison and logic spell when they are plugged
into each other. `OperationTree.print` is the code of a tree, with parentheses where an operand
binds less tightly than its place requires, and `OperationTree.term?` is the formula that the tree
means.
-/

namespace BlockScript

/-- The binary operations of blocks. -/
inductive Operation where
  | add
  | subtract
  | multiply
  | divide
  | power
  | equal
  | unequal
  | less
  | lessOrEqual
  | greater
  | greaterOrEqual
  | both
  | either
deriving DecidableEq

namespace Operation

open Formula

/-- The operator of an operation. -/
def symbol : Operation → String
  | .add => "+"
  | .subtract => "-"
  | .multiply => "*"
  | .divide => "/"
  | .power => "**"
  | .equal => "=="
  | .unequal => "!="
  | .less => "<"
  | .lessOrEqual => "<="
  | .greater => ">"
  | .greaterOrEqual => ">="
  | .both => "and"
  | .either => "or"

/-- The level of the grammar that an operation belongs to. -/
def level : Operation → Level
  | .add | .subtract => .sum
  | .multiply | .divide => .product
  | .power => .power
  | .both => .conjunction
  | .either => .disjunction
  | _ => .comparison

/-- The order that an operation requires of its left operand. -/
def leftOrder : Operation → Order
  | .add | .subtract => .additive
  | .multiply | .divide => .multiplicative
  | .power => .tighter .exponentiation
  | .both => .logicalAnd
  | .either => .logicalOr
  | _ => .tighter .relational

/-- The order that an operation requires of its right operand. -/
def rightOrder : Operation → Order
  | .add => .additive
  | .subtract => .tighter .additive
  | .multiply => .multiplicative
  | .divide => .tighter .multiplicative
  | .power => .exponentiation
  | .both => .logicalAnd
  | .either => .logicalOr
  | _ => .tighter .relational

/-- What a missing operand reads as; connectives look whether the other one is missing too. -/
def default (operation : Operation) (bothMissing : Bool) : String :=
  match operation with
  | .both => if bothMissing then "False" else "True"
  | .either => "False"
  | _ => "0"

end Operation

/-- A tree of operations. -/
inductive OperationTree where
  /-- An empty socket. -/
  | unplugged
  | reference (name : Value)
  /-- A finite number. -/
  | number (negative : Bool) (significand : Nat) (exponent : Int)
      (canonical : Binary64.IsCanonical significand exponent)
  | truth (isSet : Bool)
  | null
  | binary (operation : Operation) (left right : OperationTree)
  | negation (operand : OperationTree)

/-- The order of the formulas of a level. -/
def Formula.Level.order : Formula.Level → Order
  | .disjunction => .logicalOr
  | .conjunction => .logicalAnd
  | .inversion => .logicalNot
  | .comparison => .relational
  | .sum => .additive
  | .product => .multiplicative
  | .factor => .unarySign
  | .power => .exponentiation
  | .atom => .atomic

/-- The value of a number as a literal denotes it. -/
def Numeric.ofNumber (x : Binary64) : Numeric :=
  if x.isWhole then .whole (x.truncated.getD 0) else .real x

namespace OperationTree

open Formula

/-- The variables of a tree. -/
def variableNames : OperationTree → List Value
  | .reference name => [name]
  | .binary _ left right => left.variableNames ++ right.variableNames
  | .negation operand => operand.variableNames
  | _ => []

/-- The code of a socket. -/
def socketCode (plugged : Option Expression) (required : Order) (default : String) : String :=
  match plugged with
  | none => default
  | some value => Order.wrap value.code value.order required

/-- The code of an operation on two sockets. -/
def operationCode (operation : Operation) (left right : Option Expression) : Expression :=
  let default := operation.default (left.isNone && right.isNone)
  ⟨socketCode left operation.leftOrder default ++ " " ++ operation.symbol ++ " " ++
    socketCode right operation.rightOrder default, operation.level.order⟩

/-- The code of a tree, given the identifiers of variables; none for an empty socket. -/
def print (spell : Value → String) : OperationTree → Option Expression
  | .unplugged => none
  | .reference name => some ⟨spell name, .atomic⟩
  | .number negative significand exponent canonical =>
      some (Gen.numberLiteral (.finite negative significand exponent canonical))
  | .truth isSet => some ⟨if isSet then "True" else "False", .atomic⟩
  | .null => some ⟨"None", .atomic⟩
  | .binary operation left right =>
      some (operationCode operation (left.print spell) (right.print spell))
  | .negation operand =>
      some ⟨"not " ++ socketCode (operand.print spell) .logicalNot "True", .logicalNot⟩

/-- The formula of a default. -/
def defaultTerm (default : String) : Term :=
  if default = "0" then .number (.whole 0) else .constant default

/-- The formula of an operation on two sockets. -/
def operationTerm (operation : Operation) (left right : Option Term) : Term :=
  let default := defaultTerm (operation.default (left.isNone && right.isNone))
  .binary operation.symbol (left.getD default) (right.getD default)

/-- The formula that a tree means, given the identifiers of variables; none for an empty socket. -/
def term? (spell : Value → String) : OperationTree → Option Term
  | .unplugged => none
  | .reference name => some (.name (spell name))
  | .number negative significand exponent canonical =>
      some (.number (.ofNumber (.finite negative significand exponent canonical)))
  | .truth isSet => some (.constant (if isSet then "True" else "False"))
  | .null => some (.constant "None")
  | .binary operation left right =>
      some (operationTerm operation (left.term? spell) (right.term? spell))
  | .negation operand =>
      some (.negation ((operand.term? spell).getD (defaultTerm "True")))

end OperationTree

namespace Formula

/-! ## Operands in their places -/

/-- Tokens of a level whose formula regroups to another one. On a level of linked operands the link
is kept, since an operator beside it may make it longer. -/
inductive Grouped : Level → List Token → Term → Prop where
  | plain {level : Level} {read : List Token} {parsed term : Term} :
      ¬ level.IsLinked → Reads level read parsed → Regroup parsed term → Grouped level read term
  | linked {level : Level} {read : List Token} {first term : Term} {others : List (String × Term)} :
      level.IsLinked → Links level read first others →
        Regroup (level.combine first others) term → Grouped level read term

variable {level : Level} {read : List Token} {term : Term}

theorem Grouped.reads (grouped : Grouped level read term) :
    ∃ parsed, Reads level read parsed ∧ Regroup parsed term := by
  cases grouped with
  | plain _ reads same => exact ⟨_, reads, same⟩
  | linked linked links same => exact ⟨_, links.reads linked, same⟩

/-- Tokens of a level are a link of every looser level of linked operands. -/
theorem Grouped.links (grouped : Grouped level read term) {looser : Level}
    (linked : looser.IsLinked) (above : level.height ≤ looser.height) :
    ∃ first others, Links looser read first others ∧
      Regroup (looser.combine first others) term := by
  by_cases same : level = looser
  · subst same
    cases grouped with
    | plain notLinked => exact absurd linked notLinked
    | linked _ links same => exact ⟨_, _, links, same⟩
  · obtain ⟨parsed, reads, same⟩ := grouped.reads
    have tighter : level.height ≤ looser.below.height := by
      revert above
      cases level <;> cases looser <;> simp_all [Level.height, Level.below]
    exact ⟨parsed, [], (reads.loosen looser.below tighter).single, by rwa [combine_nil]⟩

/-- Code that stands for a formula with its order. -/
def Stands (value : Expression) (term : Term) : Prop :=
  ∃ level read, value.order = level.order ∧ Lexes value.code read ∧ Grouped level read term

/-- Whether an order admits the formulas of a level and of tighter ones, and no others. -/
def Demands (required : Order) (level : Level) : Prop :=
  ∀ other : Level, required.rank ≤ other.order.rank ↔ other.height ≤ level.height

/-- The code of what is plugged into a socket, if anything is, stands for a formula. -/
def Plugs : Option Expression → Option Term → Prop
  | none, none => True
  | some value, some term => Stands value term
  | _, _ => False

theorem lexes_default {default : String} (known : default ∈ ["0", "True", "False"]) :
    ∃ read, Lexes default read ∧ Reads .atom read (OperationTree.defaultTerm default) := by
  simp only [List.mem_cons, List.not_mem_nil, or_false] at known
  rcases known with rfl | rfl | rfl
  · have literal : Numeral.IsUnsigned "0".toList :=
      Numeral.IsDigits.isUnsigned ⟨by decide, by decide⟩
    exact ⟨_, lexes_numeral literal, reads_numeral (by decide)⟩
  · exact ⟨_, lexes_word ⟨'T', ['r', 'u', 'e'], rfl, rfl, rfl, by decide⟩, reads_word (by decide)⟩
  · exact ⟨_, lexes_word ⟨'F', ['a', 'l', 's', 'e'], rfl, rfl, rfl, by decide⟩,
      reads_word (by decide)⟩

/-- **An operand fits its place.** The code of a socket is a formula of the level that the place
demands or of a tighter one: as it is, in parentheses, or as the default. -/
theorem Plugs.grouped {plugged : Option Expression} {meant : Option Term}
    (plugs : Plugs plugged meant) {required : Order} (demands : Demands required level) {default : String}
    (known : default ∈ ["0", "True", "False"]) :
    ∃ own read, own.height ≤ level.height ∧
      Lexes (OperationTree.socketCode plugged required default) read ∧
        Grouped own read (meant.getD (OperationTree.defaultTerm default)) := by
  have atomic : Level.atom.height ≤ level.height := by cases level <;> decide
  match plugged, meant, plugs with
  | none, none, _ =>
    obtain ⟨read, lexes, reads⟩ := lexes_default known
    exact ⟨.atom, read, atomic, lexes, .plain (by decide) reads (.refl _)⟩
  | some value, some term, ⟨own, read, order, lexes, grouped⟩ =>
    by_cases fits : required.rank ≤ value.order.rank
    · refine ⟨own, read, (demands own).mp (order ▸ fits), ?_, grouped⟩
      rwa [OperationTree.socketCode, Order.wrap_of_le _ fits]
    · obtain ⟨parsed, reads, same⟩ := grouped.reads
      refine ⟨.atom, _, atomic, ?_, .plain (by decide) reads.grouped same⟩
      rw [OperationTree.socketCode, Order.wrap_of_lt _ (Int.not_le.mp fits)]
      exact lexes.grouped

end Formula

end BlockScript
