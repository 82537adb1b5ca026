import BlockScript.Proofs.Formula.Tree
import BlockScript.Proofs.Naming

/-! # Blocks that depict a tree

Blocks of arithmetic, comparison and logic that are plugged into each other depict a tree of
operations (`Setting.Depicts`), and a block depicts trees of one size only. The generators of these
kinds put the code of their sockets together as the printer of trees does (`Gen.yields_operation`).
-/

namespace BlockScript

/-- The kind of the blocks of an operation. -/
def Operation.kind : Operation → Kind
  | .add | .subtract | .multiply | .divide | .power => .arithmetic
  | .both | .either => .connection
  | _ => .comparison

/-- The option by which the blocks of a kind name an operation. -/
def Operation.option : Operation → String
  | .add => "ADD"
  | .subtract => "MINUS"
  | .multiply => "MULTIPLY"
  | .divide => "DIVIDE"
  | .power => "POWER"
  | .equal => "EQ"
  | .unequal => "NEQ"
  | .less => "LT"
  | .lessOrEqual => "LTE"
  | .greater => "GT"
  | .greaterOrEqual => "GTE"
  | .both => "AND"
  | .either => "OR"

namespace Setting

variable {n : Nat}

/-- Whether a block is of a kind. -/
def Has (setting : Setting n) (ref : Fin n) (kind : Kind) : Prop :=
  (setting.block ref).kind = .text kind.label

/-- The tree of operations that the block in a socket depicts: blocks of arithmetic, comparison and
logic with a known option, and below them variables, finite numbers, truth values, null and empty
sockets. -/
inductive Depicts (setting : Setting n) : Option (Fin n) → OperationTree → Prop
  | unplugged : Depicts setting none .unplugged
  | reference {ref : Fin n} : setting.Has ref .getVariable →
      Names.Nameable ((setting.block ref).field "VAR") →
        Depicts setting (some ref) (.reference ((setting.block ref).field "VAR"))
  | number {ref : Fin n} {negative : Bool} {significand : Nat} {exponent : Int}
      {canonical : Binary64.IsCanonical significand exponent} : setting.Has ref .number →
      (((setting.block ref).field? "NUM").getD (.int 0)).toReal =
          .ok (.finite negative significand exponent canonical) →
        Depicts setting (some ref) (.number negative significand exponent canonical)
  | truth {ref : Fin n} : setting.Has ref .truth →
      Depicts setting (some ref) (.truth (((setting.block ref).field "BOOL").isText "TRUE" ||
        ((setting.block ref).field "BOOL").same (.bool true)))
  | null {ref : Fin n} : setting.Has ref .null → Depicts setting (some ref) .null
  | binary {ref : Fin n} {operation : Operation} {left right : OperationTree} :
      setting.Has ref operation.kind →
      (setting.block ref).field "OP" = .text operation.option →
      Depicts setting ((setting.block ref).input? "A") left →
      Depicts setting ((setting.block ref).input? "B") right →
        Depicts setting (some ref) (.binary operation left right)
  | negation {ref : Fin n} {operand : OperationTree} : setting.Has ref .negation →
      Depicts setting ((setting.block ref).input? "BOOL") operand →
        Depicts setting (some ref) (.negation operand)

end Setting

/-- The number of operations and leaves of a tree. -/
def OperationTree.size : OperationTree → Nat
  | .unplugged => 0
  | .binary _ left right => left.size + right.size + 1
  | .negation operand => operand.size + 1
  | _ => 1

/-- The label of a kind names that kind. -/
theorem Kind.ofLabel?_label (kind : Kind) : ofLabel? kind.label = some kind := by
  have listed : ∀ kind ∈ all, ofLabel? kind.label = some kind := by decide +kernel
  exact listed kind (by cases kind <;> decide)

namespace Setting

variable {n : Nat} {setting : Setting n}

/-- A block is of one kind at most. -/
theorem Has.unique {ref : Fin n} {kind other : Kind} (first : setting.Has ref kind)
    (second : setting.Has ref other) : kind = other := by
  have same : kind.label = other.label := Value.text.inj (first.symm.trans second)
  have found := Kind.ofLabel?_label kind
  rw [same, Kind.ofLabel?_label] at found
  exact (Option.some.inj found).symm

/-- A block depicts trees of one size only. -/
theorem Depicts.size_eq {socket : Option (Fin n)} {tree other : OperationTree}
    (first : setting.Depicts socket tree) (second : setting.Depicts socket other) :
    tree.size = other.size := by
  induction first generalizing other with
  | unplugged =>
    cases second
    rfl
  | reference has | number has | truth has | null has =>
    cases second with
    | reference | number | truth | null => rfl
    | @binary _ operation _ _ has' =>
      exact absurd (has'.unique has) (by cases operation <;> decide)
    | negation has' => cases has.unique has'
  | @binary _ operation _ _ has _ _ _ left right =>
    cases second with
    | binary _ _ left' right' => simp only [OperationTree.size, left left', right right']
    | reference has' | number has' | truth has' | null has' | negation has' =>
      exact absurd (has.unique has') (by cases operation <;> decide)
  | negation has _ ih =>
    cases second with
    | negation _ inner => simp only [OperationTree.size, ih inner]
    | reference has' | number has' | truth has' | null has' => cases has.unique has'
    | @binary _ operation _ _ has' =>
      exact absurd (has'.unique has) (by cases operation <;> decide)

end Setting

/-! ## Code of blocks that depict a tree -/

namespace Gen

variable {n : Nat} {α β : Type}

/-- A generator succeeds with a result, from one pass to another. -/
def Yields (visit : Fin n → Emission n Outcome) (generator : Gen n α) (pass : Pass n) (result : α)
    (after : Pass n) : Prop :=
  (generator.runWith visit).run.run pass = (.ok result, after)

variable {visit : Fin n → Emission n Outcome} {pass between after : Pass n}

theorem yields_done (result : α) : Yields visit (.done result) pass result pass := rfl

/-- What two generators come to, one after the other. -/
theorem Yields.bind {generator : Gen n α} {next : α → Gen n β} {result : α} {last : β}
    (first : Yields visit generator pass result between)
    (second : Yields visit (next result) between last after) :
    Yields visit (generator >>= next) pass last after := by
  unfold Yields
  rw [runWith_bind, Step.bind_eq_ok]
  exact ⟨result, between, first, second⟩

/-- What a socket holds: nothing, or a block that comes to an expression. -/
def Fills (visit : Fin n → Emission n Outcome) (socket : Option (Fin n)) (pass : Pass n)
    (held : Option Expression) (after : Pass n) : Prop :=
  match socket with
  | none => held = none ∧ after = pass
  | some ref => ∃ value, held = some value ∧
      (visit ref).run.run pass = (.ok (.expression value), after)

/-- A socket that is filled comes to what fills it. -/
theorem Fills.child {setting : Setting n} {block : Block n} {socket : String}
    {held : Option Expression} (fills : Fills visit (block.input? socket) pass held after) :
    Yields visit (child setting block socket) pass held after := by
  unfold Gen.child
  cases plugged : block.input? socket with
  | none =>
    rw [plugged] at fills
    obtain ⟨rfl, rfl⟩ := fills
    exact yields_done none
  | some ref =>
    rw [plugged] at fills
    obtain ⟨value, rfl, ran⟩ := fills
    have asked : Yields visit (Gen.block ref) pass (.expression value) after :=
      Step.bind_eq_ok.mpr ⟨_, _, ran, rfl⟩
    exact .bind asked (yields_done (some value))

/-- The code of a socket. -/
theorem Fills.value {setting : Setting n} {block : Block n} {socket : String}
    {held : Option Expression} (fills : Fills visit (block.input? socket) pass held after)
    (order : Order) (default : String) :
    Yields visit (value setting block socket order default) pass
      (OperationTree.socketCode held order default) after := by
  refine .bind fills.child ?_
  cases held <;> exact yields_done _

variable {setting : Setting n} {block : Block n} {operation : Operation}
  {left right : Option Expression}

theorem choice_text (table : Table α) (option : String) :
    choice table (.text option) = (.done (table.get? option) : Gen n (Option α)) := rfl

/-- The arithmetic operations are those of the table. -/
theorem get?_arithmeticOperators (isArithmetic : operation.kind = .arithmetic) :
    arithmeticOperators.get? operation.option =
      some ⟨" " ++ operation.symbol ++ " ", operation.level.order, operation.leftOrder,
        operation.rightOrder⟩ := by
  cases operation with
  | add | subtract | multiply | divide | power => rfl
  | _ => cases isArithmetic

/-- An arithmetic block comes to the code of its operation. -/
theorem yields_arithmetic (isArithmetic : operation.kind = .arithmetic)
    (chosen : block.field "OP" = .text operation.option)
    (leftFills : Fills visit (block.input? "A") pass left between)
    (rightFills : Fills visit (block.input? "B") between right after) :
    Yields visit (arithmetic setting block) pass
      (.expression (OperationTree.operationCode operation left right)) after := by
  have default : ∀ missing, operation.default missing = "0" := by
    intro missing
    cases operation with
    | both | either => cases isArithmetic
    | _ => rfl
  unfold arithmetic
  simp only [chosen, choice_text, get?_arithmeticOperators isArithmetic, done_bind]
  refine .bind (leftFills.value operation.leftOrder "0")
    (.bind (rightFills.value operation.rightOrder "0") ?_)
  simp only [OperationTree.operationCode, default, String.append_assoc]
  exact yields_done _

/-- The options of comparisons choose their symbols. -/
theorem get?_comparisonOperators (isComparison : operation.kind = .comparison) :
    comparisonOperators.get? operation.option = some operation.symbol := by
  cases operation with
  | equal | unequal | less | lessOrEqual | greater | greaterOrEqual => rfl
  | _ => cases isComparison

/-- A comparison block comes to the code of its operation. -/
theorem yields_comparison (isComparison : operation.kind = .comparison)
    (chosen : block.field "OP" = .text operation.option)
    (leftFills : Fills visit (block.input? "A") pass left between)
    (rightFills : Fills visit (block.input? "B") between right after) :
    Yields visit (comparison setting block) pass
      (.expression (OperationTree.operationCode operation left right)) after := by
  have code : OperationTree.operationCode operation left right =
      ⟨OperationTree.socketCode left (.tighter .relational) "0" ++ " " ++ operation.symbol ++ " " ++
        OperationTree.socketCode right (.tighter .relational) "0", .relational⟩ := by
    cases operation with
    | equal | unequal | less | lessOrEqual | greater | greaterOrEqual => rfl
    | _ => cases isComparison
  unfold comparison
  simp only [chosen, choice_text, get?_comparisonOperators isComparison, done_bind, code]
  exact .bind (leftFills.value _ "0") (.bind (rightFills.value _ "0") (yields_done _))

/-- The options of connections choose their words, with their order and default. -/
theorem connective?_eq (isConnection : operation.kind = .connection) :
    connective? (.text operation.option) =
      some ⟨operation.symbol, operation.level.order, operation.default false⟩ := by
  cases operation with
  | both | either => rfl
  | _ => cases isConnection

/-- Code is empty where nothing is plugged in, and only there. -/
theorem isEmpty_socketCode {held : Option Expression} (written : ∀ value ∈ held, value.code ≠ "")
    (order : Order) : (OperationTree.socketCode held order "").isEmpty = held.isNone := by
  cases held with
  | none => rfl
  | some value =>
    rw [OperationTree.socketCode, Order.wrap]
    split
    · simp
    · simpa [String.isEmpty_iff] using written value rfl

/-- A default may be filled in later. -/
theorem orIfEmpty_socketCode {held : Option Expression} (written : ∀ value ∈ held, value.code ≠ "")
    (order : Order) (default : String) :
    orIfEmpty (OperationTree.socketCode held order "") default =
      OperationTree.socketCode held order default := by
  rw [orIfEmpty, isEmpty_socketCode written]
  cases held <;> rfl

/-- A connection block comes to the code of its operation, unless an operand has no code. -/
theorem yields_connection (isConnection : operation.kind = .connection)
    (chosen : block.field "OP" = .text operation.option)
    (leftFills : Fills visit (block.input? "A") pass left between)
    (rightFills : Fills visit (block.input? "B") between right after)
    (leftWritten : ∀ value ∈ left, value.code ≠ "")
    (rightWritten : ∀ value ∈ right, value.code ≠ "") :
    Yields visit (connection setting block) pass
      (.expression (OperationTree.operationCode operation left right)) after := by
  have orders : operation.leftOrder = operation.level.order ∧
      operation.rightOrder = operation.level.order ∧
        ∀ missing, operation.default missing =
          if missing = true then "False" else operation.default false := by
    cases operation with
    | both | either => exact ⟨rfl, rfl, fun missing => by cases missing <;> rfl⟩
    | _ => cases isConnection
  obtain ⟨leftOrder, rightOrder, default⟩ := orders
  unfold connection
  simp only [chosen, connective?_eq isConnection]
  refine .bind (leftFills.value _ "") (.bind (rightFills.value _ "") ?_)
  simp only [isEmpty_socketCode leftWritten, isEmpty_socketCode rightWritten,
    orIfEmpty_socketCode leftWritten, orIfEmpty_socketCode rightWritten, ← default]
  unfold OperationTree.operationCode
  rw [leftOrder, rightOrder]
  exact yields_done _

/-- The code of an operation, from the code of its sockets. -/
theorem yields_operation (chosen : block.field "OP" = .text operation.option)
    (leftFills : Fills visit (block.input? "A") pass left between)
    (rightFills : Fills visit (block.input? "B") between right after)
    (leftWritten : ∀ value ∈ left, value.code ≠ "")
    (rightWritten : ∀ value ∈ right, value.code ≠ "") :
    Yields visit (operation.kind.generate setting block) pass
      (.expression (OperationTree.operationCode operation left right)) after := by
  cases operation with
  | add | subtract | multiply | divide | power =>
    exact yields_arithmetic rfl chosen leftFills rightFills
  | both | either =>
    exact yields_connection rfl chosen leftFills rightFills leftWritten rightWritten
  | equal | unequal | less | lessOrEqual | greater | greaterOrEqual =>
    exact yields_comparison rfl chosen leftFills rightFills

end Gen

end BlockScript
