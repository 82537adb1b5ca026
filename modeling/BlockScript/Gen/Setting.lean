import BlockScript.Gen.Basic

/-! # What generators read

The program and the options of a pass, and the code that blocks plugged into sockets contribute.
-/

namespace BlockScript

/-- The options of a pass. -/
structure Options where
  /-- Whether indices start with one; the program decides when this is open. -/
  oneBased : Option Bool := none
  /-- Code for the top of procedure bodies, where `%1` stands for the quoted id of the block. -/
  statementPrefix : Option String := none
  /-- Code for the top of loop and procedure bodies, where `%1` stands for the quoted id. -/
  loopTrap : Option String := none

/-- A program with the options of a pass over it. -/
structure Setting (n : Nat) where
  workspace : Workspace n
  options : Options

namespace Setting

variable {n : Nat}

/-- A block of the program. -/
def block (setting : Setting n) (ref : Fin n) : Block n := setting.workspace.graph.block ref

/-- Whether indices start with one. -/
def oneBased (setting : Setting n) : Bool :=
  setting.options.oneBased.getD setting.workspace.oneBased

end Setting

/-- A value as a literal of the generated language. -/
def quote (value : Value) : Attempt String := return Text.quoted (← value.display)

/-- The code of a template for a block, nothing when there is no template or an empty one. -/
def instrument {n : Nat} (template : Option String) (block : Block n) : Attempt String :=
  match template with
  | none => .ok ""
  | some code =>
      if code.isEmpty then .ok ""
      else do
        let id ← quote block.id
        return String.ofList (Text.replaceMark '%' '1' id.toList code.toList)

/-- A margin and the statement that does nothing. -/
def passLine : String := Text.margin ++ "pass\n"

/-- A text, or another in its place when it is empty. -/
def orIfEmpty (text other : String) : String := if text.isEmpty then other else text

namespace Gen

variable {n : Nat}

/-- The expression plugged into a socket, if a block is. -/
def child (setting : Setting n) (block : Block n) (socket : String) :
    Gen n (Option Expression) :=
  match block.input? socket with
  | none => .done none
  | some ref => do
      match ← Gen.block ref with
      | .expression value => return some value
      | _ =>
          let plugged := setting.block ref
          reject (.notAnExpression plugged.id plugged.kind block.id socket)

/-- The code of a socket, in parentheses if its place requires them; a default when nothing is
plugged in. -/
def value (setting : Setting n) (block : Block n) (socket : String) (order : Order)
    (default : String) : Gen n String := do
  match ← child setting block socket with
  | none => return default
  | some plugged => return Order.wrap plugged.code plugged.order order

/-- A block as a statement. An expression becomes a line of its own. -/
def statement (ref : Fin n) : Gen n String := do
  match ← Gen.block ref with
  | .expression value => return value.code ++ "\n"
  | .statement code => return code
  | .nothing => return ""

/-- The statements of a chain. -/
def chain (setting : Setting n) : Option (Fin n) → Gen n String
  | none => .done ""
  | some first => do
      let chain := setting.workspace.graph.chain first
      let codes ← each statement chain.blocks
      match chain.returnsTo with
      | some ref => reject (.endlessChain (setting.block ref).id (setting.block ref).kind)
      | none => return String.join codes

/-- The indented statements of a socket. -/
def statements (setting : Setting n) (block : Block n) (socket : String) : Gen n String := do
  return Text.indented (← chain setting (block.input? socket)) Text.margin

/-- The indented statements of a loop's socket, never empty, with the trap on top. -/
def loopBody (setting : Setting n) (block : Block n) (socket : String) : Gen n String := do
  let branch ← statements setting block socket
  let trap ← lift (instrument setting.options.loopTrap block)
  return orIfEmpty (Text.indented trap Text.margin ++ branch) passLine

/-- Rejects an option of a block that no code exists for. -/
def unhandled {α : Type} (block : Block n) (combination : Table Value) : Gen n α :=
  reject (.unhandled block.id block.kind combination)

/-- The entry of an option in a table of those that code exists for. -/
def choice {α : Type} (table : Table α) (option : Value) : Gen n (Option α) := do
  lift option.atom
  match option with
  | .text name => return table.get? name
  | _ => return none

end Gen

end BlockScript
