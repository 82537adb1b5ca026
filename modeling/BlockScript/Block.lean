import BlockScript.Value.Access

/-! # Blocks and workspaces

A program is a finite graph of blocks. A block has a kind, options in its fields and mutation,
sockets that other blocks are plugged into, and at most one block that follows it. Nothing here
forbids shared blocks or cycles. A workspace names the top-level blocks of a graph and its
variables.
-/

namespace BlockScript

/-- A block of a graph of `n` blocks. -/
structure Block (n : Nat) where
  kind : Value
  id : Value
  fields : Table Value
  mutation : Table Value
  /-- The sockets in order, each with the block plugged into it, if any. -/
  inputs : List (Value × Option (Fin n))
  /-- The block that follows. -/
  next : Option (Fin n)

namespace Block

variable {n : Nat}

/-- The field of a name, unless it is missing or null. -/
def field? (block : Block n) (name : String) : Option Value :=
  match block.fields.get? name with
  | some .null => none
  | found => found

/-- The field of a name, null when it is missing. -/
def field (block : Block n) (name : String) : Value := (block.field? name).getD .null

/-- The field of a name, or a text when it is missing or null. -/
def fieldOr (block : Block n) (name default : String) : Value :=
  (block.field? name).getD (.text default)

/-- The block plugged into a socket. -/
def input? (block : Block n) (socket : String) : Option (Fin n) :=
  (Value.lookup (.text socket) block.inputs).join

/-- The number of items that the mutation announces. -/
def itemCount (block : Block n) : Attempt Int :=
  ((block.mutation.get? "items").getD (.int 0)).toWhole

/-- The arguments that the mutation announces. -/
def arguments (block : Block n) : Attempt (List Value) :=
  ((block.mutation.get? "arguments").getD (.list [])).elements

/-- The blocks that a block links to: those in its sockets, then the one that follows. -/
def links (block : Block n) : List (Fin n) :=
  block.inputs.filterMap (·.2) ++ block.next.toList

end Block

/-- A graph of `n` blocks. -/
structure Graph (n : Nat) where
  blocks : Vector (Block n) n

namespace Graph

variable {n : Nat}

/-- A block of the graph. -/
def block (graph : Graph n) (ref : Fin n) : Block n := graph.blocks.get ref

/-- The number of links of the graph. -/
def linkCount (graph : Graph n) : Nat :=
  ((List.finRange n).flatMap fun ref => (graph.block ref).links).length

/-- The blocks met when those on a stack are visited from the top on: a block not seen before is
visited, and its links are put on the stack in order. Every step takes one block off the stack. -/
def visit (graph : Graph n) : Nat → List (Fin n) → List (Fin n) → List (Fin n)
  | 0, _, _ => []
  | _ + 1, _, [] => []
  | steps + 1, seen, ref :: stack =>
      if ref ∈ seen then visit graph steps seen stack
      else ref :: visit graph steps (ref :: seen) ((graph.block ref).links ++ stack)

/-- A block and every block under its sockets and after it, depth first. Each link is put on the
stack at most once, so one more step than there are links suffices. -/
def descendants (graph : Graph n) (ref : Fin n) : List (Fin n) :=
  graph.visit (graph.linkCount + 1) [] [ref]

/-- A chain of blocks, each followed by the next, and the block that a chain without an end comes
back to. -/
structure Chain (n : Nat) where
  blocks : List (Fin n)
  returnsTo : Option (Fin n)

/-- Follows a chain from a block. After `n` different blocks any further one has been seen. -/
def follow (graph : Graph n) : Nat → List (Fin n) → Fin n → Chain n
  | 0, _, ref => ⟨[], some ref⟩
  | steps + 1, seen, ref =>
      if ref ∈ seen then ⟨[], some ref⟩
      else
        match (graph.block ref).next with
        | none => ⟨[ref], none⟩
        | some after =>
            let rest := follow graph steps (ref :: seen) after
            ⟨ref :: rest.blocks, rest.returnsTo⟩

/-- The chain that starts with a block. -/
def chain (graph : Graph n) (ref : Fin n) : Chain n := graph.follow n [] ref

end Graph

/-- A graph of blocks with its top-level blocks and variables. -/
structure Workspace (n : Nat) where
  graph : Graph n
  roots : List (Fin n)
  /-- The variables that the program declares. -/
  userVariables : List Value
  /-- The variables that the surroundings of the program declare. -/
  developerVariables : List Value
  oneBased : Bool

namespace Workspace

variable {n : Nat}

/-- All blocks, from each top-level block on. -/
def allBlocks (workspace : Workspace n) : List (Fin n) :=
  workspace.roots.flatMap workspace.graph.descendants

/-- Adds a value to a list that does not have it. -/
def addNew (values : List Value) (value : Value) : List Value :=
  if value.among values then values else values ++ [value]

/-- The declared variables and then the further ones that blocks name. -/
def usedVariables (workspace : Workspace n) : List Value :=
  (workspace.allBlocks.filterMap fun ref => (workspace.graph.block ref).field? "VAR").foldl addNew
    workspace.userVariables

end Workspace

end BlockScript
