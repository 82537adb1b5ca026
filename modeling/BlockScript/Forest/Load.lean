import BlockScript.Block
import BlockScript.Forest.Check

/-! # Loading a description

A description with valid links becomes a workspace, one block to a node, whose links are exactly the
collected ones.
-/

namespace BlockScript

/-- A workspace with the number of its blocks. -/
structure Program where
  size : Nat
  workspace : Workspace size

namespace Forest

/-- What a node says of its block apart from links. -/
structure Node where
  kind : Value
  id : Value
  fields : Table Value
  mutation : Table Value

/-- Reads a node. -/
def Node.ofValue (node : Value) : Attempt Node := do
  let id ← node.select "id"
  let kind ← node.member "type"
  let fields ← (← node.member "fields").table
  let mutation ← (← node.member "mutation").table
  return ⟨kind, id, fields, mutation⟩

/-- Plugs a block into a socket. A socket that is known keeps its place. -/
def plug {α : Type} (socket : Value) (child : α) : List (Value × α) → List (Value × α)
  | [] => [(socket, child)]
  | (known, held) :: rest =>
      if known.same socket then (known, child) :: rest else (known, held) :: plug socket child rest

/-- The block of an id. -/
def indexOf? (nodes : List Node) (id : Value) : Option (Fin nodes.length) :=
  nodes.findFinIdx? (·.id.same id)

/-- The block of a node without links. -/
def bareBlock (n : Nat) (node : Node) : Block n :=
  { kind := node.kind, id := node.id, fields := node.fields, mutation := node.mutation,
    inputs := [], next := none }

/-- Adds a link to a block when it is the parent. -/
def attach (nodes : List Node) (block : Block nodes.length) (link : Link) : Block nodes.length :=
  if block.id.same link.parent then
    let child := indexOf? nodes link.child
    if link.port.isText Link.following then { block with next := child }
    else { block with inputs := plug link.port child block.inputs }
  else block

/-- The graph of nodes and links. -/
def graph (nodes : List Node) (links : List Link) : Graph nodes.length :=
  ⟨Vector.ofFn fun ref => links.foldl (attach nodes) (bareBlock nodes.length nodes[ref])⟩

/-- The member of a description, or an empty list in its place when it counts as false. -/
def listMember (description : Value) (name : String) : Attempt Value := do
  return (← description.member name).orElse (.list [])

/-- Whether the options ask for indices that start with one, as they do by default. -/
def oneBasedOf (options : Value) : Attempt Bool := do
  match ← (options.orElse (.object [])).member? "oneBasedIndex" with
  | some value => return value.isTrue
  | none => return true

end Forest

namespace Program

open Forest

/-- The workspace that a description stands for, once its links are found valid. -/
def ofValue (description : Value) : Attempt Program := do
  let nodes ← listMember description "nodes"
  let edges ← listMember description "edges"
  let roots ← Forest.check nodes edges
  let list ← (← nodes.elements).mapM Node.ofValue
  let links ← Link.collect nodes edges
  let options ← description.member "options"
  let userVariables ← (← listMember description "variables").elements
  let developerVariables ← (← listMember description "developerVariables").elements
  let oneBased ← oneBasedOf options
  return ⟨list.length,
    { graph := graph list links, roots := roots.filterMap (indexOf? list), userVariables,
      developerVariables, oneBased }⟩

end Program

end BlockScript
