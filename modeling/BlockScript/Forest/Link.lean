import BlockScript.Value.Access

/-! # Links of a description

A description lists its blocks as nodes. Links stand on the parent's node, by socket or as the block
that follows, or apart from the nodes as edges. All are collected as one list.
-/

namespace BlockScript

/-- A link: a child plugged into a port of its parent. -/
structure Link where
  parent : Value
  port : Value
  child : Value

namespace Link

/-- The port of the block that follows. -/
def following : String := "next"

/-- The links of a node's sockets. A child that counts as false is no link. -/
def ofInputs (node : Value) : Table Value → Attempt (List Link)
  | [] => .ok []
  | (port, child) :: rest => do
      if child.isTrue then
        let id ← node.select "id"
        return ⟨id, .text port, child⟩ :: (← ofInputs node rest)
      else ofInputs node rest

/-- The link to the block that follows a node, if there is one. -/
def ofNext (node : Value) : Attempt (List Link) := do
  let child ← node.member "next"
  if child.isTrue then return [⟨← node.select "id", .text following, child⟩] else return []

/-- The links on a node. -/
def ofNode (node : Value) : Attempt (List Link) := do
  let plugged ← ofInputs node (← (← node.member "inputs").optionalMembers)
  return plugged ++ (← ofNext node)

/-- The link that an edge stands for. -/
def ofEdge (edge : Value) : Attempt Link := do
  let parent ← edge.member "to"
  let port ← edge.member "toPort"
  return ⟨parent, port.orElse (.text following), ← edge.member "from"⟩

/-- All links: those on the nodes, in order, and then the edges. -/
def collect (nodes edges : Value) : Attempt (List Link) := do
  let onNodes ← (← nodes.elements).mapM ofNode
  let apart ← (← edges.optionalElements).mapM ofEdge
  return onNodes.flatten ++ apart

end Link

end BlockScript
