import BlockScript.Forest.Link

/-! # The forest of sockets

A description is valid when its links make a forest: ids are present and distinct, both ends of
every link are nodes, no socket holds two blocks, no block is plugged into two sockets, and no block
reaches itself. `Forest.check` decides this and gives the top-level blocks.
-/

namespace BlockScript

namespace Forest

/-- A node with the children linked to it and the number of links it is a child of. -/
structure Entry where
  id : Value
  children : List Value
  parents : Nat

/-- Adds a node without links, unless there is one of that id. -/
def addNode (entries : List Entry) (id : Value) : Attempt (List Entry) := do
  id.atom
  if entries.any (·.id.same id) then return entries else return entries ++ [⟨id, [], 0⟩]

/-- Whether there is a node of an id. -/
def hasNode (entries : List Entry) (id : Value) : Attempt Bool := do
  id.atom
  return entries.any (·.id.same id)

/-- Counts a link on the entries of its two ends. -/
def count (entries : List Entry) (link : Link) : List Entry :=
  entries.map fun entry =>
    let entry :=
      if entry.id.same link.parent then { entry with children := entry.children ++ [link.child] }
      else entry
    if entry.id.same link.child then { entry with parents := entry.parents + 1 } else entry

/-- The child that the socket of a link already holds. -/
def holder? (link : Link) : List Link → Option Value
  | [] => none
  | other :: rest =>
      if other.parent.same link.parent && other.port.same link.port then some other.child
      else holder? link rest

/-- Counts links one after the other. The same link may be given again; `counted` has the links
counted so far, the latest first. -/
def countAll : List Entry → List Link → List Link → Attempt (List Entry)
  | entries, _, [] => .ok entries
  | entries, counted, link :: rest => do
      unless ← hasNode entries link.parent do reject (.linkFromNowhere link.parent)
      unless ← hasNode entries link.child do
        reject (.linkToNowhere link.parent link.port link.child)
      link.port.atom
      match holder? link counted with
      | some held =>
          if held.equals link.child then countAll entries counted rest
          else reject (.crowdedSocket link.parent link.port held link.child)
      | none => countAll (count entries link) (link :: counted) rest

/-- The nodes of a description with their links counted. -/
def entries (nodes edges : Value) : Attempt (List Entry) := do
  let ids ← (← nodes.elements).mapM (·.select "id")
  let bare ← ids.foldlM addNode []
  countAll bare [] (← Link.collect nodes edges)

/-- Checks that every node has an id of its own, given the ids of all nodes. -/
def checkIds (ids : List Value) : List Value → Attempt Unit
  | [] => .ok ()
  | node :: rest => do
      let id ← node.member "id"
      unless id.isTrue do reject (.missingId (← node.member "type"))
      if 1 < ids.countP (·.same id) then reject (.repeatedId id)
      checkIds ids rest

/-- Checks that no node is a child of two links. -/
def checkParents : List Entry → Attempt Unit
  | [] => .ok ()
  | entry :: rest => do
      if 1 < entry.parents then reject (.sharedBlock entry.id entry.parents)
      checkParents rest

/-- The ids of the nodes without a parent, in order. -/
def rootsOf (entries : List Entry) : List Value :=
  (entries.filter (·.parents == 0)).map (·.id)

/-- Takes one parent from a node: the entries, and whether it has none left. -/
def release (id : Value) : List Entry → List Entry × Bool
  | [] => ([], false)
  | entry :: rest =>
      if entry.id.same id then
        ({ entry with parents := entry.parents - 1 } :: rest, entry.parents == 1)
      else
        let (rest, free) := release id rest
        (entry :: rest, free)

/-- Takes one parent from each of some nodes, queueing those that have none left. -/
def releaseAll : List Value → List Entry → List Value → List Entry × List Value
  | [], entries, queue => (entries, queue)
  | id :: rest, entries, queue =>
      let (entries, free) := release id entries
      releaseAll rest entries (if free then queue ++ [id] else queue)

/-- The children of a node. -/
def childrenOf (entries : List Entry) (id : Value) : List Value :=
  match entries.find? (·.id.same id) with
  | some entry => entry.children
  | none => []

/-- Settles the queued nodes, each after its parents, as long as there are any: the entries with the
parents that remain, and the number of nodes settled. No node is queued twice, so as many steps as
there are nodes suffice. -/
def settle : Nat → List Entry → List Value → List Entry × Nat
  | 0, entries, _ => (entries, 0)
  | _ + 1, entries, [] => (entries, 0)
  | steps + 1, entries, id :: queue =>
      let (entries, queue) := releaseAll (childrenOf entries id) entries queue
      let (entries, settled) := settle steps entries queue
      (entries, settled + 1)

/-- Checks that a description is a forest, and gives the ids of its top-level blocks in order. -/
def check (nodes edges : Value) : Attempt (List Value) := do
  let list ← nodes.elements
  let ids ← list.mapM (·.member "id")
  checkIds ids list
  let entries ← entries nodes edges
  checkParents entries
  let roots := rootsOf entries
  let (remaining, settled) := settle entries.length entries roots
  if settled = list.length then return roots
  else
    let cycle ← Value.inOrder ((remaining.filter (0 < ·.parents)).map (·.id))
    reject (.cycle cycle)

end Forest

end BlockScript
