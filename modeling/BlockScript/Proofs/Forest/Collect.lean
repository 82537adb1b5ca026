import BlockScript.Proofs.Contract
import BlockScript.Proofs.Forest.Basic

/-! # The links that a description gives

The links that are collected are those that a node gives for a socket or for what follows it, and
those that edges stand for (`Link.mem_collect`). Collecting them fails for no description whose
nodes and edges are of the shape they should have (`Link.exists_collect`).
-/

namespace BlockScript

namespace Attempt

variable {α β : Type}

/-- A list of steps succeeds when each of them does. -/
theorem mapM_eq_ok {step : α → Attempt β} {list : List α} {results : List β} :
    list.mapM step = .ok results ↔
      List.Forall₂ (fun element result => step element = .ok result) list results := by
  induction list generalizing results with
  | nil =>
      rw [List.mapM_nil, List.forall₂_nil_left_iff]
      exact ⟨fun done => (Except.ok.inj done).symm, fun none => none ▸ rfl⟩
  | cons element rest ih =>
      rw [List.mapM_cons, bind_eq_ok, List.forall₂_cons_left_iff]
      constructor
      · rintro ⟨result, first, others⟩
        obtain ⟨more, later, done⟩ := bind_eq_ok.mp others
        exact ⟨result, more, first, ih.mp later, (Except.ok.inj done).symm⟩
      · rintro ⟨result, more, first, later, rfl⟩
        exact ⟨result, first, bind_eq_ok.mpr ⟨more, ih.mpr later, rfl⟩⟩

/-- The results of a list are those of its elements. -/
theorem mem_mapM {step : α → Attempt β} {list : List α} {results : List β}
    (done : list.mapM step = .ok results) {result : β} :
    result ∈ results ↔ ∃ element ∈ list, step element = .ok result := by
  have each := mapM_eq_ok.mp done
  clear done
  induction each with
  | nil => simp only [List.not_mem_nil, false_and, exists_false]
  | cons first _ ih =>
      rw [List.mem_cons, List.exists_mem_cons_iff, first, Except.ok.injEq]
      exact or_congr eq_comm ih

/-- Every element of a list that comes to results has one of its own. -/
theorem exists_of_mapM {step : α → Attempt β} {list : List α} {results : List β}
    (done : list.mapM step = .ok results) :
    ∀ element ∈ list, ∃ result ∈ results, step element = .ok result := by
  have each := mapM_eq_ok.mp done
  clear done
  induction each with
  | nil => exact fun _ member => nomatch member
  | cons first _ ih =>
      intro element member
      rcases List.mem_cons.mp member with rfl | later
      · exact ⟨_, List.mem_cons_self .., first⟩
      · obtain ⟨result, found, same⟩ := ih element later
        exact ⟨result, List.mem_cons_of_mem _ found, same⟩

/-- A list comes to results if its elements do. -/
theorem exists_mapM_eq_ok {step : α → Attempt β} {list : List α}
    (each : ∀ element ∈ list, ∃ result, step element = .ok result) :
    ∃ results, list.mapM step = .ok results := by
  induction list with
  | nil => exact ⟨[], rfl⟩
  | cons element rest ih =>
      obtain ⟨result, first⟩ := each element (List.mem_cons_self ..)
      obtain ⟨more, later⟩ := ih fun other member => each other (List.mem_cons_of_mem _ member)
      exact ⟨result :: more, by rw [List.mapM_cons, first, later]; rfl⟩

end Attempt

namespace Forest

/-- The sockets of a node with what is given for them. -/
def inputsOf (node : Value) : Attempt (Table Value) := do (← node.member "inputs").optionalMembers

/-- A node has a text as its id, and texts for the blocks in its sockets and the one that follows;
what does not count as true stands for none. -/
structure IsNode (node : Value) : Prop where
  id : ∃ name, node.select "id" = .ok (.text name)
  inputs : ∃ table, inputsOf node = .ok table ∧
    ∀ entry ∈ table, entry.2.isTrue = true → entry.2.isSomeText = true
  next : ∃ child, node.member "next" = .ok child ∧
    (child.isTrue = true → child.isSomeText = true)

/-- An edge has texts for the blocks it links, and a port that can identify a socket. -/
structure IsEdge (edge : Value) : Prop where
  parent : ∃ name, edge.member "to" = .ok (.text name)
  child : ∃ name, edge.member "from" = .ok (.text name)
  port : ∃ port, edge.member "toPort" = .ok port ∧
    (port.isTrue = true → port.isAtom = true)

end Forest

namespace Link

open Forest

/-- The links that a node gives. -/
inductive OnNode (node : Value) : Link → Prop
  | socket {id child : Value} {table : Table Value} {port : String} :
      node.select "id" = .ok id → inputsOf node = .ok table → (port, child) ∈ table →
        child.isTrue = true → OnNode node ⟨id, .text port, child⟩
  | next {id child : Value} :
      node.select "id" = .ok id → node.member "next" = .ok child → child.isTrue = true →
        OnNode node ⟨id, .text following, child⟩

/-- The link that an edge stands for. Without a port it is the one to the block that follows. -/
inductive OfEdge (edge : Value) : Link → Prop
  | edge {parent port child : Value} :
      edge.member "to" = .ok parent → edge.member "toPort" = .ok port →
        edge.member "from" = .ok child →
          OfEdge edge ⟨parent, port.orElse (.text following), child⟩

/-- A link is given by a node or by an edge. -/
def Given (nodes edges : List Value) (link : Link) : Prop :=
  (∃ node ∈ nodes, OnNode node link) ∨ ∃ edge ∈ edges, OfEdge edge link

/-- The links of sockets are those to children that are there. -/
theorem ofInputs_eq {node id : Value} (identified : node.select "id" = .ok id)
    (table : Table Value) :
    ofInputs node table =
      .ok ((table.filter (·.2.isTrue)).map fun entry => ⟨id, .text entry.1, entry.2⟩) := by
  induction table with
  | nil => rfl
  | cons entry rest ih =>
      obtain ⟨port, child⟩ := entry
      unfold ofInputs
      rw [ih, identified, List.filter_cons]
      split <;> rfl

/-- The link to what follows is there if the child is. -/
theorem ofNext_eq {node id child : Value} (identified : node.select "id" = .ok id)
    (read : node.member "next" = .ok child) :
    ofNext node = .ok (if child.isTrue then [⟨id, .text following, child⟩] else []) := by
  unfold ofNext
  rw [read, identified]
  change (if child.isTrue = true then Except.ok [_] else Except.ok []) = _
  split <;> rfl

/-- The links of a node are those of its sockets and the one to what follows. -/
theorem ofNode_eq {node id child : Value} {table : Table Value}
    (identified : node.select "id" = .ok id) (tableRead : inputsOf node = .ok table)
    (nextRead : node.member "next" = .ok child) :
    ofNode node =
      .ok (((table.filter (·.2.isTrue)).map fun entry => ⟨id, .text entry.1, entry.2⟩) ++
        if child.isTrue then [⟨id, .text following, child⟩] else []) := by
  obtain ⟨inputs, inputsRead, membersRead⟩ := Attempt.bind_eq_ok.mp tableRead
  unfold ofNode
  rw [inputsRead, ofNext_eq identified nextRead]
  refine Attempt.bind_eq_ok.mpr ⟨_, rfl, Attempt.bind_eq_ok.mpr ⟨_, membersRead, ?_⟩⟩
  rw [ofInputs_eq identified]
  rfl

/-- The links on a node are those it gives. -/
theorem mem_ofNode {node id : Value} {links : List Link} (identified : node.select "id" = .ok id)
    (read : ofNode node = .ok links) (link : Link) : link ∈ links ↔ OnNode node link := by
  obtain ⟨inputs, inputsRead, rest⟩ := Attempt.bind_eq_ok.mp read
  obtain ⟨table, membersRead, rest⟩ := Attempt.bind_eq_ok.mp rest
  obtain ⟨plugged, _, rest⟩ := Attempt.bind_eq_ok.mp rest
  obtain ⟨after, nextLinks, _⟩ := Attempt.bind_eq_ok.mp rest
  obtain ⟨child, nextRead, _⟩ := Attempt.bind_eq_ok.mp nextLinks
  have tableRead : inputsOf node = .ok table := Attempt.bind_eq_ok.mpr ⟨_, inputsRead, membersRead⟩
  rw [ofNode_eq identified tableRead nextRead] at read
  rw [← Except.ok.inj read, List.mem_append, List.mem_map]
  constructor
  · rintro (⟨entry, member, rfl⟩ | member)
    · obtain ⟨inTable, truth⟩ := List.mem_filter.mp member
      exact .socket identified tableRead inTable truth
    · split at member
      · rename_i truth
        rw [List.mem_singleton.mp member]
        exact .next identified nextRead truth
      · cases member
  · intro given
    cases given with
    | socket idRead inputsAre member truth =>
        rw [identified] at idRead
        rw [tableRead] at inputsAre
        cases idRead
        cases inputsAre
        exact .inl ⟨_, List.mem_filter.mpr ⟨member, truth⟩, rfl⟩
    | next idRead nextIs truth =>
        rw [identified] at idRead
        rw [nextRead] at nextIs
        cases idRead
        cases nextIs
        rw [if_pos truth]
        exact .inr (List.mem_singleton_self _)

/-- An edge is read as the link that it gives. -/
theorem ofEdge_eq_ok {edge : Value} {link : Link} : ofEdge edge = .ok link ↔ OfEdge edge link := by
  constructor
  · intro read
    obtain ⟨parent, parentRead, rest⟩ := Attempt.bind_eq_ok.mp read
    obtain ⟨port, portRead, rest⟩ := Attempt.bind_eq_ok.mp rest
    obtain ⟨child, childRead, done⟩ := Attempt.bind_eq_ok.mp rest
    cases done
    exact .edge parentRead portRead childRead
  · rintro ⟨parentRead, portRead, childRead⟩
    unfold ofEdge
    rw [parentRead, portRead, childRead]
    rfl

theorem optionalElements_list (items : List Value) :
    (Value.list items).optionalElements = .ok items := by
  cases items with
  | nil => rfl
  | cons => rfl

/-- The links are collected from the nodes first, and then from the edges. -/
theorem collect_eq_ok {nodes edges : List Value} {links : List Link} :
    collect (.list nodes) (.list edges) = .ok links ↔
      ∃ onNodes apart, nodes.mapM ofNode = .ok onNodes ∧ edges.mapM ofEdge = .ok apart ∧
        onNodes.flatten ++ apart = links := by
  unfold collect
  rw [optionalElements_list]
  change (do
    let onNodes ← nodes.mapM ofNode
    let apart ← edges.mapM ofEdge
    return onNodes.flatten ++ apart) = .ok links ↔ _
  constructor
  · intro collected
    obtain ⟨onNodes, nodesRead, rest⟩ := Attempt.bind_eq_ok.mp collected
    obtain ⟨apart, edgesRead, done⟩ := Attempt.bind_eq_ok.mp rest
    exact ⟨onNodes, apart, nodesRead, edgesRead, Except.ok.inj done⟩
  · rintro ⟨onNodes, apart, nodesRead, edgesRead, rfl⟩
    exact Attempt.bind_eq_ok.mpr ⟨_, nodesRead, Attempt.bind_eq_ok.mpr ⟨_, edgesRead, rfl⟩⟩

/-- **The collected links are those that are given.** -/
theorem mem_collect {nodes edges ids : List Value} {links : List Link}
    (identified : nodes.mapM (·.select "id") = .ok ids)
    (collected : collect (.list nodes) (.list edges) = .ok links) (link : Link) :
    link ∈ links ↔ Given nodes edges link := by
  obtain ⟨onNodes, apart, nodesRead, edgesRead, rfl⟩ := collect_eq_ok.mp collected
  rw [List.mem_append, List.mem_flatten]
  apply or_congr
  · constructor
    · rintro ⟨own, read, member⟩
      obtain ⟨node, inNodes, done⟩ := (Attempt.mem_mapM nodesRead).mp read
      obtain ⟨id, _, select⟩ := Attempt.exists_of_mapM identified node inNodes
      exact ⟨node, inNodes, (mem_ofNode select done link).mp member⟩
    · rintro ⟨node, inNodes, given⟩
      obtain ⟨id, _, select⟩ := Attempt.exists_of_mapM identified node inNodes
      obtain ⟨own, read, done⟩ := Attempt.exists_of_mapM nodesRead node inNodes
      exact ⟨own, read, (mem_ofNode select done link).mpr given⟩
  · simp only [Attempt.mem_mapM edgesRead, ofEdge_eq_ok]

/-- Links are collected from nodes and edges of the right shape, between texts and at sockets that
can be identified. -/
theorem exists_collect {nodes edges : List Value} (nodesFit : ∀ node ∈ nodes, IsNode node)
    (edgesFit : ∀ edge ∈ edges, IsEdge edge) :
    ∃ links, collect (.list nodes) (.list edges) = .ok links := by
  have nodesRead : ∃ onNodes, nodes.mapM ofNode = .ok onNodes := by
    apply Attempt.exists_mapM_eq_ok
    intro node member
    obtain ⟨⟨_, identified⟩, ⟨_, tableRead, _⟩, ⟨_, nextRead, _⟩⟩ := nodesFit node member
    exact ⟨_, ofNode_eq identified tableRead nextRead⟩
  have edgesRead : ∃ apart, edges.mapM ofEdge = .ok apart := by
    apply Attempt.exists_mapM_eq_ok
    intro edge member
    obtain ⟨⟨_, parentRead⟩, ⟨_, childRead⟩, ⟨_, portRead, _⟩⟩ := edgesFit edge member
    exact ⟨_, ofEdge_eq_ok.mpr (.edge parentRead portRead childRead)⟩
  obtain ⟨onNodes, nodesRead⟩ := nodesRead
  obtain ⟨apart, edgesRead⟩ := edgesRead
  exact ⟨_, collect_eq_ok.mpr ⟨onNodes, apart, nodesRead, edgesRead, rfl⟩⟩

/-- A link between texts at a socket that can be identified. -/
structure IsPlain (link : Link) : Prop where
  parent : link.parent.isSomeText = true
  child : link.child.isSomeText = true
  port : link.port.isAtom = true

/-- The links that plain nodes and edges give are plain. -/
theorem isPlain_of_given {nodes edges : List Value} (nodesFit : ∀ node ∈ nodes, IsNode node)
    (edgesFit : ∀ edge ∈ edges, IsEdge edge) {link : Link} (given : Given nodes edges link) :
    link.IsPlain := by
  rcases given with ⟨node, member, given⟩ | ⟨edge, member, given⟩
  · obtain ⟨⟨_, identified⟩, ⟨table, tableRead, childrenFit⟩, ⟨next, nextRead, nextFits⟩⟩ :=
      nodesFit node member
    cases given with
    | socket idRead inputsRead inTable truth =>
        rw [identified] at idRead
        rw [tableRead] at inputsRead
        cases idRead
        cases inputsRead
        exact ⟨rfl, childrenFit _ inTable truth, rfl⟩
    | next idRead nextIs truth =>
        rw [identified] at idRead
        rw [nextRead] at nextIs
        cases idRead
        cases nextIs
        exact ⟨rfl, nextFits truth, rfl⟩
  · obtain ⟨⟨_, parentRead⟩, ⟨_, childRead⟩, ⟨port, portRead, portFits⟩⟩ := edgesFit edge member
    obtain ⟨parentIs, portIs, childIs⟩ := given
    rw [parentRead] at parentIs
    rw [portRead] at portIs
    rw [childRead] at childIs
    cases parentIs
    cases portIs
    cases childIs
    refine ⟨rfl, rfl, ?_⟩
    unfold Value.orElse
    split
    · rename_i truth
      exact portFits truth
    · rfl

end Link

end BlockScript
