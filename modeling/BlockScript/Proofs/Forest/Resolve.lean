import BlockScript.Proofs.Conduct.Basic
import BlockScript.Proofs.Forest.Attach

/-! # The graph of a description

Ids may be of any kind and one of them spelled in several ways. What a block is linked to depends on
what ids identify only: a socket holds a block exactly if some link says so, in whatever order links
are given (`Accepted.input?_iff`, `Accepted.next_iff`). The graph of an accepted description has no
cycle (`Accepted.not_cyclic`).
-/

namespace BlockScript

namespace Forest

open Value

variable {nodes : List Node} {links : List Link}

/-- Nodes whose ids identify the same are one node. -/
theorem eq_of_key_eq (distinct : ((nodes.map (·.id)).map key).Nodup) {ref other : Fin nodes.length}
    (same : (nodes.get ref).id.key = (nodes.get other).id.key) : ref = other := by
  apply Fin.ext
  apply distinct.getElem_inj_iff.mp
  · simpa using same
  · simp
  · simp

/-- A link is of a port of the block of an id. -/
def IsAt (id : Value) (port : String) (link : Link) : Prop :=
  id.same link.parent = true ∧ link.port = .text port

/-- A link puts a block at a port of the block of an id. -/
def Puts (nodes : List Node) (links : List Link) (id : Value) (port : String)
    (child : Fin nodes.length) : Prop :=
  ∃ link ∈ links, IsAt id port link ∧ indexOf? nodes link.child = some child

namespace Accepted

variable {roots : List Value} (accepted : Accepted (nodes.map (·.id)) links roots)

include accepted

theorem isAtom (ref : Fin nodes.length) : (nodes.get ref).id.isAtom = true :=
  accepted.nodes _ (List.mem_map_of_mem (List.get_mem nodes ref))

/-- The block of an id is the one of the node whose id identifies the same. -/
theorem index_iff {id : Value} {ref : Fin nodes.length} :
    indexOf? nodes id = some ref ↔ (nodes.get ref).id.key = id.key := by
  have same (other : Fin nodes.length) :
      (nodes.get other).id.same id = true ↔ (nodes.get other).id.key = id.key :=
    (key_eq_key (accepted.isAtom other)).symm
  unfold indexOf?
  rw [List.findFinIdx?_eq_some_iff]
  constructor
  · intro found
    exact (same ref).mp found.1
  · intro isId
    refine ⟨(same ref).mpr isId, fun other before isIdToo => ?_⟩
    apply Fin.ne_of_lt before
    exact eq_of_key_eq accepted.wired.distinct (((same other).mp isIdToo).trans isId.symm)

/-- Every id that identifies a node has a block. -/
theorem exists_index {id : Value} (member : id.key ∈ (nodes.map (·.id)).map key) :
    ∃ ref, indexOf? nodes id = some ref := by
  obtain ⟨_, own, same⟩ := List.mem_map.mp member
  obtain ⟨node, inNodes, rfl⟩ := List.mem_map.mp own
  obtain ⟨position, bound, rfl⟩ := List.getElem_of_mem inNodes
  exact ⟨⟨position, bound⟩, accepted.index_iff.mpr same⟩

/-- Both ends of a link are blocks. -/
theorem exists_ends {link : Link} (given : link ∈ links) :
    (∃ parent, indexOf? nodes link.parent = some parent) ∧
      ∃ child, indexOf? nodes link.child = some child :=
  have ends := accepted.wired.ends link.keyed (List.mem_map_of_mem given)
  ⟨accepted.exists_index ends.1, accepted.exists_index ends.2⟩

theorem attached (ref : Fin nodes.length) :
    Attached nodes links ((graph nodes links).block ref) := by
  apply attached_graph
  · exact fun link given => (accepted.ends link given).2.1
  · exact fun link given other givenToo => accepted.wired.sockets link.keyed
      (List.mem_map_of_mem given) other.keyed (List.mem_map_of_mem givenToo)
  · exact accepted.isAtom ref

/-- The parent of a link is a block exactly if their ids are the same. -/
theorem parent_iff {ref : Fin nodes.length} {id : Value} :
    id.key = ((graph nodes links).block ref).id.key ↔ (nodes.get ref).id.same id = true := by
  rw [id_graph, eq_comm]
  exact key_eq_key (accepted.isAtom ref)

/-- **A block is followed by what a link puts there**, in whatever order links are given. -/
theorem next_iff (ref child : Fin nodes.length) :
    ((graph nodes links).block ref).next = some child ↔
      Puts nodes links (nodes.get ref).id Link.following child := by
  constructor
  · intro next
    obtain ⟨link, given, parent, port, index⟩ := (accepted.attached ref).following child next
    exact ⟨link, given, ⟨accepted.parent_iff.mp parent, isText_iff.mp port⟩, index⟩
  · rintro ⟨link, given, ⟨parent, port⟩, index⟩
    rw [← index]
    exact (accepted.attached ref).followed link given (accepted.parent_iff.mpr parent)
      (isText_iff.mpr port)

/-- **A socket holds what a link puts there**, in whatever order links are given. -/
theorem input?_iff (ref child : Fin nodes.length) (socket : String) :
    ((graph nodes links).block ref).input? socket = some child ↔
      socket ≠ Link.following ∧ Puts nodes links (nodes.get ref).id socket child := by
  unfold Block.input?
  rw [Option.join_eq_some_iff]
  constructor
  · intro held
    obtain ⟨known, member, same⟩ := exists_of_lookup_eq_some held
    obtain ⟨link, given, parent, notNext, entry⟩ := (accepted.attached ref).plugged _ member
    obtain ⟨rfl, index⟩ := Prod.mk.inj entry
    have port := same_text.mp same
    refine ⟨?_, link, given, ⟨accepted.parent_iff.mp parent, port⟩, index.symm⟩
    rintro rfl
    rw [isText_iff.mpr port] at notNext
    cases notNext
  · rintro ⟨isSocket, link, given, ⟨parent, port⟩, index⟩
    rw [← index, ← port]
    apply (accepted.attached ref).found link given (accepted.parent_iff.mpr parent)
    apply eq_false_of_ne_true
    rw [port, isText_iff]
    exact fun isNext => isSocket (text.inj isNext)

/-- The links of the blocks are the links. -/
theorem links_iff {ref child : Fin nodes.length} :
    (graph nodes links).Links ref child ↔
      Linked (links.map Link.keyed) (nodes.get ref).id.key (nodes.get child).id.key := by
  have attached := accepted.attached ref
  rw [← id_graph nodes links ref]
  unfold Graph.Links Block.links
  rw [List.mem_append, List.mem_filterMap, Option.mem_toList]
  constructor
  · rintro (⟨entry, member, held⟩ | next)
    · obtain ⟨link, given, parent, _, rfl⟩ := attached.plugged entry member
      exact ⟨link.keyed, List.mem_map_of_mem given, parent, (accepted.index_iff.mp held).symm⟩
    · obtain ⟨link, given, parent, _, index⟩ := attached.following child next
      exact ⟨link.keyed, List.mem_map_of_mem given, parent, (accepted.index_iff.mp index).symm⟩
  · rintro ⟨_, member, parent, childIs⟩
    obtain ⟨link, given, rfl⟩ := List.mem_map.mp member
    have index : indexOf? nodes link.child = some child := accepted.index_iff.mpr childIs.symm
    cases port : link.port.isText Link.following with
    | true =>
        right
        rw [attached.followed link given parent port]
        exact index
    | false =>
        left
        have found := attached.found link given parent port
        rw [index] at found
        obtain ⟨known, member, _⟩ := exists_of_lookup_eq_some found
        exact ⟨_, member, rfl⟩

/-- **An accepted description has no cycle.** -/
theorem not_cyclic : ¬(graph nodes links).Cyclic := by
  rintro ⟨ref, around⟩
  apply accepted.acyclic (nodes.get ref).id.key
  exact around.lift (fun ref => (nodes.get ref).id.key) fun _ _ => accepted.links_iff.mp

/-! ## Top-level blocks -/

/-- The top-level blocks are those that no link leads to, -/
theorem mem_roots (ref : Fin nodes.length) :
    ref ∈ roots.filterMap (indexOf? nodes) ↔
      Parentless (links.map Link.keyed) (nodes.get ref).id.key := by
  have node : (nodes.get ref).id.key ∈ (nodes.map (·.id)).map key :=
    List.mem_map_of_mem (List.mem_map_of_mem (List.get_mem nodes ref))
  have isRoot : ref ∈ roots.filterMap (indexOf? nodes) ↔ (nodes.get ref).id.key ∈ roots.map key := by
    rw [List.mem_filterMap, List.mem_map]
    simp only [accepted.index_iff, eq_comm]
  rw [isRoot, accepted.top, and_iff_right node]

/-- in the order of the nodes. -/
theorem roots_sublist :
    (roots.filterMap (indexOf? nodes)).Sublist (List.finRange nodes.length) := by
  have index (id : Value) : indexOf? nodes id = nodes.findFinIdx? (·.id.key.same id.key) := by
    unfold indexOf?
    simp only [same_key]
  have onKeys (ids : List Value) : ids.filterMap (indexOf? nodes) =
      (ids.map key).filterMap fun id => nodes.findFinIdx? (·.id.key.same id) := by
    rw [List.filterMap_map]
    exact congrArg (fun find => ids.filterMap find) (funext index)
  have all : (nodes.map (·.id)).filterMap (indexOf? nodes) = List.finRange nodes.length := by
    have ids : nodes.map (·.id) = (List.finRange nodes.length).map fun ref => (nodes.get ref).id :=
      (congrArg (List.map (·.id)) (List.map_get_finRange nodes)).symm.trans List.map_map
    rw [ids, List.filterMap_map]
    have own : indexOf? nodes ∘ (fun ref => (nodes.get ref).id) = some :=
      funext fun ref => accepted.index_iff.mpr rfl
    rw [own, List.filterMap_some]
  rw [← all, onKeys, onKeys]
  exact accepted.sublist.filterMap _

end Accepted

/-! ## Loading -/

/-- The nodes that a description lists. -/
def nodesOf (description : Value) : Attempt (List Value) := do
  (← listMember description "nodes").elements

/-- The edges that a description lists. -/
def edgesOf (description : Value) : Attempt (List Value) := do
  (← listMember description "edges").optionalElements

/-- The nodes of a description, as they are read. -/
def readNodes (description : Value) : Attempt (List Node) := do
  (← nodesOf description).mapM Node.ofValue

/-- The links of a description, on its nodes and apart from them. -/
def readLinks (description : Value) : Attempt (List Link) := do
  Link.collect (← listMember description "nodes") (← listMember description "edges")

/-- Variables that a description lists under a name. -/
def readVariables (description : Value) (name : String) : Attempt (List Value) := do
  (← listMember description name).elements

theorem select_of_ofValue {value : Value} {node : Node} (read : Node.ofValue value = .ok node) :
    value.select "id" = .ok node.id := by
  obtain ⟨id, selected, rest⟩ := Attempt.bind_eq_ok.mp read
  obtain ⟨kind, _, rest⟩ := Attempt.bind_eq_ok.mp rest
  obtain ⟨_, _, rest⟩ := Attempt.bind_eq_ok.mp rest
  obtain ⟨fields, _, rest⟩ := Attempt.bind_eq_ok.mp rest
  obtain ⟨_, _, rest⟩ := Attempt.bind_eq_ok.mp rest
  obtain ⟨mutation, _, done⟩ := Attempt.bind_eq_ok.mp rest
  cases done
  exact selected

theorem mapM_select_of_ofValue {values : List Value} (read : values.mapM Node.ofValue = .ok nodes) :
    values.mapM (·.select "id") = .ok (nodes.map (·.id)) := by
  rw [Attempt.mapM_eq_ok] at read ⊢
  rw [List.forall₂_map_right_iff]
  exact read.imp fun _ _ => select_of_ofValue

theorem exists_optionalElements {listing apart : Value}
    (collected : Link.collect listing apart = .ok links) :
    ∃ edges, apart.optionalElements = .ok edges := by
  obtain ⟨_, _, rest⟩ := Attempt.bind_eq_ok.mp collected
  obtain ⟨_, _, rest⟩ := Attempt.bind_eq_ok.mp rest
  obtain ⟨edges, read, _⟩ := Attempt.bind_eq_ok.mp rest
  exact ⟨edges, read⟩

/-- Links are collected from what is listed, however the lists are given, -/
theorem collect_congr {listing apart : Value} {values edges : List Value}
    (elements : listing.elements = .ok values) (edgesRead : apart.optionalElements = .ok edges) :
    Link.collect listing apart = Link.collect (.list values) (.list edges) := by
  unfold Link.collect
  rw [elements, edgesRead, Link.optionalElements_list]
  rfl

/-- and so are they checked. -/
theorem check_congr {listing apart : Value} {values edges : List Value}
    (elements : listing.elements = .ok values) (edgesRead : apart.optionalElements = .ok edges) :
    check listing apart = check (.list values) (.list edges) := by
  unfold check entries
  rw [collect_congr elements edgesRead, elements]
  rfl

/-- The links of a description are collected from what it lists. -/
theorem exists_edges_of_readLinks {description : Value} {values : List Value}
    (listed : nodesOf description = .ok values) (read : readLinks description = .ok links) :
    ∃ edges, edgesOf description = .ok edges ∧
      Link.collect (.list values) (.list edges) = .ok links := by
  obtain ⟨listing, listingRead, elements⟩ := Attempt.bind_eq_ok.mp listed
  obtain ⟨_, again, read⟩ := Attempt.bind_eq_ok.mp read
  cases listingRead.symm.trans again
  obtain ⟨apart, apartRead, collected⟩ := Attempt.bind_eq_ok.mp read
  obtain ⟨edges, edgesRead⟩ := exists_optionalElements collected
  rw [collect_congr elements edgesRead] at collected
  exact ⟨edges, Attempt.bind_eq_ok.mpr ⟨apart, apartRead, edgesRead⟩, collected⟩

end Forest

namespace Program

open Forest

/-- **What is loaded.** The nodes and the links of an accepted description make the graph, whatever
the ids are. -/
theorem ofValue_accepted {description : Value} {program : Program}
    (loaded : ofValue description = .ok program) :
    ∃ nodes links roots userVariables developerVariables options oneBased,
      readNodes description = .ok nodes ∧ readLinks description = .ok links ∧
      Accepted (nodes.map (·.id)) links roots ∧
      readVariables description "variables" = .ok userVariables ∧
      readVariables description "developerVariables" = .ok developerVariables ∧
      description.member "options" = .ok options ∧ oneBasedOf options = .ok oneBased ∧
      program = ⟨nodes.length, graph nodes links, roots.filterMap (indexOf? nodes), userVariables,
        developerVariables, oneBased⟩ := by
  obtain ⟨listing, listingRead, loaded⟩ := Attempt.bind_eq_ok.mp loaded
  obtain ⟨apart, apartRead, loaded⟩ := Attempt.bind_eq_ok.mp loaded
  obtain ⟨roots, accepted, loaded⟩ := Attempt.bind_eq_ok.mp loaded
  obtain ⟨values, elements, loaded⟩ := Attempt.bind_eq_ok.mp loaded
  obtain ⟨nodes, nodesRead, loaded⟩ := Attempt.bind_eq_ok.mp loaded
  obtain ⟨links, collected, loaded⟩ := Attempt.bind_eq_ok.mp loaded
  obtain ⟨edges, edgesRead⟩ := exists_optionalElements collected
  obtain ⟨options, optionsRead, loaded⟩ := Attempt.bind_eq_ok.mp loaded
  obtain ⟨user, userRead, loaded⟩ := Attempt.bind_eq_ok.mp loaded
  obtain ⟨userVariables, userElements, loaded⟩ := Attempt.bind_eq_ok.mp loaded
  obtain ⟨developer, developerRead, loaded⟩ := Attempt.bind_eq_ok.mp loaded
  obtain ⟨developerVariables, developerElements, loaded⟩ := Attempt.bind_eq_ok.mp loaded
  obtain ⟨oneBased, oneBasedRead, done⟩ := Attempt.bind_eq_ok.mp loaded
  have linksRead : readLinks description = .ok links := by
    unfold readLinks
    rw [listingRead, apartRead]
    exact collected
  rw [check_congr elements edgesRead] at accepted
  rw [collect_congr elements edgesRead] at collected
  exact ⟨nodes, links, roots, userVariables, developerVariables, options, oneBased,
    Attempt.bind_eq_ok.mpr ⟨values, Attempt.bind_eq_ok.mpr ⟨listing, listingRead, elements⟩,
      nodesRead⟩,
    linksRead, accepted_of_check (mapM_select_of_ofValue nodesRead) collected accepted,
    Attempt.bind_eq_ok.mpr ⟨user, userRead, userElements⟩,
    Attempt.bind_eq_ok.mpr ⟨developer, developerRead, developerElements⟩,
    optionsRead, oneBasedRead, (Except.ok.inj done).symm⟩

end Program

end BlockScript
