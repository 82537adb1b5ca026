import BlockScript.Proofs.Forest.Resolve
import BlockScript.Proofs.Walk

/-! # Loading loses nothing

The walk from the top-level blocks of an accepted description meets each block once
(`Forest.Accepted.allBlocks_perm`). When its ids are texts, its workspace has a block for every
node, linked as the description says (`Program.ofValue_mirrors`).
-/

namespace BlockScript

namespace Forest

open Value

variable {nodes : List Node} {links : List Link} {roots : List Value}

namespace Accepted

variable (accepted : Accepted (nodes.map (·.id)) links roots)

include accepted

/-- Links lead from block to block as they lead from id to id. -/
theorem exists_leads {ref : Fin nodes.length} {id : Value}
    (leads : Relation.ReflTransGen (Linked (links.map Link.keyed)) (nodes.get ref).id.key id) :
    ∃ other, (nodes.get other).id.key = id ∧
      Relation.ReflTransGen (graph nodes links).Links ref other := by
  induction leads with
  | refl => exact ⟨ref, rfl, .refl⟩
  | tail _ linked ih =>
      obtain ⟨before, rfl, leads⟩ := ih
      obtain ⟨_, member, parent, rfl⟩ := linked
      obtain ⟨link, given, rfl⟩ := List.mem_map.mp member
      obtain ⟨child, index⟩ := (accepted.exists_ends given).2
      have childIs := accepted.index_iff.mp index
      have onwards := accepted.links_iff.mpr ⟨link.keyed, member, parent, childIs.symm⟩
      exact ⟨child, childIs, leads.tail onwards⟩

/-- Nothing but itself leads to a block without a parent. -/
theorem eq_of_leads {root other : Fin nodes.length}
    (top : Parentless (links.map Link.keyed) (nodes.get root).id.key)
    (leads : Relation.ReflTransGen (graph nodes links).Links other root) : root = other := by
  rcases leads.cases_tail with same | ⟨_, _, linked⟩
  · exact same
  · obtain ⟨link, given, _, child⟩ := accepted.links_iff.mp linked
    exact (top link given child).elim

/-- A block that two top-level blocks lead to would have two parents. -/
theorem root_unique {root other ref : Fin nodes.length}
    (top : Parentless (links.map Link.keyed) (nodes.get root).id.key)
    (otherTop : Parentless (links.map Link.keyed) (nodes.get other).id.key)
    (leads : Relation.ReflTransGen (graph nodes links).Links root ref)
    (otherLeads : Relation.ReflTransGen (graph nodes links).Links other ref) : root = other := by
  have unique : Relator.RightUnique (Function.swap (graph nodes links).Links) := by
    intro child parent second linked linkedToo
    apply eq_of_key_eq accepted.wired.distinct
    exact accepted.wired.parent_unique (accepted.links_iff.mp linked)
      (accepted.links_iff.mp linkedToo)
  -- Going up from the block, one of the two comes before the other.
  rcases Relation.ReflTransGen.total_of_right_unique unique (Relation.reflTransGen_swap.mpr leads)
    (Relation.reflTransGen_swap.mpr otherLeads) with up | up
  · exact accepted.eq_of_leads top (Relation.reflTransGen_swap.mp up)
  · exact (accepted.eq_of_leads otherTop (Relation.reflTransGen_swap.mp up)).symm

/-- **Each block is met once.** -/
theorem allBlocks_perm {workspace : Workspace nodes.length}
    (sameGraph : workspace.graph = graph nodes links)
    (sameRoots : workspace.roots = roots.filterMap (indexOf? nodes)) :
    workspace.allBlocks.Perm (List.finRange nodes.length) := by
  unfold Workspace.allBlocks
  rw [sameGraph, sameRoots]
  apply (List.perm_ext_iff_of_nodup ?_ (List.nodup_finRange _)).mpr
  · intro ref
    refine iff_of_true ?_ (List.mem_finRange ref)
    have node : (nodes.get ref).id.key ∈ (nodes.map (·.id)).map key :=
      List.mem_map_of_mem (List.mem_map_of_mem (List.get_mem nodes ref))
    obtain ⟨_, member, parentless, leads⟩ :=
      accepted.wired.acyclic_iff.mp accepted.acyclic _ node
    obtain ⟨id, _, rfl⟩ := List.mem_map.mp member
    obtain ⟨root, index⟩ := accepted.exists_index member
    rw [← accepted.index_iff.mp index] at parentless leads
    obtain ⟨other, same, leads⟩ := accepted.exists_leads leads
    rw [eq_of_key_eq accepted.wired.distinct same] at leads
    exact List.mem_flatMap.mpr
      ⟨root, (accepted.mem_roots root).mpr parentless, Graph.mem_descendants.mpr leads⟩
  · refine List.nodup_flatMap.mpr ⟨fun root _ => Graph.nodup_descendants _ root, ?_⟩
    apply (accepted.roots_sublist.nodup (List.nodup_finRange _)).imp_of_mem
    intro root other member memberToo different ref met metToo
    apply different
    exact accepted.root_unique ((accepted.mem_roots root).mp member)
      ((accepted.mem_roots other).mp memberToo) (Graph.mem_descendants.mp met)
      (Graph.mem_descendants.mp metToo)

end Accepted

/-- A workspace has a block for each of some nodes, met once from its top-level blocks, with the
links that are given. -/
structure Mirrors (nodes : List Node) (links : List Link) (workspace : Workspace nodes.length) :
    Prop where
  /-- Every block is the one of its node, and no two have one id. -/
  blocks : ∀ ref, Node.ofBlock (workspace.graph.block ref) = nodes.get ref
  distinct : (nodes.map (·.id)).Nodup
  allBlocks : workspace.allBlocks.Perm (List.finRange nodes.length)
  /-- Whatever is in a socket is linked there, -/
  inputs : ∀ ref port held, (port, held) ∈ (workspace.graph.block ref).inputs →
    ∃ child, held = some child ∧ port ≠ .text Link.following ∧
      ⟨(workspace.graph.block ref).id, port, (workspace.graph.block child).id⟩ ∈ links
  /-- what is linked is in its socket, -/
  plugged : ∀ link ∈ links, link.port ≠ .text Link.following →
    ∃ ref child, (workspace.graph.block ref).id = link.parent ∧
      (workspace.graph.block child).id = link.child ∧
      Value.lookup link.port (workspace.graph.block ref).inputs = some (some child)
  /-- and no socket is there twice. -/
  sockets : ∀ ref, (workspace.graph.block ref).inputs.Pairwise
    fun entry other => entry.1.same other.1 = false
  next : ∀ ref child, (workspace.graph.block ref).next = some child ↔
    ⟨(workspace.graph.block ref).id, .text Link.following,
      (workspace.graph.block child).id⟩ ∈ links
  /-- The top-level blocks are those without a parent, in the order of the nodes. -/
  ordered : workspace.roots.Sublist (List.finRange nodes.length)
  roots : ∀ ref, ref ∈ workspace.roots ↔ Parentless links (workspace.graph.block ref).id

/-- A block without a parent is one whose text no link leads to. -/
theorem parentless_keyed {id : Value} (text : id.isSomeText = true) :
    Parentless (links.map Link.keyed) id.key ↔ Parentless links id := by
  constructor
  · exact fun top link given child =>
      top link.keyed (List.mem_map_of_mem given) (congrArg key child)
  · intro top _ member child
    obtain ⟨link, given, rfl⟩ := List.mem_map.mp member
    exact top link given ((key_eq_key_of_isSomeText text).mp child.symm).symm

theorem Accepted.mirrors (accepted : Accepted (nodes.map (·.id)) links roots)
    (texts : ∀ id ∈ nodes.map (·.id), id.isSomeText = true) {workspace : Workspace nodes.length}
    (sameGraph : workspace.graph = graph nodes links)
    (sameRoots : workspace.roots = roots.filterMap (indexOf? nodes)) :
    Mirrors nodes links workspace := by
  have isId (ref : Fin nodes.length) {id : Value} :
      ((graph nodes links).block ref).id.key = id.key ↔ ((graph nodes links).block ref).id = id := by
    rw [id_graph]
    exact key_eq_key_of_isSomeText (texts _ (List.mem_map_of_mem (List.get_mem nodes ref)))
  have index {ref : Fin nodes.length} {id : Value} :
      indexOf? nodes id = some ref ↔ ((graph nodes links).block ref).id = id := by
    rw [accepted.index_iff, ← id_graph nodes links, isId]
  constructor
  · intro ref
    rw [sameGraph]
    exact ofBlock_graph nodes links ref
  · exact accepted.wired.distinct.of_map key
  · exact accepted.allBlocks_perm sameGraph sameRoots
  · rw [sameGraph]
    intro ref port held member
    obtain ⟨link, given, parent, notNext, entry⟩ := (accepted.attached ref).plugged _ member
    obtain ⟨child, held⟩ := (accepted.exists_ends given).2
    cases entry
    refine ⟨child, held, ?_, ?_⟩
    · intro isNext
      rw [isText_iff.mpr isNext] at notNext
      cases notNext
    · rw [index.mp held, (isId ref).mp parent.symm]
      exact given
  · rw [sameGraph]
    intro link given notNext
    obtain ⟨⟨ref, isParent⟩, ⟨child, isChild⟩⟩ := accepted.exists_ends given
    have parent := index.mp isParent
    have found := (accepted.attached ref).found link given ((isId ref).mpr parent).symm
      (eq_false_of_ne_true (mt isText_iff.mp notNext))
    rw [isChild] at found
    exact ⟨ref, child, parent, index.mp isChild, found⟩
  · rw [sameGraph]
    exact fun ref => (accepted.attached ref).once
  · rw [sameGraph]
    intro ref child
    constructor
    · intro next
      obtain ⟨link, given, parent, port, isChild⟩ := (accepted.attached ref).following child next
      rw [index.mp isChild, (isId ref).mp parent.symm, ← isText_iff.mp port]
      exact given
    · intro given
      rw [(accepted.attached ref).followed _ given rfl (isText_iff.mpr rfl)]
      exact index.mpr rfl
  · rw [sameRoots]
    exact accepted.roots_sublist
  · intro ref
    rw [sameRoots, accepted.mem_roots, sameGraph, id_graph]
    exact parentless_keyed (texts _ (List.mem_map_of_mem (List.get_mem nodes ref)))

end Forest

namespace Program

open Forest

/-- **Loading loses nothing.** A description whose nodes have texts as ids, if it is accepted,
becomes a workspace with one block for each node and with the links that are given: the walk from
the top-level blocks, which are those without a parent, meets every block once. -/
theorem ofValue_mirrors {description : Value} {values : List Value} {program : Program}
    (listed : nodesOf description = .ok values)
    (named : ∀ node ∈ values, ∃ name, node.select "id" = .ok (.text name))
    (loaded : ofValue description = .ok program) :
    ∃ nodes edges links workspace, values.mapM Node.ofValue = .ok nodes ∧
      edgesOf description = .ok edges ∧ (∀ link, link ∈ links ↔ Link.Given values edges link) ∧
      program = ⟨nodes.length, workspace⟩ ∧ Mirrors nodes links workspace := by
  obtain ⟨nodes, links, roots, _, _, _, _, nodesRead, linksRead, accepted, _, _, _, _, rfl⟩ :=
    ofValue_accepted loaded
  obtain ⟨_, again, nodesRead⟩ := Attempt.bind_eq_ok.mp nodesRead
  cases listed.symm.trans again
  obtain ⟨edges, edgesRead, collected⟩ := exists_edges_of_readLinks listed linksRead
  have identified := mapM_select_of_ofValue nodesRead
  exact ⟨nodes, edges, links, _, nodesRead, edgesRead, Link.mem_collect identified collected, rfl,
    accepted.mirrors (texts_of_named named identified) rfl rfl⟩

/-- A block with one in a socket and one that follows, linked by edges in part, beside another. -/
def treeNodes : List Value :=
  [describeNode "c" [] none, describeNode "a" [("VALUE", "b")] none, describeNode "b" [] none,
    describeNode "d" [] none]

def treeSample : Value :=
  .object [("nodes", .list treeNodes),
    ("edges", .list [describeEdge "c" "a" "next", describeEdge "b" "a" "VALUE"])]

theorem ofValue_mirrors_treeSample :
    nodesOf treeSample = .ok treeNodes ∧
      (∀ node ∈ treeNodes, ∃ name, node.select "id" = .ok (.text name)) ∧
      ∃ program, ofValue treeSample = .ok program ∧
        ∃ nodes edges links workspace, treeNodes.mapM Node.ofValue = .ok nodes ∧
          edgesOf treeSample = .ok edges ∧
          (∀ link, link ∈ links ↔ Link.Given treeNodes edges link) ∧
          program = ⟨nodes.length, workspace⟩ ∧ Mirrors nodes links workspace := by
  have named : ∀ node ∈ treeNodes, ∃ name, node.select "id" = .ok (.text name) := by
    simp only [treeNodes, List.forall_mem_cons, (isNode_describeNode _ _ _).id, List.not_mem_nil,
      false_imp_iff, implies_true, and_self]
  have accepted : (ofValue treeSample).toOption.isSome = true := by decide +kernel
  cases loaded : ofValue treeSample with
  | error fault =>
      rw [loaded] at accepted
      cases accepted
  | ok program => exact ⟨rfl, named, program, rfl, ofValue_mirrors rfl named loaded⟩

end Program

end BlockScript
