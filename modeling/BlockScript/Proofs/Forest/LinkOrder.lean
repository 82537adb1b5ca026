import Mathlib.Data.List.Sort
import BlockScript.Proofs.Agreement
import BlockScript.Proofs.Forest.Resolve

/-! # Links are a set

Links may stand on the nodes or apart from them, in any order, and be repeated. The graphs of two
accepted descriptions with the same links read alike (`Forest.Accepted.next_eq`), and so the listing
is the same (`Program.generate_of_same_links`), provided that no block names a variable that is not
declared: such variables are named in the order in which the walk over the links meets them.
-/

namespace BlockScript

/-! ## The same links -/

/-- Two links have the same ends and the same port. -/
structure Link.Same (link other : Link) : Prop where
  parent : link.parent.same other.parent = true
  port : link.port.same other.port = true
  child : link.child.same other.child = true

instance (link other : Link) : Decidable (link.Same other) :=
  decidable_of_iff (link.parent.same other.parent = true ∧ link.port.same other.port = true ∧
    link.child.same other.child = true)
    ⟨fun same => ⟨same.1, same.2.1, same.2.2⟩, fun same => ⟨same.parent, same.port, same.child⟩⟩

/-- Every one of some links is among others. -/
def Link.Among (links others : List Link) : Prop := ∀ link ∈ links, ∃ other ∈ others, link.Same other

instance (links others : List Link) : Decidable (Link.Among links others) :=
  inferInstanceAs (Decidable (∀ link ∈ links, ∃ other ∈ others, link.Same other))

namespace Forest

open Value

/-- Two nodes say the same, with their fields and their mutation in any order. -/
structure Node.Alike (node other : Node) : Prop where
  kind : node.kind = other.kind
  id : node.id = other.id
  fields : ∀ name, node.fields.get? name = other.fields.get? name
  mutation : ∀ name, node.mutation.get? name = other.mutation.get? name

theorem Node.Alike.refl (node : Node) : node.Alike node :=
  ⟨rfl, rfl, fun _ => rfl, fun _ => rfl⟩

theorem Node.Alike.symm {node other : Node} (alike : node.Alike other) : other.Alike node :=
  ⟨alike.kind.symm, alike.id.symm, fun name => (alike.fields name).symm,
    fun name => (alike.mutation name).symm⟩

variable {nodes others : List Node} {links further : List Link} {roots tops : List Value}

theorem alike_get (alike : List.Forall₂ Node.Alike nodes others) (ref : Fin nodes.length) :
    (nodes.get ref).Alike (others.get (ref.cast alike.length_eq)) :=
  alike.get ref.isLt (ref.cast alike.length_eq).isLt

namespace Accepted

variable (accepted : Accepted (nodes.map (·.id)) links roots)
  (acceptedToo : Accepted (others.map (·.id)) further tops)

include accepted acceptedToo

/-- What a link puts at a port, the same link puts there. -/
theorem puts_cast (alike : List.Forall₂ Node.Alike nodes others)
    (among : Link.Among links further) {ref child : Fin nodes.length} {port : String}
    (puts : Puts nodes links (nodes.get ref).id port child) :
    Puts others further (others.get (ref.cast alike.length_eq)).id port
      (child.cast alike.length_eq) := by
  obtain ⟨link, given, ⟨parent, isPort⟩, index⟩ := puts
  obtain ⟨other, givenToo, same⟩ := among link given
  have atoms := accepted.ends link given
  refine ⟨other, givenToo, ⟨?_, ?_⟩, ?_⟩
  · rw [← (alike_get alike ref).id, ← key_eq_key (accepted.isAtom ref)]
    exact ((key_eq_key (accepted.isAtom ref)).mpr parent).trans ((key_eq_key atoms.1).mpr same.parent)
  · have port := same.port
    rw [isPort] at port
    exact ((same_iff_eq_of_left rfl).mp port).symm
  · rw [acceptedToo.index_iff, ← (alike_get alike child).id]
    exact (accepted.index_iff.mp index).trans ((key_eq_key atoms.2.2).mpr same.child)

theorem puts_iff (alike : List.Forall₂ Node.Alike nodes others) (among : Link.Among links further)
    (amongToo : Link.Among further links) {ref child : Fin nodes.length} {port : String} :
    Puts nodes links (nodes.get ref).id port child ↔
      Puts others further (others.get (ref.cast alike.length_eq)).id port
        (child.cast alike.length_eq) := by
  constructor
  · exact accepted.puts_cast acceptedToo alike among
  · exact acceptedToo.puts_cast accepted (alike.flip.imp fun _ _ => Node.Alike.symm) amongToo

/-- **Sockets hold the same** -/
theorem input?_eq (alike : List.Forall₂ Node.Alike nodes others)
    (among : Link.Among links further) (amongToo : Link.Among further links)
    (ref child : Fin nodes.length) (socket : String) :
    ((graph nodes links).block ref).input? socket = some child ↔
      ((graph others further).block (ref.cast alike.length_eq)).input? socket =
        some (child.cast alike.length_eq) := by
  rw [accepted.input?_iff, acceptedToo.input?_iff, accepted.puts_iff acceptedToo alike among amongToo]

/-- **and the same block follows.** -/
theorem next_eq (alike : List.Forall₂ Node.Alike nodes others)
    (among : Link.Among links further) (amongToo : Link.Among further links)
    (ref child : Fin nodes.length) :
    ((graph nodes links).block ref).next = some child ↔
      ((graph others further).block (ref.cast alike.length_eq)).next =
        some (child.cast alike.length_eq) := by
  rw [accepted.next_iff, acceptedToo.next_iff, accepted.puts_iff acceptedToo alike among amongToo]

omit acceptedToo in
theorem parentless_of_among (among : Link.Among links further) {id : Value}
    (top : Parentless (further.map Link.keyed) id) : Parentless (links.map Link.keyed) id := by
  intro keyed member child
  obtain ⟨link, given, rfl⟩ := List.mem_map.mp member
  obtain ⟨other, givenToo, same⟩ := among link given
  apply top other.keyed (List.mem_map_of_mem givenToo)
  exact ((key_eq_key (accepted.ends link given).2.2).mpr same.child).symm.trans child

/-- The top-level blocks are the same, in the same order. -/
theorem roots_eq (alike : List.Forall₂ Node.Alike nodes others)
    (among : Link.Among links further) (amongToo : Link.Among further links) :
    (roots.filterMap (indexOf? nodes)).map (Fin.cast alike.length_eq) =
      tops.filterMap (indexOf? others) := by
  have sortedRange (n : Nat) : (List.finRange n).Pairwise (· < ·) :=
    (List.sortedLT_finRange n).pairwise
  apply List.Pairwise.eq_of_mem_iff (r := (· < ·))
  · rw [List.pairwise_map]
    exact (sortedRange _).sublist accepted.roots_sublist
  · exact (sortedRange _).sublist acceptedToo.roots_sublist
  · intro ref
    have same : (nodes.get (ref.cast alike.length_eq.symm)).id = (others.get ref).id :=
      (alike_get alike _).id
    rw [acceptedToo.mem_roots, ← same]
    constructor
    · intro member
      obtain ⟨own, inRoots, rfl⟩ := List.mem_map.mp member
      exact acceptedToo.parentless_of_among amongToo ((accepted.mem_roots _).mp inRoots)
    · intro top
      refine List.mem_map.mpr ⟨ref.cast alike.length_eq.symm, (accepted.mem_roots _).mpr ?_, rfl⟩
      exact accepted.parentless_of_among among top

end Accepted

end Forest

/-! ## Variables -/

theorem Workspace.foldl_addNew {values names : List Value}
    (listed : ∀ name ∈ names, name.among values = true) :
    names.foldl Workspace.addNew values = values := by
  induction names with
  | nil => rfl
  | cons name rest ih =>
      obtain ⟨first, others⟩ := List.forall_mem_cons.mp listed
      rw [List.foldl_cons, addNew, if_pos first]
      exact ih others

/-- When all variables that blocks name are declared, there are no others. -/
theorem Workspace.usedVariables_eq {n : Nat} {workspace : Workspace n}
    (listed : ∀ ref name, (workspace.graph.block ref).fields.get? "VAR" = some name →
      name ≠ .null → name.among workspace.userVariables = true) :
    workspace.usedVariables = workspace.userVariables := by
  apply foldl_addNew
  intro name member
  obtain ⟨ref, _, named⟩ := List.mem_filterMap.mp member
  unfold Block.field? at named
  split at named
  · cases named
  · rename_i notNull
    apply listed ref name named
    rintro rfl
    exact notNull named

namespace Program

open Forest

/-- Programs that read alike have the same listing, or fail in the same way. -/
theorem generate_congr {one two : Program} (size : one.size = two.size)
    (nodes : ∀ ref, (Node.ofBlock (one.workspace.graph.block ref)).Alike
      (Node.ofBlock (two.workspace.graph.block (ref.cast size))))
    (inputs : ∀ ref child socket, (one.workspace.graph.block ref).input? socket = some child ↔
      (two.workspace.graph.block (ref.cast size)).input? socket = some (child.cast size))
    (next : ∀ ref child, (one.workspace.graph.block ref).next = some child ↔
      (two.workspace.graph.block (ref.cast size)).next = some (child.cast size))
    (roots : one.workspace.roots.map (Fin.cast size) = two.workspace.roots)
    (used : one.workspace.usedVariables = two.workspace.usedVariables)
    (developer : one.workspace.developerVariables = two.workspace.developerVariables)
    (oneBased : one.workspace.oneBased = two.workspace.oneBased) (options : Options) :
    one.generate options = two.generate options := by
  obtain ⟨n, workspace⟩ := one
  obtain ⟨m, other⟩ := two
  obtain rfl : n = m := size
  have alike : Setting.Alike ⟨workspace, options⟩ ⟨other, options⟩ := by
    constructor
    · intro ref
      constructor
      · exact (nodes ref).kind
      · exact (nodes ref).id
      · exact (nodes ref).fields
      · exact (nodes ref).mutation
      · exact fun socket => Option.ext fun child => inputs ref child socket
      · exact Option.ext (next ref)
    · exact (List.map_id _).symm.trans roots
    · exact used
    · exact developer
    · exact congrArg options.oneBased.getD oneBased
    · rfl
  unfold generate
  dsimp only
  rw [Setting.emit_congr alike]
  rfl

/-- **Links are a set.** Two accepted descriptions agree on their nodes, their options and their
variables, and have the same links, whatever the order, on nodes or apart from them and however
often. Every variable that a node names is declared. Then both have the same listing with the same
spans, or fail with the same fault. -/
theorem generate_of_same_links {first second : Value} {one two : Program}
    {nodes others : List Node} {links further : List Link} {declared : List Value}
    (loaded : ofValue first = .ok one) (loadedToo : ofValue second = .ok two)
    (nodesRead : readNodes first = .ok nodes) (othersRead : readNodes second = .ok others)
    (alike : List.Forall₂ Node.Alike nodes others)
    (linksRead : readLinks first = .ok links) (furtherRead : readLinks second = .ok further)
    (among : Link.Among links further) (amongToo : Link.Among further links)
    (sameOptions : first.member "options" = second.member "options")
    (declaredRead : readVariables first "variables" = .ok declared)
    (declaredToo : readVariables second "variables" = .ok declared)
    (sameDevelopers : readVariables first "developerVariables" =
      readVariables second "developerVariables")
    (listed : ∀ node ∈ nodes, ∀ name, node.fields.get? "VAR" = some name → name ≠ .null →
      name.among declared = true)
    (options : Options) : one.generate options = two.generate options := by
  obtain ⟨_, _, roots, _, developers, own, oneBased, nodesAre, linksAre, accepted, declaredAre,
    developersAre, optionsAre, oneBasedAre, rfl⟩ := ofValue_accepted loaded
  obtain ⟨_, _, tops, _, _, _, _, othersAre, furtherAre, acceptedToo, variablesAgain, developersToo,
    optionsToo, oneBasedToo, rfl⟩ := ofValue_accepted loadedToo
  cases nodesRead.symm.trans nodesAre
  cases othersRead.symm.trans othersAre
  cases linksRead.symm.trans linksAre
  cases furtherRead.symm.trans furtherAre
  cases declaredRead.symm.trans declaredAre
  cases declaredToo.symm.trans variablesAgain
  cases developersAre.symm.trans (sameDevelopers.trans developersToo)
  cases optionsAre.symm.trans (sameOptions.trans optionsToo)
  cases oneBasedAre.symm.trans oneBasedToo
  have nodesAlike (ref : Fin nodes.length) :
      (Node.ofBlock ((graph nodes links).block ref)).Alike
        (Node.ofBlock ((graph others further).block (ref.cast alike.length_eq))) := by
    rw [ofBlock_graph, ofBlock_graph]
    exact alike_get alike ref
  have listedHere (ref : Fin nodes.length) (name : Value)
      (named : ((graph nodes links).block ref).fields.get? "VAR" = some name)
      (notNull : name ≠ .null) : name.among declared = true := by
    refine listed _ (List.get_mem nodes ref) name ?_ notNull
    rw [← ofBlock_graph nodes links ref]
    exact named
  apply generate_congr alike.length_eq nodesAlike
  · exact accepted.input?_eq acceptedToo alike among amongToo
  · exact accepted.next_eq acceptedToo alike among amongToo
  · exact accepted.roots_eq acceptedToo alike among amongToo
  · rw [Workspace.usedVariables_eq listedHere, Workspace.usedVariables_eq]
    intro ref name named
    apply listedHere (ref.cast alike.length_eq.symm) name
    exact ((nodesAlike _).fields "VAR").trans named
  · rfl
  · rfl

/-- A text that is printed and then an assignment, with links given by the caller. -/
def scriptSample (inputs : String → Table Value) (next : String → Value) (edges : List Value) :
    Value :=
  let node (id kind : String) (fields : Table Value) : Value :=
    .object [("id", .text id), ("type", .text kind), ("fields", .object fields),
      ("inputs", .object (inputs id)), ("next", next id)]
  .object [("nodes", .list [node "p" "text_print" [], node "t" "text" [("TEXT", .text "hi")],
      node "q" "variables_set" [("VAR", .text "x")], node "k" "math_number" [("NUM", .int 1)]]),
    ("edges", .list edges), ("variables", .list [.text "x"])]

/-- All links on the nodes. -/
def nestedSample : Value :=
  scriptSample
    (fun id => if id = "p" then [("TEXT", .text "t")]
      else if id = "q" then [("VALUE", .text "k")] else [])
    (fun id => if id = "p" then .text "q" else .null) []

/-- All links as edges, in another order and some of them twice, one of these without its port. -/
def edgeSample : Value :=
  scriptSample (fun _ => []) (fun _ => .null)
    [describeEdge "k" "q" "VALUE", describeEdge "q" "p" "next", describeEdge "t" "p" "TEXT",
      .object [("from", .text "q"), ("to", .text "p")], describeEdge "k" "q" "VALUE"]

/-- The nodes of both samples. -/
def scriptNodes : List Node :=
  [⟨.text "text_print", .text "p", [], []⟩, ⟨.text "text", .text "t", [("TEXT", .text "hi")], []⟩,
    ⟨.text "variables_set", .text "q", [("VAR", .text "x")], []⟩,
    ⟨.text "math_number", .text "k", [("NUM", .int 1)], []⟩]

theorem generate_of_same_links_scriptSample :
    ∃ one two, ofValue nestedSample = .ok one ∧ ofValue edgeSample = .ok two ∧
      (one.generate {}).result.isOk = true ∧ one.generate {} = two.generate {} := by
  have accepted : (ofValue nestedSample).toOption.map
      (fun program => (program.generate {}).result.isOk) = some true := by decide +kernel
  have acceptedToo : (ofValue edgeSample).toOption.isSome = true := by decide +kernel
  have links : readLinks nestedSample = .ok [⟨.text "p", .text "TEXT", .text "t"⟩,
      ⟨.text "p", .text "next", .text "q"⟩, ⟨.text "q", .text "VALUE", .text "k"⟩] := rfl
  have edges : readLinks edgeSample = .ok [⟨.text "q", .text "VALUE", .text "k"⟩,
      ⟨.text "p", .text "next", .text "q"⟩, ⟨.text "p", .text "TEXT", .text "t"⟩,
      ⟨.text "p", .text "next", .text "q"⟩, ⟨.text "q", .text "VALUE", .text "k"⟩] := rfl
  have nodes : readNodes nestedSample = .ok scriptNodes := rfl
  have nodesToo : readNodes edgeSample = .ok scriptNodes := rfl
  have declared : readVariables nestedSample "variables" = .ok [.text "x"] := rfl
  have listed : ∀ node ∈ scriptNodes, ∀ name, node.fields.get? "VAR" = some name →
      name ≠ .null → name.among [.text "x"] = true := by
    simp [scriptNodes, Table.get?, Value.among, Value.same_text]
  cases loaded : ofValue nestedSample with
  | error fault =>
      rw [loaded] at accepted
      cases accepted
  | ok one =>
      cases loadedToo : ofValue edgeSample with
      | error fault =>
          rw [loadedToo] at acceptedToo
          cases acceptedToo
      | ok two =>
          rw [loaded] at accepted
          refine ⟨one, two, rfl, rfl, Option.some.inj accepted, ?_⟩
          have same := List.forall₂_same.mpr fun (node : Node) (_ : node ∈ scriptNodes) =>
            Node.Alike.refl node
          exact generate_of_same_links loaded loadedToo nodes nodesToo same links edges
            (by decide) (by decide) rfl declared rfl rfl listed {}

end Program

end BlockScript
