import BlockScript.Forest.Load
import BlockScript.Proofs.Forest.Spelling

/-! # Linking blocks

The block that an id means depends on what it identifies only (`indexOf?_congr`). When every socket
is given one block, the links of a block are in the end those that were given, however the ids in
them are spelled (`Attached`, `attached_graph`): a link of a socket that is linked already changes
nothing.
-/

namespace BlockScript

namespace Value

variable {α : Type} {key : Value}

/-- A key is looked up in the first entries, and then in the others. -/
theorem lookup_append (entries more : List (Value × α)) :
    lookup key (entries ++ more) = (lookup key entries).or (lookup key more) := by
  induction entries with
  | nil => rfl
  | cons entry rest ih =>
      rw [List.cons_append, lookup, lookup, ih]
      split
      · rfl
      · rfl

/-- What is found is entered under the same key. -/
theorem exists_of_lookup_eq_some {entries : List (Value × α)} {held : α}
    (found : lookup key entries = some held) :
    ∃ known, (known, held) ∈ entries ∧ known.same key = true := by
  induction entries with
  | nil => cases found
  | cons entry rest ih =>
      obtain ⟨known, other⟩ := entry
      rw [lookup] at found
      split at found
      · rename_i same
        cases found
        exact ⟨known, List.mem_cons_self .., same⟩
      · obtain ⟨earlier, member, same⟩ := ih found
        exact ⟨earlier, List.mem_cons_of_mem _ member, same⟩

/-- Where nothing is found, no key is the same. -/
theorem not_same_of_lookup_eq_none {entries : List (Value × α)}
    (missing : lookup key entries = none) : ∀ entry ∈ entries, entry.1.same key = false := by
  induction entries with
  | nil => exact fun _ member => nomatch member
  | cons entry rest ih =>
      rw [lookup] at missing
      split at missing
      · cases missing
      · rename_i different
        exact List.forall_mem_cons.mpr ⟨eq_false_of_ne_true different, ih missing⟩

theorem lookup_singleton (atom : key.isAtom = true) (held : α) :
    lookup key [(key, held)] = some held := by
  rw [lookup, if_pos (same_self atom)]

end Value

namespace Forest

open Value

variable {α : Type}

/-- A socket that holds a block already is left as it is, -/
theorem plug_of_lookup_eq_some {socket : Value} {child : α} {inputs : List (Value × α)}
    (found : lookup socket inputs = some child) : plug socket child inputs = inputs := by
  induction inputs with
  | nil => cases found
  | cons entry rest ih =>
      obtain ⟨known, held⟩ := entry
      rw [lookup] at found
      rw [plug]
      split at found
      · rename_i same
        cases found
        exact if_pos same
      · rename_i different
        rw [if_neg different, ih found]

/-- and a new one comes last. -/
theorem plug_of_lookup_eq_none {socket : Value} {child : α} {inputs : List (Value × α)}
    (missing : lookup socket inputs = none) :
    plug socket child inputs = inputs ++ [(socket, child)] := by
  induction inputs with
  | nil => rfl
  | cons entry rest ih =>
      obtain ⟨known, held⟩ := entry
      rw [lookup] at missing
      rw [plug]
      split at missing
      · cases missing
      · rename_i different
        rw [if_neg different, ih missing]
        rfl

variable {nodes : List Node}

/-- The block of an id depends on what the id identifies. -/
theorem indexOf?_congr {id other : Value} (same : id.key = other.key) :
    indexOf? nodes id = indexOf? nodes other := by
  unfold indexOf?
  congr 1
  funext node
  rw [← same_key, same, same_key]

/-- A block is linked as links say: what is in its sockets and what follows it. -/
structure Attached (nodes : List Node) (links : List Link) (block : Block nodes.length) :
    Prop where
  plugged : ∀ entry ∈ block.inputs, ∃ link ∈ links, link.parent.key = block.id.key ∧
    link.port.isText Link.following = false ∧ entry = (link.port, indexOf? nodes link.child)
  found : ∀ link ∈ links, link.parent.key = block.id.key →
    link.port.isText Link.following = false →
      lookup link.port block.inputs = some (indexOf? nodes link.child)
  once : block.inputs.Pairwise fun entry other => entry.1.same other.1 = false
  followed : ∀ link ∈ links, link.parent.key = block.id.key →
    link.port.isText Link.following = true → block.next = indexOf? nodes link.child
  following : ∀ child, block.next = some child → ∃ link ∈ links, link.parent.key = block.id.key ∧
    link.port.isText Link.following = true ∧ indexOf? nodes link.child = some child

namespace Attached

variable {links : List Link} {link : Link} {block : Block nodes.length}

/-- What was plugged in still is after a further link. -/
theorem plugged_append (attached : Attached nodes links block) (link : Link)
    {entry : Value × Option (Fin nodes.length)} (member : entry ∈ block.inputs) :
    ∃ first ∈ links ++ [link], first.parent.key = block.id.key ∧
      first.port.isText Link.following = false ∧
        entry = (first.port, indexOf? nodes first.child) := by
  obtain ⟨first, given, facts⟩ := attached.plugged entry member
  exact ⟨first, List.mem_append_left _ given, facts⟩

/-- What followed a block came from a link before a further one. -/
theorem following_append (attached : Attached nodes links block) (link : Link)
    {child : Fin nodes.length} (next : block.next = some child) :
    ∃ first ∈ links ++ [link], first.parent.key = block.id.key ∧
      first.port.isText Link.following = true ∧ indexOf? nodes first.child = some child := by
  obtain ⟨first, given, facts⟩ := attached.following child next
  exact ⟨first, List.mem_append_left _ given, facts⟩

/-- A link of another block changes nothing. -/
theorem skip (attached : Attached nodes links block) (other : link.parent.key ≠ block.id.key) :
    Attached nodes (links ++ [link]) block where
  plugged _ member := attached.plugged_append link member
  found first given parent port := by
    rcases List.mem_append.mp given with earlier | latest
    · exact attached.found first earlier parent port
    · rw [List.mem_singleton.mp latest] at parent
      exact (other parent).elim
  once := attached.once
  followed first given parent port := by
    rcases List.mem_append.mp given with earlier | latest
    · exact attached.followed first earlier parent port
    · rw [List.mem_singleton.mp latest] at parent
      exact (other parent).elim
  following _ next := attached.following_append link next

/-- A link to what follows takes the place of an earlier one, which is to the same block. -/
theorem follow (attached : Attached nodes links block) (parent : link.parent.key = block.id.key)
    (port : link.port.isText Link.following = true)
    (same : ∀ other ∈ links, other.parent.key = block.id.key →
      other.port.isText Link.following = true → other.child.key = link.child.key) :
    Attached nodes (links ++ [link]) { block with next := indexOf? nodes link.child } where
  plugged _ member := attached.plugged_append link member
  found first given parentIs portIs := by
    rcases List.mem_append.mp given with earlier | latest
    · exact attached.found first earlier parentIs portIs
    · rw [List.mem_singleton.mp latest, port] at portIs
      cases portIs
  once := attached.once
  followed first given parentIs portIs := by
    rcases List.mem_append.mp given with earlier | latest
    · exact indexOf?_congr (same first earlier parentIs portIs).symm
    · rw [List.mem_singleton.mp latest]
  following child next :=
    ⟨link, List.mem_append_right _ (List.mem_singleton_self _), parent, port, next⟩

/-- A link to a socket plugs a block in there, unless the same block is there already. -/
theorem plug (attached : Attached nodes links block) (parent : link.parent.key = block.id.key)
    (port : link.port.isText Link.following = false) (atom : link.port.isAtom = true)
    (same : ∀ other ∈ links, other.parent.key = block.id.key →
      other.port.same link.port = true → other.child.key = link.child.key) :
    Attached nodes (links ++ [link])
      { block with inputs := plug link.port (indexOf? nodes link.child) block.inputs } := by
  have here : link ∈ links ++ [link] := List.mem_append_right _ (List.mem_singleton_self _)
  have next : ∀ first ∈ links ++ [link], first.parent.key = block.id.key →
      first.port.isText Link.following = true → block.next = indexOf? nodes first.child := by
    intro first given parentIs portIs
    rcases List.mem_append.mp given with earlier | latest
    · exact attached.followed first earlier parentIs portIs
    · rw [List.mem_singleton.mp latest, port] at portIs
      cases portIs
  cases known : lookup link.port block.inputs with
  | some held =>
      -- The block that is there came from a link of the same socket.
      have heldIs : held = indexOf? nodes link.child := by
        obtain ⟨socket, member, socketSame⟩ := exists_of_lookup_eq_some known
        obtain ⟨first, given, parentIs, _, entry⟩ := attached.plugged _ member
        cases entry
        exact indexOf?_congr (same first given parentIs socketSame)
      rw [heldIs] at known
      rw [plug_of_lookup_eq_some known]
      refine ⟨?_, ?_, attached.once, next, fun _ => attached.following_append link⟩
      · exact fun _ member => attached.plugged_append link member
      · intro first given parentIs portIs
        rcases List.mem_append.mp given with earlier | latest
        · exact attached.found first earlier parentIs portIs
        · rw [List.mem_singleton.mp latest]
          exact known
  | none =>
      rw [plug_of_lookup_eq_none known]
      refine ⟨?_, ?_, ?_, next, fun _ => attached.following_append link⟩
      · intro entry member
        rcases List.mem_append.mp member with earlier | latest
        · exact attached.plugged_append link earlier
        · exact ⟨link, here, parent, port, List.mem_singleton.mp latest⟩
      · intro first given parentIs portIs
        rw [lookup_append]
        rcases List.mem_append.mp given with earlier | latest
        · rw [attached.found first earlier parentIs portIs]
          rfl
        · rw [List.mem_singleton.mp latest, known, lookup_singleton atom]
          rfl
      · refine List.pairwise_append.mpr ⟨attached.once, List.pairwise_singleton .., ?_⟩
        intro entry member other latest
        rw [List.mem_singleton.mp latest]
        exact not_same_of_lookup_eq_none known entry member

/-- **One more link.** -/
theorem attach (attached : Attached nodes links block) (atom : block.id.isAtom = true)
    (port : link.port.isAtom = true)
    (sockets : ∀ other ∈ links, other.keyed.SameSocket link.keyed →
      other.child.key = link.child.key) :
    Attached nodes (links ++ [link]) (attach nodes block link) := by
  unfold Forest.attach
  split
  · rename_i same
    have parent := (key_eq_key atom).mpr same
    have sharing : ∀ other ∈ links, other.parent.key = block.id.key →
        other.port.same link.port = true → other.child.key = link.child.key :=
      fun other given parentIs portSame => sockets other given ⟨parentIs.trans parent, portSame⟩
    cases following : link.port.isText Link.following with
    | true =>
        apply attached.follow parent.symm following
        intro other given parentIs portIs
        apply sharing other given parentIs
        rw [isText_iff.mp portIs, isText_iff.mp following]
        exact same_self rfl
    | false => exact attached.plug parent.symm following port sharing
  · rename_i different
    apply attached.skip
    intro parent
    exact different ((key_eq_key atom).mp parent.symm)

end Attached

/-- What a block says apart from its links. -/
def Node.ofBlock {n : Nat} (block : Block n) : Node :=
  ⟨block.kind, block.id, block.fields, block.mutation⟩

/-- A link changes nothing of what a block has from its node. -/
theorem ofBlock_attach (block : Block nodes.length) (link : Link) :
    Node.ofBlock (attach nodes block link) = Node.ofBlock block := by
  unfold attach
  split
  · split
    · rfl
    · rfl
  · rfl

/-- Neither do any number of links. -/
theorem ofBlock_foldl_attach (links : List Link) (block : Block nodes.length) :
    Node.ofBlock (links.foldl (attach nodes) block) = Node.ofBlock block := by
  induction links generalizing block with
  | nil => rfl
  | cons link rest ih => rw [List.foldl_cons, ih, ofBlock_attach]

theorem id_foldl_attach (links : List Link) (block : Block nodes.length) :
    (links.foldl (attach nodes) block).id = block.id :=
  congrArg Node.id (ofBlock_foldl_attach links block)

/-- A block of the graph is made of its node and of all links, one after the other. -/
theorem block_graph (nodes : List Node) (links : List Link) (ref : Fin nodes.length) :
    (graph nodes links).block ref =
      links.foldl (attach nodes) (bareBlock nodes.length (nodes.get ref)) := by
  change (Vector.ofFn _)[ref.val] = _
  rw [Vector.getElem_ofFn]
  rfl

/-- A block says of itself what its node does. -/
theorem ofBlock_graph (nodes : List Node) (links : List Link) (ref : Fin nodes.length) :
    Node.ofBlock ((graph nodes links).block ref) = nodes.get ref := by
  rw [block_graph, ofBlock_foldl_attach]
  rfl

/-- A block of the graph has the id of its node. -/
theorem id_graph (nodes : List Node) (links : List Link) (ref : Fin nodes.length) :
    ((graph nodes links).block ref).id = (nodes.get ref).id :=
  congrArg Node.id (ofBlock_graph nodes links ref)

/-- **Blocks are linked as the links say.** -/
theorem attached_graph {links : List Link} (ports : ∀ link ∈ links, link.port.isAtom = true)
    (sockets : ∀ link ∈ links, ∀ other ∈ links, link.keyed.SameSocket other.keyed →
      link.child.key = other.child.key)
    {ref : Fin nodes.length} (atom : (nodes.get ref).id.isAtom = true) :
    Attached nodes links ((graph nodes links).block ref) := by
  rw [block_graph]
  -- The links are gone through from the first to the last, so the last is taken off.
  induction links using List.reverseRecOn with
  | nil =>
      exact ⟨fun _ member => (nomatch member), fun _ member => (nomatch member), .nil,
        fun _ member => (nomatch member), fun _ next => nomatch next⟩
  | append_singleton links link ih =>
      have earlier {other : Link} (given : other ∈ links) : other ∈ links ++ [link] :=
        List.mem_append_left _ given
      have last : link ∈ links ++ [link] := List.mem_append_right _ (List.mem_singleton_self _)
      rw [List.foldl_append]
      apply Attached.attach
      · apply ih
        · exact fun other given => ports other (earlier given)
        · exact fun first given second givenToo =>
            sockets first (earlier given) second (earlier givenToo)
      · rw [id_foldl_attach]
        exact atom
      · exact ports link last
      · exact fun other given => sockets other (earlier given) link last

end Forest

end BlockScript
