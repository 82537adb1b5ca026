import BlockScript.Proofs.Forest.Count

/-! # Settling blocks

Blocks are settled each after its parents. When all that can be settled are, the settled blocks are
those that a top-level block leads to, and the ones with parents that remain are the others
(`Sole.settle_roots`).
-/

namespace BlockScript

namespace Forest

/-- Links between nodes that are counted once and give no block two parents. -/
structure Sole (ids : List Value) (links : List Link) : Prop where
  texts : ∀ id ∈ ids, id.isSomeText = true
  distinct : ids.Nodup
  ends : ∀ link ∈ links, link.parent ∈ ids ∧ link.child ∈ ids
  nodup : links.Nodup
  few : ∀ id ∈ ids, parentsIn links id ≤ 1

variable {ids : List Value} {links left : List Link}

/-- A link counts for its child. -/
theorem parentsIn_cons_self {link : Link} (text : link.child.isSomeText = true) :
    parentsIn (link :: left) link.child = parentsIn left link.child + 1 := by
  apply List.countP_cons_of_pos
  exact (Value.same_iff_eq text).mpr rfl

/-- A link counts for no other block. -/
theorem parentsIn_cons_of_ne {link : Link} {id : Value} (text : id.isSomeText = true)
    (other : id ≠ link.child) : parentsIn (link :: left) id = parentsIn left id := by
  apply List.countP_cons_of_neg
  exact mt (Value.same_iff_eq_of_left text).mp other

/-- A link to no node leaves the table as it is. -/
theorem tally_cons_of_not_mem (texts : ∀ id ∈ ids, id.isSomeText = true) {link : Link}
    (absent : link.child ∉ ids) : tally ids links (link :: left) = tally ids links left := by
  apply List.map_congr_left
  intro id member
  rw [parentsIn_cons_of_ne (texts id member) fun same => absent (same ▸ member)]

/-- The order of the links does not matter for the table. -/
theorem tally_perm {right : List Link} (perm : left.Perm right) :
    tally ids links left = tally ids links right := by
  apply List.map_congr_left
  intro id _
  rw [parentsIn, perm.countP_eq, ← parentsIn]

/-- Taking a parent from a block takes one link to it away. -/
theorem release_tally (texts : ∀ id ∈ ids, id.isSomeText = true) (distinct : ids.Nodup)
    {link : Link} (node : link.child ∈ ids) (links left : List Link) :
    release link.child (tally ids links (link :: left)) =
      (tally ids links left, parentsIn left link.child == 0) := by
  induction ids with
  | nil => cases node
  | cons id rest ih =>
      obtain ⟨text, restTexts⟩ := List.forall_mem_cons.mp texts
      obtain ⟨absent, restDistinct⟩ := List.nodup_cons.mp distinct
      rw [tally_cons, tally_cons, release]
      by_cases here : id = link.child
      · subst here
        rw [if_pos ((Value.same_iff_eq text).mpr rfl), tally_cons_of_not_mem restTexts absent,
          parentsIn_cons_self text]
        cases parentsIn left link.child with
        | zero => rfl
        | succ => rfl
      · rw [if_neg (mt (Value.same_iff_eq_of_left text).mp here), parentsIn_cons_of_ne text here]
        rw [ih restTexts restDistinct ((List.mem_cons.mp node).resolve_left (Ne.symm here))]

/-- When no block has two parents, taking its only one makes it free. -/
theorem releaseAll_tally (texts : ∀ id ∈ ids, id.isSomeText = true) (distinct : ids.Nodup)
    (own : List Link) (nodes : ∀ link ∈ own, link.child ∈ ids)
    (few : ∀ id ∈ ids, parentsIn (own ++ left) id ≤ 1) (links : List Link) (queue : List Value) :
    releaseAll (own.map (·.child)) (tally ids links (own ++ left)) queue =
      (tally ids links left, queue ++ own.map (·.child)) := by
  induction own generalizing queue with
  | nil => exact congrArg _ (List.append_nil queue).symm
  | cons link rest ih =>
      obtain ⟨node, restNodes⟩ := List.forall_mem_cons.mp nodes
      have single := few link.child node
      rw [List.cons_append, parentsIn_cons_self (texts _ node)] at single
      have none : parentsIn (rest ++ left) link.child = 0 := by omega
      have restFew : ∀ id ∈ ids, parentsIn (rest ++ left) id ≤ 1 := fun id member =>
        Nat.le_trans (List.Sublist.countP_le (List.sublist_cons_self ..)) (few id member)
      rw [List.map_cons, List.cons_append, releaseAll, release_tally texts distinct node, none]
      simp only [BEq.rfl, ↓reduceIte]
      rw [ih restNodes restFew, List.append_assoc]
      rfl

/-- The children of a node in the table are those of its links. -/
theorem childrenOf_tally (texts : ∀ id ∈ ids, id.isSomeText = true) {id : Value}
    (node : id ∈ ids) (links left : List Link) :
    childrenOf (tally ids links left) id = childrenIn links id := by
  unfold childrenOf
  cases found : (tally ids links left).find? (·.id.same id) with
  | none =>
      have missing := List.find?_eq_none.mp found _ (List.mem_map_of_mem node)
      exact absurd ((Value.same_iff_eq (texts id node)).mpr rfl) missing
  | some entry =>
      have same := List.find?_some found
      obtain ⟨other, _, rfl⟩ := List.mem_map.mp (List.mem_of_find?_eq_some found)
      exact congrArg (childrenIn links) ((Value.same_iff_eq (texts id node)).mp same)

/-- The links of the blocks that are not settled yet. -/
def unsettled (links : List Link) (done : List Value) : List Link :=
  links.filter fun link => !link.parent.among done

theorem unsettled_nil (links : List Link) : unsettled links [] = links :=
  List.filter_eq_self.mpr fun _ _ => rfl

/-- A block with no parents counted has none. -/
theorem parentsIn_eq_zero {id : Value} (text : id.isSomeText = true) :
    parentsIn left id = 0 ↔ Parentless left id := by
  unfold parentsIn Parentless
  rw [List.countP_eq_zero]
  refine forall₂_congr fun link _ => not_congr ?_
  rw [Value.same_iff_eq_of_left text, eq_comm]

/-- The blocks for whose entries a number of parents is as asked. -/
theorem map_filter_tally (asked : Nat → Bool) (ids : List Value) (links left : List Link) :
    ((tally ids links left).filter fun entry => asked entry.parents).map (·.id) =
      ids.filter fun id => asked (parentsIn left id) := by
  rw [tally, List.filter_map, List.map_map]
  exact List.map_id _

/-- The blocks at the top of the table are the nodes without parents. -/
theorem mem_rootsOf (texts : ∀ id ∈ ids, id.isSomeText = true) {id : Value} :
    id ∈ rootsOf (tally ids links left) ↔ id ∈ ids ∧ Parentless left id := by
  rw [rootsOf, map_filter_tally (· == 0), List.mem_filter, beq_iff_eq]
  exact and_congr_right fun member => parentsIn_eq_zero (texts id member)

/-- Some blocks are settled and others free to be. A block is one of them when all its parents are
settled, and they are all led to by top-level blocks. -/
structure Settling (ids : List Value) (links : List Link) (done queue : List Value) : Prop where
  nodup : (done ++ queue).Nodup
  free : ∀ id, id ∈ done ++ queue ↔
    id ∈ ids ∧ ∀ link ∈ links, link.child = id → link.parent ∈ done
  reached : ∀ id ∈ done ++ queue, Reached ids links id

namespace Settling

variable {done queue : List Value}

/-- The block that is settled next is a node, and was not settled before. -/
theorem head {id : Value} (settling : Settling ids links done (id :: queue)) :
    id ∈ ids ∧ id ∉ done := by
  have next : id ∈ done ++ id :: queue := List.mem_append_right _ (List.mem_cons_self ..)
  refine ⟨((settling.free id).mp next).1, fun settled => ?_⟩
  exact (List.nodup_append.mp settling.nodup).2.2 id settled id (List.mem_cons_self ..) rfl

/-- There are no more blocks to settle than there are nodes. -/
theorem length_le (settling : Settling ids links done queue) :
    done.length + queue.length ≤ ids.length := by
  rw [← List.length_append]
  apply (List.subperm_of_subset settling.nodup ?_).length_le
  intro id member
  exact ((settling.free id).mp member).1

end Settling

namespace Sole

/-- A block is the child of one link at most. -/
theorem single (sole : Sole ids links) {link other : Link} (member : link ∈ links)
    (memberToo : other ∈ links) (child : link.child = other.child) : link = other := by
  have node := (sole.ends other memberToo).2
  exact eq_of_parents_le_one (sole.texts _ node) (sole.few _ node) member memberToo child rfl

/-- The children of a node are the blocks that it is linked to. -/
theorem mem_childrenIn (sole : Sole ids links) {parent child : Value} (node : parent ∈ ids) :
    child ∈ childrenIn links parent ↔ Linked links parent child := by
  simp only [Linked, childrenIn, List.mem_map, List.mem_filter, and_assoc,
    Value.same_iff_eq_of_left (sole.texts parent node), eq_comm]

/-- No child is named twice. -/
theorem nodup_childrenIn (sole : Sole ids links) (id : Value) : (childrenIn links id).Nodup := by
  apply List.Nodup.map_on ?_ (sole.nodup.filter _)
  intro link member other memberToo child
  exact sole.single (List.mem_filter.mp member).1 (List.mem_filter.mp memberToo).1 child

/-- **A block is settled.** Its children are free then. -/
theorem settling_step (sole : Sole ids links) {done queue : List Value} {id : Value}
    (settling : Settling ids links done (id :: queue)) :
    Settling ids links (done ++ [id]) (queue ++ childrenIn links id) := by
  have regroup : done ++ [id] ++ (queue ++ childrenIn links id) =
      (done ++ id :: queue) ++ childrenIn links id := by simp
  have next : id ∈ done ++ id :: queue := List.mem_append_right _ (List.mem_cons_self ..)
  obtain ⟨node, notYet⟩ := settling.head
  constructor
  · rw [regroup]
    refine List.nodup_append.mpr ⟨settling.nodup, sole.nodup_childrenIn id, ?_⟩
    rintro known member child isChild rfl
    obtain ⟨link, given, parent, childIs⟩ := (sole.mem_childrenIn node).mp isChild
    have settled := ((settling.free known).mp member).2 link given childIs
    rw [parent] at settled
    exact notYet settled
  · intro other
    rw [regroup, List.mem_append, settling.free other]
    constructor
    · rintro (⟨otherNode, parents⟩ | isChild)
      · refine ⟨otherNode, fun link given childIs => ?_⟩
        exact List.mem_append_left _ (parents link given childIs)
      · -- A child has no parent but the block that is settled here.
        obtain ⟨link, given, parent, rfl⟩ := (sole.mem_childrenIn node).mp isChild
        refine ⟨(sole.ends link given).2, fun another givenToo childIs => ?_⟩
        rw [sole.single givenToo given childIs, parent]
        exact List.mem_append_right _ (List.mem_singleton_self id)
    · rintro ⟨otherNode, parents⟩
      by_cases isChild : other ∈ childrenIn links id
      · exact .inr isChild
      · refine .inl ⟨otherNode, fun link given childIs => ?_⟩
        rcases List.mem_append.mp (parents link given childIs) with settled | latest
        · exact settled
        · exact absurd ((sole.mem_childrenIn node).mpr
            ⟨link, given, List.mem_singleton.mp latest, childIs⟩) isChild
  · intro other member
    rw [regroup] at member
    rcases List.mem_append.mp member with known | isChild
    · exact settling.reached other known
    · obtain ⟨root, top, parentless, leads⟩ := settling.reached id next
      exact ⟨root, top, parentless, leads.tail ((sole.mem_childrenIn node).mp isChild)⟩

/-- A link remains until its parent is settled. -/
theorem mem_unsettled (sole : Sole ids links) {done : List Value} {link : Link} :
    link ∈ unsettled links done ↔ link ∈ links ∧ link.parent ∉ done := by
  unfold unsettled Value.among
  rw [List.mem_filter, Bool.not_eq_true', ← Bool.not_eq_true, List.any_eq_true]
  apply and_congr_right
  intro member
  have text := sole.texts _ (sole.ends link member).1
  simp only [Value.same_iff_eq text, exists_eq_right]

/-- A block has no links left when its parents are settled. -/
theorem parentless_unsettled (sole : Sole ids links) {done : List Value} {id : Value} :
    Parentless (unsettled links done) id ↔
      ∀ link ∈ links, link.child = id → link.parent ∈ done := by
  constructor
  · intro top link given child
    by_contra notYet
    exact top link (sole.mem_unsettled.mpr ⟨given, notYet⟩) child
  · intro parents link member child
    obtain ⟨given, notYet⟩ := sole.mem_unsettled.mp member
    exact notYet (parents link given child)

/-- The links of a block that is settled next are taken away. -/
theorem unsettled_perm (sole : Sole ids links) {done : List Value} {id : Value} (node : id ∈ ids)
    (notYet : id ∉ done) :
    (unsettled links done).Perm
      (links.filter (id.same ·.parent) ++ unsettled links (done ++ [id])) := by
  have own : (unsettled links done).filter (id.same ·.parent) =
      links.filter (id.same ·.parent) := by
    unfold unsettled
    rw [List.filter_filter]
    apply List.filter_congr
    intro link member
    cases same : id.same link.parent with
    | false => rfl
    | true =>
        have parent := (Value.same_iff_eq_of_left (sole.texts id node)).mp same
        rw [parent] at notYet
        have left := (List.mem_filter.mp (sole.mem_unsettled.mpr ⟨member, notYet⟩)).2
        rw [Bool.true_and, left]
  have others : (unsettled links done).filter (fun link => !id.same link.parent) =
      unsettled links (done ++ [id]) := by
    unfold unsettled Value.among
    rw [List.filter_filter]
    apply List.filter_congr
    intro link _
    rw [List.any_append, Bool.not_or, Bool.and_comm, List.any_cons, List.any_nil, Bool.or_false]
  rw [← own, ← others]
  exact (List.filter_append_perm ..).symm

/-- **All that can be settled is.** As many steps as there are blocks not settled suffice. -/
theorem settle_tally (sole : Sole ids links) (steps : Nat) {done queue : List Value}
    (settling : Settling ids links done queue) (enough : ids.length ≤ done.length + steps) :
    ∃ more, settle steps (tally ids links (unsettled links done)) queue =
        (tally ids links (unsettled links (done ++ more)), more.length) ∧
      Settling ids links (done ++ more) [] := by
  induction steps generalizing done queue with
  | zero =>
      -- As many blocks are settled as there are, so none can be left in the queue.
      have bound := settling.length_le
      have empty : queue = [] := List.length_eq_zero_iff.mp (by omega)
      refine ⟨[], ?_, ?_⟩
      · rw [List.append_nil]
        rfl
      · rw [List.append_nil, ← empty]
        exact settling
  | succ steps ih =>
      cases queue with
      | nil =>
          refine ⟨[], ?_, ?_⟩
          · rw [List.append_nil]
            rfl
          · rw [List.append_nil]
            exact settling
      | cons id queue =>
          obtain ⟨node, notYet⟩ := settling.head
          have perm := sole.unsettled_perm node notYet
          have few : ∀ other ∈ ids, parentsIn
              (links.filter (id.same ·.parent) ++ unsettled links (done ++ [id])) other ≤ 1 := by
            intro other member
            unfold parentsIn
            rw [← perm.countP_eq]
            exact Nat.le_trans (List.filter_sublist.countP_le) (sole.few other member)
          have released := releaseAll_tally sole.texts sole.distinct
            (links.filter (id.same ·.parent))
            (fun link member => (sole.ends link (List.mem_filter.mp member).1).2) few links queue
          obtain ⟨more, settled, all⟩ := ih (sole.settling_step settling)
            (by rw [List.length_append, List.length_singleton]; omega)
          refine ⟨id :: more, ?_, ?_⟩
          · rw [settle, childrenOf_tally sole.texts node, tally_perm perm, childrenIn, released]
            rw [childrenIn] at settled
            simp only [settled]
            rw [← List.append_cons done id more]
            rfl
          · rw [List.append_cons]
            exact all

/-- Settling starts with the blocks that have no parent. -/
theorem settling_roots (sole : Sole ids links) :
    Settling ids links [] (rootsOf (tally ids links links)) := by
  have free : ∀ id, id ∈ rootsOf (tally ids links links) ↔ id ∈ ids ∧ Parentless links id :=
    fun id => mem_rootsOf sole.texts
  constructor
  · rw [List.nil_append, rootsOf, map_filter_tally (· == 0)]
    exact sole.distinct.filter _
  · intro id
    rw [List.nil_append, free id]
    refine and_congr_right fun _ => forall₂_congr fun link _ => ?_
    exact imp_congr_right fun _ => (iff_false_intro List.not_mem_nil).symm
  · intro id member
    obtain ⟨node, top⟩ := (free id).mp member
    exact ⟨id, node, top, .refl⟩

/-- What is settled in the end is what top-level blocks lead to. -/
theorem mem_of_settling (sole : Sole ids links) {all : List Value}
    (settling : Settling ids links all []) {id : Value} :
    id ∈ all ↔ id ∈ ids ∧ Reached ids links id := by
  have free : ∀ id, id ∈ all ↔ id ∈ ids ∧ ∀ link ∈ links, link.child = id → link.parent ∈ all := by
    simpa only [List.append_nil] using settling.free
  constructor
  · intro member
    exact ⟨((free id).mp member).1, settling.reached id (List.mem_append_left _ member)⟩
  · rintro ⟨-, root, node, top, leads⟩
    induction leads with
    | refl => exact (free root).mpr ⟨node, fun link given child => (top link given child).elim⟩
    | tail _ linked ih =>
        obtain ⟨link, given, parent, rfl⟩ := linked
        refine (free link.child).mpr ⟨(sole.ends link given).2, fun other givenToo child => ?_⟩
        rw [sole.single givenToo given child, parent]
        exact ih

/-- **What settling comes to.** All blocks are settled when top-level blocks lead to all of them.
Otherwise the blocks that they do not lead to have parents that remain. -/
theorem settle_roots (sole : Sole ids links) :
    ∃ remaining settled, settle ids.length (tally ids links links)
        (rootsOf (tally ids links links)) = (remaining, settled) ∧
      (settled = ids.length ↔ ∀ id ∈ ids, Reached ids links id) ∧
      ((remaining.filter (0 < ·.parents)).map (·.id)).Sublist ids ∧
      ∀ id, id ∈ (remaining.filter (0 < ·.parents)).map (·.id) ↔
        id ∈ ids ∧ ¬Reached ids links id := by
  obtain ⟨all, settled, settling⟩ := sole.settle_tally ids.length sole.settling_roots (by simp)
  rw [List.nil_append] at settled settling
  rw [unsettled_nil] at settled
  have reached : ∀ id, id ∈ all ↔ id ∈ ids ∧ Reached ids links id :=
    fun id => sole.mem_of_settling settling
  have within : all.Subperm ids := by
    apply List.subperm_of_subset (List.append_nil all ▸ settling.nodup)
    exact fun id member => ((reached id).mp member).1
  have parents : ∀ id ∈ ids, 0 < parentsIn (unsettled links all) id ↔ id ∉ all := by
    intro id node
    rw [Nat.pos_iff_ne_zero, Ne, parentsIn_eq_zero (sole.texts id node)]
    apply not_congr
    have free := settling.free id
    rw [List.append_nil] at free
    rw [free, and_iff_right node]
    exact sole.parentless_unsettled
  refine ⟨_, _, settled, ?_, ?_, ?_⟩
  · constructor
    · intro every id node
      have perm := within.perm_of_length_le (Nat.le_of_eq every.symm)
      exact ((reached id).mp (perm.mem_iff.mpr node)).2
    · intro every
      have covers : ids.Subperm all := List.subperm_of_subset sole.distinct
        fun id node => (reached id).mpr ⟨node, every id node⟩
      exact Nat.le_antisymm within.length_le covers.length_le
  · rw [map_filter_tally (0 < ·)]
    exact List.filter_sublist
  · intro id
    rw [map_filter_tally (0 < ·), List.mem_filter, decide_eq_true_eq]
    refine and_congr_right fun node => ?_
    rw [parents id node, reached id, and_iff_right node]

end Sole

end Forest

end BlockScript
