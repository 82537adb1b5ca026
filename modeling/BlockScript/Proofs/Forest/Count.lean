import BlockScript.Forest.Check
import BlockScript.Proofs.Forest.Collect

/-! # Counting links

Links are counted once for each socket (`Kept`). Counting fails exactly when an end of a link is no
node or a socket is given two blocks (`countAll_cases`), and it finds a block in more than one
socket exactly when there is one (`Kept.parents_le_one_iff`).
-/

namespace BlockScript

namespace Forest

/-- The children that links give a block, in order. -/
def childrenIn (links : List Link) (id : Value) : List Value :=
  (links.filter (id.same ·.parent)).map (·.child)

/-- The number of links to a block. -/
def parentsIn (links : List Link) (id : Value) : Nat := links.countP (id.same ·.child)

/-- Entries with the children that some links give and the parents that others do. -/
def tally (ids : List Value) (links left : List Link) : List Entry :=
  ids.map fun id => ⟨id, childrenIn links id, parentsIn left id⟩

theorem tally_cons (id : Value) (ids : List Value) (links left : List Link) :
    tally (id :: ids) links left =
      ⟨id, childrenIn links id, parentsIn left id⟩ :: tally ids links left := rfl

theorem count_tally (ids : List Value) (links : List Link) (link : Link) :
    count (tally ids links links) link = tally ids (links ++ [link]) (links ++ [link]) := by
  simp only [count, tally, List.map_map]
  apply List.map_congr_left
  intro id _
  simp only [Function.comp_apply, childrenIn, parentsIn, List.filter_append, List.countP_append,
    List.map_append, List.filter_singleton, List.countP_singleton]
  cases parent : id.same link.parent <;> cases child : id.same link.child <;> simp [child]

variable {ids : List Value}

theorem any_same_iff (texts : ∀ id ∈ ids, id.isSomeText = true) {id : Value} :
    ids.any (·.same id) = true ↔ id ∈ ids := by
  rw [List.any_eq_true]
  constructor
  · rintro ⟨other, member, same⟩
    rw [← (Value.same_iff_eq_of_left (texts other member)).mp same]
    exact member
  · intro member
    exact ⟨id, member, (Value.same_iff_eq (texts id member)).mpr rfl⟩

/-- Whether there is a node is found out for every value that can identify one. -/
theorem hasNode_tally (ids : List Value) (links left : List Link) {id : Value}
    (atom : id.isAtom = true) :
    hasNode (tally ids links left) id = .ok (ids.any (·.same id)) := by
  unfold hasNode Value.atom tally
  rw [if_pos atom, List.any_map]
  rfl

theorem mem_of_hasNode (texts : ∀ id ∈ ids, id.isSomeText = true) {links left : List Link}
    {id : Value} (found : hasNode (tally ids links left) id = .ok true) : id ∈ ids := by
  cases atom : id.isAtom with
  | true =>
      rw [hasNode_tally ids links left atom] at found
      exact (any_same_iff texts).mp (Except.ok.inj found)
  | false =>
      unfold hasNode Value.atom at found
      rw [atom] at found
      cases found

/-- The block that a socket holds already. -/
theorem holder?_eq_some {link : Link} {counted : List Link} {held : Value}
    (plain : ∀ other ∈ counted, other.IsPlain) (found : holder? link counted = some held) :
    ∃ other ∈ counted, other.SameSocket link ∧ other.child = held := by
  induction counted with
  | nil => cases found
  | cons other rest ih =>
      unfold holder? at found
      split at found
      · rename_i same
        obtain ⟨parent, port⟩ := Bool.and_eq_true_iff.mp same
        have text := (plain other (List.mem_cons_self ..)).parent
        refine ⟨other, List.mem_cons_self .., ⟨?_, port⟩, Option.some.inj found⟩
        exact (Value.same_iff_eq_of_left text).mp parent
      · obtain ⟨first, member, facts⟩ :=
          ih (fun other member => plain other (List.mem_cons_of_mem _ member)) found
        exact ⟨first, List.mem_cons_of_mem _ member, facts⟩

theorem holder?_eq_none {link : Link} {counted : List Link} (text : link.parent.isSomeText = true)
    (none : holder? link counted = none) : ∀ other ∈ counted, ¬other.SameSocket link := by
  induction counted with
  | nil => exact fun _ member => nomatch member
  | cons other rest ih =>
      unfold holder? at none
      split at none
      · cases none
      · rename_i different
        intro third member same
        rcases List.mem_cons.mp member with rfl | later
        · apply different
          rw [same.2, same.1, (Value.same_iff_eq text).mpr rfl]
          rfl
        · exact ih none third later same

/-- Links to a block that has one parent counted are one link. -/
theorem eq_of_parents_le_one {kept : List Link} {id : Value} (text : id.isSomeText = true)
    (few : parentsIn kept id ≤ 1) {link other : Link} (member : link ∈ kept)
    (memberToo : other ∈ kept) (child : link.child = id) (childToo : other.child = id) :
    link = other := by
  have counted {link : Link} (member : link ∈ kept) (child : link.child = id) :
      link ∈ kept.filter (id.same ·.child) :=
    List.mem_filter.mpr ⟨member, (Value.same_iff_eq_of_left text).mpr child.symm⟩
  have first := counted member child
  have second := counted memberToo childToo
  unfold parentsIn at few
  rw [List.countP_eq_length_filter] at few
  generalize kept.filter (id.same ·.child) = list at first second few
  match list with
  | [] => cases first
  | [only] => rw [List.mem_singleton.mp first, List.mem_singleton.mp second]
  | _ :: _ :: _ => simp only [List.length_cons] at few; omega

/-- The links that are counted: one for each socket that is given. -/
structure Kept (links kept : List Link) : Prop where
  given : ∀ link ∈ kept, link ∈ links
  covers : ∀ link ∈ links, ∃ other ∈ kept, other.SameSocket link ∧ other.child = link.child
  unique : ∀ link ∈ kept, ∀ other ∈ kept, link.SameSocket other → link = other
  nodup : kept.Nodup

namespace Kept

variable {links kept : List Link}

theorem nil : Kept [] [] :=
  ⟨fun _ member => (nomatch member), fun _ member => (nomatch member),
    fun _ member => (nomatch member), .nil⟩

/-- A link of a socket that is counted changes nothing. -/
theorem again (kept_of : Kept links kept) {link other : Link} (member : other ∈ kept)
    (same : other.SameSocket link) (child : other.child = link.child) :
    Kept (links ++ [link]) kept where
  given first found := List.mem_append_left _ (kept_of.given first found)
  covers first found := by
    rcases List.mem_append.mp found with earlier | latest
    · exact kept_of.covers first earlier
    · rw [List.mem_singleton.mp latest]
      exact ⟨other, member, same, child⟩
  unique := kept_of.unique
  nodup := kept_of.nodup

/-- A link of a new socket is counted. -/
theorem fresh (kept_of : Kept links kept) {link : Link} (plain : ∀ other ∈ kept, other.IsPlain)
    (atom : link.port.isAtom = true) (apart : ∀ other ∈ kept, ¬other.SameSocket link) :
    Kept (links ++ [link]) (kept ++ [link]) where
  given first found := by
    rcases List.mem_append.mp found with earlier | latest
    · exact List.mem_append_left _ (kept_of.given first earlier)
    · exact List.mem_append_right _ latest
  covers first found := by
    rcases List.mem_append.mp found with earlier | latest
    · obtain ⟨other, member, facts⟩ := kept_of.covers first earlier
      exact ⟨other, List.mem_append_left _ member, facts⟩
    · rw [List.mem_singleton.mp latest]
      exact ⟨link, List.mem_append_right _ (List.mem_singleton_self _), .refl atom, rfl⟩
  unique first found second foundToo same := by
    rcases List.mem_append.mp found with earlier | latest
    · rcases List.mem_append.mp foundToo with earlierToo | latestToo
      · exact kept_of.unique first earlier second earlierToo same
      · rw [List.mem_singleton.mp latestToo] at same
        exact (apart first earlier same).elim
    · rw [List.mem_singleton.mp latest] at same ⊢
      rcases List.mem_append.mp foundToo with earlierToo | latestToo
      · exact (apart second earlierToo (same.symm atom (plain second earlierToo).port)).elim
      · exact (List.mem_singleton.mp latestToo).symm
  nodup := by
    refine List.nodup_append.mpr ⟨kept_of.nodup, List.nodup_singleton _, ?_⟩
    rintro other member _ latest rfl
    rw [List.mem_singleton.mp latest] at member
    exact apart link member (.refl atom)

/-- With one block for each socket, sockets are given one block each. -/
theorem sockets (kept_of : Kept links kept) (plain : ∀ link ∈ links, link.IsPlain) :
    ∀ link ∈ links, ∀ other ∈ links, link.SameSocket other → link.child = other.child := by
  intro link member other memberToo same
  obtain ⟨first, firstKept, firstSame, firstChild⟩ := kept_of.covers link member
  obtain ⟨second, secondKept, secondSame, secondChild⟩ := kept_of.covers other memberToo
  have port (link : Link) (member : link ∈ links) := (plain link member).port
  have firstPort := port first (kept_of.given first firstKept)
  have secondPort := port second (kept_of.given second secondKept)
  have joined : first.SameSocket second :=
    (firstSame.trans firstPort (port link member) same).trans firstPort (port other memberToo)
      (secondSame.symm secondPort (port other memberToo))
  rw [← firstChild, kept_of.unique first firstKept second secondKept joined, secondChild]

/-- The counted links link the same blocks. -/
theorem linked_iff (kept_of : Kept links kept) {parent child : Value} :
    Linked kept parent child ↔ Linked links parent child := by
  constructor
  · rintro ⟨link, member, ends⟩
    exact ⟨link, kept_of.given link member, ends⟩
  · rintro ⟨link, member, rfl, rfl⟩
    obtain ⟨other, otherKept, same, childIs⟩ := kept_of.covers link member
    exact ⟨other, otherKept, same.1, childIs⟩

theorem parentless_iff (kept_of : Kept links kept) {id : Value} :
    Parentless kept id ↔ Parentless links id := by
  constructor
  · intro top link member child
    obtain ⟨other, otherKept, _, childIs⟩ := kept_of.covers link member
    exact top other otherKept (childIs.trans child)
  · intro top link member
    exact top link (kept_of.given link member)

theorem reached_iff (kept_of : Kept links kept) {id : Value} :
    Reached ids kept id ↔ Reached ids links id := by
  have linked : Linked kept = Linked links := by
    funext parent child
    exact propext kept_of.linked_iff
  unfold Reached
  simp only [linked, kept_of.parentless_iff]

/-- **No block is in two sockets** when no block has two parents counted. -/
theorem parents_le_one_iff (kept_of : Kept links kept)
    (texts : ∀ id ∈ ids, id.isSomeText = true) (plain : ∀ link ∈ links, link.IsPlain)
    (ends : ∀ link ∈ links, link.child ∈ ids) :
    (∀ id ∈ ids, parentsIn kept id ≤ 1) ↔
      ∀ link ∈ links, ∀ other ∈ links, link.child = other.child → link.SameSocket other := by
  constructor
  · intro few link member other memberToo child
    obtain ⟨first, firstKept, firstSame, firstChild⟩ := kept_of.covers link member
    obtain ⟨second, secondKept, secondSame, secondChild⟩ := kept_of.covers other memberToo
    have node := ends link member
    have equal := eq_of_parents_le_one (texts _ node) (few _ node) firstKept secondKept firstChild
      (secondChild.trans child.symm)
    have firstPort := (plain first (kept_of.given first firstKept)).port
    have port := (plain link member).port
    rw [← equal] at secondSame
    exact (firstSame.symm firstPort port).trans port firstPort secondSame
  · intro plugs id node
    have same : ∀ link ∈ kept.filter (id.same ·.child), ∀ other ∈ kept.filter (id.same ·.child),
        link = other := by
      intro link member other memberToo
      obtain ⟨inKept, child⟩ := List.mem_filter.mp member
      obtain ⟨inKeptToo, childToo⟩ := List.mem_filter.mp memberToo
      rw [Value.same_iff_eq_of_left (texts id node)] at child childToo
      apply kept_of.unique link inKept other inKeptToo
      exact plugs link (kept_of.given link inKept) other (kept_of.given other inKeptToo)
        (child.symm.trans childToo)
    have nodup := kept_of.nodup.filter (id.same ·.child)
    unfold parentsIn
    rw [List.countP_eq_length_filter]
    generalize kept.filter (id.same ·.child) = list at same nodup
    match list with
    | [] => exact Nat.zero_le 1
    | [only] => exact Nat.le_refl 1
    | first :: second :: rest =>
        have equal := same first (List.mem_cons_self ..) second
          (List.mem_cons_of_mem _ (List.mem_cons_self ..))
        rw [equal] at nodup
        exact absurd (List.mem_cons_self ..) (List.nodup_cons.mp nodup).1

end Kept

/-- What the first of some links does to the counting. -/
theorem countAll_cons {link : Link} (plain : link.IsPlain) (links left counted rest : List Link) :
    countAll (tally ids links left) counted (link :: rest) =
      if ids.any (·.same link.parent) then
        if ids.any (·.same link.child) then
          match holder? link counted with
          | some held =>
              if held.equals link.child then countAll (tally ids links left) counted rest
              else reject (.crowdedSocket link.parent link.port held link.child)
          | none => countAll (count (tally ids links left) link) (link :: counted) rest
        else reject (.linkToNowhere link.parent link.port link.child)
      else reject (.linkFromNowhere link.parent) := by
  have parent := hasNode_tally ids links left (Value.isAtom_of_isSomeText plain.parent)
  have child := hasNode_tally ids links left (Value.isAtom_of_isSomeText plain.child)
  rw [countAll, parent, child, Value.atom, if_pos plain.port]
  cases ids.any (·.same link.parent) with
  | false => rfl
  | true =>
      cases ids.any (·.same link.child) with
      | false => rfl
      | true => rfl

/-- Links have nodes at their ends, and every socket is given one block. -/
structure Countable (ids : List Value) (links : List Link) : Prop where
  ends : ∀ link ∈ links, link.parent ∈ ids ∧ link.child ∈ ids
  sockets : ∀ link ∈ links, ∀ other ∈ links, link.SameSocket other → link.child = other.child

/-- An answer that finds the links invalid. Its message can be written under a condition. -/
def Blames {α : Type} (writable : Prop) (answer : Attempt α) : Prop :=
  ∃ cause : Cause, answer = reject cause ∧ cause.family = .invalid ∧
    (writable → cause.message?.isSome = true)

namespace Blames

variable {α : Type} {writable stronger : Prop} {answer : Attempt α}

/-- The condition may be a stronger one. -/
theorem mono (blames : Blames writable answer) (implies : stronger → writable) :
    Blames stronger answer :=
  let ⟨cause, refused, family, told⟩ := blames
  ⟨cause, refused, family, told ∘ implies⟩

/-- A verdict that finds links invalid is of that family. -/
theorem family {verdict : Rejection} (blames : Blames writable answer)
    (refused : answer = .error (.rejected verdict)) : verdict.family = .invalid := by
  obtain ⟨cause, rfl, family, _⟩ := blames
  rw [Rejection.family, reject_eq_rejected.mp refused, family]

/-- There is a verdict, or its message cannot be written. -/
theorem fault_cases (blames : Blames writable answer) :
    (∃ verdict, answer = .error (.rejected verdict) ∧ verdict.family = .invalid) ∨
      answer = .error .tooManyDigits ∧ ¬writable := by
  obtain ⟨cause, rfl, family, told⟩ := blames
  rcases reject_cases α cause with ⟨verdict, refused, caused⟩ | ⟨failed, unwritten⟩
  · exact .inl ⟨verdict, refused, by rw [Rejection.family, caused, family]⟩
  · refine .inr ⟨failed, fun holds => ?_⟩
    have some := told holds
    rw [unwritten] at some
    cases some

end Blames

/-- **What counting comes to.** Links are counted once for each socket, unless one of them has an
end that is no node or a socket is given two blocks. -/
theorem countAll_cases (texts : ∀ id ∈ ids, id.isSomeText = true) (done counted links : List Link)
    (plain : ∀ link ∈ done ++ links, link.IsPlain) (kept_of : Kept done counted.reverse)
    (ends : ∀ link ∈ done, link.parent ∈ ids ∧ link.child ∈ ids) :
    (∃ kept, countAll (tally ids counted.reverse counted.reverse) counted links =
        .ok (tally ids kept kept) ∧ Kept (done ++ links) kept ∧ Countable ids (done ++ links)) ∨
      Blames (∀ link ∈ done ++ links, link.port.display?.isSome = true)
          (countAll (tally ids counted.reverse counted.reverse) counted links) ∧
        ¬Countable ids (done ++ links) := by
  -- What is counted stands for the links that are done, so only a new socket adds to it.
  induction links generalizing done counted with
  | nil =>
      rw [List.append_nil] at plain ⊢
      exact .inl ⟨_, rfl, kept_of, ends, kept_of.sockets plain⟩
  | cons link rest ih =>
      have here : link ∈ done ++ link :: rest := List.mem_append_right _ (List.mem_cons_self ..)
      have linkPlain := plain link here
      have keptPlain : ∀ other ∈ counted.reverse, other.IsPlain := fun other member =>
        plain other (List.mem_append_left _ (kept_of.given other member))
      rw [countAll_cons linkPlain]
      by_cases nodes : link.parent ∈ ids ∧ link.child ∈ ids
      · have endsToo : ∀ other ∈ done ++ [link], other.parent ∈ ids ∧ other.child ∈ ids := by
          intro other member
          rcases List.mem_append.mp member with earlier | latest
          · exact ends other earlier
          · rw [List.mem_singleton.mp latest]
            exact nodes
        rw [if_pos ((any_same_iff texts).mpr nodes.1), if_pos ((any_same_iff texts).mpr nodes.2)]
        cases found : holder? link counted with
        | some held =>
            obtain ⟨other, member, same, rfl⟩ := holder?_eq_some
              (fun other member => keptPlain other (List.mem_reverse.mpr member)) found
            have otherKept := List.mem_reverse.mpr member
            have equals := Value.equals_iff_eq (keptPlain other otherKept).child linkPlain.child
            by_cases child : other.child = link.child
            · simp only [if_pos (equals.mpr child)]
              rw [List.append_cons] at plain ⊢
              exact ih _ _ plain (kept_of.again otherKept same child) endsToo
            · simp only [if_neg (mt equals.mp child)]
              refine .inr ⟨⟨_, rfl, rfl, fun written => ?_⟩, fun countable => child ?_⟩
              · obtain ⟨port, shown⟩ := Option.isSome_iff_exists.mp (written link here)
                simp [Cause.message?, Value.display?_of_isSomeText linkPlain.parent, shown]
              exact countable.sockets other
                (List.mem_append_left _ (kept_of.given other otherKept)) link here same
        | none =>
            have apart : ∀ other ∈ counted.reverse, ¬other.SameSocket link := fun other member =>
              holder?_eq_none linkPlain.parent found other (List.mem_reverse.mp member)
            have grown := kept_of.fresh keptPlain linkPlain.port apart
            rw [← List.reverse_cons] at grown
            rw [List.append_cons] at plain ⊢
            simp only [count_tally, ← List.reverse_cons]
            exact ih _ _ plain grown endsToo
      · refine .inr ?_
        have uncountable : ¬Countable ids (done ++ link :: rest) :=
          fun countable => nodes (countable.ends link here)
        by_cases parent : link.parent ∈ ids
        · have child : link.child ∉ ids := fun child => nodes ⟨parent, child⟩
          rw [if_pos ((any_same_iff texts).mpr parent), if_neg (mt (any_same_iff texts).mp child)]
          refine ⟨⟨_, rfl, rfl, fun _ => ?_⟩, uncountable⟩
          simp [Cause.message?, Value.display?_of_isSomeText linkPlain.parent,
            Value.display?_of_isSomeText linkPlain.child]
        · rw [if_neg (mt (any_same_iff texts).mp parent)]
          refine ⟨⟨_, rfl, rfl, fun _ => ?_⟩, uncountable⟩
          simp [Cause.message?, Value.display?_of_isSomeText linkPlain.parent]

/-- Links that are counted go between nodes, at sockets that can be identified. -/
theorem plain_of_countAll (texts : ∀ id ∈ ids, id.isSomeText = true)
    {kept counted links : List Link} {result : List Entry}
    (done : countAll (tally ids kept kept) counted links = .ok result) :
    ∀ link ∈ links, link.IsPlain := by
  induction links generalizing kept counted with
  | nil => exact fun _ member => nomatch member
  | cons link rest ih =>
      rw [countAll] at done
      obtain ⟨found, parent, done⟩ := Attempt.bind_eq_ok.mp done
      cases found with
      | false => cases done
      | true =>
          obtain ⟨found, child, done⟩ := Attempt.bind_eq_ok.mp done
          cases found with
          | false => cases done
          | true =>
              obtain ⟨_, identified, done⟩ := Attempt.bind_eq_ok.mp done
              have linkPlain : link.IsPlain := ⟨texts _ (mem_of_hasNode texts parent),
                texts _ (mem_of_hasNode texts child), Value.isAtom_of_atom identified⟩
              refine List.forall_mem_cons.mpr ⟨linkPlain, ?_⟩
              cases holder : holder? link counted with
              | some held =>
                  simp only [holder] at done
                  split at done
                  · exact ih done
                  · cases done
              | none =>
                  simp only [holder, count_tally] at done
                  exact ih done

/-- Blocks in two sockets are found. -/
theorem checkParents_cases (links left : List Link) (ids : List Value) :
    (checkParents (tally ids links left) = .ok () ∧ ∀ id ∈ ids, parentsIn left id ≤ 1) ∨
      Blames (∀ id ∈ ids, id.isSomeText = true) (checkParents (tally ids links left)) ∧
        ¬∀ id ∈ ids, parentsIn left id ≤ 1 := by
  induction ids with
  | nil => exact .inl ⟨rfl, fun _ member => nomatch member⟩
  | cons id rest ih =>
      rw [tally_cons, checkParents, List.forall_mem_cons]
      by_cases few : parentsIn left id ≤ 1
      · rw [if_neg (Nat.not_lt.mpr few)]
        rcases ih with ⟨passed, rest⟩ | ⟨blames, many⟩
        · exact .inl ⟨passed, few, rest⟩
        · exact .inr ⟨blames.mono fun texts => (List.forall_mem_cons.mp texts).2,
            fun all => many all.2⟩
      · rw [if_pos (Nat.lt_of_not_le few)]
        refine .inr ⟨⟨_, rfl, rfl, fun texts => ?_⟩, fun all => few all.1⟩
        have text := texts id (List.mem_cons_self ..)
        simp [Cause.message?, Value.display?_of_isSomeText text]

end Forest

end BlockScript
