import BlockScript.Proofs.Forest.Settle
import BlockScript.Proofs.Sorting.Basic

/-! # The check decides the forests

`check_decides`: for nodes and edges of the right shape, the check accepts exactly the forests, and
then gives the top-level blocks in order. It blames a cycle exactly when nothing but a cycle is
wrong, naming the blocks that no top-level block leads to, and finds the links invalid exactly when
something else is.
-/

namespace BlockScript

namespace Value

open Sorting

/-- Values are ordered by their characters. -/
theorem chars_isOrder : IsOrder fun a b : Value => a.chars < b.chars where
  trans _ _ _ first second := by
    rw [decide_eq_false_iff_not, String.not_lt] at first second ⊢
    exact String.le_trans first second
  total a b := by
    rw [decide_eq_false_iff_not, decide_eq_false_iff_not, String.not_lt, String.not_lt]
    exact String.le_total a.chars b.chars

/-- Different texts are put in increasing order. -/
theorem inOrder_texts {values : List Value} (texts : ∀ value ∈ values, value.isSomeText = true)
    (distinct : values.Nodup) :
    ∃ sorted, inOrder values = .ok sorted ∧ sorted.Pairwise (fun a b => a.chars < b.chars) ∧
      sorted.Perm values := by
  unfold inOrder
  split
  · rename_i short
    refine ⟨values, rfl, ?_, .refl _⟩
    match values with
    | [] => exact .nil
    | [_] => exact List.pairwise_singleton ..
    | _ :: _ :: _ => simp only [List.length_cons] at short; omega
  · rw [if_pos (List.all_eq_true.mpr texts)]
    obtain ⟨inOrder, perm⟩ := sorted_inOrder chars_isOrder values
    refine ⟨_, rfl, ?_, perm⟩
    apply (inOrder.and (perm.nodup_iff.mpr distinct)).imp_of_mem
    rintro a b aMember bMember ⟨notAfter, different⟩
    rw [decide_eq_false_iff_not, String.not_lt] at notAfter
    -- Texts with the same characters are one text.
    by_contra notBefore
    apply different
    rw [eq_text_of_isSomeText (texts a (perm.mem_iff.mp aMember)),
      eq_text_of_isSomeText (texts b (perm.mem_iff.mp bMember)),
      String.le_antisymm notAfter (String.not_lt.mp notBefore)]

end Value

namespace Forest

variable {ids nodes edges : List Value} {links kept : List Link}

/-- Every id is there once. -/
theorem nodup_iff_countP (texts : ∀ id ∈ ids, id.isSomeText = true) :
    ids.Nodup ↔ ∀ id ∈ ids, ids.countP (·.same id) ≤ 1 := by
  classical
  have counts : ∀ id ∈ ids, ids.countP (·.same id) = ids.count id := by
    intro id member
    apply List.countP_congr
    intro other _
    rw [Value.same_iff_eq (texts id member), beq_iff_eq]
  rw [List.nodup_iff_count_le_one]
  constructor
  · intro once id member
    rw [counts id member]
    exact once id
  · intro once id
    by_cases member : id ∈ ids
    · rw [← counts id member]
      exact once id member
    · rw [List.count_eq_zero_of_not_mem member]
      exact Nat.zero_le 1

/-- A member that has to be there is there. -/
theorem member_of_select {node value : Value} {name : String}
    (selected : node.select name = .ok value) : node.member name = .ok value := by
  unfold Value.select at selected
  split at selected
  · split at selected
    · rename_i found
      rw [Value.member, Value.member?, found]
      exact congrArg _ (Except.ok.inj selected)
    · cases selected
  · cases selected

/-- The ids of nodes with names are texts. -/
theorem texts_of_named (named : ∀ node ∈ nodes, ∃ name, node.select "id" = .ok (.text name))
    (identified : nodes.mapM (·.select "id") = .ok ids) : ∀ id ∈ ids, id.isSomeText = true := by
  intro id member
  obtain ⟨node, inNodes, selected⟩ := (Attempt.mem_mapM identified).mp member
  obtain ⟨name, isText⟩ := named node inNodes
  rw [isText] at selected
  cases selected
  rfl

/-- A node that has an id can be asked for any member. -/
theorem exists_member_of_select {node value : Value} {name : String}
    (selected : node.select name = .ok value) (other : String) :
    ∃ found, node.member other = .ok found := by
  unfold Value.select at selected
  split at selected
  · exact ⟨_, rfl⟩
  · cases selected

/-- Ids that are missing or repeated are found. -/
theorem checkIds_cases (all : List Value)
    (identified : List.Forall₂ (fun node id => node.select "id" = .ok id) nodes ids) :
    (checkIds all nodes = .ok () ∧
        ∀ id ∈ ids, id.isTrue = true ∧ all.countP (·.same id) ≤ 1) ∨
      Blames (∀ id ∈ ids, id.isSomeText = true) (checkIds all nodes) ∧
        ¬∀ id ∈ ids, id.isTrue = true ∧ all.countP (·.same id) ≤ 1 := by
  induction identified with
  | nil => exact .inl ⟨rfl, fun _ member => nomatch member⟩
  | @cons node id rest others selected _ ih =>
      rw [checkIds, member_of_select selected, List.forall_mem_cons]
      by_cases truth : id.isTrue = true
      · by_cases once : all.countP (·.same id) ≤ 1
        · have skipped : checkIds all (node :: rest) = checkIds all rest := by
            rw [checkIds, member_of_select selected]
            exact (if_pos truth).trans (if_neg (Nat.not_lt.mpr once))
          rw [checkIds, member_of_select selected] at skipped
          rcases ih with ⟨passed, rest⟩ | ⟨blames, wrong⟩
          · exact .inl ⟨skipped.trans passed, ⟨truth, once⟩, rest⟩
          · refine .inr ⟨?_, fun all => wrong all.2⟩
            rw [skipped]
            exact blames.mono fun texts => (List.forall_mem_cons.mp texts).2
        · refine .inr ⟨⟨.repeatedId id, ?_, rfl, fun texts => ?_⟩, fun all => once all.1.2⟩
          · exact (if_pos truth).trans (if_pos (Nat.lt_of_not_le once))
          · have text := texts id (List.mem_cons_self ..)
            simp [Cause.message?, Value.display?_of_isSomeText text]
      · obtain ⟨kind, typed⟩ := exists_member_of_select selected "type"
        refine .inr ⟨⟨.missingId kind, ?_, rfl, fun _ => rfl⟩, fun all => truth all.1.1⟩
        rw [typed]
        exact if_neg truth

/-- Ids that pass are there, and none of them is repeated. -/
theorem forall_of_checkIds {all : List Value}
    (identified : List.Forall₂ (fun node id => node.select "id" = .ok id) nodes ids)
    (passed : checkIds all nodes = .ok ()) :
    ∀ id ∈ ids, id.isTrue = true ∧ all.countP (·.same id) ≤ 1 := by
  rcases checkIds_cases all identified with ⟨_, good⟩ | ⟨⟨_, failed, _⟩, _⟩
  · exact good
  · rw [failed] at passed
    cases passed

/-- Nodes of different ids are added one after the other. -/
theorem foldlM_addNode (more done : List Value)
    (texts : ∀ id ∈ done ++ more, id.isSomeText = true) (distinct : (done ++ more).Nodup) :
    more.foldlM addNode (tally done [] []) = .ok (tally (done ++ more) [] []) := by
  induction more generalizing done with
  | nil =>
      rw [List.append_nil]
      rfl
  | cons id rest ih =>
      have member : id ∈ done ++ id :: rest := List.mem_append_right _ (List.mem_cons_self ..)
      have absent : id ∉ done := fun earlier =>
        (List.nodup_append.mp distinct).2.2 id earlier id (List.mem_cons_self ..) rfl
      have doneTexts : ∀ other ∈ done, other.isSomeText = true :=
        fun other earlier => texts other (List.mem_append_left _ earlier)
      have added : addNode (tally done [] []) id = .ok (tally (done ++ [id]) [] []) := by
        unfold addNode Value.atom
        rw [if_pos (Value.isAtom_of_isSomeText (texts id member))]
        refine (if_neg ?_).trans ?_
        · rw [tally, List.any_map]
          exact mt (any_same_iff doneTexts).mp absent
        · rw [tally, tally, List.map_append]
          rfl
      rw [List.append_cons] at texts distinct ⊢
      rw [List.foldlM_cons, added]
      exact ih (done ++ [id]) texts distinct

/-- The verdict once all links are counted. -/
def conclude (size : Nat) (entries : List Entry) : Attempt (List Value) := do
  checkParents entries
  let roots := rootsOf entries
  let (remaining, settled) := settle entries.length entries roots
  if settled = size then return roots
  else
    let cycle ← Value.inOrder ((remaining.filter (0 < ·.parents)).map (·.id))
    reject (.cycle cycle)

/-- The roots are the answer if all nodes are settled, and otherwise the rest is rejected as a
cycle. -/
theorem conclude_eq {size settled : Nat} {entries remaining : List Entry}
    (passed : checkParents entries = .ok ())
    (ran : settle entries.length entries (rootsOf entries) = (remaining, settled)) :
    conclude size entries =
      if settled = size then .ok (rootsOf entries)
      else
        Value.inOrder ((remaining.filter (0 < ·.parents)).map (·.id)) >>=
          fun cycle => reject (.cycle cycle) := by
  unfold conclude
  simp only [ran]
  rw [passed]
  rfl

/-- The check begins with the ids, -/
theorem check_eq (identified : nodes.mapM (·.select "id") = .ok ids) (edges : List Value) :
    check (.list nodes) (.list edges) =
      (do
        checkIds ids nodes
        let entries ← entries (.list nodes) (.list edges)
        conclude nodes.length entries) := by
  have read : nodes.mapM (·.member "id") = .ok ids := by
    rw [Attempt.mapM_eq_ok] at identified ⊢
    exact identified.imp fun _ _ => member_of_select
  unfold check
  change (nodes.mapM (·.member "id") >>= _) = _
  rw [read]
  rfl

/-- and goes on with the links when they are good. -/
theorem entries_eq (identified : nodes.mapM (·.select "id") = .ok ids)
    (texts : ∀ id ∈ ids, id.isSomeText = true) (distinct : ids.Nodup) (edges : List Value) :
    entries (.list nodes) (.list edges) =
      Link.collect (.list nodes) (.list edges) >>= countAll (tally ids [] []) [] := by
  unfold entries
  change (nodes.mapM (·.select "id") >>= _) = _
  have bare := foldlM_addNode ids [] texts distinct
  rw [List.nil_append] at bare
  rw [identified]
  change (ids.foldlM addNode (tally [] [] []) >>= _) = _
  rw [bare]
  rfl

/-- What the check may come to, for the ids of the nodes and the links. -/
inductive Judged (ids : List Value) (links : List Link) : Attempt (List Value) → Prop
  | accepted {roots : List Value} :
      Wired ids links → Acyclic links → roots.Sublist ids →
        (∀ id, id ∈ roots ↔ id ∈ ids ∧ Parentless links id) → Judged ids links (.ok roots)
  | cyclic {cycle : List Value} :
      Wired ids links → ¬Acyclic links → cycle.Pairwise (fun a b => a.chars < b.chars) →
        (∀ id, id ∈ cycle ↔ id ∈ ids ∧ ¬Reached ids links id) →
          Judged ids links (reject (.cycle cycle))
  | invalid {answer : Attempt (List Value)} :
      Blames (∀ link ∈ links, link.port.display?.isSome = true) answer → ¬Wired ids links →
        Judged ids links answer

/-- What is accepted is a forest, and comes with its top-level blocks. -/
theorem Judged.forest {roots : List Value} (judged : Judged ids links (.ok roots)) :
    Wired ids links ∧ Acyclic links ∧ roots.Sublist ids ∧
      ∀ id, id ∈ roots ↔ id ∈ ids ∧ Parentless links id := by
  cases judged with
  | accepted wired acyclic sublist top => exact ⟨wired, acyclic, sublist, top⟩
  | invalid blames _ => rcases blames.fault_cases with ⟨_, failed, _⟩ | ⟨failed, _⟩ <;> cases failed

/-- Once the links are counted, blocks in two sockets and cycles are found. -/
theorem conclude_judged (texts : ∀ id ∈ ids, id.isSomeText = true)
    (plain : ∀ link ∈ links, link.IsPlain) (named : Value.text "" ∉ ids) (distinct : ids.Nodup)
    (kept_of : Kept links kept) (countable : Countable ids links) :
    Judged ids links (conclude ids.length (tally ids kept kept)) := by
  have plugs := kept_of.parents_le_one_iff texts plain
    fun link member => (countable.ends link member).2
  rcases checkParents_cases kept kept ids with ⟨passed, few⟩ | ⟨⟨cause, failed, family, told⟩, many⟩
  · have wired : Wired ids links :=
      ⟨named, distinct, countable.ends, countable.sockets, plugs.mp few⟩
    have sole : Sole ids kept := ⟨texts, distinct,
      fun link member => countable.ends link (kept_of.given link member), kept_of.nodup, few⟩
    obtain ⟨remaining, settled, ran, every, sublist, left⟩ := sole.settle_roots
    simp only [kept_of.reached_iff, ← wired.acyclic_iff] at every left
    have length : (tally ids kept kept).length = ids.length := List.length_map ..
    rw [← length] at ran
    rw [conclude_eq passed ran]
    split
    · rename_i all
      refine .accepted wired (every.mp all) ?_ fun id => ?_
      · rw [rootsOf, map_filter_tally (· == 0)]
        exact List.filter_sublist
      · rw [mem_rootsOf texts, kept_of.parentless_iff]
    · rename_i some
      obtain ⟨cycle, ordered, increasing, perm⟩ :=
        Value.inOrder_texts (fun id member => texts id (sublist.subset member))
          (sublist.nodup distinct)
      rw [ordered]
      exact .cyclic wired (mt every.mpr some) increasing fun id => perm.mem_iff.trans (left id)
  · unfold conclude
    rw [failed]
    exact .invalid ⟨cause, rfl, family, fun _ => told texts⟩
      fun wired => many (plugs.mpr wired.plugs)

/-- **What the check comes to.** -/
theorem check_judged (identified : nodes.mapM (·.select "id") = .ok ids)
    (texts : ∀ id ∈ ids, id.isSomeText = true)
    (collected : Link.collect (.list nodes) (.list edges) = .ok links)
    (plain : ∀ link ∈ links, link.IsPlain) :
    Judged ids links (check (.list nodes) (.list edges)) := by
  have each := Attempt.mapM_eq_ok.mp identified
  rw [check_eq identified, each.length_eq]
  rcases checkIds_cases ids each with ⟨passed, good⟩ | ⟨⟨cause, failed, family, told⟩, wrong⟩
  · have distinct : ids.Nodup := (nodup_iff_countP texts).mpr fun id member => (good id member).2
    have named : Value.text "" ∉ ids := fun member =>
      (Value.isTrue_iff_ne_empty rfl).mp (good _ member).1 rfl
    rw [passed, entries_eq identified texts distinct, collected]
    change Judged ids links (countAll (tally ids [] []) [] links >>= conclude ids.length)
    have cases := countAll_cases texts [] [] links plain .nil fun _ member => nomatch member
    rw [List.reverse_nil, List.nil_append] at cases
    rcases cases with ⟨kept, counted, kept_of, countable⟩ | ⟨⟨cause, failed, family, told⟩, wrong⟩
    · rw [counted]
      exact conclude_judged texts plain named distinct kept_of countable
    · rw [failed]
      exact .invalid ⟨cause, rfl, family, told⟩ fun wired => wrong ⟨wired.ends, wired.sockets⟩
  · rw [failed]
    refine .invalid ⟨cause, rfl, family, fun _ => told texts⟩
      fun wired => wrong fun id member => ⟨?_, ?_⟩
    · apply (Value.isTrue_iff_ne_empty (texts id member)).mpr
      rintro rfl
      exact wired.named member
    · exact (nodup_iff_countP texts).mp wired.distinct id member

/-- An answer decides whether links between nodes make a forest. It gives the blocks without a
parent, in the order of the nodes, or the reason why there is none: a cycle, when nothing else is
wrong, with the blocks that no top-level block leads to in order. That something else is wrong is
told unless a socket is named by an integer that has too many digits to be written. -/
structure Decides (ids : List Value) (links : List Link) (answer : Attempt (List Value)) :
    Prop where
  accepts : (∃ roots, answer = .ok roots) ↔ Wired ids links ∧ Acyclic links
  cyclic : (∃ verdict, answer = .error (.rejected verdict) ∧ verdict.family = .cyclic) ↔
    Wired ids links ∧ ¬Acyclic links
  invalid : (∃ verdict, answer = .error (.rejected verdict) ∧ verdict.family = .invalid) ∨
    answer = .error .tooManyDigits ↔ ¬Wired ids links
  told : (∀ link ∈ links, link.port.display?.isSome = true) → answer ≠ .error .tooManyDigits
  roots : ∀ roots, answer = .ok roots →
    roots.Sublist ids ∧ ∀ id, id ∈ roots ↔ id ∈ ids ∧ Parentless links id
  cycle : ∀ verdict, answer = .error (.rejected verdict) → verdict.family = .cyclic →
    ∃ cycle, verdict.details.get? "cycle" = some (.list cycle) ∧
      cycle.Pairwise (fun a b => a.chars < b.chars) ∧
      ∀ id, id ∈ cycle ↔ id ∈ ids ∧ ¬Reached ids links id

/-- A judgement decides what the answer is. -/
theorem Judged.decides {answer : Attempt (List Value)} (judged : Judged ids links answer) :
    Decides ids links answer := by
  cases judged with
  | accepted wired acyclic sublist top =>
      constructor
      · exact ⟨fun _ => ⟨wired, acyclic⟩, fun _ => ⟨_, rfl⟩⟩
      · exact ⟨fun ⟨_, failed, _⟩ => (nomatch failed), fun ⟨_, not⟩ => (not acyclic).elim⟩
      · refine ⟨?_, fun not => (not wired).elim⟩
        rintro (⟨_, failed, _⟩ | failed) <;> cases failed
      · exact fun _ failed => nomatch failed
      · rintro _ ⟨⟩
        exact ⟨sublist, top⟩
      · exact fun _ failed => nomatch failed
  | @cyclic cycle wired cyclic increasing left =>
      rcases reject_cases (List Value) (.cycle cycle) with ⟨given, refused, caused⟩ | ⟨_, unwritten⟩
      case inr => cases unwritten
      have family : given.family = .cyclic := congrArg Cause.family caused
      have listed : given.details.get? "cycle" = some (.list cycle) :=
        congrArg (·.details.get? "cycle") caused
      rw [refused]
      constructor
      · exact ⟨fun ⟨_, done⟩ => (nomatch done), fun ⟨_, acyclic⟩ => (cyclic acyclic).elim⟩
      · exact ⟨fun _ => ⟨wired, cyclic⟩, fun _ => ⟨given, rfl, family⟩⟩
      · refine ⟨?_, fun not => (not wired).elim⟩
        rintro (⟨_, ⟨⟩, other⟩ | failed)
        · rw [family] at other
          cases other
        · cases failed
      · exact fun _ failed => nomatch failed
      · exact fun _ done => nomatch done
      · rintro _ ⟨⟩ _
        exact ⟨cycle, listed, increasing, left⟩
  | invalid blames not =>
      have apart : ∀ verdict, answer = .error (.rejected verdict) → verdict.family ≠ .cyclic := by
        intro verdict failed cyclic
        rw [blames.family failed] at cyclic
        cases cyclic
      have failed := blames.fault_cases
      constructor
      · refine ⟨?_, fun ⟨wired, _⟩ => (not wired).elim⟩
        rintro ⟨_, rfl⟩
        rcases failed with ⟨_, failed, _⟩ | ⟨failed, _⟩ <;> cases failed
      · exact ⟨fun ⟨verdict, failed, family⟩ => (apart verdict failed family).elim,
          fun ⟨wired, _⟩ => (not wired).elim⟩
      · exact ⟨fun _ => not, fun _ => failed.imp_right And.left⟩
      · rintro written rfl
        rcases failed with ⟨_, failed, _⟩ | ⟨_, unwritten⟩
        · cases failed
        · exact unwritten written
      · rintro _ rfl
        rcases failed with ⟨_, failed, _⟩ | ⟨failed, _⟩ <;> cases failed
      · exact fun verdict failed family => (apart verdict failed family).elim

/-- **The check decides the forests.** For nodes with texts as ids and links to texts, on the nodes
or as edges, the links that are given are collected, and the check decides whether they make a
forest. -/
theorem check_decides {nodes edges : List Value} (nodesFit : ∀ node ∈ nodes, IsNode node)
    (edgesFit : ∀ edge ∈ edges, IsEdge edge) :
    ∃ ids links, nodes.mapM (·.select "id") = .ok ids ∧
      Link.collect (.list nodes) (.list edges) = .ok links ∧
      (∀ link, link ∈ links ↔ Link.Given nodes edges link) ∧
      Decides ids links (check (.list nodes) (.list edges)) := by
  have named : ∀ node ∈ nodes, ∃ name, node.select "id" = .ok (.text name) :=
    fun node member => (nodesFit node member).id
  obtain ⟨ids, identified⟩ := Attempt.exists_mapM_eq_ok fun node member =>
    let ⟨name, selected⟩ := named node member
    Exists.intro (Value.text name) selected
  obtain ⟨links, collected⟩ := Link.exists_collect nodesFit edgesFit
  have texts := texts_of_named named identified
  have given := Link.mem_collect identified collected
  have plain : ∀ link ∈ links, link.IsPlain := fun link member =>
    Link.isPlain_of_given nodesFit edgesFit ((given link).mp member)
  exact ⟨ids, links, identified, collected, given,
    (check_judged identified texts collected plain).decides⟩

/-- A node with blocks in some sockets and perhaps one that follows. -/
def describeNode (id : String) (inputs : List (String × String)) (next : Option String) : Value :=
  .object [("id", .text id),
    ("inputs", .object (inputs.map fun (port, child) => (port, .text child))),
    ("next", next.elim .null .text)]

/-- An edge from a block to a port of another one. -/
def describeEdge (child parent port : String) : Value :=
  .object [("from", .text child), ("to", .text parent), ("toPort", .text port)]

theorem isNode_describeNode (id : String) (inputs : List (String × String)) (next : Option String) :
    IsNode (describeNode id inputs next) := by
  refine ⟨⟨id, rfl⟩, ⟨inputs.map fun (port, child) => (port, .text child), ?_, ?_⟩,
    ⟨next.elim .null .text, rfl, ?_⟩⟩
  · cases inputs with
    | nil => rfl
    | cons => rfl
  · intro entry member _
    obtain ⟨_, _, rfl⟩ := List.mem_map.mp member
    rfl
  · cases next with
    | none => exact fun truth => nomatch truth
    | some child => exact fun _ => rfl

theorem isEdge_describeEdge (child parent port : String) :
    IsEdge (describeEdge child parent port) :=
  ⟨⟨parent, rfl⟩, ⟨child, rfl⟩, ⟨.text port, rfl, fun _ => rfl⟩⟩

/-- A block with another one in a socket, which an edge says again, beside a ring of two blocks with
a third one hanging from it. -/
def ringNodes : List Value :=
  [describeNode "a" [("VALUE", "b")] none, describeNode "b" [] none,
    describeNode "c" [] (some "d"), describeNode "d" [("NUM", "e")] (some "c"),
    describeNode "e" [] none]

theorem check_decides_ringNodes :
    (∀ node ∈ ringNodes, IsNode node) ∧
      (∀ edge ∈ [describeEdge "b" "a" "VALUE"], IsEdge edge) ∧
      ∃ ids links, ringNodes.mapM (·.select "id") = .ok ids ∧
        Link.collect (.list ringNodes) (.list [describeEdge "b" "a" "VALUE"]) = .ok links ∧
        (∀ link, link ∈ links ↔ Link.Given ringNodes [describeEdge "b" "a" "VALUE"] link) ∧
        Decides ids links
          (check (.list ringNodes) (.list [describeEdge "b" "a" "VALUE"])) := by
  have nodesFit : ∀ node ∈ ringNodes, IsNode node := by
    simp only [ringNodes, List.forall_mem_cons, isNode_describeNode, List.not_mem_nil,
      false_imp_iff, implies_true, and_self]
  have edgesFit : ∀ edge ∈ [describeEdge "b" "a" "VALUE"], IsEdge edge := by
    simp only [List.forall_mem_cons, isEdge_describeEdge, List.not_mem_nil, false_imp_iff,
      implies_true, and_self]
  exact ⟨nodesFit, edgesFit, check_decides nodesFit edgesFit⟩

end Forest

end BlockScript
