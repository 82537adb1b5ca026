import Mathlib.Order.WellFoundedSet
import BlockScript.Forest.Link
import BlockScript.Proofs.Sameness

/-! # Forests of sockets

What it means that links make a forest, with nothing said of how it is found out. When every block
is plugged in once at most, the blocks that no top-level block leads to are those on cycles and
below them, so there is a cycle if and only if some block is not reached (`Wired.acyclic_iff`).
-/

namespace BlockScript

namespace Link

/-- Two links are of the same socket. -/
def SameSocket (link other : Link) : Prop :=
  link.parent = other.parent ∧ link.port.same other.port = true

namespace SameSocket

variable {link other third : Link}

theorem refl (atom : link.port.isAtom = true) : link.SameSocket link :=
  ⟨rfl, Value.same_self atom⟩

theorem symm (first : link.port.isAtom = true) (second : other.port.isAtom = true)
    (same : link.SameSocket other) : other.SameSocket link := by
  refine ⟨same.1.symm, (Value.same_iff_identity second).mpr ?_⟩
  exact ((Value.same_iff_identity first).mp same.2).symm

theorem trans (first : link.port.isAtom = true) (second : other.port.isAtom = true)
    (same : link.SameSocket other) (further : other.SameSocket third) : link.SameSocket third := by
  refine ⟨same.1.trans further.1, (Value.same_iff_identity first).mpr ?_⟩
  exact ((Value.same_iff_identity first).mp same.2).trans
    ((Value.same_iff_identity second).mp further.2)

end SameSocket

end Link

namespace Forest

/-- A block is plugged into a socket of another one or follows it. -/
def Linked (links : List Link) (parent child : Value) : Prop :=
  ∃ link ∈ links, link.parent = parent ∧ link.child = child

/-- No link leads to a block. -/
def Parentless (links : List Link) (id : Value) : Prop := ∀ link ∈ links, link.child ≠ id

/-- A top-level block leads to a block. -/
def Reached (ids : List Value) (links : List Link) (id : Value) : Prop :=
  ∃ root ∈ ids, Parentless links root ∧ Relation.ReflTransGen (Linked links) root id

/-- Every node has an id of its own, links have both ends among the nodes, a socket holds one block
and a block is in one socket. -/
structure Wired (ids : List Value) (links : List Link) : Prop where
  named : Value.text "" ∉ ids
  distinct : ids.Nodup
  ends : ∀ link ∈ links, link.parent ∈ ids ∧ link.child ∈ ids
  sockets : ∀ link ∈ links, ∀ other ∈ links, link.SameSocket other → link.child = other.child
  plugs : ∀ link ∈ links, ∀ other ∈ links, link.child = other.child → link.SameSocket other

/-- No block reaches itself. -/
def Acyclic (links : List Link) : Prop := ∀ id, ¬Relation.TransGen (Linked links) id id

namespace Wired

variable {ids : List Value} {links : List Link}

theorem parent_unique (wired : Wired ids links) {parent other child : Value}
    (linked : Linked links parent child) (further : Linked links other child) :
    parent = other := by
  obtain ⟨link, member, rfl, childIs⟩ := linked
  obtain ⟨second, secondMember, rfl, secondIs⟩ := further
  exact (wired.plugs link member second secondMember (childIs.trans secondIs.symm)).1

/-- Whatever leads to a block that is reached is no cycle. -/
theorem no_cycle (wired : Wired ids links) {root id : Value} (top : Parentless links root)
    (leads : Relation.ReflTransGen (Linked links) root id) :
    ¬Relation.TransGen (Linked links) id id := by
  induction leads with
  | refl =>
      intro cycle
      obtain ⟨before, _, ⟨link, member, _, child⟩⟩ := Relation.TransGen.tail'_iff.mp cycle
      exact top link member child
  | tail _ linked ih =>
      intro cycle
      obtain ⟨before, around, last⟩ := Relation.TransGen.tail'_iff.mp cycle
      -- The cycle comes back by the only link there is, so the block before is on it too.
      rw [wired.parent_unique last linked] at around
      exact ih (.head' linked around)

/-- **Cycles are what is not reached.** -/
theorem acyclic_iff (wired : Wired ids links) :
    Acyclic links ↔ ∀ id ∈ ids, Reached ids links id := by
  constructor
  · intro acyclic id member
    have strict : IsStrictOrder Value (Relation.TransGen (Linked links)) :=
      { irrefl := acyclic, trans := fun _ _ _ => Relation.TransGen.trans }
    have founded := (List.finite_toSet ids).wellFoundedOn (r := Relation.TransGen (Linked links))
    refine founded.induction member (P := Reached ids links) ?_
    intro id member ih
    by_cases top : Parentless links id
    · exact ⟨id, member, top, .refl⟩
    · unfold Parentless at top
      push Not at top
      obtain ⟨link, linkMember, child⟩ := top
      have linked : Linked links link.parent id := ⟨link, linkMember, rfl, child⟩
      obtain ⟨root, rootMember, rootTop, leads⟩ :=
        ih link.parent (wired.ends link linkMember).1 (.single linked)
      exact ⟨root, rootMember, rootTop, leads.tail linked⟩
  · intro reached id cycle
    obtain ⟨_, _, ⟨link, member, _, rfl⟩⟩ := Relation.TransGen.tail'_iff.mp cycle
    obtain ⟨root, _, top, leads⟩ := reached link.child (wired.ends link member).2
    exact wired.no_cycle top leads cycle

end Wired

end Forest

end BlockScript
