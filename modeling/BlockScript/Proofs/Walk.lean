import Mathlib.Data.List.Nodup
import Mathlib.Logic.Relation
import BlockScript.Block

/-! # Walks over a graph of blocks

The walk with a stack stops on every graph, shared blocks and cycles included: a block that is
visited spends its links, so the links that are not spent yet and the blocks on the stack become
fewer with every step (`Graph.visits_visit`). It meets every block that the start leads to, and each
of them once (`Graph.mem_descendants`, `Graph.nodup_descendants`).
-/

namespace BlockScript

namespace Graph

variable {n : Nat} {graph : Graph n}

/-- A block links to another one, by a socket or as the one that follows it. -/
def Links (graph : Graph n) (ref child : Fin n) : Prop := child ∈ (graph.block ref).links

/-- The walk from a stack comes to its end and has then met some blocks, in that order. Nothing here
says how many steps it takes. -/
inductive Visits (graph : Graph n) : List (Fin n) → List (Fin n) → List (Fin n) → Prop
  | done (seen : List (Fin n)) : Visits graph seen [] []
  | skip {seen stack met : List (Fin n)} {ref : Fin n} :
      ref ∈ seen → Visits graph seen stack met → Visits graph seen (ref :: stack) met
  | enter {seen stack met : List (Fin n)} {ref : Fin n} :
      ref ∉ seen → Visits graph (ref :: seen) ((graph.block ref).links ++ stack) met →
        Visits graph seen (ref :: stack) (ref :: met)

/-- The blocks that are not seen yet. -/
def unseen (seen : List (Fin n)) : List (Fin n) :=
  (List.finRange n).filter fun ref => !seen.contains ref

/-- The number of links of the blocks that are not seen yet. -/
def linksLeft (graph : Graph n) (seen : List (Fin n)) : Nat :=
  ((unseen seen).flatMap fun ref => (graph.block ref).links).length

theorem linksLeft_nil (graph : Graph n) : graph.linksLeft [] = graph.linkCount := by
  have all : unseen ([] : List (Fin n)) = List.finRange n :=
    List.filter_eq_self.mpr fun _ _ => rfl
  unfold linksLeft
  rw [all, linkCount]

theorem unseen_perm {seen : List (Fin n)} {ref : Fin n} (first : ref ∉ seen) :
    (unseen seen).Perm (ref :: unseen (ref :: seen)) := by
  have member : ref ∈ unseen seen := by
    refine List.mem_filter.mpr ⟨List.mem_finRange ref, ?_⟩
    rw [Bool.not_eq_true', List.contains_eq_mem, decide_eq_false first]
  have others : (unseen seen).erase ref = unseen (ref :: seen) := by
    unfold unseen
    rw [((List.nodup_finRange n).filter _).erase_eq_filter, List.filter_filter]
    apply List.filter_congr
    intro other _
    rw [List.contains_cons, Bool.not_or, bne]
  rw [← others]
  exact List.perm_cons_erase member

/-- A block that is seen for the first time spends its links. -/
theorem linksLeft_cons {seen : List (Fin n)} {ref : Fin n} (first : ref ∉ seen) :
    graph.linksLeft seen = (graph.block ref).links.length + graph.linksLeft (ref :: seen) := by
  unfold linksLeft
  rw [((unseen_perm first).flatMap_right _).length_eq, List.flatMap_cons, List.length_append]

/-- **The walk stops.** As many steps as there are links left and blocks on the stack suffice. -/
theorem visits_visit (steps : Nat) (seen stack : List (Fin n))
    (enough : graph.linksLeft seen + stack.length ≤ steps) :
    graph.Visits seen stack (graph.visit steps seen stack) := by
  induction steps generalizing seen stack with
  | zero =>
      cases stack with
      | nil => exact .done seen
      | cons ref stack =>
          rw [List.length_cons] at enough
          omega
  | succ steps ih =>
      cases stack with
      | nil => exact .done seen
      | cons ref stack =>
          rw [List.length_cons] at enough
          unfold visit
          split
          · rename_i known
            apply Visits.skip known
            apply ih
            omega
          · rename_i unseen
            apply Visits.enter unseen
            apply ih
            rw [linksLeft_cons unseen] at enough
            rw [List.length_append]
            omega

theorem visits_descendants (graph : Graph n) (ref : Fin n) :
    graph.Visits [] [ref] (graph.descendants ref) := by
  apply visits_visit
  rw [linksLeft_nil]
  exact Nat.le_refl _

namespace Visits

variable {seen stack met : List (Fin n)}

theorem not_mem_seen (visits : graph.Visits seen stack met) : ∀ ref ∈ met, ref ∉ seen := by
  induction visits with
  | done => exact fun _ member => nomatch member
  | skip _ _ ih => exact ih
  | enter unseen _ ih =>
      intro other member
      rcases List.mem_cons.mp member with rfl | later
      · exact unseen
      · intro known
        exact ih other later (List.mem_cons_of_mem _ known)

theorem nodup (visits : graph.Visits seen stack met) : met.Nodup := by
  induction visits with
  | done => exact .nil
  | skip _ _ ih => exact ih
  | enter _ rest ih =>
      refine List.nodup_cons.mpr ⟨?_, ih⟩
      intro again
      exact rest.not_mem_seen _ again (List.mem_cons_self ..)

/-- Whatever is met is led to by a block on the stack. -/
theorem reached (visits : graph.Visits seen stack met) :
    ∀ ref ∈ met, ∃ start ∈ stack, Relation.ReflTransGen graph.Links start ref := by
  induction visits with
  | done => exact fun _ member => nomatch member
  | skip _ _ ih =>
      intro other member
      obtain ⟨start, stacked, leads⟩ := ih other member
      exact ⟨start, List.mem_cons_of_mem _ stacked, leads⟩
  | @enter _ _ _ ref _ _ ih =>
      intro other member
      rcases List.mem_cons.mp member with rfl | later
      · exact ⟨other, List.mem_cons_self .., .refl⟩
      · obtain ⟨start, stacked, leads⟩ := ih other later
        rcases List.mem_append.mp stacked with linked | below
        · exact ⟨ref, List.mem_cons_self .., .head linked leads⟩
        · exact ⟨start, List.mem_cons_of_mem _ below, leads⟩

/-- The blocks on the stack are met unless they are seen, and so is all that a block met links
to. -/
theorem closed (visits : graph.Visits seen stack met) :
    (∀ ref ∈ stack, ref ∈ seen ∨ ref ∈ met) ∧
      ∀ ref ∈ met, ∀ child, graph.Links ref child → child ∈ seen ∨ child ∈ met := by
  induction visits with
  | done => exact ⟨fun _ member => (nomatch member), fun _ member => nomatch member⟩
  | skip known _ ih =>
      refine ⟨?_, ih.2⟩
      intro other member
      rcases List.mem_cons.mp member with rfl | below
      · exact .inl known
      · exact ih.1 other below
  | @enter seen _ met ref _ _ ih =>
      -- What the rest of the walk counts as seen includes the block that is entered.
      have widen : ∀ other, other ∈ ref :: seen ∨ other ∈ met →
          other ∈ seen ∨ other ∈ ref :: met := by
        intro other covered
        rcases covered with known | later
        · rcases List.mem_cons.mp known with rfl | earlier
          · exact .inr (List.mem_cons_self ..)
          · exact .inl earlier
        · exact .inr (List.mem_cons_of_mem _ later)
      constructor
      · intro other member
        rcases List.mem_cons.mp member with rfl | below
        · exact .inr (List.mem_cons_self ..)
        · exact widen other (ih.1 other (List.mem_append_right _ below))
      · intro other member child linked
        rcases List.mem_cons.mp member with rfl | later
        · exact widen child (ih.1 child (List.mem_append_left _ linked))
        · exact widen child (ih.2 other later child linked)

end Visits

theorem nodup_descendants (graph : Graph n) (ref : Fin n) : (graph.descendants ref).Nodup :=
  (graph.visits_descendants ref).nodup

/-- The walk from a block meets exactly the blocks that it leads to. -/
theorem mem_descendants {ref other : Fin n} :
    other ∈ graph.descendants ref ↔ Relation.ReflTransGen graph.Links ref other := by
  have visits := graph.visits_descendants ref
  constructor
  · intro member
    obtain ⟨start, stacked, leads⟩ := visits.reached other member
    rw [List.mem_singleton.mp stacked] at leads
    exact leads
  · intro leads
    induction leads with
    | refl => exact (visits.closed.1 ref (List.mem_singleton_self _)).resolve_left List.not_mem_nil
    | tail _ linked ih => exact (visits.closed.2 _ ih _ linked).resolve_left List.not_mem_nil

end Graph

end BlockScript
