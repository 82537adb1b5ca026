import BlockScript.Proofs.Walk

/-! # The walk is a depth first search

The walk keeps a stack on which a block may stand several times, and it looks whether a block has
been seen only when the block is taken off. A recursive search keeps no stack: it visits a block,
searches from each block in its sockets, and then from the block that follows, and counts all that
was met before as seen (`Graph.search`). A block on top of a stack stands for a search that is still
to be made, so both meet the same blocks in the same order (`Graph.descendants_eq_search`).
-/

namespace BlockScript

namespace Graph

variable {n : Nat}

/-! ## The recursive search -/

/-- A block that is seen is one fewer to see. -/
theorem length_unseen_cons {seen : List (Fin n)} {ref : Fin n} (first : ref ∉ seen) :
    (unseen (ref :: seen)).length < (unseen seen).length := by
  rw [(unseen_perm first).length_eq]
  exact Nat.lt_succ_self _

theorem length_unseen_append (met seen : List (Fin n)) :
    (unseen (met ++ seen)).length ≤ (unseen seen).length := by
  apply List.Sublist.length_le
  apply List.monotone_filter_right
  intro ref
  simp only [List.contains_append, Bool.not_or, Bool.and_eq_true]
  exact And.right

mutual

/-- The blocks that a search from a block meets, in order: none if the block has been seen, or else
the block itself, then all that is met from its sockets, and then from the block that follows. -/
def search (graph : Graph n) (seen : List (Fin n)) (ref : Fin n) : List (Fin n) :=
  if ref ∈ seen then []
  else
    let inner := searchSockets graph (ref :: seen) (graph.block ref).inputs
    match (graph.block ref).next with
    | none => ref :: inner
    | some after => ref :: inner ++ search graph (inner ++ ref :: seen) after
termination_by ((unseen seen).length, 0)
decreasing_by
  · exact .left _ _ (length_unseen_cons ‹_›)
  · exact .left _ _ (Nat.lt_of_le_of_lt (length_unseen_append ..) (length_unseen_cons ‹_›))

/-- The blocks that are met by searches from sockets in order, where each counts as seen what was
met before. -/
def searchSockets (graph : Graph n) (seen : List (Fin n)) :
    List (Value × Option (Fin n)) → List (Fin n)
  | [] => []
  | (_, none) :: rest => searchSockets graph seen rest
  | (_, some child) :: rest =>
      let met := search graph seen child
      met ++ searchSockets graph (met ++ seen) rest
termination_by inputs => ((unseen seen).length, inputs.length + 1)
decreasing_by
  · exact .right _ (Nat.lt_succ_self _)
  · exact .right _ (Nat.succ_pos _)
  · exact Prod.Lex.right' _ (length_unseen_append ..) (Nat.lt_succ_self _)

end

variable {graph : Graph n}

theorem search_of_mem {seen : List (Fin n)} {ref : Fin n} (known : ref ∈ seen) :
    graph.search seen ref = [] := by
  rw [search, if_pos known]

/-! ## Searches on a stack -/

namespace Visits

variable {seen stack met : List (Fin n)}

/-- The walk looks only at which blocks have been seen. -/
theorem congr (visits : graph.Visits seen stack met) {known : List (Fin n)}
    (same : ∀ ref, ref ∈ known ↔ ref ∈ seen) : graph.Visits known stack met := by
  induction visits generalizing known with
  | done => exact .done known
  | skip passed _ ih => exact .skip ((same _).mpr passed) (ih same)
  | enter first _ ih =>
      apply Visits.enter
      · intro passed
        exact first ((same _).mp passed)
      · apply ih
        intro ref
        rw [List.mem_cons, List.mem_cons, same]

/-- The walk has one course only. -/
theorem unique (visits : graph.Visits seen stack met) {others : List (Fin n)}
    (again : graph.Visits seen stack others) : met = others := by
  induction visits generalizing others with
  | done =>
      cases again
      rfl
  | skip known _ ih =>
      cases again with
      | skip _ rest => exact ih rest
      | enter first _ => exact (first known).elim
  | enter first _ ih =>
      cases again with
      | skip known _ => exact (first known).elim
      | enter _ rest => rw [ih rest]

end Visits

mutual

/-- **A block on the stack is a search to be made.** When the walk comes to an end from the blocks
below it, with all that the search meets as seen, then it comes to an end with the block on top, and
it meets first what the search meets. -/
theorem visits_search (seen : List (Fin n)) (ref : Fin n) {stack met : List (Fin n)}
    (rest : graph.Visits (graph.search seen ref ++ seen) stack met) :
    graph.Visits seen (ref :: stack) (graph.search seen ref ++ met) := by
  by_cases known : ref ∈ seen
  · rw [search_of_mem known] at rest ⊢
    exact .skip known rest
  · have entered {later : List (Fin n)}
        (walk : graph.Visits
          (graph.searchSockets (ref :: seen) (graph.block ref).inputs ++ ref :: seen)
          ((graph.block ref).next.toList ++ stack) later) :
        graph.Visits seen (ref :: stack)
          (ref :: (graph.searchSockets (ref :: seen) (graph.block ref).inputs ++ later)) := by
      apply Visits.enter known
      rw [Block.links, List.append_assoc]
      exact visits_searchSockets (ref :: seen) _ walk
    rw [search, if_neg known] at rest ⊢
    cases following : (graph.block ref).next with
    | none =>
        rw [following] at rest entered
        apply entered
        apply rest.congr
        grind
    | some after =>
        rw [following] at rest entered
        rw [List.append_assoc]
        apply entered
        apply visits_search
        apply rest.congr
        grind
termination_by ((unseen seen).length, 0)
decreasing_by
  · exact .left _ _ (length_unseen_cons known)
  · exact .left _ _ (Nat.lt_of_le_of_lt (length_unseen_append ..) (length_unseen_cons known))

theorem visits_searchSockets (seen : List (Fin n)) (inputs : List (Value × Option (Fin n)))
    {stack met : List (Fin n)}
    (rest : graph.Visits (graph.searchSockets seen inputs ++ seen) stack met) :
    graph.Visits seen (inputs.filterMap (·.2) ++ stack) (graph.searchSockets seen inputs ++ met) := by
  match inputs with
  | [] =>
      rw [searchSockets] at rest ⊢
      exact rest
  | (_, none) :: others =>
      rw [searchSockets] at rest ⊢
      exact visits_searchSockets seen others rest
  | (_, some child) :: others =>
      rw [searchSockets] at rest ⊢
      rw [List.append_assoc]
      apply visits_search seen child
      apply visits_searchSockets _ others
      apply rest.congr
      grind
termination_by ((unseen seen).length, inputs.length + 1)
decreasing_by
  · exact .right _ (Nat.lt_succ_self _)
  · exact Prod.Lex.right' _ (length_unseen_append ..) (Nat.lt_succ_self _)
  · exact .right _ (Nat.succ_pos _)

end

/-- **The walk is a depth first search.** Blocks may be shared and lead back to themselves. The walk
with a stack comes to an end from every block, and the blocks it has met then are those that the
recursive search meets, in the same order: all blocks that the first one leads to, each of them
once. -/
theorem descendants_eq_search (graph : Graph n) (ref : Fin n) :
    graph.Visits [] [ref] (graph.descendants ref) ∧
      graph.descendants ref = graph.search [] ref ∧
      (graph.descendants ref).Nodup ∧
      ∀ other, other ∈ graph.descendants ref ↔ Relation.ReflTransGen graph.Links ref other := by
  have walk := graph.visits_descendants ref
  have searched := visits_search [] ref (.done (graph.search [] ref ++ []))
  rw [List.append_nil] at searched
  exact ⟨walk, walk.unique searched, walk.nodup, fun _ => mem_descendants⟩

end Graph

end BlockScript
