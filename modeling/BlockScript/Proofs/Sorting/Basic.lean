import BlockScript.Sorting.Basic
import BlockScript.Proofs.Sorting.Merge

/-! # Sorting sorts

With an order, a list is sorted to a list of the same elements in order (`sorted_inOrder`,
`sorted_perm`). Runs are in order when they are found, when they are filled up and when they are
merged, so how long they are and which are merged first does not matter.
-/

namespace BlockScript

namespace Sorting

variable {α : Type} {lt : α → α → Bool}

/-- An element that is not after the first of a list in order may stand before it. -/
theorem InOrder.cons (order : IsOrder lt) {a first : α} {rest : List α}
    (sorted : InOrder lt (first :: rest)) (ordered : lt first a = false) :
    InOrder lt (a :: first :: rest) := by
  refine List.pairwise_cons.mpr ⟨?_, sorted⟩
  intro b member
  rcases List.mem_cons.mp member with rfl | later
  · exact ordered
  · exact order.trans _ _ _ ordered ((List.pairwise_cons.mp sorted).1 b later)

theorem ascending_inOrder (order : IsOrder lt) (last : α) (list : List α) :
    InOrder lt (last :: (ascending lt last list).1) ∧
      (ascending lt last list).1 ++ (ascending lt last list).2 = list := by
  induction list generalizing last with
  | nil => exact ⟨List.pairwise_singleton .., rfl⟩
  | cons a rest ih =>
      obtain ⟨sorted, whole⟩ := ih a
      unfold ascending
      split
      · exact ⟨List.pairwise_singleton .., rfl⟩
      · rename_i ordered
        exact ⟨sorted.cons order (eq_false_of_ne_true ordered), congrArg (a :: ·) whole⟩

theorem descending_inOrder (order : IsOrder lt) (last : α) (run list : List α)
    (sorted : InOrder lt (last :: run)) :
    InOrder lt (descending lt last (last :: run) list).1 ∧
      (descending lt last (last :: run) list).1 ≠ [] ∧
      ((descending lt last (last :: run) list).1 ++
        (descending lt last (last :: run) list).2).Perm (last :: run ++ list) := by
  induction list generalizing last run with
  | nil => exact ⟨sorted, List.cons_ne_nil _ _, .refl _⟩
  | cons a rest ih =>
      unfold descending
      split
      · rename_i before
        obtain ⟨kept, nonempty, elements⟩ :=
          ih a (last :: run) (sorted.cons order (order.asymm before))
        refine ⟨kept, nonempty, elements.trans ?_⟩
        exact List.perm_middle.symm
      · exact ⟨sorted, List.cons_ne_nil _ _, .refl _⟩

/-- The run at the front of a list is in order, and something is in it if there is. -/
theorem frontRun_inOrder (order : IsOrder lt) (list : List α) :
    InOrder lt (frontRun lt list).1 ∧ (list ≠ [] → (frontRun lt list).1 ≠ []) ∧
      ((frontRun lt list).1 ++ (frontRun lt list).2).Perm list := by
  unfold frontRun
  split
  · rename_i a b rest
    split
    · rename_i before
      have pair : InOrder lt [b, a] :=
        InOrder.cons order (List.pairwise_singleton ..) (order.asymm before)
      obtain ⟨sorted, nonempty, elements⟩ := descending_inOrder order b [a] rest pair
      exact ⟨sorted, fun _ => nonempty, elements.trans (.swap ..)⟩
    · rename_i ordered
      obtain ⟨sorted, whole⟩ := ascending_inOrder order b rest
      refine ⟨sorted.cons order (eq_false_of_ne_true ordered), fun _ => List.cons_ne_nil _ _, ?_⟩
      simp only [List.cons_append, whole]
      exact .refl _
  · rename_i short
    refine ⟨?_, fun nonempty => nonempty, by rw [List.append_nil]⟩
    match list with
    | [] => exact .nil
    | [a] => exact List.pairwise_singleton ..
    | a :: b :: rest => exact (short a b rest rfl).elim

/-- An element is inserted in order. -/
theorem insert_inOrder (order : IsOrder lt) {run : List α} (sorted : InOrder lt run) (a : α) :
    InOrder lt (insert lt run a) ∧ (insert lt run a).Perm (a :: run) := by
  have falls : Falls (fun b => !lt a b) run := by
    apply sorted.imp
    intro earlier later ordered below
    simp only [Bool.not_eq_true'] at below ⊢
    exact order.trans _ _ _ ordered below
  obtain ⟨below, above⟩ := splits_bisect falls .later
  simp only [insert]
  generalize bisect .later (fun b => !lt a b) run.toArray 0 run.length = position at below above
  simp only [Bool.not_eq_true', Bool.not_eq_false'] at below above
  rw [← List.take_append_drop position run] at sorted
  obtain ⟨lowSorted, highSorted, ordered⟩ := List.pairwise_append.mp sorted
  constructor
  · apply List.pairwise_append.mpr
    refine ⟨lowSorted, List.pairwise_cons.mpr ⟨?_, highSorted⟩, ?_⟩
    · intro b high
      exact order.asymm (above b high)
    · intro b low c member
      rcases List.mem_cons.mp member with rfl | high
      · exact below b low
      · exact ordered b low c high
  · apply List.perm_middle.trans
    rw [List.take_append_drop]

theorem foldl_insert_inOrder (order : IsOrder lt) (list : List α) {run : List α}
    (sorted : InOrder lt run) :
    InOrder lt (list.foldl (insert lt) run) ∧ (list.foldl (insert lt) run).Perm (run ++ list) := by
  induction list generalizing run with
  | nil => exact ⟨sorted, by rw [List.append_nil]; exact .refl _⟩
  | cons a rest ih =>
      obtain ⟨inserted, elements⟩ := insert_inOrder order sorted a
      obtain ⟨filled, all⟩ := ih inserted
      refine ⟨filled, all.trans ((elements.append_right rest).trans ?_)⟩
      exact List.perm_middle.symm

/-- A run is filled up in order, and takes something from a list that has something. -/
theorem filledRun_inOrder (order : IsOrder lt) (least : Nat) (list : List α) :
    InOrder lt (filledRun lt least list).1 ∧
      ((filledRun lt least list).1 ++ (filledRun lt least list).2).Perm list ∧
      (list ≠ [] → (filledRun lt least list).2.length < list.length) := by
  obtain ⟨sorted, nonempty, elements⟩ := frontRun_inOrder order list
  simp only [filledRun]
  generalize least - (frontRun lt list).1.length = lacking
  obtain ⟨filled, all⟩ :=
    foldl_insert_inOrder order ((frontRun lt list).2.take lacking) sorted
  refine ⟨filled, ?_, ?_⟩
  · apply (all.append_right _).trans
    rw [List.append_assoc, List.take_append_drop]
    exact elements
  · intro some
    have taken := List.length_pos_iff.mpr (nonempty some)
    have length := elements.length_eq
    rw [List.length_append] at length
    rw [List.length_drop]
    omega

/-- Runs that wait to be merged hold given elements, each run in order. -/
structure Holds (lt : α → α → Bool) (elements : List α) (runs : List (Pending α)) : Prop where
  inOrder : ∀ run ∈ runs, InOrder lt run.elements
  perm : (runs.flatMap Pending.elements).Perm elements

namespace Holds

variable {elements : List α} {latest earlier : Pending α} {runs : List (Pending α)}

/-- A further run holds further elements. -/
theorem cons (holds : Holds lt elements runs) (latest : Pending α)
    (sorted : InOrder lt latest.elements) :
    Holds lt (latest.elements ++ elements) (latest :: runs) where
  inOrder := List.forall_mem_cons.mpr ⟨sorted, holds.inOrder⟩
  perm := holds.perm.append_left _

/-- A run and what the others hold. -/
theorem uncons (holds : Holds lt elements (latest :: runs)) :
    InOrder lt latest.elements ∧
      ∃ others, Holds lt others runs ∧ (latest.elements ++ others).Perm elements := by
  obtain ⟨sorted, rest⟩ := List.forall_mem_cons.mp holds.inOrder
  exact ⟨sorted, _, ⟨rest, .refl _⟩, holds.perm⟩

theorem congr {others : List α} (holds : Holds lt elements runs) (perm : elements.Perm others) :
    Holds lt others runs := ⟨holds.inOrder, holds.perm.trans perm⟩

/-- Two runs in a row are merged with nothing lost. -/
theorem join (order : IsOrder lt) (holds : Holds lt elements (latest :: earlier :: runs))
    (threshold : Nat) : Holds lt elements ((earlier.join lt threshold latest).1 :: runs) := by
  obtain ⟨latestSorted, rest, holdsRest, perm⟩ := holds.uncons
  obtain ⟨earlierSorted, others, holdsOthers, restPerm⟩ := holdsRest.uncons
  obtain ⟨sorted, merged⟩ := mergeRuns_sorted order earlierSorted latestSorted threshold
  have regrouped : (earlier.elements ++ latest.elements ++ others).Perm
      (latest.elements ++ (earlier.elements ++ others)) := by
    rw [← List.append_assoc]
    exact List.perm_append_comm.append_right others
  apply (holdsOthers.cons (earlier.join lt threshold latest).1 sorted).congr
  exact ((merged.append_right others).trans regrouped).trans
    ((restPerm.append_left _).trans perm)

theorem joinDeeper (order : IsOrder lt) (border threshold : Nat) (holds : Holds lt elements runs) :
    Holds lt elements (joinDeeper lt border threshold runs).1 := by
  fun_induction Sorting.joinDeeper lt border threshold runs with
  | case1 threshold latest earlier rest deeper joined lower joining ih =>
      apply ih
      have merged := holds.join order threshold
      rwa [joining] at merged
  | case2 => exact holds
  | case3 => exact holds

theorem addRun (order : IsOrder lt) (length start threshold : Nat) {run : List α}
    (sorted : InOrder lt run) (holds : Holds lt elements runs) :
    Holds lt (run ++ elements) (addRun lt length start threshold run runs).1 := by
  cases runs with
  | nil => exact holds.cons ⟨start, run, 0⟩ sorted
  | cons latest rest =>
      have joined := holds.joinDeeper order (latest.depthTo run.length length) threshold
      simp only [Sorting.addRun]
      rcases done : Sorting.joinDeeper lt (latest.depthTo run.length length) threshold
        (latest :: rest) with ⟨_ | ⟨before, others⟩, lower⟩
      · rw [done] at joined
        exact joined.cons ⟨start, run, 0⟩ sorted
      · rw [done] at joined
        -- The border of a run says nothing of what is in it.
        have marked : Holds lt elements
            ({ before with border := latest.depthTo run.length length } :: others) :=
          ⟨List.forall_mem_cons.mpr (List.forall_mem_cons.mp joined.inOrder), joined.perm⟩
        exact marked.cons ⟨start, run, 0⟩ sorted

/-- **Dividing loses nothing.** After as many steps as a list has elements, all of them are in
runs. -/
theorem divide (order : IsOrder lt) (length least steps start threshold : Nat) (list : List α)
    (enough : list.length ≤ steps) (holds : Holds lt elements runs) :
    Holds lt (list ++ elements) (divide lt length least steps start threshold list runs).1 := by
  induction steps generalizing start threshold list elements runs with
  | zero =>
      rw [List.length_eq_zero_iff.mp (Nat.le_zero.mp enough)]
      exact holds
  | succ steps ih =>
      cases list with
      | nil => exact holds
      | cons a rest =>
          obtain ⟨sorted, perm, shorter⟩ := filledRun_inOrder order least (a :: rest)
          specialize shorter (List.cons_ne_nil a rest)
          simp only [Sorting.divide]
          apply (ih _ _ _ (by omega) (holds.addRun order length start threshold sorted)).congr
          rw [← List.append_assoc]
          exact (List.perm_append_comm.trans perm).append_right elements

/-- **Merging all runs loses nothing.** -/
theorem joinAll (order : IsOrder lt) (threshold : Nat) (holds : Holds lt elements runs) :
    InOrder lt (joinAll lt threshold runs) ∧ (joinAll lt threshold runs).Perm elements := by
  have single {run : Pending α} (holds : Holds lt elements [run]) :
      InOrder lt run.elements ∧ run.elements.Perm elements := by
    obtain ⟨sorted, others, none, perm⟩ := holds.uncons
    refine ⟨sorted, ?_⟩
    rwa [← none.perm.nil_eq, List.append_nil] at perm
  fun_induction Sorting.joinAll lt threshold runs with
  | case1 => exact ⟨.nil, holds.perm⟩
  | case2 threshold run => exact single holds
  | case3 threshold latest middle => exact single (holds.join order threshold)
  | case4 threshold latest middle early rest shorter joined lower joining ih =>
      obtain ⟨sorted, others, others_hold, perm⟩ := holds.uncons
      have merged := others_hold.join order threshold
      rw [joining] at merged
      exact ih ((merged.cons latest sorted).congr perm)
  | case5 threshold latest middle early rest longer joined lower joining ih =>
      have merged := holds.join order threshold
      rw [joining] at merged
      exact ih merged

end Holds

end Sorting

open Sorting

/-- **Sorting sorts.** A sorted list has the elements of the list, in order. -/
theorem sorted_inOrder {α : Type} {lt : α → α → Bool} (order : IsOrder lt) (list : List α) :
    InOrder lt (sorted lt list) ∧ (sorted lt list).Perm list := by
  have none : Holds lt [] [] := ⟨fun _ member => (nomatch member), .refl _⟩
  have divided := none.divide order list.length (leastRun list.length 0) list.length 0
    Merge.worthwhile list (Nat.le_refl _)
  rw [List.append_nil] at divided
  exact divided.joinAll order _

end BlockScript
