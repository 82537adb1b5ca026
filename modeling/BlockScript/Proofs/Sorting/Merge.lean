import BlockScript.Sorting.Merge
import BlockScript.Proofs.Sorting.Search

/-! # Merging keeps what sorted runs have

A merge under way is sound when the elements taken so far go on in order with either run, and the
last element of the run held back is overtaken by everything in the other (`Sorting.Merge.Sound`).
Taking elements, one at a time or in stretches, keeps a merge sound, so two sorted runs are merged
to a sorted list of the same elements (`Sorting.mergeRuns_sorted`).
-/

namespace BlockScript

namespace Sorting

variable {α : Type} {R : α → α → Prop} {plan : Plan α}

/-- A plan follows an order: an element of the other run goes first exactly if it would be out of
order behind the one of the held run. -/
structure Plan.Follows (plan : Plan α) (R : α → α → Prop) : Prop where
  trans : ∀ a b c, R a b → R b c → R a c
  total : ∀ a b, R a b ∨ R b a
  overtakes : ∀ a b, plan.overtakes a b = true ↔ ¬ R a b

namespace Plan.Follows

/-- What overtakes an element may stand before it. -/
theorem of_overtakes (follows : plan.Follows R) {a b : α} (overtakes : plan.overtakes a b = true) :
    R b a :=
  (follows.total a b).resolve_left ((follows.overtakes a b).mp overtakes)

/-- What does not overtake an element may stand behind it. -/
theorem of_not_overtakes (follows : plan.Follows R) {a b : α}
    (stays : plan.overtakes a b = false) : R a b := by
  apply Classical.byContradiction
  intro misplaced
  rw [(follows.overtakes a b).mpr misplaced] at stays
  cases stays

/-- What may stand before the first element of a sorted list may stand before all of it. -/
theorem forall_mem (follows : plan.Follows R) {a first : α} {rest : List α}
    (sorted : (first :: rest).Pairwise R) (ordered : R a first) : ∀ b ∈ first :: rest, R a b := by
  intro b member
  rcases List.mem_cons.mp member with rfl | later
  · exact ordered
  · exact follows.trans _ _ _ ordered ((List.pairwise_cons.mp sorted).1 b later)

end Plan.Follows

/-- Elements that go on in order behind what was taken, and before what is left of a run, are taken
in order. -/
theorem pairwise_insert {front middle back : List α} (first : (front ++ middle).Pairwise R)
    (second : (front ++ back).Pairwise R) (ordered : ∀ a ∈ middle, ∀ b ∈ back, R a b) :
    (front ++ middle ++ back).Pairwise R := by
  obtain ⟨_, sorted, behind⟩ := List.pairwise_append.mp second
  refine List.pairwise_append.mpr ⟨first, sorted, ?_⟩
  intro a member b later
  rcases List.mem_append.mp member with earlier | inserted
  · exact behind a earlier b later
  · exact ordered a inserted b later

namespace Merge

/-- The number of elements that are not taken yet. -/
def left (merge : Merge α) : Nat := merge.held.length + merge.other.length

/-- What a merge of some elements keeps. -/
structure Sound (plan : Plan α) (R : α → α → Prop) (all : List α) (merge : Merge α) : Prop where
  elements : merge.result.Perm all
  held : (merge.taken.reverse ++ merge.held).Pairwise R
  other : (merge.taken.reverse ++ merge.other).Pairwise R
  last : ∃ last, merge.held.getLast? = some last ∧ ∀ b ∈ merge.other, plan.overtakes last b = true

namespace Sound

variable {all : List α} {merge : Merge α}

/-- Elements of the held run are taken when they may stand before the other run, and one is left. -/
theorem takeHeld (sound : merge.Sound plan R all) {count : Nat} (inside : count < merge.held.length)
    (ordered : ∀ a ∈ merge.held.take count, ∀ b ∈ merge.other, R a b) :
    (merge.takeHeld count).Sound plan R all where
  elements := by
    refine .trans ?_ sound.elements
    simp only [Merge.takeHeld, result, List.reverse_append, List.reverse_reverse,
      List.append_assoc]
    apply List.Perm.append_left
    rw [← List.append_assoc]
    calc merge.held.take count ++ merge.other ++ merge.held.drop count
      _ |>.Perm (merge.other ++ merge.held.take count ++ merge.held.drop count) :=
          List.perm_append_comm.append_right _
      _ = merge.other ++ merge.held := by rw [List.append_assoc, List.take_append_drop]
  held := by
    simp only [Merge.takeHeld, List.reverse_append, List.reverse_reverse, List.append_assoc,
      List.take_append_drop]
    exact sound.held
  other := by
    simp only [Merge.takeHeld, List.reverse_append, List.reverse_reverse]
    apply pairwise_insert _ sound.other ordered
    exact sound.held.sublist ((List.Sublist.refl _).append (List.take_sublist ..))
  last := by
    obtain ⟨last, found, overtaken⟩ := sound.last
    refine ⟨last, ?_, overtaken⟩
    rw [Merge.takeHeld, List.getLast?_drop, if_neg (by omega), found]

/-- Elements of the other run are taken when they may stand before the held one. -/
theorem takeOther (sound : merge.Sound plan R all) {count : Nat}
    (ordered : ∀ b ∈ merge.other.take count, ∀ a ∈ merge.held, R b a) :
    (merge.takeOther count).Sound plan R all where
  elements := by
    refine .trans ?_ sound.elements
    simp only [Merge.takeOther, result, List.reverse_append, List.reverse_reverse,
      List.append_assoc]
    rw [← List.append_assoc (merge.other.take count), List.take_append_drop]
  held := by
    simp only [Merge.takeOther, List.reverse_append, List.reverse_reverse]
    apply pairwise_insert _ sound.held ordered
    exact sound.other.sublist ((List.Sublist.refl _).append (List.take_sublist ..))
  other := by
    simp only [Merge.takeOther, List.reverse_append, List.reverse_reverse, List.append_assoc,
      List.take_append_drop]
    exact sound.other
  last := by
    obtain ⟨last, found, overtaken⟩ := sound.last
    refine ⟨last, found, ?_⟩
    intro b member
    exact overtaken b (List.mem_of_mem_drop member)

theorem held_sorted (sound : merge.Sound plan R all) : merge.held.Pairwise R :=
  (List.pairwise_append.mp sound.held).2.1

theorem other_sorted (sound : merge.Sound plan R all) : merge.other.Pairwise R :=
  (List.pairwise_append.mp sound.other).2.1

/-- When a merge is settled, all elements are in order. -/
theorem sorted (sound : merge.Sound plan R all) (follows : plan.Follows R)
    (settled : merge.isSettled = true) : merge.result.Pairwise R := by
  obtain ⟨last, found, overtaken⟩ := sound.last
  unfold result
  cases others : merge.other with
  | nil =>
      rw [List.append_nil]
      exact sound.held
  | cons first rest =>
      simp only [isSettled, others, List.isEmpty_cons, Bool.or_false, decide_eq_true_eq] at settled
      have single : merge.held = [last] := by
        obtain ⟨front, whole⟩ := List.getLast?_eq_some_iff.mp found
        rw [whole, List.length_append, List.length_singleton] at settled
        have none : front = [] := List.length_eq_zero_iff.mp (by omega)
        rw [whole, none, List.nil_append]
      rw [← others]
      apply pairwise_insert sound.other sound.held
      intro b member a isLast
      rw [single] at isLast
      rw [List.mem_singleton.mp isLast]
      exact follows.of_overtakes (overtaken b member)

end Sound

/-- Where a merge is not settled, both runs go on, the held one beyond its first element. -/
theorem exists_heads {merge : Merge α} (unsettled : merge.isSettled = false) :
    ∃ a next held b other, merge.held = a :: next :: held ∧ merge.other = b :: other := by
  simp only [isSettled, Bool.or_eq_false_iff, decide_eq_false_iff_not] at unsettled
  obtain ⟨long, some⟩ := unsettled
  match heldRun : merge.held, otherRun : merge.other with
  | _, [] => simp [otherRun] at some
  | [], _ => simp [heldRun] at long
  | [_], _ => simp [heldRun] at long
  | a :: next :: held, b :: other => exact ⟨a, next, held, b, other, rfl, rfl⟩

variable {all : List α}

/-- A step of a merge is good when it keeps the merge sound, and settles it or takes something. -/
def Advances (plan : Plan α) (R : α → α → Prop) (all : List α) (merge after : Merge α) : Prop :=
  after.Sound plan R all ∧ (after.isSettled = true ∨ after.left < merge.left)

/-- Taking one element keeps a merge sound and leaves less of it. -/
theorem Sound.takeOne {merge : Merge α} (sound : merge.Sound plan R all)
    (follows : plan.Follows R) (unsettled : merge.isSettled = false) :
    (merge.takeOne plan).1.Sound plan R all ∧ (merge.takeOne plan).1.left < merge.left := by
  obtain ⟨a, next, held, b, other, heldRun, otherRun⟩ := exists_heads unsettled
  have heldSorted := sound.held_sorted
  have otherSorted := sound.other_sorted
  rw [heldRun] at heldSorted
  rw [otherRun] at otherSorted
  simp only [Merge.takeOne, heldRun, otherRun]
  split
  · rename_i overtakes
    constructor
    · apply sound.takeOther
      intro first taken
      rw [otherRun] at taken
      rw [heldRun, List.mem_singleton.mp taken]
      exact follows.forall_mem heldSorted (follows.of_overtakes overtakes)
    · simp [left, Merge.takeOther, heldRun, otherRun]
  · rename_i stays
    constructor
    · apply sound.takeHeld (by simp [heldRun])
      intro first taken
      rw [heldRun] at taken
      rw [otherRun, List.mem_singleton.mp taken]
      exact follows.forall_mem otherSorted
        (follows.of_not_overtakes (eq_false_of_ne_true stays))
    · simp [left, Merge.takeHeld, heldRun, otherRun]

/-- A stretch of the held run, and the element of the other run that follows it. -/
theorem Sound.stretchHeld {merge : Merge α} (sound : merge.Sound plan R all)
    (follows : plan.Follows R) (unsettled : merge.isSettled = false) :
    Advances plan R all merge (merge.stretchHeld plan).1 := by
  obtain ⟨a, next, held, b, other, heldRun, otherRun⟩ := exists_heads unsettled
  have otherSorted := sound.other_sorted
  rw [otherRun] at otherSorted
  have falls : Falls (fun a => !plan.overtakes a b) merge.held := by
    apply sound.held_sorted.imp
    intro earlier later ordered stays
    simp only [Bool.not_eq_true'] at stays ⊢
    apply eq_false_of_ne_true
    intro overtakes
    exact (follows.overtakes earlier b).mp overtakes
      (follows.trans _ _ _ ordered (follows.of_not_overtakes stays))
  obtain ⟨before, after⟩ := splits_gallop falls plan.bias
  simp only [Merge.stretchHeld, otherRun]
  generalize gallop plan.bias (fun a => !plan.overtakes a b) merge.held = count at before after
  -- The last element is overtaken, so the stretch ends before it.
  have inside : count < merge.held.length := by
    obtain ⟨last, found, overtaken⟩ := sound.last
    apply Nat.lt_of_not_le
    intro outside
    have stays := before last (by
      rw [List.take_of_length_le outside]
      exact List.mem_of_getLast? found)
    have overtakes := overtaken b (by
      rw [otherRun]
      exact List.mem_cons_self ..)
    simp [overtakes] at stays
  have taken : (merge.takeHeld count).Sound plan R all := by
    apply sound.takeHeld inside
    intro first stretched
    rw [otherRun]
    apply follows.forall_mem otherSorted
    exact follows.of_not_overtakes (by simpa using before first stretched)
  split
  · rename_i settled
    exact ⟨taken, .inl settled⟩
  · constructor
    · apply taken.takeOther
      intro first single second later
      have isFirst : first = b := by
        simpa [Merge.takeHeld, otherRun] using single
      rw [isFirst]
      exact follows.of_overtakes (by simpa using after second later)
    · right
      simp only [left, Merge.takeOther, Merge.takeHeld, otherRun, List.length_drop,
        List.length_cons]
      omega

/-- A stretch of the other run, and the element of the held run that follows it. -/
theorem Sound.stretchOther {merge : Merge α} (sound : merge.Sound plan R all)
    (follows : plan.Follows R) (unsettled : merge.isSettled = false) :
    Advances plan R all merge (merge.stretchOther plan).1 := by
  obtain ⟨a, next, held, b, other, heldRun, otherRun⟩ := exists_heads unsettled
  have heldSorted := sound.held_sorted
  rw [heldRun] at heldSorted
  have falls : Falls (plan.overtakes a) merge.other := by
    apply sound.other_sorted.imp
    intro earlier later ordered overtakes
    apply (follows.overtakes a earlier).mpr
    intro stays
    exact (follows.overtakes a later).mp overtakes (follows.trans _ _ _ stays ordered)
  obtain ⟨before, after⟩ := splits_gallop falls plan.bias
  simp only [Merge.stretchOther, heldRun]
  generalize gallop plan.bias (plan.overtakes a) merge.other = count at before after
  have taken : (merge.takeOther count).Sound plan R all := by
    apply sound.takeOther
    intro first stretched
    rw [heldRun]
    exact follows.forall_mem heldSorted (follows.of_overtakes (before first stretched))
  split
  · rename_i settled
    exact ⟨taken, .inl settled⟩
  · constructor
    · apply taken.takeHeld (by simp [Merge.takeOther, heldRun])
      intro first single second later
      have isFirst : first = a := by
        simpa [Merge.takeOther, heldRun] using single
      rw [isFirst]
      exact follows.of_not_overtakes (after second later)
    · right
      simp only [left, Merge.takeOther, Merge.takeHeld, heldRun, List.length_drop,
        List.length_cons]
      omega

/-- Taking a stretch of each run advances a merge. -/
theorem Sound.stretches {merge : Merge α} (sound : merge.Sound plan R all)
    (follows : plan.Follows R) (unsettled : merge.isSettled = false) :
    Advances plan R all merge (merge.stretches plan).1 := by
  -- Whichever run is searched first, two stretches advance the merge as each of them does.
  have both : ∀ one next : Merge α → Merge α × Nat,
      (∀ start : Merge α, start.Sound plan R all → start.isSettled = false →
        Advances plan R all start (one start).1) →
      (∀ start : Merge α, start.Sound plan R all → start.isSettled = false →
        Advances plan R all start (next start).1) →
      Advances plan R all merge
        (if (one merge).1.isSettled then (one merge).1 else (next (one merge).1).1) := by
    intro one next oneAdvances nextAdvances
    obtain ⟨kept, progress⟩ := oneAdvances merge sound unsettled
    split
    · exact ⟨kept, progress⟩
    · rename_i unfinished
      have fewer := progress.resolve_left unfinished
      obtain ⟨later, more⟩ := nextAdvances _ kept (eq_false_of_ne_true unfinished)
      refine ⟨later, ?_⟩
      rcases more with settled | less
      · exact .inl settled
      · exact .inr (Nat.lt_trans less fewer)
  have held : ∀ start : Merge α, start.Sound plan R all → start.isSettled = false →
      Advances plan R all start (start.stretchHeld plan).1 :=
    fun start kept opened => kept.stretchHeld follows opened
  have other : ∀ start : Merge α, start.Sound plan R all → start.isSettled = false →
      Advances plan R all start (start.stretchOther plan).1 :=
    fun start kept opened => kept.stretchOther follows opened
  cases first : plan.heldFirst with
  | true =>
      have parts : (merge.stretches plan).1 =
          if (merge.stretchHeld plan).1.isSettled then (merge.stretchHeld plan).1
          else ((merge.stretchHeld plan).1.stretchOther plan).1 := by
        simp only [Merge.stretches, first, ↓reduceIte]
        split <;> rfl
      rw [parts]
      exact both _ _ held other
  | false =>
      have parts : (merge.stretches plan).1 =
          if (merge.stretchOther plan).1.isSettled then (merge.stretchOther plan).1
          else ((merge.stretchOther plan).1.stretchHeld plan).1 := by
        simp only [Merge.stretches, first, Bool.false_eq_true, ↓reduceIte]
        split <;> rfl
      rw [parts]
      exact both _ _ other held

/-- **A merge is finished.** With as many steps as there are elements left it is settled. -/
theorem Sound.finish {merge : Merge α} (sound : merge.Sound plan R all) (follows : plan.Follows R)
    (steps : Nat) (mode : Mode) (threshold : Nat) (enough : merge.left ≤ steps) :
    (merge.finish plan steps mode threshold).1.Sound plan R all ∧
      (merge.finish plan steps mode threshold).1.isSettled = true := by
  induction steps generalizing merge mode threshold with
  | zero =>
      have none : merge.other = [] := List.length_eq_zero_iff.mp (by unfold left at enough; omega)
      exact ⟨sound, by simp [isSettled, Merge.finish, none]⟩
  | succ steps ih =>
      unfold Merge.finish
      split
      · rename_i settled
        exact ⟨sound, settled⟩
      · rename_i unsettled
        have unsettled := eq_false_of_ne_true unsettled
        cases mode with
        | single otherWon wins =>
            obtain ⟨kept, fewer⟩ := sound.takeOne follows unsettled
            simp only
            generalize (if (merge.takeOne plan).2 = otherWon then wins + 1 else 1) = row
            split
            · exact ih kept _ _ (by omega)
            · exact ih kept _ _ (by omega)
        | stretched =>
            obtain ⟨kept, progress⟩ := sound.stretches follows unsettled
            simp only
            split
            · rename_i settled
              exact ⟨kept, settled⟩
            · rename_i unfinished
              have fewer := progress.resolve_left unfinished
              split
              · exact ih kept _ _ (by omega)
              · exact ih kept _ _ (by omega)

end Merge

/-- A run that is held back and another whose first element comes first of all are merged. -/
theorem mergeHeld_sorted (follows : plan.Follows R) {held other : List α} {last : α}
    (heldSorted : held.Pairwise R) (otherSorted : other.Pairwise R)
    (found : held.getLast? = some last) (overtaken : ∀ b ∈ other, plan.overtakes last b = true)
    (first : ∀ b ∈ other.take 1, ∀ a ∈ held, R b a) (threshold : Nat) :
    (mergeHeld plan threshold held other).1.Pairwise R ∧
      (mergeHeld plan threshold held other).1.Perm (other ++ held) := by
  have started : (⟨held, other, []⟩ : Merge α).Sound plan R (other ++ held) :=
    ⟨.refl _, heldSorted, otherSorted, last, found, overtaken⟩
  have enough : (Merge.takeOther ⟨held, other, []⟩ 1).left ≤ held.length + other.length := by
    simp only [Merge.left, Merge.takeOther, List.length_drop]
    omega
  obtain ⟨sound, settled⟩ :=
    (started.takeOther first).finish follows _ (.single false 0) threshold enough
  exact ⟨sound.sorted follows settled, sound.elements⟩

/-- A relation that tells which elements are before which is an order when not to be after one
another is transitive and total. -/
structure IsOrder (lt : α → α → Bool) : Prop where
  trans : ∀ a b c, lt b a = false → lt c b = false → lt c a = false
  total : ∀ a b, lt b a = false ∨ lt a b = false

/-- A list is in order when no element is before an earlier one. -/
def InOrder (lt : α → α → Bool) (list : List α) : Prop :=
  list.Pairwise fun a b => lt b a = false

section

variable {lt : α → α → Bool}

/-- No element is before itself. -/
theorem IsOrder.irrefl (order : IsOrder lt) (a : α) : lt a a = false :=
  (order.total a a).elim id id

/-- Of two elements one at most is before the other. -/
theorem IsOrder.asymm (order : IsOrder lt) {a b : α} (before : lt a b = true) : lt b a = false := by
  rcases order.total a b with ordered | turned
  · exact ordered
  · rw [before] at turned
    cases turned

/-- A merge from the front follows the order. -/
theorem follows_forward (order : IsOrder lt) :
    Plan.Follows ⟨fun a b => lt b a, .later, true⟩ fun a b => lt b a = false where
  trans := order.trans
  total := order.total
  overtakes a b := by simp

/-- A merge from the back follows the order turned around. -/
theorem follows_backward (order : IsOrder lt) :
    Plan.Follows ⟨lt, .earlier, false⟩ fun a b => lt a b = false where
  trans a b c first second := order.trans c b a second first
  total a b := (order.total a b).symm
  overtakes a b := by simp

/-- A merge of the middle parts of two runs stands in order between the parts that stay. -/
theorem pairwise_between {low left merged right high : List α} (first : (low ++ left).Pairwise R)
    (second : (right ++ high).Pairwise R) (sorted : merged.Pairwise R)
    (elements : merged.Perm (left ++ right)) (lower : ∀ a ∈ low, ∀ b ∈ right ++ high, R a b)
    (higher : ∀ a ∈ left, ∀ b ∈ high, R a b) : (low ++ merged ++ high).Pairwise R := by
  obtain ⟨lowSorted, _, lowLeft⟩ := List.pairwise_append.mp first
  obtain ⟨_, highSorted, rightHigh⟩ := List.pairwise_append.mp second
  apply List.pairwise_append.mpr
  refine ⟨List.pairwise_append.mpr ⟨lowSorted, sorted, ?_⟩, highSorted, ?_⟩
  · intro a isLow b isMerged
    rcases List.mem_append.mp (elements.mem_iff.mp isMerged) with isLeft | isRight
    · exact lowLeft a isLow b isLeft
    · exact lower a isLow b (List.mem_append_left _ isRight)
  · intro a isFront b isHigh
    rcases List.mem_append.mp isFront with isLow | isMerged
    · exact lower a isLow b (List.mem_append_right _ isHigh)
    · rcases List.mem_append.mp (elements.mem_iff.mp isMerged) with isLeft | isRight
      · exact higher a isLeft b isHigh
      · exact rightHigh a isRight b isHigh

/-- The last element of a sorted list may stand behind all of it. -/
theorem InOrder.le_last (order : IsOrder lt) {list : List α} (sorted : InOrder lt list) {last : α}
    (found : list.getLast? = some last) : ∀ a ∈ list, lt last a = false := by
  obtain ⟨front, rfl⟩ := List.getLast?_eq_some_iff.mp found
  intro a member
  rcases List.mem_append.mp member with earlier | isLast
  · exact (List.pairwise_append.mp sorted).2.2 a earlier last (List.mem_singleton_self last)
  · rw [List.mem_singleton.mp isLast]
    exact order.irrefl last

/-- The middle parts of two runs, of which the second has the first element and the first the last
one, are merged from either end. -/
theorem merge_middle (order : IsOrder lt) {left right : List α} {start last : α}
    (leftSorted : InOrder lt left) (rightSorted : InOrder lt right)
    (starts : right.head? = some start) (ends : left.getLast? = some last)
    (above : ∀ a ∈ left, lt start a = true) (below : ∀ b ∈ right, lt b last = true)
    (threshold : Nat) :
    InOrder lt (mergeHeld ⟨fun a b => lt b a, .later, true⟩ threshold left right).1 ∧
      (mergeHeld ⟨fun a b => lt b a, .later, true⟩ threshold left right).1.Perm (left ++ right) ∧
    InOrder lt (mergeHeld ⟨lt, .earlier, false⟩ threshold right.reverse left.reverse).1.reverse ∧
      (mergeHeld ⟨lt, .earlier, false⟩ threshold right.reverse left.reverse).1.reverse.Perm
        (left ++ right) := by
  have leftFirst : ∀ b ∈ right.take 1, ∀ a ∈ left, lt a b = false := by
    intro b isFirst a member
    obtain ⟨rest, rfl⟩ := List.head?_eq_some_iff.mp starts
    rw [List.mem_singleton.mp isFirst]
    exact order.asymm (above a member)
  have rightFirst : ∀ a ∈ left.reverse.take 1, ∀ b ∈ right.reverse, lt a b = false := by
    intro a isFirst b member
    obtain ⟨front, rfl⟩ := List.getLast?_eq_some_iff.mp ends
    rw [List.reverse_append] at isFirst
    rw [List.mem_singleton.mp isFirst]
    exact order.asymm (below b (List.mem_reverse.mp member))
  obtain ⟨forwardSorted, forwardElements⟩ :=
    mergeHeld_sorted (follows_forward order) leftSorted rightSorted ends below leftFirst threshold
  obtain ⟨backwardSorted, backwardElements⟩ :=
    mergeHeld_sorted (follows_backward order) (List.pairwise_reverse.mpr rightSorted)
      (List.pairwise_reverse.mpr leftSorted) (by rw [List.getLast?_reverse, starts])
      (fun a member => above a (List.mem_reverse.mp member)) rightFirst threshold
  refine ⟨forwardSorted, forwardElements.trans List.perm_append_comm,
    List.pairwise_reverse.mpr backwardSorted, ?_⟩
  apply (List.reverse_perm _).trans
  apply backwardElements.trans
  exact (List.reverse_perm left).append (List.reverse_perm right)

/-- What a merge makes of the middle parts stands in order between the parts of the runs that stay
where they are. -/
theorem merge_between (order : IsOrder lt) {low left merged second : List α} {last : α} {cut : Nat}
    (firstSorted : InOrder lt (low ++ left)) (secondSorted : InOrder lt second)
    (ends : left.getLast? = some last) (lowest : ∀ a ∈ low, ∀ b ∈ second, lt b a = false)
    (beyond : ∀ b ∈ second.drop cut, lt b last = false)
    (merges : InOrder lt merged ∧ merged.Perm (left ++ second.take cut)) :
    InOrder lt (low ++ merged ++ second.drop cut) ∧
      (low ++ merged ++ second.drop cut).Perm (low ++ left ++ second) := by
  obtain ⟨sorted, elements⟩ := merges
  have parts : (second.take cut ++ second.drop cut).Pairwise fun a b => lt b a = false := by
    rw [List.take_append_drop]
    exact secondSorted
  constructor
  · apply pairwise_between firstSorted parts sorted elements
    · rw [List.take_append_drop]
      exact lowest
    · intro a isLeft b isHigh
      have leftSorted : InOrder lt left := (List.pairwise_append.mp firstSorted).2.1
      exact order.trans _ _ _ (leftSorted.le_last order ends a isLeft) (beyond b isHigh)
  · calc low ++ merged ++ second.drop cut
      _ |>.Perm (low ++ (left ++ second.take cut) ++ second.drop cut) :=
          (elements.append_left low).append_right _
      _ = low ++ left ++ second := by
          rw [← List.append_assoc low, List.append_assoc (low ++ left), List.take_append_drop]

/-- The first element of a sorted list may stand before all of it. -/
theorem InOrder.head_le (order : IsOrder lt) {start : α} {rest : List α}
    (sorted : InOrder lt (start :: rest)) : ∀ b ∈ start :: rest, lt b start = false := by
  intro b member
  rcases List.mem_cons.mp member with rfl | later
  · exact order.irrefl b
  · exact (List.pairwise_cons.mp sorted).1 b later

/-- The search in the first run finds the elements that the start of the second is before. -/
theorem InOrder.gallop_start (order : IsOrder lt) {first : List α} (sorted : InOrder lt first)
    (start : α) :
    (∀ a ∈ first.take (gallop .later (fun a => !lt start a) first), lt start a = false) ∧
      ∀ a ∈ first.drop (gallop .later (fun a => !lt start a) first), lt start a = true := by
  have falls : Falls (fun a => !lt start a) first := by
    apply sorted.imp
    intro earlier later ordered below
    simp only [Bool.not_eq_true'] at below ⊢
    exact order.trans _ _ _ ordered below
  obtain ⟨lower, upper⟩ := splits_gallop falls .later
  simp only [Bool.not_eq_true', Bool.not_eq_false'] at lower upper
  exact ⟨lower, upper⟩

/-- The search in the second run, from its end, finds the elements that are before the last one of
the first. -/
theorem InOrder.gallop_last (order : IsOrder lt) {second : List α} (sorted : InOrder lt second)
    (last : α) :
    (∀ b ∈ second.take
        (second.length - gallop .earlier (fun b => !lt b last) second.reverse), lt b last = true) ∧
      ∀ b ∈ second.drop
        (second.length - gallop .earlier (fun b => !lt b last) second.reverse),
        lt b last = false := by
  have falls : Falls (fun b => !lt b last) second.reverse := by
    apply List.pairwise_reverse.mpr
    apply sorted.imp
    intro earlier later ordered beyond
    simp only [Bool.not_eq_true'] at beyond ⊢
    exact order.trans _ _ _ beyond ordered
  obtain ⟨beyond, below⟩ := splits_gallop falls .earlier
  rw [List.take_reverse] at beyond
  rw [List.drop_reverse] at below
  simp only [List.mem_reverse, Bool.not_eq_true', Bool.not_eq_false'] at beyond below
  exact ⟨below, beyond⟩

/-- A part cut off the front of a run has its start when nothing behind the cut can be it. -/
theorem head?_take_of_not_mem_drop {second : List α} {start : α} {cut : Nat}
    (starts : second.head? = some start) (early : start ∉ second.drop cut) :
    (second.take cut).head? = some start := by
  cases cut with
  | zero =>
      rw [List.drop_zero] at early
      exact absurd (List.mem_of_head? starts) early
  | succ cut => rw [List.head?_take, if_neg (by omega), starts]

/-- **Two runs that are in order are merged to one** of the same elements. -/
theorem mergeRuns_sorted (order : IsOrder lt) {first second : List α}
    (firstSorted : InOrder lt first) (secondSorted : InOrder lt second) (threshold : Nat) :
    InOrder lt (mergeRuns lt threshold first second).1 ∧
      (mergeRuns lt threshold first second).1.Perm (first ++ second) := by
  unfold mergeRuns
  split
  · rw [List.append_nil]
    exact ⟨firstSorted, .refl _⟩
  · rename_i start rest
    have startFirst := secondSorted.head_le order
    have starts : (start :: rest).head? = some start := rfl
    obtain ⟨lower, above⟩ := firstSorted.gallop_start order start
    generalize start :: rest = second at *
    simp only
    generalize gallop .later (fun a => !lt start a) first = before at lower above
    have lowest : ∀ a ∈ first.take before, ∀ b ∈ second, lt b a = false := by
      intro a low b member
      exact order.trans _ _ _ (lower a low) (startFirst b member)
    have parts := List.take_append_drop before first
    split
    · rename_i ends
      rw [List.getLast?_eq_none_iff.mp ends, List.append_nil] at parts
      rw [parts] at lowest
      exact ⟨List.pairwise_append.mpr ⟨firstSorted, secondSorted, lowest⟩, .refl _⟩
    · rename_i last ends
      obtain ⟨below, beyond⟩ := secondSorted.gallop_last order last
      generalize second.length - gallop .earlier (fun b => !lt b last) second.reverse = cut
        at beyond below
      -- The second run starts before the last element of the first, so something is merged.
      have headed : (second.take cut).head? = some start := by
        apply head?_take_of_not_mem_drop starts
        intro late
        have before := above last (List.mem_of_getLast? ends)
        rw [beyond start late] at before
        cases before
      rw [← parts] at firstSorted
      have leftSorted : InOrder lt (first.drop before) := (List.pairwise_append.mp firstSorted).2.1
      have rightSorted : InOrder lt (second.take cut) :=
        secondSorted.sublist (List.take_sublist ..)
      obtain ⟨forward, forwardElements, backward, backwardElements⟩ :=
        merge_middle order leftSorted rightSorted headed ends above below threshold
      rw [if_neg (by
        rw [List.isEmpty_iff]
        exact List.ne_nil_of_mem (List.mem_of_head? headed))]
      split
      · have merged := merge_between order firstSorted secondSorted ends lowest beyond
          ⟨forward, forwardElements⟩
        rw [parts] at merged
        exact merged
      · have merged := merge_between order firstSorted secondSorted ends lowest beyond
          ⟨backward, backwardElements⟩
        rw [parts] at merged
        exact merged

end

end Sorting

end BlockScript
