import BlockScript.Sorting.Search

/-! # Searches find the border of a run

When the elements with a property come first in a run, both searches give their number
(`Sorting.splits_bisect`, `Sorting.splits_gallop`), whichever elements they ask about.
-/

namespace BlockScript

namespace Sorting

variable {α : Type} {property : α → Bool}

/-- A position parts the elements with a property from those without. -/
def Splits (property : α → Bool) (run : List α) (position : Nat) : Prop :=
  (∀ a ∈ run.take position, property a = true) ∧ ∀ a ∈ run.drop position, property a = false

/-- Where an element has a property, all elements before it have it. -/
def Falls (property : α → Bool) (run : List α) : Prop :=
  run.Pairwise fun earlier later => property later = true → property earlier = true

theorem holdsAt_toArray {run : List α} {position : Nat} (inside : position < run.length) :
    holdsAt property run.toArray position = property run[position] := by
  simp [holdsAt, inside]

theorem lt_length_of_holdsAt {run : List α} {position : Nat}
    (holds : holdsAt property run.toArray position = true) : position < run.length := by
  apply Nat.lt_of_not_le
  intro outside
  simp [holdsAt, List.getElem?_eq_none outside] at holds

theorem Falls.holdsAt {run : List α} (falls : Falls property run) {first second : Nat}
    (ordered : first ≤ second) (holds : holdsAt property run.toArray second = true) :
    holdsAt property run.toArray first = true := by
  have inside := lt_length_of_holdsAt holds
  rcases Nat.eq_or_lt_of_le ordered with rfl | before
  · exact holds
  · rw [holdsAt_toArray inside] at holds
    rw [holdsAt_toArray (by omega)]
    exact List.pairwise_iff_getElem.mp falls first second (by omega) inside before holds

/-- A position is where a property ends when it holds before it and not from it on. -/
theorem splits_of_holdsAt {run : List α} {position : Nat}
    (before : ∀ i < position, holdsAt property run.toArray i = true)
    (after : ∀ i, position ≤ i → holdsAt property run.toArray i = false) :
    Splits property run position := by
  constructor
  · intro a member
    obtain ⟨i, inside, rfl⟩ := List.mem_take_iff_getElem.mp member
    have holds := before i (by omega)
    rw [holdsAt_toArray (by omega)] at holds
    exact holds
  · intro a member
    obtain ⟨i, inside, rfl⟩ := List.mem_drop_iff_getElem.mp member
    have fails := after (position + i) (by omega)
    rw [holdsAt_toArray (by omega)] at fails
    exact fails

/-- Halving finds the border between two positions that have it between them. -/
theorem bisect_border {run : List α} (falls : Falls property run) (bias : Bias) (low high : Nat)
    (ordered : low ≤ high) (before : ∀ i < low, holdsAt property run.toArray i = true)
    (after : ∀ i, high ≤ i → holdsAt property run.toArray i = false) :
    Splits property run (bisect bias property run.toArray low high) := by
  fun_induction bisect bias property run.toArray low high with
  | case1 low high some middle holds ih =>
      have inside := bias.middle_lt (show 0 < high - low by omega)
      apply ih
      · omega
      · intro i below
        exact falls.holdsAt (Nat.le_of_lt_succ below) holds
      · exact after
  | case2 low high some middle fails ih =>
      apply ih
      · omega
      · exact before
      · intro i above
        apply eq_false_of_ne_true
        intro holds
        exact fails (falls.holdsAt above holds)
  | case3 low high none =>
      have same : low = high := by omega
      subst same
      exact splits_of_holdsAt before after

theorem splits_bisect {run : List α} (falls : Falls property run) (bias : Bias) :
    Splits property run (bisect bias property run.toArray 0 run.length) := by
  apply bisect_border falls
  · omega
  · intro i none
    omega
  · intro i outside
    apply eq_false_of_ne_true
    intro holds
    have inside := lt_length_of_holdsAt holds
    omega

/-- Strides end with a position that has the property and a later one that lacks it. -/
theorem stride_border {run : List α} (last position : Nat) (ordered : last < position)
    (holds : holdsAt property run.toArray last = true) :
    let ended := stride property run.toArray last position
    ended.1 < ended.2 ∧ holdsAt property run.toArray ended.1 = true ∧
      holdsAt property run.toArray ended.2 = false := by
  fun_induction stride property run.toArray last position with
  | case1 last position inside found ih =>
      apply ih
      · omega
      · exact found
  | case2 last position inside missing => exact ⟨ordered, holds, by simpa using missing⟩
  | case3 last position outside =>
      refine ⟨ordered, holds, ?_⟩
      apply eq_false_of_ne_true
      intro found
      exact outside (lt_length_of_holdsAt found)

/-- Galloping gives the number of first elements that have the property. -/
theorem splits_gallop {run : List α} (falls : Falls property run) (bias : Bias) :
    Splits property run (gallop bias property run) := by
  simp only [gallop]
  split
  · rename_i first
    obtain ⟨ordered, met, missed⟩ := stride_border 0 1 (by omega) first
    have inside := lt_length_of_holdsAt met
    apply bisect_border falls
    · rw [List.size_toArray]
      omega
    · intro i below
      exact falls.holdsAt (Nat.le_of_lt_succ below) met
    · intro i above
      apply eq_false_of_ne_true
      intro holds
      have within := lt_length_of_holdsAt holds
      rw [List.size_toArray] at above
      have again := falls.holdsAt (show (stride property run.toArray 0 1).2 ≤ i by omega) holds
      rw [again] at missed
      cases missed
  · rename_i none
    apply splits_of_holdsAt
    · intro i below
      omega
    · intro i _
      apply eq_false_of_ne_true
      intro holds
      exact none (falls.holdsAt (Nat.zero_le i) holds)

end Sorting

end BlockScript
