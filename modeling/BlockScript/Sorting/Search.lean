/-! # Searching a run

A run of elements whose first ones have a property and whose others do not is searched for the
number of those that do: by halving, or by strides that double before they are halved. Either search
asks about few elements, so on a list that is not such a run the answer depends on which ones it
asks about.
-/

namespace BlockScript

namespace Sorting

variable {α : Type}

/-- Which of the two middle elements of an even number is asked about first. -/
inductive Bias where
  | later
  | earlier

/-- The position of the middle among `count` elements. -/
def Bias.middle : Bias → Nat → Nat
  | .later, count => count / 2
  | .earlier, count => (count - 1) / 2

theorem Bias.middle_lt (bias : Bias) {count : Nat} (positive : 0 < count) :
    bias.middle count < count := by
  cases bias <;> simp only [middle] <;> omega

/-- Whether there is an element at a position and it has a property. -/
def holdsAt (property : α → Bool) (run : Array α) (position : Nat) : Bool :=
  (run[position]?).any property

/-- The first position from `low` to `high` whose element lacks a property, by halving. -/
def bisect (bias : Bias) (property : α → Bool) (run : Array α) (low high : Nat) : Nat :=
  if low < high then
    let middle := low + bias.middle (high - low)
    if holdsAt property run middle then bisect bias property run (middle + 1) high
    else bisect bias property run low middle
  else low
termination_by high - low
decreasing_by
  · omega
  · have inside := bias.middle_lt (show 0 < high - low by omega)
    omega

/-- Strides that double from `position` on for as long as they meet elements with a property: where
the last one met such an element, and where the next one would end. -/
def stride (property : α → Bool) (run : Array α) (last position : Nat) : Nat × Nat :=
  if position < run.size then
    if holdsAt property run position then stride property run position (2 * position + 1)
    else (last, position)
  else (last, position)
termination_by run.size - position

/-- The number of first elements that have a property, by strides and then by halving. -/
def gallop (bias : Bias) (property : α → Bool) (run : List α) : Nat :=
  let elements := run.toArray
  if holdsAt property elements 0 then
    let (last, next) := stride property elements 0 1
    bisect bias property elements (last + 1) (min next elements.size)
  else 0

end Sorting

end BlockScript
