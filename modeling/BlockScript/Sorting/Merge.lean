import BlockScript.Sorting.Search

/-! # Merging two runs

Two neighbouring runs are merged from the end at which the shorter one stands. One of them is held
back: its last element is known to come after everything, so it is never used up. Elements are taken
one at a time until one run wins often enough in a row, and then in stretches found by galloping,
for as long as that pays. How often is enough changes from merge to merge.
-/

namespace BlockScript

namespace Sorting

variable {α : Type}

/-- How two runs are merged. -/
structure Plan (α : Type) where
  /-- Whether an element of the other run goes before one of the held run. -/
  overtakes : α → α → Bool
  /-- How stretches are searched. -/
  bias : Bias
  /-- Whether stretches are taken from the held run first. -/
  heldFirst : Bool

/-- A merge under way. -/
structure Merge (α : Type) where
  held : List α
  other : List α
  /-- The elements taken so far, the latest first. -/
  taken : List α

namespace Merge

/-- Whether the order of the remaining elements is settled. -/
def isSettled (merge : Merge α) : Bool := merge.held.length ≤ 1 || merge.other.isEmpty

/-- All elements, when the order of the remaining ones is settled. -/
def result (merge : Merge α) : List α := merge.taken.reverse ++ merge.other ++ merge.held

/-- Takes elements from the held run. -/
def takeHeld (merge : Merge α) (count : Nat) : Merge α :=
  { merge with
    held := merge.held.drop count
    taken := (merge.held.take count).reverse ++ merge.taken }

/-- Takes elements from the other run. -/
def takeOther (merge : Merge α) (count : Nat) : Merge α :=
  { merge with
    other := merge.other.drop count
    taken := (merge.other.take count).reverse ++ merge.taken }

/-- Takes the stretch of the held run that the other run's first element does not overtake, and then
that element; also gives the length of the stretch. -/
def stretchHeld (plan : Plan α) (merge : Merge α) : Merge α × Nat :=
  match merge.other with
  | [] => (merge, 0)
  | first :: _ =>
      let count := gallop plan.bias (fun a => !plan.overtakes a first) merge.held
      let merge := merge.takeHeld count
      (if merge.isSettled then merge else merge.takeOther 1, count)

/-- Takes the stretch of the other run that overtakes the held run's first element, and then that
element; also gives the length of the stretch. -/
def stretchOther (plan : Plan α) (merge : Merge α) : Merge α × Nat :=
  match merge.held with
  | [] => (merge, 0)
  | first :: _ =>
      let count := gallop plan.bias (plan.overtakes first) merge.other
      let merge := merge.takeOther count
      (if merge.isSettled then merge else merge.takeHeld 1, count)

/-- Takes a stretch of either run; also gives the length of the longer one. -/
def stretches (plan : Plan α) (merge : Merge α) : Merge α × Nat :=
  let (one, next) :=
    if plan.heldFirst then (stretchHeld plan, stretchOther plan)
    else (stretchOther plan, stretchHeld plan)
  let (merge, count) := one merge
  if merge.isSettled then (merge, count)
  else
    let (merge, more) := next merge
    (merge, max count more)

/-- The next element's run: the merge after it is taken, and whether the other run won. -/
def takeOne (plan : Plan α) (merge : Merge α) : Merge α × Bool :=
  match merge.held, merge.other with
  | a :: _, b :: _ =>
      if plan.overtakes a b then (merge.takeOther 1, true) else (merge.takeHeld 1, false)
  | _, _ => (merge, false)

/-- How a merge goes on. -/
inductive Mode where
  /-- One element at a time: which run won last, and how often in a row. -/
  | single (otherWon : Bool) (wins : Nat)
  /-- In stretches. -/
  | stretched

/-- The length of a stretch that is worth the search. -/
def worthwhile : Nat := 7

/-- Goes on with a merge until it is settled; also gives the number of wins in a row from which on
stretches are tried. Every step takes an element, so as many steps as there are elements suffice. -/
def finish (plan : Plan α) : Nat → Mode → Nat → Merge α → Merge α × Nat
  | 0, _, threshold, merge => (merge, threshold)
  | steps + 1, mode, threshold, merge =>
      if merge.isSettled then (merge, threshold)
      else
        match mode with
        | .single otherWon wins =>
            let (merge, won) := takeOne plan merge
            let wins := if won = otherWon then wins + 1 else 1
            if threshold ≤ wins && !merge.isSettled then
              finish plan steps .stretched (threshold + 1) merge
            else finish plan steps (.single won wins) threshold merge
        | .stretched =>
            let threshold := if 1 < threshold then threshold - 1 else threshold
            let (merge, longest) := stretches plan merge
            if merge.isSettled then (merge, threshold)
            else if worthwhile ≤ longest then finish plan steps .stretched threshold merge
            else finish plan steps (.single false 0) (threshold + 1) merge

end Merge

/-- Merges a run that is held back with another whose first element comes first of all. -/
def mergeHeld (plan : Plan α) (threshold : Nat) (held other : List α) : List α × Nat :=
  let start := Merge.takeOther ⟨held, other, []⟩ 1
  let (merge, threshold) :=
    start.finish plan (held.length + other.length) (.single false 0) threshold
  (merge.result, threshold)

/-- Merges neighbouring runs. What precedes the second run's first element and what follows the
first run's last one stays where it is. -/
def mergeRuns (lt : α → α → Bool) (threshold : Nat) (first second : List α) : List α × Nat :=
  match second with
  | [] => (first, threshold)
  | start :: _ =>
      let before := gallop .later (fun a => !lt start a) first
      let left := first.drop before
      match left.getLast? with
      | none => (first ++ second, threshold)
      | some last =>
          let after := gallop .earlier (fun b => !lt b last) second.reverse
          let right := second.take (second.length - after)
          if right.isEmpty then (first ++ second, threshold)
          else
            let (merged, threshold) :=
              if left.length ≤ right.length then
                mergeHeld ⟨fun a b => lt b a, .later, true⟩ threshold left right
              else
                let (merged, threshold) :=
                  mergeHeld ⟨lt, .earlier, false⟩ threshold right.reverse left.reverse
                (merged.reverse, threshold)
            (first.take before ++ merged ++ second.drop (second.length - after), threshold)

end Sorting

end BlockScript
