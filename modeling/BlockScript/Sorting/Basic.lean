import BlockScript.Sorting.Merge

/-! # Sorting

A stable sort that makes use of the runs that a list already has. Short runs are filled up by
insertion, and neighbouring runs are merged so that the merges stay balanced. With a strict order in
which elements that are not before one another are alike, the result is the sorted list. With any
other relation, such as the order of numbers with a not-a-number among them, the result is what the
comparisons made here come to.
-/

namespace BlockScript

namespace Sorting

variable {α : Type}

/-- The elements that go on with a run that does not descend, and the rest. -/
def ascending (lt : α → α → Bool) (last : α) : List α → List α × List α
  | [] => ([], [])
  | a :: rest =>
      if lt a last then ([], a :: rest)
      else
        let (run, rest) := ascending lt a rest
        (a :: run, rest)

/-- A run that descends, turned round, and the rest. -/
def descending (lt : α → α → Bool) (last : α) (run : List α) : List α → List α × List α
  | [] => (run, [])
  | a :: rest => if lt a last then descending lt a (a :: run) rest else (run, a :: rest)

/-- The run at the front of a list, in ascending order, and the rest. -/
def frontRun (lt : α → α → Bool) : List α → List α × List α
  | a :: b :: rest =>
      if lt b a then descending lt b [b, a] rest
      else
        let (run, rest) := ascending lt b rest
        (a :: b :: run, rest)
  | list => (list, [])

/-- Inserts an element into a run, after those that it is not before. -/
def insert (lt : α → α → Bool) (run : List α) (a : α) : List α :=
  let position := bisect .later (fun b => !lt a b) run.toArray 0 run.length
  run.take position ++ a :: run.drop position

/-- The run at the front of a list, filled up to a least length, and the rest. -/
def filledRun (lt : α → α → Bool) (least : Nat) (list : List α) : List α × List α :=
  let (run, rest) := frontRun lt list
  let lacking := least - run.length
  ((rest.take lacking).foldl (insert lt) run, rest.drop lacking)

/-- The least length of a run in a list of `length` elements: the list's own below sixty-four, and
else one that divides the list into about as many runs as some power of two. -/
def leastRun (length spare : Nat) : Nat :=
  if length < 64 then length + spare else leastRun (length / 2) (max spare (length % 2))
termination_by length

/-- How deep the border between two neighbouring runs lies when a list of `length` elements is
halved again and again: at the first halving that parts the middles of the runs, which are given
twofold. -/
def depth (length : Nat) : Nat → Nat → Nat → Nat
  | 0, _, _ => 0
  | steps + 1, one, two =>
      if length ≤ one then depth length steps (2 * (one - length)) (2 * (two - length)) + 1
      else if length ≤ two then 1
      else depth length steps (2 * one) (2 * two) + 1

/-- A run that waits to be merged. -/
structure Pending (α : Type) where
  /-- The position of its first element. -/
  start : Nat
  elements : List α
  /-- The depth of the border to the run that follows it. -/
  border : Nat

namespace Pending

/-- The depth of the border between a run of a list and a run of `next` elements that follows it. -/
def depthTo (run : Pending α) (next length : Nat) : Nat :=
  let middle := 2 * run.start + run.elements.length
  depth length length middle (middle + run.elements.length + next)

/-- Merges a run with the one that follows it. -/
def join (lt : α → α → Bool) (threshold : Nat) (run next : Pending α) : Pending α × Nat :=
  let (elements, threshold) := mergeRuns lt threshold run.elements next.elements
  (⟨run.start, elements, next.border⟩, threshold)

end Pending

/-- Merges the latest runs for as long as the border between them lies deeper than a given one. The
latest run comes first. -/
def joinDeeper (lt : α → α → Bool) (border threshold : Nat) :
    List (Pending α) → List (Pending α) × Nat
  | latest :: earlier :: rest =>
      if border < earlier.border then
        let (joined, threshold) := earlier.join lt threshold latest
        joinDeeper lt border threshold (joined :: rest)
      else (latest :: earlier :: rest, threshold)
  | runs => (runs, threshold)
termination_by runs => runs.length

/-- Adds a run to those that wait, the latest first. -/
def addRun (lt : α → α → Bool) (length start threshold : Nat) (elements : List α)
    (runs : List (Pending α)) : List (Pending α) × Nat :=
  match runs with
  | [] => ([⟨start, elements, 0⟩], threshold)
  | latest :: _ =>
      let border := latest.depthTo elements.length length
      let (runs, threshold) := joinDeeper lt border threshold runs
      match runs with
      | [] => ([⟨start, elements, 0⟩], threshold)
      | latest :: rest => (⟨start, elements, 0⟩ :: { latest with border } :: rest, threshold)

/-- Divides a list into runs, merging some on the way. Every step takes a run that is not empty, so
as many steps as there are elements suffice. -/
def divide (lt : α → α → Bool) (length least : Nat) :
    Nat → Nat → Nat → List α → List (Pending α) → List (Pending α) × Nat
  | 0, _, threshold, _, runs => (runs, threshold)
  | _ + 1, _, threshold, [], runs => (runs, threshold)
  | steps + 1, start, threshold, list, runs =>
      let (elements, rest) := filledRun lt least list
      let (runs, threshold) := addRun lt length start threshold elements runs
      divide lt length least steps (start + elements.length) threshold rest runs

/-- Merges all runs, the latest first. Of three, the middle one goes with the shorter neighbour. -/
def joinAll (lt : α → α → Bool) (threshold : Nat) : List (Pending α) → List α
  | [] => []
  | [run] => run.elements
  | latest :: middle :: [] => ((middle.join lt threshold latest).1).elements
  | latest :: middle :: early :: rest =>
      if early.elements.length < latest.elements.length then
        let (joined, threshold) := early.join lt threshold middle
        joinAll lt threshold (latest :: joined :: rest)
      else
        let (joined, threshold) := middle.join lt threshold latest
        joinAll lt threshold (joined :: early :: rest)
termination_by runs => runs.length

end Sorting

/-- Sorts a list by a relation that tells which elements are before which. -/
def sorted {α : Type} (lt : α → α → Bool) (list : List α) : List α :=
  let length := list.length
  let least := Sorting.leastRun length 0
  let (runs, threshold) := Sorting.divide lt length least length 0 Sorting.Merge.worthwhile list []
  Sorting.joinAll lt threshold runs

end BlockScript
