import BlockScript.Listing

/-! # Lines of a listing by number

The lines of a text with their newlines, and the part of a text between two line numbers. A text
that stands between others, with a newline at the end of each, is the excerpt of the lines that
counting newlines gives (`Text.excerpt_append`).
-/

namespace BlockScript

namespace Text

/-- The lines of a text with their newlines. What follows the last newline is a line if there is
anything. -/
def fullLines : List Char → List (List Char)
  | [] => []
  | c :: rest =>
      if c = '\n' then [c] :: fullLines rest
      else
        match fullLines rest with
        | [] => [[c]]
        | line :: lines => (c :: line) :: lines

/-- The lines of a text from one number to another, both included, counted from one. -/
def excerpt (text : String) (first last : Nat) : String :=
  String.ofList (((fullLines text.toList).drop (first - 1)).take (last + 1 - first)).flatten

/-- Nothing is lost between lines. -/
theorem flatten_fullLines (text : List Char) : (fullLines text).flatten = text := by
  induction text with
  | nil => rfl
  | cons c rest ih =>
      unfold fullLines
      split
      · rw [List.flatten_cons, ih, List.singleton_append]
      · cases split : fullLines rest with
        | nil =>
            rw [split] at ih
            rw [← ih]
            rfl
        | cons line lines =>
            rw [split] at ih
            rw [← ih]
            rfl

/-- A text that is empty or ends with a newline. -/
def Ended (text : List Char) : Prop := text = [] ∨ text.getLast? = some '\n'

theorem Ended.append {first second : List Char} (left : Ended first) (right : Ended second) :
    Ended (first ++ second) := by
  rcases right with rfl | last
  · rwa [List.append_nil]
  · exact .inr (by simp [List.getLast?_append, last])

theorem Ended.of_cons {c : Char} {rest : List Char} (ended : Ended (c :: rest)) : Ended rest := by
  cases rest with
  | nil => exact .inl rfl
  | cons d more =>
      refine .inr ?_
      have last := ended.resolve_left (by simp)
      rwa [List.getLast?_cons_cons] at last

/-- A line that does not end with its first character goes on. -/
theorem Ended.exists_line {c : Char} {rest : List Char} (ended : Ended (c :: rest))
    (apart : c ≠ '\n') : ∃ line lines, fullLines rest = line :: lines := by
  cases split : fullLines rest with
  | cons line lines => exact ⟨line, lines, rfl⟩
  | nil =>
      have none : rest = [] := by
        have whole := flatten_fullLines rest
        rw [split] at whole
        exact whole.symm
      have last := ended.resolve_left (by simp)
      rw [none] at last
      exact (apart (by simpa using last)).elim

/-- Lines that are ended go on with the lines of what follows. -/
theorem fullLines_append {text : List Char} (ended : Ended text) (rest : List Char) :
    fullLines (text ++ rest) = fullLines text ++ fullLines rest := by
  induction text with
  | nil => rfl
  | cons c more ih =>
      rw [List.cons_append, fullLines, fullLines, ih ended.of_cons]
      split
      · rfl
      · rename_i apart
        obtain ⟨line, lines, split⟩ := ended.exists_line apart
        rw [split]
        rfl

/-- There are as many lines as newlines. -/
theorem length_fullLines {text : List Char} (ended : Ended text) :
    (fullLines text).length = text.count '\n' := by
  induction text with
  | nil => rfl
  | cons c rest ih =>
      have tail := ih ended.of_cons
      unfold fullLines
      split
      · rename_i newline
        simp [newline, tail]
      · rename_i apart
        obtain ⟨line, lines, split⟩ := ended.exists_line apart
        rw [List.count_cons_of_ne (by simpa using apart), ← tail, split]
        rfl

theorem Ended.eq_nil_of_count {text : List Char} (ended : Ended text) (none : text.count '\n' = 0) :
    text = [] := by
  rcases ended with nothing | last
  · exact nothing
  · exact (List.count_eq_zero.mp none (List.mem_of_getLast? last)).elim

/-- **Excerpts are found by counting newlines.** -/
theorem excerpt_append {before text : String} (beforeEnded : Ended before.toList)
    (ended : Ended text.toList) (after : String) :
    excerpt (before ++ text ++ after) (lineCount before + 1) (lineCount before + lineCount text) =
      text := by
  have counted : (fullLines before.toList).length = lineCount before := length_fullLines beforeEnded
  have own : (fullLines text.toList).length = lineCount text := length_fullLines ended
  unfold excerpt
  rw [String.toList_append, String.toList_append, fullLines_append (beforeEnded.append ended),
    fullLines_append beforeEnded, List.append_assoc, Nat.add_sub_cancel,
    show lineCount before + lineCount text + 1 - (lineCount before + 1) = lineCount text by omega,
    ← counted, List.drop_left, ← own, List.take_left, flatten_fullLines, String.ofList_toList]

end Text

end BlockScript
