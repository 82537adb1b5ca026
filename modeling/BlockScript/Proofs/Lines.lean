import BlockScript.Text.Lines

/-! # Lines and margins

A text made of lines, each ended by a newline, is split into those lines again
(`Text.splitLines_terminated`), and indenting it puts the margin before each of them
(`Text.indentedChars_terminated`).
-/

namespace BlockScript

namespace Text

/-- Lines, each ended by a newline. -/
def terminated (lines : List (List Char)) : List Char := lines.flatMap (· ++ ['\n'])

@[simp]
theorem terminated_nil : terminated [] = [] := rfl

@[simp]
theorem terminated_cons (line : List Char) (lines : List (List Char)) :
    terminated (line :: lines) = line ++ '\n' :: terminated lines := by
  simp [terminated]

@[simp]
theorem terminated_append (first second : List (List Char)) :
    terminated (first ++ second) = terminated first ++ terminated second := by
  simp [terminated]

/-- A line is not split. -/
theorem splitLines_of_not_mem {line : List Char} (whole : '\n' ∉ line) :
    splitLines line = [line] := by
  induction line with
  | nil => rfl
  | cons c rest ih =>
      have ⟨apart, others⟩ : '\n' ≠ c ∧ '\n' ∉ rest := by simpa using whole
      rw [splitLines, if_neg (Ne.symm apart), ih others]

/-- A line and its newline are split off. -/
theorem splitLines_append_newline {line : List Char} (whole : '\n' ∉ line) (rest : List Char) :
    splitLines (line ++ '\n' :: rest) = line :: splitLines rest := by
  induction line with
  | nil => simp [splitLines]
  | cons c chars ih =>
      obtain ⟨apart, others⟩ : '\n' ≠ c ∧ '\n' ∉ chars := by simpa using whole
      rw [List.cons_append, splitLines, if_neg (Ne.symm apart), ih others]

/-- Lines that are terminated are split off the front of what follows. -/
theorem splitLines_terminated_append {lines : List (List Char)}
    (whole : ∀ line ∈ lines, '\n' ∉ line) (rest : List Char) :
    splitLines (terminated lines ++ rest) = lines ++ splitLines rest := by
  induction lines with
  | nil => rfl
  | cons line others ih =>
      rw [terminated_cons, List.append_assoc, List.cons_append,
        splitLines_append_newline (whole line (List.mem_cons_self ..)),
        ih fun other member => whole other (List.mem_cons_of_mem _ member), List.cons_append]

theorem splitLines_terminated {lines : List (List Char)} (whole : ∀ line ∈ lines, '\n' ∉ line) :
    splitLines (terminated lines) = lines ++ [[]] := by
  simpa [splitLines] using splitLines_terminated_append whole []

/-- A text that ends with no new line has none to lose. -/
theorem withoutFinalNewlines_of_getLast? {text : List Char} {c : Char}
    (last : text.getLast? = some c) (apart : c ≠ '\n') : withoutFinalNewlines text = text := by
  obtain ⟨start, rfl⟩ := List.getLast?_eq_some_iff.mp last
  simp [withoutFinalNewlines, apart]

/-- A new line at the end is lost. -/
theorem withoutFinalNewlines_append_newline (text : List Char) :
    withoutFinalNewlines (text ++ ['\n']) = withoutFinalNewlines text := by
  simp [withoutFinalNewlines]

/-- A line that is not empty ends with something else than a newline. -/
theorem exists_getLast? {line : List Char} (nonempty : line ≠ []) (whole : '\n' ∉ line) :
    ∃ c, line.getLast? = some c ∧ c ≠ '\n' := by
  obtain ⟨c, last⟩ := Option.ne_none_iff_exists'.mp (mt List.getLast?_eq_none_iff.mp nonempty)
  refine ⟨c, last, ?_⟩
  rintro rfl
  exact whole (List.mem_of_getLast? last)

/-- Indenting a line puts the margin before it, whether or not it has its newline. -/
theorem indentedChars_line {line : List Char} (nonempty : line ≠ []) (whole : '\n' ∉ line)
    (margin : List Char) :
    indentedChars line margin = margin ++ line ++ ['\n'] ∧
      indentedChars (line ++ ['\n']) margin = margin ++ line ++ ['\n'] := by
  obtain ⟨c, last, apart⟩ := exists_getLast? nonempty whole
  have kept := withoutFinalNewlines_of_getLast? last apart
  refine ⟨?_, ?_⟩
  · rw [indentedChars, if_neg nonempty, kept, splitLines_of_not_mem whole]
    simp
  · rw [indentedChars, if_neg (by simp), withoutFinalNewlines_append_newline, kept,
      splitLines_of_not_mem whole]
    simp

/-- The lines of a text, with its final newlines taken off. -/
def bodyLines (text : List Char) : List (List Char) := splitLines (withoutFinalNewlines text)

/-- An indented text is made of its lines, each behind the margin. -/
theorem indentedChars_eq_terminated {text : List Char} (nonempty : text ≠ []) (margin : List Char) :
    indentedChars text margin = terminated ((bodyLines text).map (margin ++ ·)) := by
  simp [indentedChars, nonempty, terminated, bodyLines, List.flatMap_map]

/-- Lines without a newline of their own, at least one, of which only a single one may end the text
empty. -/
structure Settled (lines : List (List Char)) : Prop where
  whole : ∀ line ∈ lines, '\n' ∉ line
  ends : ∃ start last, lines = start ++ [last] ∧ (start = [] ∨ last ≠ [])

/-- Newlines at the end of lines are all there is to take off, and the lines are as they were. -/
theorem Settled.bodyLines_terminated {lines : List (List Char)} (settled : Settled lines) :
    bodyLines (terminated lines) = lines := by
  obtain ⟨whole, start, last, rfl, single⟩ := settled
  have others : ∀ line ∈ start, '\n' ∉ line := fun line member => whole line (by simp [member])
  have lastWhole : '\n' ∉ last := whole last (by simp)
  have text : terminated (start ++ [last]) = terminated start ++ last ++ ['\n'] := by simp
  have kept : withoutFinalNewlines (terminated start ++ last) = terminated start ++ last := by
    by_cases empty : last = []
    · -- Only a single line can be empty, and then nothing is left.
      obtain rfl : start = [] := single.resolve_right (not_not_intro empty)
      subst empty
      rfl
    · obtain ⟨c, found, apart⟩ := exists_getLast? empty lastWhole
      refine withoutFinalNewlines_of_getLast? (c := c) ?_ apart
      rw [List.getLast?_append, found]
      rfl
  rw [bodyLines, text, withoutFinalNewlines_append_newline, kept,
    splitLines_terminated_append others, splitLines_of_not_mem lastWhole]

/-- Indenting lines puts the margin before each of them. -/
theorem indentedChars_terminated {lines : List (List Char)} (nonempty : ∀ line ∈ lines, line ≠ [])
    (whole : ∀ line ∈ lines, '\n' ∉ line) (margin : List Char) :
    indentedChars (terminated lines) margin = terminated (lines.map (margin ++ ·)) := by
  rcases List.eq_nil_or_concat lines with rfl | ⟨start, last, rfl⟩
  · rfl
  · have settled : Settled (start.concat last) :=
      ⟨whole, start, last, by simp, .inr (nonempty last (by simp))⟩
    rw [indentedChars_eq_terminated (by simp), settled.bodyLines_terminated]

end Text

end BlockScript
