import Mathlib.Data.List.TakeWhile
import BlockScript.Proofs.Lines

/-! # Margins within margins

An indented text is the text of its lines, and the lines of that text are the indented ones again.
So indenting twice is indenting once by both margins, and indenting a text of several parts is
indenting each part, as long as no newline is lost between them (`Text.indented_composes`).
-/

namespace BlockScript

namespace Text

/-! ## Lines that are found again -/

/-- A margin without a newline goes before lines that stay lines. -/
theorem Settled.map_margin {lines : List (List Char)} (settled : Settled lines)
    {margin : List Char} (plain : '\n' ∉ margin) : Settled (lines.map (margin ++ ·)) := by
  obtain ⟨whole, start, last, rfl, single⟩ := settled
  refine ⟨?_, start.map (margin ++ ·), margin ++ last, by simp, ?_⟩
  · intro line member
    obtain ⟨inner, listed, rfl⟩ := List.mem_map.mp member
    simp [plain, whole inner listed]
  · rcases single with rfl | filled
    · exact .inl rfl
    · exact .inr (by simp [filled])

theorem newline_not_mem_splitLines (text : List Char) : ∀ line ∈ splitLines text, '\n' ∉ line := by
  induction text with
  | nil => simp [splitLines]
  | cons c rest ih =>
      unfold splitLines
      split
      · simpa using ih
      · rename_i apart
        split
        · simpa using Ne.symm apart
        · rename_i line lines split
          rw [split] at ih
          simpa [Ne.symm apart] using ih

/-- What ends a text without a newline ends its last line. -/
theorem splitLines_concat (text : List Char) {c : Char} (apart : c ≠ '\n') :
    ∃ start last, splitLines (text ++ [c]) = start ++ [last ++ [c]] := by
  induction text with
  | nil => exact ⟨[], [], by simp [splitLines, apart]⟩
  | cons d rest ih =>
      obtain ⟨start, last, same⟩ := ih
      rw [List.cons_append, splitLines, same]
      by_cases newline : d = '\n'
      · exact ⟨[] :: start, last, by simp [newline]⟩
      · cases start with
        | nil => exact ⟨[], d :: last, by simp [newline]⟩
        | cons line lines => exact ⟨(d :: line) :: lines, last, by simp [newline]⟩

theorem withoutFinalNewlines_ends (text : List Char) :
    withoutFinalNewlines text = [] ∨
      ∃ start c, withoutFinalNewlines text = start ++ [c] ∧ c ≠ '\n' := by
  unfold withoutFinalNewlines
  cases rest : text.reverse.dropWhile (· = '\n') with
  | nil => exact .inl rfl
  | cons c start =>
      refine .inr ⟨start.reverse, c, by simp, ?_⟩
      have first := List.head?_dropWhile_not (· = '\n') text.reverse
      simpa [rest] using first

theorem settled_bodyLines (text : List Char) : Settled (bodyLines text) := by
  refine ⟨newline_not_mem_splitLines _, ?_⟩
  rcases withoutFinalNewlines_ends text with nothing | ⟨start, c, same, apart⟩
  · exact ⟨[], [], by simp [bodyLines, nothing, splitLines], .inl rfl⟩
  · obtain ⟨lines, last, found⟩ := splitLines_concat start apart
    exact ⟨lines, last ++ [c], by rw [bodyLines, same, found], .inr (by simp)⟩

/-- Indenting twice puts the outer margin before the inner one. -/
theorem indentedChars_indentedChars (text outer : List Char) {inner : List Char}
    (plain : '\n' ∉ inner) :
    indentedChars (indentedChars text inner) outer = indentedChars text (outer ++ inner) := by
  by_cases empty : text = []
  · subst empty
    rfl
  · have settled := (settled_bodyLines text).map_margin plain
    have nonempty : terminated ((bodyLines text).map (inner ++ ·)) ≠ [] := by
      obtain ⟨start, last, same, _⟩ := settled.ends
      simp [same]
    rw [indentedChars_eq_terminated empty inner, indentedChars_eq_terminated nonempty,
      settled.bodyLines_terminated, indentedChars_eq_terminated empty, List.map_map]
    congr 1
    exact List.map_congr_left fun line _ => by simp

/-! ## Parts of a text -/

theorem splitLines_append (first rest : List Char) :
    splitLines (first ++ '\n' :: rest) = splitLines first ++ splitLines rest := by
  induction first with
  | nil => simp [splitLines]
  | cons c chars ih =>
      rw [List.cons_append, splitLines, splitLines, ih]
      by_cases newline : c = '\n'
      · simp [newline]
      · cases lines : splitLines chars with
        | nil => exact (splitLines_ne_nil chars lines).elim
        | cons line others => simp [newline]

/-- A text with exactly one final newline. -/
def EndsOnce (text : List Char) : Prop :=
  ∃ start, text = start ++ ['\n'] ∧ start.getLast? ≠ some '\n'

theorem withoutFinalNewlines_of_not_newline {text : List Char}
    (last : text.getLast? ≠ some '\n') : withoutFinalNewlines text = text := by
  cases found : text.getLast? with
  | none =>
      rw [List.getLast?_eq_none_iff.mp found]
      rfl
  | some c => exact withoutFinalNewlines_of_getLast? found fun same => last (by rw [found, same])

/-- Newlines are taken off the last part only, when that has anything else. -/
theorem withoutFinalNewlines_append (first : List Char) {rest : List Char}
    (filled : ∃ c ∈ rest, c ≠ '\n') :
    withoutFinalNewlines (first ++ rest) = first ++ withoutFinalNewlines rest := by
  obtain ⟨c, member, apart⟩ := filled
  have stays : rest.reverse.dropWhile (· = '\n') ≠ [] := by
    intro nothing
    rw [List.dropWhile_eq_nil_iff] at nothing
    exact apart (by simpa using nothing c (List.mem_reverse.mpr member))
  unfold withoutFinalNewlines
  rw [List.reverse_append, List.dropWhile_append, if_neg (by simpa using stays)]
  simp

/-- Parts are indented one by one. -/
theorem indentedChars_append {first rest : List Char} (ends : EndsOnce first)
    (filled : rest = [] ∨ ∃ c ∈ rest, c ≠ '\n') (margin : List Char) :
    indentedChars (first ++ rest) margin =
      indentedChars first margin ++ indentedChars rest margin := by
  rcases filled with rfl | filled
  · simp [indentedChars]
  obtain ⟨start, rfl, last⟩ := ends
  obtain ⟨c, member, _⟩ := id filled
  have left : bodyLines (start ++ ['\n']) = splitLines start := by
    rw [bodyLines, withoutFinalNewlines_append_newline, withoutFinalNewlines_of_not_newline last]
  have both : bodyLines (start ++ ['\n'] ++ rest) = splitLines start ++ bodyLines rest := by
    rw [bodyLines, withoutFinalNewlines_append _ filled, List.append_assoc, List.singleton_append,
      splitLines_append, bodyLines]
  rw [indentedChars_eq_terminated (by simp), indentedChars_eq_terminated (by simp),
    indentedChars_eq_terminated (List.ne_nil_of_mem member), left, both, List.map_append,
    terminated_append]

/-- **Re-indentation composes.** Indenting an indented text puts the outer margin before the inner
one, and a text of two parts is indented part by part when the first ends with exactly one newline
and the second, unless it is empty, has more than newlines. -/
theorem indented_composes :
    (∀ text inner outer : String, '\n' ∉ inner.toList →
        indented (indented text inner) outer = indented text (outer ++ inner)) ∧
      ∀ first rest margin : String, EndsOnce first.toList →
        (rest = "" ∨ ∃ c ∈ rest.toList, c ≠ '\n') →
          indented (first ++ rest) margin = indented first margin ++ indented rest margin := by
  refine ⟨fun text inner outer plain => ?_, fun first rest margin ends filled => ?_⟩
  · unfold indented
    rw [String.toList_ofList, indentedChars_indentedChars _ _ plain, String.toList_append]
  · have filled : rest.toList = [] ∨ ∃ c ∈ rest.toList, c ≠ '\n' :=
      filled.imp_left fun empty => by simp [empty]
    unfold indented
    rw [String.toList_append, indentedChars_append ends filled, String.ofList_append]

theorem indented_composes_blankLines :
    ('\n' ∉ "  ".toList ∧
      indented (indented "\na\n\nb\n\n" "  ") "\t" = indented "\na\n\nb\n\n" ("\t" ++ "  ")) ∧
      EndsOnce "a\n\nb\n".toList ∧ (∃ c ∈ "\n\nc\n".toList, c ≠ '\n') ∧
        indented ("a\n\nb\n" ++ "\n\nc\n") "  " =
          indented "a\n\nb\n" "  " ++ indented "\n\nc\n" "  " := by
  have plain : '\n' ∉ "  ".toList := by decide
  have ends : EndsOnce "a\n\nb\n".toList := ⟨"a\n\nb".toList, rfl, by decide⟩
  have filled : ∃ c ∈ "\n\nc\n".toList, c ≠ '\n' := ⟨'c', by decide, by decide⟩
  exact ⟨⟨plain, indented_composes.1 _ _ _ plain⟩, ends, filled,
    indented_composes.2 _ _ _ ends (.inr filled)⟩

end Text

end BlockScript
