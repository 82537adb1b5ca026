/-! # Lines of text

Lines end with a newline. `indented` puts a margin before every line of a text and gives the result
exactly one final newline.
-/

namespace BlockScript

namespace Text

/-- The parts of a text between its newlines. There is always at least one. -/
def splitLines : List Char → List (List Char)
  | [] => [[]]
  | c :: rest =>
      if c = '\n' then [] :: splitLines rest
      else
        match splitLines rest with
        | [] => [[c]]
        | line :: lines => (c :: line) :: lines

theorem splitLines_ne_nil (text : List Char) : splitLines text ≠ [] := by
  cases text with
  | nil => simp [splitLines]
  | cons c rest =>
      unfold splitLines
      split
      · simp
      · split <;> simp

/-- A text without its final newlines. -/
def withoutFinalNewlines (text : List Char) : List Char :=
  (text.reverse.dropWhile (· = '\n')).reverse

/-- Every line of a text behind a margin, each ended by a newline. Nothing is made of nothing, and
final newlines count for one. -/
def indentedChars (text margin : List Char) : List Char :=
  if text = [] then []
  else (splitLines (withoutFinalNewlines text)).flatMap fun line => margin ++ line ++ ['\n']

/-- Every line of a text behind a margin. -/
def indented (text margin : String) : String :=
  String.ofList (indentedChars text.toList margin.toList)

/-- The number of newlines of a text. -/
def lineCount (text : String) : Nat := text.toList.count '\n'

@[simp]
theorem lineCount_append (text rest : String) :
    lineCount (text ++ rest) = lineCount text + lineCount rest := by
  simp [lineCount]

/-- The margin of one level. -/
def margin : String := "    "

/-- Replaces every occurrence of a two-character mark, from left to right. -/
def replaceMark (first second : Char) (insertion : List Char) : List Char → List Char
  | [] => []
  | [c] => [c]
  | c :: d :: rest =>
      if c = first ∧ d = second then insertion ++ replaceMark first second insertion rest
      else c :: replaceMark first second insertion (d :: rest)

end Text

end BlockScript
