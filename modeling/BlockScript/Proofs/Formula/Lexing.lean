import BlockScript.Proofs.Code
import BlockScript.Proofs.Formula.Grammar

/-! # Tokens of a text

A text is read as tokens (`Formula.Lexes`) where it stands before a blank, a closing parenthesis or
nothing. Names, literals and operators are read as single tokens, and the tokens of code that is put
together from parts are put together in the same way.
-/

namespace BlockScript

namespace Formula

/-- What may follow a part of a formula: nothing, a blank or a closing parenthesis. -/
def Boundary (rest : List Char) : Prop := ∀ c ∈ rest.head?, c = ' ' ∨ c = ')'

theorem boundary_nil : Boundary [] := fun _ head => nomatch head

theorem boundary_blank (rest : List Char) : Boundary (' ' :: rest) := by
  rintro c ⟨⟩
  exact .inl rfl

theorem boundary_close (rest : List Char) : Boundary (')' :: rest) := by
  rintro c ⟨⟩
  exact .inr rfl

/-- A text that stands for tokens, wherever it ends. -/
def Lexes (text : String) (read : List Token) : Prop :=
  ∀ rest, Boundary rest →
    tokens .nothing (text.toList ++ rest) = (tokens .nothing rest).map (read ++ ·)

/-- Characters that all belong to the token that is being read. -/
theorem tokens_extended {mode : List Char → Reading} {chars : List Char}
    (same : ∀ c ∈ chars, ∀ read, (mode read).extended c = some (mode (read ++ [c])))
    (read rest : List Char) :
    tokens (mode read) (chars ++ rest) = tokens (mode (read ++ chars)) rest := by
  induction chars generalizing read with
  | nil => simp
  | cons c chars ih =>
    rw [List.cons_append, tokens, same c (List.mem_cons_self ..)]
    simpa using ih (fun d member => same d (List.mem_cons_of_mem _ member)) (read ++ [c])

/-- Where a token cannot go on, the next one begins. -/
theorem tokens_of_not_extended {reading : Reading} {c : Char} {before : List Token}
    (stops : reading.extended c = none) (finished : reading.finished = some before)
    (rest : List Char) :
    tokens reading (c :: rest) = (tokens .nothing (c :: rest)).map (before ++ ·) := by
  rw [tokens, tokens, stops, finished]
  simp only [Reading.extended, Reading.finished]
  cases Reading.start c with
  | none => rfl
  | some next =>
    cases more : tokens next.2 rest with
    | none => simp [more]
    | some after => simp [more]

/-- A token ends where a part of a formula may end. -/
theorem tokens_of_boundary {reading : Reading} {before : List Token}
    (finished : reading.finished = some before) {rest : List Char} (ends : Boundary rest) :
    tokens reading rest = (tokens .nothing rest).map (before ++ ·) := by
  cases rest with
  | nil =>
    rw [tokens, tokens, finished]
    simp [Reading.finished]
  | cons c rest =>
    refine tokens_of_not_extended ?_ finished rest
    rcases ends c rfl with rfl | rfl <;> cases reading <;> simp [Reading.extended, Reading.isSign,
      Names.isPlain]

theorem extended_word {c : Char} (plain : Names.isPlain c = true) (read : List Char) :
    (Reading.word read).extended c = some (.word (read ++ [c])) := by
  simp [Reading.extended, plain]

theorem extended_numeral {c : Char} (plain : Names.isPlain c = true ∨ c = '.') (read : List Char) :
    (Reading.numeral read).extended c = some (.numeral (read ++ [c])) := by
  rcases plain with plain | plain <;> simp [Reading.extended, plain]

theorem extended_sign {c : Char} (signed : Reading.isSign c = true) (read : List Char) :
    (Reading.sign read).extended c = some (.sign (read ++ [c])) := by
  simp [Reading.extended, signed]

/-- The first character of a token. -/
theorem tokens_start {c : Char} {bracket : List Token} {next : Reading}
    (starts : Reading.start c = some (bracket, next)) (rest : List Char) :
    tokens .nothing (c :: rest) = (tokens next rest).map (bracket ++ ·) := by
  rw [tokens]
  cases more : tokens next rest <;> simp [Reading.extended, Reading.finished, starts, more]

theorem tokens_blank (rest : List Char) : tokens .nothing (' ' :: rest) = tokens .nothing rest := by
  rw [tokens_start rfl]
  cases tokens .nothing rest <;> rfl

/-- A plain word. -/
theorem lexes_word {text : String} (identifier : Names.IsIdentifier text) :
    Lexes text [.word text] := by
  obtain ⟨c, others, spelled, plain, notDigit, plainOthers⟩ := identifier
  intro rest ends
  have notBlank : c ≠ ' ' := by
    rintro rfl
    exact absurd plain (by decide)
  have notBracket : ¬ (c = '(' ∨ c = ')') := by
    rintro (rfl | rfl) <;> exact absurd plain (by decide)
  have starts : Reading.start c = some ([], .word [c]) := by
    simp [Reading.start, notBlank, notBracket, notDigit, plain]
  rw [spelled, List.cons_append, tokens_start starts,
    tokens_extended fun d member => extended_word (plainOthers d member),
    tokens_of_boundary rfl ends, List.singleton_append, ← spelled, String.ofList_toList]
  cases tokens .nothing rest <;> rfl

/-- The exponent part of a literal. -/
theorem tokens_exponent {sign : Char} (signed : sign = '+' ∨ sign = '-') {digits : List Char}
    (written : ∀ c ∈ digits, c.isDigit = true) (read rest : List Char) :
    tokens (.numeral read) ('e' :: sign :: (digits ++ rest)) =
      tokens (.numeral (read ++ 'e' :: sign :: digits)) rest := by
  have marked : (Reading.numeral read).extended 'e' = some (.numeral (read ++ ['e'])) :=
    extended_numeral (.inl (by decide)) read
  have attached : (Reading.numeral (read ++ ['e'])).extended sign =
      some (.numeral (read ++ ['e'] ++ [sign])) := by
    simp [Reading.extended, signed]
  rw [tokens, marked]
  dsimp only
  rw [tokens, attached]
  dsimp only
  rw [tokens_extended fun c member =>
    extended_numeral (.inl (Names.isPlain_of_isDigit (written c member)))]
  simp

/-- A number literal. -/
theorem lexes_numeral {text : String} (literal : Numeral.IsUnsigned text.toList) :
    Lexes text [.numeral text.toList] := by
  obtain ⟨whole, fraction, exponent, spelled, digits, fractional, exponential⟩ := literal
  obtain ⟨c, others, rfl⟩ := List.exists_cons_of_ne_nil digits.1
  have first : c.isDigit = true := digits.2 c (List.mem_cons_self ..)
  have starts : Reading.start c = some ([], .numeral [c]) := by
    have notBlank : c ≠ ' ' := by
      rintro rfl
      exact absurd first (by decide)
    have notBracket : ¬ (c = '(' ∨ c = ')') := by
      rintro (rfl | rfl) <;> exact absurd first (by decide)
    simp [Reading.start, notBlank, notBracket, first]
  have body : ∀ d ∈ others ++ fraction, Names.isPlain d = true ∨ d = '.' := by
    intro d member
    rcases List.mem_append.mp member with member | member
    · exact .inl (Names.isPlain_of_isDigit (digits.2 d (List.mem_cons_of_mem _ member)))
    · rcases fractional with rfl | ⟨places, rfl, written⟩
      · cases member
      · rcases List.mem_cons.mp member with rfl | member
        · exact .inr rfl
        · exact .inl (Names.isPlain_of_isDigit (written.2 d member))
  intro rest ends
  have whole : tokens .nothing (text.toList ++ rest) = tokens (.numeral text.toList) rest := by
    rw [spelled, List.append_assoc, List.cons_append, List.cons_append, tokens_start starts,
      tokens_extended fun d member => extended_numeral (body d member)]
    rcases exponential with rfl | ⟨sign, places, rfl, signed, written⟩
    · simp
    · have exponent := tokens_exponent signed written.2 ([c] ++ (others ++ fraction)) rest
      simp only [List.cons_append, List.nil_append] at exponent ⊢
      rw [exponent]
      simp
  rw [whole, tokens_of_boundary rfl ends]

/-- An operator that is written with signs. -/
theorem lexes_sign {text : String} (known : text ∈ signs) : Lexes text [.sign text] := by
  have spelled : ∀ text ∈ signs, text.toList ≠ [] ∧
      ∀ c ∈ text.toList, Reading.isSign c = true := by decide
  have starting : ∀ c ∈ "+-*/=!<>".toList, Reading.start c = some ([], .sign [c]) := by decide
  obtain ⟨nonempty, all⟩ := spelled text known
  obtain ⟨c, others, same⟩ := List.exists_cons_of_ne_nil nonempty
  rw [same] at all
  have starts := starting c (List.contains_iff_mem.mp (all c (List.mem_cons_self ..)))
  have finished : (Reading.sign text.toList).finished = some [.sign text] := by
    simp [Reading.finished, known]
  intro rest ends
  have whole : tokens .nothing (text.toList ++ rest) = tokens (.sign text.toList) rest := by
    rw [same, List.cons_append, tokens_start starts, tokens_extended fun d member =>
      extended_sign (all d (List.mem_cons_of_mem _ member))]
    simp
  rw [whole, tokens_of_boundary finished ends]

/-- The token of a binary operator. -/
def Token.ofOperator (operator : String) : Token :=
  if operator = "or" ∨ operator = "and" then .word operator else .sign operator

theorem lexes_operator {level : Level} {operator : String} (known : operator ∈ level.operators) :
    Lexes operator [.ofOperator operator] := by
  by_cases connective : operator = "or" ∨ operator = "and"
  · have identifier : Names.IsIdentifier operator := by
      rcases connective with rfl | rfl
      · exact ⟨'o', ['r'], rfl, rfl, rfl, by decide⟩
      · exact ⟨'a', ['n', 'd'], rfl, rfl, rfl, by decide⟩
    rw [Token.ofOperator, if_pos connective]
    exact lexes_word identifier
  · have sign : operator ∈ signs := by
      have all : ∀ other ∈ level.operators, ¬ (other = "or" ∨ other = "and") → other ∈ signs := by
        cases level <;> decide
      exact all operator known connective
    rw [Token.ofOperator, if_neg connective]
    exact lexes_sign sign

section Composition

variable {text left right : String} {read first second : List Token}

/-- Two operands with an operator between them. -/
theorem Lexes.binary (leftRead : Lexes left first) (rightRead : Lexes right second) {level : Level}
    {operator : String} (known : operator ∈ level.operators) :
    Lexes (left ++ " " ++ operator ++ " " ++ right)
      (first ++ .ofOperator operator :: second) := by
  intro rest ends
  have split : (left ++ " " ++ operator ++ " " ++ right).toList ++ rest =
      left.toList ++ ' ' :: (operator.toList ++ ' ' :: (right.toList ++ rest)) := by
    simp
  rw [split, leftRead _ (boundary_blank _), tokens_blank,
    lexes_operator known _ (boundary_blank _), tokens_blank, rightRead rest ends]
  cases tokens .nothing rest <;> simp

/-- A part in parentheses. -/
theorem Lexes.grouped (partRead : Lexes text read) :
    Lexes ("(" ++ text ++ ")") (.sign "(" :: (read ++ [.sign ")"])) := by
  have opens : Reading.start '(' = some ([.sign "("], .nothing) := rfl
  have closes : Reading.start ')' = some ([.sign ")"], .nothing) := rfl
  intro rest _
  have split : ("(" ++ text ++ ")").toList ++ rest = '(' :: (text.toList ++ ')' :: rest) := by
    simp
  rw [split, tokens_start opens, partRead _ (boundary_close _), tokens_start closes]
  cases tokens .nothing rest <;> simp

/-- A negated part. -/
theorem Lexes.negation (partRead : Lexes text read) :
    Lexes ("not " ++ text) (.word "not" :: read) := by
  have word : Lexes "not" [.word "not"] := lexes_word ⟨'n', ['o', 't'], rfl, rfl, rfl, by decide⟩
  intro rest ends
  have split : ("not " ++ text).toList ++ rest = "not".toList ++ ' ' :: (text.toList ++ rest) := by
    simp
  rw [split, word _ (boundary_blank _), tokens_blank, partRead rest ends]
  cases tokens .nothing rest <;> simp

/-- A literal behind a minus sign. -/
theorem Lexes.minus (literal : Numeral.IsUnsigned text.toList) (partRead : Lexes text read) :
    Lexes ("-" ++ text) (.sign "-" :: read) := by
  obtain ⟨whole, fraction, exponent, spelled, digits, -, -⟩ := literal
  obtain ⟨c, others, rfl⟩ := List.exists_cons_of_ne_nil digits.1
  have stops : (Reading.sign ['-']).extended c = none := by
    have digit : c.isDigit = true := digits.2 c (List.mem_cons_self ..)
    have notSign : Reading.isSign c = false := by
      have separate : ∀ d ∈ "+-*/=!<>".toList, d.isDigit = false := by decide
      by_contra sign
      rw [Bool.not_eq_false, Reading.isSign, List.contains_iff_mem] at sign
      simp [separate c sign] at digit
    simp [Reading.extended, notSign]
  intro rest ends
  have split : ("-" ++ text).toList ++ rest = '-' :: (text.toList ++ rest) := by simp
  have lexed := partRead rest ends
  rw [split, tokens_start rfl]
  simp only [spelled, List.cons_append] at lexed ⊢
  rw [tokens_of_not_extended stops rfl, lexed]
  cases tokens .nothing rest <;> rfl

end Composition

end Formula

end BlockScript
