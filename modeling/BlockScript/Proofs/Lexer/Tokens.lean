import BlockScript.Proofs.Printable

/-! # Tokens of generated code

Code is read from left to right as tokens, each as long as possible (`Lexer.tokens`): a dot behind
digits belongs to the number, and so does the mark of an exponent or of an imaginary number. Where
the rules here have nothing to say the reader refuses the text. A text stands for tokens before
whatever cannot go on with its last one (`Lexer.Lexes`), and texts that do so may be put one after
the other (`Lexer.Lexes.append`).
-/

namespace BlockScript

/-- A token of generated code. -/
inductive Lexeme where
  | word (text : String)
  | number (text : String)
  | literal (text : String)
  | sign (text : String)
deriving DecidableEq

namespace Lexer

open Text

/-- How far a number is read. -/
inductive Stage where
  /-- Its digits before a point. -/
  | whole
  /-- Its point, and digits behind it. -/
  | fraction
  /-- The mark of its exponent. -/
  | marked
  /-- The sign of its exponent. -/
  | signed
  /-- The digits of its exponent. -/
  | scaled
  /-- The mark of an imaginary number. -/
  | imaginary
deriving DecidableEq

namespace Stage

/-- The stage with one more character, if it belongs to the number. -/
def next : Stage → Char → Option Stage
  | .whole, c =>
      if c.isDigit then some .whole
      else if c = '.' then some .fraction
      else if c = 'e' || c = 'E' then some .marked
      else if c = 'j' || c = 'J' then some .imaginary
      else none
  | .fraction, c =>
      if c.isDigit then some .fraction
      else if c = 'e' || c = 'E' then some .marked
      else if c = 'j' || c = 'J' then some .imaginary
      else none
  | .marked, c =>
      if c.isDigit then some .scaled
      else if c = '+' || c = '-' then some .signed
      else none
  | .signed, c => if c.isDigit then some .scaled else none
  | .scaled, c =>
      if c.isDigit then some .scaled
      else if c = 'j' || c = 'J' then some .imaginary
      else none
  | .imaginary, _ => none

/-- Whether a number is complete. -/
def isComplete : Stage → Bool
  | .marked | .signed => false
  | _ => true

/-- Whether a number may end before a character that does not belong to it. Prefixes of other bases
and separators of digits are refused. -/
def endsBefore : Stage → Char → Bool
  | .whole, c | .scaled, c => !Names.isPlain c
  | .fraction, c => c ≠ '_'
  | .marked, _ | .signed, _ => false
  | .imaginary, _ => true

end Stage

/-- The operators and the marks between parts of code. -/
def signs : List String :=
  ["(", ")", "[", "]", ",", ":", ":=", "=", "==", "!=", "<", "<=", "<<", "<<=", ">", ">=", ">>",
    ">>=", "+", "+=", "-", "-=", "->", "*", "*=", "**", "**=", "/", "/=", "//", "//="]

/-- The marks that literals stand between. -/
inductive Quote where
  | single
  | double
deriving DecidableEq

def Quote.char : Quote → Char
  | .single => '\''
  | .double => '"'

/-- The mark that a character is. -/
def quote? (c : Char) : Option Quote :=
  if c = '\'' then some .single else if c = '"' then some .double else none

/-- Whether a line ends with a character. -/
def isLineEnd (c : Char) : Bool := c = '\n' || c = '\r'

/-- What is being read. -/
inductive Mode where
  | between
  | word (read : List Char)
  | number (stage : Stage) (read : List Char)
  | dot
  | sign (read : List Char)
  | inside (quote : Quote) (read : List Char)
  /-- A literal, after a backslash. -/
  | escape (quote : Quote) (read : List Char)
  /-- A literal that has ended. -/
  | closed (read : List Char)
  /-- A text for which there are no rules. -/
  | refused
deriving DecidableEq

namespace Mode

/-- Starts to read. -/
def start (c : Char) : Option Mode :=
  if c = ' ' then some .between
  else if c = '.' then some .dot
  else if c.isDigit then some (.number .whole [c])
  else if Names.isPlain c then some (.word [c])
  else
    match quote? c with
    | some quote => some (.inside quote [c])
    | none => if signs.any (·.toList.head? = some c) then some (.sign [c]) else none

/-- What is read with one more character, when it belongs to the same token. A quote behind a word
or a literal would make it another kind of literal. -/
def extended : Mode → Char → Option Mode
  | .between, _ => none
  | .word read, c =>
      if Names.isPlain c then some (.word (read ++ [c]))
      else if (quote? c).isSome then some .refused
      else none
  | .number stage read, c =>
      match stage.next c with
      | some later => some (.number later (read ++ [c]))
      | none => if stage.endsBefore c then none else some .refused
  | .dot, c =>
      if c.isDigit then some (.number .fraction ['.', c])
      else if c = '.' then some .refused
      else none
  | .sign read, c =>
      if String.ofList (read ++ [c]) ∈ signs then some (.sign (read ++ [c])) else none
  | .inside quote read, c =>
      if isLineEnd c then some .refused
      else if c = '\\' then some (.escape quote (read ++ [c]))
      else if c = quote.char then some (.closed (read ++ [c]))
      else some (.inside quote (read ++ [c]))
  | .escape quote read, c =>
      if isLineEnd c then some .refused else some (.inside quote (read ++ [c]))
  | .closed _, c => if (quote? c).isSome then some .refused else none
  | .refused, _ => some .refused

/-- The tokens of what has been read. -/
def finished : Mode → Option (List Lexeme)
  | .between => some []
  | .word read => some [.word (String.ofList read)]
  | .number stage read => if stage.isComplete then some [.number (String.ofList read)] else none
  | .dot => some [.sign "."]
  | .sign read =>
      if String.ofList read ∈ signs then some [.sign (String.ofList read)] else none
  | .inside .. | .escape .. => none
  | .closed read => some [.literal (String.ofList read)]
  | .refused => none

end Mode

/-- The tokens of characters, each as long as possible. -/
def tokens : Mode → List Char → Option (List Lexeme)
  | mode, [] => mode.finished
  | mode, c :: rest =>
      match mode.extended c with
      | some longer => tokens longer rest
      | none =>
          match mode.finished, Mode.start c with
          | some before, some next => (tokens next rest).map (before ++ ·)
          | _, _ => none

end Lexer

/-- The tokens of a text. -/
def lexemes (text : String) : Option (List Lexeme) := Lexer.tokens .between text.toList

namespace Lexer

open Text

/-! ## Reading texts one after the other -/

/-- A character that belongs to the token that is being read. -/
theorem tokens_longer {mode longer : Mode} {c : Char} (extended : mode.extended c = some longer)
    (rest : List Char) : tokens mode (c :: rest) = tokens longer rest := by
  rw [tokens, extended]

/-- Characters that all belong to the token that is being read. -/
theorem tokens_extended {mode : List Char → Mode} {chars : List Char}
    (same : ∀ c ∈ chars, ∀ read, (mode read).extended c = some (mode (read ++ [c])))
    (read rest : List Char) :
    tokens (mode read) (chars ++ rest) = tokens (mode (read ++ chars)) rest := by
  induction chars generalizing read with
  | nil => rw [List.nil_append, List.append_nil]
  | cons c chars ih =>
      rw [List.cons_append, tokens_longer (same c (List.mem_cons_self ..) read)]
      simpa using ih (fun d member => same d (List.mem_cons_of_mem _ member)) (read ++ [c])

/-- The first character of a token. -/
theorem tokens_start {c : Char} {next : Mode} (starts : Mode.start c = some next)
    (rest : List Char) : tokens .between (c :: rest) = tokens next rest := by
  rw [tokens]
  simp [Mode.extended, Mode.finished, starts]

/-- Where a token cannot go on, the next one begins. -/
theorem tokens_stop {mode : Mode} {c : Char} {before : List Lexeme}
    (stops : mode.extended c = none) (finished : mode.finished = some before) (rest : List Char) :
    tokens mode (c :: rest) = (tokens .between (c :: rest)).map (before ++ ·) := by
  rw [tokens, tokens, stops, finished]
  cases Mode.start c with
  | none => rfl
  | some next => simp [Mode.extended, Mode.finished]

/-- A text stands for tokens wherever it is followed by nothing or by a character of a kind. -/
def Lexes (ends : Char → Bool) (text : String) (read : List Lexeme) : Prop :=
  ∀ rest : List Char, (∀ c ∈ rest.head?, ends c = true) →
    tokens .between (text.toList ++ rest) = (tokens .between rest).map (read ++ ·)

/-- Any character. -/
def isAny (_ : Char) : Bool := true

/-- The characters that may follow any code of the language. -/
def isSeparator (c : Char) : Bool := c ∈ [' ', '(', ')', '[', ']', ',']

/-- Those and the dot, which may follow some code. -/
def isBreak (c : Char) : Bool := c ∈ ['.', ' ', '(', ')', '[', ']', ',']

theorem isSeparator_iff {c : Char} : isSeparator c = true ↔
    c = ' ' ∨ c = '(' ∨ c = ')' ∨ c = '[' ∨ c = ']' ∨ c = ',' := by
  simp [isSeparator]

theorem isBreak_iff {c : Char} : isBreak c = true ↔ c = '.' ∨ isSeparator c = true := by
  simp [isBreak, isSeparator]

variable {ends more : Char → Bool} {first second text : String} {read before after : List Lexeme}

theorem Lexes.lexemes_eq (lexes : Lexes ends text read) : lexemes text = some read := by
  have alone := lexes [] fun _ none => nomatch none
  rw [List.append_nil] at alone
  rw [lexemes, alone, tokens]
  simp [Mode.finished]

theorem Lexes.mono (lexes : Lexes ends text read) (fewer : ∀ c, more c = true → ends c = true) :
    Lexes more text read :=
  fun rest starts => lexes rest fun c head => fewer c (starts c head)

/-- A text may be followed by one that starts with a character of the right kind. -/
theorem Lexes.append (left : Lexes ends first before) (right : Lexes more second after)
    (starts : Starts ends second) : Lexes more (first ++ second) (before ++ after) := by
  intro rest follows
  obtain ⟨c, chars, same, holds⟩ := starts.exists_cons
  rw [String.toList_append, List.append_assoc, left, right rest follows, Option.map_map]
  · congr 1
    funext tail
    exact (List.append_assoc ..).symm
  · rw [same]
    rintro d ⟨⟩
    exact holds

/-- A text that anything may follow. -/
theorem Lexes.follow (left : Lexes isAny first before) (right : Lexes more second after) :
    Lexes more (first ++ second) (before ++ after) := by
  intro rest follows
  rw [String.toList_append, List.append_assoc, left _ fun _ _ => rfl, right rest follows,
    Option.map_map]
  congr 1
  funext tail
  exact (List.append_assoc ..).symm

theorem lexes_empty : Lexes ends "" [] := by
  intro rest _
  change tokens .between rest = _
  cases tokens .between rest <;> rfl

/-- Where a text is read to a mode in which a token ends before whatever may follow, it is read. -/
theorem lexes_of_mode {mode : Mode}
    (reads : ∀ rest, tokens .between (text.toList ++ rest) = tokens mode rest)
    (finished : mode.finished = some read)
    (stops : ∀ c, ends c = true → mode.extended c = none) : Lexes ends text read := by
  intro rest follows
  rw [reads]
  cases rest with
  | nil =>
      rw [tokens, tokens, finished]
      simp [Mode.finished]
  | cons c rest => exact tokens_stop (stops c (follows c rfl)) finished rest

/-- A mode in which a blank is read without an end of the token is no end of a text. -/
theorem finished_of_extended_blank {mode longer : Mode} (extended : mode.extended ' ' = some longer) :
    longer.finished = none := by
  have spelled : ∀ sign ∈ signs, ' ' ∉ sign.toList := by decide
  cases mode with
  | between | dot => cases extended
  | word read => cases extended
  | number stage read => cases stage <;> cases extended <;> rfl
  | sign read =>
      simp only [Mode.extended, Option.ite_none_right_eq_some] at extended
      exact (spelled _ extended.1 (by simp)).elim
  | inside quote read => cases quote <;> cases extended <;> rfl
  | escape quote read => cases extended; rfl
  | closed read => cases extended
  | refused => cases extended; rfl

theorem tokens_of_blank {chars : List Char} {mode : Mode}
    (known : tokens mode (chars ++ [' ']) = some read) (rest : List Char) :
    tokens mode (chars ++ ' ' :: rest) = (tokens .between rest).map (read ++ ·) := by
  induction chars generalizing mode read with
  | nil =>
      rw [List.nil_append, tokens] at known ⊢
      cases extended : mode.extended ' ' with
      | some longer =>
          rw [extended] at known
          cases (finished_of_extended_blank extended).symm.trans known
      | none =>
          rw [extended] at known
          cases finished : mode.finished with
          | none =>
              rw [finished] at known
              cases known
          | some before =>
              rw [finished] at known
              have same : some (before ++ []) = some read := known
              rw [List.append_nil] at same
              cases same
              rfl
  | cons c chars ih =>
      rw [List.cons_append, tokens] at known ⊢
      cases extended : mode.extended c with
      | some longer =>
          rw [extended] at known
          exact ih known
      | none =>
          rw [extended] at known
          cases finished : mode.finished with
          | none =>
              rw [finished] at known
              cases known
          | some before =>
              cases starts : Mode.start c with
              | none =>
                  rw [finished, starts] at known
                  cases known
              | some next =>
                  rw [finished, starts] at known
                  obtain ⟨tail, later, rfl⟩ := Option.map_eq_some_iff.mp known
                  dsimp only
                  rw [ih later, Option.map_map]
                  congr 1
                  funext last
                  exact (List.append_assoc ..).symm

/-- **A text that ends with a blank** is read alike before anything. -/
theorem lexes_of_blank (known : lexemes text = some read)
    (blank : text.toList.getLast? = some ' ') : Lexes isAny text read := by
  intro rest _
  obtain ⟨chars, same⟩ := List.getLast?_eq_some_iff.mp blank
  rw [lexemes, same] at known
  rw [same, List.append_assoc]
  exact tokens_of_blank known rest

end Lexer

end BlockScript
