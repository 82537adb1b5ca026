import BlockScript.Proofs.Printable
import BlockScript.Proofs.Reach

/-! # Scanning expressions

An expression is scanned from left to right without parsing it: literals are skipped, brackets are
matched, and the operators that stand outside all brackets are noted with their orders. Texts that
are read to their end without leaving a word or a run of signs open can be read one after the other
(`Scanner.Passes.append`, `Scanner.Closes.append`), and in brackets they count for nothing
(`Scanner.scan_bracketed`).
-/

namespace BlockScript

/-- What the scanner is in the middle of. -/
inductive Scanner.Mode where
  /-- Nothing; the character before was a blank or not. -/
  | between (blank : Bool)
  /-- A word, with its characters so far. -/
  | word (chars : List Char)
  /-- A run of signs, with a blank before it or not. -/
  | sign (spaced : Bool) (chars : List Char)
  /-- A literal that ends with a quote. -/
  | literal (quote : Char)
  /-- A literal, after a backslash. -/
  | escape (quote : Char)

/-- The state of a scan. -/
structure Scanner where
  mode : Scanner.Mode
  /-- The open brackets, the innermost first. -/
  opened : List Char
  /-- The orders of the operators outside all brackets. -/
  orders : List Order

open Text

namespace Scanner

/-- The scanner before the first character. -/
def start : Scanner := ⟨.between false, [], []⟩

/-- The characters that operators other than words are made of. -/
def signs : List Char := ['=', '!', '<', '>', '+', '-', '*', '/']

/-- The words that are operators. -/
def wordOrders (chars : List Char) : List Order :=
  if chars = "or".toList then [.logicalOr]
  else if chars = "and".toList then [.logicalAnd]
  else if chars = "not".toList then [.logicalNot]
  else []

/-- The operator that a run of signs is, given whether there is a blank before it and after it. A
minus that is attached to what follows is a sign; any other operator has blanks on both sides. -/
def signOrder? (spaced : Bool) (chars : List Char) (next : Char) : Option Order :=
  if next = ' ' then
    if spaced then binaryOperators.get? (String.ofList chars) else none
  else if chars = ['-'] then some .unarySign
  else none

/-- Whether a character belongs to the word before it. The sign of an exponent does. -/
def continues (chars : List Char) (c : Char) : Bool :=
  Names.isPlain c ||
    ((c = '+' || c = '-') && chars.head?.any Char.isDigit &&
      (chars.getLast? = some 'e' || chars.getLast? = some 'E'))

/-- Notes operators, if they stand outside all brackets. -/
def note (scanner : Scanner) (orders : List Order) : Scanner :=
  { scanner with orders := scanner.orders ++ if scanner.opened.isEmpty then orders else [] }

/-- Reads a character that does not belong to what is before it. -/
def enter (scanner : Scanner) (blank : Bool) (c : Char) : Option Scanner :=
  if Names.isPlain c then some { scanner with mode := .word [c] }
  else if c ∈ signs then some { scanner with mode := .sign blank [c] }
  else if c = '\'' || c = '"' then some { scanner with mode := .literal c }
  else if c = '(' || c = '[' then
    some { scanner with mode := .between false, opened := c :: scanner.opened }
  else if c = ')' || c = ']' then
    match scanner.opened with
    | bracket :: rest =>
        if (bracket, c) ∈ [('(', ')'), ('[', ']')] then
          some { scanner with mode := .between false, opened := rest }
        else none
    | [] => none
  else if (c = ',' || c = ':') && scanner.opened.isEmpty then none
  else some { scanner with mode := .between (c = ' ') }

/-- Reads a character. -/
def step (scanner : Scanner) (c : Char) : Option Scanner :=
  match scanner.mode with
  | .between blank => scanner.enter blank c
  | .word chars =>
      if continues chars c then some { scanner with mode := .word (chars ++ [c]) }
      else (scanner.note (wordOrders chars)).enter false c
  | .sign spaced chars =>
      if c ∈ signs then some { scanner with mode := .sign spaced (chars ++ [c]) }
      else
        match signOrder? spaced chars c with
        | some order => (scanner.note [order]).enter false c
        | none => none
  | .literal quote =>
      if c = '\\' then some { scanner with mode := .escape quote }
      else if c = quote then some { scanner with mode := .between false }
      else some scanner
  | .escape quote => some { scanner with mode := .literal quote }

/-- Reads characters. -/
def scan (scanner : Scanner) : List Char → Option Scanner
  | [] => some scanner
  | c :: rest =>
      match scanner.step c with
      | some next => next.scan rest
      | none => none

/-- The orders of the operators outside all brackets, when the scan has come to an end: literals and
brackets are closed, and nothing follows that an operator still asks for. -/
def finish (scanner : Scanner) : Option (List Order) :=
  match scanner.mode with
  | .between _ => if scanner.opened.isEmpty then some scanner.orders else none
  | .word chars =>
      if scanner.opened.isEmpty then some (scanner.orders ++ wordOrders chars) else none
  | .sign .. | .literal _ | .escape _ => none

/-- The orders of the operators of a text that stand outside all brackets. -/
def operators (text : String) : Option (List Order) := (start.scan text.toList).bind finish

/-! ## Scanning texts one after the other -/

/-- A text in two parts is scanned part by part. -/
theorem scan_append (scanner : Scanner) (first second : List Char) :
    scanner.scan (first ++ second) = (scanner.scan first).bind (·.scan second) := by
  induction first generalizing scanner with
  | nil => rfl
  | cons c rest ih =>
      simp only [List.cons_append, scan]
      cases scanner.step c with
      | none => rfl
      | some next => exact ih next

/-- The scanner is in the middle of nothing, or of a word that is no operator. -/
inductive Mode.Settled : Mode → Prop
  | between (blank : Bool) : Settled (.between blank)
  | word {chars : List Char} : wordOrders chars = [] → Settled (.word chars)

/-- A character that belongs neither to words nor to runs of signs. -/
def isNeutral (c : Char) : Bool := !Names.isPlain c && c ∉ signs

/-- What a scanner was in the middle of does not matter for a character that does not belong to
it. -/
theorem enter_mode (mode other : Mode) (opened : List Char) (orders : List Order) (blank : Bool)
    (c : Char) :
    enter ⟨mode, opened, orders⟩ blank c = enter ⟨other, opened, orders⟩ blank c := rfl

/-- A settled scanner reads a neutral character as any other settled one does. -/
theorem step_settled {mode : Mode} (settled : mode.Settled) {c : Char}
    (neutral : isNeutral c = true) (opened : List Char) (orders : List Order) :
    step ⟨mode, opened, orders⟩ c = step ⟨.between false, opened, orders⟩ c := by
  have ⟨apart, unsigned⟩ : Names.isPlain c = false ∧ c ∉ signs := by simpa [isNeutral] using neutral
  cases settled with
  | between blank => simp [step, enter, apart, unsigned]
  | @word chars quiet =>
      have ends : continues chars c = false := by
        have plus : c ≠ '+' := fun same => unsigned (by simp [same, signs])
        have minus : c ≠ '-' := fun same => unsigned (by simp [same, signs])
        simp [continues, apart, plus, minus]
      simp only [step, ends, quiet, note, Bool.false_eq_true, ↓reduceIte, ite_self, List.append_nil]
      exact enter_mode ..

/-- A text is read from nothing to something settled, and the operators in it that are outside all
brackets are noted. It may have to stand in brackets itself, unless it may stand outside. -/
def Passes (outside : Prop) (text : String) (orders : List Order) : Prop :=
  ∀ blank opened found, (opened = [] → outside) → ∃ mode, Mode.Settled mode ∧
    scan ⟨.between blank, opened, found⟩ text.toList =
      some ⟨mode, opened, found ++ if opened.isEmpty then orders else []⟩

/-- A text is read as with `Passes`, and at its end the scanner is in the middle of nothing. -/
def Closes (outside : Prop) (text : String) (orders : List Order) : Prop :=
  ∀ blank opened found, (opened = [] → outside) → ∃ after,
    scan ⟨.between blank, opened, found⟩ text.toList =
      some ⟨.between after, opened, found ++ if opened.isEmpty then orders else []⟩

variable {outside : Prop} {first second text : String} {before after orders : List Order}

/-- Operators are found outside brackets only. -/
theorem found_append (opened : List Char) (found : List Order) :
    found ++ (if opened.isEmpty then before else []) ++ (if opened.isEmpty then after else []) =
      found ++ if opened.isEmpty then before ++ after else [] := by
  split <;> simp

/-- After a text that closes, any text may follow. -/
theorem Closes.append (left : Closes outside first before) (right : Passes outside second after) :
    Passes outside (first ++ second) (before ++ after) := by
  intro blank opened found allowed
  obtain ⟨between, read⟩ := left blank opened found allowed
  obtain ⟨mode, settled, rest⟩ := right between opened _ allowed
  refine ⟨mode, settled, ?_⟩
  rw [String.toList_append, scan_append, read, Option.bind_some, rest, found_append]

/-- A text that starts with a neutral character may follow any other. -/
theorem Passes.append (left : Passes outside first before) (right : Passes outside second after)
    (starts : Starts isNeutral second) : Passes outside (first ++ second) (before ++ after) := by
  intro blank opened found allowed
  obtain ⟨mode, settled, read⟩ := left blank opened found allowed
  obtain ⟨last, finished, tail⟩ := right false opened
    (found ++ if opened.isEmpty then before else []) allowed
  refine ⟨last, finished, ?_⟩
  rw [String.toList_append, scan_append, read, Option.bind_some, ← found_append, ← tail]
  -- The first text leaves a settled scanner, which reads a neutral character as a new one does.
  obtain ⟨c, rest, same, neutral⟩ := starts.exists_cons
  rw [same]
  simp only [scan, step_settled settled neutral]

/-- Two texts with something between them that starts with a neutral character and leaves nothing
open. -/
theorem Passes.separated {separator : String} {middle : List Order}
    (left : Passes outside first before) (between : Closes outside separator middle)
    (starts : Starts isNeutral separator) (right : Passes outside second after) :
    Passes outside (first ++ separator ++ second) (before ++ (middle ++ after)) := by
  rw [String.append_assoc]
  exact left.append (between.append right) (starts.append second)

/-- What may stand outside may stand in brackets. -/
theorem Passes.inside (passes : Passes True text orders) : Passes False text [] := by
  intro blank opened found allowed
  obtain ⟨mode, settled, read⟩ := passes blank opened found fun _ => trivial
  refine ⟨mode, settled, ?_⟩
  have within : opened.isEmpty = false := by simpa using fun none => allowed none
  simpa [within] using read

theorem passes_empty : Passes outside "" [] :=
  fun blank _ _ _ => ⟨.between blank, .between blank, by simp [scan]⟩

/-- A text in brackets is read, and counts for nothing. -/
theorem scan_bracketed (passes : Passes False text orders) {opening closing : Char}
    (matched : (opening, closing) ∈ [('(', ')'), ('[', ']')]) (blank : Bool) (opened : List Char)
    (found : List Order) :
    scan ⟨.between blank, opened, found⟩ (opening :: (text.toList ++ [closing])) =
      some ⟨.between false, opened, found⟩ := by
  obtain ⟨mode, settled, read⟩ := passes false (opening :: opened) found (nomatch ·)
  simp only [List.mem_cons, Prod.mk.injEq, List.not_mem_nil, or_false] at matched
  have enters : step ⟨.between blank, opened, found⟩ opening =
      some ⟨.between false, opening :: opened, found⟩ := by
    rcases matched with ⟨rfl, rfl⟩ | ⟨rfl, rfl⟩ <;> rfl
  have leaves : step ⟨mode, opening :: opened, found⟩ closing =
      some ⟨.between false, opened, found⟩ := by
    rcases matched with ⟨rfl, rfl⟩ | ⟨rfl, rfl⟩
    · rw [step_settled settled (by decide)]
      rfl
    · rw [step_settled settled (by decide)]
      rfl
  simp only [scan, enters, scan_append, read, List.isEmpty_cons, Bool.false_eq_true, ↓reduceIte,
    List.append_nil, Option.bind_some, leaves]

/-- Nothing inside parentheses is an operator outside. -/
theorem Passes.inParentheses (passes : Passes False text orders) :
    Passes outside ("(" ++ text ++ ")") [] := by
  intro blank opened found _
  refine ⟨.between false, .between false, ?_⟩
  simpa using scan_bracketed passes (show ('(', ')') ∈ _ by decide) blank opened found

/-- Nothing inside brackets is an operator outside. -/
theorem Passes.inBrackets (passes : Passes False text orders) :
    Passes outside ("[" ++ text ++ "]") [] := by
  intro blank opened found _
  refine ⟨.between false, .between false, ?_⟩
  simpa using scan_bracketed passes (show ('[', ']') ∈ _ by decide) blank opened found

/-- Arguments add no operators to what they follow. -/
theorem Passes.withArguments (left : Passes outside first before)
    (passes : Passes False text orders) :
    Passes outside (first ++ "(" ++ text ++ ")") before := by
  have starts : Starts isNeutral "(" := by decide
  have both := left.append passes.inParentheses ((starts.append text).append ")")
  simpa only [String.append_assoc, List.append_nil] using both

/-- Neither do subscripts. -/
theorem Passes.withSubscript (left : Passes outside first before)
    (passes : Passes False text orders) :
    Passes outside (first ++ "[" ++ text ++ "]") before := by
  have starts : Starts isNeutral "[" := by decide
  have both := left.append passes.inBrackets ((starts.append text).append "]")
  simpa only [String.append_assoc, List.append_nil] using both

/-! ## Words, numbers and literals -/

/-- A word that is no operator. -/
def IsWord (chars : List Char) : Prop :=
  chars ≠ [] ∧ (∀ c ∈ chars, Names.isPlain c = true) ∧ wordOrders chars = []

instance (chars : List Char) : Decidable (IsWord chars) :=
  inferInstanceAs (Decidable (_ ∧ _ ∧ _))

/-- A word goes on with plain characters. -/
theorem scan_plain (chars : List Char) (opened : List Char) (found : List Order)
    {more : List Char} (plain : ∀ c ∈ more, Names.isPlain c = true) :
    scan ⟨.word chars, opened, found⟩ more = some ⟨.word (chars ++ more), opened, found⟩ := by
  induction more generalizing chars with
  | nil => simp [scan]
  | cons c rest ih =>
      have grows : continues chars c = true := by simp [continues, plain c (List.mem_cons_self ..)]
      simp only [scan, step, grows, ↓reduceIte]
      rw [ih _ fun d member => plain d (List.mem_cons_of_mem _ member)]
      simp

/-- A plain character starts a word. -/
theorem scan_word (blank : Bool) (opened : List Char) (found : List Order) {c : Char}
    {rest : List Char} (plain : ∀ d ∈ c :: rest, Names.isPlain d = true) :
    scan ⟨.between blank, opened, found⟩ (c :: rest) =
      some ⟨.word (c :: rest), opened, found⟩ := by
  have first : Names.isPlain c = true := plain c (List.mem_cons_self ..)
  simp only [scan, step, enter, first, ↓reduceIte]
  exact scan_plain [c] opened found fun d member => plain d (List.mem_cons_of_mem _ member)

/-- A word passes without operators. -/
theorem passes_word (word : IsWord text.toList) : Passes outside text [] := by
  intro blank opened found _
  obtain ⟨nonempty, plain, quiet⟩ := word
  refine ⟨.word text.toList, .word quiet, ?_⟩
  obtain ⟨c, rest, same⟩ := List.exists_cons_of_ne_nil nonempty
  rw [same] at plain ⊢
  simpa using scan_word blank opened found plain

/-- Names are words. -/
theorem isWord_of_isName (named : Names.IsName text) : IsWord text.toList := by
  obtain ⟨⟨c, rest, same, plain, _, others⟩, free⟩ := named
  have known {operator : String} (reserved : operator ∈ Names.reservedWords) :
      text.toList ≠ operator.toList := by
    intro equal
    rw [String.toList_inj.mp equal] at free
    exact free reserved
  refine ⟨by simp [same], ?_, ?_⟩
  · rw [same]
    exact List.forall_mem_cons.mpr ⟨plain, others⟩
  · unfold wordOrders
    rw [if_neg (known (by decide)), if_neg (known (by decide)), if_neg (known (by decide))]

/-- What starts with a digit is no operator. -/
theorem wordOrders_of_isDigit {c : Char} (digit : c.isDigit = true) (rest : List Char) :
    wordOrders (c :: rest) = [] := by
  have apart {operator : String} (letter : operator.toList.head?.any Char.isDigit = false) :
      c :: rest ≠ operator.toList := by
    intro same
    rw [← same] at letter
    simp [digit] at letter
  unfold wordOrders
  rw [if_neg (apart rfl), if_neg (apart rfl), if_neg (apart rfl)]

/-- The exponent of a number belongs to the word that the number ends with. -/
theorem scan_exponent {c sign : Char} {rest digits : List Char} (digit : c.isDigit = true)
    (signed : sign = '+' ∨ sign = '-') (shape : Numeral.IsDigits digits) (opened : List Char)
    (found : List Order) :
    scan ⟨.word (c :: rest), opened, found⟩ ('e' :: sign :: digits) =
      some ⟨.word (c :: rest ++ 'e' :: sign :: digits), opened, found⟩ := by
  have letter : continues (c :: rest) 'e' = true := rfl
  have attached : continues (c :: rest ++ ['e']) sign = true := by
    have last : (c :: rest ++ ['e']).getLast? = some 'e' := List.getLast?_concat
    simp only [continues, last]
    rcases signed with rfl | rfl <;> simp [digit]
  simp only [scan, step, letter, attached, ↓reduceIte]
  rw [scan_plain _ _ _ fun d member => Names.isPlain_of_isDigit (shape.2 d member)]
  simp

/-- Digits, perhaps with an exponent. -/
theorem passes_digits {digits exponent : List Char} (shape : Numeral.IsDigits digits)
    (scaled : exponent = [] ∨ ∃ sign more, exponent = 'e' :: sign :: more ∧
      (sign = '+' ∨ sign = '-') ∧ Numeral.IsDigits more) :
    Passes outside (String.ofList (digits ++ exponent)) [] := by
  intro blank opened found _
  obtain ⟨nonempty, all⟩ := shape
  obtain ⟨c, rest, rfl⟩ := List.exists_cons_of_ne_nil nonempty
  have digit : c.isDigit = true := all c (List.mem_cons_self ..)
  have read := scan_word blank opened found fun d member => Names.isPlain_of_isDigit (all d member)
  refine ⟨.word (c :: rest ++ exponent), .word (wordOrders_of_isDigit digit _), ?_⟩
  rw [String.toList_ofList, scan_append, read]
  rcases scaled with rfl | ⟨sign, more, rfl, signed, further⟩
  · simp [scan]
  · simpa using scan_exponent digit signed further opened found

/-- After a dot any text may follow. -/
theorem closes_dot : Closes outside "." [] := by
  intro blank opened found _
  have read : scan ⟨.between blank, opened, found⟩ ".".toList =
      some ⟨.between false, opened, found⟩ := by
    simp [scan, step, enter, signs, Names.isPlain]
  exact ⟨false, by simpa using read⟩

/-- A numeral passes without operators. -/
theorem passes_numeral (unsigned : Numeral.IsUnsigned text.toList) : Passes outside text [] := by
  obtain ⟨whole, fraction, exponent, same, digits, fractionShape, exponentShape⟩ := unsigned
  rcases fractionShape with rfl | ⟨decimals, rfl, decimalDigits⟩
  · have written : text = String.ofList (whole ++ exponent) := by
      rw [← String.ofList_toList (s := text), same, List.append_nil]
    rw [written]
    exact passes_digits digits exponentShape
  · have written : text = String.ofList (whole ++ []) ++
        ("." ++ String.ofList (decimals ++ exponent)) := by
      rw [← String.toList_inj, same]
      simp
    rw [written]
    have left : Passes outside (String.ofList (whole ++ [])) [] := passes_digits digits (.inl rfl)
    have right : Passes outside ("." ++ String.ofList (decimals ++ exponent)) [] :=
      closes_dot.append (passes_digits decimalDigits exponentShape)
    have starts : Starts isNeutral "." := by decide
    exact left.append right (starts.append _)

/-- Escaped characters stay in the literal they are written into. -/
theorem scan_escaped (opened : List Char) (found : List Order) (c : Char) :
    scan ⟨.literal '\'', opened, found⟩ (Text.escaped c) =
      some ⟨.literal '\'', opened, found⟩ := by
  have digit (k : Nat) : step ⟨.literal '\'', opened, found⟩ (Text.hexDigit (k % 16)) =
      some ⟨.literal '\'', opened, found⟩ := by
    obtain ⟨_, backslash, quote⟩ := Text.hexDigit_of_lt (Nat.mod_lt k (by decide : 16 > 0))
    simp [step, backslash, quote]
  unfold Text.escaped
  by_cases backslash : c = '\\'
  · simp [backslash, scan, step]
  by_cases newline : c = '\n'
  · simp [newline, scan, step]
  by_cases feed : c = '\r'
  · simp [feed, scan, step]
  by_cases tab : c = '\t'
  · simp [tab, scan, step]
  by_cases quote : c = '\''
  · simp [quote, scan, step]
  by_cases control : Text.isControl c = true
  · have coded (chars : List Char) : scan ⟨.literal '\'', opened, found⟩ ('\\' :: 'x' :: chars) =
        scan ⟨.literal '\'', opened, found⟩ chars := rfl
    simp only [backslash, newline, feed, tab, quote, control, ↓reduceIte, coded, Text.hex,
      List.nil_append, List.singleton_append, scan, digit]
  · simp [backslash, newline, feed, tab, quote, control, scan, step]

/-- A quoted text passes, whatever it says. -/
theorem passes_quoted (content : String) : Passes outside (Text.quoted content) [] := by
  intro blank opened found _
  refine ⟨.between false, .between false, ?_⟩
  have content : ∀ chars : List Char,
      scan ⟨.literal '\'', opened, found⟩ (chars.flatMap Text.escaped) =
        some ⟨.literal '\'', opened, found⟩ := by
    intro chars
    induction chars with
    | nil => rfl
    | cons c rest ih => rw [List.flatMap_cons, scan_append, scan_escaped, Option.bind_some, ih]
  have enters : step ⟨.between blank, opened, found⟩ '\'' =
      some ⟨.literal '\'', opened, found⟩ := rfl
  have leaves : step ⟨.literal '\'', opened, found⟩ '\'' =
      some ⟨.between false, opened, found⟩ := rfl
  simp only [Text.quoted, List.cons_append, String.toList_ofList, scan, enters, scan_append,
    content, Option.bind_some, leaves, ite_self, List.append_nil]

/-- A label in double quotes passes. -/
theorem passes_label (known : text ∈ labelTexts) : Passes outside ("\"" ++ text ++ "\"") [] := by
  intro blank opened found _
  refine ⟨.between false, .between false, ?_⟩
  rw [ite_self, List.append_nil]
  simp only [labelTexts, List.mem_cons, List.not_mem_nil, or_false] at known
  rcases known with rfl | rfl | rfl | rfl | rfl <;> rfl

/-! ## Operators -/

/-- An operator with blanks around it is noted with its order. -/
theorem closes_operator {operator : String} {order : Order}
    (known : (operator, order) ∈ binaryOperators) :
    Closes outside (" " ++ operator ++ " ") [order] := by
  intro blank opened found _
  refine ⟨true, ?_⟩
  simp only [binaryOperators, List.mem_cons, Prod.mk.injEq, List.not_mem_nil, or_false] at known
  rcases known with ⟨rfl, rfl⟩ | ⟨rfl, rfl⟩ | ⟨rfl, rfl⟩ | ⟨rfl, rfl⟩ | ⟨rfl, rfl⟩ | ⟨rfl, rfl⟩ |
    ⟨rfl, rfl⟩ | ⟨rfl, rfl⟩ | ⟨rfl, rfl⟩ | ⟨rfl, rfl⟩ | ⟨rfl, rfl⟩ | ⟨rfl, rfl⟩ | ⟨rfl, rfl⟩ <;> rfl

theorem closes_not : Closes outside "not " [.logicalNot] := fun _ _ _ _ => ⟨true, rfl⟩

/-- What stands between the parts of items, slices and comprehensions. -/
def separators : List String := [" for ", " in ", ", ", " : "]

/-- A separator may stand inside brackets. -/
theorem closes_separator {separator : String} (known : separator ∈ separators) :
    Closes False separator [] := by
  intro blank opened found inside
  obtain ⟨bracket, rest, rfl⟩ := List.exists_cons_of_ne_nil inside
  refine ⟨true, ?_⟩
  simp only [separators, List.mem_cons, List.not_mem_nil, or_false] at known
  rcases known with rfl | rfl | rfl | rfl <;>
    simp [scan, step, enter, signs, continues, note, Names.isPlain, Char.isAlphanum]

/-- Texts with a separator pass inside brackets. -/
theorem Passes.separate {separator : String} (left : Passes False first [])
    (known : separator ∈ separators) (right : Passes False second []) :
    Passes False (first ++ separator ++ second) [] := by
  have all : ∀ separator ∈ separators, Starts isNeutral separator := by decide
  exact left.separated (closes_separator known) (all separator known) right

/-- A character that an operand may start with: neither a blank nor a sign. -/
def isOperand (c : Char) : Bool := c ∉ signs && c ≠ ' '

/-- A minus that is attached to its operand is noted as a sign. -/
theorem Passes.negative (passes : Passes outside text orders) (starts : Starts isOperand text) :
    Passes outside ("-" ++ text) ([.unarySign] ++ orders) := by
  intro blank opened found allowed
  obtain ⟨mode, settled, read⟩ := passes false opened
    (found ++ if opened.isEmpty then [.unarySign] else []) allowed
  refine ⟨mode, settled, ?_⟩
  obtain ⟨c, rest, same, operand⟩ := starts.exists_cons
  have apart : c ∉ signs ∧ c ≠ ' ' := by simpa [isOperand] using operand
  have sign : step ⟨.between blank, opened, found⟩ '-' =
      some ⟨.sign blank ['-'], opened, found⟩ := rfl
  have attached : step ⟨.sign blank ['-'], opened, found⟩ c =
      step ⟨.between false, opened, found ++ if opened.isEmpty then [.unarySign] else []⟩ c := by
    simp only [step, signOrder?, apart, ↓reduceIte, note]
    exact enter_mode ..
  rw [String.toList_append, same, ← found_append, ← read, same]
  change scan _ ('-' :: c :: rest) = _
  simp only [scan, sign, attached]

end Scanner

end BlockScript
