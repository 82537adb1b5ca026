import BlockScript.Proofs.Code

/-! # Expressions are written on one line

No expression of the language is empty or has a control character in it, whatever texts are written
into its literals, so an expression never breaks the line it stands on.
-/

namespace BlockScript

namespace Text

/-- No character of a text is a control character. -/
def Printable (text : String) : Prop := ∀ c ∈ text.toList, isControl c = false

instance (text : String) : Decidable (Printable text) :=
  inferInstanceAs (Decidable (∀ c ∈ text.toList, isControl c = false))

/-- Printable texts may follow each other. -/
theorem Printable.append {first second : String} (left : Printable first)
    (right : Printable second) : Printable (first ++ second) := by
  intro c member
  rw [String.toList_append] at member
  rcases List.mem_append.mp member with member | member
  · exact left c member
  · exact right c member

/-- They may stand with a printable separator between them. -/
theorem Printable.intercalate {separator : String} {texts : List String}
    (between : Printable separator) (all : ∀ text ∈ texts, Printable text) :
    Printable (String.intercalate separator texts) := by
  induction texts with
  | nil => exact fun _ member => nomatch member
  | cons text rest ih =>
      have first := all text (List.mem_cons_self ..)
      have others := ih fun other member => all other (List.mem_cons_of_mem _ member)
      cases rest with
      | nil =>
          rw [String.intercalate_singleton]
          exact first
      | cons next rest =>
          rw [String.intercalate_cons_cons]
          exact (first.append between).append others

/-- A text starts with a character that has a property. -/
def Starts (property : Char → Bool) (text : String) : Prop :=
  text.toList.head?.any property = true

instance (property : Char → Bool) (text : String) : Decidable (Starts property text) :=
  inferInstanceAs (Decidable (_ = true))

/-- The first character of such a text. -/
theorem Starts.exists_cons {property : Char → Bool} {text : String}
    (starts : Starts property text) :
    ∃ c rest, text.toList = c :: rest ∧ property c = true := by
  unfold Starts at starts
  cases chars : text.toList with
  | nil =>
      rw [chars] at starts
      cases starts
  | cons c rest =>
      rw [chars] at starts
      exact ⟨c, rest, rfl, starts⟩

/-- What follows does not change how a text starts. -/
theorem Starts.append {property : Char → Bool} {first : String}
    (starts : Starts property first) (second : String) :
    Starts property (first ++ second) := by
  obtain ⟨c, rest, same, holds⟩ := starts.exists_cons
  simpa [Starts, same] using holds

/-- A text ends with a character that has a property. -/
def Ends (property : Char → Bool) (text : String) : Prop :=
  text.toList.getLast?.any property = true

instance (property : Char → Bool) (text : String) : Decidable (Ends property text) :=
  inferInstanceAs (Decidable (_ = true))

/-- What comes before does not change how a text ends. -/
theorem Ends.append {property : Char → Bool} {second : String} (ends : Ends property second)
    (first : String) : Ends property (first ++ second) := by
  unfold Ends at ends ⊢
  rw [String.toList_append, List.getLast?_append]
  cases last : second.toList.getLast? with
  | none =>
      rw [last] at ends
      cases ends
  | some c =>
      rw [last] at ends
      exact ends

/-- A text whose characters all have a property ends with one that has it. -/
theorem Ends.of_forall {property : Char → Bool} {text : String} (nonempty : text ≠ "")
    (all : ∀ c ∈ text.toList, property c = true) : Ends property text := by
  unfold Ends
  cases last : text.toList.getLast? with
  | none => exact (nonempty (by simpa using last)).elim
  | some c => exact all c (List.mem_of_getLast? last)

/-- Whether a character is white space. -/
def isSpace (c : Char) : Bool :=
  Numeral.isBlank c || (0x1c ≤ c.toNat && c.toNat ≤ 0x1f) || Numeral.wideBlanks.has c

/-- No visible character of the narrow alphabet is white space. -/
theorem not_isSpace_of_range {c : Char} (above : 33 ≤ c.toNat) (below : c.toNat ≤ 126) :
    isSpace c = false := by
  have apart : c ≠ ' ' := by
    rintro rfl
    exact absurd above (by decide)
  have narrow : Numeral.wideBlanks.has c = false := by
    have wide : ∀ range ∈ Numeral.wideBlanks, 127 ≤ range.1 := by decide
    simp only [Ranges.has, Ranges.find?, Option.isSome_eq_false_iff, Option.isNone_iff_eq_none,
      List.find?_eq_none]
    intro range member
    have := wide range member
    simp only [Bool.and_eq_true, decide_eq_true_eq]
    omega
  simp only [isSpace, Numeral.isBlank, apart, narrow, decide_false, Bool.false_or, Bool.or_false,
    Bool.or_eq_false_iff, Bool.and_eq_false_iff, decide_eq_false_iff_not]
  omega

/-- None of its characters is a control character, blanks included. -/
theorem not_isControl_of_range {c : Char} (above : 32 ≤ c.toNat) (below : c.toNat ≤ 126) :
    isControl c = false := by
  simp only [isControl, Bool.or_eq_false_iff, decide_eq_false_iff_not, beq_eq_false_iff_ne]
  omega

/-- Plain characters lie between the digits and the small letters. -/
theorem range_of_isPlain {c : Char} (plain : Names.isPlain c = true) :
    48 ≤ c.toNat ∧ c.toNat ≤ 122 := by
  change (((decide (65 ≤ c.toNat ∧ c.toNat ≤ 90) || (97 ≤ c.toNat && c.toNat ≤ 122)) ||
    (48 ≤ c.toNat && c.toNat ≤ 57)) || c = '_') = true at plain
  simp only [Bool.or_eq_true, Bool.and_eq_true, decide_eq_true_eq] at plain
  rcases plain with ((⟨above, below⟩ | ⟨above, below⟩) | ⟨above, below⟩) | rfl
  · omega
  · omega
  · omega
  · decide

/-- Plain characters are no control characters. -/
theorem not_isControl_of_isPlain {c : Char} (plain : Names.isPlain c = true) :
    isControl c = false := by
  obtain ⟨above, below⟩ := range_of_isPlain plain
  exact not_isControl_of_range (by omega) (by omega)

/-- Whether a character is no white space. -/
def isVisible (c : Char) : Bool := !isSpace c

/-- Plain characters are visible. -/
theorem isVisible_of_isPlain {c : Char} (plain : Names.isPlain c = true) : isVisible c = true := by
  obtain ⟨above, below⟩ := range_of_isPlain plain
  simp [isVisible, not_isSpace_of_range (by omega : 33 ≤ c.toNat) (by omega)]

/-- Identifiers are printable. -/
theorem printable_of_isIdentifier {text : String} (identifier : Names.IsIdentifier text) :
    Printable text := by
  obtain ⟨c, rest, same, plain, _, others⟩ := identifier
  intro d member
  rw [same] at member
  rcases List.mem_cons.mp member with rfl | member
  · exact not_isControl_of_isPlain plain
  · exact not_isControl_of_isPlain (others d member)

/-- The characters of a number literal. -/
theorem mem_of_isUnsigned {chars : List Char} (unsigned : Numeral.IsUnsigned chars) {c : Char}
    (member : c ∈ chars) : c.isDigit = true ∨ c ∈ ['.', 'e', '+', '-'] := by
  obtain ⟨whole, fraction, exponent, rfl, wholeDigits, fractionShape, exponentShape⟩ := unsigned
  rw [List.mem_append, List.mem_append] at member
  rcases member with (member | member) | member
  · exact .inl (wholeDigits.2 c member)
  · rcases fractionShape with rfl | ⟨digits, rfl, shape⟩
    · cases member
    · rcases List.mem_cons.mp member with rfl | member
      · exact .inr (by decide)
      · exact .inl (shape.2 c member)
  · rcases exponentShape with rfl | ⟨sign, digits, rfl, signed, shape⟩
    · cases member
    · rcases List.mem_cons.mp member with rfl | member
      · exact .inr (by decide)
      rcases List.mem_cons.mp member with rfl | member
      · rcases signed with rfl | rfl
        · exact .inr (by decide)
        · exact .inr (by decide)
      · exact .inl (shape.2 c member)

/-- Number literals are printable. -/
theorem printable_of_isUnsigned {text : String} (unsigned : Numeral.IsUnsigned text.toList) :
    Printable text := by
  intro c member
  rcases mem_of_isUnsigned unsigned member with digit | mark
  · exact not_isControl_of_isPlain (Names.isPlain_of_isDigit digit)
  · have all : ∀ mark ∈ ['.', 'e', '+', '-'], isControl mark = false := by decide
    exact all c mark

/-- The digits of an escape are printable, and neither quotes nor backslashes. -/
theorem hexDigit_of_lt {k : Nat} (below : k < 16) :
    isControl (hexDigit k) = false ∧ hexDigit k ≠ '\\' ∧ hexDigit k ≠ '\'' := by
  revert k
  decide

/-- An escaped character has no control character in it. -/
theorem not_isControl_of_mem_escaped {c d : Char} (member : d ∈ escaped c) :
    isControl d = false := by
  have digit (k : Nat) : isControl (hexDigit (k % 16)) = false :=
    (hexDigit_of_lt (Nat.mod_lt k (by decide))).1
  unfold escaped at member
  split at member
  · revert d
    decide
  · split at member
    · revert d
      decide
    · split at member
      · revert d
        decide
      · split at member
        · revert d
          decide
        · split at member
          · revert d
            decide
          · split at member
            · simp only [hex, List.nil_append, List.mem_cons, List.not_mem_nil, or_false,
                List.singleton_append] at member
              rcases member with rfl | rfl | rfl | rfl
              · rfl
              · rfl
              · exact digit _
              · exact digit _
            · rename_i plain
              rw [List.mem_singleton.mp member]
              simpa using plain

/-- **A quoted text is printable**, whatever it says. -/
theorem printable_quoted (text : String) : Printable (quoted text) := by
  intro c member
  simp only [quoted, List.cons_append, String.toList_ofList, List.mem_cons, List.mem_append,
    List.mem_flatMap, List.not_mem_nil, or_false] at member
  rcases member with rfl | ⟨d, _, member⟩ | rfl
  · rfl
  · exact not_isControl_of_mem_escaped member
  · rfl

end Text

namespace Code

variable {isName : String → Prop}

open Text

/-- **Expressions are printable**, and so are the texts that they are made of. -/
theorem printable (identifiers : ∀ text, isName text → Names.IsIdentifier text) {role : Role}
    {text : String} (code : Code isName role text) : Printable text := by
  have listed {texts : List String} (all : ∀ text ∈ texts, Printable text) {text : String}
      (member : text ∈ texts) : Printable text := all text member
  induction code with
  | name named => exact printable_of_isIdentifier (identifiers _ named)
  | constant known => exact listed (by decide) known
  | numeral unsigned => exact printable_of_isUnsigned unsigned
  | quoted text => exact printable_quoted text
  | label known =>
      exact (Printable.append (by decide) (listed (by decide) known)).append (by decide)
  | grouped _ inside => exact (Printable.append (by decide) inside).append (by decide)
  | display _ inside => exact (Printable.append (by decide) inside).append (by decide)
  | comprehension _ named _ element source =>
      have name := printable_of_isIdentifier (identifiers _ named)
      exact (((((Printable.append (by decide) element).append (by decide)).append name).append
        (by decide)).append source).append (by decide)
  | maxsize => decide
  | call known _ inside =>
      have function : Printable _ := known.elim
        (fun named => printable_of_isIdentifier (identifiers _ named)) (listed (by decide))
      exact ((function.append (by decide)).append inside).append (by decide)
  | method _ _ known _ receiver inside =>
      have name := listed (by decide) known
      exact ((receiver.append ((Printable.append (by decide) name).append (by decide))).append
        inside).append (by decide)
  | element _ _ _ receiver inside =>
      exact ((receiver.append (by decide)).append inside).append (by decide)
  | negative _ _ operand => exact Printable.append (by decide) operand
  | operation known _ _ _ _ left right =>
      have spelled : ∀ entry ∈ binaryOperators, Printable entry.1 := by decide
      have operator := spelled _ known
      exact (left.append ((Printable.append (by decide) operator).append (by decide))).append right
  | negation _ _ operand => exact Printable.append (by decide) operand
  | noItem => decide
  | lastItem _ item => exact item
  | item _ _ first others => exact (first.append (by decide)).append others
  | openBound => decide
  | bound _ inside => exact inside
  | position _ inside => exact inside
  | slice _ _ first last => exact (first.append (by decide)).append last
  | backwards => decide

/-- No expression is empty. -/
theorem ne_empty (identifiers : ∀ text, isName text → Names.IsIdentifier text) {order : Order}
    {text : String} (code : Code isName (.value order) text) : text ≠ "" := by
  cases code with
  | name named =>
      obtain ⟨c, rest, same, _⟩ := identifiers _ named
      rintro rfl
      cases same
  | constant known =>
      rintro rfl
      revert known
      decide
  | numeral unsigned =>
      obtain ⟨whole, _, _, same, digits, _⟩ := unsigned
      rintro rfl
      have none := List.append_eq_nil_iff.mp (List.append_eq_nil_iff.mp same.symm).1
      exact digits.1 none.1
  | _ => simp [Text.quoted]

/-- What an expression starts with: a character of a word, a quote, an opening bracket, or, unless
it binds at least as tightly as a subscript, a minus. -/
theorem starts (identifiers : ∀ text, isName text → Names.IsIdentifier text)
    {property : Char → Bool} (plain : ∀ c, Names.isPlain c = true → property c = true)
    (marks : ∀ c ∈ ['\'', '"', '(', '['], property c = true) {order : Order} {text : String}
    (code : Code isName (.value order) text)
    (minus : Order.member.rank ≤ order.rank ∨ property '-' = true) : Starts property text := by
  have named {text : String} (named : isName text) : Starts property text := by
    obtain ⟨c, rest, same, first, _⟩ := identifiers _ named
    simpa [Starts, same] using plain c first
  have word {text : String} (word : Starts Names.isPlain text) : Starts property text := by
    obtain ⟨c, rest, same, first⟩ := word.exists_cons
    simpa [Starts, same] using plain c first
  have marked {mark : String} (known : mark ∈ ["\"", "(", "["]) : Starts property mark := by
    simp only [List.mem_cons, List.not_mem_nil, or_false] at known
    rcases known with rfl | rfl | rfl
    · simpa [Starts] using marks '"' (by decide)
    · simpa [Starts] using marks '(' (by decide)
    · simpa [Starts] using marks '[' (by decide)
  generalize whole : Role.value order = role at code
  induction code generalizing order with
  | name name => exact named name
  | constant known =>
      have all : ∀ text ∈ constantWords, Starts Names.isPlain text := by decide
      exact word (all _ known)
  | numeral unsigned =>
      obtain ⟨digits, _, _, same, ⟨nonempty, all⟩, _⟩ := unsigned
      obtain ⟨c, rest, rfl⟩ := List.exists_cons_of_ne_nil nonempty
      have first := Names.isPlain_of_isDigit (all c (List.mem_cons_self ..))
      simpa [Starts, same] using plain c first
  | quoted text => simpa [Starts, Text.quoted] using marks '\'' (by decide)
  | label known => exact ((marked (by decide)).append _).append _
  | grouped _ _ => exact ((marked (by decide)).append _).append _
  | display _ _ => exact ((marked (by decide)).append _).append _
  | comprehension _ _ _ _ _ =>
      exact ((((((marked (by decide)).append _).append _).append _).append _).append _).append _
  | maxsize => exact word (by decide)
  | call known _ _ =>
      have all : ∀ text ∈ calledFunctions, Starts Names.isPlain text := by decide
      have function := known.elim named fun known => word (all _ known)
      exact ((function.append _).append _).append _
  | method _ enough _ _ receiver _ =>
      exact (((receiver (.inl enough) rfl).append _).append _).append _
  | element _ enough _ receiver _ =>
      exact (((receiver (.inl enough) rfl).append _).append _).append _
  | negative _ _ _ =>
      cases whole
      have allowed := minus.resolve_left (by decide)
      simpa [Starts] using allowed
  | operation known _ _ _ _ left _ =>
      cases whole
      have loose : ∀ entry ∈ binaryOperators, ¬ Order.member.rank ≤ entry.2.rank := by decide
      have allowed := minus.resolve_left (loose _ known)
      exact ((left (.inr allowed) rfl).append _).append _
  | negation _ _ _ => exact (word (by decide : Starts Names.isPlain "not ")).append _
  | _ => cases whole

/-- An expression starts with a character that can be seen. -/
theorem starts_visible (identifiers : ∀ text, isName text → Names.IsIdentifier text)
    {order : Order} {text : String} (code : Code isName (.value order) text) :
    Starts isVisible text :=
  code.starts identifiers (fun _ => isVisible_of_isPlain) (by decide) (.inr (by decide))

/-- An expression does not end with a colon. -/
theorem ends (identifiers : ∀ text, isName text → Names.IsIdentifier text)
    {order : Order} {text : String} (code : Code isName (.value order) text) :
    Ends (· ≠ ':') text := by
  have plain {c : Char} (plain : Names.isPlain c = true) : decide (c ≠ ':') = true := by
    simp only [ne_eq, decide_not, Bool.not_eq_true', decide_eq_false_iff_not]
    rintro rfl
    cases plain
  generalize whole : Role.value order = role at code
  induction code generalizing order with
  | name named =>
      obtain ⟨c, rest, same, first, _, others⟩ := identifiers _ named
      refine .of_forall ((Code.name named).ne_empty identifiers) fun d member => plain ?_
      rw [same] at member
      rcases List.mem_cons.mp member with rfl | member
      · exact first
      · exact others d member
  | constant known =>
      have all : ∀ text ∈ constantWords, Ends (· ≠ ':') text := by decide
      exact all _ known
  | numeral unsigned =>
      refine .of_forall ((Code.numeral unsigned).ne_empty identifiers) fun c member => ?_
      rcases mem_of_isUnsigned unsigned member with digit | mark
      · exact plain (Names.isPlain_of_isDigit digit)
      · have all : ∀ mark ∈ ['.', 'e', '+', '-'], decide (mark ≠ ':') = true := by decide
        exact all c mark
  | quoted text =>
      unfold Ends Text.quoted
      rw [String.toList_ofList, List.getLast?_concat]
      rfl
  | label | grouped | display | comprehension | call | method | element =>
      exact Ends.append (by decide) _
  | maxsize => decide
  | negative _ _ operand => exact (operand rfl).append _
  | operation _ _ _ _ _ _ right => exact (right rfl).append _
  | negation _ _ operand => exact (operand rfl).append _
  | _ => cases whole

end Code

end BlockScript
