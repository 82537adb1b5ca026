import Mathlib.Data.List.TakeWhile
import BlockScript.Proofs.Formula.Blocks
import BlockScript.Proofs.Hindsight
import BlockScript.Proofs.Number.Reading
import BlockScript.Proofs.Printable
import BlockScript.Proofs.Reach

/-! # Which code is taken for a number

The code of a position is taken for a number literal by its looks. Nothing else looks like one: a
finite number is written as a literal that stands for that number, cut towards zero
(`literalPosition_numberLiteral`), and a block of any kind but that of numbers comes to code that is
no literal (`Setting.isLiteral_of_legal`).
-/

namespace BlockScript

variable {n : Nat}

/-! ## Reading literals back -/

namespace Numeral

variable {chars : List Char}

/-- A character that stands for itself in a numeral. -/
def IsOwn (c : Char) : Prop := c.toNat < 127 ∧ isBlank c = false ∧ c ≠ '_'

/-- Digits stand for themselves. -/
theorem isOwn_of_isDigit {c : Char} (digit : c.isDigit = true) : IsOwn c := by
  obtain ⟨least, greatest⟩ := toNat_of_isDigit digit
  have apart {d : Char} (far : d.toNat < 48 ∨ 57 < d.toNat) : c ≠ d := by
    rintro rfl
    omega
  refine ⟨by omega, ?_, apart (by decide)⟩
  simp only [isBlank, apart (show (' ').toNat < 48 ∨ _ by decide), decide_false, Bool.false_or,
    Bool.and_eq_false_iff, decide_eq_false_iff_not]
  omega

/-- There are no blanks at the front of characters that stand for themselves. -/
theorem dropWhile_isBlank (own : ∀ c ∈ chars, IsOwn c) : chars.dropWhile isBlank = chars := by
  cases chars with
  | nil => rfl
  | cons c rest => simp [(own c (List.mem_cons_self ..)).2.1]

/-- Nothing is trimmed from characters that stand for themselves. -/
theorem trimmed_of_own {text : String} (own : ∀ c ∈ text.toList, IsOwn c) :
    trimmed text = text.toList := by
  have same : text.toList.map basic = text.toList := by
    refine (List.map_congr_left fun c member => ?_).trans (List.map_id text.toList)
    exact if_pos (own c member).1
  have reversed : ∀ c ∈ text.toList.reverse, IsOwn c :=
    fun c member => own c (List.mem_reverse.mp member)
  unfold trimmed
  dsimp only
  rw [same, dropWhile_isBlank own, dropWhile_isBlank reversed, List.reverse_reverse]

/-- There are no underscores to remove among characters that stand for themselves. -/
theorem withoutUnderscores_of_own (own : ∀ c ∈ chars, IsOwn c) (afterDigit : Bool) :
    withoutUnderscores afterDigit chars = some chars := by
  induction chars generalizing afterDigit with
  | nil => rfl
  | cons c rest ih =>
      have other : c ≠ '_' := (own c (List.mem_cons_self ..)).2.2
      have others := ih fun d member => own d (List.mem_cons_of_mem _ member)
      rw [withoutUnderscores.eq_def]
      simp only [other, others, ↓reduceIte]
      rfl

/-- The characters of a literal without sign: a digit, and then characters for themselves. -/
theorem IsUnsigned.exists_cons (unsigned : IsUnsigned chars) :
    ∃ c rest, chars = c :: rest ∧ c.isDigit = true ∧ ∀ d ∈ chars, IsOwn d := by
  obtain ⟨whole, fraction, exponent, rfl, digits, pointed, scaled⟩ := unsigned
  obtain ⟨c, rest, rfl⟩ := List.exists_cons_of_ne_nil digits.1
  have own {part : List Char} (digits : ∀ d ∈ part, d.isDigit = true) : ∀ d ∈ part, IsOwn d :=
    fun d member => isOwn_of_isDigit (digits d member)
  have point : ∀ d ∈ fraction, IsOwn d := by
    rcases pointed with rfl | ⟨digits, rfl, all⟩
    · simp
    · exact List.forall_mem_cons.mpr ⟨⟨by decide, by decide, by decide⟩, own all.2⟩
  have power : ∀ d ∈ exponent, IsOwn d := by
    rcases scaled with rfl | ⟨sign, digits, rfl, signed, all⟩
    · simp
    · refine List.forall_mem_cons.mpr ⟨⟨by decide, by decide, by decide⟩,
        List.forall_mem_cons.mpr ⟨?_, own all.2⟩⟩
      rcases signed with rfl | rfl <;> exact ⟨by decide, by decide, by decide⟩
  refine ⟨c, rest ++ fraction ++ exponent, by simp, digits.2 c (List.mem_cons_self ..), ?_⟩
  simp only [List.forall_mem_append]
  exact ⟨⟨own digits.2, point⟩, power⟩

theorem toList_minus (negative : Bool) (text : String) :
    (if negative then "-" ++ text else text).toList =
      (if negative then '-' :: text.toList else text.toList) := by
  cases negative <;> simp

/-- A literal, perhaps behind a minus sign, is read as the number nearest to what it says. -/
theorem real?_unsigned {text : String} (unsigned : IsUnsigned text.toList) {digits : Nat}
    {power : Int} (read : decimal? text.toList = some (digits, power)) (negative : Bool) :
    real? (if negative then "-" ++ text else text) = some (.ofDecimal negative digits power) := by
  have chars := toList_minus negative text
  obtain ⟨c, rest, first, digit, own⟩ := unsigned.exists_cons
  have signed : ∀ d ∈ (if negative then "-" ++ text else text).toList, IsOwn d := by
    rw [chars]
    cases negative with
    | false => exact own
    | true => exact List.forall_mem_cons.mpr ⟨⟨by decide, by decide, by decide⟩, own⟩
  have split : sign (if negative then "-" ++ text else text).toList = (negative, text.toList) := by
    rw [chars]
    cases negative with
    | true => rfl
    | false =>
        have minus : c ≠ '-' := by rintro rfl; exact absurd digit (by decide)
        have plus : c ≠ '+' := by rintro rfl; exact absurd digit (by decide)
        simp [sign, first, minus, plus]
  refine real?_eq_ofDecimal ?_ split read
  rw [trimmed_of_own signed, withoutUnderscores_of_own signed]

/-! ## What looks like a literal -/

/-- Among basic characters the decimal digits are the usual ones. -/
theorem isDecimalDigit_eq_isDigit {c : Char} (basic : c.toNat < 128) :
    Text.isDecimalDigit c = c.isDigit := by
  have wide : ∀ range ∈ Text.decimalDigits.tail, 128 ≤ range.1 := by decide
  have others : Ranges.find? Text.decimalDigits.tail c.toNat = none := by
    rw [Ranges.find?, List.find?_eq_none]
    intro range member
    have := wide range member
    simp only [Bool.and_eq_true, decide_eq_true_eq, not_and]
    omega
  have split : Text.decimalDigits = (0x30, 0x39) :: Text.decimalDigits.tail := rfl
  have first : c.isDigit = (decide (48 ≤ c.toNat) && decide (c.toNat ≤ 57)) := rfl
  rw [Text.isDecimalDigit, Ranges.has, split, Ranges.find?, List.find?_cons]
  rw [Ranges.find?] at others
  rw [others, first]
  cases decide (48 ≤ c.toNat) && decide (c.toNat ≤ 57) <;> rfl

/-- The usual digits are among the decimal digits of all scripts. -/
theorem isDecimalDigit_of_isDigit {c : Char} (digit : c.isDigit = true) :
    Text.isDecimalDigit c = true := by
  rw [isDecimalDigit_eq_isDigit (lt_of_le_of_lt (toNat_of_isDigit digit).2 (by decide)), digit]

/-- The marks of a fraction and of an exponent are no digits. -/
theorem isDecimalDigit_eq_false {c : Char} (listed : c ∈ ['.', 'e']) :
    Text.isDecimalDigit c = false := by
  have basic : ∀ c ∈ ['.', 'e'], c.toNat < 128 ∧ c.isDigit = false := by decide
  rw [isDecimalDigit_eq_isDigit (basic c listed).1, (basic c listed).2]

/-- Digits are dropped up to what follows them in a literal. -/
theorem dropWhile_isDecimalDigit {tail : List Char} (digits : ∀ c ∈ chars, c.isDigit = true)
    (stops : ∀ c ∈ tail.head?, c ∈ ['.', 'e']) :
    (chars ++ tail).dropWhile Text.isDecimalDigit = tail := by
  rw [List.dropWhile_append_of_pos fun c member => isDecimalDigit_of_isDigit (digits c member)]
  cases tail with
  | nil => rfl
  | cons c rest => simp [isDecimalDigit_eq_false (stops c rfl)]

/-- A literal without sign looks like one, also behind a minus sign. -/
theorem isLiteral_unsigned {text : String} (unsigned : IsUnsigned text.toList) (negative : Bool) :
    isLiteral (if negative then "-" ++ text else text) = true := by
  obtain ⟨whole, fraction, exponent, same, digits, pointed, scaled⟩ := unsigned
  obtain ⟨c, rest, rfl⟩ := List.exists_cons_of_ne_nil digits.1
  obtain ⟨digit, others⟩ := List.forall_mem_cons.mp digits.2
  have unsigned : dropMinus (if negative then "-" ++ text else text).toList = text.toList := by
    rw [toList_minus]
    cases negative with
    | true => rfl
    | false =>
        have minus : c ≠ '-' := by rintro rfl; exact absurd digit (by decide)
        simp [same, dropMinus, minus]
  have marked : ∀ d ∈ exponent.head?, d ∈ ['.', 'e'] := by
    rcases scaled with rfl | ⟨sign, digits, rfl, -⟩ <;> simp
  have first : (rest ++ (fraction ++ exponent)).dropWhile Text.isDecimalDigit =
      fraction ++ exponent := by
    refine dropWhile_isDecimalDigit others ?_
    rcases pointed with rfl | ⟨digits, rfl, -⟩
    · exact marked
    · simp
  have second : dropFraction (fraction ++ exponent) = exponent := by
    rcases pointed with rfl | ⟨digits, rfl, all⟩
    · rcases scaled with rfl | ⟨sign, digits, rfl, -⟩ <;> rfl
    · obtain ⟨d, tail, rfl⟩ := List.exists_cons_of_ne_nil all.1
      obtain ⟨digit, others⟩ := List.forall_mem_cons.mp all.2
      simp [dropFraction, isDecimalDigit_of_isDigit digit, dropWhile_isDecimalDigit others marked]
  have third : dropExponent exponent = [] := by
    rcases scaled with rfl | ⟨sign, digits, rfl, signed, all⟩
    · rfl
    · obtain ⟨d, tail, rfl⟩ := List.exists_cons_of_ne_nil all.1
      obtain ⟨digit, others⟩ := List.forall_mem_cons.mp all.2
      have ends : tail.dropWhile Text.isDecimalDigit = [] := by
        simpa using dropWhile_isDecimalDigit others (show ∀ c ∈ ([] : List Char).head?, _ by simp)
      rcases signed with rfl | rfl <;>
        simp [dropExponent, Numeral.sign, isDecimalDigit_of_isDigit digit, ends]
  rw [List.append_assoc, List.cons_append] at same
  simp [isLiteral, unsigned, same, isDecimalDigit_of_isDigit digit, first, second, third]

/-- The text of an integer looks like a literal. -/
theorem isLiteral_toString (v : Int) : isLiteral (toString v) = true := by
  obtain ⟨m, rfl | rfl⟩ := v.eq_nat_or_neg
  · exact isLiteral_unsigned (isUnsigned_toString m) false
  · by_cases zero : m = 0
    · subst zero
      exact isLiteral_unsigned (isUnsigned_toString 0) false
    · rw [toString_neg zero]
      exact isLiteral_unsigned (isUnsigned_toString m) true

/-- The characters of literals other than digits. -/
def literalMarks : List Char := ['-', '+', '.', 'e', 'E', '\n']

/-- Whether a character occurs in literals. -/
def IsLiteralChar (c : Char) : Prop := Text.isDecimalDigit c = true ∨ c ∈ literalMarks

/-- Digits that are dropped are characters of a literal. -/
theorem forall_of_dropWhile (rest : ∀ c ∈ chars.dropWhile Text.isDecimalDigit, IsLiteralChar c) :
    ∀ c ∈ chars, IsLiteralChar c := by
  intro c member
  rw [← List.takeWhile_append_dropWhile (p := Text.isDecimalDigit) (l := chars)] at member
  rcases List.mem_append.mp member with digit | other
  · exact .inl (List.mem_takeWhile_imp digit)
  · exact rest c other

/-- So are those of a fraction, and its point. -/
theorem forall_of_dropFraction (rest : ∀ c ∈ dropFraction chars, IsLiteralChar c) :
    ∀ c ∈ chars, IsLiteralChar c := by
  unfold dropFraction at rest
  split at rest
  · next d tail =>
    split at rest
    · next digit =>
      exact List.forall_mem_cons.mpr ⟨.inr (by decide),
        List.forall_mem_cons.mpr ⟨.inl digit, forall_of_dropWhile rest⟩⟩
    · exact rest
  · exact rest

/-- So is a sign. -/
theorem forall_of_sign (rest : ∀ c ∈ (sign chars).2, IsLiteralChar c) :
    ∀ c ∈ chars, IsLiteralChar c := by
  unfold sign at rest
  split at rest
  · exact List.forall_mem_cons.mpr ⟨.inr (by decide), rest⟩
  · exact List.forall_mem_cons.mpr ⟨.inr (by decide), rest⟩
  · exact rest

/-- So are those of an exponent, its mark and its sign. -/
theorem forall_of_dropExponent (rest : ∀ c ∈ dropExponent chars, IsLiteralChar c) :
    ∀ c ∈ chars, IsLiteralChar c := by
  unfold dropExponent at rest
  split at rest
  · next c tail =>
    split at rest
    · next mark =>
      have marked : IsLiteralChar c := by
        simp only [Bool.or_eq_true, decide_eq_true_eq] at mark
        rcases mark with rfl | rfl <;> exact .inr (by decide)
      split at rest
      · next d more digits =>
        split at rest
        · next digit =>
          refine List.forall_mem_cons.mpr ⟨marked, forall_of_sign ?_⟩
          rw [digits]
          exact List.forall_mem_cons.mpr ⟨.inl digit, forall_of_dropWhile rest⟩
        · exact rest
      · exact rest
    · exact rest
  · exact rest

/-- A literal has no characters but those of literals. -/
theorem forall_of_isLiteral {code : String} (literal : isLiteral code = true) :
    ∀ c ∈ code.toList, IsLiteralChar c := by
  have unsigned : ∀ c ∈ dropMinus code.toList, IsLiteralChar c := by
    unfold isLiteral at literal
    split at literal
    · cases literal
    · next d rest same =>
      simp only [Bool.and_eq_true, Bool.or_eq_true, beq_iff_eq] at literal
      obtain ⟨digit, ends⟩ := literal
      rw [same]
      refine List.forall_mem_cons.mpr ⟨.inl digit, forall_of_dropWhile <| forall_of_dropFraction <|
        forall_of_dropExponent ?_⟩
      rcases ends with ends | ends <;> rw [ends]
      · simp
      · exact List.forall_mem_cons.mpr ⟨.inr (by decide), by simp⟩
  unfold dropMinus at unsigned
  split at unsigned
  · next rest same =>
    rw [same]
    exact List.forall_mem_cons.mpr ⟨.inr (by decide), unsigned⟩
  · exact unsigned

/-- Characters of which every expression that is put together has one. -/
def compositeMarks : List Char := [' ', '(', '[', '\'']

/-- Code with a mark that no literal has is none. -/
theorem isLiteral_of_mem {code : String} {c : Char} (member : c ∈ code.toList)
    (mark : c ∈ compositeMarks) : isLiteral code = false := by
  have foreign : ∀ c ∈ compositeMarks, ¬ (Text.isDecimalDigit c = true ∨ c ∈ literalMarks) := by
    decide
  exact Bool.eq_false_iff.mpr fun literal =>
    foreign c mark (forall_of_isLiteral literal c member)

/-- An identifier does not look like a literal. -/
theorem isLiteral_of_isIdentifier {code : String} (identifier : Names.IsIdentifier code) :
    isLiteral code = false := by
  obtain ⟨c, rest, same, plain, noDigit, -⟩ := identifier
  have noMinus : c ≠ '-' := by
    rintro rfl
    exact absurd plain (by decide)
  have below := (Text.range_of_isPlain plain).2
  have unsigned : dropMinus (c :: rest) = c :: rest := by simp [dropMinus, noMinus]
  simp [isLiteral, same, unsigned, isDecimalDigit_eq_isDigit (lt_of_le_of_lt below (by decide)),
    noDigit]

end Numeral

open Binary64

/-- A finite number is written as its magnitude, behind a minus sign if it lies below zero. -/
theorem Gen.numberLiteral_finite_code (negative : Bool) (significand : Nat) (exponent : Int)
    (canonical : IsCanonical significand exponent) :
    (numberLiteral (.finite negative significand exponent canonical)).code =
      if negative && significand != 0 then "-" ++ magnitudeText significand exponent
      else magnitudeText significand exponent := by
  rw [numberLiteral_finite, apply_ite Expression.code]
  simp only [Bool.and_eq_true, bne_iff_ne]

/-- The literal of a finite number looks like one. -/
theorem Gen.isLiteral_numberLiteral {x : Binary64} {v : Int} (value : x.truncated = some v) :
    Numeral.isLiteral (numberLiteral x).code = true := by
  cases x with
  | nan | infinite => cases value
  | finite negative significand exponent canonical =>
      rw [numberLiteral_finite_code]
      exact Numeral.isLiteral_unsigned (isUnsigned_magnitudeText significand exponent) _

/-- **Literals stand for their numbers**, cut towards zero. -/
theorem literalPosition_numberLiteral {x : Binary64} {v : Int} (value : x.truncated = some v) :
    literalPosition (Gen.numberLiteral x).code = .ok v := by
  cases x with
  | nan | infinite => cases value
  | finite negative significand exponent canonical =>
      have unsigned := isUnsigned_magnitudeText significand exponent
      rw [Gen.numberLiteral_finite_code, literalPosition]
      by_cases zero : significand = 0
      · subst zero
        have read : Numeral.decimal? (magnitudeText 0 exponent).toList = some (0, 0) := by
          simp only [magnitudeText, Nat.zero_mod, or_true, ↓reduceIte, wholeMagnitude_zero]
          decide
        have none : v = 0 := by
          simp only [truncated, wholeMagnitude_zero, Option.some.injEq] at value
          rw [← value]
          split <;> rfl
        rw [Numeral.real?_unsigned unsigned read, none]
        simp [ofDecimal, Binary64.zero, Value.wholeOfReal, truncated, wholeMagnitude_zero]
      · obtain ⟨digits, power, read, same⟩ :=
          decimal?_magnitudeText canonical (Nat.pos_of_ne_zero zero)
        have signed : (negative && significand != 0) = negative := by simp [zero]
        rw [signed, Numeral.real?_unsigned unsigned read, same]
        simp only [Value.wholeOfReal, value]

/-- Integers of double width are read back. -/
theorem literalPosition_toString {x : Binary64} (whole : x.isWhole = true) {v : Int}
    (value : x.truncated = some v) : literalPosition (toString v) = .ok v := by
  have read := literalPosition_numberLiteral value
  cases x with
  | nan | infinite => cases value
  | finite => simpa only [Gen.numberLiteral, whole, value, ↓reduceIte, Option.getD_some] using read

/-! ## Blocks that are no numbers -/

/-- An outcome whose code does not look like a literal, if it is an expression. -/
def Outcome.NoLiteral (outcome : Outcome) : Prop :=
  ∀ value, outcome = .expression value → Numeral.isLiteral value.code = false

namespace Gen

variable {α : Type} {setting : Setting n} {block : Block n}

/-- A generator never comes to code that looks like a literal, whatever its requests are answered
with. -/
def NeverLiteral (generator : Gen n Outcome) : Prop :=
  generator.Ensures (Contract.free n) Outcome.NoLiteral

namespace NeverLiteral

/-- What is generated first does not count, only what comes of it last. -/
theorem bind {generator : Gen n α} {next : α → Gen n Outcome}
    (rest : ∀ result, (next result).NeverLiteral) : (generator >>= next).NeverLiteral :=
  Ensures.bind generator.ensures_free fun result _ => rest result

theorem ite {condition : Prop} [Decidable condition] {first second : Gen n Outcome}
    (yes : first.NeverLiteral) (no : second.NeverLiteral) :
    (if condition then first else second).NeverLiteral :=
  Ensures.ite yes no

theorem fail (fault : Fault) : (.fail fault : Gen n Outcome).NeverLiteral := trivial

theorem nothing : (.done .nothing : Gen n Outcome).NeverLiteral := fun _ same => nomatch same

theorem line (code : String) : (line code : Gen n Outcome).NeverLiteral :=
  fun _ same => nomatch same

/-- An option that is looked up in a table leads to one of its entries, or to none. -/
theorem choice {table : Table α} {option : Value} {next : Option α → Gen n Outcome}
    (missing : (next none).NeverLiteral)
    (listed : ∀ entry ∈ table, (next (some entry.2)).NeverLiteral) :
    (choice table option >>= next).NeverLiteral := by
  refine Ensures.bind (ensures_choice _ _) fun found known => ?_
  cases found with
  | none => exact missing
  | some chosen =>
      obtain ⟨name, member⟩ := known chosen rfl
      exact listed _ member

/-- An identifier is no literal, because it does not start with a digit. -/
theorem word {code : String} (identifier : Names.IsIdentifier code) (order : Order) :
    (expression code order : Gen n Outcome).NeverLiteral := by
  intro value same
  cases same
  exact Numeral.isLiteral_of_isIdentifier identifier

/-- Code with a composite mark is no literal. -/
theorem composite {mark : Char} (composed : mark ∈ Numeral.compositeMarks) {code : String}
    {order : Order} (member : mark ∈ code.toList) :
    (expression code order : Gen n Outcome).NeverLiteral := by
  intro value same
  cases same
  exact Numeral.isLiteral_of_mem member composed

variable {code : String} {order : Order}

/-- Operators stand between blanks. -/
theorem blank (member : ' ' ∈ code.toList) :
    (expression code order : Gen n Outcome).NeverLiteral :=
  composite (by decide) member

/-- Calls and groups have parentheses. -/
theorem parenthesis (member : '(' ∈ code.toList) :
    (expression code order : Gen n Outcome).NeverLiteral :=
  composite (by decide) member

/-- Lists and selections have brackets. -/
theorem bracket (member : '[' ∈ code.toList) :
    (expression code order : Gen n Outcome).NeverLiteral :=
  composite (by decide) member

/-- Quoted texts have quote marks. -/
theorem quoteMark (member : '\'' ∈ code.toList) :
    (expression code order : Gen n Outcome).NeverLiteral :=
  composite (by decide) member

end NeverLiteral

/-- Between the operands of an arithmetic operation there is its operator. -/
theorem neverLiteral_arithmetic : (arithmetic setting block).NeverLiteral := by
  have blanks : ∀ entry ∈ arithmeticOperators, ' ' ∈ entry.2.code.toList := by decide
  unfold arithmetic
  refine .choice (.fail _) fun operator listed => .bind fun a => .bind fun b => .blank ?_
  simp [blanks operator listed]

/-- Between the operands of a comparison there is its operator. -/
theorem neverLiteral_comparison : (comparison setting block).NeverLiteral := by
  unfold comparison
  exact .choice (.fail _) fun operator _ => .bind fun a => .bind fun b => .blank (by simp)

/-- Between the operands of a connection there is its word; without operands it is a word itself. -/
theorem neverLiteral_connection : (connection setting block).NeverLiteral := by
  unfold connection
  dsimp only
  split
  · exact .fail _
  · exact .bind fun a => .bind fun b => .blank (by simp)

/-- The truth values are words. -/
theorem neverLiteral_truth : (truth setting block).NeverLiteral := by
  unfold truth
  dsimp only
  split
  · exact .word ⟨'T', "rue".toList, rfl, rfl, rfl, by decide⟩ _
  · exact .word ⟨'F', "alse".toList, rfl, rfl, rfl, by decide⟩ _

/-- The place of an item is found by a call. -/
theorem neverLiteral_listIndexOf : (listIndexOf setting block).NeverLiteral := by
  unfold listIndexOf
  refine .bind fun item => .bind fun items => ?_
  exact .ite (.bind fun name => .parenthesis (by simp))
    (.ite (.bind fun name => .parenthesis (by simp)) (.fail _))

/-- An item at a position is selected by brackets. -/
theorem neverLiteral_itemAt (mode whereTo : Value) (items : String) (position : Position) :
    (itemAt setting block mode whereTo items position).NeverLiteral := by
  unfold itemAt
  refine .bind fun place => .ite (.bracket (by simp)) (.ite (.parenthesis ?_) ?_)
  · split <;> simp
  · exact .ite (.line _) (.fail _)

/-- A random item is chosen by a call. -/
theorem neverLiteral_itemAtRandom (mode whereTo : Value) (items : String) :
    (itemAtRandom block mode whereTo items).NeverLiteral := by
  unfold itemAtRandom
  refine .bind fun _ => .ite (.parenthesis (by simp)) (.bind fun name => ?_)
  exact .ite (.parenthesis (by simp)) (.ite (.line _) (.fail _))

/-- Every way to get an item selects it or calls for it. -/
theorem neverLiteral_getIndex : (getIndex setting block).NeverLiteral := by
  unfold getIndex
  refine .bind fun items => ?_
  split
  · exact neverLiteral_itemAt ..
  · exact .ite (neverLiteral_itemAtRandom ..) (.fail _)

/-- To set an item is a statement. -/
theorem neverLiteral_setIndex : (setIndex setting block).NeverLiteral := by
  unfold setIndex setAtRandom setAt
  refine .bind fun item => .ite (.fail _) (.ite ?_ (.bind fun items => ?_))
  · exact .bind fun _ => .bind fun _ => .bind fun _ => .ite (.line _) (.line _)
  · split
    · exact .bind fun place => .ite (.line _) (.ite (.line _) (.line _))
    · exact .fail _

/-- A part of a sequence is selected by brackets. -/
theorem neverLiteral_part (socket default : String) :
    (part socket default setting block).NeverLiteral := by
  unfold part
  exact .bind fun items => .bind fun bounds => .bracket (by simp [Bounds.code])

/-- A sorted list comes from a call. -/
theorem neverLiteral_sorted : (sorted setting block).NeverLiteral := by
  unfold sorted
  exact .bind fun items => .choice (.fail _) fun key _ => .bind fun direction => .bind fun name =>
    .parenthesis (by simp)

/-- A split text comes from a call, and so does a joined list. -/
theorem neverLiteral_split : (Gen.split setting block).NeverLiteral := by
  unfold Gen.split
  refine .ite ?_ (.ite ?_ (.fail _))
  · exact .bind fun text => .bind fun delimiter => .parenthesis (by simp)
  · exact .bind fun items => .bind fun delimiter => .parenthesis (by simp)

/-- A text is quoted. -/
theorem neverLiteral_text : (Gen.text setting block).NeverLiteral := by
  have quoted (literal : String) (made : quote (block.fieldOr "TEXT" "") = .ok literal) :
      '\'' ∈ literal.toList := by
    obtain ⟨text, _, rfl⟩ := quote_eq_ok.mp made
    simp [Text.quoted]
  exact Ensures.bind (.lift quoted) fun _ member => NeverLiteral.quoteMark member

/-- Joined texts are quoted, converted or added up. -/
theorem neverLiteral_joined : (joined setting block).NeverLiteral := by
  unfold joined
  refine .bind fun count => .ite ?_ (.ite ?_ (.ite ?_ ?_))
  · exact .quoteMark (by decide)
  · exact .bind fun item => .parenthesis (by simp)
  · exact .bind fun first => .bind fun second => .parenthesis (by simp)
  · exact .bind fun items => .bind fun x => .parenthesis (by simp)

/-- The place of a text is found by a call. -/
theorem neverLiteral_textIndexOf : (textIndexOf setting block).NeverLiteral := by
  have found (method : String) : NeverLiteral (do
      let part ← value setting block "FIND" .none emptyText
      let whole ← value setting block "VALUE" .member emptyText
      let code := whole ++ "." ++ method ++ "(" ++ part ++ ")"
      if setting.oneBased then expression (code ++ " + 1") .additive
      else expression code .functionCall) :=
    .bind fun part => .bind fun whole => .ite (.parenthesis (by simp)) (.parenthesis (by simp))
  unfold textIndexOf
  exact .ite (found "find") (.ite (found "rfind") (.fail _))

/-- A letter is selected by brackets, or chosen by a call. -/
theorem neverLiteral_letterAt : (letterAt setting block).NeverLiteral := by
  unfold letterAt
  refine .ite (.bind fun whole => .bind fun _ => .bind fun name => .parenthesis (by simp))
    (.bind fun whole => ?_)
  split
  · exact .bind fun place => .bracket (by simp)
  · exact .fail _

/-- A method is called. -/
theorem neverLiteral_chosenMethod {field : String} {methods : Table String}
    (calls : ∀ entry ∈ methods, '(' ∈ entry.2.toList) :
    (chosenMethod field methods setting block).NeverLiteral := by
  unfold chosenMethod
  refine .choice (.fail _) fun method listed => .bind fun whole => .parenthesis ?_
  simp [calls method listed]

/-- A prompt is a call. -/
theorem neverLiteral_prompt : (prompt setting block).NeverLiteral := by
  unfold prompt
  refine .bind fun message => .parenthesis ?_
  split <;> simp

/-- A call of a procedure has parentheses. -/
theorem neverLiteral_callForResult : (callForResult setting block).NeverLiteral := by
  unfold callForResult call
  simp only [bind_assoc, pure_bind]
  exact .bind fun name => .bind fun arguments => .bind fun codes => .parenthesis (by simp)

/-- An early return is a statement. -/
theorem neverLiteral_earlyReturn : (earlyReturn setting block).NeverLiteral := by
  unfold earlyReturn
  exact .bind fun condition => .ite (.bind fun result => .line _) (.line _)

end Gen

open Gen in
/-- **No other kind makes literals.** Whatever its requests are answered with, the generator of a
kind that is neither that of numbers nor that of variables comes to code with a blank, a bracket or
a quote in it, or to a fixed word. -/
theorem Kind.neverLiteral_generate {setting : Setting n} {block : Block n} {kind : Kind}
    (noNumber : kind ≠ .number) (noVariable : kind ≠ .getVariable) :
    (kind.generate setting block).NeverLiteral := by
  unfold generate
  cases kind with
  | number => exact absurd rfl noNumber
  | getVariable => exact absurd rfl noVariable
  | arithmetic => exact neverLiteral_arithmetic
  | comparison => exact neverLiteral_comparison
  | connection => exact neverLiteral_connection
  | negation => exact .bind fun operand => .blank (by simp)
  | truth => exact neverLiteral_truth
  | null => exact .word ⟨'N', "one".toList, rfl, rfl, rfl, by decide⟩ _
  | setVariable => exact .bind fun assigned => .bind fun name => .line _
  | conditional => exact .bind fun further => .bind fun branches => .bind fun last => .line _
  | conditionalLoop => exact .bind fun condition => .bind fun body => .line _
  | countedLoop => exact .bind fun times => .bind fun counter => .bind fun body => .line _
  | listLoop => exact .bind fun name => .bind fun items => .bind fun body => .line _
  | emptyList => exact .bracket (by decide)
  | listOf => exact .bind fun count => .bind fun items => .bracket (by simp)
  | repeatedItem => exact .bind fun item => .bind fun times => .bracket (by simp)
  | listLength | textLength => exact .bind fun items => .parenthesis (by simp)
  | listIsEmpty | textIsEmpty => exact .bind fun items => .parenthesis (by simp)
  | listIndexOf => exact neverLiteral_listIndexOf
  | getIndex => exact neverLiteral_getIndex
  | setIndex => exact neverLiteral_setIndex
  | sublist | substring => exact neverLiteral_part ..
  | sorted => exact neverLiteral_sorted
  | split => exact neverLiteral_split
  | reversed => exact .bind fun items => .parenthesis (by simp)
  | text => exact neverLiteral_text
  | joined => exact neverLiteral_joined
  | append => exact .bind fun name => .bind fun item => .line _
  | textIndexOf => exact neverLiteral_textIndexOf
  | letterAt => exact neverLiteral_letterAt
  | changeCase | trim => exact neverLiteral_chosenMethod (by decide)
  | print => exact .bind fun message => .line _
  | promptWithSocket | prompt => exact neverLiteral_prompt
  | occurrences => exact .bind fun whole => .bind fun part => .parenthesis (by simp)
  | replaced => exact .bind fun whole => .bind fun old => .bind fun new => .parenthesis (by simp)
  | backwards => exact .bind fun whole => .bracket (by simp)
  | defineWithResult | defineWithoutResult =>
      unfold definition
      refine .bind fun arguments => .bind fun globals => .bind fun name =>
        .bind fun statements => .bind fun body => .bind fun result => .bind fun params =>
          .bind fun _ => ?_
      exact .nothing
  | callForResult => exact neverLiteral_callForResult
  | callForEffect => exact .bind fun code => .line _
  | earlyReturn => exact neverLiteral_earlyReturn

namespace Setting

variable {setting : Setting n}

/-- **Only number blocks come to literals.** In every legal pass, a block of any other kind that
comes to an expression comes to code that does not look like a literal. -/
theorem isLiteral_of_legal {pass after : Pass n} (legal : pass.Legal fun _ => True) {depth : Nat}
    {ref : Fin n} {value : Expression} (other : ¬ setting.Has ref .number)
    (ran : (setting.outcome depth ref).run.run pass = (.ok (.expression value), after)) :
    Numeral.isLiteral value.code = false := by
  obtain ⟨kind, below, inner, known, generated, -⟩ := exists_run_of_outcome ran
  have noNumber : kind ≠ .number := by
    rintro rfl
    exact other (eq_label_of_ofValue? known)
  by_cases reference : kind = .getVariable
  · subst reference
    have inserts : setting.Inserts fun _ => True := fun _ _ _ => trivial
    have ensures : (Gen.getVariable setting (setting.block ref)).Ensures
        (codeContract n Names.IsName fun _ => True) Outcome.NoLiteral := by
      unfold Gen.getVariable
      refine .bind (Gen.ensures_variableName _) fun name named => ?_
      intro value same
      cases same
      exact Numeral.isLiteral_of_isIdentifier named.1
    have inside := legal_ignores pass (ref :: pass.active) legal
    exact (setting.runWith_keeps_legal inserts ensures below _ inside).2 _
      (congrArg Prod.fst generated) value rfl
  · have ensures : (kind.generate setting (setting.block ref)).NeverLiteral :=
      Kind.neverLiteral_generate noNumber reference
    have keeps : Step.Keeps (fun _ : Pass n => True) Outcome.NoLiteral
        ((kind.generate setting (setting.block ref)).runWith (setting.outcome below)) :=
      ensures.keeps fun request _ pass _ => ⟨trivial, fun _ _ => trivial⟩
    exact (keeps _ trivial).2 _ (congrArg Prod.fst generated) value rfl

/-- A block of any kind but that of numbers comes to no literal, in every pass that occurs. -/
theorem isLiteral_of_outcome {pass after : Pass n} (reached : setting.Reached pass) {depth : Nat}
    {ref : Fin n} {value : Expression} (other : ¬ setting.Has ref .number)
    (ran : (setting.outcome depth ref).run.run pass = (.ok (.expression value), after)) :
    Numeral.isLiteral value.code = false :=
  isLiteral_of_legal (reached.legal fun _ _ _ => trivial) other ran

end Setting

end BlockScript
