import BlockScript.Json.Reader
import BlockScript.Json.Writer
import BlockScript.Proofs.Number.Reading

/-! # Written texts and numbers are read back

The reader of the exchange format takes a written text or number off the front of whatever follows
it. A text ends with its closing quote (`Json.text_written`); a number ends where no digit, point or
exponent follows (`Json.Stops`), and then it is read as the number it was written for
(`Json.scalar_int`, `Json.scalar_real`).
-/

namespace BlockScript

namespace Json

/-! ## Texts -/

/-- A digit is read as the number it was written for. -/
theorem hexValue?_hexDigit {k : Nat} (below : k < 16) : hexValue? (Text.hexDigit k) = some k := by
  revert k
  decide

/-- Four digits are read as the number that they write. -/
theorem hexFour_hex {n : Nat} (small : n < 0x10000) (rest : List Char) :
    hexFour (Text.hex 4 n ++ rest) = some (n, rest) := by
  have digit (k : Nat) : hexValue? (Text.hexDigit (k % 16)) = some (k % 16) :=
    hexValue?_hexDigit (Nat.mod_lt _ (by decide))
  have value : 4096 * (n / 16 / 16 / 16 % 16) + 256 * (n / 16 / 16 % 16) + 16 * (n / 16 % 16) +
      n % 16 = n := by omega
  simp [Text.hex, hexFour, digit, value]

/-- A character within one unit is read by its number. -/
theorem numbered_unit {c : Char} (small : c.toNat ≤ 0xffff) (rest : List Char) :
    numbered (Text.hex 4 c.toNat ++ rest) = some (c, rest) := by
  have valid : c.toNat < 0xD800 ∨ 0xDFFF < c.toNat ∧ c.toNat < 0x110000 := c.valid
  have high : ¬ (0xD800 ≤ c.toNat ∧ c.toNat < 0xDC00) := by omega
  have low : ¬ (0xDC00 ≤ c.toNat ∧ c.toNat < 0xE000) := by omega
  rw [numbered, hexFour_hex (by omega)]
  simp only [Option.bind_eq_bind, Option.bind_some, if_neg high, if_neg low, Char.ofNat_toNat,
    Option.pure_def]

/-- Two units that belong together are read as one character. -/
theorem numbered_units {high low : Nat} (inHigh : 0xD800 ≤ high ∧ high < 0xDC00)
    (inLow : 0xDC00 ≤ low ∧ low < 0xE000) (rest : List Char) :
    numbered (Text.hex 4 high ++ (unit low ++ rest)) =
      some (Char.ofNat (0x10000 + 1024 * (high - 0xD800) + (low - 0xDC00)), rest) := by
  have first := hexFour_hex (show high < 0x10000 by omega)
  have second := hexFour_hex (show low < 0x10000 by omega)
  simp only [numbered, unit, first, second, List.cons_append, Option.bind_eq_bind,
    Option.bind_some, if_pos inHigh, if_pos inLow, Option.pure_def]

/-- A character beyond one unit is read from its two units. -/
theorem numbered_pair {c : Char} (large : 0xffff < c.toNat) (rest : List Char) :
    numbered (Text.hex 4 (0xD800 + (c.toNat - 0x10000) / 1024) ++
      (unit (0xDC00 + (c.toNat - 0x10000) % 1024) ++ rest)) = some (c, rest) := by
  have valid : c.toNat < 0xD800 ∨ 0xDFFF < c.toNat ∧ c.toNat < 0x110000 := c.valid
  have joined : 0x10000 + 1024 * (0xD800 + (c.toNat - 0x10000) / 1024 - 0xD800) +
      (0xDC00 + (c.toNat - 0x10000) % 1024 - 0xDC00) = c.toNat := by omega
  rw [numbered_units (by omega) (by omega), joined, Char.ofNat_toNat]

/-- A character that is written by its number is read in one step. -/
theorem textBody_numbered (steps : Nat) (read : List Char) {chars rest : List Char} {c : Char}
    (known : numbered chars = some (c, rest)) :
    textBody (steps + 1) read ('\\' :: 'u' :: chars) = textBody steps (c :: read) rest := by
  simp only [textBody, known, Option.bind_eq_bind, Option.bind_some]

/-- So is a character that stands for itself. -/
theorem textBody_plain (steps : Nat) (read : List Char) {c : Char} (rest : List Char)
    (quote : c ≠ '"') (backslash : c ≠ '\\') (visible : 0x20 ≤ c.toNat) :
    textBody (steps + 1) read (c :: rest) = textBody steps (c :: read) rest := by
  rw [textBody, if_neg (Nat.not_lt.mpr visible)]
  all_goals simp_all

/-- A written character is read in one step. -/
theorem textBody_writtenChar (steps : Nat) (read : List Char) (c : Char) (rest : List Char) :
    textBody (steps + 1) read (writtenChar c ++ rest) = textBody steps (c :: read) rest := by
  unfold writtenChar
  by_cases quote : c = '"'
  · subst quote
    rfl
  by_cases backslash : c = '\\'
  · subst backslash
    rfl
  by_cases newline : c = '\n'
  · subst newline
    rfl
  by_cases carriageReturn : c = '\r'
  · subst carriageReturn
    rfl
  by_cases tab : c = '\t'
  · subst tab
    rfl
  simp only [quote, backslash, newline, carriageReturn, tab, ↓reduceIte]
  split
  · next backspace =>
    obtain rfl : c = Char.ofNat 8 := by rw [← backspace, Char.ofNat_toNat]
    rfl
  split
  · next formFeed =>
    obtain rfl : c = Char.ofNat 12 := by rw [← formFeed, Char.ofNat_toNat]
    rfl
  split
  · next visible => exact textBody_plain steps read rest quote backslash visible.1
  split
  · next small => exact textBody_numbered steps read (numbered_unit small rest)
  · next large =>
    rw [List.append_assoc]
    exact textBody_numbered steps read (numbered_pair (by omega) rest)

/-- No character is left out. -/
theorem writtenChar_ne_nil (c : Char) : writtenChar c ≠ [] := by
  intro none
  have read := textBody_writtenChar 0 [] c ['"']
  rw [none] at read
  cases read

/-- Written characters are read up to the closing quote. -/
theorem textBody_written (chars read rest : List Char) {steps : Nat}
    (enough : chars.length < steps) :
    textBody steps read (chars.flatMap writtenChar ++ '"' :: rest) =
      some (String.ofList (read.reverse ++ chars), rest) := by
  induction chars generalizing read steps with
  | nil =>
      obtain ⟨steps, rfl⟩ := Nat.exists_eq_add_one.mpr enough
      simp [textBody]
  | cons c chars ih =>
      obtain ⟨steps, rfl⟩ := Nat.exists_eq_add_one.mpr (Nat.zero_lt_of_lt enough)
      rw [List.flatMap_cons, List.append_assoc, textBody_writtenChar,
        ih (c :: read) (by simpa using enough)]
      simp

/-- What is written is no shorter than the text. -/
theorem length_le_written (chars : List Char) :
    chars.length ≤ (chars.flatMap writtenChar).length := by
  induction chars with
  | nil => simp
  | cons c chars ih =>
      have := List.length_pos_iff.mpr (writtenChar_ne_nil c)
      simp only [List.flatMap_cons, List.length_append, List.length_cons]
      omega

/-- A written text stands between quotes. -/
theorem toList_writtenText (chars : String) :
    (writtenText chars).toList = '"' :: (chars.toList.flatMap writtenChar ++ ['"']) := by
  simp [writtenText]

/-- **A written text is read back,** whatever follows its closing quote. -/
theorem text_written (chars : String) (rest : List Char) :
    text (chars.toList.flatMap writtenChar ++ '"' :: rest) = .ok (chars, rest) := by
  have enough := length_le_written chars.toList
  rw [text, textBody_written chars.toList [] rest (by simp only [List.length_append]; omega)]
  simp

/-! ## Numbers -/

/-- What follows a number: no digit, point or exponent. -/
def Stops (rest : List Char) : Prop :=
  ∀ c ∈ rest.head?, c.isDigit = false ∧ c ≠ '.' ∧ c ≠ 'e' ∧ c ≠ 'E'

theorem stops_nil : Stops [] := by simp [Stops]

/-- Digits without a leading zero: a zero stands alone. -/
def Unpadded (digits : List Char) : Prop := digits = ['0'] ∨ digits.head? ≠ some '0'

/-- The digits of a natural number have no leading zero. -/
theorem unpadded_toDigits (n : Nat) : Unpadded (Nat.toDigits 10 n) := by
  by_cases zero : n = 0
  · subst zero
    exact .inl rfl
  · exact .inr (Numeral.head?_toDigits zero)

/-- The digits before a point are read up to where they stop. -/
theorem wholePart_append {whole rest : List Char} (digits : Numeral.IsDigits whole)
    (unpadded : Unpadded whole) (stops : ∀ c ∈ rest.head?, c.isDigit = false) :
    wholePart (whole ++ rest) = some (whole, rest) := by
  rcases unpadded with rfl | unpadded
  · rfl
  · obtain ⟨taken, dropped⟩ := Numeral.takeWhile_isDigit_append digits.2 stops
    have nonempty : whole.isEmpty = false := by simp [digits.1]
    rw [wholePart, taken, dropped, nonempty]
    · rfl
    · intro tail same
      cases whole with
      | nil => exact digits.1 rfl
      | cons c others =>
          rw [List.cons_append, List.cons.injEq] at same
          exact unpadded (by rw [same.1]; rfl)

/-- Without a point there is no fraction. -/
theorem fractionPart_eq_none {rest : List Char} (stops : ∀ c ∈ rest.head?, c ≠ '.') :
    fractionPart rest = none := by
  cases rest with
  | nil => rfl
  | cons c rest =>
      have apart : c ≠ '.' := stops c rfl
      rw [fractionPart]
      simpa using apart

/-- Where a number stops there is no exponent. -/
theorem exponentPart_eq_none {rest : List Char} (stops : Stops rest) :
    Numeral.exponentPart rest = none := by
  cases rest with
  | nil => rfl
  | cons c rest =>
      obtain ⟨-, -, small, capital⟩ := stops c rfl
      simp [Numeral.exponentPart, small, capital]

/-- Digits alone are read as an integer, unless there are too many. -/
theorem unsigned_toDigits (n : Nat) {rest : List Char} (stops : Stops rest) (negative : Bool) :
    unsigned negative (Nat.toDigits 10 n ++ rest) =
      if (Nat.toDigits 10 n).length ≤ Numeral.greatestLength then
        .ok (.int (if negative then -(n : Int) else n), rest)
      else .error .longInteger := by
  have whole := wholePart_append (Numeral.isDigits_toDigits n) (unpadded_toDigits n)
    (fun c head => (stops c head).1)
  simp only [unsigned, whole, fractionPart_eq_none fun c head => (stops c head).2.1,
    exponentPart_eq_none stops, Option.getD_none, List.isEmpty_nil, Option.isNone_none,
    Bool.and_self, ↓reduceIte, Numeral.ofDigits_toDigits, ← Nat.not_le, ite_not]

/-- Digits with a fraction or an exponent are read as a real. -/
theorem unsigned_parts {whole point places tail rest : List Char} {power : Int}
    (digits : Numeral.IsDigits whole) (unpadded : Unpadded whole)
    (pointed : point = '.' :: places ∧ Numeral.IsDigits places ∨ point = [] ∧ places = [])
    (last : tail = [] ∧ power = 0 ∨
      tail.head? = some 'e' ∧ Numeral.exponentPart (tail ++ rest) = some (power, rest))
    (mixed : point ≠ [] ∨ tail ≠ []) (stops : Stops rest) (negative : Bool) :
    unsigned negative (whole ++ (point ++ (tail ++ rest))) =
      .ok (.real (.ofDecimal negative (Numeral.ofDigits (whole ++ places))
        (power - places.length)), rest) := by
  have after : ∀ c ∈ (tail ++ rest).head?, c.isDigit = false ∧ c ≠ '.' := by
    intro c head
    rcases last with ⟨rfl, -⟩ | ⟨mark, -⟩
    · exact ⟨(stops c head).1, (stops c head).2.1⟩
    · rw [List.head?_append, mark] at head
      obtain rfl : 'e' = c := by simpa using head
      decide
  have ends : ∀ c ∈ (point ++ (tail ++ rest)).head?, c.isDigit = false := by
    rcases pointed with ⟨rfl, -⟩ | ⟨rfl, -⟩
    · rintro c ⟨⟩
      decide
    · exact fun c head => (after c head).1
  have fraction : (fractionPart (point ++ (tail ++ rest))).getD ([], point ++ (tail ++ rest)) =
      (places, tail ++ rest) := by
    rcases pointed with ⟨rfl, isDigits⟩ | ⟨rfl, rfl⟩
    · obtain ⟨taken, dropped⟩ :=
        Numeral.takeWhile_isDigit_append isDigits.2 fun c head => (after c head).1
      have nonempty : places.isEmpty = false := by simp [isDigits.1]
      simp [fractionPart, taken, dropped, nonempty]
    · rw [List.nil_append, fractionPart_eq_none fun c head => (after c head).2]
      rfl
  have exponent : (Numeral.exponentPart (tail ++ rest)).getD (0, tail ++ rest) = (power, rest) := by
    rcases last with ⟨rfl, rfl⟩ | ⟨-, read⟩
    · rw [List.nil_append, exponentPart_eq_none stops]
      rfl
    · rw [read]
      rfl
  have real : (places.isEmpty && (Numeral.exponentPart (tail ++ rest)).isNone) = false := by
    rcases pointed with ⟨-, isDigits⟩ | ⟨rfl, -⟩
    · simp [isDigits.1]
    · rcases last with ⟨rfl, -⟩ | ⟨-, read⟩
      · simp at mixed
      · simp [read]
  simp only [unsigned, wholePart_append digits unpadded ends, fraction, exponent, real,
    Bool.false_eq_true, ↓reduceIte]

/-- A number literal that is not digits alone is read as the real of its decimal. -/
theorem unsigned_literal {literal rest : List Char} {digits : Nat} {power : Int}
    (form : Numeral.IsUnsigned literal) (unpadded : Unpadded (literal.takeWhile Char.isDigit))
    (mixed : literal.all Char.isDigit = false)
    (read : Numeral.decimal? literal = some (digits, power)) (stops : Stops rest)
    (negative : Bool) :
    unsigned negative (literal ++ rest) = .ok (.real (.ofDecimal negative digits power), rest) := by
  obtain ⟨whole, point, tail, rfl, isWhole, fractional, exponential⟩ := form
  obtain ⟨places, pointed⟩ : ∃ places,
      point = '.' :: places ∧ Numeral.IsDigits places ∨ point = [] ∧ places = [] := by
    rcases fractional with rfl | ⟨places, rfl, isDigits⟩
    · exact ⟨[], .inr ⟨rfl, rfl⟩⟩
    · exact ⟨places, .inl ⟨rfl, isDigits⟩⟩
  obtain ⟨exponent, last⟩ : ∃ exponent : Int, tail = [] ∧ exponent = 0 ∨ tail.head? = some 'e' ∧
      ∀ more : List Char, (∀ c ∈ more.head?, c.isDigit = false) →
        Numeral.exponentPart (tail ++ more) = some (exponent, more) := by
    rcases exponential with rfl | ⟨sign, chars, rfl, signed, isDigits⟩
    · exact ⟨0, .inl ⟨rfl, rfl⟩⟩
    · rcases signed with rfl | rfl
      · exact ⟨_, .inr ⟨rfl, fun _ ends => Numeral.exponentPart_append isDigits ends false⟩⟩
      · exact ⟨_, .inr ⟨rfl, fun _ ends => Numeral.exponentPart_append isDigits ends true⟩⟩
  have others : ∀ c ∈ places, c.isDigit = true := by
    rcases pointed with ⟨-, isDigits⟩ | ⟨-, rfl⟩
    · exact isDigits.2
    · simp
  -- The parts are those of the decimal that the literal stands for.
  have known := Numeral.decimal?_eq isWhole others
    (pointed.imp_left And.left) (last.imp_right fun ends => by simpa using ends.2 [] (by simp))
  rw [← List.append_assoc, read] at known
  obtain ⟨rfl, rfl⟩ : digits = _ ∧ power = _ := by simpa using known
  have ends : ∀ c ∈ (point ++ tail).head?, c.isDigit = false := by
    rcases pointed with ⟨rfl, -⟩ | ⟨rfl, -⟩
    · rintro c ⟨⟩
      decide
    · rcases last with ⟨rfl, -⟩ | ⟨mark, -⟩
      · simp
      · rw [List.nil_append, mark]
        rintro c ⟨⟩
        decide
  rw [List.append_assoc, (Numeral.takeWhile_isDigit_append isWhole.2 ends).1] at unpadded
  have present : point ≠ [] ∨ tail ≠ [] := by
    by_contra neither
    push Not at neither
    have allDigits := List.all_eq_true.mpr isWhole.2
    simp [neither, allDigits] at mixed
  rw [List.append_assoc, List.append_assoc]
  exact unsigned_parts isWhole unpadded pointed
    (last.imp_right fun ends => ⟨ends.1, ends.2 rest fun c head => (stops c head).1⟩) present stops
    negative

/-! ## Words and signs -/

/-- No word starts as a number does. -/
theorem word?_of_digit {d : Char} (digit : d.isDigit = true) (rest : List Char) :
    word? (d :: rest) = none ∧ word? ('-' :: d :: rest) = none := by
  have apart (c : Char) (letter : c.isDigit = false) : c ≠ d := by
    rintro rfl
    rw [digit] at letter
    cases letter
  have n := apart 'n' rfl
  have t := apart 't' rfl
  have f := apart 'f' rfl
  have capitalN := apart 'N' rfl
  have capitalI := apart 'I' rfl
  have minus := apart '-' rfl
  simp [word?, words, after?, n, t, f, capitalN, capitalI, minus]

/-- A number is read after its sign. -/
theorem scalar_signed (negative : Bool) {chars : List Char} {d : Char} (head : chars.head? = some d)
    (digit : d.isDigit = true) :
    scalar ((if negative then ['-'] else []) ++ chars) = unsigned negative chars := by
  obtain ⟨rest, rfl⟩ := List.head?_eq_some_iff.mp head
  obtain ⟨bare, signed⟩ := word?_of_digit digit rest
  cases negative with
  | true =>
      simp only [↓reduceIte, List.singleton_append, scalar, signed]
  | false =>
      have minus : d ≠ '-' := by
        rintro rfl
        cases digit
      rw [if_neg Bool.false_ne_true, List.nil_append, scalar, bare]
      simp [minus]

/-- The digits of an integer stand after its sign. -/
theorem toList_toString_int (n : Int) :
    (toString n).toList = (if n < 0 then ['-'] else []) ++ Nat.toDigits 10 n.natAbs := by
  cases n with
  | ofNat k =>
      rw [if_neg (by simp), List.nil_append]
      exact Numeral.toList_toString k
  | negSucc k =>
      have spelled : toString (Int.negSucc k) = "-" ++ toString (k + 1) := rfl
      rw [spelled, String.toList_append, Numeral.toList_toString,
        if_pos (Int.negSucc_lt_zero k), Int.natAbs_negSucc]
      rfl

/-- Digits start with one. -/
theorem exists_head_of_isDigits {digits : List Char} (isDigits : Numeral.IsDigits digits)
    (rest : List Char) : ∃ d, (digits ++ rest).head? = some d ∧ d.isDigit = true := by
  cases digits with
  | nil => exact (isDigits.1 rfl).elim
  | cons d digits => exact ⟨d, rfl, isDigits.2 d (List.mem_cons_self ..)⟩

/-- **A written integer is read back,** unless it has too many digits. -/
theorem scalar_int (n : Int) {rest : List Char} (stops : Stops rest) :
    scalar ((toString n).toList ++ rest) =
      (if (Nat.toDigits 10 n.natAbs).length ≤ Numeral.greatestLength then .ok (.int n)
        else .error .longInteger : Reading Value).map (·, rest) := by
  obtain ⟨d, head, digit⟩ := exists_head_of_isDigits (Numeral.isDigits_toDigits n.natAbs) rest
  have signed := scalar_signed (decide (n < 0)) head digit
  have value : (if decide (n < 0) then -(n.natAbs : Int) else n.natAbs) = n := by
    by_cases negative : n < 0
    · rw [if_pos (decide_eq_true negative)]
      omega
    · rw [if_neg (by simp [negative])]
      omega
  rw [unsigned_toDigits _ stops, value] at signed
  rw [toList_toString_int, List.append_assoc]
  simp only [decide_eq_true_eq] at signed
  rw [signed]
  split <;> rfl

/-- Without a leading zero in a text there is none in the digits that it starts with. -/
theorem unpadded_of_head {chars : List Char} (head : chars.head? ≠ some '0') :
    Unpadded (chars.takeWhile Char.isDigit) := by
  refine .inr fun first => head ?_
  rw [List.head?_takeWhile, Option.filter_eq_some_iff] at first
  exact first.1

/-- A decimal is laid out without a leading zero, but for one before the point. -/
theorem unpadded_layout (style : DecimalStyle) {digits : Nat} (nonzero : digits ≠ 0) (power : Int) :
    Unpadded ((style.layout digits power).toList.takeWhile Char.isDigit) := by
  have first := Numeral.head?_toDigits nonzero
  unfold DecimalStyle.layout
  simp only
  cases written : Nat.toDigits 10 digits with
  | nil => exact (Nat.toDigits_ne_nil written).elim
  | cons c text =>
      have apart : c ≠ '0' := by
        rw [written] at first
        simpa using first
      have leads (after : String) :
          (String.ofList (c :: text) ++ after).toList.head? ≠ some '0' := by
        simpa using apart
      split
      · split
        · exact .inl (by simp)
        · split
          · refine unpadded_of_head ?_
            rw [String.append_assoc]
            exact leads _
          · next _ positive _ =>
            refine unpadded_of_head ?_
            obtain ⟨k, same⟩ := Nat.exists_eq_add_one.mpr
              (show 0 < (power + (c :: text).length).toNat by omega)
            rw [same]
            simpa using apart
      · refine unpadded_of_head ?_
        split <;> split <;> simpa using apart

/-- A real literal of a positive magnitude is read as that number. -/
theorem unsigned_shortest {significand : Nat} {exponent : Int}
    (canonical : Binary64.IsCanonical significand exponent) (positive : 0 < significand)
    {rest : List Char} (stops : Stops rest) (negative : Bool) :
    unsigned negative ((DecimalStyle.plain.layout (Binary64.shortest significand exponent).1
      (Binary64.shortest significand exponent).2).toList ++ rest) =
        .ok (.real (.finite negative significand exponent canonical), rest) := by
  have inside := Binary64.shortest_inCell canonical positive
  have nonzero : (Binary64.shortest significand exponent).1 ≠ 0 := by
    intro zero
    have large := (inside.size canonical positive).1
    rw [zero, Nat.cast_zero, zero_mul] at large
    exact absurd large (not_lt.mpr (Binary64.ten_zpow_pos _).le)
  obtain ⟨digits, power, read, same⟩ := DecimalStyle.plain.decimal?_layout
    (Binary64.shortest significand exponent).1 (Binary64.shortest significand exponent).2
  rw [unsigned_literal (DecimalStyle.isUnsigned_layout ..) (unpadded_layout _ nonzero _)
    (DecimalStyle.layout_not_digits ..) read stops,
    Binary64.ofDecimal_of_inCell negative canonical positive (by rw [same]; exact inside)]

/-- Zero is read back with its sign. -/
theorem unsigned_zero {exponent : Int} (canonical : Binary64.IsCanonical 0 exponent)
    {rest : List Char} (stops : Stops rest) (negative : Bool) :
    unsigned negative ("0.0".toList ++ rest) =
      .ok (.real (.finite negative 0 exponent canonical), rest) := by
  obtain ⟨-, -, -, normal⟩ := id canonical
  obtain rfl : exponent = Binary64.leastExponent := normal.resolve_left (by decide)
  have isDigits : Numeral.IsDigits ['0'] := ⟨by simp, by decide⟩
  exact unsigned_parts isDigits (.inl rfl) (.inl ⟨rfl, isDigits⟩) (.inl ⟨rfl, rfl⟩)
    (.inl (by simp)) stops negative

/-- **A written real is read back.** -/
theorem scalar_real (x : Binary64) {rest : List Char} (stops : Stops rest) :
    scalar ((writtenReal x).toList ++ rest) = .ok (.real x, rest) := by
  cases x with
  | nan => rfl
  | infinite negative => cases negative <;> rfl
  | finite negative significand exponent canonical =>
      -- The sign stands apart from the magnitude, which starts with a digit.
      have apart (magnitude : String) :
          (if negative then "-" ++ magnitude else magnitude).toList ++ rest =
            (if negative then ['-'] else []) ++ (magnitude.toList ++ rest) := by
        cases negative <;> simp
      rw [writtenReal, DecimalStyle.render, apart]
      · by_cases zero : significand = 0
        · subst zero
          rw [if_pos rfl]
          exact (scalar_signed negative rfl rfl).trans (unsigned_zero canonical stops negative)
        · obtain ⟨whole, point, tail, spelled, isDigits, -⟩ := DecimalStyle.isUnsigned_layout
            .plain (Binary64.shortest significand exponent).1
            (Binary64.shortest significand exponent).2
          obtain ⟨d, head, digit⟩ := exists_head_of_isDigits isDigits (point ++ (tail ++ rest))
          rw [← List.append_assoc, ← List.append_assoc, ← spelled] at head
          rw [if_neg zero]
          exact (scalar_signed negative head digit).trans
            (unsigned_shortest canonical (Nat.pos_of_ne_zero zero) stops negative)
      all_goals simp

end Json

end BlockScript
