import Mathlib.Data.Nat.Cast.Field
import BlockScript.Proofs.Number.Shortest
import BlockScript.Proofs.NumberText

/-! # Number literals read back

`Numeral.decimal?` takes a literal apart into digits and a power of ten. A laid out decimal is read
with its value (`DecimalStyle.decimal?_layout`), so the literal of a finite number is read as that
number (`Binary64.decimal?_magnitudeText`).
-/

namespace BlockScript

namespace Numeral

theorem ofDigits_eq (chars : List Char) : ofDigits chars = Nat.ofDigitChars 10 chars 0 := rfl

theorem ofDigits_toDigits (n : Nat) : ofDigits (Nat.toDigits 10 n) = n := by
  rw [ofDigits_eq, Nat.ofDigitChars_ten_toDigits]

theorem ofDigits_zeros_append (count : Nat) (chars : List Char) :
    ofDigits (List.replicate count '0' ++ chars) = ofDigits chars := by
  rw [ofDigits_eq, Nat.ofDigitChars_append, Nat.ofDigitChars_replicate_zero, Nat.mul_zero,
    ← ofDigits_eq]

theorem ofDigits_append_zeros (chars : List Char) (count : Nat) :
    ofDigits (chars ++ List.replicate count '0') = 10 ^ count * ofDigits chars := by
  rw [ofDigits_eq, Nat.ofDigitChars_append, Nat.ofDigitChars_replicate_zero, ← ofDigits_eq]

/-- As many digits as there are bound a number. -/
theorem ofDigits_lt {digits : List Char} (decimal : ∀ c ∈ digits, c.isDigit = true) :
    ofDigits digits < 10 ^ digits.length := by
  induction digits using List.reverseRecOn with
  | nil => exact Nat.one_pos
  | append_singleton digits c ih =>
    have less := ih fun d member => decimal d (List.mem_append_left _ member)
    have last : c.isDigit = true := decimal c (by simp)
    rw [Char.isDigit, Bool.and_eq_true, decide_eq_true_eq, decide_eq_true_eq] at last
    have small : c.toNat ≤ 57 := last.2
    have extended : ofDigits (digits ++ [c]) = 10 * ofDigits digits + (c.toNat - 48) := by
      simp [ofDigits]
    rw [extended, List.length_append, List.length_singleton, Nat.pow_succ]
    omega

variable {whole fraction tail : List Char} {exponent : Int}

/-- Digits end where an exponent part begins. -/
theorem takeWhile_isDigit_append (digits : ∀ c ∈ whole, c.isDigit = true)
    (stops : ∀ c ∈ tail.head?, c.isDigit = false) :
    (whole ++ tail).takeWhile Char.isDigit = whole ∧
      (whole ++ tail).dropWhile Char.isDigit = tail := by
  rw [List.takeWhile_append_of_pos digits, List.dropWhile_append_of_pos digits]
  cases tail with
  | nil => simp
  | cons c rest =>
    have stop : c.isDigit = false := stops c rfl
    simp [stop]

/-- A literal of digits, a fraction that may be missing with its point, and an exponent part that
may be missing. -/
theorem decimal?_eq {point : List Char} (first : IsDigits whole)
    (others : ∀ c ∈ fraction, c.isDigit = true)
    (pointed : point = '.' :: fraction ∨ point = [] ∧ fraction = [])
    (last : tail = [] ∧ exponent = 0 ∨ exponentPart tail = some (exponent, [])) :
    decimal? (whole ++ (point ++ tail)) =
      some (ofDigits (whole ++ fraction), exponent - fraction.length) := by
  have marked : ∀ c ∈ tail.head?, c.isDigit = false ∧ c ≠ '.' := by
    intro c head
    rcases last with ⟨rfl, -⟩ | last
    · cases head
    · cases tail with
      | nil => cases head
      | cons d rest =>
        obtain rfl : d = c := by simpa using head
        have mark : d = 'e' ∨ d = 'E' := by
          by_contra other
          simp [exponentPart, not_or.mp other] at last
        rcases mark with rfl | rfl <;> decide
  have stops : ∀ c ∈ (point ++ tail).head?, c.isDigit = false := by
    rcases pointed with rfl | ⟨rfl, -⟩
    · rintro c ⟨⟩
      decide
    · exact fun c head => (marked c head).1
  have read : fractionPart (point ++ tail) = (fraction, tail) := by
    rcases pointed with rfl | ⟨rfl, rfl⟩
    · obtain ⟨taken, dropped⟩ :=
        takeWhile_isDigit_append others fun c head => (marked c head).1
      simp only [List.cons_append, fractionPart, taken, dropped]
    · cases tail with
      | nil => rfl
      | cons c rest =>
        have notPoint : c ≠ '.' := (marked c rfl).2
        simp [fractionPart, notPoint]
  obtain ⟨taken, dropped⟩ := takeWhile_isDigit_append first.2 stops
  have nonempty : (whole ++ fraction).isEmpty = false := by simp [first.1]
  simp only [decimal?, taken, dropped, read, nonempty, Bool.false_eq_true, ↓reduceIte]
  rcases last with ⟨rfl, rfl⟩ | last
  · simp
  · have present : tail.isEmpty = false := by
      cases tail with
      | nil => simp [exponentPart] at last
      | cons c rest => rfl
    simp only [present, last, Bool.false_eq_true, ↓reduceIte]

theorem toNat_of_isDigit {c : Char} (digit : c.isDigit = true) : 48 ≤ c.toNat ∧ c.toNat ≤ 57 := by
  simp only [Char.isDigit, Bool.and_eq_true, decide_eq_true_eq] at digit
  exact ⟨UInt32.le_iff_toNat_le.mp digit.1, UInt32.le_iff_toNat_le.mp digit.2⟩

theorem toLower_of_isDigit {c : Char} (digit : c.isDigit = true) : c.toLower = c := by
  have value := toNat_of_isDigit digit
  unfold Char.toLower
  refine dif_neg fun upper => ?_
  have least : 65 ≤ c.toNat := UInt32.le_iff_toNat_le.mp upper.1
  omega

/-- A decimal starts with a digit or with its point. -/
theorem exists_cons_of_decimal? {chars : List Char} {decimal : Nat × Int}
    (read : decimal? chars = some decimal) :
    ∃ c rest, chars = c :: rest ∧ (c.isDigit = true ∨ c = '.') := by
  cases chars with
  | nil => cases read
  | cons c rest =>
      refine ⟨c, rest, rfl, ?_⟩
      by_contra other
      obtain ⟨noDigit, noPoint⟩ := not_or.mp other
      have plain : fractionPart (c :: rest) = ([], c :: rest) := by
        unfold fractionPart
        split
        · next same => exact absurd (List.cons.inj same).1 noPoint
        · rfl
      simp [decimal?, noDigit, plain] at read

/-- The text of a decimal, perhaps signed, is read as the number nearest to it: the words for
infinity and for a not-a-number start with letters. -/
theorem real?_eq_ofDecimal {text : String} {signed chars : List Char} {negative : Bool}
    {digits : Nat} {power : Int}
    (plain : withoutUnderscores false (trimmed text) = some signed)
    (split : sign signed = (negative, chars)) (read : decimal? chars = some (digits, power)) :
    real? text = some (.ofDecimal negative digits power) := by
  have noWord (word : String)
      (letter : word.toList.head?.all (fun c => c.isDigit || c == '.') = false) :
      String.ofList (chars.map Char.toLower) ≠ word := by
    rintro rfl
    obtain ⟨c, rest, rfl, first⟩ := exists_cons_of_decimal? read
    rcases first with digit | rfl
    · simp [toLower_of_isDigit digit, digit] at letter
    · exact absurd letter (by simp)
  unfold real?
  simp only [Option.bind_eq_bind, plain, Option.bind_some, split, read]
  rw [if_neg, if_neg]
  · rfl
  · exact noWord "nan" (by decide)
  · exact not_or.mpr ⟨noWord "inf" (by decide), noWord "infinity" (by decide)⟩

/-- A signed exponent part ends where no digit follows. -/
theorem exponentPart_append {chars rest : List Char} (digits : IsDigits chars)
    (stops : ∀ c ∈ rest.head?, c.isDigit = false) (negative : Bool) :
    exponentPart ('e' :: (if negative then '-' else '+') :: (chars ++ rest)) =
      some (if negative then -(ofDigits chars : Int) else ofDigits chars, rest) := by
  have ends := takeWhile_isDigit_append digits.2 stops
  have nonempty : chars.isEmpty = false := by simp [digits.1]
  cases negative <;> simp [exponentPart, sign, ends, nonempty]

/-- A signed exponent part that ends the literal. -/
theorem exponentPart_eq {chars : List Char} (digits : IsDigits chars) (negative : Bool) :
    exponentPart ('e' :: (if negative then '-' else '+') :: chars) =
      some (if negative then -(ofDigits chars : Int) else ofDigits chars, []) := by
  have read := exponentPart_append digits (show ∀ c ∈ ([] : List Char).head?, _ by simp) negative
  rwa [List.append_nil] at read

/-- A literal whose point stands before all its digits: the zeros after it count as places. -/
theorem decimal?_fraction {text : List Char} (written : IsDigits text) (count : Nat) :
    decimal? ('0' :: '.' :: (List.replicate count '0' ++ text)) =
      some (ofDigits text, -(count + text.length : Int)) := by
  have fraction : ∀ c ∈ List.replicate count '0' ++ text, c.isDigit = true :=
    (written.append_left fun _ => isDigit_of_mem_replicate).2
  have read := decimal?_eq (show IsDigits ['0'] from ⟨by simp, by decide⟩) fraction
    (.inl rfl) (.inl ⟨rfl, rfl⟩)
  have value : ofDigits (['0'] ++ (List.replicate count '0' ++ text)) = ofDigits text := by
    rw [show ['0'] = List.replicate 1 '0' by rfl, ofDigits_zeros_append, ofDigits_zeros_append]
  rw [value] at read
  simpa using read

/-- A literal whose point stands behind all its digits: zeros fill up, and the last place holds a
zero. -/
theorem decimal?_whole {text : List Char} (written : IsDigits text) (count : Nat) :
    decimal? (text ++ (List.replicate count '0' ++ ['.', '0'])) =
      some (10 ^ (count + 1) * ofDigits text, -1) := by
  have whole : IsDigits (text ++ List.replicate count '0') :=
    written.append_right fun _ => isDigit_of_mem_replicate
  have read := decimal?_eq whole (show ∀ c ∈ ['0'], c.isDigit = true by decide) (.inl rfl)
    (.inl ⟨rfl, rfl⟩)
  have value : ofDigits (text ++ List.replicate count '0' ++ ['0']) =
      10 ^ (count + 1) * ofDigits text := by
    rw [List.append_assoc, ← List.replicate_succ', ofDigits_append_zeros]
  rw [value] at read
  simpa using read

/-- A literal whose point stands between two digits. -/
theorem decimal?_pointed {text : List Char} (written : IsDigits text) {place : Nat}
    (positive : 0 < place) :
    decimal? (text.take place ++ '.' :: text.drop place) =
      some (ofDigits text, -((text.length - place : Nat) : Int)) := by
  have whole : IsDigits (text.take place) := by
    refine ⟨?_, fun c member => written.2 c (List.mem_of_mem_take member)⟩
    rw [Ne, List.take_eq_nil_iff, not_or]
    exact ⟨by omega, written.1⟩
  have fraction : ∀ c ∈ text.drop place, c.isDigit = true :=
    fun c member => written.2 c (List.mem_of_mem_drop member)
  have read := decimal?_eq whole fraction (.inl rfl) (.inl ⟨rfl, rfl⟩)
  rw [List.take_append_drop, List.length_drop] at read
  simpa using read

/-- A literal with one digit before the point and a padded exponent. -/
theorem decimal?_scientific {text : List Char} (written : IsDigits text) (width : Nat)
    (exponent : Int) :
    decimal? (text.take 1 ++ ((if text.drop 1 = [] then [] else '.' :: text.drop 1) ++
      'e' :: (if exponent < 0 then '-' else '+') ::
        (List.replicate (width - (toString exponent.natAbs).length) '0' ++
          (toString exponent.natAbs).toList))) =
      some (ofDigits text, exponent - (text.length - 1)) := by
  have lead : IsDigits (text.take 1) :=
    ⟨by simp [written.1], fun c member => written.2 c (List.mem_of_mem_take member)⟩
  have fraction : ∀ c ∈ text.drop 1, c.isDigit = true :=
    fun c member => written.2 c (List.mem_of_mem_drop member)
  have pointed : (if text.drop 1 = [] then [] else '.' :: text.drop 1) = '.' :: text.drop 1 ∨
      (if text.drop 1 = [] then [] else '.' :: text.drop 1) = [] ∧ text.drop 1 = [] := by
    split
    · next none => exact .inr ⟨rfl, none⟩
    · exact .inl rfl
  have last := exponentPart_eq (isDigits_padded width exponent.natAbs) (decide (exponent < 0))
  have size : ofDigits (List.replicate (width - (toString exponent.natAbs).length) '0' ++
      (toString exponent.natAbs).toList) = exponent.natAbs := by
    rw [ofDigits_zeros_append, toList_toString, ofDigits_toDigits]
  have signed : (if decide (exponent < 0) = true then -(exponent.natAbs : Int)
      else exponent.natAbs) = exponent := by
    simp only [decide_eq_true_eq]
    omega
  rw [size, signed] at last
  have read := decimal?_eq lead fraction pointed (.inr last)
  have length : 1 ≤ text.length := List.length_pos_iff.mpr written.1
  rw [List.take_append_drop, List.length_drop, Nat.cast_sub length] at read
  simpa using read

end Numeral

namespace DecimalStyle

open Numeral

/-- **A laid out decimal is read with its value.** -/
theorem decimal?_layout (style : DecimalStyle) (digits : Nat) (power : Int) :
    ∃ read exponent, decimal? (style.layout digits power).toList = some (read, exponent) ∧
      (read : ℚ) * 10 ^ exponent = digits * 10 ^ power := by
  have written := isDigits_toDigits digits
  have value := ofDigits_toDigits digits
  unfold layout
  simp only
  generalize Nat.toDigits 10 digits = text at written value
  split
  · split
    · have read := decimal?_fraction written (-(power + text.length)).toNat
      rw [value, show -(((-(power + text.length)).toNat : Int) + text.length) = power by omega]
        at read
      exact ⟨digits, power, by simpa [zeros] using read, rfl⟩
    · split
      · have read := decimal?_whole written power.toNat
        obtain ⟨n, rfl⟩ := Int.eq_ofNat_of_zero_le (show 0 ≤ power by omega)
        rw [value] at read
        refine ⟨_, _, by simpa [zeros] using read, ?_⟩
        simp
        ring
      · have read := decimal?_pointed written (show 0 < (power + text.length).toNat by omega)
        rw [value, show -((text.length - (power + text.length).toNat : Nat) : Int) = power by omega]
          at read
        exact ⟨digits, power, by simpa using read, rfl⟩
  · -- One digit before the point, and an exponent.
    have literal := decimal?_scientific written style.exponentWidth (power + text.length - 1)
    rw [value, show power + text.length - 1 - (text.length - 1) = power by ring] at literal
    refine ⟨digits, power, Eq.trans ?_ literal, rfl⟩
    by_cases negative : power + text.length - 1 < 0 <;> by_cases none : text.tail = [] <;>
      simp [negative, none, zeros]

/-- A laid out decimal is never digits alone: it has a point or the mark of an exponent. -/
theorem layout_not_digits (style : DecimalStyle) (digits : Nat) (power : Int) :
    (style.layout digits power).toList.all Char.isDigit = false := by
  have marks : ('.').isDigit = false ∧ ('e').isDigit = false := by decide
  unfold layout
  simp only
  split
  · split
    · simp [marks]
    · split <;> simp [marks]
  · split <;> split <;> simp [marks]

end DecimalStyle

namespace Binary64

/-- A whole number is its magnitude, nothing is cut. -/
theorem cast_wholeMagnitude {significand : Nat} {exponent : Int}
    (whole : 0 ≤ exponent ∨ significand % 2 ^ (-exponent).toNat = 0) :
    (wholeMagnitude significand exponent : ℚ) = magnitude significand exponent := by
  unfold wholeMagnitude magnitude
  by_cases nonnegative : 0 ≤ exponent
  · obtain ⟨n, rfl⟩ := Int.eq_ofNat_of_zero_le nonnegative
    simp [nonnegative]
  · have divides := Nat.dvd_of_mod_eq_zero (whole.resolve_left nonnegative)
    have opposite : exponent = -((-exponent).toNat : Int) := by omega
    rw [if_neg nonnegative, Nat.cast_div divides (by positivity)]
    generalize (-exponent).toNat = n at opposite
    rw [opposite]
    simp [div_eq_mul_inv]

/-- **Number literals read back.** The literal of a positive magnitude is read as the digits of a
decimal that is nearest to that number and to no other. -/
theorem decimal?_magnitudeText {significand : Nat} {exponent : Int}
    (canonical : IsCanonical significand exponent) (positive : 0 < significand) :
    ∃ digits power,
      Numeral.decimal? (magnitudeText significand exponent).toList = some (digits, power) ∧
        ∀ negative, ofDecimal negative digits power =
          .finite negative significand exponent canonical := by
  unfold magnitudeText
  split
  · next whole =>
    refine ⟨wholeMagnitude significand exponent, 0, ?_, fun negative =>
      ofDecimal_of_inCell negative canonical positive ?_⟩
    · have read := Numeral.decimal?_eq
        (Numeral.isDigits_toDigits (wholeMagnitude significand exponent))
        (show ∀ c ∈ ([] : List Char), c.isDigit = true by simp) (.inr ⟨rfl, rfl⟩) (.inl ⟨rfl, rfl⟩)
      simpa [Numeral.toList_toString, Numeral.ofDigits_toDigits] using read
    · rw [cast_wholeMagnitude whole, zpow_zero, mul_one]
      exact inCell_magnitude significand exponent
  · obtain ⟨digits, power, read, same⟩ := DecimalStyle.plain.decimal?_layout
      (shortest significand exponent).1 (shortest significand exponent).2
    refine ⟨digits, power, read, fun negative =>
      ofDecimal_of_inCell negative canonical positive ?_⟩
    rw [same]
    exact shortest_inCell canonical positive

end Binary64

end BlockScript
