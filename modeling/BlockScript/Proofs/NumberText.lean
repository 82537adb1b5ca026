import BlockScript.Proofs.Code

/-! # The texts of numbers

Numbers are written as number literals of the generated language: digits with perhaps a fraction and
an exponent, behind a minus sign when the number lies below zero.
-/

namespace BlockScript

-- Powers are the built-in ones, also where a library brings others.
attribute [local instance (2000)] instPowNat

namespace Numeral

/-- A natural number is written with digits. -/
theorem isDigits_toDigits (n : Nat) : IsDigits (Nat.toDigits 10 n) :=
  ⟨Nat.toDigits_ne_nil, fun _ member =>
    Nat.isDigit_of_mem_toDigits (by decide) (by decide) member⟩

/-- A number other than zero has no leading zero. -/
theorem head?_toDigits {n : Nat} (nonzero : n ≠ 0) : (Nat.toDigits 10 n).head? ≠ some '0' := by
  induction n using Nat.strongRecOn with
  | ind n ih =>
    by_cases small : n < 10
    · simp [Nat.toDigits_of_lt_base small, nonzero]
    · rw [Nat.toDigits_of_base_le (by decide) (by omega),
        List.head?_append_of_ne_nil _ Nat.toDigits_ne_nil]
      exact ih (n / 10) (by omega) (by omega)

/-- Digits may come before digits. -/
theorem IsDigits.append_left {first second : List Char} (left : ∀ c ∈ first, c.isDigit = true)
    (right : IsDigits second) : IsDigits (first ++ second) := by
  refine ⟨by simp [right.1], fun c member => ?_⟩
  rcases List.mem_append.mp member with member | member
  · exact left c member
  · exact right.2 c member

/-- Digits may follow digits. -/
theorem IsDigits.append_right {first second : List Char} (left : IsDigits first)
    (right : ∀ c ∈ second, c.isDigit = true) : IsDigits (first ++ second) := by
  refine ⟨by simp [left.1], fun c member => ?_⟩
  rcases List.mem_append.mp member with member | member
  · exact left.2 c member
  · exact right c member

theorem isDigit_of_mem_replicate {n : Nat} {c : Char} (member : c ∈ List.replicate n '0') :
    c.isDigit = true := by
  rw [List.eq_of_mem_replicate member]
  decide

/-- Digits are a literal without a sign. -/
theorem IsDigits.isUnsigned {chars : List Char} (digits : IsDigits chars) : IsUnsigned chars :=
  ⟨chars, [], [], by simp, digits, .inl rfl, .inl rfl⟩

theorem toList_toString (n : Nat) : (toString n).toList = Nat.toDigits 10 n := by
  simp [Nat.toString_eq_repr]

theorem isUnsigned_toString (n : Nat) : IsUnsigned (toString n).toList := by
  rw [toList_toString]
  exact (isDigits_toDigits n).isUnsigned

/-- The opposite of a natural number is written behind a minus sign. -/
theorem toString_neg {n : Nat} (nonzero : n ≠ 0) : toString (-(n : Int)) = "-" ++ toString n := by
  cases n with
  | zero => exact (nonzero rfl).elim
  | succ n => rfl

/-- The digits of an exponent, filled up to a width. -/
theorem isDigits_padded (width n : Nat) :
    IsDigits (List.replicate (width - (toString n).length) '0' ++ (toString n).toList) := by
  rw [toList_toString]
  exact IsDigits.append_left (fun _ => isDigit_of_mem_replicate) (isDigits_toDigits n)

/-- A literal with an exponent; the point is left out when no digit follows it. -/
theorem isUnsigned_scientific {lead tail exponent : List Char} {sign : Char}
    (first : IsDigits lead) (others : ∀ c ∈ tail, c.isDigit = true)
    (signed : sign = '+' ∨ sign = '-') (last : IsDigits exponent) :
    IsUnsigned ((if tail = [] then lead else lead ++ '.' :: tail) ++ 'e' :: sign :: exponent) := by
  by_cases none : tail = []
  · exact ⟨lead, [], 'e' :: sign :: exponent, by simp [none], first, .inl rfl,
      .inr ⟨sign, exponent, rfl, signed, last⟩⟩
  · exact ⟨lead, '.' :: tail, 'e' :: sign :: exponent, by simp [none], first,
      .inr ⟨tail, rfl, none, others⟩, .inr ⟨sign, exponent, rfl, signed, last⟩⟩

end Numeral

namespace DecimalStyle

open Numeral

/-- A decimal is laid out as a number literal. -/
theorem isUnsigned_layout (style : DecimalStyle) (digits : Nat) (power : Int) :
    IsUnsigned (style.layout digits power).toList := by
  have written := isDigits_toDigits digits
  unfold layout
  simp only
  generalize Nat.toDigits 10 digits = text at written
  split
  · split
    · -- The point stands before all digits.
      refine ⟨['0'], '.' :: (List.replicate (-(power + text.length)).toNat '0' ++ text), [],
        by simp [zeros], ⟨by simp, by decide⟩, .inr ⟨_, rfl, ?_⟩, .inl rfl⟩
      exact written.append_left fun _ => isDigit_of_mem_replicate
    · split
      · -- The point stands after all digits.
        refine ⟨text ++ List.replicate (power + text.length - text.length).toNat '0',
          ['.', '0'], [], by simp [zeros], ?_, .inr ⟨['0'], rfl, by simp, by decide⟩, .inl rfl⟩
        exact written.append_right fun _ => isDigit_of_mem_replicate
      · -- The point stands between two digits.
        rename_i _ positive inside
        refine ⟨text.take (power + text.length).toNat,
          '.' :: text.drop (power + text.length).toNat, [], by simp, ⟨?_, ?_⟩,
          .inr ⟨_, rfl, ?_, ?_⟩, .inl rfl⟩
        · rw [Ne, List.take_eq_nil_iff, not_or]
          exact ⟨by omega, written.1⟩
        · exact fun c member => written.2 c (List.mem_of_mem_take member)
        · rw [Ne, List.drop_eq_nil_iff]
          omega
        · exact fun c member => written.2 c (List.mem_of_mem_drop member)
  · -- One digit before the point, and an exponent.
    have lead : IsDigits (text.take 1) :=
      ⟨by simp [written.1], fun c member => written.2 c (List.mem_of_mem_take member)⟩
    have tail : ∀ c ∈ text.drop 1, c.isDigit = true :=
      fun c member => written.2 c (List.mem_of_mem_drop member)
    have literal (sign : Char) (signed : sign = '+' ∨ sign = '-') := isUnsigned_scientific lead tail
      signed (isDigits_padded style.exponentWidth (power + text.length - 1).natAbs)
    by_cases negative : power + text.length - 1 < 0 <;> by_cases none : text.tail = []
    · simpa [negative, none, zeros] using literal '-' (.inr rfl)
    · simpa [negative, none, zeros] using literal '-' (.inr rfl)
    · simpa [negative, none, zeros] using literal '+' (.inl rfl)
    · simpa [negative, none, zeros] using literal '+' (.inl rfl)

end DecimalStyle

namespace Binary64

/-- The literal of the magnitude of a finite number: whole numbers have no fraction part. -/
def magnitudeText (significand : Nat) (exponent : Int) : String :=
  if 0 ≤ exponent ∨ significand % 2 ^ (-exponent).toNat = 0 then
    toString (wholeMagnitude significand exponent)
  else DecimalStyle.plain.layout (shortest significand exponent).1 (shortest significand exponent).2

/-- A magnitude is written as a literal without a sign. -/
theorem isUnsigned_magnitudeText (significand : Nat) (exponent : Int) :
    Numeral.IsUnsigned (magnitudeText significand exponent).toList := by
  unfold magnitudeText
  split
  · exact Numeral.isUnsigned_toString _
  · exact DecimalStyle.isUnsigned_layout ..

/-- A whole number other than zero is not cut to zero. -/
theorem wholeMagnitude_ne_zero {significand : Nat} {exponent : Int} (nonzero : significand ≠ 0)
    (whole : 0 ≤ exponent ∨ significand % 2 ^ (-exponent).toNat = 0) :
    wholeMagnitude significand exponent ≠ 0 := by
  unfold wholeMagnitude
  by_cases scaled : 0 ≤ exponent
  · simp only [scaled, ↓reduceIte]
    exact Nat.mul_ne_zero nonzero (Nat.ne_of_gt (Nat.two_pow_pos _))
  · have divides := Nat.dvd_of_mod_eq_zero (whole.resolve_left scaled)
    have small := Nat.le_of_dvd (Nat.pos_of_ne_zero nonzero) divides
    have positive := Nat.div_pos small (Nat.two_pow_pos _)
    simp only [scaled, ↓reduceIte]
    omega

theorem wholeMagnitude_zero (exponent : Int) : wholeMagnitude 0 exponent = 0 := by
  simp [wholeMagnitude]

end Binary64

namespace Gen

open Binary64

/-- The literal of a finite number is that of its magnitude, behind a minus sign when the number
lies below zero. A zero has no sign. -/
theorem numberLiteral_finite (negative : Bool) (significand : Nat) (exponent : Int)
    (canonical : IsCanonical significand exponent) :
    numberLiteral (.finite negative significand exponent canonical) =
      if negative ∧ significand ≠ 0 then ⟨"-" ++ magnitudeText significand exponent, .unarySign⟩
      else ⟨magnitudeText significand exponent, .atomic⟩ := by
  by_cases whole : 0 ≤ exponent ∨ significand % 2 ^ (-exponent).toNat = 0
  · have isWhole : isWhole (.finite negative significand exponent canonical) = true := by
      simpa [Binary64.isWhole] using whole
    simp only [numberLiteral, isWhole, truncated, magnitudeText, whole, isNegative, ↓reduceIte,
      Option.getD_some]
    cases negative with
    | false => simp only [Bool.false_eq_true, false_and, ↓reduceIte, Bool.false_and]; rfl
    | true =>
        by_cases zero : significand = 0
        · simp only [zero, wholeMagnitude_zero, ne_eq, not_true_eq_false, and_false, ↓reduceIte]
          rfl
        · simp [zero, Numeral.toString_neg (wholeMagnitude_ne_zero zero whole)]
  · have nonzero : significand ≠ 0 := by
      rintro rfl
      simp at whole
    have isWhole : isWhole (.finite negative significand exponent canonical) = false := by
      simpa [Binary64.isWhole] using whole
    cases negative <;>
      simp [numberLiteral, isWhole, magnitudeText, whole, isNegative, nonzero, DecimalStyle.render]

variable {isName : String → Prop}

/-- The literal of any number belongs to the language, with the order it is given. -/
theorem code_numberLiteral (x : Binary64) :
    Code isName (.value (numberLiteral x).order) (numberLiteral x).code := by
  have conversion (text : String) (known : text ∈ labelTexts) :
      Code isName (.value .functionCall) ("float" ++ "(" ++ ("\"" ++ text ++ "\"") ++ ")") :=
    .call (.inr (by decide)) (.lastItem (.label known))
  cases x with
  | nan => exact conversion "nan" (by decide)
  | infinite negative =>
      cases negative with
      | false => exact conversion "inf" (by decide)
      | true => exact .negative (conversion "inf" (by decide)) (by decide)
  | finite negative significand exponent canonical =>
      rw [numberLiteral_finite]
      have magnitude : Code isName (.value .atomic) (magnitudeText significand exponent) :=
        .numeral (isUnsigned_magnitudeText significand exponent)
      split
      · exact .negative magnitude (by decide)
      · exact magnitude

/-- The text of an integer belongs to the language. -/
theorem fits_toString (n : Int) : Fits isName .unarySign (toString n) := by
  obtain ⟨m, rfl | rfl⟩ := n.eq_nat_or_neg
  · exact ⟨.atomic, by decide, .numeral (Numeral.isUnsigned_toString m)⟩
  · by_cases zero : m = 0
    · subst zero
      exact ⟨.atomic, by decide, .numeral (Numeral.isUnsigned_toString 0)⟩
    · rw [Numeral.toString_neg zero]
      exact ⟨.unarySign, by decide,
        .negative (.numeral (Numeral.isUnsigned_toString m)) (by decide)⟩

end Gen

end BlockScript
