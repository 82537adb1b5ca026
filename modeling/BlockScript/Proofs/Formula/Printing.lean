import BlockScript.Proofs.Formula.Tree

/-! # The code of a tree means the tree

The code of a tree of operations is a formula that regroups to the formula of the tree
(`OperationTree.plugs`), so parsing the code yields that formula up to regrouping
(`Formula.Stands.parse?_eq`). The orders that operations require of their operands are those of the
levels of the grammar.
-/

namespace BlockScript

namespace Formula

/-! ## Operations -/

variable {level : Level} {operator : String} {first second : List Token} {left right : Term}

/-- A comparison of two sums. -/
theorem grouped_comparison {leftParsed rightParsed : Term}
    (known : operator ∈ Level.comparison.operators) (leftReads : Reads .sum first leftParsed)
    (leftSame : Regroup leftParsed left) (rightReads : Reads .sum second rightParsed)
    (rightSame : Regroup rightParsed right) :
    Grouped .comparison (first ++ .ofOperator operator :: second) (.binary operator left right) :=
  .linked (by decide)
    (Links.join (show Links .comparison first leftParsed [] from Reads.single leftReads) known
      (Reads.single rightReads))
    (.binary leftSame rightSame)

/-- Two linked operands. -/
theorem grouped_linked (linked : level.IsLinked) (plain : level ≠ .comparison)
    (known : operator ∈ level.operators) {leftFirst rightFirst : Term}
    {leftOthers rightOthers : List (String × Term)}
    (leftLinks : Links level first leftFirst leftOthers)
    (leftSame : Regroup (level.combine leftFirst leftOthers) left)
    (rightLinks : Links level second rightFirst rightOthers)
    (rightSame : Regroup (level.combine rightFirst rightOthers) right)
    (moves : ∀ next ∈ rightOthers, (operator, next.1) ∈ regroupings) :
    Grouped level (first ++ .ofOperator operator :: second) (.binary operator left right) :=
  .linked linked (leftLinks.join known rightLinks)
    ((regroup_join plain moves).trans (.binary leftSame rightSame))

/-- The level that an operation demands of its left operand. -/
def leftLevel (operation : Operation) : Level :=
  match operation with
  | .power => .atom
  | _ => if operation.level = .comparison then .sum else operation.level

/-- The level that an operation demands of its right operand. -/
def rightLevel (operation : Operation) : Level :=
  match operation with
  | .subtract | .divide => operation.level.below
  | _ => if operation.level = .comparison then .sum else operation.level

theorem demands_left (operation : Operation) :
    Demands operation.leftOrder (leftLevel operation) := by
  intro other
  cases operation <;> cases other <;> decide

theorem demands_right (operation : Operation) :
    Demands operation.rightOrder (rightLevel operation) := by
  intro other
  cases operation <;> cases other <;> decide

theorem default_mem (operation : Operation) (bothMissing : Bool) :
    operation.default bothMissing ∈ ["0", "True", "False"] := by
  cases operation <;> cases bothMissing <;> decide

theorem symbol_mem (operation : Operation) : operation.symbol ∈ operation.level.operators := by
  cases operation <;> decide

variable {leftPlugged rightPlugged : Option Expression} {leftMeant rightMeant : Option Term}

theorem Plugs.isNone_eq (plugs : Plugs leftPlugged leftMeant) :
    leftPlugged.isNone = leftMeant.isNone := by
  cases leftPlugged <;> cases leftMeant <;> first | rfl | cases plugs

/-- **The code of an operation stands for the operation,** when the code of its operands stands for
them. -/
theorem stands_operation (operation : Operation) (leftPlugs : Plugs leftPlugged leftMeant)
    (rightPlugs : Plugs rightPlugged rightMeant) :
    Stands (OperationTree.operationCode operation leftPlugged rightPlugged)
      (OperationTree.operationTerm operation leftMeant rightMeant) := by
  unfold OperationTree.operationCode OperationTree.operationTerm
  rw [leftPlugs.isNone_eq, rightPlugs.isNone_eq]
  generalize filled : operation.default (leftMeant.isNone && rightMeant.isNone) = default
  have known : default ∈ ["0", "True", "False"] := filled ▸ default_mem ..
  obtain ⟨leftOwn, first, leftFits, leftLexes, leftGrouped⟩ :=
    leftPlugs.grouped (demands_left operation) known
  obtain ⟨rightOwn, second, rightFits, rightLexes, rightGrouped⟩ :=
    rightPlugs.grouped (demands_right operation) known
  refine ⟨operation.level, _, rfl, leftLexes.binary rightLexes (symbol_mem operation), ?_⟩
  obtain ⟨leftParsed, leftReads, leftSame⟩ := leftGrouped.reads
  obtain ⟨rightParsed, rightReads, rightSame⟩ := rightGrouped.reads
  cases operation with
  | equal | unequal | less | lessOrEqual | greater | greaterOrEqual =>
    exact grouped_comparison (by decide) (leftReads.loosen .sum leftFits) leftSame
      (rightReads.loosen .sum rightFits) rightSame
  | power =>
    exact .plain (by decide)
      ((leftReads.loosen .atom leftFits).power (rightReads.loosen .power rightFits))
      (.binary leftSame rightSame)
  | subtract | divide =>
    -- The right operand is tighter than the level, so it is a link by itself.
    obtain ⟨_, _, leftLinks, leftSame⟩ := leftGrouped.links (by decide) leftFits
    exact grouped_linked (by decide) (by decide) (by decide) leftLinks leftSame
      (Reads.single (rightReads.loosen _ rightFits)) rightSame (by simp)
  | add | multiply | both | either =>
    obtain ⟨_, _, leftLinks, leftSame⟩ := leftGrouped.links (by decide) leftFits
    obtain ⟨_, _, rightLinks, rightSame⟩ := rightGrouped.links (by decide) rightFits
    refine grouped_linked (by decide) (by decide) (by decide) leftLinks leftSame rightLinks
      rightSame fun next member => ?_
    have moves := rightLinks.operator_mem next member
    revert moves
    generalize next.1 = operator
    revert operator
    decide

/-- The code of a negation stands for the negation. -/
theorem stands_negation (plugs : Plugs leftPlugged leftMeant) :
    Stands ⟨"not " ++ OperationTree.socketCode leftPlugged .logicalNot "True", .logicalNot⟩
      (.negation (leftMeant.getD (OperationTree.defaultTerm "True"))) := by
  have demands : Demands .logicalNot .inversion := by
    intro other
    cases other <;> decide
  have known : "True" ∈ ["0", "True", "False"] := by decide
  obtain ⟨own, read, fits, lexes, grouped⟩ := plugs.grouped demands known
  obtain ⟨parsed, reads, same⟩ := grouped.reads
  exact ⟨.inversion, _, rfl, lexes.negation,
    .plain (by decide) (reads.loosen .inversion fits).negation (.negation same)⟩

/-- A word that is a formula by itself. -/
theorem stands_word {text : String} {term : Term} (identifier : Names.IsIdentifier text)
    (word : ofWord? text = some term) : Stands ⟨text, .atomic⟩ term :=
  ⟨.atom, _, rfl, lexes_word identifier, .plain (by decide) (reads_word word) (.refl _)⟩

/-- An identifier that may be used as a name is no keyword. -/
theorem ofWord?_of_isName {text : String} (isName : Names.IsName text) :
    ofWord? text = some (.name text) := by
  have reserved : ∀ word ∈ constants ++ keywords, word ∈ Names.reservedWords := by decide
  have notConstant : text ∉ constants := fun member =>
    isName.2 (reserved text (List.mem_append_left _ member))
  have notKeyword : text ∉ keywords := fun member =>
    isName.2 (reserved text (List.mem_append_right _ member))
  rw [ofWord?, if_neg notConstant, if_neg notKeyword]

/-! ## Numbers -/

/-- Digits alone are read as the whole number that they write. -/
theorem read?_toDigits (n : Nat) : Numeric.read? (Nat.toDigits 10 n) = some (.whole n) := by
  have digits : (Nat.toDigits 10 n).all Char.isDigit = true :=
    List.all_eq_true.mpr (Numeral.isDigits_toDigits n).2
  have leading : ¬ ((Nat.toDigits 10 n).head? = some '0' ∧
      ¬ (Nat.toDigits 10 n).all (· = '0') = true) := by
    by_cases zero : n = 0
    · subst zero
      decide
    · exact fun both => Numeral.head?_toDigits zero both.1
  rw [Numeric.read?, if_pos digits, if_neg leading, Numeral.ofDigits_toDigits]

open Binary64 in
/-- **The literal of a magnitude is read as the number,** whole or not. -/
theorem read?_magnitudeText {significand : Nat} {exponent : Int}
    (canonical : IsCanonical significand exponent) :
    Numeric.read? (magnitudeText significand exponent).toList =
      some (.ofNumber (.finite false significand exponent canonical)) := by
  by_cases whole : 0 ≤ exponent ∨ significand % 2 ^ (-exponent).toNat = 0
  · have isWhole : isWhole (.finite false significand exponent canonical) = true := by
      simpa [Binary64.isWhole] using whole
    rw [magnitudeText, if_pos whole, Numeral.toList_toString, read?_toDigits, Numeric.ofNumber,
      if_pos isWhole]
    rfl
  · have isWhole : ¬ isWhole (.finite false significand exponent canonical) = true := by
      simpa [Binary64.isWhole] using whole
    have positive : 0 < significand := by
      refine Nat.pos_of_ne_zero ?_
      rintro rfl
      simp at whole
    obtain ⟨digits, power, read, same⟩ := decimal?_magnitudeText canonical positive
    have notDigits : ¬ (magnitudeText significand exponent).toList.all Char.isDigit = true := by
      rw [magnitudeText, if_neg whole, DecimalStyle.layout_not_digits]
      decide
    rw [Numeric.read?, if_neg notDigits, read, Numeric.ofNumber, if_neg isWhole]
    simp [same]

/-- The number with the other sign. -/
theorem negated_ofNumber {significand : Nat} {exponent : Int}
    (canonical : Binary64.IsCanonical significand exponent) :
    (Numeric.ofNumber (.finite false significand exponent canonical)).negated =
      .ofNumber (.finite true significand exponent canonical) := by
  have same : Binary64.isWhole (.finite true significand exponent canonical) =
      Binary64.isWhole (.finite false significand exponent canonical) := rfl
  unfold Numeric.ofNumber
  rw [same]
  split
  · simp [Binary64.truncated, Numeric.negated]
  · simp [Numeric.negated]

/-- Zero is the same whole number with either sign. -/
theorem ofNumber_zero (negative : Bool) {exponent : Int}
    (canonical : Binary64.IsCanonical 0 exponent) :
    Numeric.ofNumber (.finite negative 0 exponent canonical) =
      .ofNumber (.finite false 0 exponent canonical) := by
  cases negative with
  | false => rfl
  | true =>
    simp [Numeric.ofNumber, Binary64.isWhole, Binary64.truncated, Binary64.wholeMagnitude_zero]

/-- The code of a finite number stands for the number. -/
theorem stands_number (negative : Bool) {significand : Nat} {exponent : Int}
    (canonical : Binary64.IsCanonical significand exponent) :
    Stands (Gen.numberLiteral (.finite negative significand exponent canonical))
      (.number (.ofNumber (.finite negative significand exponent canonical))) := by
  have literal := Binary64.isUnsigned_magnitudeText significand exponent
  have lexes := lexes_numeral literal
  have reads := reads_numeral (read?_magnitudeText canonical)
  rw [Gen.numberLiteral_finite]
  split
  · next below =>
    obtain ⟨rfl, -⟩ := below
    rw [← negated_ofNumber]
    exact ⟨.factor, _, rfl, .minus literal lexes, .plain (by decide) reads.minus (.refl _)⟩
  · next unsigned =>
    have same : Numeric.ofNumber (.finite negative significand exponent canonical) =
        .ofNumber (.finite false significand exponent canonical) := by
      by_cases zero : significand = 0
      · subst zero
        exact ofNumber_zero negative canonical
      · have positive : negative = false := by simpa [zero] using unsigned
        rw [positive]
    rw [same]
    exact ⟨.atom, _, rfl, lexes, .plain (by decide) reads (.refl _)⟩

/-- Code that stands for a formula is parsed as that formula, up to regrouping. -/
theorem Stands.parse?_eq {value : Expression} {term : Term} (stands : Stands value term) :
    ∃ parsed, parse? value.code = some parsed ∧ Regroup parsed term := by
  obtain ⟨level, read, -, lexes, grouped⟩ := stands
  obtain ⟨parsed, reads, same⟩ := grouped.reads
  have whole := lexes [] boundary_nil
  have all := reads.loosen .disjunction (by cases level <;> decide) _ [] (Nat.le_refl _)
    (stops_nil _)
  simp only [List.append_nil, tokens, Reading.finished, Option.map_some] at whole all
  exact ⟨parsed, by simp [parse?, whole, all], same⟩

end Formula

namespace OperationTree

open Formula

/-- **The code of a tree stands for the formula of the tree,** when variables have names. -/
theorem plugs {spell : Value → String} :
    ∀ tree : OperationTree, (∀ name ∈ tree.variableNames, Names.IsName (spell name)) →
      Plugs (tree.print spell) (tree.term? spell)
  | .unplugged, _ => trivial
  | .reference name, named => by
    have isName := named name (List.mem_singleton.mpr rfl)
    exact stands_word isName.1 (ofWord?_of_isName isName)
  | .number negative _ _ canonical, _ => stands_number negative canonical
  | .truth true, _ => stands_word ⟨'T', ['r', 'u', 'e'], rfl, rfl, rfl, by decide⟩ (by decide)
  | .truth false, _ =>
    stands_word ⟨'F', ['a', 'l', 's', 'e'], rfl, rfl, rfl, by decide⟩ (by decide)
  | .null, _ => stands_word ⟨'N', ['o', 'n', 'e'], rfl, rfl, rfl, by decide⟩ (by decide)
  | .binary operation left right, named =>
    stands_operation operation
      (left.plugs fun name member => named name (List.mem_append_left _ member))
      (right.plugs fun name member => named name (List.mem_append_right _ member))
  | .negation operand, named => stands_negation (operand.plugs named)

theorem unchained_getD {meant : Option Term} (unchained : ∀ term ∈ meant, term.Unchained)
    (default : String) : (meant.getD (defaultTerm default)).Unchained := by
  cases meant with
  | none =>
    unfold defaultTerm
    rw [Option.getD_none]
    split <;> trivial
  | some term => exact unchained term rfl

/-- The formula of a tree has no chain of comparisons. -/
theorem unchained (spell : Value → String) (tree : OperationTree) :
    ∀ term ∈ tree.term? spell, term.Unchained := by
  induction tree with
  | unplugged => exact fun _ meant => nomatch meant
  | reference | number | truth | null =>
    rintro _ ⟨⟩
    trivial
  | binary operation left right left_ih right_ih =>
    rintro _ ⟨⟩
    exact ⟨unchained_getD left_ih _, unchained_getD right_ih _⟩
  | negation operand ih =>
    rintro _ ⟨⟩
    exact unchained_getD ih _

end OperationTree

end BlockScript
