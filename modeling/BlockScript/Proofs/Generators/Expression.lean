import BlockScript.Proofs.Generators.Socket

/-! # Expressions and control flow belong to the language -/

namespace BlockScript

namespace Gen

variable {n : Nat} {isName isInsert : String → Prop} {setting : Setting n} {block : Block n}

/-- A number is a literal, or a conversion when it is not finite. -/
theorem makes_number : MakesCode isName isInsert (number setting block) := by
  unfold number
  split
  · exact code_numberLiteral _
  · exact .fail _
  · exact .unhandled ..

/-- An arithmetic operator asks its operands to bind at least as tightly as it does. -/
theorem arithmeticOperator_sound {name : String} {operator : Operator}
    (listed : (name, operator) ∈ arithmeticOperators) :
    ∃ symbol, (symbol, operator.order) ∈ binaryOperators ∧
      operator.code = " " ++ symbol ++ " " ∧
      operator.order.rank ≤ operator.left.rank ∧ operator.order.rank ≤ operator.right.rank ∧
      operator.left.rank ≤ Order.atomic.rank ∧ operator.right.rank ≤ Order.atomic.rank := by
  simp only [arithmeticOperators, List.mem_cons, Prod.mk.injEq, List.not_mem_nil, or_false]
    at listed
  rcases listed with ⟨_, rfl⟩ | ⟨_, rfl⟩ | ⟨_, rfl⟩ | ⟨_, rfl⟩ | ⟨_, rfl⟩
  · exact ⟨"+", by decide⟩
  · exact ⟨"-", by decide⟩
  · exact ⟨"*", by decide⟩
  · exact ⟨"/", by decide⟩
  · exact ⟨"**", by decide⟩

/-- An arithmetic operation binds its operands as its operator says. -/
theorem makes_arithmetic : MakesCode isName isInsert (arithmetic setting block) := by
  unfold arithmetic
  refine .bind (ensures_choice ..) fun found listed => ?_
  cases found with
  | none => exact .unhandled ..
  | some operator =>
      obtain ⟨name, member⟩ := listed operator rfl
      obtain ⟨symbol, known, spelled, left, right, leftPossible, rightPossible⟩ :=
        arithmeticOperator_sound member
      refine .bind (ensures_value leftPossible (fits_natural 0 leftPossible)) fun a fitsLeft => ?_
      refine .bind (ensures_value rightPossible (fits_natural 0 rightPossible))
        fun b fitsRight => ?_
      apply makes_expression
      rw [spelled]
      exact (fitsLeft.mono left).operation symbol known (fitsRight.mono right)

/-- The symbols of comparisons are operators. -/
theorem comparisonOperator_sound {name symbol : String}
    (listed : (name, symbol) ∈ comparisonOperators) :
    (symbol, Order.relational) ∈ binaryOperators := by
  simp only [comparisonOperators, List.mem_cons, Prod.mk.injEq, List.not_mem_nil, or_false]
    at listed
  rcases listed with ⟨_, rfl⟩ | ⟨_, rfl⟩ | ⟨_, rfl⟩ | ⟨_, rfl⟩ | ⟨_, rfl⟩ | ⟨_, rfl⟩ <;> decide

/-- A comparison binds its operands more tightly than itself. -/
theorem makes_comparison : MakesCode isName isInsert (comparison setting block) := by
  unfold comparison
  refine .bind (ensures_choice ..) fun found listed => ?_
  cases found with
  | none => exact .unhandled ..
  | some symbol =>
      obtain ⟨name, member⟩ := listed symbol rfl
      refine .bind (ensures_value (by decide) (fits_natural 0 (by decide))) fun a left => ?_
      refine .bind (ensures_value (by decide) (fits_natural 0 (by decide))) fun b right => ?_
      have compared := (left.mono (by decide)).operation symbol (comparisonOperator_sound member)
        (right.mono (by decide))
      simpa only [String.append_assoc] using makes_expression compared

/-- The words of connections are operators, and their defaults are constants. -/
theorem connective_sound {op : Value} {connective : Connective}
    (found : connective? op = some connective) :
    (connective.word, connective.order) ∈ binaryOperators ∧
      connective.order.rank ≤ Order.atomic.rank ∧ connective.default ∈ constantWords := by
  unfold connective? at found
  split at found
  · cases found
    decide
  · split at found
    · cases found
      decide
    · cases found

/-- An operand that is missing is replaced by one that fits. -/
theorem fits_orIfEmpty {order : Order} {text default : String}
    (either : text = "" ∨ Fits isName order text) (fits : Fits isName order default) :
    Fits isName order (orIfEmpty text default) := by
  unfold orIfEmpty
  by_cases none : text = ""
  · simpa [none] using fits
  · simpa [none] using either.resolve_left none

/-- A connection binds its operands as its word says. -/
theorem makes_connection : MakesCode isName isInsert (connection setting block) := by
  unfold connection
  dsimp only
  split
  · exact .unhandled ..
  · rename_i connective found
    obtain ⟨known, possible, word⟩ := connective_sound found
    refine .bind (ensures_value_if possible) fun a left => ?_
    refine .bind (ensures_value_if possible) fun b right => ?_
    have default : Fits isName connective.order
        (if a.isEmpty && b.isEmpty then "False" else connective.default) := by
      split
      · exact fits_constant (by decide) possible
      · exact fits_constant word possible
    have connected := (fits_orIfEmpty left default).operation connective.word known
      (fits_orIfEmpty right default)
    simpa only [String.append_assoc] using makes_expression connected

/-- A negation binds its operand. -/
theorem makes_negation : MakesCode isName isInsert (negation setting block) := by
  unfold negation
  refine .bind (ensures_value (by decide) (fits_constant (by decide) (by decide)))
    fun operand fits => ?_
  exact makes_expression fits.negation

/-- A truth value is a constant. -/
theorem makes_truth : MakesCode isName isInsert (truth setting block) := by
  refine makes_expression (.constant ?_)
  split <;> decide

theorem makes_null : MakesCode isName isInsert (null setting block) :=
  makes_expression (.constant (by decide))

/-- A variable is a name. -/
theorem makes_getVariable : MakesCode isName isInsert (getVariable setting block) := by
  unfold getVariable
  exact .bind (ensures_variableName _) fun name named => makes_expression (.name named)

/-- An assignment is a statement. -/
theorem makes_setVariable : MakesCode isName isInsert (setVariable setting block) := by
  unfold setVariable
  refine .bind (ensures_value (by decide) (fits_natural 0 (by decide)))
    fun assigned ⟨_, _, code⟩ => ?_
  refine .bind (ensures_variableName _) fun name named => ?_
  exact makes_line (.line (.assignment (.name named) code))

/-! ## Branches and loops -/

/-- A branch of a conditional statement. -/
theorem ensures_branch (number : Nat) :
    (branch setting block number).Ensures (codeContract n isName isInsert)
      (Suite isName isInsert .outer) := by
  unfold branch
  refine .bind (ensures_value (by decide) (fits_constant (by decide) (by decide)))
    fun condition ⟨_, _, code⟩ => ?_
  refine .bind (ensures_statements _) fun body suite => ?_
  obtain ⟨inside, nonempty⟩ := suite.orPass
  have headed (word : String) (known : word ∈ conditionWords) :
      Suite isName isInsert .outer (word ++ " " ++ condition ++ ":\n" ++ orIfEmpty body passLine) :=
    .compound (.condition known code) inside nonempty
  by_cases first : number = 0
  · simp only [first, ↓reduceIte]
    exact headed "if" (by decide)
  · simp only [first, ↓reduceIte]
    exact headed "elif" (by decide)

/-- What is done otherwise is a suite, or nothing. -/
theorem ensures_otherwise :
    (otherwise setting block).Ensures (codeContract n isName isInsert)
      (Suite isName isInsert .outer) := by
  unfold otherwise
  refine .ite ?_ (Suite.empty _)
  refine .bind (ensures_statements _) fun body suite => ?_
  obtain ⟨inside, nonempty⟩ := suite.orPass
  exact Suite.compound .otherwise inside nonempty

/-- A conditional is made of its branches. -/
theorem makes_conditional : MakesCode isName isInsert (conditional setting block) := by
  unfold conditional
  refine .bind (.lift fun _ _ => trivial) fun further _ => ?_
  refine .bind (.each fun number _ => ensures_branch number) fun branches suites => ?_
  exact .bind ensures_otherwise fun last suite => makes_line (.append (.join suites) suite)

/-- The condition of a loop needs no parentheses. -/
theorem ensures_loopCondition :
    (loopCondition setting block).Ensures (codeContract n isName isInsert)
      (Fits isName .none) := by
  unfold loopCondition
  refine .ite ?_ (.ite ?_ (.unhandled ..))
  · exact ensures_value (by decide) (fits_constant (by decide) (by decide))
  · refine .bind (ensures_value (by decide) (fits_constant (by decide) (by decide)))
      fun condition fits => ?_
    exact fits.negation.fits (by decide)

/-- A conditional loop is a header and a body. -/
theorem makes_conditionalLoop (inserts : setting.Inserts isInsert) :
    MakesCode isName isInsert (conditionalLoop setting block) := by
  unfold conditionalLoop
  refine .bind ensures_loopCondition fun condition ⟨_, _, code⟩ => ?_
  refine .bind (ensures_loopBody inserts _) fun body ⟨inside, nonempty⟩ => ?_
  have header : Header isName ("while" ++ " " ++ condition) := .condition (by decide) code
  exact makes_line (.compound header inside nonempty)

/-- Neither does the number of rounds. -/
theorem ensures_rounds :
    (rounds setting block).Ensures (codeContract n isName isInsert) (Fits isName .none) := by
  unfold rounds
  refine .ite ?_ (ensures_value (by decide) (fits_natural 0 (by decide)))
  dsimp only
  split
  · exact (fits_toString _).mono (by decide)
  · exact .unhandled ..

/-- A counted loop is a header with a range, and a body. -/
theorem makes_countedLoop (inserts : setting.Inserts isInsert) :
    MakesCode isName isInsert (countedLoop setting block) := by
  unfold countedLoop
  refine .bind ensures_rounds fun times fits => ?_
  refine .bind (ensures_distinctVariable _) fun counter named => ?_
  refine .bind (ensures_loopBody inserts _) fun body ⟨inside, nonempty⟩ => ?_
  have bound : Fits isName .none
      (if isIntegerLiteral times then times else "int(" ++ times ++ ")") := by
    split
    · exact fits
    · exact (fits.call "int" (by decide)).fits (by decide)
  have header := Header.loop named (bound.call "range" (by decide))
  apply makes_line
  have loop := Suite.compound header inside nonempty
  generalize (if isIntegerLiteral times then times else "int(" ++ times ++ ")") = code at loop ⊢
  have same : "for " ++ counter ++ " in range(" ++ code ++ "):\n" ++ body =
      "for " ++ counter ++ " in " ++ ("range" ++ "(" ++ code ++ ")") ++ ":\n" ++ body := by
    simp [← String.toList_inj]
  rwa [same]

/-- A loop over a list is a header with a name, and a body. -/
theorem makes_listLoop (inserts : setting.Inserts isInsert) :
    MakesCode isName isInsert (listLoop setting block) := by
  unfold listLoop
  refine .bind (ensures_variableName _) fun name named => ?_
  refine .bind (ensures_value (by decide) (fits_emptyList (by decide)))
    fun items ⟨_, _, code⟩ => ?_
  refine .bind (ensures_loopBody inserts _) fun body ⟨inside, nonempty⟩ => ?_
  exact makes_line (.compound (.loop named code) inside nonempty)

end Gen

end BlockScript
