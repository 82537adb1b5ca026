import BlockScript.Proofs.Generators.Collection

/-! # All blocks belong to the language

The generators of procedures, and with them those of all kinds: `Kind.makes_generate`.
-/

namespace BlockScript

namespace Gen

variable {n : Nat} {isName isInsert : String → Prop} {setting : Setting n} {block : Block n}

/-- The body of a definition belongs to the language, with what instrumentation puts on top. -/
theorem ensures_definitionBody (inserts : setting.Inserts isInsert) {body : String}
    (suite : Suite isName isInsert .inner body) :
    (lift (definitionBody setting block body)).Ensures (codeContract n isName isInsert)
      (Suite isName isInsert .inner) := by
  refine .lift fun whole made => ?_
  obtain ⟨opening, opened, further⟩ := Attempt.bind_eq_ok.mp made
  obtain ⟨trap, trapped, same⟩ := Attempt.bind_eq_ok.mp further
  cases same
  exact .append (.insertion (inserts block trap (.inl trapped)))
    (.append (.insertion (inserts block opening (.inr opened))) suite)

/-- The lines of a procedure after its globals are a body that is not empty, or end with a line that
answers. -/
theorem makes_definition (inserts : setting.Inserts isInsert) :
    MakesCode isName isInsert (definition setting block) := by
  unfold definition
  refine .bind (.lift fun _ _ => trivial) fun arguments _ => ?_
  refine .bind (.each fun name _ => ensures_variableName name) fun userGlobals globalsNamed => ?_
  refine .bind (ensures_procedureName _) fun name named => ?_
  refine .bind (ensures_statements _) fun stack suite => ?_
  refine .bind (ensures_definitionBody inserts suite) fun body inner => ?_
  refine .bind (ensures_value_if (by decide)) fun result answer => ?_
  refine .bind (.each fun name _ => ensures_variableName name) fun params paramsNamed => ?_
  refine .bind (?_ : Ensures _ (fun _ => True) _) fun _ _ => trivial
  refine ⟨?_, fun _ _ => trivial⟩
  by_cases none : result = ""
  · obtain ⟨inside, nonempty⟩ := inner.orPass
    refine ⟨named, paramsNamed, globalsNamed, ?_, ?_, ?_⟩
    · simpa [none] using inside
    · simpa [none] using Suite.empty _
    · simpa [none] using nonempty
  · obtain ⟨_, _, code⟩ := answer.resolve_left none
    have line : Suite isName isInsert .inner (Text.margin ++ ("return " ++ result) ++ "\n") :=
      .innerLine (.answer code)
    refine ⟨named, paramsNamed, globalsNamed, ?_, ?_, ?_⟩
    · simpa [none] using inner
    · simpa [none, String.append_assoc] using line
    · simp [none]

theorem ensures_call :
    (call setting block).Ensures (codeContract n isName isInsert)
      (Code isName (.value .functionCall)) := by
  unfold call
  refine .bind (ensures_procedureName _) fun name named => ?_
  refine .bind (.lift fun _ _ => trivial) fun arguments _ => ?_
  refine .bind (ensures_numbered (fits_none (by decide))) fun codes fits => ?_
  exact Code.call (.inl named) (Code.intercalate fits)

theorem makes_callForResult : MakesCode isName isInsert (callForResult setting block) := by
  unfold callForResult
  exact .bind ensures_call fun _ code => makes_expression code

theorem makes_callForEffect : MakesCode isName isInsert (callForEffect setting block) := by
  unfold callForEffect
  exact .bind ensures_call fun _ code => makes_line (.line (.expression code))

theorem makes_earlyReturn : MakesCode isName isInsert (earlyReturn setting block) := by
  unfold earlyReturn
  refine .bind (ensures_value (by decide) (fits_constant (by decide) (by decide)))
    fun condition ⟨_, _, code⟩ => ?_
  have guarded (last : String) (simple : Simple isName last) :
      Suite isName isInsert .outer
        ("if " ++ condition ++ ":\n" ++ (Text.margin ++ last ++ "\n")) := by
    have nonempty : Text.margin ++ last ++ "\n" ≠ "" := by simp
    have header : Header isName ("if" ++ " " ++ condition) := .condition (by decide) code
    exact .compound header (.innerLine simple) nonempty
  refine .ite ?_ (makes_line ?_)
  · refine .bind (ensures_value (by decide) (fits_none (by decide))) fun result ⟨_, _, answer⟩ => ?_
    have lines := guarded ("return " ++ result) (.answer answer)
    have same : "if " ++ condition ++ ":\n" ++ Text.margin ++ "return" ++ " " ++ result ++ "\n" =
        "if " ++ condition ++ ":\n" ++ (Text.margin ++ ("return " ++ result) ++ "\n") := by
      simp [← String.toList_inj]
    rw [same]
    exact makes_line lines
  · simpa only [String.append_assoc] using guarded "return" .leave

end Gen

/-- **Every block comes to code of the language.** The generators of all kinds, given that the
blocks they ask for come to code of the language. -/
theorem Kind.makes_generate {n : Nat} {isName isInsert : String → Prop} {setting : Setting n}
    (inserts : setting.Inserts isInsert) (kind : Kind) (block : Block n) :
    Gen.MakesCode isName isInsert (kind.generate setting block) := by
  unfold generate
  cases kind with
  | number => exact Gen.makes_number
  | arithmetic => exact Gen.makes_arithmetic
  | comparison => exact Gen.makes_comparison
  | connection => exact Gen.makes_connection
  | negation => exact Gen.makes_negation
  | truth => exact Gen.makes_truth
  | null => exact Gen.makes_null
  | getVariable => exact Gen.makes_getVariable
  | setVariable => exact Gen.makes_setVariable
  | conditional => exact Gen.makes_conditional
  | conditionalLoop => exact Gen.makes_conditionalLoop inserts
  | countedLoop => exact Gen.makes_countedLoop inserts
  | listLoop => exact Gen.makes_listLoop inserts
  | emptyList => exact Gen.makes_emptyList
  | listOf => exact Gen.makes_listOf
  | repeatedItem => exact Gen.makes_repeatedItem
  | listLength => exact Gen.makes_lengthOf (Gen.fits_emptyList (by decide))
  | listIsEmpty => exact Gen.makes_isEmpty (Gen.fits_emptyList (by decide))
  | listIndexOf => exact Gen.makes_listIndexOf
  | getIndex => exact Gen.makes_getIndex
  | setIndex => exact Gen.makes_setIndex
  | sublist => exact Gen.makes_part (Gen.fits_emptyList (by decide))
  | sorted => exact Gen.makes_sorted
  | split => exact Gen.makes_split
  | reversed => exact Gen.makes_reversed
  | text => exact Gen.makes_text
  | joined => exact Gen.makes_joined
  | append => exact Gen.makes_append
  | textLength => exact Gen.makes_lengthOf (Gen.fits_emptyText (by decide))
  | textIsEmpty => exact Gen.makes_isEmpty (Gen.fits_emptyText (by decide))
  | textIndexOf => exact Gen.makes_textIndexOf
  | letterAt => exact Gen.makes_letterAt
  | substring => exact Gen.makes_part (Gen.fits_emptyText (by decide))
  | changeCase => exact Gen.makes_chosenMethod Gen.bareCalls_caseMethods
  | trim => exact Gen.makes_chosenMethod Gen.bareCalls_trimMethods
  | print => exact Gen.makes_print
  | promptWithSocket => exact Gen.makes_prompt
  | prompt => exact Gen.makes_prompt
  | occurrences => exact Gen.makes_occurrences
  | replaced => exact Gen.makes_replaced
  | backwards => exact Gen.makes_backwards
  | defineWithResult => exact Gen.makes_definition inserts
  | defineWithoutResult => exact Gen.makes_definition inserts
  | callForResult => exact Gen.makes_callForResult
  | callForEffect => exact Gen.makes_callForEffect
  | earlyReturn => exact Gen.makes_earlyReturn

end BlockScript
