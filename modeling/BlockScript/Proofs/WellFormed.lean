import BlockScript.Proofs.Scanner

/-! # The orders of expressions can be relied on

The order that comes with the code of a block is a lower bound of the orders of the operators that
stand outside all brackets in it (`Setting.outcome_wellFormed`), so whoever puts the code into a
larger expression can rely on it. The code is not empty and has no control character in it, its
brackets are matched and its literals closed: no value that is written into a literal gets out of
it.
-/

namespace BlockScript

/-- The code of an expression that binds with an order at least. -/
structure WellFormed (code : String) (order : Order) : Prop where
  nonempty : code ≠ ""
  printable : ∀ c ∈ code.toList, 0x20 ≤ c.toNat ∧ c.toNat ≠ 0x7f
  binds : ∃ orders, Scanner.operators code = some orders ∧
    ∀ operator ∈ orders, order.rank ≤ operator.rank

open Text Scanner

/-- How the scanner reads a text of the language by its part in an expression: as an expression with
operators that bind tightly enough, or as something that has to stand in brackets. -/
def Role.Reads : Role → String → Prop
  | .value order, text =>
      ∃ orders, Passes True text orders ∧ ∀ operator ∈ orders, order.rank ≤ operator.rank
  | .items, text | .bound, text | .subscript, text => Passes False text []

namespace Code

theorem isOperand_of_isPlain {c : Char} (plain : Names.isPlain c = true) : isOperand c = true := by
  have apart : ∀ sign ∈ ' ' :: signs, Names.isPlain sign = false := by decide
  simp only [isOperand, Bool.and_eq_true, decide_eq_true_eq]
  refine ⟨fun sign => ?_, ?_⟩
  · simp [apart c (List.mem_cons_of_mem _ sign)] at plain
  · rintro rfl
    cases plain

theorem passes_calledFunction {function : String} (known : function ∈ calledFunctions) :
    Passes True function [] := by
  have all : ∀ function ∈ calledFunctions, IsWord function.toList ∨
      function = "random" ++ ("." ++ "random") ∨ function = "random" ++ ("." ++ "choice") := by
    decide
  have member {method : String} (word : IsWord method.toList) :
      Passes True ("random" ++ ("." ++ method)) [] := by
    have starts : Starts isNeutral "." := by decide
    have left : Passes True "random" [] := passes_word (by decide)
    exact left.append (closes_dot.append (passes_word word)) (starts.append method)
  rcases all function known with word | rfl | rfl
  · exact passes_word word
  · exact member (by decide)
  · exact member (by decide)

/-- **The scanner reads the language.** -/
theorem reads {role : Role} {text : String} (code : Code Names.IsName role text) :
    role.Reads text := by
  have quiet {order : Order} {text : String} (passes : Passes True text []) :
      Role.Reads (.value order) text := ⟨[], passes, fun _ member => nomatch member⟩
  have named {text : String} (named : Names.IsName text) : Passes True text [] :=
    passes_word (isWord_of_isName named)
  induction code with
  | name name => exact quiet (named name)
  | constant known =>
      have all : ∀ word ∈ constantWords, IsWord word.toList := by decide
      exact quiet (passes_word (all _ known))
  | numeral unsigned => exact quiet (passes_numeral unsigned)
  | quoted text => exact quiet (passes_quoted text)
  | label known => exact quiet (passes_label known)
  | grouped _ inside =>
      obtain ⟨_, passes, _⟩ := inside
      exact quiet passes.inside.inParentheses
  | display _ inside => exact quiet (Passes.inBrackets inside)
  | comprehension _ name _ element source =>
      obtain ⟨_, elementPasses, _⟩ := element
      obtain ⟨_, sourcePasses, _⟩ := source
      have inside := (elementPasses.inside.separate (show " for " ∈ _ by decide)
        (named name).inside).separate (show " in " ∈ _ by decide) sourcePasses.inside
      apply quiet
      simpa only [String.append_assoc] using inside.inBrackets
  | maxsize =>
      have left : Passes True "sys" [] := passes_word (by decide)
      have right : Passes True ("." ++ "maxsize") [] := closes_dot.append (passes_word (by decide))
      exact quiet (left.append right (by decide))
  | call known _ inside =>
      have function := known.elim named passes_calledFunction
      exact quiet (function.withArguments inside)
  | method _ tight known _ receiver inside =>
      obtain ⟨orders, passes, enough⟩ := receiver
      have words : ∀ method ∈ calledMethods, IsWord method.toList := by decide
      have dot : Starts isNeutral "." := by decide
      have called := passes.append (closes_dot.append (passes_word (words _ known)))
        (dot.append _)
      refine ⟨orders, ?_, fun operator member => Int.le_trans tight (enough operator member)⟩
      simpa only [String.append_assoc, List.append_nil] using called.withArguments inside
  | element _ tight _ receiver inside =>
      obtain ⟨orders, passes, enough⟩ := receiver
      refine ⟨orders, passes.withSubscript inside, fun operator member => ?_⟩
      exact Int.le_trans tight (enough operator member)
  | negative code tight operand =>
      obtain ⟨orders, passes, enough⟩ := operand
      -- What follows the minus must start an operand, or the scanner would take it for a difference.
      have starts : Starts isOperand _ := code.starts (fun _ named => named.1)
        (fun _ => isOperand_of_isPlain) (by decide) (.inl tight)
      refine ⟨_, passes.negative starts, List.forall_mem_cons.mpr ⟨Int.le_refl _, ?_⟩⟩
      have loose : Order.unarySign.rank ≤ Order.member.rank := by decide
      exact fun operator member => Int.le_trans loose (Int.le_trans tight (enough operator member))
  | operation known _ leftTight _ rightTight left right =>
      obtain ⟨before, leftPasses, leftEnough⟩ := left
      obtain ⟨after, rightPasses, rightEnough⟩ := right
      have starts : Starts isNeutral " " := by decide
      refine ⟨_, leftPasses.separated (closes_operator known) ((starts.append _).append _)
        rightPasses, ?_⟩
      intro operator member
      rcases List.mem_append.mp member with member | member
      · exact Int.le_trans leftTight (leftEnough operator member)
      · rcases List.mem_cons.mp member with rfl | member
        · exact Int.le_refl _
        · exact Int.le_trans rightTight (rightEnough operator member)
  | negation _ tight operand =>
      obtain ⟨orders, passes, enough⟩ := operand
      refine ⟨_, closes_not.append passes, List.forall_mem_cons.mpr ⟨Int.le_refl _, ?_⟩⟩
      exact fun operator member => Int.le_trans tight (enough operator member)
  | noItem => exact passes_empty
  | lastItem _ item =>
      obtain ⟨_, passes, _⟩ := item
      exact passes.inside
  | item _ _ first others =>
      obtain ⟨_, passes, _⟩ := first
      exact passes.inside.separate (by decide) others
  | openBound => exact passes_empty
  | bound _ inside =>
      obtain ⟨_, passes, _⟩ := inside
      exact passes.inside
  | position _ inside =>
      obtain ⟨_, passes, _⟩ := inside
      exact passes.inside
  | slice _ _ first last => exact Passes.separate first (by decide) last
  | backwards =>
      intro blank opened found inside
      obtain ⟨bracket, rest, rfl⟩ := List.exists_cons_of_ne_nil inside
      exact ⟨.word ['1'], .word rfl, rfl⟩

/-- An expression of the language binds with its order at least. -/
theorem wellFormed {order : Order} {text : String} (code : Code Names.IsName (.value order) text) :
    WellFormed text order := by
  have identifiers (text : String) (named : Names.IsName text) : Names.IsIdentifier text := named.1
  refine ⟨code.ne_empty identifiers, fun c member => ?_, ?_⟩
  · have visible := code.printable identifiers c member
    simp only [Text.isControl, Bool.or_eq_false_iff, decide_eq_false_iff_not,
      beq_eq_false_iff_ne] at visible
    exact ⟨Nat.le_of_not_lt visible.1, visible.2⟩
  · obtain ⟨orders, passes, enough⟩ := code.reads
    obtain ⟨mode, settled, read⟩ := passes false [] [] fun _ => trivial
    refine ⟨orders, ?_, enough⟩
    simp only [List.nil_append, List.isEmpty_nil, ↓reduceIte] at read
    simp only [operators, start, read, Option.bind_some]
    cases settled with
    | between blank => rfl
    | word quiet => simp [finish, quiet]

end Code

/-- **The order of an expression is a lower bound.** In every pass that occurs, whatever block is
asked for, at any depth and with any blocks active: if it comes to an expression, then the code is
not empty and has no control character in it; its literals are closed, its brackets are matched, no
comma or colon stands outside them, and every operator that does binds at least as tightly as the
order says. -/
theorem Setting.outcome_wellFormed {n : Nat} {setting : Setting n} {pass after : Pass n}
    (reached : setting.Reached pass) {depth : Nat} {ref : Fin n} {value : Expression}
    (ran : (setting.outcome depth ref).run.run pass = (.ok (.expression value), after)) :
    WellFormed value.code value.order := by
  have inserts : setting.Inserts fun _ => True := fun _ _ _ => trivial
  obtain ⟨_, proper⟩ := setting.outcome_keeps_legal inserts depth ref pass (reached.legal inserts)
  have code : Code Names.IsName (.value value.order) value.code :=
    proper (.expression value) (by rw [ran])
  exact code.wellFormed

/-- A sum of a text with a comma in it and a product of a negative number. -/
def Setting.sumSample : Setting 5 :=
  .ofBlocks #v[
    .ofKind .arithmetic [("OP", .text "ADD")] [(.text "A", some 1), (.text "B", some 2)],
    .ofKind .text [("TEXT", .text "a, b")] [],
    .ofKind .arithmetic [("OP", .text "MULTIPLY")] [(.text "A", some 3), (.text "B", some 4)],
    .ofKind .number [("NUM", .int (-1))] [],
    .ofKind .number [("NUM", .int 2)] []] [0]

theorem Setting.outcome_wellFormed_sumSample :
    sumSample.Reached (Pass.start Names.start) ∧
      (∃ after, (sumSample.outcome 5 0).run.run (Pass.start Names.start) =
        (.ok (.expression ⟨"'a, b' + -1 * 2", .additive⟩), after)) ∧
      WellFormed "'a, b' + -1 * 2" .additive := by
  have computed : ((sumSample.outcome 5 0).run.run (Pass.start Names.start)).1.toOption =
      some (.expression ⟨"'a, b' + -1 * 2", .additive⟩) := by decide +kernel
  have ran := Step.eq_ok_of_toOption computed
  exact ⟨.start, ⟨_, ran⟩, outcome_wellFormed .start ran⟩

end BlockScript
