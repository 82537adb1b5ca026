import BlockScript.Proofs.Formula.Lexing

/-! # Formulas of a level

Tokens are read as a formula of a level (`Formula.Reads`) where no operator follows that the level
or a tighter one would take up. What reads on a level reads on every looser one
(`Formula.Reads.loosen`), and in parentheses it reads on every level. The operands of a level that
groups to the left are linked by its operators (`Formula.Links`): two links joined by an operator
are one longer link, which is where the grouping of the text departs from the grouping of the parts.
-/

namespace BlockScript

namespace Formula

/-- No operator of a level or of a tighter one comes next. -/
def Stops (level : Level) (rest : List Token) : Prop :=
  ∀ token ∈ rest.head?, ∀ other : Level, other.height ≤ level.height → token.operator? other = none

/-- Tokens that read as a formula of a level. -/
def Reads (level : Level) (read : List Token) (term : Term) : Prop :=
  ∀ fuel rest, stepsFor read.length level ≤ fuel → Stops level rest →
    formula fuel level (read ++ rest) = some (term, rest)

theorem stops_nil (level : Level) : Stops level [] := fun _ head => nomatch head

/-- What stops a formula stops a tighter one. -/
theorem Stops.mono {level tighter : Level} {rest : List Token} (stops : Stops level rest)
    (below : tighter.height ≤ level.height) : Stops tighter rest :=
  fun token head other lower => stops token head other (Nat.le_trans lower below)

/-- A closing parenthesis stops every formula. -/
theorem stops_close (level : Level) (rest : List Token) : Stops level (.sign ")" :: rest) := by
  rintro token ⟨⟩ other -
  cases other <;> decide

/-- An operator of a level belongs to no other. -/
theorem stops_operator {level : Level} {operator : String} (known : operator ∈ level.operators)
    (rest : List Token) : Stops level.below (.ofOperator operator :: rest) := by
  rintro token ⟨⟩ other lower
  have separate : ∀ level other : Level, other.height ≤ level.below.height →
      ∀ operator ∈ level.operators, (Token.ofOperator operator).operator? other = none := by
    intro level other
    cases level <;> cases other <;> decide
  exact separate level other lower operator known

/-- An operator is read as one of its level. -/
theorem operator?_ofOperator {level : Level} {operator : String}
    (known : operator ∈ level.operators) :
    (Token.ofOperator operator).operator? level = some operator := by
  unfold Token.ofOperator
  split <;> simp [Token.operator?, known]

/-! ## Looser levels -/

theorem formula_nil (fuel : Nat) (level : Level) : formula fuel level [] = none := by
  induction fuel generalizing level with
  | zero => rfl
  | succ fuel ih => cases level <;> simp [formula, ih]

/-- Without a negation, an inversion is a comparison. -/
theorem formula_inversion {token : Token} (other : token ≠ .word "not") (fuel : Nat)
    (rest : List Token) :
    formula (fuel + 1) .inversion (token :: rest) = formula fuel .comparison (token :: rest) := by
  rw [formula, if_neg other]

/-- Without a minus sign, a factor is a power. -/
theorem formula_factor {token : Token} (other : token ≠ .sign "-") (fuel : Nat)
    (rest : List Token) :
    formula (fuel + 1) .factor (token :: rest) = formula fuel .power (token :: rest) := by
  rw [formula, if_neg other]

/-- No formula tighter than a negation begins with one. -/
theorem formula_not (fuel : Nat) {level : Level} (tighter : level.height < Level.inversion.height)
    (rest : List Token) : formula fuel level (.word "not" :: rest) = none := by
  induction fuel generalizing level with
  | zero => rfl
  | succ fuel ih =>
    cases level with
    | disjunction | conjunction | inversion => exact absurd tighter (by decide)
    | comparison => simp [formula, Level.below, ih (show Level.sum.height < _ by decide)]
    | sum => simp [formula, Level.below, ih (show Level.product.height < _ by decide)]
    | product => simp [formula, Level.below, ih (show Level.factor.height < _ by decide)]
    | factor => simp [formula, ih (show Level.power.height < _ by decide)]
    | power => simp [formula, ih (show Level.atom.height < _ by decide)]
    | atom =>
      have none : ofWord? "not" = none := by decide
      simp [formula, none]

/-- No formula tighter than a sign begins with one. -/
theorem formula_minus (fuel : Nat) {level : Level} (tighter : level.height < Level.factor.height)
    (rest : List Token) : formula fuel level (.sign "-" :: rest) = none := by
  induction fuel generalizing level with
  | zero => rfl
  | succ fuel ih =>
    cases level with
    | power => simp [formula, ih (show Level.atom.height < _ by decide)]
    | atom => simp [formula]
    | _ => exact absurd tighter (by decide)

/-- The levels whose operands are linked by operators that group to the left. -/
abbrev Level.IsLinked (level : Level) : Prop :=
  level ∈ [Level.disjunction, .conjunction, .comparison, .sum, .product]

/-- A formula of a level with operators is a first operand and any others. -/
theorem formula_linked {level : Level} (linked : level.IsLinked) (fuel : Nat) (read : List Token) :
    formula (fuel + 1) level read = (do
      let (first, rest) ← formula fuel level.below read
      let (others, rest) ← operands fuel level rest
      return (level.combine first others, rest)) := by
  cases level with
  | inversion | factor | power | atom => exact absurd linked (by decide)
  | _ => rfl

/-- Where a formula stops, there are no more operands. -/
theorem operands_of_stops {level : Level} {rest : List Token} (stops : Stops level rest)
    (fuel : Nat) : operands (fuel + 1) level rest = some ([], rest) := by
  cases rest with
  | nil => rfl
  | cons token rest => simp [operands, stops token rfl level (Nat.le_refl _)]

theorem combine_nil (level : Level) (term : Term) : level.combine term [] = term := by
  cases level <;> rfl

theorem height_below_le (level : Level) : level.below.height ≤ level.height := by
  cases level <;> decide

/-- The levels differ by one in height. -/
theorem below_height {level : Level} (loose : level ≠ .atom) :
    level.height = level.below.height + 1 := by
  cases level with
  | atom => exact absurd rfl loose
  | _ => rfl

variable {level : Level} {read : List Token} {term : Term}

/-- What reads on a level reads on the next looser one. -/
theorem Reads.step (reads : Reads level.below read term) : Reads level read term := by
  intro fuel rest enough stops
  by_cases tightest : level = .atom
  · subst tightest
    exact reads fuel rest enough stops
  have heights := below_height tightest
  obtain ⟨fuel, rfl⟩ : ∃ less, fuel = less + 1 :=
    Nat.exists_eq_add_of_le' (by unfold stepsFor at enough; omega)
  have steps : stepsFor read.length level.below ≤ fuel := by
    unfold stepsFor at enough ⊢
    omega
  have inner := reads fuel rest steps (stops.mono (height_below_le level))
  have positive : 0 < level.below.height := by cases level <;> decide
  obtain ⟨less, rfl⟩ : ∃ less, fuel = less + 1 :=
    Nat.exists_eq_add_of_le' (by unfold stepsFor at steps; omega)
  by_cases linked : level.IsLinked
  · rw [formula_linked linked, inner]
    simp [operands_of_stops stops, combine_nil]
  cases level with
  | disjunction | conjunction | comparison | sum | product => exact absurd (by decide) linked
  | atom => exact absurd rfl tightest
  | power =>
    have noPower : rest.head? ≠ some (.sign "**") := by
      intro head
      exact absurd (stops (.sign "**") head .power (Nat.le_refl _)) (by decide)
    simp only [Level.below] at inner
    simp [formula, inner, noPower]
  | inversion =>
    cases together : read ++ rest with
    | nil =>
      rw [together, formula_nil] at inner
      cases inner
    | cons token more =>
      have first : token ≠ .word "not" := by
        -- No formula of a tighter level starts with `not`.
        rintro rfl
        rw [together, formula_not _ (by decide)] at inner
        cases inner
      rw [formula_inversion first, ← together]
      exact inner
  | factor =>
    cases together : read ++ rest with
    | nil =>
      rw [together, formula_nil] at inner
      cases inner
    | cons token more =>
      have first : token ≠ .sign "-" := by
        -- No formula of a tighter level starts with a minus sign.
        rintro rfl
        rw [together, formula_minus _ (by decide)] at inner
        cases inner
      rw [formula_factor first, ← together]
      exact inner

/-- What reads on a level reads on every looser one. -/
theorem Reads.loosen (reads : Reads level read term) (looser : Level)
    (above : level.height ≤ looser.height) : Reads looser read term := by
  induction height : looser.height generalizing looser with
  | zero => cases looser <;> cases height
  | succ n ih =>
    by_cases same : level.height = looser.height
    · have equal : level = looser := by
        revert same
        cases level <;> cases looser <;> decide
      exact equal ▸ reads
    · have loose : looser ≠ .atom := by
        rintro rfl
        cases level <;> simp [Level.height] at above same
      have heights := below_height loose
      exact (ih looser.below (by omega) (by omega)).step

/-! ## Formulas of the tight levels -/

/-- Steps enough leave one for the level itself. -/
theorem exists_steps {count fuel : Nat} (enough : stepsFor count level ≤ fuel) :
    ∃ less, fuel = less + 1 ∧ 10 * count + level.height ≤ less + 1 := by
  have positive : 0 < level.height := by cases level <;> decide
  unfold stepsFor at enough
  exact ⟨fuel - 1, by omega, by omega⟩

/-- A word is an atom. -/
theorem reads_word {text : String} (word : ofWord? text = some term) :
    Reads .atom [.word text] term := by
  intro fuel rest enough _
  obtain ⟨fuel, rfl, -⟩ := exists_steps enough
  simp [formula, word]

/-- So is a numeral. -/
theorem reads_numeral {chars : List Char} {value : Numeric}
    (literal : Numeric.read? chars = some value) :
    Reads .atom [.numeral chars] (.number value) := by
  intro fuel rest enough _
  obtain ⟨fuel, rfl, -⟩ := exists_steps enough
  simp [formula, literal]

/-- A formula of any level in parentheses. -/
theorem Reads.grouped (reads : Reads level read term) :
    Reads .atom (.sign "(" :: (read ++ [.sign ")"])) term := by
  intro fuel rest enough _
  obtain ⟨fuel, rfl, steps⟩ := exists_steps enough
  have inner := reads.loosen .disjunction (by cases level <;> decide) fuel
    (.sign ")" :: rest) (by
      simp only [List.length_cons, List.length_append, List.length_nil, Level.height] at steps
      simp only [stepsFor, Level.height]
      omega) (stops_close _ rest)
  simp [formula, inner]

/-- A negated formula. -/
theorem Reads.negation (reads : Reads .inversion read term) :
    Reads .inversion (.word "not" :: read) (.negation term) := by
  intro fuel rest enough stops
  obtain ⟨fuel, rfl, steps⟩ := exists_steps enough
  have inner := reads fuel rest (by
    simp only [List.length_cons] at steps
    unfold stepsFor
    omega) stops
  simp [formula, inner]

/-- A number literal behind a minus sign. -/
theorem Reads.minus {value : Numeric} (reads : Reads .atom read (.number value)) :
    Reads .factor (.sign "-" :: read) (.number value.negated) := by
  intro fuel rest enough stops
  obtain ⟨fuel, rfl, steps⟩ := exists_steps enough
  have inner := reads.loosen .factor (by decide) fuel rest (by
    simp only [List.length_cons] at steps
    unfold stepsFor
    omega) stops
  simp [formula, inner, negative]

/-- Signs bind no operator of their own. -/
theorem Stops.factor {rest : List Token} (stops : Stops .power rest) : Stops .factor rest := by
  intro token head other lower
  cases other with
  | factor => cases token <;> rfl
  | power | atom => exact stops token head _ (by decide)
  | _ => exact absurd lower (by decide)

/-- A power: its base is an atom, and it groups to the right. -/
theorem Reads.power {base exponent : Term} {first second : List Token}
    (baseReads : Reads .atom first base) (exponentReads : Reads .power second exponent) :
    Reads .power (first ++ .ofOperator "**" :: second) (.binary "**" base exponent) := by
  have known : "**" ∈ Level.power.operators := by decide
  have sign : Token.ofOperator "**" = .sign "**" := by decide
  intro fuel rest enough stops
  obtain ⟨fuel, rfl, steps⟩ := exists_steps enough
  simp only [List.length_append, List.length_cons, Level.height] at steps
  have atomRead := baseReads fuel (.ofOperator "**" :: (second ++ rest))
    (by simp only [stepsFor, Level.height]; omega) (stops_operator known _)
  have factorRead := exponentReads.loosen .factor (by decide) fuel rest
    (by simp only [stepsFor, Level.height]; omega) stops.factor
  rw [sign] at atomRead ⊢
  simp [formula, atomRead, factorRead]

/-! ## Linked operands -/

/-- Operators of a level, each with the operand behind it. -/
inductive Tail (level : Level) : List Token → List (String × Term) → Prop where
  | nil : Tail level [] []
  | cons {operator : String} {read rest : List Token} {term : Term}
      {others : List (String × Term)} :
      operator ∈ level.operators → Reads level.below read term → Tail level rest others →
        Tail level (.ofOperator operator :: (read ++ rest)) ((operator, term) :: others)

/-- An operand of a level with those that are linked to it. -/
def Links (level : Level) (read : List Token) (first : Term) (others : List (String × Term)) :
    Prop :=
  ∃ head tail, read = head ++ tail ∧ Reads level.below head first ∧ Tail level tail others

/-- Operands may follow each other. -/
theorem Tail.append {first second : List Token} {others more : List (String × Term)}
    (tail : Tail level first others) (next : Tail level second more) :
    Tail level (first ++ second) (others ++ more) := by
  induction tail with
  | nil => exact next
  | cons known reads _ ih =>
    rw [List.cons_append, List.cons_append, List.append_assoc]
    exact .cons known reads ih

/-- Operands stop the first one, if what follows stops them. -/
theorem Tail.stops {others : List (String × Term)} (tail : Tail level read others)
    {rest : List Token} (stops : Stops level rest) : Stops level.below (read ++ rest) := by
  cases tail with
  | nil => exact stops.mono (height_below_le level)
  | cons known => exact stops_operator known _

/-- Linked operands are read one after the other. -/
theorem Tail.operands_eq {others : List (String × Term)} (tail : Tail level read others)
    {fuel : Nat} {rest : List Token} (enough : 10 * read.length < fuel) (stops : Stops level rest) :
    operands fuel level (read ++ rest) = some (others, rest) := by
  induction tail generalizing fuel with
  | nil =>
    obtain ⟨fuel, rfl⟩ : ∃ less, fuel = less + 1 := Nat.exists_eq_add_of_le' (by omega)
    exact operands_of_stops stops fuel
  | @cons operator read more term others known reads tail ih =>
    obtain ⟨fuel, rfl⟩ : ∃ less, fuel = less + 1 := Nat.exists_eq_add_of_le' (by omega)
    simp only [List.length_cons, List.length_append] at enough
    have low : level.below.height ≤ 9 := by cases level <;> decide
    have operand := reads fuel (more ++ rest) (by unfold stepsFor; omega) (tail.stops stops)
    have remaining : operands fuel level (more ++ rest) = some (others, rest) := ih (by omega)
    simp [operands, operator?_ofOperator known, operand, remaining]

/-- A link reads as its operands, grouped to the left. -/
theorem Links.reads {first : Term} {others : List (String × Term)}
    (links : Links level read first others) (linked : level.IsLinked) :
    Reads level read (level.combine first others) := by
  obtain ⟨head, tail, rfl, headReads, tailed⟩ := links
  intro fuel rest enough stops
  obtain ⟨fuel, rfl, steps⟩ := exists_steps enough
  simp only [List.length_append] at steps
  have heights := height_below_le level
  have loose : level ≠ .atom := by
    rintro rfl
    exact absurd linked (by decide)
  have step := below_height loose
  have positive : 0 < level.below.height := by cases level <;> decide
  have headRead := headReads fuel (tail ++ rest) (by unfold stepsFor; omega) (tailed.stops stops)
  have tailRead : operands fuel level (tail ++ rest) = some (others, rest) :=
    tailed.operands_eq (by omega) stops
  rw [formula_linked linked, List.append_assoc, headRead]
  simp [tailRead]

/-- A single operand is a formula without others. -/
theorem Reads.single (reads : Reads level.below read term) : Links level read term [] :=
  ⟨read, [], by simp, reads, .nil⟩

/-- Two links joined by an operator are one link. -/
theorem Links.join {first second : List Token} {left right : Term}
    {others more : List (String × Term)} {operator : String} (links : Links level first left others)
    (known : operator ∈ level.operators) (next : Links level second right more) :
    Links level (first ++ .ofOperator operator :: second) left
      (others ++ (operator, right) :: more) := by
  obtain ⟨head, tail, rfl, headReads, tailed⟩ := links
  obtain ⟨head', tail', rfl, headReads', tailed'⟩ := next
  refine ⟨head, tail ++ .ofOperator operator :: (head' ++ tail'), by simp, headReads, ?_⟩
  exact tailed.append (.cons known headReads' tailed')

/-- Operands are linked by operators of the level. -/
theorem Links.operator_mem {first : Term} {others : List (String × Term)}
    (links : Links level read first others) : ∀ next ∈ others, next.1 ∈ level.operators := by
  obtain ⟨head, tail, -, -, tailed⟩ := links
  clear head
  induction tailed with
  | nil => simp
  | cons known _ _ ih => exact List.forall_mem_cons.mpr ⟨known, ih⟩

/-- Operands are grouped to the left, those of comparisons apart. -/
theorem combine_eq_foldl (plain : level ≠ .comparison) (first : Term)
    (others : List (String × Term)) :
    level.combine first others =
      others.foldl (fun term next => .binary next.1 term next.2) first := by
  cases level with
  | comparison => exact absurd rfl plain
  | _ => rfl

/-- Terms that are regrouped may be so under further operands. -/
theorem regroup_foldl {first second : Term} (same : Regroup first second)
    (others : List (String × Term)) :
    Regroup (others.foldl (fun term next => .binary next.1 term next.2) first)
      (others.foldl (fun term next => .binary next.1 term next.2) second) := by
  induction others generalizing first second with
  | nil => exact same
  | cons next others ih => exact ih (.binary same (.refl _))

/-- Grouping a joined link to the left regroups the two links, when the operator between them
regroups with those that follow it. -/
theorem regroup_join (plain : level ≠ .comparison) {operator : String} {left right : Term}
    {others more : List (String × Term)} (moves : ∀ next ∈ more, (operator, next.1) ∈ regroupings) :
    Regroup (level.combine left (others ++ (operator, right) :: more))
      (.binary operator (level.combine left others) (level.combine right more)) := by
  simp only [combine_eq_foldl plain, List.foldl_append, List.foldl_cons]
  -- The operands of the second link are moved into the right operand one by one.
  generalize others.foldl _ left = grouped
  induction more generalizing right with
  | nil => exact .refl _
  | cons next more ih =>
    have rotated : Regroup (.binary next.1 (.binary operator grouped right) next.2)
        (.binary operator grouped (.binary next.1 right next.2)) :=
      (Regroup.rotate (moves next (List.mem_cons_self ..)) grouped right next.2).symm
    exact (regroup_foldl rotated more).trans
      (ih fun other member => moves other (List.mem_cons_of_mem _ member))

end Formula

end BlockScript
