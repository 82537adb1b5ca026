import BlockScript.Proofs.NumberText

/-! # Sockets yield the language

The contract under which generators work, and what the code of sockets, chains, indices and slices
is under it: each socket is asked for an expression that binds tightly enough for the place it is
put in.
-/

namespace BlockScript

/-- The contract of code: blocks come to code of the language, identifiers may be used as names, and
the procedures that are entered are written in the language. -/
def codeContract (n : Nat) (isName isInsert : String → Prop) : Contract n where
  allows
    | .define procedure => procedure.Proper isName isInsert
    | _ => True
  promises
    | .block _, outcome => outcome.Proper isName isInsert
    | .identifier .., name | .fresh .., name | .temporary _, name | .helper .., name => isName name
    | .require .., _ | .define _, _ => True

/-- The code that instrumentation puts into bodies is among the texts that may be put there. -/
def Setting.Inserts {n : Nat} (setting : Setting n) (isInsert : String → Prop) : Prop :=
  ∀ (block : Block n) (inserted : String),
    instrument setting.options.loopTrap block = .ok inserted ∨
      instrument setting.options.statementPrefix block = .ok inserted → isInsert inserted

/-- The literal of a value is the value in quotes, if it can be written. -/
theorem quote_eq_ok {value : Value} {literal : String} :
    quote value = .ok literal ↔ ∃ text, value.display? = some text ∧ literal = Text.quoted text := by
  unfold quote Value.display
  cases value.display? with
  | none => simp [Attempt.written, bind, Except.bind]
  | some text => simp [Attempt.written, bind, Except.bind, pure, Except.pure, eq_comm]

/-- What is found in a table is listed in it. -/
theorem Table.mem_of_get? {α : Type} {table : Table α} {name : String} {entry : α}
    (found : table.get? name = some entry) : (name, entry) ∈ table := by
  induction table with
  | nil => cases found
  | cons head rest ih =>
      unfold Table.get? at found
      split at found
      · rename_i same
        cases found
        rw [← same]
        exact List.mem_cons_self ..
      · exact List.mem_cons_of_mem _ (ih found)

namespace Gen

variable {n : Nat} {isName isInsert : String → Prop} {setting : Setting n} {block : Block n}

/-! ## Requests -/

/-- A block comes to proper code. -/
theorem ensures_block (ref : Fin n) :
    (Gen.block ref).Ensures (codeContract n isName isInsert) (Outcome.Proper isName isInsert) :=
  ⟨trivial, fun _ promised => promised⟩

/-- A variable gets a name. -/
theorem ensures_variableName (name : Value) :
    (variableName name).Ensures (codeContract n isName isInsert) isName :=
  ⟨trivial, fun _ promised => promised⟩

theorem ensures_procedureName (name : Value) :
    (procedureName name).Ensures (codeContract n isName isInsert) isName :=
  ⟨trivial, fun _ promised => promised⟩

/-- A variable of its own gets a name too. -/
theorem ensures_distinctVariable (name : Value) :
    (distinctVariable name).Ensures (codeContract n isName isInsert) isName :=
  ⟨trivial, fun _ promised => promised⟩

theorem ensures_temporary (name : Value) :
    (temporary name).Ensures (codeContract n isName isInsert) isName :=
  ⟨trivial, fun _ promised => promised⟩

/-- A helper gets a name. -/
theorem ensures_helper (key : String) (template : Template) :
    (helper key template).Ensures (codeContract n isName isInsert) isName :=
  ⟨trivial, fun _ promised => promised⟩

theorem ensures_require (key statement : String) :
    (require key statement).Ensures (codeContract n isName isInsert) (fun _ => True) :=
  ⟨trivial, fun _ promised => promised⟩

/-! ## Sockets -/

/-- What is plugged into a socket is code of its order. -/
theorem ensures_child (socket : String) :
    (child setting block socket).Ensures (codeContract n isName isInsert)
      (fun found => ∀ value ∈ found, Code isName (.value value.order) value.code) := by
  unfold child
  split
  · exact fun _ member => nomatch member
  · refine .bind (ensures_block _) fun outcome proper => ?_
    cases outcome with
    | expression value =>
        intro other member
        cases member
        exact proper
    | statement code => exact .reject _
    | nothing => exact .reject _

/-- What a socket yields is its default, or an expression that fits. -/
theorem ensures_value_or {socket default : String} {order : Order} {property : String → Prop}
    (possible : order.rank ≤ Order.atomic.rank) (absent : property default)
    (fits : ∀ text, Fits isName order text → property text) :
    (value setting block socket order default).Ensures (codeContract n isName isInsert)
      property := by
  unfold value
  refine .bind (ensures_child socket) fun found codes => ?_
  cases found with
  | none => exact absent
  | some plugged => exact fits _ (.wrap (codes plugged rfl) possible)

/-- What a socket yields fits, if its default does. -/
theorem ensures_value {socket default : String} {order : Order}
    (possible : order.rank ≤ Order.atomic.rank) (absent : Fits isName order default) :
    (value setting block socket order default).Ensures (codeContract n isName isInsert)
      (Fits isName order) :=
  ensures_value_or possible absent fun _ fits => fits

/-- Without a default, what a socket yields is nothing or fits. -/
theorem ensures_value_if {socket : String} {order : Order}
    (possible : order.rank ≤ Order.atomic.rank) :
    (value setting block socket order "").Ensures (codeContract n isName isInsert)
      (fun text => text = "" ∨ Fits isName order text) :=
  ensures_value_or possible (.inl rfl) fun _ fits => .inr fits

/-- A block as a statement is a suite. -/
theorem ensures_statement (ref : Fin n) :
    (statement ref).Ensures (codeContract n isName isInsert)
      (Suite isName isInsert .outer) := by
  unfold statement
  refine .bind (ensures_block ref) fun outcome proper => ?_
  cases outcome with
  | expression value => exact Suite.line (.expression proper)
  | statement code => exact proper
  | nothing => exact Suite.empty _

/-- The statements of a chain are a suite. -/
theorem ensures_chain (first : Option (Fin n)) :
    (chain setting first).Ensures (codeContract n isName isInsert)
      (Suite isName isInsert .outer) := by
  cases first with
  | none => exact Suite.empty _
  | some ref =>
      unfold chain
      refine .bind (.each fun ref _ => ensures_statement ref) fun codes suites => ?_
      cases (setting.workspace.graph.chain ref).returnsTo with
      | some back => exact .reject _
      | none => exact Suite.join suites

/-- The statements of a socket are an inner suite. -/
theorem ensures_statements (socket : String) :
    (statements setting block socket).Ensures (codeContract n isName isInsert)
      (Suite isName isInsert .inner) := by
  unfold statements
  exact .bind (ensures_chain _) fun code suite => Suite.indented suite

/-- The body of a loop belongs to the language and is not empty. -/
theorem ensures_loopBody (inserts : setting.Inserts isInsert) (socket : String) :
    (loopBody setting block socket).Ensures (codeContract n isName isInsert)
      (fun body => Suite isName isInsert .inner body ∧ body ≠ "") := by
  unfold loopBody
  refine .bind (ensures_statements socket) fun branch suite => ?_
  refine .bind (.lift fun trap made => inserts block trap (.inl made)) fun trap isInsert => ?_
  exact Suite.orPass (.append (.insertion isInsert) suite)

/-! ## Indices and slices -/

/-- A constant fits wherever an atom does. -/
theorem fits_constant {text : String} {order : Order} (known : text ∈ constantWords)
    (possible : order.rank ≤ Order.atomic.rank) : Fits isName order text :=
  ⟨.atomic, possible, .constant known⟩

/-- So does a natural number. -/
theorem fits_natural {order : Order} (k : Nat) (possible : order.rank ≤ Order.atomic.rank) :
    Fits isName order (toString k) :=
  ⟨.atomic, possible, .numeral (Numeral.isUnsigned_toString k)⟩

/-- So does an empty list. -/
theorem fits_emptyList {order : Order} (possible : order.rank ≤ Order.atomic.rank) :
    Fits isName order "[]" :=
  ⟨.atomic, possible, .display .noItem⟩

/-- So does an empty text. -/
theorem fits_emptyText {order : Order} (possible : order.rank ≤ Order.atomic.rank) :
    Fits isName order emptyText :=
  ⟨.atomic, possible, .quoted ""⟩

/-- What is written of an integer are its digits. -/
theorem eq_toString_of_ofWhole? {n : Int} {text : String}
    (written : Numeral.ofWhole? n = some text) : text = toString n := by
  unfold Numeral.ofWhole? at written
  rw [Option.ite_none_right_eq_some] at written
  exact (Option.some.inj written.2).symm

/-- An integer fits where a signed number does. -/
theorem fits_numeral {n : Int} {text : String} (written : Index.numeral n = .ok text) :
    Fits isName .unarySign text := by
  rw [eq_toString_of_ofWhole? (Attempt.written_eq_ok.mp written)]
  exact fits_toString n

/-- So does a position that is known. -/
theorem fits_ofLiteral {position shift : Int} {negate : Bool} {index : Index}
    (made : Index.ofLiteral position shift negate = .ok index) :
    Fits isName .unarySign index.code := by
  obtain ⟨text, written, same⟩ := Attempt.bind_eq_ok.mp made
  cases same
  exact fits_numeral written

/-- The order that a position with a shift is asked for. -/
def shiftOrder (shift : Int) : Order := if shift = 0 then .none else .additive

/-- A shifted position fits where anything does. -/
theorem fits_shifted {position text : String} {shift : Int}
    (fits : Fits isName (shiftOrder shift) position)
    (made : Index.shifted position shift = .ok text) : Fits isName .none text := by
  unfold Index.shifted at made
  rcases Int.lt_trichotomy shift 0 with below | zero | above
  · have order : shiftOrder shift = .additive := if_neg (by omega)
    rw [order] at fits
    rw [if_neg (by omega), if_pos below] at made
    obtain ⟨amount, written, same⟩ := Attempt.bind_eq_ok.mp made
    cases same
    exact (fits.operation "-" (by decide) ((fits_numeral written).mono (by decide))).fits
      (by decide)
  · subst zero
    cases made
    exact fits.mono (by decide)
  · have order : shiftOrder shift = .additive := if_neg (by omega)
    rw [order] at fits
    rw [if_pos above] at made
    obtain ⟨amount, written, same⟩ := Attempt.bind_eq_ok.mp made
    cases same
    exact (fits.operation "+" (by decide) ((fits_numeral written).mono (by decide))).fits
      (by decide)

/-- A position that is computed fits where a signed number does. -/
theorem fits_ofCode {position : String} {shift : Int} {negate : Bool} {index : Index}
    (fits : Fits isName (shiftOrder shift) position)
    (made : Index.ofCode position shift negate = .ok index) :
    Fits isName .unarySign index.code := by
  obtain ⟨text, done, same⟩ := Attempt.bind_eq_ok.mp made
  cases same
  have whole := (fits_shifted fits done).call "int" (by decide)
  cases negate with
  | false => exact whole.fits (by decide)
  | true => exact (Code.negative whole (by decide)).fits (by decide)

/-- An offset fits where a signed number does. -/
theorem ensures_index (socket : String) (delta : Int) (negate : Bool) :
    (index setting block socket delta negate).Ensures (codeContract n isName isInsert)
      (fun index => Fits isName .unarySign index.code) := by
  unfold index
  simp only
  generalize (if setting.oneBased then delta - 1 else delta) = shift
  have possible : (shiftOrder shift).rank ≤ Order.atomic.rank := by
    unfold shiftOrder
    split <;> decide
  have absent : Fits isName (shiftOrder shift) (if setting.oneBased then "1" else "0") := by
    split
    · exact fits_natural 1 possible
    · exact fits_natural 0 possible
  refine .bind (ensures_value possible absent) fun code fits => ?_
  split
  · refine .lift fun index made => ?_
    obtain ⟨position, _, literal⟩ := Attempt.bind_eq_ok.mp made
    exact fits_ofLiteral literal
  · exact .lift fun index made => fits_ofCode fits made

/-- The start of a slice is a bound. -/
theorem ensures_sliceStart :
    (sliceStart setting block).Ensures (codeContract n isName isInsert) (Code isName .bound) := by
  unfold sliceStart
  refine .ite ?_ (.ite ?_ (.ite ?_ (.unhandled ..)))
  · refine .bind (ensures_index ..) fun start ⟨order, _, code⟩ => ?_
    change Code isName .bound (if start.constant = some 0 then "" else start.code)
    split
    · exact .openBound
    · exact .bound code
  · exact .bind (ensures_index ..) fun start ⟨order, _, code⟩ => Code.bound code
  · exact Code.openBound

/-- So is the end of a slice. -/
theorem ensures_sliceEnd :
    (sliceEnd setting block).Ensures (codeContract n isName isInsert) (Code isName .bound) := by
  unfold sliceEnd
  refine .ite ?_ (.ite ?_ (.ite ?_ (.unhandled ..)))
  · exact .bind (ensures_index ..) fun last ⟨order, _, code⟩ => Code.bound code
  · refine .bind (ensures_index ..) fun last fits => ?_
    split
    · refine .bind (ensures_require ..) fun _ _ => ?_
      have limit : Fits isName .logicalOr "sys.maxsize" := ⟨.member, by decide, .maxsize⟩
      have either := (fits.mono (by decide)).operation "or" (by decide) limit
      rw [String.append_assoc] at either
      exact Code.bound either
    · rename_i offset _
      obtain ⟨order, _, code⟩ := fits
      change Code isName .bound (if offset = 0 then "" else last.code)
      split
      · exact .openBound
      · exact .bound code
  · exact Code.openBound

/-- A slice is a subscript. -/
theorem ensures_slice :
    (slice setting block).Ensures (codeContract n isName isInsert)
      (fun bounds => Code isName .subscript (bounds.first ++ " : " ++ bounds.last)) := by
  unfold slice
  refine .bind ensures_sliceStart fun first opens => ?_
  exact .bind ensures_sliceEnd fun last closes => Code.slice opens closes

/-- An offset for a position fits where a signed number does. -/
theorem ensures_offset (position : Position) :
    (offset setting block position).Ensures (codeContract n isName isInsert)
      (Fits isName .unarySign) := by
  cases position with
  | first => exact fits_natural 0 (by decide)
  | last => exact fits_toString (-1)
  | fromStart => exact .bind (ensures_index ..) fun index fits => fits
  | fromEnd => exact .bind (ensures_index ..) fun index fits => fits

/-! ## Outcomes -/

/-- A generator whose outcome belongs to the language. -/
abbrev MakesCode (isName isInsert : String → Prop) (generator : Gen n Outcome) : Prop :=
  generator.Ensures (codeContract n isName isInsert) (Outcome.Proper isName isInsert)

/-- An expression is proper if its code is of its order. -/
theorem makes_expression {code : String} {order : Order} (made : Code isName (.value order) code) :
    MakesCode isName isInsert (expression code order : Gen n Outcome) := made

/-- A line is proper if it is a suite. -/
theorem makes_line {code : String} (made : Suite isName isInsert .outer code) :
    MakesCode isName isInsert (line code : Gen n Outcome) := made

/-- A choice from a table is an entry of it. -/
theorem ensures_choice {α : Type} {contract : Contract n} (table : Table α) (option : Value) :
    (choice table option).Ensures contract
      (fun found => ∀ entry ∈ found, ∃ name, (name, entry) ∈ table) := by
  unfold choice
  refine .bind (.lift fun _ _ => trivial) fun _ _ => ?_
  cases option with
  | text name => exact fun entry found => ⟨name, Table.mem_of_get? found⟩
  | _ => exact fun _ none => nomatch none

end Gen

end BlockScript
