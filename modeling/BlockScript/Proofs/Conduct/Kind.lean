import BlockScript.Proofs.Conduct.Basic
import BlockScript.Proofs.Sameness

/-! # The conduct of every kind

The generator of every kind keeps to the rules of a scope that covers its block
(`Gen.conducts_generate`), and so does the program as a whole in a scope of all blocks
(`Gen.conducts_program`).
-/

namespace BlockScript

variable {n : Nat} {setting : Setting n} {scope : Scope n} {block : Block n}

namespace Gen

/-- A number is too large, or is rejected as not handled. -/
theorem conducts_number : (number setting block).Conducts setting scope := by
  unfold number
  split
  · trivial
  · exact .fail fun _ same => nomatch same
  · exact .unhandled block _

/-! ## Expressions, branches and loops -/

section Expressions

variable (covers : scope.Covers setting block)

include covers

/-- An operator that is not known is rejected. -/
theorem conducts_arithmetic : (arithmetic setting block).Conducts setting scope := by
  refine .bind (.choice ..) fun found => ?_
  cases found with
  | none => exact .unhandled block _
  | some operator =>
      exact .bind (conducts_value covers ..) fun _ => .bind (conducts_value covers ..) fun _ =>
        .done _

/-- A comparison that is not known is rejected. -/
theorem conducts_comparison : (comparison setting block).Conducts setting scope := by
  refine .bind (.choice ..) fun found => ?_
  cases found with
  | none => exact .unhandled block _
  | some operator =>
      exact .bind (conducts_value covers ..) fun _ => .bind (conducts_value covers ..) fun _ =>
        .done _

/-- A connective that is not known is rejected. -/
theorem conducts_connection : (connection setting block).Conducts setting scope := by
  unfold connection
  dsimp only
  split
  · exact .unhandled block _
  · exact .bind (conducts_value covers ..) fun _ => .bind (conducts_value covers ..) fun _ =>
      .done _

/-- A variable is named by its field. -/
theorem conducts_getVariable : (getVariable setting block).Conducts setting scope :=
  .bind (.variableName covers.variableField) fun _ => .done _

/-- An assignment names the variable of its field. -/
theorem conducts_setVariable : (setVariable setting block).Conducts setting scope :=
  .bind (conducts_value covers ..) fun _ => .bind (.variableName covers.variableField) fun _ =>
    .done _

/-- The branches of a conditional are numbered sockets. -/
theorem conducts_conditional : (conditional setting block).Conducts setting scope := by
  refine .bind (.lift (.toWhole _)) fun further => .bind (.each fun k _ => ?_) fun branches =>
    .bind ?_ fun _ => .done _
  · exact .bind (conducts_value covers ..) fun _ => .bind (conducts_statements covers _) fun _ =>
      .done _
  · exact .ite (.bind (conducts_statements covers _) fun _ => .done _) (.done _)

/-- The mode of a conditional loop is known, or rejected. -/
theorem conducts_conditionalLoop : (conditionalLoop setting block).Conducts setting scope := by
  refine .bind ?_ fun condition => .bind (conducts_loopBody covers _) fun _ => .done _
  refine .ite (conducts_value covers ..) (.ite ?_ (.unhandled block _))
  exact .bind (conducts_value covers ..) fun _ => .done _

/-- The rounds of a loop are a number, or rejected. -/
theorem conducts_rounds : (rounds setting block).Conducts setting scope := by
  unfold rounds
  split
  · dsimp only
    split
    · trivial
    · exact .unhandled block _
  · exact conducts_value covers ..

/-- A counted loop has a counter of its own. -/
theorem conducts_countedLoop : (countedLoop setting block).Conducts setting scope :=
  .bind (conducts_rounds covers) fun _ => .bind (.distinctVariable _) fun _ =>
    .bind (conducts_loopBody covers _) fun _ => .done _

/-- A loop over a list names the variable of its field. -/
theorem conducts_listLoop : (listLoop setting block).Conducts setting scope :=
  .bind (.variableName covers.variableField) fun _ => .bind (conducts_value covers ..) fun _ =>
    .bind (conducts_loopBody covers _) fun _ => .done _

end Expressions

/-! ## Lists -/

section Lists

variable (covers : scope.Covers setting block)

include covers

theorem conducts_listOf : (listOf setting block).Conducts setting scope :=
  .bind (.lift (.itemCount block)) fun _ => .bind (conducts_numbered covers ..) fun _ => .done _

theorem conducts_repeatedItem : (repeatedItem setting block).Conducts setting scope :=
  .bind (conducts_value covers ..) fun _ => .bind (conducts_value covers ..) fun _ => .done _

/-- The end to search from is known, or rejected; a helper searches. -/
theorem conducts_listIndexOf : (listIndexOf setting block).Conducts setting scope := by
  refine .bind (conducts_value covers ..) fun _ => .bind (conducts_value covers ..) fun _ => ?_
  refine .ite (.bind (.helper .firstIndex) fun _ => .done _) (.ite ?_ ?_)
  · exact .bind (.helper .lastIndex) fun _ => .done _
  · exact .bind (.unhandled block _) fun _ => .done _

/-- What to do with an item is known, or rejected. -/
theorem conducts_itemAt (mode whereTo : Value) (items : String) (position : Position) :
    (itemAt setting block mode whereTo items position).Conducts setting scope :=
  .bind (conducts_offset covers position) fun _ =>
    .ite (.done _) (.ite (.done _) (.ite (.done _) (.unhandled block _)))

omit covers in
/-- A helper that takes an item at random is asked for after the import. -/
theorem conducts_itemAtRandom (mode whereTo : Value) (items : String) :
    (itemAtRandom block mode whereTo items).Conducts setting scope := by
  refine .importRandom fun imported => .ite (.done _) ?_
  refine .bind (.helper (.removeRandomItem imported)) fun _ => ?_
  exact .ite (.done _) (.ite (.done _) (.unhandled block _))

/-- Where an item is is known, or rejected. -/
theorem conducts_getIndex : (getIndex setting block).Conducts setting scope := by
  refine .bind (conducts_value covers ..) fun items => ?_
  split
  · exact conducts_itemAt covers ..
  · exact .ite (conducts_itemAtRandom ..) (.unhandled block _)

/-- A list that is used twice may need a temporary. -/
theorem conducts_listTwice : (listTwice setting block).Conducts setting scope := by
  refine .bind (conducts_child covers _) fun found => ?_
  cases found with
  | none => trivial
  | some list => exact .ite (.done _) (.bind (.temporary _) fun _ => .done _)

/-- A random item needs a temporary for its place. -/
theorem conducts_setAtRandom (isSet : Bool) (item : String) :
    (setAtRandom setting block isSet item).Conducts setting scope := by
  refine .importRandom fun _ => .bind (conducts_listTwice covers) fun _ => ?_
  exact .bind (.temporary _) fun _ => .ite (.done _) (.done _)

/-- What to do at a position is known, or rejected. -/
theorem conducts_setAt (isSet : Bool) (items item : String) (position : Position) :
    (setAt setting block isSet items item position).Conducts setting scope :=
  .bind (conducts_offset covers position) fun _ => .ite (.done _) (.ite (.done _) (.done _))

/-- What to do, and where, is known, or rejected. -/
theorem conducts_setIndex : (setIndex setting block).Conducts setting scope := by
  refine .bind (conducts_value covers ..) fun item => .ite (.unhandled block _) (.ite ?_ ?_)
  · exact conducts_setAtRandom covers ..
  · refine .bind (conducts_value covers ..) fun items => ?_
    split
    · exact conducts_setAt covers ..
    · exact .unhandled block _

theorem conducts_part (socket default : String) :
    (part socket default setting block).Conducts setting scope :=
  .bind (conducts_value covers ..) fun _ => .bind (conducts_slice covers) fun _ => .done _

/-- The order of a sorted list is known, or rejected; a helper sorts. -/
theorem conducts_sorted : (sorted setting block).Conducts setting scope := by
  refine .bind (conducts_value covers ..) fun items => .bind (.choice ..) fun found => ?_
  cases found with
  | none => exact .unhandled block _
  | some key => exact .bind (.lift (.display _)) fun _ => .bind (.helper .sort) fun _ => .done _

/-- To split or to join is known, or rejected. -/
theorem conducts_split : (split setting block).Conducts setting scope := by
  refine .ite ?_ (.ite ?_ (.reject (by simp [Cause.family])))
  · exact .bind (conducts_value covers ..) fun _ => .bind (conducts_value covers ..) fun _ =>
      .done _
  · exact .bind (conducts_value covers ..) fun _ => .bind (conducts_value covers ..) fun _ =>
      .done _

end Lists

/-! ## Texts -/

section Texts

variable (covers : scope.Covers setting block)

include covers

/-- Joined texts are as many as are declared. -/
theorem conducts_joined : (joined setting block).Conducts setting scope := by
  refine .bind (.lift (.itemCount block)) fun count =>
    .ite (.done _) (.ite ?_ (.ite ?_ ?_))
  · exact .bind (conducts_value covers ..) fun _ => .done _
  · exact .bind (conducts_value covers ..) fun _ => .bind (conducts_value covers ..) fun _ =>
      .done _
  · exact .bind (conducts_numbered covers ..) fun _ => .bind (.distinctVariable _) fun _ => .done _

/-- To append names the variable of a field. -/
theorem conducts_append : (append setting block).Conducts setting scope :=
  .bind (.variableName covers.variableField) fun _ => .bind (conducts_value covers ..) fun _ =>
    .done _

/-- The end to search from is known, or rejected. -/
theorem conducts_textIndexOf : (textIndexOf setting block).Conducts setting scope := by
  refine .ite (.bind (.done "find") fun method => ?_) (.ite (.bind (.done "rfind") fun method => ?_)
    (.bind (.unhandled block _) fun method => ?_))
  all_goals
    exact .bind (conducts_value covers ..) fun _ => .bind (conducts_value covers ..) fun _ =>
      .ite (.done _) (.done _)

/-- A helper that picks a letter at random is asked for after the import. -/
theorem conducts_letterAt : (letterAt setting block).Conducts setting scope := by
  refine .ite ?_ ?_
  · refine .bind (conducts_value covers ..) fun whole => .importRandom fun imported => ?_
    exact .bind (.helper (.randomLetter imported)) fun _ => .done _
  · refine .bind (conducts_value covers ..) fun whole => ?_
    split
    · exact .bind (conducts_offset covers _) fun _ => .done _
    · exact .unhandled block _

/-- The option for a method is known, or rejected. -/
theorem conducts_chosenMethod (field : String) (methods : Table String) :
    (chosenMethod field methods setting block).Conducts setting scope := by
  refine .bind (.choice ..) fun found => ?_
  cases found with
  | none => exact .unhandled block _
  | some method => exact .bind (conducts_value covers ..) fun _ => .done _

theorem conducts_prompt : (prompt setting block).Conducts setting scope :=
  .bind (.ite (.lift (.quote _)) (conducts_value covers ..)) fun _ => .done _

theorem conducts_replaced : (replaced setting block).Conducts setting scope :=
  .bind (conducts_value covers ..) fun _ => .bind (conducts_value covers ..) fun _ =>
    .bind (conducts_value covers ..) fun _ => .done _

end Texts

/-! ## Procedures -/

section Procedures

variable (covers : scope.Covers setting block)

include covers

/-- A procedure is entered under the name of a procedure. -/
theorem conducts_definition (defines : scope.defines)
    (used : ∀ name ∈ setting.workspace.usedVariables, scope.names .user name)
    (arguments : ∀ names, block.arguments = .ok names → ∀ name ∈ names, scope.names .user name) :
    (definition setting block).Conducts setting scope := by
  refine .attempt (.arguments block) fun names announced => ?_
  refine .bind (.each fun name member => .variableName (used name ?_)) fun globals => ?_
  · exact (List.mem_filter.mp member).1
  · refine .procedureName covers.procedureField fun identifier isProcedure => ?_
    refine .bind (conducts_statements covers _) fun statements => ?_
    refine .bind (.lift (.bind (.instrument _ block) fun _ => ?_)) fun body => ?_
    · exact .bind (.instrument _ block) fun _ => .ok _
    refine .bind (conducts_value covers ..) fun result => ?_
    refine .bind (.each fun name member => .variableName (arguments names announced name member))
      fun params => ?_
    exact ⟨⟨defines, isProcedure⟩, fun _ _ => trivial⟩

/-- A call names its procedure. -/
theorem conducts_call : (call setting block).Conducts setting scope := by
  refine .procedureName covers.procedureField fun identifier _ => ?_
  refine .bind (.lift (.arguments block)) fun arguments => ?_
  exact .bind (conducts_numbered covers ..) fun _ => .done _

/-- An early return has a condition, and a value if it returns any. -/
theorem conducts_earlyReturn : (earlyReturn setting block).Conducts setting scope := by
  refine .bind (conducts_value covers ..) fun condition => .ite ?_ (.done _)
  exact .bind (conducts_value covers ..) fun _ => .done _

end Procedures

/-- **Generators keep to the rules.** The generator of every kind asks, provides and fails as the
rules of a scope have it that covers its block, and, for a definition, that may enter procedures and
has the variables and the parameters. -/
theorem conducts_generate (covers : scope.Covers setting block) (kind : Kind)
    (defines : kind = .defineWithResult ∨ kind = .defineWithoutResult → scope.defines)
    (used : ∀ name ∈ setting.workspace.usedVariables, scope.names .user name)
    (arguments : kind = .defineWithResult ∨ kind = .defineWithoutResult →
      ∀ names, block.arguments = .ok names → ∀ name ∈ names, scope.names .user name) :
    (kind.generate setting block).Conducts setting scope := by
  cases kind with
  | number => exact conducts_number
  | arithmetic => exact conducts_arithmetic covers
  | comparison => exact conducts_comparison covers
  | connection => exact conducts_connection covers
  | negation => exact .bind (conducts_value covers ..) fun _ => .done _
  | truth => exact .done _
  | null => exact .done _
  | getVariable => exact conducts_getVariable covers
  | setVariable => exact conducts_setVariable covers
  | conditional => exact conducts_conditional covers
  | conditionalLoop => exact conducts_conditionalLoop covers
  | countedLoop => exact conducts_countedLoop covers
  | listLoop => exact conducts_listLoop covers
  | emptyList => exact .done _
  | listOf => exact conducts_listOf covers
  | repeatedItem => exact conducts_repeatedItem covers
  | listLength => exact .bind (conducts_value covers ..) fun _ => .done _
  | listIsEmpty => exact .bind (conducts_value covers ..) fun _ => .done _
  | listIndexOf => exact conducts_listIndexOf covers
  | getIndex => exact conducts_getIndex covers
  | setIndex => exact conducts_setIndex covers
  | sublist => exact conducts_part covers ..
  | sorted => exact conducts_sorted covers
  | split => exact conducts_split covers
  | reversed => exact .bind (conducts_value covers ..) fun _ => .done _
  | text => exact .bind (.lift (.quote _)) fun _ => .done _
  | joined => exact conducts_joined covers
  | append => exact conducts_append covers
  | textLength => exact .bind (conducts_value covers ..) fun _ => .done _
  | textIsEmpty => exact .bind (conducts_value covers ..) fun _ => .done _
  | textIndexOf => exact conducts_textIndexOf covers
  | letterAt => exact conducts_letterAt covers
  | substring => exact conducts_part covers ..
  | changeCase => exact conducts_chosenMethod covers ..
  | trim => exact conducts_chosenMethod covers ..
  | print => exact .bind (conducts_value covers ..) fun _ => .done _
  | promptWithSocket => exact conducts_prompt covers
  | prompt => exact conducts_prompt covers
  | occurrences =>
      exact .bind (conducts_value covers ..) fun _ => .bind (conducts_value covers ..) fun _ => .done _
  | replaced => exact conducts_replaced covers
  | backwards => exact .bind (conducts_value covers ..) fun _ => .done _
  | defineWithResult =>
      exact conducts_definition covers (defines (.inl rfl)) used (arguments (.inl rfl))
  | defineWithoutResult =>
      exact conducts_definition covers (defines (.inr rfl)) used (arguments (.inr rfl))
  | callForResult => exact .bind (conducts_call covers) fun _ => .done _
  | callForEffect => exact .bind (conducts_call covers) fun _ => .done _
  | earlyReturn => exact conducts_earlyReturn covers

/-- The top-level blocks are gone through within a scope that has them and all that they lead to. -/
theorem conducts_pieces
    (onward : ∀ ref, scope.leads ref → ∀ child, setting.workspace.graph.Links ref child →
      scope.leads child)
    (tops : List (Fin n)) (leads : ∀ top ∈ tops, scope.leads top) :
    (pieces setting tops).Conducts setting scope := by
  induction tops with
  | nil => trivial
  | cons top rest ih =>
      have further := ih fun other member => leads other (List.mem_cons_of_mem _ member)
      have led := leads top (List.mem_cons_self ..)
      refine .ite ?_ ?_
      · exact .bind (.block led) fun _ => further
      · refine .bind (conducts_chain onward fun ref same => ?_) fun code => ?_
        · cases same
          exact led
        · exact .bind further fun _ => .done _

end Gen

/-! ## Scopes of blocks and programs -/

namespace Setting

variable (setting : Setting n) (imported : Prop) (isProcedure : String → Prop)

/-- The scope of a block: the blocks that it leads to, and the names that it gives. -/
def blockScope (ref : Fin n) : Scope n where
  leads := Relation.TransGen setting.workspace.graph.Links ref
  names
    | .user, name =>
        name = (setting.block ref).field "VAR" ∨ name ∈ setting.workspace.usedVariables ∨
          Kind.isDefinition (setting.block ref).kind = true ∧
            ∃ arguments, (setting.block ref).arguments = .ok arguments ∧ name ∈ arguments
    | .procedure, name => name = (setting.block ref).field "NAME"
    | _, _ => False
  imported := imported
  isProcedure := isProcedure
  defines := Kind.isDefinition (setting.block ref).kind = true

/-- The scope of the program: all blocks, and the names of variables. -/
def programScope : Scope n where
  leads _ := True
  names
    | .user, name => name ∈ setting.workspace.usedVariables
    | .developer, name => name ∈ setting.workspace.developerVariables
    | _, _ => False
  imported := imported
  isProcedure := isProcedure
  defines := False

variable {setting imported isProcedure}

/-- A block that may be entered is of a kind, whose generator is run. -/
theorem exists_kind_of_entry {ref : Fin n} {active : List (Fin n)} {generator : Gen n Outcome}
    (admitted : setting.entry ref active = .ok generator) :
    ∃ kind, Kind.ofValue? (setting.block ref).kind = .ok (some kind) ∧
      generator = kind.generate setting (setting.block ref) := by
  unfold entry at admitted
  obtain ⟨found, known, chosen⟩ := Attempt.bind_eq_ok.mp admitted
  cases found with
  | none => cases chosen
  | some kind =>
      dsimp only at chosen
      split at chosen
      · cases chosen
      · cases chosen
        exact ⟨kind, known, rfl⟩

/-- The value that names a kind is the text of its label. -/
theorem eq_label_of_ofValue? {value : Value} {kind : Kind}
    (named : Kind.ofValue? value = .ok (some kind)) : value = .text kind.label := by
  unfold Kind.ofValue? at named
  obtain ⟨_, _, found⟩ := Attempt.bind_eq_ok.mp named
  cases value with
  | text label =>
      have same := List.find?_some (Except.ok.inj found)
      rw [eq_of_beq same]
  | _ => cases Except.ok.inj found

/-- Blocks of the two kinds of definitions are definitions. -/
theorem isDefinition_of_ofValue? {value : Value} {kind : Kind}
    (named : Kind.ofValue? value = .ok (some kind))
    (defines : kind = .defineWithResult ∨ kind = .defineWithoutResult) :
    Kind.isDefinition value = true := by
  rw [eq_label_of_ofValue? named]
  rcases defines with rfl | rfl <;> decide

/-- The generator of a definition, with or without a result. -/
theorem generate_of_isDefinition {ref : Fin n} {kind : Kind}
    (named : Kind.ofValue? (setting.block ref).kind = .ok (some kind))
    (definition : Kind.isDefinition (setting.block ref).kind = true) :
    kind.generate setting (setting.block ref) = Gen.definition setting (setting.block ref) := by
  rcases Bool.or_eq_true_iff.mp definition with labelled | labelled
  · rw [Value.isText_iff.mp labelled] at named
    have same : kind = .defineWithResult := (Option.some.inj (Except.ok.inj named)).symm
    rw [same]
    rfl
  · rw [Value.isText_iff.mp labelled] at named
    have same : kind = .defineWithoutResult := (Option.some.inj (Except.ok.inj named)).symm
    rw [same]
    rfl

/-- The scope of a block covers all that its generator may ask for. -/
theorem blockScope_covers (ref : Fin n) :
    (setting.blockScope imported isProcedure ref).Covers setting (setting.block ref) where
  sockets _ _ plugged := .single (Graph.links_of_input? plugged)
  onward _ leads _ linked := leads.tail linked
  variableField := .inl rfl
  procedureField := rfl

/-- **A block keeps to its scope.** -/
theorem conducts_entry {ref : Fin n} {active : List (Fin n)} {generator : Gen n Outcome}
    (admitted : setting.entry ref active = .ok generator) :
    generator.Conducts setting (setting.blockScope imported isProcedure ref) := by
  obtain ⟨kind, known, rfl⟩ := exists_kind_of_entry admitted
  refine Gen.conducts_generate (blockScope_covers ref) kind (isDefinition_of_ofValue? known)
    (fun name used => .inr (.inl used)) ?_
  intro defines names announced name member
  exact .inr (.inr ⟨isDefinition_of_ofValue? known defines, names, announced, member⟩)

end Setting

/-- A program keeps to every scope of all blocks that has its variables. -/
theorem Gen.conducts_program_of_names {setting : Setting n} {scope : Scope n}
    (users : ∀ name ∈ setting.workspace.usedVariables, scope.names .user name)
    (developers : ∀ name ∈ setting.workspace.developerVariables, scope.names .developer name)
    (leads : ∀ ref, scope.leads ref) : (program setting).Conducts setting scope := by
  refine .bind (.each fun name used => .variableName (users name used)) fun userNames => ?_
  refine .bind (.each fun name listed => ⟨developers name listed, fun _ _ => trivial⟩)
    fun developerNames => ?_
  exact .bind (conducts_pieces (fun _ _ child _ => leads child) _ fun top _ => leads top)
    fun _ => .done _

/-- **A program keeps to its scope.** -/
theorem Gen.conducts_program (setting : Setting n) (imported : Prop) (isProcedure : String → Prop) :
    (program setting).Conducts setting (setting.programScope imported isProcedure) :=
  conducts_program_of_names (fun _ used => used) (fun _ listed => listed) fun _ => trivial

end BlockScript
