import BlockScript.Proofs.Layout
import BlockScript.Proofs.Lockstep
import BlockScript.Proofs.Spans

/-! # Instrumentation

The code that options put on top of bodies changes nothing else. Generation with other such code is
in lockstep: it fails alike, names, imports and provides the same, and enters the same procedures
but for their bodies (`Setting.emit_instrumented`). Only bodies of loops and procedures read the
options, and no generator looks into the code of statements.
-/

namespace BlockScript

variable {n : Nat} {strict : Prop}

/-- A setting with other code on top of bodies. -/
def Setting.instrumented (setting : Setting n) (statementPrefix loopTrap : Option String) :
    Setting n :=
  { setting with options := { setting.options with statementPrefix, loopTrap } }

namespace Gen

variable (setting : Setting n) (block : Block n)

/-! ## Generators that look at no statement -/

/-- A block in a socket for values is looked at if it is an expression, and rejected otherwise. -/
theorem blind_child (socket : String) : (child setting block socket).Blind := by
  unfold child
  split
  · exact .done _
  · refine ⟨fun strict => .block _ fun outcome twin alike => ?_⟩
    cases alike with
    | expression value => exact .done rfl
    | statement _ => exact .fail _
    | nothing => exact .fail _

/-- What a socket holds is asked of its block, and the default is fixed. -/
theorem blind_value (socket : String) (order : Order) (default : String) :
    (value setting block socket order default).Blind := by
  refine .bind (blind_child setting block socket) fun found => ?_
  cases found with
  | none => exact .done _
  | some plugged => exact .done _

/-- An offset is made of what its socket holds. -/
theorem blind_index (socket : String) (delta : Int) (negate : Bool) :
    (index setting block socket delta negate).Blind :=
  .bind (blind_value ..) fun _ => .ite (.lift _) (.lift _)

/-- A slice is made of two offsets, or of none. -/
theorem blind_slice : (slice setting block).Blind := by
  refine .bind ?_ fun first => .bind ?_ fun last => .done _
  · refine .ite ?_ (.ite ?_ (.ite (.done _) (.unhandled block _)))
    · exact .bind (blind_index ..) fun _ => .done _
    · exact .bind (blind_index ..) fun _ => .done _
  · refine .ite ?_ (.ite ?_ (.ite (.done _) (.unhandled block _)))
    · exact .bind (blind_index ..) fun _ => .done _
    · refine .bind (blind_index ..) fun last => ?_
      split
      · exact .bind (.require ..) fun _ => .done _
      · exact .done _

/-- The code of numbered sockets is that of each. -/
theorem blind_numbered (stem default : String) (count : Int) :
    (numbered setting block stem default count).Blind := .each (fun _ => blind_value ..) _

/-- A position is asked for by offsets and by nothing else. -/
theorem blind_offset (position : Position) : (offset setting block position).Blind := by
  cases position with
  | first => exact .done _
  | last => exact .done _
  | fromStart => exact .bind (blind_index ..) fun _ => .done _
  | fromEnd => exact .bind (blind_index ..) fun _ => .done _

/-! ### Expressions -/

/-- A number is read from a field. -/
theorem blind_number : (number setting block).Blind := by
  unfold number
  split
  · exact .done _
  · exact .fail _
  · exact .unhandled block _

/-- An arithmetic operation asks for its two operands. -/
theorem blind_arithmetic : (arithmetic setting block).Blind := by
  refine .bind (.choice ..) fun found => ?_
  cases found with
  | none => exact .unhandled block _
  | some operator => exact .bind (blind_value ..) fun _ => .bind (blind_value ..) fun _ => .done _

/-- A comparison asks for its two operands. -/
theorem blind_comparison : (comparison setting block).Blind := by
  refine .bind (.choice ..) fun found => ?_
  cases found with
  | none => exact .unhandled block _
  | some operator => exact .bind (blind_value ..) fun _ => .bind (blind_value ..) fun _ => .done _

/-- A connection asks for its two operands. -/
theorem blind_connection : (connection setting block).Blind := by
  unfold connection
  dsimp only
  split
  · exact .unhandled block _
  · exact .bind (blind_value ..) fun _ => .bind (blind_value ..) fun _ => .done _

/-- The condition of a loop is that of its socket, perhaps negated. -/
theorem blind_loopCondition : (loopCondition setting block).Blind :=
  .ite (blind_value ..) (.ite (.bind (blind_value ..) fun _ => .done _) (.unhandled block _))

/-- The rounds of a loop are read from a field or a socket. -/
theorem blind_rounds : (rounds setting block).Blind := by
  refine .ite ?_ (blind_value ..)
  dsimp only
  split
  · exact .done _
  · exact .unhandled block _

/-! ### Lists -/

theorem blind_listOf : (listOf setting block).Blind :=
  .bind (.lift _) fun _ => .bind (blind_numbered ..) fun _ => .done _

/-- The place of an item is found by a helper. -/
theorem blind_listIndexOf : (listIndexOf setting block).Blind := by
  refine .bind (blind_value ..) fun _ => .bind (blind_value ..) fun _ => ?_
  refine .ite (.bind (.helper ..) fun _ => .done _) (.ite ?_ ?_)
  · exact .bind (.helper ..) fun _ => .done _
  · exact .bind (.unhandled block _) fun _ => .done _

/-- An item is selected, removed or both, at one position. -/
theorem blind_itemAt (mode whereTo : Value) (items : String) (position : Position) :
    (itemAt setting block mode whereTo items position).Blind :=
  .bind (blind_offset ..) fun _ =>
    .ite (.done _) (.ite (.done _) (.ite (.done _) (.unhandled block _)))

/-- A random item needs an import or a helper. -/
theorem blind_itemAtRandom (mode whereTo : Value) (items : String) :
    (itemAtRandom block mode whereTo items).Blind := by
  refine .bind (.require ..) fun _ => .ite (.done _) (.bind (.helper ..) fun _ => ?_)
  exact .ite (.done _) (.ite (.done _) (.unhandled block _))

theorem blind_getIndex : (getIndex setting block).Blind := by
  refine .bind (blind_value ..) fun items => ?_
  split
  · exact blind_itemAt ..
  · exact .ite (blind_itemAtRandom ..) (.unhandled block _)

/-- A list that is used twice is a name, or gets one. -/
theorem blind_listTwice : (listTwice setting block).Blind := by
  refine .bind (blind_child ..) fun found => ?_
  cases found with
  | none => exact .done _
  | some list => exact .ite (.done _) (.bind (.temporary _) fun _ => .done _)

/-- To set a random item takes a temporary for its place. -/
theorem blind_setAtRandom (isSet : Bool) (item : String) :
    (setAtRandom setting block isSet item).Blind :=
  .bind (.require ..) fun _ => .bind (blind_listTwice ..) fun _ => .bind (.temporary _) fun _ =>
    .ite (.done _) (.done _)

theorem blind_setAt (isSet : Bool) (items item : String) (position : Position) :
    (setAt setting block isSet items item position).Blind :=
  .bind (blind_offset ..) fun _ => .ite (.done _) (.ite (.done _) (.done _))

theorem blind_setIndex : (setIndex setting block).Blind := by
  refine .bind (blind_value ..) fun item => .ite (.unhandled block _) (.ite ?_ ?_)
  · exact blind_setAtRandom ..
  · refine .bind (blind_value ..) fun items => ?_
    split
    · exact blind_setAt ..
    · exact .unhandled block _

theorem blind_part (socket default : String) : (part socket default setting block).Blind :=
  .bind (blind_value ..) fun _ => .bind (blind_slice ..) fun _ => .done _

/-- A sorted list needs a helper. -/
theorem blind_sorted : (sorted setting block).Blind := by
  refine .bind (blind_value ..) fun items => .bind (.choice ..) fun found => ?_
  cases found with
  | none => exact .unhandled block _
  | some key => exact .bind (.lift _) fun _ => .bind (.helper ..) fun _ => .done _

/-- A text is split, or a list joined, by a method. -/
theorem blind_split : (split setting block).Blind := by
  refine .ite ?_ (.ite ?_ (.fail _))
  · exact .bind (blind_value ..) fun _ => .bind (blind_value ..) fun _ => .done _
  · exact .bind (blind_value ..) fun _ => .bind (blind_value ..) fun _ => .done _

/-! ### Texts -/

/-- Joined texts ask for as many operands as are declared. -/
theorem blind_joined : (joined setting block).Blind := by
  refine .bind (.lift _) fun count => .ite (.done _) (.ite ?_ (.ite ?_ ?_))
  · exact .bind (blind_value ..) fun _ => .done _
  · exact .bind (blind_value ..) fun _ => .bind (blind_value ..) fun _ => .done _
  · exact .bind (blind_numbered ..) fun _ => .bind (.distinctVariable _) fun _ => .done _

/-- The place of a text is found by a method. -/
theorem blind_textIndexOf : (textIndexOf setting block).Blind := by
  refine .ite (.bind (.done "find") fun method => ?_) (.ite (.bind (.done "rfind") fun method => ?_)
    (.bind (.unhandled block _) fun method => ?_))
  all_goals
    exact .bind (blind_value ..) fun _ => .bind (blind_value ..) fun _ => .ite (.done _) (.done _)

/-- A letter is selected by an offset, or by a helper. -/
theorem blind_letterAt : (letterAt setting block).Blind := by
  refine .ite ?_ (.bind (blind_value ..) fun whole => ?_)
  · exact .bind (blind_value ..) fun _ => .bind (.require ..) fun _ => .bind (.helper ..) fun _ =>
      .done _
  · split
    · exact .bind (blind_offset ..) fun _ => .done _
    · exact .unhandled block _

/-- A method is chosen by an option. -/
theorem blind_chosenMethod (field : String) (methods : Table String) :
    (chosenMethod field methods setting block).Blind := by
  refine .bind (.choice ..) fun found => ?_
  cases found with
  | none => exact .unhandled block _
  | some method => exact .bind (blind_value ..) fun _ => .done _

theorem blind_prompt : (prompt setting block).Blind :=
  .bind (.ite (.lift _) (blind_value ..)) fun _ => .done _

/-! ### Calls -/

/-- A call asks for the name of a procedure and for its operands. -/
theorem blind_call : (call setting block).Blind :=
  .bind (.procedureName _) fun _ => .bind (.lift _) fun _ => .bind (blind_numbered ..) fun _ =>
    .done _

/-- An early return asks for its value, if there is one. -/
theorem blind_earlyReturn : (earlyReturn setting block).Blind :=
  .bind (blind_value ..) fun _ => .ite (.bind (blind_value ..) fun _ => .done _) (.done _)

/-! ## Generators with statements -/

/-- Texts that agree one by one under a condition agree as lists. -/
theorem eq_of_forall₂ {codes others : List String}
    (related : List.Forall₂ (fun code other => strict → code = other) codes others)
    (holds : strict) : codes = others :=
  List.forall₂_eq_eq_eq ▸ related.imp fun _ _ same => same holds

/-- Statements of alike blocks agree in a chain. A chain that loops back is rejected in any case. -/
theorem lockstep_chain (first : Option (Fin n)) :
    Lockstep strict (fun code other => strict → code = other) (chain setting first)
      (chain setting first) := by
  cases first with
  | none => exact .done fun _ => rfl
  | some first =>
      have codes : Lockstep strict (List.Forall₂ fun code other => strict → code = other)
          (each statement (setting.workspace.graph.chain first).blocks)
          (each statement (setting.workspace.graph.chain first).blocks) := by
        refine .each (fun ref => .block ref fun outcome twin alike => ?_) _
        cases alike with
        | expression value => exact .done fun _ => rfl
        | statement same => exact .done same
        | nothing => exact .done fun _ => rfl
      refine .bind codes fun codes twins related => ?_
      cases (setting.workspace.graph.chain first).returnsTo with
      | some ref => exact .fail _
      | none => exact .done fun holds => congrArg String.join (eq_of_forall₂ related holds)

/-- The statements of a socket differ only as those of its blocks do. -/
theorem lockstep_statements (socket : String) :
    Lockstep strict (fun code other => strict → code = other) (statements setting block socket)
      (statements setting block socket) :=
  .bind (lockstep_chain ..) fun _ _ same => .done fun holds => by rw [same holds]

/-- A conditional without instruments of its own differs only as its branches do. -/
theorem lockstep_conditional :
    Lockstep strict (Outcome.Alike strict) (conditional setting block)
      (conditional setting block) := by
  have branches (count : Int) : Lockstep strict
      (List.Forall₂ fun code other => strict → code = other)
      (each (branch setting block) (countTo count))
      (each (branch setting block) (countTo count)) := by
    refine .each (fun k => (blind_value ..).bind_lockstep fun condition => ?_) _
    exact .bind (lockstep_statements ..) fun _ _ same => .done fun holds => by rw [same holds]
  have last : Lockstep strict (fun code other => strict → code = other) (otherwise setting block)
      (otherwise setting block) := by
    refine .ite (.bind (lockstep_statements ..) fun _ _ same => ?_) (.done fun _ => rfl)
    exact .done fun holds => by rw [same holds]
  refine (Blind.lift _).bind_lockstep fun further => ?_
  refine .bind (branches _) fun codes twins related => ?_
  refine .bind last fun code other same => .done (.statement fun holds => ?_)
  rw [eq_of_forall₂ related holds, same holds]

variable (statementPrefix loopTrap : Option String)

/-- A template has code for a block whose id can be written. -/
theorem exists_instrument {block : Block n} (written : block.id.display?.isSome = true)
    (template : Option String) : ∃ code, instrument template block = .ok code := by
  obtain ⟨id, shown⟩ := Option.isSome_iff_exists.mp written
  have quoted : quote block.id = .ok (Text.quoted id) := quote_eq_ok.mpr ⟨id, shown, rfl⟩
  unfold instrument
  rw [quoted]
  split
  · exact ⟨_, rfl⟩
  · split
    · exact ⟨_, rfl⟩
    · exact ⟨_, rfl⟩

/-- Two templates have code for a block, the same if they are the same, or fail alike for it. -/
def InstrumentAlike (block : Block n) (template twin : Option String) : Prop :=
  Attempt.Alike (fun code other => template = twin → code = other) (instrument template block)
    (instrument twin block)

/-- An instrument is like itself. -/
theorem InstrumentAlike.refl (block : Block n) (template : Option String) :
    InstrumentAlike block template template :=
  Attempt.Alike.refl (fun _ _ => rfl) _

/-- With an id that can be written, all instruments can be. -/
theorem InstrumentAlike.of_written {block : Block n} (written : block.id.display?.isSome = true)
    (template twin : Option String) : InstrumentAlike block template twin := by
  obtain ⟨code, made⟩ := exists_instrument written template
  obtain ⟨other, madeToo⟩ := exists_instrument written twin
  unfold InstrumentAlike
  rw [made, madeToo]
  refine .ok fun same => ?_
  rw [same, madeToo] at made
  exact (Except.ok.inj made).symm

section Templates

variable {block statementPrefix loopTrap}

/-- The bodies of loops agree if the trap is the same. -/
theorem lockstep_loopBody (traps : InstrumentAlike block setting.options.loopTrap loopTrap)
    (socket : String) :
    Lockstep (setting.options.loopTrap = loopTrap)
      (fun code other => setting.options.loopTrap = loopTrap → code = other)
      (loopBody setting block socket)
      (loopBody (setting.instrumented statementPrefix loopTrap) block socket) := by
  refine .bind (lockstep_statements ..) fun branch twin same => ?_
  refine .bind (.lift traps) fun trap other agree => .done fun holds => ?_
  rw [same holds, agree holds]

/-- The code of a loop agrees if what comes before its body is the same. -/
theorem lockstep_loop (traps : InstrumentAlike block setting.options.loopTrap loopTrap)
    (head : String) :
    Lockstep (setting.options.loopTrap = loopTrap)
      (Outcome.Alike (setting.options.loopTrap = loopTrap))
      (loopBody setting block "DO" >>= fun body => line (head ++ body))
      (loopBody (setting.instrumented statementPrefix loopTrap) block "DO" >>= fun body =>
        line (head ++ body)) := by
  refine .bind (lockstep_loopBody setting traps _) fun body twin same =>
    .done (.statement fun holds => ?_)
  rw [same holds]

/-- Only the body of a procedure is instrumented. -/
theorem lockstep_definition (traps : InstrumentAlike block setting.options.loopTrap loopTrap)
    (prefixes : InstrumentAlike block setting.options.statementPrefix statementPrefix) :
    Lockstep strict (Outcome.Alike strict) (definition setting block)
      (definition (setting.instrumented statementPrefix loopTrap) block) := by
  have bodies (statements twin : String) : Attempt.Alike (fun _ _ => True)
      (definitionBody setting block statements)
      (definitionBody (setting.instrumented statementPrefix loopTrap) block twin) :=
    prefixes.bind fun _ _ _ => traps.bind fun _ _ _ => .ok trivial
  refine (Blind.lift _).bind_lockstep fun arguments => ?_
  refine (Blind.each (fun _ => .variableName _) _).bind_lockstep fun userGlobals => ?_
  refine (Blind.procedureName _).bind_lockstep fun name => ?_
  refine .bind (lockstep_statements ..) fun statements twin _ => ?_
  refine .bind (.lift (bodies statements twin)) fun body other _ => ?_
  refine (blind_value ..).bind_lockstep fun result => ?_
  refine (Blind.each (fun _ => .variableName _) _).bind_lockstep fun params => ?_
  exact .bind (.define ..) fun _ _ _ => .done .nothing

/-- **The generator of every kind is in lockstep** with the one under other instrumentation, and
makes the same code if the trap of loops is the same. -/
theorem lockstep_generate (traps : InstrumentAlike block setting.options.loopTrap loopTrap)
    (prefixes : InstrumentAlike block setting.options.statementPrefix statementPrefix)
    (kind : Kind) :
    Lockstep (setting.options.loopTrap = loopTrap)
      (Outcome.Alike (setting.options.loopTrap = loopTrap)) (kind.generate setting block)
      (kind.generate (setting.instrumented statementPrefix loopTrap) block) := by
  cases kind with
  | number => exact (blind_number setting block).alike
  | arithmetic => exact (blind_arithmetic setting block).alike
  | comparison => exact (blind_comparison setting block).alike
  | connection => exact (blind_connection setting block).alike
  | negation => exact (Blind.bind (blind_value ..) fun _ => .done _).alike
  | truth => exact (Blind.done _).alike
  | null => exact (Blind.done _).alike
  | getVariable => exact (Blind.bind (.variableName _) fun _ => .done _).alike
  | setVariable =>
      exact (Blind.bind (blind_value ..) fun _ => .bind (.variableName _) fun _ => .done _).alike
  | conditional => exact lockstep_conditional setting block
  | conditionalLoop =>
      exact (blind_loopCondition setting block).bind_lockstep fun _ => lockstep_loop setting traps _
  | countedLoop =>
      exact (blind_rounds setting block).bind_lockstep fun _ =>
        (Blind.distinctVariable _).bind_lockstep fun _ => lockstep_loop setting traps _
  | listLoop =>
      exact (Blind.variableName _).bind_lockstep fun _ =>
        (blind_value ..).bind_lockstep fun _ => lockstep_loop setting traps _
  | emptyList => exact (Blind.done _).alike
  | listOf => exact (blind_listOf setting block).alike
  | repeatedItem =>
      exact (Blind.bind (blind_value ..) fun _ => .bind (blind_value ..) fun _ => .done _).alike
  | listLength => exact (Blind.bind (blind_value ..) fun _ => .done _).alike
  | listIsEmpty => exact (Blind.bind (blind_value ..) fun _ => .done _).alike
  | listIndexOf => exact (blind_listIndexOf setting block).alike
  | getIndex => exact (blind_getIndex setting block).alike
  | setIndex => exact (blind_setIndex setting block).alike
  | sublist => exact (blind_part setting block ..).alike
  | sorted => exact (blind_sorted setting block).alike
  | split => exact (blind_split setting block).alike
  | reversed => exact (Blind.bind (blind_value ..) fun _ => .done _).alike
  | text => exact (Blind.bind (.lift _) fun _ => .done _).alike
  | joined => exact (blind_joined setting block).alike
  | append =>
      exact (Blind.bind (.variableName _) fun _ => .bind (blind_value ..) fun _ => .done _).alike
  | textLength => exact (Blind.bind (blind_value ..) fun _ => .done _).alike
  | textIsEmpty => exact (Blind.bind (blind_value ..) fun _ => .done _).alike
  | textIndexOf => exact (blind_textIndexOf setting block).alike
  | letterAt => exact (blind_letterAt setting block).alike
  | substring => exact (blind_part setting block ..).alike
  | changeCase => exact (blind_chosenMethod setting block ..).alike
  | trim => exact (blind_chosenMethod setting block ..).alike
  | print => exact (Blind.bind (blind_value ..) fun _ => .done _).alike
  | promptWithSocket => exact (blind_prompt setting block).alike
  | prompt => exact (blind_prompt setting block).alike
  | occurrences =>
      exact (Blind.bind (blind_value ..) fun _ => .bind (blind_value ..) fun _ => .done _).alike
  | replaced =>
      exact (Blind.bind (blind_value ..) fun _ => .bind (blind_value ..) fun _ =>
        .bind (blind_value ..) fun _ => .done _).alike
  | backwards => exact (Blind.bind (blind_value ..) fun _ => .done _).alike
  | defineWithResult => exact lockstep_definition setting traps prefixes
  | defineWithoutResult => exact lockstep_definition setting traps prefixes
  | callForResult => exact (Blind.bind (blind_call setting block) fun _ => .done _).alike
  | callForEffect => exact (Blind.bind (blind_call setting block) fun _ => .done _).alike
  | earlyReturn => exact (blind_earlyReturn setting block).alike

end Templates

/-- The pieces of a program differ only as its blocks do. -/
theorem lockstep_pieces (tops : List (Fin n)) :
    Lockstep strict (fun body other => strict → body = other) (pieces setting tops)
      (pieces (setting.instrumented statementPrefix loopTrap) tops) := by
  induction tops with
  | nil => exact .done fun _ => rfl
  | cons top rest ih =>
      refine .ite (.block top fun _ _ _ => ih) ?_
      refine .bind (lockstep_chain ..) fun code other same => ?_
      refine .bind ih fun body twin agree => .done fun holds => ?_
      rw [same holds, agree holds]
      rfl

/-- A program and the instrumented one take the same steps, with outcomes that are alike. -/
theorem lockstep_program :
    Lockstep strict (fun parts other => strict → parts = other) (program setting)
      (program (setting.instrumented statementPrefix loopTrap)) := by
  refine (Blind.each (fun _ => .variableName _) _).bind_lockstep fun userNames => ?_
  refine (Blind.each (fun _ => .developerName _) _).bind_lockstep fun developerNames => ?_
  exact .bind (lockstep_pieces ..) fun body twin same => .done fun holds => by rw [same holds]

end Gen

namespace Setting

variable (setting : Setting n) (statementPrefix loopTrap : Option String)

/-- The templates of a setting and others have code for the same blocks. -/
structure Instruments : Prop where
  loopTrap : ∀ ref, Gen.InstrumentAlike (setting.block ref) setting.options.loopTrap loopTrap
  statementPrefix : ∀ ref,
    Gen.InstrumentAlike (setting.block ref) setting.options.statementPrefix statementPrefix

variable {setting statementPrefix loopTrap}

/-- Blocks are in lockstep, at any depth. -/
theorem lockstep_outcome (instruments : setting.Instruments statementPrefix loopTrap)
    (depth : Nat) (ref : Fin n) :
    Emission.Lockstep (Outcome.Alike (setting.options.loopTrap = loopTrap))
      (setting.outcome depth ref)
      ((setting.instrumented statementPrefix loopTrap).outcome depth ref) := by
  induction depth generalizing ref with
  | zero =>
      unfold outcome
      refine .bind (.ofExcept _) ?_
      rintro found _ rfl
      cases found with
      | none => exact .throw _
      | some kind => exact .throw _
  | succ depth ih =>
      unfold outcome
      refine .bind (.ofExcept _) ?_
      rintro found _ rfl
      cases found with
      | none => exact .throw _
      | some kind =>
          refine .bind .get fun pass twin close => ?_
          have active : pass.active = twin.active :=
            (congrArg Pass.active close : pass.outline.active = _)
          rw [active]
          cases twin.active.contains ref with
          | true => exact .throw _
          | false =>
              exact .within ref (Gen.Lockstep.runWith ih
                (Gen.lockstep_generate setting (instruments.loopTrap ref)
                  (instruments.statementPrefix ref) kind))

/-- The program as a whole is in lockstep. -/
theorem lockstep_run (instruments : setting.Instruments statementPrefix loopTrap) :
    Emission.Lockstep (fun parts other => setting.options.loopTrap = loopTrap → parts = other)
      (setting.run (Gen.program setting))
      ((setting.instrumented statementPrefix loopTrap).run
        (Gen.program (setting.instrumented statementPrefix loopTrap))) :=
  Gen.Lockstep.runWith (lockstep_outcome instruments n)
    (Gen.lockstep_program ..)

end Setting

/-- The sections that procedures are written in. -/
def Listing.procedureSections (pass : Pass n) (parts : Parts) : List Section :=
  pass.procedures.entries.map fun procedure =>
    ⟨procedure.render (developerGlobals parts.developerNames pass.temporaries), procedure.owner⟩

/-- Two passes have the same in their tables, but for the bodies of procedures. -/
structure Pass.SameTables (pass other : Pass n) : Prop where
  imports : pass.imports = other.imports
  helpers : pass.helpers = other.helpers
  functionNames : pass.functionNames = other.functionNames
  temporaries : pass.temporaries = other.temporaries
  names : pass.names = other.names
  procedures : Procedure.outlines pass.procedures = Procedure.outlines other.procedures

/-- Passes with one outline have the same tables. -/
theorem Pass.SameTables.of_outline {pass other : Pass n} (close : pass.outline = other.outline) :
    pass.SameTables other where
  imports := (congrArg Pass.imports close : pass.outline.imports = _)
  helpers := (congrArg Pass.helpers close : pass.outline.helpers = _)
  functionNames := (congrArg Pass.functionNames close : pass.outline.functionNames = _)
  temporaries := (congrArg Pass.temporaries close : pass.outline.temporaries = _)
  names := (congrArg Pass.names close : pass.outline.names = _)
  procedures := congrArg Pass.procedures close

/-- Listings of passes with the same tables and of the same parts differ in the sections of
procedures only. -/
theorem Listing.sections_of_sameTables {pass other : Pass n} (same : pass.SameTables other)
    (parts : Parts) :
    ∃ before after, sections pass parts = before ++ procedureSections pass parts ++ after ∧
      sections other parts = before ++ procedureSections other parts ++ after := by
  refine ⟨_, _, rfl, ?_⟩
  rw [same.imports, same.helpers]
  rfl

/-- **Instrumentation does not interfere.** A program whose blocks have ids that can be written, as
every text can, is emitted with some options and with others that differ in the statement prefix and
the trap of loops only. Both fail with the same fault, or both succeed, and then they have come to
the same imports, helpers, function names, temporaries and names and to the same procedures but for
their bodies. If the trap of loops is the same, all sections of the listings are the same but for
those of procedures. -/
theorem Setting.emit_instrumented (setting : Setting n)
    (written : ∀ ref, (setting.block ref).id.display?.isSome = true)
    (statementPrefix loopTrap : Option String) (pass twin : Pass n) :
    let first := setting.emit.run.run pass
    let second := (setting.instrumented statementPrefix loopTrap).emit.run.run twin
    (∃ fault, first.1 = .error fault ∧ second.1 = .error fault) ∨
      ∃ listing other parts others,
        first.1 = .ok listing ∧ second.1 = .ok other ∧ first.2.SameTables second.2 ∧
          listing = Listing.assemble first.2 parts ∧ other = Listing.assemble second.2 others ∧
          (setting.options.loopTrap = loopTrap → parts = others ∧ ∃ before after,
            Listing.sections first.2 parts =
              before ++ Listing.procedureSections first.2 parts ++ after ∧
            Listing.sections second.2 others =
              before ++ Listing.procedureSections second.2 others ++ after) := by
  intro first second
  have instruments : setting.Instruments statementPrefix loopTrap :=
    ⟨fun ref => .of_written (written ref) .., fun ref => .of_written (written ref) ..⟩
  have lockstep (log record : List String) := lockstep_run instruments
    { Pass.start Names.start with log := log } { Pass.start Names.start with log := record } rfl
  have alike : Attempt.Alike (fun _ _ => True) first.1 second.1 := by
    obtain ⟨log, emitted⟩ := setting.run_emit pass
    obtain ⟨record, reemitted⟩ := (setting.instrumented statementPrefix loopTrap).run_emit twin
    rw [emitted, reemitted]
    exact (lockstep log record).1.map ..
  rcases alike.cases with failed | ⟨listing, other, emitted, reemitted, _⟩
  · exact .inl failed
  · obtain ⟨log, parts, finished, made, assembled, last⟩ :=
      program_of_emit (Prod.ext emitted rfl : first = (.ok listing, first.2))
    obtain ⟨record, others, ended, remade, reassembled, relast⟩ :=
      program_of_emit (Prod.ext reemitted rfl : second = (.ok other, second.2))
    obtain ⟨results, close⟩ := lockstep log record
    rw [made, remade] at results close
    -- The last notice is all that a listing adds to the pass of its program.
    have tables : first.2.SameTables second.2 := by
      rw [last, relast]
      exact .of_outline close
    refine .inr ⟨listing, other, parts, others, emitted, reemitted, tables, ?_, ?_, fun same => ?_⟩
    · rw [assembled, last]
      rfl
    · rw [reassembled, relast]
      rfl
    · cases results with
      | ok agree =>
          rw [← agree same]
          exact ⟨rfl, Listing.sections_of_sameTables tables parts⟩

/-- A loop with a trap is emitted without it, but with a statement prefix. -/
theorem Setting.emit_instrumented_loopSample :
    (∀ ref, (loopSample.block ref).id.display?.isSome = true) ∧
      ∃ listing other, (loopSample.emit.run.run (Pass.start Names.start)).1 = .ok listing ∧
        ((loopSample.instrumented (some "step(%1)") none).emit.run.run
          (Pass.start Names.start)).1 = .ok other ∧
        (loopSample.emit.run.run (Pass.start Names.start)).2.SameTables
          ((loopSample.instrumented (some "step(%1)") none).emit.run.run
            (Pass.start Names.start)).2 := by
  have written : ∀ ref, (loopSample.block ref).id.display?.isSome = true := by decide
  have succeeds : (loopSample.emit.run.run (Pass.start Names.start)).1.isOk = true := by
    decide +kernel
  refine ⟨written, ?_⟩
  rcases emit_instrumented loopSample written (some "step(%1)") none (Pass.start Names.start)
    (Pass.start Names.start) with ⟨fault, failed, _⟩ | ⟨listing, other, _, _, first, second, same, _⟩
  · rw [failed] at succeeds
    cases succeeds
  · exact ⟨listing, other, first, second, same⟩

end BlockScript
