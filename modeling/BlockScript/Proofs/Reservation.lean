import BlockScript.Proofs.Charter

/-! # Reserved variables

The variables of a program are collected before any code is generated, by a walk over the graph that
knows nothing of generators, and the listing declares them. Generators go through the graph in their
own way, socket by socket and with defaults, and yet they name no variable of a block that the walk
has missed. What else is named as a variable are parameters of procedures, and the variable of
blocks that name none (`Setting.Reserved`, `Setting.emit_reserves`).
-/

namespace BlockScript

variable {n : Nat}

/-! ## The walk -/

namespace Workspace

theorem among_addNew {value added : Value} {values : List Value}
    (listed : value.among values = true) : value.among (addNew values added) = true := by
  unfold addNew
  split
  · exact listed
  · unfold Value.among at listed ⊢
    rw [List.any_append, listed, Bool.true_or]

theorem among_addNew_self {value : Value} (values : List Value) (atom : value.isAtom = true) :
    value.among (addNew values value) = true := by
  unfold addNew
  split
  · assumption
  · unfold Value.among
    rw [List.any_append, List.any_cons, Value.same_self atom, Bool.true_or, Bool.or_true]

theorem among_foldl {value : Value} (atom : value.isAtom = true) (values : List Value)
    {added : List Value} (listed : value.among values = true ∨ value ∈ added) :
    value.among (added.foldl addNew values) = true := by
  induction added generalizing values with
  | nil => exact listed.resolve_right (List.not_mem_nil)
  | cons first rest ih =>
      apply ih
      rcases listed with listed | member
      · exact .inl (among_addNew listed)
      · rcases List.mem_cons.mp member with rfl | member
        · exact .inl (among_addNew_self values atom)
        · exact .inr member

/-- **The walk misses no variable** of the blocks that the top-level blocks lead to. -/
theorem among_usedVariables (workspace : Workspace n) {ref : Fin n}
    (reached : ref ∈ workspace.allBlocks) {name : Value}
    (named : (workspace.graph.block ref).field? "VAR" = some name) (atom : name.isAtom = true) :
    name.among workspace.usedVariables = true :=
  among_foldl atom _ (.inr (List.mem_filterMap.mpr ⟨ref, reached, named⟩))

end Workspace

/-! ## The section of variables -/

/-- Identifiers are written on one line. -/
theorem Names.IsIdentifier.newline_not_mem {text : String} (proper : IsIdentifier text) :
    '\n' ∉ text.toList := by
  obtain ⟨c, rest, chars, first, _, others⟩ := proper
  rw [chars]
  intro member
  rcases List.mem_cons.mp member with rfl | member
  · exact absurd first (by decide)
  · exact absurd (others _ member) (by decide)

theorem Text.fullLines_line {text : List Char} (plain : '\n' ∉ text) :
    fullLines (text ++ ['\n']) = [text ++ ['\n']] := by
  induction text with
  | nil => rfl
  | cons c rest ih =>
      have other : c ≠ '\n' := fun same => plain (same ▸ List.mem_cons_self ..)
      have others : '\n' ∉ rest := fun member => plain (List.mem_cons_of_mem _ member)
      rw [List.cons_append, fullLines, if_neg other, ih others]

namespace Listing

/-- The line that declares a variable. -/
def declaration (identifier : String) : String := identifier ++ " = None\n"

/-- The section of a listing that declares the variables. -/
def declarations (parts : Parts) : Section :=
  plain (String.join ((parts.userNames ++ parts.developerNames).map declaration))

/-- A listing in which a variable is declared has the section. -/
theorem mem_sections_declarations {pass : Pass n} {parts : Parts} {identifier : String}
    (named : identifier ∈ parts.userNames ++ parts.developerNames) :
    declarations parts ∈ sections pass parts := by
  have nonempty : (parts.userNames ++ parts.developerNames).isEmpty = false := by
    rw [List.isEmpty_eq_false_iff_exists_mem]
    exact ⟨identifier, named⟩
  have listed : declarations parts ∈ unlessEmpty (parts.userNames ++ parts.developerNames)
      (declarations parts).text := by
    rw [unlessEmpty, nonempty]
    exact List.mem_singleton_self _
  simp only [sections, List.mem_append]
  exact .inl (.inl (.inl (.inr listed)))

theorem fullLines_declarations {identifiers : List String}
    (proper : ∀ identifier ∈ identifiers, Names.IsIdentifier identifier) :
    Text.fullLines (String.join (identifiers.map declaration)).toList =
      identifiers.map fun identifier => (declaration identifier).toList := by
  induction identifiers with
  | nil => rfl
  | cons identifier rest ih =>
      obtain ⟨own, others⟩ := List.forall_mem_cons.mp proper
      have chars : (declaration identifier).toList =
          (identifier.toList ++ " = None".toList) ++ ['\n'] := by
        simp [declaration]
      have plain : '\n' ∉ identifier.toList ++ " = None".toList := by
        rw [List.mem_append, not_or]
        exact ⟨own.newline_not_mem, by decide⟩
      have ended : Text.Ended (declaration identifier).toList := by
        rw [chars]
        exact .inr List.getLast?_concat
      rw [List.map_cons, String.join_cons, String.toList_append, Text.fullLines_append ended,
        ih others, chars, Text.fullLines_line plain, ← chars]
      rfl

end Listing

namespace Setting

variable {setting : Setting n}

/-- Variables are reserved for all that a program names. -/
structure Reserved (setting : Setting n) (begun : Pass n) (parts : Parts) (finished : Pass n) :
    Prop where
  /-- The identifiers that come first are those of the variables of the program. -/
  names : List.Forall₂ (finished.Identifies .user) setting.workspace.usedVariables parts.userNames
  /-- The section of variables has a line for each, which begins with its identifier. -/
  lines : Text.fullLines (Listing.declarations parts).text.toList =
    (parts.userNames ++ parts.developerNames).map fun identifier =>
      (Listing.declaration identifier).toList
  /-- The variable that a block names is a variable of the program and is declared. -/
  declared : ∀ ref name identifier,
    setting.Asks (Gen.program setting) begun (some ref) (.identifier .user name) identifier →
    (setting.block ref).field? "VAR" = some name →
      name.among setting.workspace.usedVariables = true ∧
      Listing.declarations parts ∈ Listing.sections finished parts ∧
      (Listing.declaration identifier).toList ∈
        Text.fullLines (Listing.declarations parts).text.toList
  /-- Whatever else has an identifier as a variable is a parameter of a definition or named by a
  block without a variable. -/
  others : ∀ label name identifier, ((label, name), identifier) ∈ finished.names.table →
    label.same Space.user.label = true →
      name.among setting.workspace.usedVariables = true ∨ ∃ ref,
        setting.Asks (Gen.program setting) begun (some ref) (.identifier .user name) identifier ∧
        (Kind.isDefinition (setting.block ref).kind = true ∧
            (∃ arguments, (setting.block ref).arguments = .ok arguments ∧ name ∈ arguments) ∨
          (setting.block ref).field? "VAR" = none ∧ name = .null)

/-- The variable that a block names is collected, if it is not a parameter or missing. -/
theorem among_of_names {ref : Fin n} (reached : ref ∈ setting.workspace.allBlocks) {name : Value}
    (atom : name.isAtom = true) (named : (setting.scopeOf (some ref)).names .user name) :
    name.among setting.workspace.usedVariables = true ∨
      Kind.isDefinition (setting.block ref).kind = true ∧
        (∃ arguments, (setting.block ref).arguments = .ok arguments ∧ name ∈ arguments) ∨
      (setting.block ref).field? "VAR" = none ∧ name = .null := by
  rcases named with named | member | parameter
  · cases given : (setting.block ref).field? "VAR" with
    | some value =>
        rw [Block.field, given, Option.getD_some] at named
        cases named
        exact .inl (setting.workspace.among_usedVariables reached given atom)
    | none =>
        rw [Block.field, given] at named
        exact .inr (.inr ⟨rfl, named⟩)
  · exact .inl (List.any_eq_true.mpr ⟨name, member, Value.same_self atom⟩)
  · exact .inr (.inl parameter)

section Program

variable {log : List String} {parts : Parts} {finished : Pass n}
  (ran : (setting.run (Gen.program setting)).run.run { Pass.start Names.start with log := log } =
    (.ok parts, finished))

include ran

/-- Whatever is the same as a variable of the program has an identifier that is given first. -/
theorem mem_userNames {name : Value} {identifier : String}
    (listed : name.among setting.workspace.usedVariables = true)
    (identifies : finished.Identifies .user name identifier) : identifier ∈ parts.userNames := by
  obtain ⟨known, member, same⟩ := List.any_eq_true.mp listed
  obtain ⟨given, present, identified⟩ := exists_related (identifies_of_program ran).1 member
  have found := (identified.congr identifies.atom same).found
  rw [identifies.found] at found
  cases found
  exact present

/-- Variables are declared by identifiers. -/
theorem isIdentifier_of_declared {identifier : String}
    (given : identifier ∈ parts.userNames ++ parts.developerNames) :
    Names.IsIdentifier identifier := by
  obtain ⟨users, developers⟩ := identifies_of_program ran
  have filed : identifier ∈ finished.names.table.map (·.2) := by
    rcases List.mem_append.mp given with given | given
    · obtain ⟨_, _, identified⟩ := exists_related users.flip given
      exact identified.filed
    · obtain ⟨_, _, identified⟩ := exists_related developers.flip given
      exact identified.filed
  have ledger := ledger_of_program ran
  exact (ledger.named identifier (ledger.used identifier (List.mem_append_left _ filed))).1

/-- The names that are filed in a run were asked for. -/
theorem asks_of_mem_table {label name : Value} {identifier : String}
    (filed : ((label, name), identifier) ∈ finished.names.table) :
    ∃ asker space, label = space.label ∧
      setting.Asks (Gen.program setting) { Pass.start Names.start with log := log } asker
        (.identifier space name) identifier := by
  obtain ⟨asker, request, result, before, after, asks, effect, absent, present⟩ :=
    setting.exists_served (fun pass => ((label, name), identifier) ∈ pass.names.table)
      (fun _ _ member => member) List.nodup_nil (congrArg Prod.snd ran) List.not_mem_nil filed
  cases effect with
  | filed log _ _ =>
      rcases List.mem_append.mp present with known | added
      · exact (absent known).elim
      · cases List.mem_singleton.mp added
        exact ⟨asker, _, rfl, asks _ rfl⟩
  | _ => exact (absent present).elim

/-- and if they are names of variables, the user's variables are meant. -/
theorem eq_user_of_asks {asker : Option (Fin n)} {space : Space} {name : Value}
    {identifier : String}
    (asks : setting.Asks (Gen.program setting) { Pass.start Names.start with log := log } asker
      (.identifier space name) identifier)
    (labelled : space.label.same Space.user.label = true) : space = .user := by
  obtain ⟨⟨_, named⟩, _⟩ := charter_of_asks ran asks (fun _ same => nomatch same)
  cases space with
  | user => rfl
  | procedure | developer => exact absurd (Value.text.inj (Value.same_text.mp labelled)) (by decide)
  | custom label => cases asker <;> exact named.elim

theorem reserved_of_program :
    setting.Reserved { Pass.start Names.start with log := log } parts finished := by
  have lines : Text.fullLines (Listing.declarations parts).text.toList = _ :=
    Listing.fullLines_declarations fun _ given => isIdentifier_of_declared ran given
  constructor
  case names => exact (identifies_of_program ran).1
  case lines => exact lines
  case declared =>
    intro ref name identifier asks named
    obtain ⟨⟨takes, _⟩, identifies⟩ := charter_of_asks ran asks (fun _ same => nomatch same)
    have listed := setting.workspace.among_usedVariables (takes ref rfl) named identifies.atom
    have given := List.mem_append_left parts.developerNames (mem_userNames ran listed identifies)
    refine ⟨listed, Listing.mem_sections_declarations given, ?_⟩
    rw [lines]
    exact List.mem_map.mpr ⟨identifier, given, rfl⟩
  case others =>
    intro label name identifier filed labelled
    obtain ⟨asker, space, rfl, asks⟩ := asks_of_mem_table ran filed
    cases eq_user_of_asks ran asks labelled
    obtain ⟨⟨takes, named⟩, identifies⟩ := charter_of_asks ran asks (fun _ same => nomatch same)
    rcases asker with _ | ref
    · exact .inl (List.any_eq_true.mpr ⟨name, named, Value.same_self identifies.atom⟩)
    · rcases among_of_names (takes ref rfl) identifies.atom named with listed | other
      · exact .inl listed
      · exact .inr ⟨ref, asks, other⟩

end Program

/-- **Variables are reserved for all that is named.** When a listing is emitted, the program has
been run from a new pass. Every variable that the generator of a block names for the block's field
is one of those that were collected before, and the section of variables has its line. Anything else
that the run files as a variable is a parameter of a definition, or was named by a block whose field
is missing or null. -/
theorem emit_reserves {pass after : Pass n} {listing : Listing}
    (ran : setting.emit.run.run pass = (.ok listing, after)) :
    ∃ log parts finished,
      (setting.run (Gen.program setting)).run.run { Pass.start Names.start with log := log } =
        (.ok parts, finished) ∧
      listing = Listing.assemble finished parts ∧
      setting.Reserved { Pass.start Names.start with log := log } parts finished := by
  obtain ⟨log, parts, finished, made, assembled, _⟩ := program_of_emit ran
  exact ⟨log, parts, finished, made, assembled, reserved_of_program made⟩

/-- A procedure with a parameter, in which a variable is set to one that has no name, and a loop
over a variable, with others in sockets and in the block that follows. -/
def reservationSample : Setting 10 :=
  .ofBlocks #v[
    { Block.ofKind .defineWithoutResult [("NAME", .text "f")] [(.text "STACK", some 1)] with
      mutation := [("arguments", .list [.text "a"])] },
    .ofKind .setVariable [("VAR", .text "x")] [(.text "VALUE", some 2)],
    .ofKind .getVariable [] [],
    { Block.ofKind .listLoop [("VAR", .text "print")]
        [(.text "LIST", some 4), (.text "DO", some 6)] with next := some 8 },
    { Block.ofKind .listOf [] [(.text "ADD0", some 5)] with mutation := [("items", .int 1)] },
    .ofKind .getVariable [("VAR", .text "z")] [],
    .ofKind .print [] [(.text "TEXT", some 7)],
    .ofKind .getVariable [("VAR", .text "print")] [],
    .ofKind .append [("VAR", .text "y")] [(.text "TEXT", some 9)],
    .ofKind .text [("TEXT", .text "end")] []] [0, 3]

theorem emit_reserves_reservationSample :
    ∃ listing after,
      reservationSample.emit.run.run (Pass.start Names.start) = (.ok listing, after) ∧
      listing.code = "x = None\nprint2 = None\nz = None\ny = None\n\ndef f(a):\n" ++
        "    global x, print2, z, y\n    x = unnamed\n\nfor print2 in [z]:\n" ++
        "    print(print2)\ny = str(y) + str('end')\n" ∧
      ∃ log parts finished,
        (reservationSample.run (Gen.program reservationSample)).run.run
          { Pass.start Names.start with log := log } = (.ok parts, finished) ∧
        listing = Listing.assemble finished parts ∧
        reservationSample.Reserved { Pass.start Names.start with log := log } parts finished := by
  have computed : (reservationSample.emit.run.run (Pass.start Names.start)).1.toOption.map
      (·.code) = some ("x = None\nprint2 = None\nz = None\ny = None\n\ndef f(a):\n" ++
        "    global x, print2, z, y\n    x = unnamed\n\nfor print2 in [z]:\n" ++
        "    print(print2)\ny = str(y) + str('end')\n") := by
    decide +kernel
  obtain ⟨listing, made, code⟩ := Option.map_eq_some_iff.mp computed
  have ran := Step.eq_ok_of_toOption made
  exact ⟨listing, _, ran, code, emit_reserves ran⟩

end Setting

end BlockScript
