import BlockScript.Proofs.Charter

/-! # Global identifiers of procedures

A procedure is entered when its definition is generated and written when the program is finished, so
the line that declares its global identifiers has the temporaries that came later, too. Parameters
are left out twice, by name when the definition is generated and by identifier when it is written;
since identifiers tell names apart, once would do, and what is declared can be read off from the
names (`Setting.Globals`, `Setting.emit_globals`).
-/

namespace BlockScript

variable {n : Nat}

/-! ## First occurrences -/

namespace Procedure

/-- What is not among others, each at its first occurrence. -/
theorem distinct_eq (known names : List String) :
    distinct known names = (names.filter fun name => !known.contains name).eraseDups := by
  induction names generalizing known with
  | nil => rfl
  | cons name rest ih =>
      unfold distinct
      split
      · rename_i member
        rw [List.filter_cons_of_neg (by simpa using member), ih]
      · rename_i absent
        rw [List.filter_cons_of_pos (by simpa using absent), List.eraseDups_cons,
          List.filter_filter, ih]
        simp only [List.contains_cons, Bool.not_or]

theorem not_mem_distinct {name : String} {known : List String} (member : name ∈ known)
    (names : List String) : name ∉ distinct known names := by
  rw [distinct_eq, List.mem_eraseDups]
  simp [member]

theorem nodup_distinct (known names : List String) : (distinct known names).Nodup := by
  induction names generalizing known with
  | nil => exact .nil
  | cons name rest ih =>
      unfold distinct
      split
      · exact ih known
      · exact List.nodup_cons.mpr ⟨not_mem_distinct (List.mem_cons_self ..) rest, ih _⟩

theorem eraseDups_of_nodup {names : List String} (nodup : names.Nodup) :
    names.eraseDups = names := by
  induction names with
  | nil => rfl
  | cons name rest ih =>
      obtain ⟨absent, others⟩ := List.nodup_cons.mp nodup
      have kept : rest.filter (fun other => !other == name) = rest := by
        apply List.filter_eq_self.mpr
        intro other member
        have apart : other ≠ name := fun same => absent (same ▸ member)
        simpa using apart
      rw [List.eraseDups_cons, kept, ih others]

theorem eraseDups_append_of_disjoint {names others : List String} (apart : names.Disjoint others) :
    (names ++ others).eraseDups = names.eraseDups ++ others.eraseDups := by
  have kept : others.removeAll names = others := by
    apply List.filter_eq_self.mpr
    intro other member
    simpa using fun present => apart present member
  rw [List.eraseDups_append, kept]

/-- The identifiers that a procedure declares as global, when all identifiers are apart. -/
theorem globals_eq {procedure : Procedure} {developer temporaries : List String}
    (params : procedure.params.Disjoint (procedure.userGlobals ++ (developer ++ temporaries)))
    (users : procedure.userGlobals.Disjoint (developer ++ temporaries))
    (developers : developer.Disjoint temporaries) (nodup : temporaries.Nodup) :
    procedure.globals (Listing.developerGlobals developer temporaries) =
      procedure.userGlobals.eraseDups ++ (developer.eraseDups ++ temporaries) := by
  have later : temporaries.filter (· ∉ developer) = temporaries := by
    apply List.filter_eq_self.mpr
    intro temporary member
    simpa using fun present => developers present member
  have kept : (procedure.userGlobals ++ (developer ++ temporaries)).filter
      (fun name => !procedure.params.contains name) =
        procedure.userGlobals ++ (developer ++ temporaries) := by
    apply List.filter_eq_self.mpr
    intro name member
    simpa using fun param => params param member
  rw [globals, Listing.developerGlobals, later, distinct_eq, kept,
    eraseDups_append_of_disjoint users, eraseDups_append_of_disjoint developers,
    eraseDups_of_nodup nodup]

end Procedure

/-- The user's variables and the developer's have no identifier in common. -/
theorem Pass.Identifies.not_developer {pass : Pass n} {name other : Value} {identifier : String}
    (user : pass.Identifies .user name identifier)
    (developer : pass.Identifies .developer other identifier) (ledger : pass.Ledger) : False := by
  have labels := (user.same developer ledger rfl rfl).1
  exact absurd (Value.text.inj (Value.same_text.mp labels)) (by decide)

namespace Setting

variable {setting : Setting n}

/-- The identifiers that a procedure with some parameters declares as global: those of the variables
of the program that are no parameters, those of the developer's variables and the temporaries. -/
structure Globals (setting : Setting n) (finished : Pass n) (arguments : List Value)
    (names : List String) : Prop where
  listed : ∃ others developers,
    List.Forall₂ (finished.Identifies .user)
      (setting.workspace.usedVariables.filter (!·.among arguments)) others ∧
    List.Forall₂ (finished.Identifies .developer) setting.workspace.developerVariables developers ∧
    names = others.eraseDups ++ (developers.eraseDups ++ finished.temporaries)
  distinct : names.Nodup

/-- Procedures are written with a line that declares their global identifiers. -/
structure WritesGlobals (setting : Setting n) (begun : Pass n) (parts : Parts)
    (finished : Pass n) : Prop where
  /-- The temporaries are those that were asked for at any time. -/
  temporaries : ∀ identifier, identifier ∈ finished.temporaries ↔ ∃ name,
    setting.Answers (Gen.program setting) begun (.temporary name) identifier
  /-- Each procedure was entered by a definition and stands in the listing with its line. -/
  procedures : ∀ procedure ∈ finished.procedures.entries, ∃ ref arguments names,
    setting.Asks (Gen.program setting) begun (some ref) (.define procedure) () ∧
    setting.Builds finished ref arguments procedure ∧
    setting.Globals finished arguments names ∧
    procedure.params.Disjoint names ∧
    ⟨"def " ++ procedure.name ++ "(" ++ String.intercalate ", " procedure.params ++ "):\n"
        ++ (if names.isEmpty then ""
          else Text.margin ++ "global " ++ String.intercalate ", " names ++ "\n")
        ++ procedure.body ++ procedure.returnLine, procedure.owner⟩ ∈
      Listing.sections finished parts

section Program

variable {log : List String} {parts : Parts} {finished : Pass n}
  (ran : (setting.run (Gen.program setting)).run.run { Pass.start Names.start with log := log } =
    (.ok parts, finished))

include ran

/-- The temporaries of a finished program are those that were asked for. -/
theorem mem_temporaries (identifier : String) :
    identifier ∈ finished.temporaries ↔ ∃ name,
      setting.Answers (Gen.program setting) { Pass.start Names.start with log := log }
        (.temporary name) identifier := by
  constructor
  · intro member
    obtain ⟨asker, request, result, before, after, asks, effect, absent, present⟩ :=
      setting.exists_served (fun pass => identifier ∈ pass.temporaries)
        (fun _ _ member => member) List.nodup_nil (congrArg Prod.snd ran) List.not_mem_nil member
    cases effect with
    | temporary log novel =>
        rcases List.mem_append.mp present with known | added
        · exact (absent known).elim
        · cases List.mem_singleton.mp added
          exact ⟨_, (asks _ rfl).answers⟩
    | _ => exact (absent present).elim
  · rintro ⟨name, answers⟩
    obtain ⟨before, after, effect, grown⟩ :=
      answers.exists_effect (fun _ same => nomatch same) List.nodup_nil
    rw [ran] at grown
    apply grown.temporaries.subset
    cases effect with
    | temporary _ _ => exact List.mem_append_right _ (List.mem_singleton_self _)

/-- **Parameters, variables and temporaries are apart** in the procedures that definitions build. -/
theorem globals_of_builds {ref : Fin n} {arguments : List Value} {procedure : Procedure}
    (builds : setting.Builds finished ref arguments procedure) :
    procedure.globals (Listing.developerGlobals parts.developerNames finished.temporaries) =
      procedure.userGlobals.eraseDups ++
        (parts.developerNames.eraseDups ++ finished.temporaries) := by
  have ledger := ledger_of_program ran
  have temporaryApart {space : Space} {name : Value} {identifier : String}
      (identifies : finished.Identifies space name identifier) :
      identifier ∉ finished.temporaries :=
    fun temporary => (ledger.temporary temporary).1 identifies.filed
  have developers := (identifies_of_program ran).2
  -- An identifier of a user's variable is apart from the developer's and from temporaries.
  have userApart {name : Value} {identifier : String}
      (identifies : finished.Identifies .user name identifier) :
      identifier ∉ parts.developerNames ++ finished.temporaries := by
    intro member
    rcases List.mem_append.mp member with developer | temporary
    · obtain ⟨_, _, other⟩ := exists_related developers.flip developer
      exact identifies.not_developer other ledger
    · exact temporaryApart identifies temporary
  apply Procedure.globals_eq
  · intro identifier param member
    obtain ⟨argument, announced, own⟩ := exists_related builds.params.flip param
    rcases List.mem_append.mp member with global | other
    · obtain ⟨used, listed, identifies⟩ := exists_related builds.userGlobals.flip global
      have same := (own.same identifies ledger rfl rfl).2
      have among : used.among arguments = true := List.any_eq_true.mpr ⟨argument, announced, same⟩
      have excluded := (List.mem_filter.mp listed).2
      rw [among] at excluded
      cases excluded
    · exact userApart own other
  · intro identifier global member
    obtain ⟨_, _, identifies⟩ := exists_related builds.userGlobals.flip global
    exact userApart identifies member
  · intro identifier developer temporary
    obtain ⟨_, _, identifies⟩ := exists_related developers.flip developer
    exact temporaryApart identifies temporary
  · exact (List.nodup_append.mp (List.nodup_append.mp ledger.distinct).2.1).2.1

end Program

/-- **The global line of procedures is exact.** When a listing is emitted, the program has been run
from a new pass. Each of its procedures was entered by the generator of a definition, and it is
written with a line of global identifiers: those of the variables of the program that are no
arguments of the definition, those of the developer's variables and all temporaries that were asked
for at any time, in this order, each once and none of them a parameter. There is no such line if
there are no such identifiers. -/
theorem emit_globals {pass after : Pass n} {listing : Listing}
    (ran : setting.emit.run.run pass = (.ok listing, after)) :
    ∃ log parts finished,
      (setting.run (Gen.program setting)).run.run { Pass.start Names.start with log := log } =
        (.ok parts, finished) ∧
      listing = Listing.assemble finished parts ∧
      setting.WritesGlobals { Pass.start Names.start with log := log } parts finished := by
  obtain ⟨log, parts, finished, made, assembled, _⟩ := program_of_emit ran
  refine ⟨log, parts, finished, made, assembled, mem_temporaries made, ?_⟩
  intro procedure registered
  obtain ⟨ref, arguments, asks, builds⟩ := exists_builds made registered
  have globals := globals_of_builds made builds
  have developers := (identifies_of_program made).2
  refine ⟨ref, arguments, _, asks, builds, ⟨⟨_, _, builds.userGlobals, developers, globals⟩, ?_⟩,
    ?_, ?_⟩
  · exact Procedure.nodup_distinct _ _
  · exact fun name param => Procedure.not_mem_distinct param _
  · simp only [Listing.sections, List.mem_append]
    exact .inl (.inr (List.mem_map.mpr ⟨procedure, registered, rfl⟩))

/-- A procedure that sets a variable to its parameter, which is a variable of the program, too, and
after it one that takes temporaries. A variable is declared twice, and the developer has one of the
same name. -/
def globalSample : Setting 9 where
  workspace :=
    { graph := ⟨#v[
        { Block.ofKind .defineWithResult [("NAME", .text "f")]
            [(.text "STACK", some 1), (.text "RETURN", some 3)] with
          mutation := [("arguments", .list [.text "a"])] },
        .ofKind .setVariable [("VAR", .text "b")] [(.text "VALUE", some 2)],
        .ofKind .getVariable [("VAR", .text "a")] [],
        .ofKind .getVariable [("VAR", .text "a")] [],
        .ofKind .defineWithoutResult [("NAME", .text "g")] [(.text "STACK", some 5)],
        .ofKind .setIndex [("WHERE", .text "RANDOM")]
          [(.text "LIST", some 6), (.text "TO", some 8)],
        .ofKind .reversed [] [(.text "LIST", some 7)],
        .ofKind .getVariable [("VAR", .text "b")] [],
        .ofKind .number [("NUM", .int 0)] []]⟩
      roots := [0, 4]
      userVariables := [.text "b", .text "a", .text "b"]
      developerVariables := [.text "trace", .text "b"]
      oneBased := true }
  options := {}

theorem emit_globals_globalSample :
    ∃ listing after,
      globalSample.emit.run.run (Pass.start Names.start) = (.ok listing, after) ∧
      listing.code = "import random\n\nb = None\na = None\nb = None\ntrace = None\nb2 = None\n\n" ++
        "def f(a):\n    global b, trace, b2, tmp_list, tmp_x\n    b = a\n    return a\n\n" ++
        "def g():\n    global b, a, trace, b2, tmp_list, tmp_x\n" ++
        "    tmp_list = list(reversed(b))\n" ++
        "    tmp_x = int(random.random() * len(tmp_list))\n    tmp_list[tmp_x] = 0\n" ∧
      ∃ log parts finished,
        (globalSample.run (Gen.program globalSample)).run.run
          { Pass.start Names.start with log := log } = (.ok parts, finished) ∧
        listing = Listing.assemble finished parts ∧
        globalSample.WritesGlobals { Pass.start Names.start with log := log } parts finished := by
  have computed : (globalSample.emit.run.run (Pass.start Names.start)).1.toOption.map (·.code) =
      some ("import random\n\nb = None\na = None\nb = None\ntrace = None\nb2 = None\n\n" ++
        "def f(a):\n    global b, trace, b2, tmp_list, tmp_x\n    b = a\n    return a\n\n" ++
        "def g():\n    global b, a, trace, b2, tmp_list, tmp_x\n" ++
        "    tmp_list = list(reversed(b))\n" ++
        "    tmp_x = int(random.random() * len(tmp_list))\n    tmp_list[tmp_x] = 0\n") := by
    decide +kernel
  obtain ⟨listing, made, code⟩ := Option.map_eq_some_iff.mp computed
  have ran := Step.eq_ok_of_toOption made
  exact ⟨listing, _, ran, code, emit_globals ran⟩

end Setting

end BlockScript
