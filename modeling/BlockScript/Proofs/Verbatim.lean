import BlockScript.Proofs.Hygiene
import BlockScript.Proofs.Reservation

/-! # Names that are kept

A name that is an identifier of the generated language and no reserved word suggests itself, and it
is handed out as it stands as long as nothing has taken it (`Names.firstFree_sanitize`). The
variables of a program are named before anything else, so nothing has: each of them is its own
identifier (`Setting.userNames_of_each`). From what the pass has in the end it follows that at no
step of the run the name belonged to anything else (`Pass.leaves_of_extends`), whatever helpers,
temporaries, counters, procedures and parameters the program needs.
-/

namespace BlockScript

variable {n : Nat} {α : Type}

namespace Names

/-- An identifier suggests itself. -/
theorem sanitize_of_isIdentifier {text : String} (proper : IsIdentifier text) :
    sanitize text = text := by
  obtain ⟨c, rest, chars, first, digit, others⟩ := proper
  have plainly {d : Char} (allowed : isPlain d = true) : plain d = d := by
    rw [plain, if_pos allowed]
  have kept : rest.map plain = rest := by
    rw [List.map_congr_left fun d member => plainly (others d member), List.map_id']
  have nonempty : text.isEmpty = false := by
    rw [← Bool.not_eq_true, String.isEmpty_iff]
    rintro rfl
    cases chars
  have spelled : withoutLeadingDigit (text.toList.map plain) = text.toList := by
    rw [chars, List.map_cons, plainly first, kept, withoutLeadingDigit, digit]
    rfl
  unfold sanitize
  rw [nonempty, spelled, String.ofList_toList]
  rfl

/-- An identifier that nothing has taken is handed out as it stands. -/
theorem firstFree_sanitize {names : Names} {text : String} (proper : IsIdentifier text)
    (free : names.taken text = false) : names.firstFree (sanitize text) = text := by
  rw [sanitize_of_isIdentifier proper]
  obtain ⟨k, same, _, before⟩ := names.firstFree_spec text
  cases k with
  | zero => exact same
  | succ k =>
      have taken := before 0 (Nat.succ_pos k)
      rw [candidate, free] at taken
      cases taken

end Names

namespace Pass

/-- A text is left to the user's variable of that name: it is the variable's identifier, or the
variable has none yet and nothing has taken the text. -/
def Leaves (pass : Pass n) (text : String) : Prop :=
  pass.Identifies .user (.text text) text ∨
    pass.names.find? .user (.text text) = none ∧ pass.names.taken text = false

/-- The identifier that a name gets later was not in use before. -/
theorem Extends.not_mem_used {later earlier : Pass n} (grown : later.Extends earlier)
    (ledger : later.Ledger) {space : Space} {name : Value} {identifier : String}
    (missing : earlier.names.find? space name = none)
    (identifies : later.Identifies space name identifier) : identifier ∉ earlier.names.used := by
  intro known
  obtain ⟨more, table⟩ := grown.table
  have found := identifies.found
  unfold Names.find? at found missing
  rw [← table, Names.search_append, missing, Option.none_or] at found
  obtain ⟨_, _, member, _⟩ := Names.mem_table_of_search found
  have added : identifier ∈ more.map (·.2) := List.mem_map.mpr ⟨_, member, rfl⟩
  -- Used without a purpose, it would never have got one, and no identifier has two.
  have assigned : identifier ∈ earlier.purposes := by
    by_contra idle
    exact grown.apart identifier known idle (List.mem_append_left _ identifies.filed)
  have distinct := ledger.distinct
  unfold purposes at distinct
  rw [← table, List.map_append, List.append_assoc] at distinct
  obtain ⟨_, others, apart⟩ := List.nodup_append.mp distinct
  rcases List.mem_append.mp assigned with filed | elsewhere
  · exact apart _ filed _ (List.mem_append_left _ added) rfl
  · refine (List.nodup_append.mp others).2.2 _ added _ ?_ rfl
    rcases List.mem_append.mp elsewhere with helper | temporary
    · exact List.mem_append_left _ ((grown.functionNames.map (·.2)).subset helper)
    · exact List.mem_append_right _ (grown.temporaries.subset temporary)

/-- **What a variable has in the end was never anyone else's.** -/
theorem leaves_of_extends {later earlier : Pass n} (grown : later.Extends earlier)
    (ledger : later.Ledger) (reserved : earlier.names.reserved = Names.reservedWords)
    {text : String} (legal : Names.IsName text)
    (identifies : later.Identifies .user (.text text) text) : earlier.Leaves text := by
  cases found : earlier.names.find? .user (.text text) with
  | some identifier =>
      have kept := ((Identifies.mk rfl found).mono grown).found
      rw [identifies.found] at kept
      cases kept
      exact .inl ⟨rfl, found⟩
  | none =>
      refine .inr ⟨found, ?_⟩
      rw [← Bool.not_eq_true, Names.taken_iff, List.mem_append, reserved]
      rintro (used | reserved)
      · exact grown.not_mem_used ledger found identifies used
      · exact legal.2 reserved

/-- Every identifier in use is that of the user's variable of the same name. -/
structure Verbatim (pass : Pass n) : Prop where
  ledger : pass.Ledger
  own : ∀ identifier ∈ pass.names.used, pass.Identifies .user (.text identifier) identifier

theorem Verbatim.start (log : List String) :
    ({ Pass.start Names.start with log := log } : Pass n).Verbatim :=
  ⟨.start log, fun _ member => nomatch member⟩

theorem Verbatim.leaves {pass : Pass n} (verbatim : pass.Verbatim) {text : String}
    (legal : Names.IsName text) : pass.Leaves text := by
  cases found : pass.names.find? .user (.text text) with
  | some identifier =>
      have identifies : pass.Identifies .user (.text text) identifier := ⟨rfl, found⟩
      have used := verbatim.ledger.used identifier (List.mem_append_left _ identifies.filed)
      have same := (identifies.same (verbatim.own identifier used) verbatim.ledger rfl rfl).2
      cases Value.same_text.mp same
      exact .inl identifies
  | none =>
      refine .inr ⟨found, ?_⟩
      rw [← Bool.not_eq_true, Names.taken_iff, List.mem_append, verbatim.ledger.reserved]
      rintro (used | reserved)
      · have known := (verbatim.own text used).found
        rw [found] at known
        cases known
      · exact legal.2 reserved

end Pass

/-- A listing in which a variable is declared has the section right after the imports. -/
theorem Listing.sections_of_variable {pass : Pass n} {parts : Parts} {identifier : String}
    (named : identifier ∈ parts.userNames) :
    ∃ later, sections pass parts =
      unlessEmpty pass.imports (String.intercalate "\n" pass.imports.entries ++ "\n") ++
      declarations parts :: later := by
  have nonempty : (parts.userNames ++ parts.developerNames).isEmpty = false :=
    List.isEmpty_eq_false_iff_exists_mem.mpr ⟨identifier, List.mem_append_left _ named⟩
  have own : unlessEmpty (parts.userNames ++ parts.developerNames) (declarations parts).text =
      [declarations parts] := by
    rw [unlessEmpty, nonempty]
    rfl
  have split : sections pass parts =
      unlessEmpty pass.imports (String.intercalate "\n" pass.imports.entries ++ "\n") ++
        unlessEmpty (parts.userNames ++ parts.developerNames) (declarations parts).text ++
        _ ++ _ ++ _ := rfl
  rw [split, own]
  simp only [List.append_assoc, List.cons_append, List.nil_append]
  exact ⟨_, rfl⟩

namespace Setting

variable {setting : Setting n}

/-- A variable gets the identifier that it has, or the first one that is free. -/
theorem serve_variable (text : String) (pass : Pass n) :
    (serve (.identifier .user (.text text)) pass).1 =
      .ok ((pass.names.find? .user (.text text)).getD
        (pass.names.firstFree (Names.sanitize text))) := by
  obtain ⟨log, ran⟩ := Pass.run_grant (Names.identify .user (.text text)) pass
  obtain ⟨notice, granted⟩ := Names.run_identify ⟨true, .user, "VARIABLE", rfl, text⟩ pass.names
  have met : serve (.identifier .user (.text text)) pass = _ := ran
  rw [met, granted]
  dsimp only
  cases pass.names.find? .user (.text text) <;> rfl

/-- A variable whose name is left to it keeps the name. -/
theorem serve_of_leaves {pass : Pass n} {text : String} (proper : Names.IsIdentifier text)
    (left : pass.Leaves text) : (serve (.identifier .user (.text text)) pass).1 = .ok text := by
  rw [serve_variable]
  rcases left with identifies | ⟨missing, free⟩
  · rw [identifies.found]
    rfl
  · rw [missing, Option.getD_none, Names.firstFree_sanitize proper free]

/-- **At every step of a run** a variable is answered with its name, if it has its name in the
end. -/
theorem serve_step {generator : Gen n α} {pass : Pass n} (distinct : pass.active.Nodup)
    (ledger : pass.Ledger) {text : String} (legal : Names.IsName text)
    (identifies : ((setting.run generator).run.run pass).2.Identifies .user (.text text) text)
    (steps : Nat) :
    (serve (.identifier .user (.text text))
      (setting.step^[steps] ⟨.outside generator, pass⟩).pass).1 = .ok text := by
  have grown := setting.run_extends_step generator distinct steps
  have last : ((setting.run generator).run.run pass).2.Ledger :=
    Pass.ledger_stable.runWith setting n generator ledger
  have begun : (⟨.outside generator, pass⟩ : Machine n α).pass.Ledger := ledger
  have reserved := (Pass.ledger_stable.iterate setting begun steps).reserved
  exact serve_of_leaves legal.1 (Pass.leaves_of_extends grown last reserved legal identifies)

/-- **A variable is named** after itself, and this stays so for all that are named. -/
theorem verbatim_serve {pass : Pass n} (verbatim : pass.Verbatim) {text : String}
    (legal : Names.IsName text) :
    (serve (.identifier .user (.text text)) pass).1 = .ok text ∧
      (serve (.identifier .user (.text text)) pass).2.Verbatim := by
  have answered := serve_of_leaves legal.1 (verbatim.leaves legal)
  refine ⟨answered, ?_⟩
  have identified := identifies_of_serve answered
  have effect : Request.Effect pass (.identifier .user (.text text))
      (serve (.identifier .user (.text text)) pass).1
      (serve (.identifier .user (.text text)) pass).2 := Request.effect_identifier ..
  refine ⟨Pass.ledger_stable.effects effect verbatim.ledger, ?_⟩
  have grown := Pass.extends_of_effect effect
  rw [answered] at effect
  generalize (serve (.identifier .user (.text text)) pass).2 = after at *
  cases effect with
  | known log found =>
      intro identifier member
      exact (verbatim.own identifier member).mono grown
  | filed log missing novel =>
      intro identifier member
      rcases List.mem_cons.mp member with rfl | used
      · exact identified
      · exact (verbatim.own identifier used).mono grown

/-- **Variables that are named first keep their names.** -/
theorem userNames_of_each {names : List Value}
    (legal : ∀ name ∈ names, ∃ text, Names.IsName text ∧ name = .text text)
    {identifiers : List String} {pass after : Pass n} (verbatim : pass.Verbatim)
    (ran : (setting.run (Gen.each Gen.variableName names)).run.run pass =
      (.ok identifiers, after)) :
    identifiers.map Value.text = names := by
  induction names generalizing pass identifiers with
  | nil =>
      cases ran
      rfl
  | cons name rest ih =>
      obtain ⟨⟨text, proper, rfl⟩, others⟩ := List.forall_mem_cons.mp legal
      unfold Gen.each run at ran
      rw [Gen.runWith_bind] at ran
      obtain ⟨identifier, between, first, ran⟩ := Step.bind_eq_ok.mp ran
      rw [Gen.runWith_bind] at ran
      obtain ⟨more, last, remaining, done⟩ := Step.bind_eq_ok.mp ran
      cases done
      obtain ⟨answer, named, met, same⟩ := Step.bind_eq_ok.mp first
      cases same
      have served : serve (.identifier .user (.text text)) pass = (.ok identifier, between) := met
      obtain ⟨answered, kept⟩ := verbatim_serve verbatim proper
      rw [served] at answered kept
      cases answered
      rw [List.map_cons, ih others kept remaining]

/-- The variables of a program keep their names. -/
structure KeepsNames (setting : Setting n) (begun : Pass n) (parts : Parts) (finished : Pass n) :
    Prop where
  names : parts.userNames.map Value.text = setting.workspace.usedVariables
  /-- The section of variables comes right after the imports, -/
  placed : setting.workspace.usedVariables ≠ [] → ∃ later,
    Listing.sections finished parts =
      Listing.unlessEmpty finished.imports
        (String.intercalate "\n" finished.imports.entries ++ "\n") ++
      Listing.declarations parts :: later
  /-- and begins with a line for each of them. -/
  lines : Text.fullLines (Listing.declarations parts).text.toList =
    parts.userNames.map (fun name => (name ++ " = None\n").toList) ++
      parts.developerNames.map fun name => (name ++ " = None\n").toList
  /-- Whoever asks for a variable at whatever step is answered with its name. -/
  throughout : ∀ text, .text text ∈ setting.workspace.usedVariables → ∀ steps,
    (serve (.identifier .user (.text text))
      (setting.step^[steps] ⟨.outside (Gen.program setting), begun⟩).pass).1 = .ok text

section Program

variable {log : List String} {parts : Parts} {finished : Pass n}
  (legal : ∀ name ∈ setting.workspace.usedVariables, ∃ text, Names.IsName text ∧ name = .text text)
  (ran : (setting.run (Gen.program setting)).run.run { Pass.start Names.start with log := log } =
    (.ok parts, finished))

include legal ran

theorem userNames_of_program : parts.userNames.map Value.text = setting.workspace.usedVariables := by
  unfold Gen.program run at ran
  rw [Gen.runWith_bind] at ran
  obtain ⟨userNames, named, users, naming⟩ := Step.bind_eq_ok.mp ran
  simp only [Gen.runWith_bind] at naming
  obtain ⟨developerNames, begun, developers, walking⟩ := Step.bind_eq_ok.mp naming
  obtain ⟨body, last, walked, same⟩ := Step.bind_eq_ok.mp walking
  cases same
  exact userNames_of_each legal (.start log) users

theorem identifies_of_legal {text : String}
    (listed : .text text ∈ setting.workspace.usedVariables) :
    Names.IsName text ∧ finished.Identifies .user (.text text) text := by
  obtain ⟨_, proper, same⟩ := legal _ listed
  cases same
  refine ⟨proper, ?_⟩
  have identified := (identifies_of_program ran).1
  rw [← userNames_of_program legal ran, List.forall₂_map_left_iff, List.forall₂_same] at identified
  rw [← userNames_of_program legal ran] at listed
  obtain ⟨name, member, same⟩ := List.mem_map.mp listed
  cases same
  exact identified _ member

theorem keepsNames_of_program :
    setting.KeepsNames { Pass.start Names.start with log := log } parts finished := by
  constructor
  case names => exact userNames_of_program legal ran
  case placed =>
    intro some
    have named : parts.userNames ≠ [] := by
      rintro none
      rw [← userNames_of_program legal ran, none] at some
      exact some rfl
    obtain ⟨_, member⟩ := List.exists_mem_of_ne_nil _ named
    exact Listing.sections_of_variable member
  case lines =>
    rw [(reserved_of_program ran).lines, List.map_append]
    rfl
  case throughout =>
    intro text listed steps
    obtain ⟨proper, identifies⟩ := identifies_of_legal legal ran listed
    apply serve_step List.nodup_nil (.start log) proper
    rw [ran]
    exact identifies

end Program

/-- **Variables with legal names keep them.** A listing is emitted, and all names of variables that
the program uses are identifiers and no reserved words. Then the section of variables begins with
the line of each of them, and wherever the run of the program has got, a variable that is asked for
has its name as its identifier. -/
theorem emit_keepsNames
    (legal : ∀ name ∈ setting.workspace.usedVariables, ∃ text,
      Names.IsName text ∧ name = .text text)
    {pass after : Pass n} {listing : Listing}
    (ran : setting.emit.run.run pass = (.ok listing, after)) :
    ∃ log parts finished,
      (setting.run (Gen.program setting)).run.run { Pass.start Names.start with log := log } =
        (.ok parts, finished) ∧
      listing = Listing.assemble finished parts ∧
      setting.KeepsNames { Pass.start Names.start with log := log } parts finished := by
  obtain ⟨log, parts, finished, made, assembled, _⟩ := program_of_emit ran
  exact ⟨log, parts, finished, made, assembled, keepsNames_of_program legal made⟩

theorem emit_keepsNames_namesakeSample :
    (∀ name ∈ namesakeSample.workspace.usedVariables, ∃ text,
        Names.IsName text ∧ name = .text text) ∧
      ∃ listing after,
        namesakeSample.emit.run.run (Pass.start Names.start) = (.ok listing, after) ∧
        listing.code = "import random\n\nx = None\ncount = None\n\ndef tmp_x2():\n" ++
          "    global x, count, tmp_list, tmp_x\n    pass\n\nfor count2 in range(3):\n" ++
          "    print(''.join([str(x2) for x2 in [x, count, '']]))\ntmp_list = []\n" ++
          "tmp_x = int(random.random() * len(tmp_list))\ntmp_list[tmp_x] = None\n" ∧
        ∃ log parts finished,
          (namesakeSample.run (Gen.program namesakeSample)).run.run
            { Pass.start Names.start with log := log } = (.ok parts, finished) ∧
          listing = Listing.assemble finished parts ∧
          namesakeSample.KeepsNames { Pass.start Names.start with log := log } parts finished := by
  have used : namesakeSample.workspace.usedVariables = [.text "x", .text "count"] := by
    rfl
  have isX : Names.IsName "x" := ⟨⟨'x', [], rfl, rfl, rfl, by decide⟩, by decide +kernel⟩
  have isCount : Names.IsName "count" :=
    ⟨⟨'c', "ount".toList, rfl, rfl, rfl, by decide⟩, by decide +kernel⟩
  have legal : ∀ name ∈ namesakeSample.workspace.usedVariables, ∃ text,
      Names.IsName text ∧ name = .text text := by
    rw [used]
    simp only [List.forall_mem_cons]
    exact ⟨⟨_, isX, rfl⟩, ⟨_, isCount, rfl⟩, List.forall_mem_nil _⟩
  have computed : (namesakeSample.emit.run.run (Pass.start Names.start)).1.toOption.map (·.code) =
      some ("import random\n\nx = None\ncount = None\n\ndef tmp_x2():\n" ++
          "    global x, count, tmp_list, tmp_x\n    pass\n\nfor count2 in range(3):\n" ++
          "    print(''.join([str(x2) for x2 in [x, count, '']]))\ntmp_list = []\n" ++
          "tmp_x = int(random.random() * len(tmp_list))\ntmp_list[tmp_x] = None\n") := by
    decide +kernel
  obtain ⟨listing, made, code⟩ := Option.map_eq_some_iff.mp computed
  have ran := Step.eq_ok_of_toOption made
  exact ⟨legal, listing, _, ran, code, emit_keepsNames legal ran⟩

end Setting

end BlockScript
