import BlockScript.Proofs.Cycles
import BlockScript.Proofs.Naming
import BlockScript.Proofs.Origin

/-! # Who names what

Identifiers tell names apart: in a pass whose account is in order, two names with one identifier are
the same name in the same space (`Pass.Identifies.same`). In the run of a program, the program as a
whole names its variables. A block names the variable of its field and its procedure and, if it is a
definition, the parameters, and only then does it enter a procedure, which it builds from the
identifiers that these names have in the end (`Setting.charter`, `Setting.charter_regime`).
-/

namespace BlockScript

variable {n : Nat} {α : Type}

/-! ## Names and their identifiers -/

namespace Names

/-- The identifier of a name depends on what the name identifies. -/
theorem find?_congr (names : Names) (space : Space) {name other : Value}
    (atom : name.isAtom = true) (otherAtom : other.isAtom = true)
    (same : name.same other = true) : names.find? space name = names.find? space other := by
  have alike (known : Value) : known.same name = known.same other := by
    rw [Bool.eq_iff_iff, Value.same_atom_iff_identity atom, Value.same_atom_iff_identity otherAtom,
      (Value.same_iff_identity atom).mp same]
  unfold find?
  induction names.table with
  | nil => rfl
  | cons entry rest ih => simp only [find?.search, alike, ih]

/-- A name that is identified has its identifier from then on. -/
theorem find?_of_identify {space : Space} {name : Value} {names after : Names} {grant : Grant}
    (ran : (identify space name).run.run names = (.ok grant, after)) :
    name.isAtom = true ∧ after.find? space name = some grant.identifier := by
  rw [identify_run] at ran
  rcases labelled : space.label.atom with fault | _
  · rw [labelled] at ran
    cases ran
  rcases named : name.atom with fault | _
  · rw [labelled, named] at ran
    cases ran
  have atom := Value.isAtom_of_atom named
  refine ⟨atom, ?_⟩
  rw [labelled, named] at ran
  rcases found : names.find? space name with _ | identifier
  · rw [found] at ran
    have granted := granted_fresh space name names
    generalize (fresh space name).run.run names = reply at ran granted
    obtain ⟨result, marked⟩ := reply
    cases granted with
    | refused => cases ran
    | lost => cases ran
    | given notice novel =>
        cases ran
        exact find?_record (Value.isAtom_of_atom labelled) atom found _
  · rw [found] at ran
    cases ran
    exact found

end Names

namespace Pass

/-- A name has an identifier. -/
structure Identifies (pass : Pass n) (space : Space) (name : Value) (identifier : String) :
    Prop where
  atom : name.isAtom = true
  found : pass.names.find? space name = some identifier

namespace Identifies

variable {pass later : Pass n} {space : Space} {name : Value} {identifier : String}

/-- Names keep their identifiers. -/
theorem mono (identifies : pass.Identifies space name identifier) (grown : later.Extends pass) :
    later.Identifies space name identifier := by
  refine ⟨identifies.atom, ?_⟩
  obtain ⟨more, table⟩ := grown.table
  have found := identifies.found
  unfold Names.find? at found ⊢
  rw [← table, Names.search_append, found]
  rfl

/-- An identifier of something is filed. -/
theorem filed (identifies : pass.Identifies space name identifier) :
    identifier ∈ pass.names.table.map (·.2) := by
  obtain ⟨_, _, member, _⟩ := Names.mem_table_of_search identifies.found
  exact List.mem_map.mpr ⟨_, member, rfl⟩

/-- The same name has the same identifier. -/
theorem congr (identifies : pass.Identifies space name identifier) {other : Value}
    (atom : other.isAtom = true) (same : name.same other = true) :
    pass.Identifies space other identifier := by
  refine ⟨atom, ?_⟩
  rw [← pass.names.find?_congr space identifies.atom atom same]
  exact identifies.found

/-- **Identifiers tell names apart**, across all spaces. -/
theorem same (identifies : pass.Identifies space name identifier) {other : Space}
    {otherName : Value} (identifiesToo : pass.Identifies other otherName identifier)
    (ledger : pass.Ledger) (label : space.label.isAtom = true)
    (otherLabel : other.label.isAtom = true) :
    space.label.same other.label = true ∧ name.same otherName = true := by
  obtain ⟨_, _, member, labelled, named⟩ := Names.mem_table_of_search identifies.found
  obtain ⟨_, _, memberToo, labelledToo, namedToo⟩ :=
    Names.mem_table_of_search identifiesToo.found
  -- No identifier is filed twice, so both names are found in one entry.
  have distinct := (List.nodup_append.mp ledger.distinct).1
  have entry := List.inj_on_of_nodup_map distinct member memberToo rfl
  cases entry
  have compare {known first second : Value} (atom : first.isAtom = true)
      (atomToo : second.isAtom = true) (alike : known.same first = true)
      (alikeToo : known.same second = true) : first.same second = true := by
    rw [Value.same_atom_iff_identity atom] at alike
    rw [Value.same_atom_iff_identity atomToo] at alikeToo
    exact (Value.same_iff_identity atom).mpr (alike.symm.trans alikeToo)
  exact ⟨compare label otherLabel labelled labelledToo,
    compare identifies.atom identifiesToo.atom named namedToo⟩

end Identifies

end Pass

namespace Setting

variable {setting : Setting n}

/-- A name that is asked for has its identifier from then on. -/
theorem identifies_of_serve {space : Space} {name : Value} {pass : Pass n} {identifier : String}
    (served : (serve (.identifier space name) pass).1 = .ok identifier) :
    (serve (.identifier space name) pass).2.Identifies space name identifier := by
  obtain ⟨log, ran⟩ := Pass.run_grant (Names.identify space name) pass
  have met : serve (.identifier space name) pass = _ := ran
  rw [met] at served ⊢
  generalize granted : (Names.identify space name).run.run pass.names = reply at served ⊢
  obtain ⟨_ | grant, after⟩ := reply
  · cases served
  · cases served
    obtain ⟨atom, found⟩ := Names.find?_of_identify granted
    exact ⟨atom, found⟩

/-- An identifier that is asked for is that of the name afterwards. -/
theorem identifies_of_ask {space : Space} {name : Value} {identifier : String} {depth : Nat}
    {pass after : Pass n}
    (ran : ((Gen.ask (.identifier space name) .done : Gen n String).runWith
      (setting.outcome depth)).run.run pass = (.ok identifier, after)) :
    after.Identifies space name identifier := by
  obtain ⟨answer, between, met, done⟩ := Step.bind_eq_ok.mp ran
  cases done
  have asked : serve (.identifier space name) pass = (.ok identifier, after) := met
  have identified := identifies_of_serve (congrArg Prod.fst asked)
  rwa [asked] at identified

/-- A run has in the end what it began with. -/
theorem extends_of_run {generator : Gen n α} {depth : Nat} {result : Attempt α}
    {pass after : Pass n}
    (ran : (generator.runWith (setting.outcome depth)).run.run pass = (result, after)) :
    after.Extends pass := by
  have grown := Pass.runWith_extends setting depth generator pass
  rwa [ran] at grown

/-- Names that are asked for one after the other have the identifiers that are given. -/
theorem identifies_of_each {space : Space} {names : List Value} {identifiers : List String}
    {pass after : Pass n}
    (ran : (setting.run (Gen.each (fun name => .ask (.identifier space name) .done) names)).run.run
      pass = (.ok identifiers, after)) :
    List.Forall₂ (after.Identifies space) names identifiers := by
  induction names generalizing pass identifiers with
  | nil =>
      cases ran
      exact .nil
  | cons name rest ih =>
      unfold Gen.each run at ran
      rw [Gen.runWith_bind] at ran
      obtain ⟨identifier, between, first, ran⟩ := Step.bind_eq_ok.mp ran
      rw [Gen.runWith_bind] at ran
      obtain ⟨others, last, remaining, done⟩ := Step.bind_eq_ok.mp ran
      cases done
      exact .cons ((identifies_of_ask first).mono (extends_of_run remaining)) (ih remaining)

end Setting

/-! ## Contracts -/

/-- Elements of lists that are related one by one are related to some element. -/
theorem exists_related {β : Type} {relation : α → β → Prop} {elements : List α} {others : List β}
    (related : List.Forall₂ relation elements others) {element : α} (member : element ∈ elements) :
    ∃ other ∈ others, relation element other := by
  induction related with
  | nil => cases member
  | cons first _ ih =>
      rcases List.mem_cons.mp member with rfl | member
      · exact ⟨_, List.mem_cons_self .., first⟩
      · obtain ⟨other, present, found⟩ := ih member
        exact ⟨other, List.mem_cons_of_mem _ present, found⟩

namespace Gen.Ensures

variable {contract other : Contract n} {property : α → Prop}

/-- A generator that is run for every element of a list relates the elements to the results. -/
theorem each_forall₂ {γ : Type} {relation : γ → α → Prop} {generate : γ → Gen n α}
    {elements : List γ}
    (ensures : ∀ element ∈ elements, (generate element).Ensures contract (relation element)) :
    (Gen.each generate elements).Ensures contract (List.Forall₂ relation elements) := by
  induction elements with
  | nil => exact .nil
  | cons element rest ih =>
      refine bind (ensures element (List.mem_cons_self ..)) fun result related => ?_
      refine bind (ih fun other member => ensures other (List.mem_cons_of_mem _ member))
        fun results others => ?_
      exact .cons related others

/-- A contract may be replaced by one that allows more and promises more. -/
theorem adapt {generator : Gen n α} (ensures : generator.Ensures contract property)
    (allows : ∀ request, contract.allows request → other.allows request)
    (promises : ∀ request answer, other.promises request answer →
      contract.promises request answer) : generator.Ensures other property := by
  induction generator with
  | done result => exact ensures
  | fail fault => trivial
  | ask request next ih =>
      refine ⟨allows request ensures.1, fun answer promised => ?_⟩
      exact ih answer (ensures.2 answer (promises request answer promised))

end Gen.Ensures

namespace Setting

variable (setting : Setting n)

/-- The scope of whoever asks in the run of a program: the program as a whole or a block, among the
blocks that the top-level blocks lead to. Entering procedures is a matter of its own. -/
def scopeOf : Option (Fin n) → Scope n
  | none =>
      { setting.programScope True (fun _ => True) with
        leads := fun ref => ref ∈ setting.workspace.allBlocks }
  | some ref =>
      { setting.blockScope True (fun _ => True) ref with
        leads := fun ref => ref ∈ setting.workspace.allBlocks, defines := False }

/-- A procedure is built by a definition from its arguments: its parameters and global variables are
the identifiers that these have in the end, and so is its name. -/
structure Builds (last : Pass n) (ref : Fin n) (arguments : List Value) (procedure : Procedure) :
    Prop where
  reached : ref ∈ setting.workspace.allBlocks
  definition : Kind.isDefinition (setting.block ref).kind = true
  announced : (setting.block ref).arguments = .ok arguments
  owner : procedure.owner = some ⟨(setting.block ref).id, (setting.block ref).kind⟩
  name : last.Identifies .procedure ((setting.block ref).field "NAME") procedure.name
  params : List.Forall₂ (last.Identifies .user) arguments procedure.params
  userGlobals : List.Forall₂ (last.Identifies .user)
    (setting.workspace.usedVariables.filter (!·.among arguments)) procedure.userGlobals

/-- Whoever asks is the program as a whole or a block that the top-level blocks lead to. -/
def Takes (asker : Option (Fin n)) : Prop := ∀ ref ∈ asker, ref ∈ setting.workspace.allBlocks

/-- The contract of whoever asks in the run of a program that ends with a last pass. -/
def charter (last : Pass n) (asker : Option (Fin n)) : Contract n where
  allows
    | .block ref => ref ∈ setting.workspace.allBlocks
    | .identifier space name => setting.Takes asker ∧ (setting.scopeOf asker).names space name
    | .define procedure => ∃ ref arguments, asker = some ref ∧
        setting.Builds last ref arguments procedure
    | _ => True
  promises
    | .identifier space name, identifier => last.Identifies space name identifier
    | _, _ => True

variable {setting}

/-- The blocks of a program are those that the blocks at the top lead to. -/
theorem mem_allBlocks {ref : Fin n} :
    ref ∈ setting.workspace.allBlocks ↔ ∃ root ∈ setting.workspace.roots,
      Relation.ReflTransGen setting.workspace.graph.Links root ref := by
  unfold Workspace.allBlocks
  simp only [List.mem_flatMap, Graph.mem_descendants]

/-- A block leads to blocks of the program. -/
theorem mem_allBlocks_of_links {ref child : Fin n} (reached : ref ∈ setting.workspace.allBlocks)
    (linked : setting.workspace.graph.Links ref child) : child ∈ setting.workspace.allBlocks := by
  obtain ⟨root, top, leads⟩ := mem_allBlocks.mp reached
  exact mem_allBlocks.mpr ⟨root, top, leads.tail linked⟩

/-- A scope is closed under links. -/
theorem scopeOf_onward (asker : Option (Fin n)) (ref : Fin n)
    (leads : (setting.scopeOf asker).leads ref) (child : Fin n)
    (linked : setting.workspace.graph.Links ref child) : (setting.scopeOf asker).leads child := by
  cases asker with
  | none => exact mem_allBlocks_of_links leads linked
  | some own => exact mem_allBlocks_of_links leads linked

theorem takes_some {ref : Fin n} (reached : ref ∈ setting.workspace.allBlocks) :
    setting.Takes (some ref) := by
  rintro _ ⟨⟩
  exact reached

theorem takes_none : setting.Takes none := by
  rintro _ ⟨⟩

/-- The scope of a block covers what the block is linked to. -/
theorem scopeOf_covers {ref : Fin n} (reached : ref ∈ setting.workspace.allBlocks) :
    (setting.scopeOf (some ref)).Covers setting (setting.block ref) where
  sockets _ _ plugged := mem_allBlocks_of_links reached (Graph.links_of_input? plugged)
  onward := scopeOf_onward (some ref)
  variableField := .inl rfl
  procedureField := rfl

/-- Whatever keeps to its scope keeps to the charter. -/
theorem charter_of_conducts {asker : Option (Fin n)} (takes : setting.Takes asker)
    {generator : Gen n α} (conducts : generator.Conducts setting (setting.scopeOf asker))
    (last : Pass n) :
    generator.Ensures (setting.charter last asker) (fun _ => True) := by
  apply conducts.ensures.adapt
  · intro request allowed
    cases request with
    | block ref => cases asker <;> exact allowed
    | identifier space name => exact ⟨takes, allowed⟩
    | define procedure => cases asker <;> exact allowed.1.elim
    | _ => trivial
  · intro request answer _
    cases asker with
    | none => exact setting.conduct_promises trivial (fun _ => trivial) request answer
    | some ref => exact setting.conduct_promises trivial (fun _ => trivial) request answer

variable {last : Pass n}

/-- The identifier of a name that is within the scope. -/
theorem charter_identifier {asker : Option (Fin n)} (takes : setting.Takes asker) {space : Space}
    {name : Value} (named : (setting.scopeOf asker).names space name) :
    (Gen.ask (.identifier space name) .done : Gen n String).Ensures (setting.charter last asker)
      (last.Identifies space name) :=
  ⟨⟨takes, named⟩, fun _ identified => identified⟩

/-- **A definition enters the procedure that it builds.** -/
theorem charter_definition {ref : Fin n} (reached : ref ∈ setting.workspace.allBlocks)
    (definition : Kind.isDefinition (setting.block ref).kind = true) :
    (Gen.definition setting (setting.block ref)).Ensures (setting.charter last (some ref))
      (fun _ => True) := by
  have covers := scopeOf_covers reached
  have takes := takes_some reached
  unfold Gen.definition
  refine .bind (.lift fun arguments announced => announced) fun arguments announced => ?_
  refine .bind (.each_forall₂ fun name member => charter_identifier takes ?_)
    fun userGlobals globalsNamed => ?_
  · exact .inr (.inl (List.mem_filter.mp member).1)
  refine .bind (charter_identifier takes rfl) fun name identified => ?_
  refine .bind (charter_of_conducts takes (Gen.conducts_statements covers _) last)
    fun statements _ => ?_
  refine .bind (.lift fun _ _ => trivial) fun body _ => ?_
  refine .bind (charter_of_conducts takes (Gen.conducts_value covers ..) last) fun result _ => ?_
  refine .bind (.each_forall₂ fun name member => charter_identifier takes ?_)
    fun params paramsNamed => ?_
  · exact .inr (.inr ⟨definition, arguments, announced, member⟩)
  refine ⟨⟨ref, arguments, rfl, ?_⟩, fun _ _ => trivial⟩
  exact ⟨reached, definition, announced, rfl, identified, paramsNamed, globalsNamed⟩

/-- **Blocks keep to the charter.** -/
theorem charter_generates {ref : Fin n} (reached : ref ∈ setting.workspace.allBlocks) {kind : Kind}
    (known : Kind.ofValue? (setting.block ref).kind = .ok (some kind)) :
    (kind.generate setting (setting.block ref)).Ensures (setting.charter last (some ref))
      (fun _ => True) := by
  by_cases defines : kind = .defineWithResult ∨ kind = .defineWithoutResult
  · have definition := isDefinition_of_ofValue? known defines
    rcases defines with rfl | rfl
    · exact charter_definition reached definition
    · exact charter_definition reached definition
  · refine charter_of_conducts (takes_some reached)
      (Gen.conducts_generate (scopeOf_covers reached) kind ?_ ?_ ?_) last
    · exact fun isDefinition => (defines isDefinition).elim
    · exact fun name member => .inr (.inl member)
    · exact fun isDefinition => (defines isDefinition).elim

/-- **The charter is upheld in the run of every program.** -/
theorem charter_regime (setting : Setting n) (last : Pass n) :
    setting.Regime last (setting.charter last) where
  blocks _ _ _ := trivial
  served asker request pass answer plain _ served within := by
    cases request with
    | block ref => exact (plain ref rfl).elim
    | identifier space name => exact (identifies_of_serve served).mono within
    | _ => trivial
  generates _ _ _ reached known := charter_generates reached known

/-- The program as a whole keeps to the charter. -/
theorem charter_program :
    (Gen.program setting).Ensures (setting.charter last none) (fun _ => True) := by
  refine .bind (.each_forall₂ fun name member => charter_identifier takes_none ?_)
    fun userNames _ => ?_
  · exact member
  refine .bind (.each_forall₂ fun name member => charter_identifier takes_none ?_)
    fun developerNames _ => ?_
  · exact member
  refine .bind (charter_of_conducts takes_none ?_ last) fun _ _ => trivial
  apply Gen.conducts_pieces (scopeOf_onward none)
  exact fun top member => mem_allBlocks.mpr ⟨top, member, .refl⟩

/-! ## Programs from beginning to end -/

section Program

variable {log : List String} {parts : Parts} {finished : Pass n}
  (ran : (setting.run (Gen.program setting)).run.run { Pass.start Names.start with log := log } =
    (.ok parts, finished))

include ran

/-- A finished program has a ledger. -/
theorem ledger_of_program : finished.Ledger := by
  have ledger := Pass.ledger_stable.runWith setting n (Gen.program setting) (.start log)
  rw [run] at ran
  rwa [ran] at ledger

/-- The variables of a program have in the end the identifiers that they are given first. -/
theorem identifies_of_program :
    List.Forall₂ (finished.Identifies .user) setting.workspace.usedVariables parts.userNames ∧
      List.Forall₂ (finished.Identifies .developer) setting.workspace.developerVariables
        parts.developerNames := by
  unfold Gen.program run at ran
  simp only [Gen.runWith_bind] at ran
  obtain ⟨userNames, named, users, naming⟩ := Step.bind_eq_ok.mp ran
  obtain ⟨developerNames, begun, developers, walking⟩ := Step.bind_eq_ok.mp naming
  obtain ⟨body, last, walked, same⟩ := Step.bind_eq_ok.mp walking
  cases same
  have after := extends_of_run walked
  have later := after.trans (extends_of_run developers)
  exact ⟨(identifies_of_each users).imp fun _ _ identified => identified.mono later,
    (identifies_of_each developers).imp fun _ _ identified => identified.mono after⟩

/-- **What is asked in a program is as the charter has it.** -/
theorem charter_of_asks {asker : Option (Fin n)} {request : Request n} {answer : request.Answer}
    (asks : setting.Asks (Gen.program setting) { Pass.start Names.start with log := log } asker
      request answer) (plain : ∀ ref, request ≠ .block ref) :
    (setting.charter finished asker).allows request ∧
      (setting.charter finished asker).promises request answer :=
  (setting.charter_regime finished).promises charter_program List.nodup_nil
    (congrArg Prod.snd ran) asks plain

/-- Procedures of a finished program were entered by the definitions that build them. -/
theorem exists_builds {procedure : Procedure}
    (registered : procedure ∈ finished.procedures.entries) :
    ∃ ref arguments,
      setting.Asks (Gen.program setting) { Pass.start Names.start with log := log } (some ref)
        (.define procedure) () ∧
      setting.Builds finished ref arguments procedure := by
  obtain ⟨asker, request, result, before, after, asks, effect, absent, present⟩ :=
    setting.exists_served (fun pass => procedure ∈ pass.procedures.entries)
      (fun _ _ member => member) List.nodup_nil (congrArg Prod.snd ran) List.not_mem_nil registered
  cases effect with
  | defined log =>
      rcases Table.mem_entries_insert present with known | rfl
      · exact (absent known).elim
      · have defined := asks () rfl
        obtain ⟨⟨ref, arguments, rfl, builds⟩, _⟩ :=
          charter_of_asks ran defined (fun _ same => nomatch same)
        exact ⟨ref, arguments, defined, builds⟩
  | _ => exact (absent present).elim

end Program

end Setting

end BlockScript
