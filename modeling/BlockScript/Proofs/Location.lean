import BlockScript.Proofs.Charter

/-! # Where top-level blocks are located

The spans of a listing come from two sources: procedures that are registered under their names, and
the pieces of the body. In a program that was loaded, no top-level block has more than one span. A
definition has one as long as its procedure is registered, which it is no more when another one
takes its name; any other block has one as long as there is a body (`Setting.Located`,
`Program.generate_locates`).
-/

namespace BlockScript

variable {n : Nat} {α : Type}

/-! ## Whose spans there are -/

namespace Listing

/-- The spans of sections belong to the owners of the sections. -/
theorem owners_sectionSpans (entries : List Section) (first start : Nat) :
    (sectionSpans first start entries).1.map (·.owner) = entries.filterMap (·.owner) := by
  induction entries generalizing first start with
  | nil => rfl
  | cons entry rest ih =>
      rcases owned : entry.owner with _ | owner
      · simp only [sectionSpans, owned, List.filterMap_cons, ih]
      · simp only [sectionSpans, owned, List.filterMap_cons, List.map_cons, ih]

/-- The spans of pieces belong to the owners of the pieces. -/
theorem owners_pieceSpans (pieces : List Piece) (first : Nat) :
    (pieceSpans first pieces).map (·.owner) = pieces.map (·.owner) := by
  induction pieces generalizing first with
  | nil => rfl
  | cons piece rest ih => simp only [pieceSpans, List.map_cons, ih]

/-- A section for imports or helpers belongs to no block. -/
theorem owners_unlessEmpty (entries : List α) (text : String) :
    (unlessEmpty entries text).filterMap (·.owner) = [] := by
  unfold unlessEmpty
  split <;> rfl

/-- **The spans of a listing** belong to the procedures and, if there is a body, to its pieces. -/
theorem owners_assemble (pass : Pass n) (parts : Parts) :
    (assemble pass parts).spans.map (·.owner) = pass.procedures.entries.filterMap (·.owner) ++
      if bodyOf parts = "" then [] else parts.body.map (·.owner) := by
  have heads : (sections pass parts).filterMap (·.owner) =
      pass.procedures.entries.filterMap (·.owner) := by
    simp only [sections, List.filterMap_append, owners_unlessEmpty, List.filterMap_map, plain,
      Function.comp_def, List.filterMap_none, List.nil_append, List.append_nil]
  unfold assemble
  simp only [List.map_append, owners_sectionSpans, owners_pieceSpans, heads,
    String.isEmpty_iff]
  split <;> rfl

/-- How many spans a block has. -/
def spanCount (listing : Listing) (id : Value) : Nat :=
  listing.spans.countP fun span => span.owner.id.same id

/-- A block has the spans of the procedures that it owns and of the pieces that it owns. -/
theorem spanCount_assemble (pass : Pass n) (parts : Parts) (id : Value) :
    (assemble pass parts).spanCount id =
      pass.procedures.entries.countP (fun procedure => procedure.owner.any (·.id.same id)) +
        (if bodyOf parts = "" then [] else parts.body.map (·.owner)).countP (·.id.same id) := by
  have owners : (assemble pass parts).spanCount id =
      ((assemble pass parts).spans.map (·.owner)).countP (·.id.same id) := by
    rw [List.countP_map]
    rfl
  have any (procedure : Procedure) : (procedure.owner.map (·.id.same id)).getD false =
      procedure.owner.any (·.id.same id) := by
    cases procedure.owner <;> rfl
  rw [owners, owners_assemble, List.countP_append, List.countP_filterMap]
  simp only [any]

end Listing

/-! ## Procedures under their names -/

/-- A name is a key once something is entered under it. -/
theorem Table.mem_keys_insert (table : Table α) (name : String) (entry : α) :
    name ∈ (table.insert name entry).keys := by
  rw [← Table.has_iff_mem_keys, Table.has, Table.get?_insert_self]
  rfl

namespace Pass

/-- Procedures are registered under their names, one under each. -/
structure Registry (pass : Pass n) : Prop where
  keyed : ∀ entry ∈ pass.procedures, entry.1 = entry.2.name
  distinct : pass.procedures.keys.Nodup

/-- Procedures are entered under their names. -/
theorem Registry.names {pass : Pass n} (registry : pass.Registry) :
    pass.procedures.entries.map (·.name) = pass.procedures.keys := by
  unfold Table.entries Table.keys
  rw [List.map_map]
  exact List.map_congr_left fun entry member => (registry.keyed entry member).symm

/-- No two procedures have one name. -/
theorem Registry.nodup_names {pass : Pass n} (registry : pass.Registry) :
    (pass.procedures.entries.map (·.name)).Nodup := by
  rw [registry.names]
  exact registry.distinct

/-- **Entering a procedure keeps the registry**, and nothing else touches it. -/
theorem registry_stable : Pass.Stable (Registry (n := n)) where
  ignores _ _ registry := ⟨registry.keyed, registry.distinct⟩
  effects := by
    intro pass after request result effect registry
    cases effect with
    | @defined procedure log =>
        refine ⟨fun entry member => ?_, Table.nodup_keys_insert registry.distinct _ _⟩
        rcases Table.mem_insert member with known | rfl
        · exact registry.keyed entry known
        · rfl
    | _ => exact ⟨registry.keyed, registry.distinct⟩

/-- Names of procedures stay registered. -/
theorem registered_stable (name : String) :
    Pass.Stable fun pass : Pass n => name ∈ pass.procedures.keys where
  ignores _ _ registered := registered
  effects := by
    intro pass after request result effect registered
    cases effect with
    | defined log =>
        change name ∈ (Table.insert _ _ _).keys
        rw [Table.keys_insert]
        split
        · exact registered
        · exact List.mem_append_left _ registered
    | _ => exact registered

end Pass

namespace Setting

variable {setting : Setting n}

/-! ## Definitions at the top -/

/-- Going through top-level blocks keeps what every effect keeps. -/
theorem Traversal.preserves {invariant : Pass n → Prop} (stable : Pass.Stable invariant)
    {pass after : Pass n} {roots : List (Fin n)} {pieces : List Piece}
    (traversal : setting.Traversal pass roots pieces after) (kept : invariant pass) :
    invariant after := by
  induction traversal with
  | done => exact kept
  | @definition pass next _ top _ _ _ _ ran _ ih =>
      have between := stable.runWith setting n (Gen.block top) kept
      rw [Gen.runWith_block, ran] at between
      exact ih between
  | @chain pass next _ top _ _ _ _ ran _ ih =>
      have between := stable.runWith setting n (Gen.chain setting (some top)) kept
      rw [run] at ran
      rw [ran] at between
      exact ih between

/-- The pieces of the body belong to the top-level blocks that are no definitions. -/
theorem Traversal.owners {pass after : Pass n} {roots : List (Fin n)} {pieces : List Piece}
    (traversal : setting.Traversal pass roots pieces after) :
    pieces.map (·.owner) =
      (roots.filter fun top => !Kind.isDefinition (setting.block top).kind).map
        fun top => ⟨(setting.block top).id, (setting.block top).kind⟩ := by
  induction traversal with
  | done => rfl
  | definition defines _ _ ih =>
      rw [List.filter_cons_of_neg (by rw [defines]; decide)]
      exact ih
  | chain other _ _ ih =>
      rw [List.filter_cons_of_pos (by rw [other]; decide), List.map_cons, List.map_cons, ih]

/-- A procedure is registered under the name of a block. -/
def Registers (setting : Setting n) (pass : Pass n) (ref : Fin n) : Prop :=
  ∃ name, pass.Identifies .procedure ((setting.block ref).field "NAME") name ∧
    name ∈ pass.procedures.keys

/-- A procedure that is entered stays so. -/
theorem registers_stable (setting : Setting n) (ref : Fin n) :
    Pass.Stable (setting.Registers · ref) where
  ignores := by
    rintro _ _ ⟨name, identifies, registered⟩
    exact ⟨name, ⟨identifies.atom, identifies.found⟩, registered⟩
  effects := by
    rintro pass after request result effect ⟨name, identifies, registered⟩
    exact ⟨name, identifies.mono (Pass.extends_of_effect effect),
      (Pass.registered_stable name).effects effect registered⟩

/-- **A definition registers a procedure** under its name. -/
theorem registers_of_definition {ref : Fin n} {depth : Nat} {outcome : Outcome}
    {pass after : Pass n}
    (ran : ((Gen.definition setting (setting.block ref)).runWith
      (setting.outcome depth)).run.run pass = (.ok outcome, after)) :
    setting.Registers after ref := by
  unfold Gen.definition at ran
  simp only [Gen.runWith_bind] at ran
  obtain ⟨arguments, _, _, ran⟩ := Step.bind_eq_ok.mp ran
  obtain ⟨userGlobals, before, _, ran⟩ := Step.bind_eq_ok.mp ran
  obtain ⟨name, named, naming, ran⟩ := Step.bind_eq_ok.mp ran
  obtain ⟨statements, _, stating, ran⟩ := Step.bind_eq_ok.mp ran
  obtain ⟨body, _, instrumenting, ran⟩ := Step.bind_eq_ok.mp ran
  obtain ⟨result, _, resulting, ran⟩ := Step.bind_eq_ok.mp ran
  obtain ⟨params, bound, binding, ran⟩ := Step.bind_eq_ok.mp ran
  obtain ⟨_, entered, entering, done⟩ := Step.bind_eq_ok.mp ran
  cases done
  -- The name is identified before the statements are generated, and the procedure is entered last.
  have identifies := (identifies_of_ask naming).mono <| (extends_of_run entering).trans <|
    (extends_of_run binding).trans <| (extends_of_run resulting).trans <|
      (extends_of_run instrumenting).trans (extends_of_run stating)
  refine ⟨name, identifies, ?_⟩
  cases entering
  exact Table.mem_keys_insert _ _ _

/-- A definition that comes to something has entered a procedure. -/
theorem registers_of_outcome {ref : Fin n}
    (definition : Kind.isDefinition (setting.block ref).kind = true) {depth : Nat}
    {outcome : Outcome} {pass after : Pass n}
    (ran : (setting.outcome depth ref).run.run pass = (.ok outcome, after)) :
    setting.Registers after ref := by
  obtain ⟨kind, below, inner, known, generated, rfl⟩ := exists_run_of_outcome ran
  rw [generate_of_isDefinition known definition] at generated
  exact (setting.registers_stable ref).ignores _ _ (registers_of_definition generated)

/-- **Definitions at the top are registered** when all top-level blocks are gone through. -/
theorem Traversal.registers {pass after : Pass n} {roots : List (Fin n)} {pieces : List Piece}
    (traversal : setting.Traversal pass roots pieces after) {top : Fin n} (member : top ∈ roots)
    (definition : Kind.isDefinition (setting.block top).kind = true) :
    setting.Registers after top := by
  induction traversal with
  | done => cases member
  | definition _ ran rest ih =>
      rcases List.mem_cons.mp member with rfl | member
      · exact rest.preserves (setting.registers_stable _) (registers_of_outcome definition ran)
      · exact ih member
  | chain other _ _ ih =>
      rcases List.mem_cons.mp member with rfl | member
      · rw [definition] at other
        cases other
      · exact ih member

/-! ## Top-level blocks and their spans -/

/-- Blocks have ids that tell them apart, and none is at the top twice. -/
structure Distinct (setting : Setting n) : Prop where
  atoms : ∀ ref, (setting.block ref).id.isAtom = true
  ids : ∀ ref other, (setting.block ref).id.same (setting.block other).id = true → ref = other
  roots : setting.workspace.roots.Nodup

/-- Where the top-level blocks are located in a listing. -/
structure Located (setting : Setting n) (parts : Parts) (finished : Pass n) (listing : Listing) :
    Prop where
  once : ∀ top ∈ setting.workspace.roots, listing.spanCount (setting.block top).id ≤ 1
  /-- Blocks that are no definitions are located as long as there is a body, -/
  statements : ∀ top ∈ setting.workspace.roots,
    Kind.isDefinition (setting.block top).kind = false →
      (listing.spanCount (setting.block top).id = 1 ↔ Listing.bodyOf parts ≠ "")
  /-- and definitions as long as their procedures are registered, -/
  definitions : ∀ top ∈ setting.workspace.roots,
    Kind.isDefinition (setting.block top).kind = true →
      (listing.spanCount (setting.block top).id = 1 ↔
        ∃ procedure ∈ finished.procedures.entries,
          procedure.owner = some ⟨(setting.block top).id, (setting.block top).kind⟩)
  /-- which they are if no other definition has their name. -/
  unshared : ∀ top ∈ setting.workspace.roots,
    Kind.isDefinition (setting.block top).kind = true →
    (∀ ref ∈ setting.workspace.allBlocks, Kind.isDefinition (setting.block ref).kind = true →
      ((setting.block ref).field "NAME").same ((setting.block top).field "NAME") = true →
        ref = top) →
      listing.spanCount (setting.block top).id = 1
  /-- Of two definitions with one name, at most one is located. -/
  shared : ∀ top ∈ setting.workspace.roots, ∀ other ∈ setting.workspace.roots, top ≠ other →
    Kind.isDefinition (setting.block top).kind = true →
    Kind.isDefinition (setting.block other).kind = true →
    ((setting.block top).field "NAME").same ((setting.block other).field "NAME") = true →
      listing.spanCount (setting.block top).id + listing.spanCount (setting.block other).id ≤ 1

/-- Elements that a property picks are one at most, if they have one label and labels are given
once. -/
theorem countP_le_one (label : α → String) {picked : α → Bool} {elements : List α}
    (distinct : (elements.map label).Nodup)
    (alike : ∀ element ∈ elements, ∀ other ∈ elements, picked element = true →
      picked other = true → label element = label other) : elements.countP picked ≤ 1 := by
  induction elements with
  | nil => exact Nat.zero_le _
  | cons element rest ih =>
      obtain ⟨absent, others⟩ := List.nodup_cons.mp distinct
      rw [List.countP_cons]
      by_cases first : picked element = true
      · have none : rest.countP picked = 0 := by
          apply List.countP_eq_zero.mpr
          intro other member also
          apply absent
          rw [alike element (List.mem_cons_self ..) other (List.mem_cons_of_mem _ member) first
            also]
          exact List.mem_map_of_mem member
        rw [none, if_pos first]
      · rw [if_neg first, Nat.add_zero]
        exact ih others fun other member another memberToo =>
          alike other (List.mem_cons_of_mem _ member) another (List.mem_cons_of_mem _ memberToo)

section Program

variable {log : List String} {parts : Parts} {finished : Pass n}
  (ran : (setting.run (Gen.program setting)).run.run { Pass.start Names.start with log := log } =
    (.ok parts, finished)) (distinct : setting.Distinct)

include ran

/-- A finished program has a registry. -/
theorem registry_of_program : finished.Registry := by
  have begun : ({ Pass.start Names.start with log := log } : Pass n).Registry :=
    ⟨List.forall_mem_nil _, List.nodup_nil⟩
  have registry := Pass.registry_stable.runWith setting n (Gen.program setting) begun
  rw [run] at ran
  rwa [ran] at registry

/-- Procedures of one name are one. -/
theorem eq_of_name_eq {procedure other : Procedure}
    (registered : procedure ∈ finished.procedures.entries)
    (registeredToo : other ∈ finished.procedures.entries) (same : procedure.name = other.name) :
    procedure = other :=
  List.inj_on_of_nodup_map (registry_of_program ran).nodup_names registered registeredToo same

/-- A definition whose name no other has owns what is registered under it. -/
theorem exists_owned_of_unshared {top : Fin n} (member : top ∈ setting.workspace.roots)
    (definition : Kind.isDefinition (setting.block top).kind = true)
    (unshared : ∀ ref ∈ setting.workspace.allBlocks,
      Kind.isDefinition (setting.block ref).kind = true →
      ((setting.block ref).field "NAME").same ((setting.block top).field "NAME") = true →
        ref = top) :
    ∃ procedure ∈ finished.procedures.entries,
      procedure.owner = some ⟨(setting.block top).id, (setting.block top).kind⟩ := by
  obtain ⟨_, _, traversal⟩ := execution_of_program ran
  obtain ⟨name, identifies, listed⟩ := traversal.registers member definition
  rw [← (registry_of_program ran).names] at listed
  obtain ⟨procedure, registered, rfl⟩ := List.mem_map.mp listed
  obtain ⟨ref, arguments, _, builds⟩ := exists_builds ran registered
  have same := (builds.name.same identifies (ledger_of_program ran) rfl rfl).2
  cases unshared ref builds.reached builds.definition same
  exact ⟨procedure, registered, builds.owner⟩

include distinct

/-- The procedure that a block owns is built by it. -/
theorem exists_builds_of_owned {procedure : Procedure}
    (registered : procedure ∈ finished.procedures.entries) {ref : Fin n}
    (owned : procedure.owner.any (·.id.same (setting.block ref).id) = true) :
    ∃ arguments, setting.Builds finished ref arguments procedure := by
  obtain ⟨builder, arguments, _, builds⟩ := exists_builds ran registered
  rw [builds.owner] at owned
  cases distinct.ids builder ref owned
  exact ⟨arguments, builds⟩

/-- **Definitions own one procedure at most.** -/
theorem countP_procedures_le_one (ref : Fin n) :
    finished.procedures.entries.countP
      (fun procedure => procedure.owner.any (·.id.same (setting.block ref).id)) ≤ 1 := by
  apply countP_le_one Procedure.name (registry_of_program ran).nodup_names
  intro procedure registered other registeredToo owned ownedToo
  obtain ⟨_, builds⟩ := exists_builds_of_owned ran distinct registered owned
  obtain ⟨_, buildsToo⟩ := exists_builds_of_owned ran distinct registeredToo ownedToo
  exact Option.some.inj (builds.name.found.symm.trans buildsToo.name.found)

/-- Blocks that are no definitions own none. -/
theorem countP_procedures_eq_zero {ref : Fin n}
    (other : Kind.isDefinition (setting.block ref).kind = false) :
    finished.procedures.entries.countP
      (fun procedure => procedure.owner.any (·.id.same (setting.block ref).id)) = 0 := by
  apply List.countP_eq_zero.mpr
  intro procedure registered owned
  obtain ⟨_, builds⟩ := exists_builds_of_owned ran distinct registered owned
  rw [builds.definition] at other
  cases other

omit ran in
/-- A block at the top has a piece in the body, unless it is a definition. -/
theorem countP_pieces {pass after : Pass n} {pieces : List Piece}
    (traversal : setting.Traversal pass setting.workspace.roots pieces after) {top : Fin n}
    (member : top ∈ setting.workspace.roots) :
    (pieces.map (·.owner)).countP (·.id.same (setting.block top).id) =
      if Kind.isDefinition (setting.block top).kind then 0 else 1 := by
  have picks (ref : Fin n) :
      (setting.block ref).id.same (setting.block top).id = true ↔ (ref == top) = true := by
    rw [beq_iff_eq]
    refine ⟨distinct.ids ref top, ?_⟩
    rintro rfl
    exact Value.same_self (distinct.atoms ref)
  -- What is counted by id is the block itself.
  rw [traversal.owners, List.countP_map]
  trans (setting.workspace.roots.filter fun ref =>
    !Kind.isDefinition (setting.block ref).kind).count top
  · exact List.countP_congr fun ref _ => picks ref
  · cases definition : Kind.isDefinition (setting.block top).kind with
    | true =>
        apply List.count_eq_zero.mpr
        intro listed
        have other := (List.mem_filter.mp listed).2
        rw [definition] at other
        cases other
    | false =>
        apply List.count_eq_one_of_mem (distinct.roots.filter _)
        exact List.mem_filter.mpr ⟨member, by rw [definition]; rfl⟩

/-- **Statements at the top have a span if there is a body.** -/
theorem spanCount_of_statement {top : Fin n} (member : top ∈ setting.workspace.roots)
    (other : Kind.isDefinition (setting.block top).kind = false) :
    (Listing.assemble finished parts).spanCount (setting.block top).id =
      if Listing.bodyOf parts = "" then 0 else 1 := by
  obtain ⟨_, _, traversal⟩ := execution_of_program ran
  have pieces := countP_pieces distinct traversal member
  rw [other] at pieces
  rw [Listing.spanCount_assemble, countP_procedures_eq_zero ran distinct other, Nat.zero_add]
  split
  · rfl
  · exact pieces

/-- **Definitions at the top have the spans of the procedures that they own.** -/
theorem spanCount_of_definition {top : Fin n} (member : top ∈ setting.workspace.roots)
    (definition : Kind.isDefinition (setting.block top).kind = true) :
    (Listing.assemble finished parts).spanCount (setting.block top).id =
      finished.procedures.entries.countP
        (fun procedure => procedure.owner.any (·.id.same (setting.block top).id)) := by
  obtain ⟨_, _, traversal⟩ := execution_of_program ran
  have pieces := countP_pieces distinct traversal member
  rw [definition] at pieces
  rw [Listing.spanCount_assemble]
  split
  · rfl
  · rw [pieces]
    rfl

/-- A definition at the top has one span when its procedure is still entered in the end. -/
theorem spanCount_eq_one_iff {top : Fin n} (member : top ∈ setting.workspace.roots)
    (definition : Kind.isDefinition (setting.block top).kind = true) :
    (Listing.assemble finished parts).spanCount (setting.block top).id = 1 ↔
      ∃ procedure ∈ finished.procedures.entries,
        procedure.owner = some ⟨(setting.block top).id, (setting.block top).kind⟩ := by
  rw [spanCount_of_definition ran distinct member definition]
  have limit := countP_procedures_le_one ran distinct top
  constructor
  · intro one
    obtain ⟨procedure, registered, owned⟩ := List.countP_pos_iff.mp (one ▸ Nat.one_pos)
    obtain ⟨_, builds⟩ := exists_builds_of_owned ran distinct registered owned
    exact ⟨procedure, registered, builds.owner⟩
  · rintro ⟨procedure, registered, owner⟩
    refine Nat.le_antisymm limit (List.countP_pos_iff.mpr ⟨procedure, registered, ?_⟩)
    rw [owner]
    exact Value.same_self (distinct.atoms top)

/-- Definitions that share a name do not both own a procedure. -/
theorem eq_of_owned {top other : Fin n}
    (same : ((setting.block top).field "NAME").same ((setting.block other).field "NAME") = true)
    (owned : ∃ procedure ∈ finished.procedures.entries,
      procedure.owner = some ⟨(setting.block top).id, (setting.block top).kind⟩)
    (ownedToo : ∃ procedure ∈ finished.procedures.entries,
      procedure.owner = some ⟨(setting.block other).id, (setting.block other).kind⟩) :
    top = other := by
  obtain ⟨procedure, registered, owner⟩ := owned
  obtain ⟨another, registeredToo, ownerToo⟩ := ownedToo
  have ownId := Value.same_self (distinct.atoms top)
  have otherId := Value.same_self (distinct.atoms other)
  obtain ⟨_, builds⟩ := exists_builds_of_owned ran distinct registered (by rw [owner]; exact ownId)
  obtain ⟨_, buildsToo⟩ :=
    exists_builds_of_owned ran distinct registeredToo (by rw [ownerToo]; exact otherId)
  have names := (builds.name.congr buildsToo.name.atom same).found
  rw [buildsToo.name.found] at names
  cases eq_of_name_eq ran registered registeredToo (Option.some.inj names).symm
  rw [owner] at ownerToo
  apply distinct.ids
  rw [(Owner.mk.inj (Option.some.inj ownerToo)).1]
  exact otherId

/-- A block at the top has no more than one span. -/
theorem spanCount_le_one {top : Fin n} (member : top ∈ setting.workspace.roots) :
    (Listing.assemble finished parts).spanCount (setting.block top).id ≤ 1 := by
  cases definition : Kind.isDefinition (setting.block top).kind with
  | true =>
      rw [spanCount_of_definition ran distinct member definition]
      exact countP_procedures_le_one ran distinct top
  | false =>
      rw [spanCount_of_statement ran distinct member definition]
      split
      · exact Nat.zero_le _
      · exact Nat.le_refl _

/-- **A finished program locates its blocks.** -/
theorem located_of_program : setting.Located parts finished (Listing.assemble finished parts) := by
  constructor
  case once => exact fun top member => spanCount_le_one ran distinct member
  case statements =>
    intro top member other
    rw [spanCount_of_statement ran distinct member other]
    split
    · rename_i empty
      exact iff_of_false Nat.zero_ne_one (not_not.mpr empty)
    · rename_i body
      exact iff_of_true rfl body
  case definitions =>
    exact fun top member definition => spanCount_eq_one_iff ran distinct member definition
  case unshared =>
    intro top member definition unshared
    apply (spanCount_eq_one_iff ran distinct member definition).mpr
    exact exists_owned_of_unshared ran member definition unshared
  case shared =>
    intro top member other memberToo apart definition definitionToo same
    have first := spanCount_le_one ran distinct member
    have second := spanCount_le_one ran distinct memberToo
    by_contra both
    apply apart
    apply eq_of_owned ran distinct same
    · exact (spanCount_eq_one_iff ran distinct member definition).mp (by omega)
    · exact (spanCount_eq_one_iff ran distinct memberToo definitionToo).mp (by omega)

end Program

end Setting

theorem Attempt.eq_ok_of_toOption {attempt : Attempt α} {result : α}
    (computed : attempt.toOption = some result) : attempt = .ok result := by
  cases attempt with
  | error fault => cases computed
  | ok other =>
      cases computed
      rfl

namespace Program

/-- A program with the options that it is generated with. -/
def setting (program : Program) (options : Options) : Setting program.size :=
  ⟨program.workspace, options⟩

open Forest in
/-- What is loaded has ids that tell blocks apart. -/
theorem distinct {description : Value} {program : Program}
    (loaded : ofValue description = .ok program) (options : Options) :
    (program.setting options).Distinct := by
  obtain ⟨nodes, links, roots, _, _, _, _, _, _, accepted, _, _, _, _, rfl⟩ :=
    ofValue_accepted loaded
  constructor
  case atoms =>
    intro ref
    rw [show ((setting _ options).block ref).id = _ from id_graph nodes links ref]
    exact accepted.isAtom ref
  case ids =>
    intro ref other same
    rw [show ((setting _ options).block ref).id = _ from id_graph nodes links ref,
      show ((setting _ options).block other).id = _ from id_graph nodes links other] at same
    exact eq_of_key_eq accepted.wired.distinct ((Value.key_eq_key (accepted.isAtom ref)).mpr same)
  case roots => exact accepted.roots_sublist.nodup (List.nodup_finRange _)

/-- **Top-level blocks are located at most once**, in every listing of a program that was loaded.
What is missing is told by the pass and the body: a definition whose procedure is registered no more
because another one took its name, and any other block of a program without a body. -/
theorem generate_locates {description : Value} {program : Program}
    (loaded : ofValue description = .ok program) {options : Options} {listing : Listing}
    (generated : (program.generate options).result = .ok listing) :
    ∃ log parts finished,
      ((program.setting options).run (Gen.program (program.setting options))).run.run
        { Pass.start Names.start with log := log } = (.ok parts, finished) ∧
      listing = Listing.assemble finished parts ∧
      (program.setting options).Located parts finished listing := by
  have ran : (program.setting options).emit.run.run (Pass.start Names.start) = (.ok listing, _) :=
    Prod.ext generated rfl
  obtain ⟨log, parts, finished, made, rfl, _⟩ := Setting.program_of_emit ran
  exact ⟨log, parts, finished, made, rfl,
    Setting.located_of_program made (Program.distinct loaded options)⟩

/-- What is computed from the listing of a description. -/
theorem exists_listing {description : Value} {measure : Listing → α} {value : α}
    (computed : (ofValue description).toOption.bind (fun program =>
      (program.generate {}).result.toOption.map measure) = some value) :
    ∃ program listing, ofValue description = .ok program ∧
      (program.generate {}).result = .ok listing ∧ measure listing = value := by
  obtain ⟨program, loaded, computed⟩ := Option.bind_eq_some_iff.mp computed
  obtain ⟨listing, generated, measured⟩ := Option.map_eq_some_iff.mp computed
  exact ⟨program, listing, Attempt.eq_ok_of_toOption loaded,
    Attempt.eq_ok_of_toOption generated, measured⟩

/-- The description of a node with fields and a mutation. -/
def describeBlock (id kind : String) (fields mutation : Table Value) : Value :=
  .object [("id", .text id), ("type", .text kind), ("fields", .object fields),
    ("mutation", .object mutation)]

/-- Three definitions, of which the first two share a name, and a statement. -/
def sharedSample : Value :=
  .object [("nodes", .list [
    describeBlock "first" "procedures_defnoreturn" [("NAME", .text "f")] [],
    describeBlock "second" "procedures_defnoreturn" [("NAME", .text "f")] [],
    describeBlock "third" "procedures_defnoreturn" [("NAME", .text "g")] [],
    describeBlock "print" "text_print" [] []])]

/-- A condition without branches, which comes to no code. -/
def silentSample : Value :=
  .object [("nodes", .list [describeBlock "if" "controls_if" [] [("elseif", .int (-1))]])]

/-- The first of two definitions with one name has no span, nor has a block in a program without a
body. -/
theorem generate_locates_samples :
    (∃ program listing, ofValue sharedSample = .ok program ∧
      (program.generate {}).result = .ok listing ∧
      ["first", "second", "third", "print"].map (fun id => listing.spanCount (.text id)) =
        [0, 1, 1, 1] ∧
      ∃ log parts finished,
        ((program.setting {}).run (Gen.program (program.setting {}))).run.run
          { Pass.start Names.start with log := log } = (.ok parts, finished) ∧
        listing = Listing.assemble finished parts ∧
        (program.setting {}).Located parts finished listing) ∧
    ∃ program listing, ofValue silentSample = .ok program ∧
      (program.generate {}).result = .ok listing ∧ listing.spanCount (.text "if") = 0 ∧
      ∃ log parts finished,
        ((program.setting {}).run (Gen.program (program.setting {}))).run.run
          { Pass.start Names.start with log := log } = (.ok parts, finished) ∧
        listing = Listing.assemble finished parts ∧
        (program.setting {}).Located parts finished listing := by
  constructor
  · obtain ⟨program, listing, loaded, generated, counts⟩ :
        ∃ program listing, ofValue sharedSample = .ok program ∧
          (program.generate {}).result = .ok listing ∧
          ["first", "second", "third", "print"].map (fun id => listing.spanCount (.text id)) =
            [0, 1, 1, 1] := exists_listing (by decide +kernel)
    exact ⟨program, listing, loaded, generated, counts, generate_locates loaded generated⟩
  · obtain ⟨program, listing, loaded, generated, count⟩ :
        ∃ program listing, ofValue silentSample = .ok program ∧
          (program.generate {}).result = .ok listing ∧ listing.spanCount (.text "if") = 0 :=
      exists_listing (by decide +kernel)
    exact ⟨program, listing, loaded, generated, count, generate_locates loaded generated⟩

end Program

end BlockScript
