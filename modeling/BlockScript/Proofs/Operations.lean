import BlockScript.Proofs.Activity
import BlockScript.Proofs.Hindsight
import BlockScript.Proofs.Snippets

/-! # Operations on a pass

Between the operations of a caller, the tables of a pass are in order: every helper has its name and
its source, and no identifier names two things (`Pass.Orderly`). Each operation adds to the tables
and leaves the active blocks as they were, also when it fails (`Pass.Advanced`,
`Setting.operations_keep_order`).
-/

namespace BlockScript

variable {n : Nat}

namespace Pass

/-- The identifiers of procedures. -/
def procedureNames (pass : Pass n) : List String :=
  (pass.names.table.filter fun entry => entry.1.1.same Space.procedure.label).map (·.2)

theorem mem_procedureNames {pass : Pass n} {label name : Value} {identifier : String}
    (member : ((label, name), identifier) ∈ pass.names.table)
    (same : label.same Space.procedure.label = true) : identifier ∈ pass.procedureNames :=
  List.mem_map.mpr ⟨_, List.mem_filter.mpr ⟨member, same⟩, rfl⟩

theorem Extends.procedureNames {later earlier : Pass n} (grown : later.Extends earlier)
    {name : String} (known : name ∈ earlier.procedureNames) : name ∈ later.procedureNames := by
  obtain ⟨entry, among, rfl⟩ := List.mem_map.mp known
  obtain ⟨member, label⟩ := List.mem_filter.mp among
  exact mem_procedureNames (grown.table.subset member) label

/-- The tables of a pass are in order. -/
structure Orderly (pass : Pass n) : Prop where
  /-- Every helper has a name and a source. -/
  keys : pass.helpers.keys = pass.functionNames.keys
  headed : ∀ key name source, pass.functionNames.get? key = some name →
    pass.helpers.get? key = some source → ∃ rest, source = "def " ++ name ++ "(" ++ rest
  random : ∀ source ∈ pass.helpers.entries, "random" ∈ mentions source →
    pass.imports.has "import_random" = true
  /-- Helpers, temporaries and the procedures that were named have identifiers of their own, -/
  named : (pass.functionNames.entries ++ (pass.temporaries ++ pass.procedureNames)).Nodup
  /-- and so have the procedures that were defined. -/
  defined : (pass.functionNames.entries ++ (pass.temporaries ++ pass.procedures.keys)).Nodup

/-- What an operation may do to a pass. -/
structure Advanced (before after : Pass n) : Prop where
  active : after.active = before.active
  imports : before.imports <+: after.imports
  helpers : before.helpers <+: after.helpers
  functionNames : before.functionNames <+: after.functionNames
  temporaries : before.temporaries <+: after.temporaries

/-- What holds all along on the way from a pass to a last one. Modules are imported and procedures
are named in the end, if not yet. -/
structure Kept (pass start last : Pass n) : Prop where
  ledger : pass.Ledger
  keys : pass.helpers.keys = pass.functionNames.keys
  headed : ∀ key name source, pass.functionNames.get? key = some name →
    pass.helpers.get? key = some source → ∃ rest, source = "def " ++ name ++ "(" ++ rest
  random : ∀ source ∈ pass.helpers.entries, "random" ∈ mentions source →
    last.imports.has "import_random" = true
  procedures : ∀ name ∈ pass.procedures.keys, name ∈ last.procedureNames
  once : pass.procedures.keys.Nodup
  helpers : start.helpers <+: pass.helpers

namespace Kept

variable {start last pass after : Pass n}

theorem of_start (log : List String) :
    ({ Pass.start Names.start with log := log } : Pass n).Kept
      { Pass.start Names.start with log := log } { Pass.start Names.start with log := log } where
  ledger := .start log
  keys := rfl
  headed _ _ _ found := nomatch found
  random _ member := nomatch member
  procedures _ member := nomatch member
  once := .nil
  helpers := List.prefix_rfl

/-- What is kept up to a pass is kept up to a later one, from anywhere. -/
theorem continued (kept : pass.Kept start last) (later : after.Extends last) :
    pass.Kept pass after where
  ledger := kept.ledger
  keys := kept.keys
  headed := kept.headed
  random source member used := Table.has_of_isPrefix later.imports (kept.random source member used)
  procedures name member := later.procedureNames (kept.procedures name member)
  once := kept.once
  helpers := List.prefix_rfl

theorem unchanged (kept : pass.Kept start last) (ledger : after.Ledger)
    (helpers : after.helpers = pass.helpers)
    (functionNames : after.functionNames = pass.functionNames)
    (procedures : after.procedures = pass.procedures) : after.Kept start last := by
  obtain ⟨_, keys, headed, random, named, once, grown⟩ := kept
  rw [← helpers] at keys headed random grown
  rw [← functionNames] at keys headed
  rw [← procedures] at named once
  exact ⟨ledger, keys, headed, random, named, once, grown⟩

/-- A helper comes with its name and its source. -/
theorem provided (kept : pass.Kept start last) (ledger : after.Ledger) {key name source : String}
    (new : pass.functionNames.get? key = none)
    (headed : ∃ rest, source = "def " ++ name ++ "(" ++ rest)
    (random : "random" ∈ mentions source → last.imports.has "import_random" = true)
    (helpers : after.helpers = pass.helpers.insert key source)
    (functionNames : after.functionNames = pass.functionNames.insert key name)
    (procedures : after.procedures = pass.procedures) : after.Kept start last := by
  have missing : pass.helpers.get? key = none := by
    apply Table.get?_eq_none_of_has
    apply eq_false_of_ne_true
    rw [Table.has_iff_mem_keys, kept.keys, ← Table.has_iff_mem_keys, Table.has, new]
    exact Bool.false_ne_true
  refine ⟨ledger, ?_, ?_, ?_, ?_, ?_, ?_⟩
  · rw [helpers, functionNames, Table.keys_insert, Table.keys_insert, Table.has, Table.has, new,
      missing, kept.keys]
  · intro other otherName otherSource known held
    rw [functionNames] at known
    rw [helpers] at held
    by_cases same : other = key
    · rw [same, Table.get?_insert_self] at known held
      cases known
      cases held
      exact headed
    · rw [Table.get?_insert_of_ne _ _ same] at known held
      exact kept.headed other otherName otherSource known held
  · intro other member
    rw [helpers] at member
    rcases Table.mem_entries_insert member with earlier | rfl
    · exact kept.random other earlier
    · exact random
  · rw [procedures]
    exact kept.procedures
  · rw [procedures]
    exact kept.once
  · rw [helpers, Table.insert_of_get?_eq_none _ missing]
    exact kept.helpers.trans (List.prefix_append ..)

/-- A procedure that is defined is one that was named. -/
theorem define (kept : pass.Kept start last) (ledger : after.Ledger) {procedure : Procedure}
    (named : procedure.name ∈ last.procedureNames) (helpers : after.helpers = pass.helpers)
    (functionNames : after.functionNames = pass.functionNames)
    (procedures : after.procedures = pass.procedures.insert procedure.name procedure) :
    after.Kept start last := by
  have same : ({ after with procedures := pass.procedures } : Pass n).Kept start last :=
    kept.unchanged ⟨ledger.reserved, ledger.named, ledger.used, ledger.distinct⟩ helpers
      functionNames rfl
  refine ⟨ledger, same.keys, same.headed, same.random, ?_, ?_, same.helpers⟩
  · rw [procedures, Table.keys_insert]
    split
    · exact kept.procedures
    · exact List.forall_mem_append.mpr ⟨kept.procedures, List.forall_mem_singleton.mpr named⟩
  · rw [procedures]
    exact Table.nodup_keys_insert kept.once _ _

/-- What is kept up to a pass itself puts its tables in order. -/
theorem orderly (kept : pass.Kept start pass) : pass.Orderly := by
  have distinct {chosen : List String} (sublist : chosen.Sublist pass.procedureNames) :
      (pass.functionNames.entries ++ (pass.temporaries ++ chosen)).Nodup := by
    have among : (chosen ++ (pass.functionNames.entries ++ pass.temporaries)).Sublist
        pass.purposes := (sublist.trans (List.filter_sublist.map _)).append_right _
    rw [← List.append_assoc]
    exact List.perm_append_comm.nodup_iff.mp (kept.ledger.distinct.sublist among)
  refine ⟨kept.keys, kept.headed, kept.random, distinct (.refl _), ?_⟩
  -- Procedures are defined in another order than they are named in, so they are a selection only.
  obtain ⟨chosen, permuted, sublist⟩ := List.subperm_of_subset kept.once kept.procedures
  have permutedAll := (permuted.append_left pass.temporaries).append_left
    pass.functionNames.entries
  exact permutedAll.nodup_iff.mp (distinct sublist)

end Kept

end Pass

namespace Setting

variable {α : Type} (setting : Setting n)

/-- What generators may count on in hindsight: what the last pass has. -/
def hindsight (last : Pass n) : Scope n where
  leads _ := True
  names _ _ := True
  imported := last.imports.has "import_random" = true
  isProcedure name := name ∈ last.procedureNames
  defines := True

theorem hindsight_covers (last : Pass n) (block : Block n) :
    (hindsight last).Covers setting block :=
  ⟨fun _ _ _ => trivial, fun _ _ _ _ => trivial, trivial, trivial⟩

/-- **Requests keep the tables in order**, if they keep to the rules. -/
theorem hindsight_upheld (start last : Pass n) :
    (setting.conduct (hindsight last)).toContract.UpheldUpTo last (·.Kept start last) where
  ignores pass active kept :=
    kept.unchanged (Pass.ledger_stable.ignores pass active kept.ledger) rfl rfl rfl
  effects := by
    intro pass after request result allowed effect within kept
    have ledger := Pass.ledger_stable.effects effect kept.ledger
    cases effect with
    | refused | lost => exact ⟨kept.unchanged ledger rfl rfl rfl, fun _ same => nomatch same⟩
    | @known space name identifier log found =>
        apply And.intro (kept.unchanged ledger rfl rfl rfl)
        intro answer same
        cases same
        cases space with
        | procedure =>
            obtain ⟨label, _, member, labelled, _⟩ := Names.mem_table_of_search found
            exact within.procedureNames (Pass.mem_procedureNames member labelled)
        | _ => trivial
    | @filed space name identifier log _ novel =>
        apply And.intro (kept.unchanged ledger rfl rfl rfl)
        intro answer same
        cases same
        cases space with
        | procedure =>
            apply within.procedureNames
            exact Pass.mem_procedureNames (List.mem_append_right _ (List.mem_singleton_self _))
              (Value.same_self rfl)
        | _ => trivial
    | distinct | temporary | supplied =>
        exact ⟨kept.unchanged ledger rfl rfl rfl, fun _ _ => trivial⟩
    | provided log new novel rendered =>
        have listed : Snippet.Listed setting.oneBased _ _ _ := allowed
        obtain ⟨rest, written, random⟩ :=
          listed.supplies (ledger.named _ (List.mem_cons_self ..))
        rw [rendered] at written
        cases written
        refine ⟨?_, fun _ _ => trivial⟩
        exact kept.provided ledger new ⟨rest, String.append_assoc.symm⟩ random rfl rfl rfl
    | unfinished log new novel rendered =>
        have listed : Snippet.Listed setting.oneBased _ _ _ := allowed
        obtain ⟨rest, written, _⟩ := listed.supplies (ledger.named _ (List.mem_cons_self ..))
        rw [rendered] at written
        cases written
    | declared known =>
        apply And.intro (kept.unchanged ledger rfl rfl rfl)
        intro _ _ random
        rw [random] at known
        exact Table.has_of_isPrefix within.imports known
    | imported log new =>
        apply And.intro (kept.unchanged ledger rfl rfl rfl)
        intro _ _ random
        apply Table.has_of_isPrefix within.imports
        rw [← random, Table.has, Table.get?_insert_self]
        rfl
    | defined log => exact ⟨kept.define ledger allowed.2 rfl rfl rfl, fun _ _ => trivial⟩

/-- **What keeps to the rules keeps the tables in order**, however it ends. -/
theorem kept_run {generator : Gen n α}
    (conducts : ∀ last, generator.Conducts setting (hindsight last)) {start pass : Pass n}
    (kept : pass.Kept start pass) :
    ((setting.run generator).run.run pass).2.Kept pass ((setting.run generator).run.run pass).2 := by
  generalize reached : ((setting.run generator).run.run pass).2 = last
  have grown := Pass.runWith_extends setting n generator pass
  change ((setting.run generator).run.run pass).2.Extends pass at grown
  rw [reached] at grown
  -- The rules speak of the pass that the run itself reaches.
  have upheld := setting.hindsight_upheld pass last
  have blocks := blocksUpTo upheld (fun kind ref _ => (Gen.conducts_generate
    (setting.hindsight_covers last (setting.block ref)) kind (fun _ => trivial)
      (fun _ _ => trivial) (fun _ _ _ _ _ => trivial)).ensures) n
  have along := runWith_keepsUpTo upheld blocks (conducts last).ensures pass
  change last.Extends ((setting.run generator).run.run pass).2 → _ →
    ((setting.run generator).run.run pass).2.Kept pass last ∧ _ at along
  rw [reached] at along
  exact (along (.refl last) (kept.continued grown)).1

/-- **What keeps to the rules adds to a pass.** -/
theorem advanced_run {generator : Gen n α}
    (conducts : ∀ last, generator.Conducts setting (hindsight last)) {start pass : Pass n}
    (kept : pass.Kept start pass) : pass.Advanced ((setting.run generator).run.run pass).2 := by
  have grown := Pass.runWith_extends setting n generator pass
  have active := (setting.runWith_keepsActive n generator pass.active).active_eq
  exact ⟨active, grown.imports, (setting.kept_run conducts kept).helpers, grown.functionNames,
    grown.temporaries⟩

end Setting

/-- What a caller may do with a pass. -/
inductive Pass.Operation (n : Nat) where
  | block (ref : Fin n)
  | child (parent : Block n) (socket : String)
  | value (parent : Block n) (socket : String) (order : Order) (default : String)
  | chain (first : Option (Fin n))
  | statements (parent : Block n) (socket : String)
  | loopBody (parent : Block n) (socket : String)
  | index (parent : Block n) (socket : String) (delta : Int) (negate : Bool)
  | variableName (name : Value)
  | procedureName (name : Value)
  | distinctVariable (name : Value)
  | temporary (name : Value)

namespace Pass.Operation

/-- What an operation gives. -/
@[reducible]
def Result : Operation n → Type
  | .block _ => Outcome
  | .child .. => Option Expression
  | .index .. => Index
  | _ => String

/-- The generator of an operation. -/
def generator (setting : Setting n) : (operation : Operation n) → Gen n operation.Result
  | .block ref => Gen.block ref
  | .child parent socket => Gen.child setting parent socket
  | .value parent socket order default => Gen.value setting parent socket order default
  | .chain first => Gen.chain setting first
  | .statements parent socket => Gen.statements setting parent socket
  | .loopBody parent socket => Gen.loopBody setting parent socket
  | .index parent socket delta negate => Gen.index setting parent socket delta negate
  | .variableName name => Gen.variableName name
  | .procedureName name => Gen.procedureName name
  | .distinctVariable name => Gen.distinctVariable name
  | .temporary name => Gen.temporary name

/-- The pass after an operation, whether it succeeds or fails. -/
def after (setting : Setting n) (operation : Operation n) (pass : Pass n) : Pass n :=
  ((setting.run (operation.generator setting)).run.run pass).2

theorem conducts (setting : Setting n) (last : Pass n) (operation : Operation n) :
    (operation.generator setting).Conducts setting (Setting.hindsight last) := by
  cases operation with
  | block ref => exact .block trivial
  | child parent socket => exact Gen.conducts_child (setting.hindsight_covers last parent) socket
  | value parent socket order default =>
      exact Gen.conducts_value (setting.hindsight_covers last parent) socket order default
  | chain first => exact Gen.conducts_chain (fun _ _ _ _ => trivial) (fun _ _ => trivial)
  | statements parent socket =>
      exact Gen.conducts_statements (setting.hindsight_covers last parent) socket
  | loopBody parent socket =>
      exact Gen.conducts_loopBody (setting.hindsight_covers last parent) socket
  | index parent socket delta negate =>
      exact Gen.conducts_index (setting.hindsight_covers last parent) socket delta negate
  | variableName name => exact ⟨trivial, fun _ _ => trivial⟩
  | procedureName name => exact ⟨trivial, fun _ _ => trivial⟩
  | distinctVariable name => exact ⟨trivial, fun _ _ => trivial⟩
  | temporary name => exact ⟨trivial, fun _ _ => trivial⟩

/-- One operation adds to a pass and keeps its tables in order. -/
theorem advanced_after (setting : Setting n) (operation : Operation n) {start pass : Pass n}
    (kept : pass.Kept start pass) :
    pass.Advanced (operation.after setting pass) ∧
      (operation.after setting pass).Kept pass (operation.after setting pass) := by
  have conducts (last : Pass n) := operation.conducts setting last
  exact ⟨setting.advanced_run conducts kept, setting.kept_run conducts kept⟩

end Pass.Operation

namespace Setting

/-- The pass after operations one after the other, from the start. -/
def perform (setting : Setting n) (operations : List (Pass.Operation n)) : Pass n :=
  operations.foldl (fun pass operation => operation.after setting pass) (Pass.start Names.start)

theorem perform_append (setting : Setting n) (operations : List (Pass.Operation n))
    (operation : Pass.Operation n) :
    setting.perform (operations ++ [operation]) =
      operation.after setting (setting.perform operations) := List.foldl_append

theorem kept_perform (setting : Setting n) (operations : List (Pass.Operation n)) :
    ∃ start, (setting.perform operations).Kept start (setting.perform operations) := by
  induction operations using List.reverseRecOn with
  | nil => exact ⟨_, .of_start []⟩
  | append_singleton operations operation ih =>
      obtain ⟨start, kept⟩ := ih
      rw [perform_append]
      exact ⟨_, (operation.advanced_after setting kept).2⟩

/-- **Operations keep a pass in order.** After any operations, whether they succeeded or failed, one
more leaves the active blocks as they were, only adds to the tables, and leaves them in order. -/
theorem operations_keep_order (setting : Setting n) (earlier : List (Pass.Operation n))
    (next : Pass.Operation n) :
    (setting.perform earlier).Advanced (setting.perform (earlier ++ [next])) ∧
      (setting.perform (earlier ++ [next])).Orderly := by
  obtain ⟨start, kept⟩ := setting.kept_perform earlier
  obtain ⟨advanced, keptAfter⟩ := next.advanced_after setting kept
  rw [perform_append]
  exact ⟨advanced, keptAfter.orderly⟩

end Setting

end BlockScript
