import BlockScript.Proofs.Effect

/-! # Passes only grow

Whatever is run on a pass, imports, names of helpers, temporaries and filed identifiers are added at
the end and nothing is taken away (`Pass.Extends`, `Pass.extends_stable`). Every identifier has one
purpose at most: it is filed under one name, or it is the name of one helper, or one temporary
(`Pass.Ledger`, `Pass.ledger_stable`). An identifier that was handed out without a purpose never gets
one (`Pass.Extends.apart_of`).
-/

namespace BlockScript

variable {n : Nat}

namespace Table

variable {α : Type}

/-- A new name goes last. -/
theorem insert_of_get?_eq_none {table : Table α} {name : String} (entry : α)
    (missing : table.get? name = none) : table.insert name entry = table ++ [(name, entry)] := by
  induction table with
  | nil => rfl
  | cons head rest ih =>
      rw [get?] at missing
      split at missing
      · cases missing
      · rename_i different
        rw [insert, if_neg different, ih missing, List.cons_append]

theorem get?_eq_none_of_has {table : Table α} {name : String} (missing : table.has name = false) :
    table.get? name = none := by
  unfold has at missing
  exact Option.not_isSome_iff_eq_none.mp (ne_true_of_eq_false missing)

theorem mem_entries_of_get? {table : Table α} {name : String} {entry : α}
    (found : table.get? name = some entry) : entry ∈ table.entries :=
  List.mem_map.mpr ⟨_, mem_of_get? found, rfl⟩

/-- What has an entry keeps it when a table grows. -/
theorem get?_append_of_eq_some {table : Table α} {name : String} {entry : α}
    (found : table.get? name = some entry) (more : Table α) :
    Table.get? (table ++ more) name = some entry := by
  induction table with
  | nil => cases found
  | cons head rest ih =>
      rw [get?] at found
      rw [List.cons_append, get?]
      split at found
      · rename_i same
        rw [if_pos same]
        exact found
      · rename_i different
        rw [if_neg different]
        exact ih found

/-- What a table has, a longer one has. -/
theorem has_of_isPrefix {table later : Table α} (grown : table <+: later) {name : String}
    (known : table.has name = true) : later.has name = true := by
  obtain ⟨more, rfl⟩ := grown
  obtain ⟨entry, found⟩ := Option.isSome_iff_exists.mp known
  unfold has
  rw [get?_append_of_eq_some found]
  rfl

/-- Names stay listed once. -/
theorem nodup_keys_insert {table : Table α} (distinct : table.keys.Nodup) (name : String)
    (entry : α) : (table.insert name entry).keys.Nodup := by
  rw [keys_insert]
  split
  · exact distinct
  · rename_i absent
    rw [has_iff_mem_keys] at absent
    rw [← List.concat_eq_append]
    exact distinct.concat absent

end Table

namespace Pass

/-! ## What identifiers are for -/

/-- The identifiers with a purpose: those that are filed, the names of helpers, the temporaries. -/
def purposes (pass : Pass n) : List String :=
  pass.names.table.map (·.2) ++ (pass.functionNames.entries ++ pass.temporaries)

/-- What an effect does to the account of identifiers. -/
inductive Accounts (pass after : Pass n) : Prop
  | unchanged : after.names.used = pass.names.used → after.purposes = pass.purposes →
      Accounts pass after
  /-- An identifier is handed out without a purpose. -/
  | spare {identifier : String} : pass.names.Novel identifier →
      after.names.used = identifier :: pass.names.used → after.purposes = pass.purposes →
      Accounts pass after
  | assigned {identifier : String} : pass.names.Novel identifier →
      after.names.used = identifier :: pass.names.used →
      after.purposes.Perm (identifier :: pass.purposes) → Accounts pass after

/-- Every effect keeps the account of identifiers. -/
theorem accounts_of_effect {pass after : Pass n} {request : Request n}
    {result : Attempt request.Answer} (effect : request.Effect pass result after) :
    Accounts pass after := by
  -- Wherever an identifier is put among the others, it is one more.
  have inserted (before later : List String) (identifier : String)
      (same : pass.purposes = before ++ later) :
      (before ++ identifier :: later).Perm (identifier :: pass.purposes) := by
    rw [same]
    exact List.perm_middle
  cases effect with
  | refused | known | supplied | declared | imported | defined => exact .unchanged rfl rfl
  | lost _ _ _ novel => exact .spare novel rfl rfl
  | distinct _ novel => exact .spare novel rfl rfl
  | @filed _ _ identifier _ _ novel =>
      have one := inserted (pass.names.table.map (·.2)) _ identifier rfl
      refine .assigned novel rfl ?_
      unfold purposes Names.record
      rw [List.map_append, List.append_assoc]
      exact one
  | @temporary _ identifier _ novel =>
      have one := inserted pass.purposes [] identifier (List.append_nil _).symm
      refine .assigned novel rfl ?_
      simpa [purposes, Names.markUsed] using one
  | @provided _ _ identifier _ _ new novel _ | @unfinished _ _ identifier _ _ new novel _ =>
      have one := inserted (pass.names.table.map (·.2) ++ pass.functionNames.entries)
        pass.temporaries identifier (List.append_assoc ..).symm
      refine .assigned novel rfl ?_
      simpa [purposes, Names.markUsed, Table.insert_of_get?_eq_none _ new, Table.entries] using one

/-! ## Growth -/

/-- A pass has all that another one has, and more after it. -/
structure Extends (later earlier : Pass n) : Prop where
  imports : earlier.imports <+: later.imports
  functionNames : earlier.functionNames <+: later.functionNames
  temporaries : earlier.temporaries <+: later.temporaries
  table : earlier.names.table <+: later.names.table
  used : earlier.names.used <:+ later.names.used
  /-- What was handed out without a purpose has got none. -/
  apart : ∀ identifier ∈ earlier.names.used, identifier ∉ earlier.purposes →
    identifier ∉ later.purposes

namespace Extends

theorem refl (pass : Pass n) : pass.Extends pass :=
  ⟨List.prefix_rfl, List.prefix_rfl, List.prefix_rfl, List.prefix_rfl, List.suffix_rfl,
    fun _ _ idle => idle⟩

/-- What extends an extension extends the first pass. -/
theorem trans {first second third : Pass n} (later : third.Extends second)
    (earlier : second.Extends first) : third.Extends first where
  imports := earlier.imports.trans later.imports
  functionNames := earlier.functionNames.trans later.functionNames
  temporaries := earlier.temporaries.trans later.temporaries
  table := earlier.table.trans later.table
  used := earlier.used.trans later.used
  apart identifier known idle :=
    later.apart identifier (earlier.used.subset known) (earlier.apart identifier known idle)

end Extends

/-- Every effect adds to a pass. -/
theorem extends_of_effect {pass after : Pass n} {request : Request n}
    {result : Attempt request.Answer} (effect : request.Effect pass result after) :
    after.Extends pass := by
  have apart : ∀ identifier ∈ pass.names.used, identifier ∉ pass.purposes →
      identifier ∉ after.purposes := by
    intro identifier known idle
    cases accounts_of_effect effect with
    | unchanged _ purposes | spare _ _ purposes =>
        rw [purposes]
        exact idle
    | assigned novel _ purposes =>
        intro member
        rcases List.mem_cons.mp (purposes.mem_iff.mp member) with rfl | earlier
        · exact novel.unused known
        · exact idle earlier
  have same := Extends.refl pass
  have marked (identifier : String) : pass.names.used <:+ identifier :: pass.names.used :=
    List.suffix_cons ..
  cases effect with
  | refused | known | supplied | declared | defined =>
      exact ⟨same.imports, same.functionNames, same.temporaries, same.table, same.used, apart⟩
  | lost | distinct =>
      exact ⟨same.imports, same.functionNames, same.temporaries, same.table, marked _, apart⟩
  | filed _ _ _ =>
      exact ⟨same.imports, same.functionNames, same.temporaries, List.prefix_append .., marked _,
        apart⟩
  | temporary _ _ =>
      exact ⟨same.imports, same.functionNames, List.prefix_append .., same.table, marked _, apart⟩
  | provided _ new _ _ | unfinished _ new _ _ =>
      refine ⟨same.imports, ?_, same.temporaries, same.table, marked _, apart⟩
      rw [Table.insert_of_get?_eq_none _ new]
      exact List.prefix_append ..
  | imported _ new =>
      refine ⟨?_, same.functionNames, same.temporaries, same.table, same.used, apart⟩
      rw [Table.insert_of_get?_eq_none _ (Table.get?_eq_none_of_has new)]
      exact List.prefix_append ..

/-- **A pass only grows**, whatever is run on it. -/
theorem extends_stable (start : Pass n) : Pass.Stable (·.Extends start) where
  ignores _ _ grown :=
    ⟨grown.imports, grown.functionNames, grown.temporaries, grown.table, grown.used, grown.apart⟩
  effects effect grown := (extends_of_effect effect).trans grown

/-- **A run extends the pass** that it starts from. -/
theorem runWith_extends {α : Type} (setting : Setting n) (depth : Nat) (generator : Gen n α)
    (pass : Pass n) :
    ((generator.runWith (setting.outcome depth)).run.run pass).2.Extends pass :=
  (extends_stable pass).runWith setting depth generator (.refl pass)

/-! ## One purpose for each identifier -/

/-- The reserved words are never changed. -/
theorem reserved_of_effect {pass after : Pass n} {request : Request n}
    {result : Attempt request.Answer} (effect : request.Effect pass result after) :
    after.names.reserved = pass.names.reserved := by
  cases effect <;> rfl

/-- The account of identifiers is in order: those that are handed out may be used as names, and none
has two purposes. -/
structure Ledger (pass : Pass n) : Prop where
  reserved : pass.names.reserved = Names.reservedWords
  named : ∀ identifier ∈ pass.names.used, Names.IsName identifier
  used : ∀ identifier ∈ pass.purposes, identifier ∈ pass.names.used
  distinct : pass.purposes.Nodup

theorem Ledger.start (log : List String) :
    ({ Pass.start Names.start with log := log } : Pass n).Ledger :=
  ⟨rfl, fun _ member => (nomatch member), fun _ member => (nomatch member), .nil⟩

/-- An identifier that was not handed out yet has no purpose. -/
theorem Ledger.not_mem_purposes {pass : Pass n} (ledger : pass.Ledger) {identifier : String}
    (novel : pass.names.Novel identifier) : identifier ∉ pass.purposes :=
  fun member => novel.unused (ledger.used identifier member)

/-- One more identifier is handed out. -/
theorem Ledger.named_cons {pass : Pass n} (ledger : pass.Ledger) {identifier : String}
    (novel : pass.names.Novel identifier) :
    ∀ other ∈ identifier :: pass.names.used, Names.IsName other := by
  refine List.forall_mem_cons.mpr ⟨⟨novel.proper, ?_⟩, ledger.named⟩
  rw [← ledger.reserved]
  exact novel.unreserved

/-- **No identifier has two purposes**, whatever is run on a pass. -/
theorem ledger_stable : Pass.Stable (Ledger (n := n)) where
  ignores _ _ ledger := ⟨ledger.reserved, ledger.named, ledger.used, ledger.distinct⟩
  effects := by
    intro pass after request result effect ledger
    have reserved := (reserved_of_effect effect).trans ledger.reserved
    cases accounts_of_effect effect with
    | unchanged used purposes =>
        refine ⟨reserved, ?_, ?_, ?_⟩
        · rw [used]
          exact ledger.named
        · rw [used, purposes]
          exact ledger.used
        · rw [purposes]
          exact ledger.distinct
    | spare novel used purposes =>
        refine ⟨reserved, ?_, ?_, ?_⟩
        · rw [used]
          exact ledger.named_cons novel
        · rw [used, purposes]
          exact fun other member => List.mem_cons_of_mem _ (ledger.used other member)
        · rw [purposes]
          exact ledger.distinct
    | assigned novel used purposes =>
        refine ⟨reserved, ?_, ?_, ?_⟩
        · rw [used]
          exact ledger.named_cons novel
        · intro other member
          rw [used]
          rcases List.mem_cons.mp (purposes.mem_iff.mp member) with rfl | earlier
          · exact List.mem_cons_self ..
          · exact List.mem_cons_of_mem _ (ledger.used other earlier)
        · rw [purposes.nodup_iff]
          exact List.nodup_cons.mpr ⟨ledger.not_mem_purposes novel, ledger.distinct⟩

/-- A temporary is neither filed under a name nor the name of a helper. -/
theorem Ledger.temporary {pass : Pass n} (ledger : pass.Ledger) {identifier : String}
    (member : identifier ∈ pass.temporaries) :
    identifier ∉ pass.names.table.map (·.2) ∧ identifier ∉ pass.functionNames.entries := by
  obtain ⟨_, others, filed⟩ := List.nodup_append.mp ledger.distinct
  obtain ⟨_, _, helpers⟩ := List.nodup_append.mp others
  constructor
  · intro known
    exact filed identifier known identifier (List.mem_append_right _ member) rfl
  · intro known
    exact helpers identifier known identifier member rfl

/-- An identifier that was handed out and has no purpose. -/
def Apart (identifier : String) (pass : Pass n) : Prop :=
  identifier ∈ pass.names.used ∧ identifier ∉ pass.purposes

/-- **What is apart stays apart.** -/
theorem Extends.apart_of {later earlier : Pass n} (grown : later.Extends earlier)
    {identifier : String} (apart : earlier.Apart identifier) : later.Apart identifier :=
  ⟨grown.used.subset apart.1, grown.apart identifier apart.1 apart.2⟩

end Pass

end BlockScript
