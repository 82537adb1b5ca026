import BlockScript.Proofs.Generators.Kind

/-! # The passes that occur

A pass that occurs is one that the start leads to by requests that are met, whatever blocks are
active meanwhile (`Setting.Reached`). In all of them identifiers may be used as names and procedures
are written in the language (`Setting.Reached.legal`), and from such a pass blocks come to code of
the language (`Setting.outcome_keeps_legal`).
-/

namespace BlockScript

namespace Names

variable {space : Space} {name : Value}

theorem Legal.markUsed {names : Names} (legal : names.Legal) (identifier : String) :
    (names.markUsed identifier).Legal := ⟨legal.reserved, legal.filed⟩

/-- A table stays legal when it files an identifier that may be used as a name. -/
theorem Legal.record {names : Names} (legal : names.Legal) {identifier : String}
    (named : IsName identifier) : (names.record space name identifier).Legal := by
  refine ⟨legal.reserved, fun entry member => ?_⟩
  rcases List.mem_append.mp member with member | member
  · exact legal.filed entry member
  · rw [List.mem_singleton.mp member]
    exact named

/-- A fresh identifier may be used as a name, and leaves the table legal. -/
theorem fresh_keeps :
    Step.Keeps Legal (fun grant => IsName grant.identifier) (fresh space name) := by
  unfold fresh
  refine .bind (.ofExcept fun base suggested => isIdentifier_of_suggestion suggested)
    fun base identifier => ?_
  refine .bind .get fun names legal => ?_
  refine .bind (.modify fun other kept => kept.markUsed _) fun _ _ => ?_
  refine .bind (.ofExcept fun _ _ => trivial) fun notice _ => ?_
  exact .pure (legal.isName_firstFree identifier)

/-- So may an identifier that is looked up or filed. -/
theorem identify_keeps :
    Step.Keeps Legal (fun grant => IsName grant.identifier) (identify space name) := by
  unfold identify
  refine .bind (.ofExcept fun _ _ => trivial) fun _ _ => ?_
  refine .bind (.ofExcept fun _ _ => trivial) fun _ _ => ?_
  refine .bind .get fun names legal => ?_
  cases found : names.find? space name with
  | some identifier => exact .pure (legal.isName_of_find? found)
  | none =>
      refine .bind fresh_keeps fun grant named => ?_
      exact .bind (.modify fun _ kept => kept.record named) fun _ _ => .pure named

end Names

/-- An entry of a table after an insertion is an old one or the new one. -/
theorem Table.mem_insert {α : Type} {table : Table α} {name : String} {entry : α}
    {other : String × α} (member : other ∈ table.insert name entry) :
    other ∈ table ∨ other = (name, entry) := by
  induction table with
  | nil => exact .inr (List.mem_singleton.mp member)
  | cons head rest ih =>
      unfold Table.insert at member
      split at member
      · rename_i same
        rcases List.mem_cons.mp member with rfl | member
        · exact .inr (by rw [same])
        · exact .inl (List.mem_cons_of_mem _ member)
      · rcases List.mem_cons.mp member with rfl | member
        · exact .inl (List.mem_cons_self ..)
        · exact (ih member).imp (List.mem_cons_of_mem _) id

/-- So is what is entered. -/
theorem Table.mem_entries_insert {α : Type} {table : Table α} {name : String} {entry other : α}
    (member : other ∈ (table.insert name entry).entries) :
    other ∈ table.entries ∨ other = entry := by
  obtain ⟨named, present, rfl⟩ := List.mem_map.mp member
  rcases Table.mem_insert present with known | rfl
  · exact .inl (List.mem_map_of_mem known)
  · exact .inr rfl

namespace Pass

variable {n : Nat}

/-- A pass in which what identifies may be used as a name, and procedures are written in the
language. -/
structure Legal (isInsert : String → Prop) (pass : Pass n) : Prop where
  names : pass.names.Legal
  functionNames : ∀ name ∈ pass.functionNames.entries, Names.IsName name
  temporaries : ∀ name ∈ pass.temporaries, Names.IsName name
  procedures : ∀ procedure ∈ pass.procedures.entries, procedure.Proper Names.IsName isInsert

variable {isInsert : String → Prop}

theorem Legal.start : (Pass.start Names.start : Pass n).Legal isInsert :=
  ⟨.start, fun _ member => (nomatch member), fun _ member => (nomatch member),
    fun _ member => (nomatch member)⟩

/-- A notice leaves a pass legal. -/
theorem note_keeps (message : String) :
    Step.Keeps (Legal isInsert) (fun _ => True) (note message : Emission n Unit) :=
  .modify fun _ legal => ⟨legal.names, legal.functionNames, legal.temporaries, legal.procedures⟩

/-- So does a grant that leaves the names legal. -/
theorem grant_keeps {request : Names.Naming Grant}
    (keeps : Step.Keeps Names.Legal (fun grant => Names.IsName grant.identifier) request) :
    Step.Keeps (Legal isInsert) Names.IsName (grant request : Emission n String) := by
  unfold grant
  refine .bind .get fun pass legal => ?_
  obtain ⟨kept, named⟩ := keeps pass.names legal.names
  rcases ran : request.run.run pass.names with ⟨result, names⟩
  rw [ran] at kept named
  refine .bind (.set ⟨kept, legal.functionNames, legal.temporaries, legal.procedures⟩) fun _ _ => ?_
  refine .bind (.ofExcept named) fun grant named => ?_
  cases grant.notice.bind Renaming.message? with
  | none => exact .pure named
  | some message => exact .bind (note_keeps _) fun _ _ => .pure named

theorem fresh_keeps (space : Space) (name : Value) :
    Step.Keeps (Legal isInsert) Names.IsName (fresh space name : Emission n String) :=
  grant_keeps Names.fresh_keeps

theorem identifier_keeps (space : Space) (name : Value) :
    Step.Keeps (Legal isInsert) Names.IsName (identifier space name : Emission n String) :=
  grant_keeps Names.identify_keeps

/-- A temporary variable may be used as a name. -/
theorem temporary_keeps (name : Value) :
    Step.Keeps (Legal isInsert) Names.IsName (temporary name : Emission n String) := by
  unfold temporary
  refine .bind (fresh_keeps _ _) fun identifier named => ?_
  refine .bind (.modify fun pass legal => ⟨legal.names, legal.functionNames, ?_, legal.procedures⟩)
    fun _ _ => .pure named
  intro other member
  rcases List.mem_append.mp member with member | member
  · exact legal.temporaries other member
  · rw [List.mem_singleton.mp member]
    exact named

/-- A helper has a name, old or new. -/
theorem provide_keeps (key : String) (template : Template) :
    Step.Keeps (Legal isInsert) Names.IsName (provide key template : Emission n String) := by
  unfold provide
  refine .bind .get fun pass legal => ?_
  cases known : pass.functionNames.get? key with
  | some name =>
      have entered : name ∈ pass.functionNames.entries :=
        List.mem_map_of_mem (Table.mem_of_get? known)
      exact .pure (legal.functionNames name entered)
  | none =>
      refine .bind (fresh_keeps _ _) fun name named => ?_
      refine .bind (.modify fun pass legal =>
        ⟨legal.names, ?_, legal.temporaries, legal.procedures⟩) fun _ _ => ?_
      · intro other member
        rcases Table.mem_entries_insert member with member | rfl
        · exact legal.functionNames other member
        · exact named
      · refine .bind (.ofExcept fun _ _ => trivial) fun source _ => ?_
        refine .bind (.modify fun pass legal =>
          ⟨legal.names, legal.functionNames, legal.temporaries, legal.procedures⟩) fun _ _ => ?_
        exact .bind (note_keeps _) fun _ _ => .pure named

/-- An import leaves a pass legal. -/
theorem require_keeps (key statement : String) :
    Step.Keeps (Legal isInsert) (fun _ => True) (require key statement : Emission n Unit) := by
  unfold require
  refine .bind .get fun pass _ => ?_
  cases pass.imports.has key with
  | true => exact .pure trivial
  | false =>
      exact .bind (.modify fun pass legal =>
        ⟨legal.names, legal.functionNames, legal.temporaries, legal.procedures⟩) fun _ _ =>
          note_keeps _

/-- So does a procedure that is written in the language. -/
theorem define_keeps {procedure : Procedure} (proper : procedure.Proper Names.IsName isInsert) :
    Step.Keeps (Legal isInsert) (fun _ => True) (define procedure : Emission n Unit) := by
  unfold define
  refine .bind (.modify fun pass legal =>
    ⟨legal.names, legal.functionNames, legal.temporaries, ?_⟩) fun _ _ => note_keeps _
  intro other member
  rcases Table.mem_entries_insert member with member | rfl
  · exact legal.procedures other member
  · exact proper

end Pass

/-- **Passes uphold the contract of code.** -/
theorem codeContract_upheld {n : Nat} {isInsert : String → Prop} :
    (codeContract n Names.IsName isInsert).Upheld (Pass.Legal isInsert) := by
  intro visit blocks request allowed
  cases request with
  | block ref => exact blocks ref
  | identifier space name => exact Pass.identifier_keeps space name
  | fresh space name => exact Pass.fresh_keeps space name
  | temporary name => exact Pass.temporary_keeps name
  | helper key template => exact Pass.provide_keeps key template
  | require key statement => exact Pass.require_keeps key statement
  | define procedure => exact Pass.define_keeps allowed

/-- Whether a request may be made from outside. Procedures are entered by their blocks only. -/
def Request.IsOpen {n : Nat} : Request n → Prop
  | .define _ => False
  | _ => True

namespace Setting

variable {n : Nat} {α : Type} {setting : Setting n}

/-- The passes that occur: those that the start leads to by open requests, whether they are met or
fail, at any depth, with any blocks active and any notices taken. -/
inductive Reached (setting : Setting n) : Pass n → Prop
  | start : Reached setting (Pass.start Names.start)
  | aside {pass : Pass n} (active : List (Fin n)) (log : List String) :
      Reached setting pass → Reached setting { pass with active := active, log := log }
  | meet {pass : Pass n} (depth : Nat) (request : Request n) :
      request.IsOpen → Reached setting pass →
        Reached setting ((request.meet (setting.outcome depth)).run.run pass).2

/-- What blocks are active has no part in it. -/
theorem legal_ignores {isInsert : String → Prop} (pass : Pass n) (active : List (Fin n))
    (legal : pass.Legal isInsert) : Pass.Legal isInsert { pass with active := active } :=
  ⟨legal.names, legal.functionNames, legal.temporaries, legal.procedures⟩

variable {isInsert : String → Prop}

/-- Blocks keep a pass legal and come to code of the language. -/
theorem outcome_keeps_legal (inserts : setting.Inserts isInsert) (depth : Nat) (ref : Fin n) :
    Step.Keeps (Pass.Legal isInsert) (Outcome.Proper Names.IsName isInsert)
      (setting.outcome depth ref) :=
  outcome_keeps legal_ignores codeContract_upheld
    (fun kind ref => Kind.makes_generate inserts kind (setting.block ref)) depth ref

/-- Generators that keep to the contract of code keep a pass legal. -/
theorem runWith_keeps_legal (inserts : setting.Inserts isInsert) {property : α → Prop}
    {generator : Gen n α}
    (ensures : generator.Ensures (codeContract n Names.IsName isInsert) property) (depth : Nat) :
    Step.Keeps (Pass.Legal isInsert) property (generator.runWith (setting.outcome depth)) :=
  ensures.keeps (codeContract_upheld _ (outcome_keeps_legal inserts depth))

/-- **Every pass that occurs is legal.** -/
theorem Reached.legal {pass : Pass n} (reached : setting.Reached pass)
    (inserts : setting.Inserts isInsert) : pass.Legal isInsert := by
  induction reached with
  | start => exact .start
  | aside active log _ legal =>
      exact ⟨legal.names, legal.functionNames, legal.temporaries, legal.procedures⟩
  | meet depth request opened _ legal =>
      have allowed : (codeContract n Names.IsName isInsert).allows request := by
        cases request with
        | define procedure => exact opened.elim
        | _ => trivial
      exact (codeContract_upheld _ (outcome_keeps_legal inserts depth) request allowed _ legal).1

end Setting

end BlockScript
