import BlockScript.Proofs.Effect

/-! # Runs in lockstep

Two generators go in lockstep when they ask for the same things in the same order, as long as the
blocks come to outcomes that differ in the code of statements only, and enter procedures that differ
in their bodies only (`Gen.Lockstep`). Two passes that differ in the bodies of procedures and in the
notices only then stay that close, and the runs fail with the same fault or both succeed
(`Gen.Lockstep.runWith`). Generators that look at no statement are in lockstep with themselves and
have one result (`Gen.Blind`).
-/

namespace BlockScript

variable {n : Nat} {α β : Type} {strict : Prop}

/-! ## Passes and steps -/

/-- What a procedure is apart from its body. -/
def Procedure.outline (procedure : Procedure) : Procedure := { procedure with body := "" }

/-- What procedures are apart from their bodies, under their names. -/
def Procedure.outlines (procedures : Table Procedure) : Table Procedure :=
  procedures.map fun entry => (entry.1, entry.2.outline)

/-- A procedure enters the table of outlines with its own. -/
theorem Procedure.outlines_insert (procedures : Table Procedure) (name : String)
    (procedure : Procedure) :
    outlines (procedures.insert name procedure) =
      (outlines procedures).insert name procedure.outline := by
  induction procedures with
  | nil => rfl
  | cons entry rest ih =>
      by_cases found : entry.1 = name
      · simp [Table.insert, outlines, found]
      · simpa [Table.insert, outlines, found] using ih

/-- What a pass is apart from the bodies of its procedures and the notices. -/
def Pass.outline (pass : Pass n) : Pass n :=
  { pass with procedures := Procedure.outlines pass.procedures, log := [] }

/-- Two attempts fail with the same fault, or both succeed and their results are related. -/
inductive Attempt.Alike (relates : α → α → Prop) : Attempt α → Attempt α → Prop
  | ok {result other : α} : relates result other → Alike relates (.ok result) (.ok other)
  | error (fault : Fault) : Alike relates (.error fault) (.error fault)

namespace Attempt.Alike

variable {relates : α → α → Prop} {attempt other : Attempt α}

/-- Attempts that are alike both fail, in the same way, or both succeed. -/
theorem cases (alike : Attempt.Alike relates attempt other) :
    (∃ fault, attempt = .error fault ∧ other = .error fault) ∨
      ∃ result twin, attempt = .ok result ∧ other = .ok twin ∧ relates result twin := by
  cases alike with
  | ok related => exact .inr ⟨_, _, rfl, rfl, related⟩
  | error fault => exact .inl ⟨fault, rfl, rfl⟩

/-- An attempt is like itself. -/
theorem refl (reflexive : ∀ result, relates result result) (attempt : Attempt α) :
    Attempt.Alike relates attempt attempt := by
  cases attempt with
  | ok result => exact .ok (reflexive result)
  | error fault => exact .error fault

/-- Attempts are alike when what they begin with is alike, and what they go on with. -/
theorem bind {further : β → β → Prop} {next last : α → Attempt β}
    (alike : Attempt.Alike relates attempt other)
    (rest : ∀ result twin, relates result twin → Attempt.Alike further (next result) (last twin)) :
    Attempt.Alike further (attempt >>= next) (other >>= last) := by
  cases alike with
  | ok related => exact rest _ _ related
  | error fault => exact .error fault

/-- Attempts fail alike whatever is made of their results. -/
theorem map (alike : Attempt.Alike relates attempt other) (first second : α → β) :
    Attempt.Alike (fun _ _ => True) (attempt.map first) (other.map second) := by
  cases alike with
  | ok related => exact .ok trivial
  | error fault => exact .error fault

end Attempt.Alike

namespace Emission

/-- Two steps, made on passes of one outline, leave passes of one outline and have related
results. -/
def Lockstep (relates : α → α → Prop) (step other : Emission n α) : Prop :=
  ∀ pass twin : Pass n, pass.outline = twin.outline →
    Attempt.Alike relates (step.run.run pass).1 (other.run.run twin).1 ∧
      (step.run.run pass).2.outline = (other.run.run twin).2.outline

namespace Lockstep

variable {relates : α → α → Prop} {further : β → β → Prop}

/-- Steps in lockstep are so one after the other. -/
theorem bind {step other : Emission n α} {next last : α → Emission n β}
    (first : Lockstep relates step other)
    (rest : ∀ result twin, relates result twin → Lockstep further (next result) (last twin)) :
    Lockstep further (step >>= next) (other >>= last) := by
  intro pass twin close
  obtain ⟨results, after⟩ := first pass twin close
  rw [Step.run_bind, Step.run_bind]
  generalize step.run.run pass = reply at results after ⊢
  generalize other.run.run twin = answer at results after ⊢
  obtain ⟨result, passed⟩ := reply
  obtain ⟨response, followed⟩ := answer
  cases results with
  | ok related => exact rest _ _ related passed followed after
  | error fault => exact ⟨.error fault, after⟩

theorem throw (fault : Fault) :
    Lockstep relates (MonadExcept.throw fault : Emission n α) (MonadExcept.throw fault) :=
  fun _ _ close => ⟨.error fault, close⟩

/-- An attempt at the same thing is in lockstep with itself. -/
theorem ofExcept (attempt : Attempt α) :
    Lockstep (n := n) Eq (MonadExcept.ofExcept attempt) (MonadExcept.ofExcept attempt) := by
  intro pass twin close
  cases attempt with
  | ok result => exact ⟨.ok rfl, close⟩
  | error fault => exact ⟨.error fault, close⟩

/-- Passes that are looked at in lockstep have the same outline. -/
theorem get : Lockstep (fun pass twin : Pass n => pass.outline = twin.outline)
    MonadState.get MonadState.get :=
  fun _ _ close => ⟨.ok close, close⟩

/-- Blocks are entered and left in lockstep. -/
theorem within {step other : Emission n α} (ref : Fin n) (steps : Lockstep relates step other) :
    Lockstep relates (Pass.within ref step) (Pass.within ref other) := by
  intro pass twin close
  rw [Pass.run_within, Pass.run_within]
  have entered : Pass.outline { pass with active := ref :: pass.active } =
      Pass.outline { twin with active := ref :: twin.active } :=
    congrArg (fun pass : Pass n => { pass with active := ref :: pass.active }) close
  obtain ⟨results, after⟩ := steps _ _ entered
  have left := congrArg (fun pass : Pass n => { pass with active := pass.active.erase ref }) after
  exact ⟨results, left⟩

/-- What is granted depends on the pool of names alone. -/
theorem grant (call : Names.Naming Grant) :
    Lockstep (n := n) Eq (Pass.grant call) (Pass.grant call) := by
  intro pass twin close
  have names : pass.names = twin.names := (congrArg Pass.names close : pass.outline.names = _)
  obtain ⟨_, ran⟩ := Pass.run_grant call pass
  obtain ⟨_, followed⟩ := Pass.run_grant call twin
  rw [ran, followed, names]
  refine ⟨?_, congrArg (fun pass : Pass n => { pass with names := (call.run.run twin.names).2 })
    close⟩
  cases (call.run.run twin.names).1 with
  | ok grant => exact .ok rfl
  | error fault => exact .error fault

/-- Temporaries are chosen in lockstep. -/
theorem temporary (name : Value) :
    Lockstep (n := n) Eq (Pass.temporary name) (Pass.temporary name) := by
  refine bind (grant _) ?_
  rintro identifier _ rfl pass twin close
  exact ⟨.ok rfl, congrArg
    (fun pass : Pass n => { pass with temporaries := pass.temporaries ++ [identifier] }) close⟩

/-- Helpers are provided in lockstep. -/
theorem provide (key : String) (template : Template) :
    Lockstep (n := n) Eq (Pass.provide key template) (Pass.provide key template) := by
  intro pass twin close
  have looked (pass : Pass n) :
      (MonadState.get : Emission n (Pass n)).run.run pass = (.ok pass, pass) := rfl
  have names : pass.functionNames = twin.functionNames :=
    (congrArg Pass.functionNames close : pass.outline.functionNames = _)
  unfold Pass.provide
  rw [Step.run_bind, Step.run_bind, looked, looked]
  dsimp only
  rw [names]
  cases twin.functionNames.get? key with
  | some name => exact ⟨.ok rfl, close⟩
  | none =>
      refine bind (grant _) ?_ pass twin close
      rintro name _ rfl pass twin close
      have entered := congrArg
        (fun pass : Pass n => { pass with functionNames := pass.functionNames.insert key name })
        close
      cases rendered : template.render name with
      | error fault => exact ⟨.error fault, entered⟩
      | ok source =>
          exact ⟨.ok rfl, congrArg
            (fun pass : Pass n => { pass with helpers := pass.helpers.insert key source }) entered⟩

/-- Imports are required in lockstep. -/
theorem require (key statement : String) :
    Lockstep (n := n) Eq (Pass.require key statement) (Pass.require key statement) := by
  intro pass twin close
  have looked (pass : Pass n) :
      (MonadState.get : Emission n (Pass n)).run.run pass = (.ok pass, pass) := rfl
  have imports : pass.imports = twin.imports :=
    (congrArg Pass.imports close : pass.outline.imports = _)
  unfold Pass.require
  rw [Step.run_bind, Step.run_bind, looked, looked]
  dsimp only
  rw [imports]
  cases twin.imports.has key with
  | true => exact ⟨.ok rfl, close⟩
  | false =>
      exact ⟨.ok rfl, congrArg
        (fun pass : Pass n => { pass with imports := pass.imports.insert key statement }) close⟩

/-- Procedures of the same outline are defined in lockstep. -/
theorem define {procedure other : Procedure} (same : procedure.outline = other.outline) :
    Lockstep (n := n) Eq (Pass.define procedure) (Pass.define other) := by
  intro pass twin close
  have name : procedure.name = other.name :=
    (congrArg Procedure.name same : procedure.outline.name = _)
  have procedures : Procedure.outlines (pass.procedures.insert procedure.name procedure) =
      Procedure.outlines (twin.procedures.insert other.name other) := by
    have before : Procedure.outlines pass.procedures = Procedure.outlines twin.procedures :=
      congrArg Pass.procedures close
    rw [Procedure.outlines_insert, Procedure.outlines_insert, before, name, same]
  have entered := congrArg₂
    (fun (pass : Pass n) table => { pass with procedures := table }) close procedures
  exact ⟨.ok rfl, entered⟩

/-- A request that is not for a block is answered from what passes of one outline have in common. -/
theorem meet {request : Request n} (plain : ∀ ref, request ≠ .block ref)
    (visit other : Fin n → Emission n Outcome) :
    Lockstep Eq (request.meet visit) (request.meet other) := by
  cases request with
  | block ref => exact (plain ref rfl).elim
  | identifier space name => exact grant (Names.identify space name)
  | fresh space name => exact grant (Names.fresh space name)
  | temporary name => exact temporary name
  | helper key template => exact provide key template
  | require key statement => exact require key statement
  | define procedure => exact define rfl

end Lockstep

end Emission

/-! ## Generators -/

/-- Two blocks come to the same expression, or to statements, whose code is the same if the strict
condition holds, or to nothing. -/
inductive Outcome.Alike (strict : Prop) : Outcome → Outcome → Prop
  | expression (value : Expression) : Alike strict (.expression value) (.expression value)
  | statement {code other : String} : (strict → code = other) →
      Alike strict (.statement code) (.statement other)
  | nothing : Alike strict .nothing .nothing

theorem Outcome.Alike.refl (outcome : Outcome) : outcome.Alike strict outcome := by
  cases outcome with
  | expression value => exact .expression value
  | statement code => exact .statement fun _ => rfl
  | nothing => exact .nothing

namespace Gen

/-- Two generators make the same requests, as long as the blocks they ask for come to outcomes that
are alike, but for the bodies of the procedures they enter. They fail alike, and their results are
related. -/
inductive Lockstep (strict : Prop) (relates : α → α → Prop) : Gen n α → Gen n α → Prop
  | done {result other : α} : relates result other →
      Lockstep strict relates (.done result) (.done other)
  | fail (fault : Fault) : Lockstep strict relates (.fail fault) (.fail fault)
  | block (ref : Fin n) {next other : Outcome → Gen n α} :
      (∀ outcome twin, outcome.Alike strict twin →
        Lockstep strict relates (next outcome) (other twin)) →
      Lockstep strict relates (.ask (.block ref) next) (.ask (.block ref) other)
  | ask {request : Request n} (plain : ∀ ref, request ≠ .block ref)
      {next other : request.Answer → Gen n α} :
      (∀ answer, Lockstep strict relates (next answer) (other answer)) →
      Lockstep strict relates (.ask request next) (.ask request other)
  | procedure {procedure twin : Procedure} (same : procedure.outline = twin.outline)
      {next other : Unit → Gen n α} : Lockstep strict relates (next ()) (other ()) →
      Lockstep strict relates (.ask (.define procedure) next) (.ask (.define twin) other)

namespace Lockstep

variable {relates : α → α → Prop} {further : β → β → Prop} {generator other : Gen n α}

/-- Results that are related more closely are related. -/
theorem mono {weaker : α → α → Prop} (lockstep : Lockstep strict relates generator other)
    (weakens : ∀ result twin, relates result twin → weaker result twin) :
    Lockstep strict weaker generator other := by
  induction lockstep with
  | done related => exact .done (weakens _ _ related)
  | fail fault => exact .fail fault
  | block ref _ ih => exact .block ref ih
  | ask plain _ ih => exact .ask plain ih
  | procedure same _ ih => exact .procedure same ih

/-- Generators in lockstep are so one after the other. -/
theorem bind {next last : α → Gen n β} (first : Lockstep strict relates generator other)
    (rest : ∀ result twin, relates result twin →
      Lockstep strict further (next result) (last twin)) :
    Lockstep strict further (generator >>= next) (other >>= last) := by
  induction first with
  | done related => exact rest _ _ related
  | fail fault => exact .fail fault
  | block ref _ ih => exact .block ref ih
  | ask plain _ ih => exact .ask plain ih
  | procedure same _ ih => exact .procedure same ih

/-- Attempts that are alike are made in lockstep. -/
theorem lift {attempt other : Attempt α} (alike : Attempt.Alike relates attempt other) :
    Lockstep strict relates (Gen.lift attempt : Gen n α) (Gen.lift other) := by
  cases alike with
  | ok related => exact .done related
  | error fault => exact .fail fault

/-- Generators that decide alike are in lockstep. -/
theorem ite {condition : Prop} [Decidable condition] {first second third fourth : Gen n α}
    (yes : Lockstep strict relates first third) (no : Lockstep strict relates second fourth) :
    Lockstep strict relates (if condition then first else second)
      (if condition then third else fourth) := by
  split
  · exact yes
  · exact no

/-- A procedure may be entered with another body. -/
theorem define (procedure : Procedure) (body : String) :
    Lockstep strict Eq (Gen.define procedure : Gen n Unit)
      (Gen.define { procedure with body := body }) := by
  have same : procedure.outline = { procedure with body := body : Procedure }.outline := rfl
  exact .procedure same (.done rfl)

/-- Elements that generators go through in lockstep make related lists. -/
theorem each {γ : Type} {generate twin : γ → Gen n α}
    (lockstep : ∀ element, Lockstep strict relates (generate element) (twin element))
    (elements : List γ) :
    Lockstep strict (List.Forall₂ relates) (Gen.each generate elements)
      (Gen.each twin elements) := by
  induction elements with
  | nil => exact .done .nil
  | cons element rest ih =>
      exact bind (lockstep element) fun _ _ related => bind ih fun _ _ all =>
        .done (.cons related all)

/-- **Runs in lockstep.** Where blocks are in lockstep, generators are. -/
theorem runWith {visit twin : Fin n → Emission n Outcome}
    (blocks : ∀ ref, Emission.Lockstep (Outcome.Alike strict) (visit ref) (twin ref))
    (lockstep : Lockstep strict relates generator other) :
    Emission.Lockstep relates (generator.runWith visit) (other.runWith twin) := by
  induction lockstep with
  | done related => exact fun _ _ close => ⟨.ok related, close⟩
  | fail fault => exact fun _ _ close => ⟨.error fault, close⟩
  | block ref _ ih => exact .bind (blocks ref) ih
  | ask plain _ ih =>
      refine .bind (.meet plain visit twin) ?_
      rintro answer _ rfl
      exact ih answer
  | procedure same _ ih => exact .bind (.define same) fun _ _ _ => ih

end Lockstep

/-- A generator has the same result whatever the code of the statements is that it asks for. -/
structure Blind (generator : Gen n α) : Prop where
  lockstep : ∀ strict : Prop, Lockstep strict Eq generator generator

namespace Blind

theorem done (result : α) : (Gen.done result : Gen n α).Blind := ⟨fun _ => .done rfl⟩

theorem fail (fault : Fault) : (Gen.fail fault : Gen n α).Blind := ⟨fun _ => .fail fault⟩

theorem unhandled (block : Block n) (combination : Table Value) :
    (Gen.unhandled block combination : Gen n α).Blind := fail _

/-- What is asked of the pass, and not of a block, is no statement. -/
theorem ask {request : Request n} (plain : ∀ ref, request ≠ .block ref) :
    (Gen.ask request .done).Blind := ⟨fun _ => .ask plain fun _ => .done rfl⟩

/-- Generators that look at no statement do so one after the other. -/
theorem bind {generator : Gen n α} {next : α → Gen n β} (first : generator.Blind)
    (rest : ∀ result, (next result).Blind) : (generator >>= next).Blind := by
  constructor
  intro strict
  refine .bind (first.lockstep strict) ?_
  rintro result _ rfl
  exact (rest result).lockstep strict

theorem ite {condition : Prop} [Decidable condition] {first second : Gen n α}
    (yes : first.Blind) (no : second.Blind) : (if condition then first else second).Blind :=
  ⟨fun strict => .ite (yes.lockstep strict) (no.lockstep strict)⟩

theorem lift (attempt : Attempt α) : (Gen.lift attempt : Gen n α).Blind := by
  cases attempt with
  | ok result => exact done result
  | error fault => exact fail fault

/-- To look an option up is to look at no statement. -/
theorem choice (table : Table α) (option : Value) :
    (Gen.choice table option : Gen n (Option α)).Blind := by
  refine bind (lift _) fun _ => ?_
  cases option with
  | text name => exact done _
  | _ => exact done _

/-- A generator for every element of a list looks at no statement if none does. -/
theorem each {γ : Type} {generate : γ → Gen n α} (blind : ∀ element, (generate element).Blind)
    (elements : List γ) : (Gen.each generate elements).Blind := by
  constructor
  intro strict
  refine (Lockstep.each (fun element => (blind element).lockstep strict) elements).mono ?_
  intro results twins related
  exact List.forall₂_eq_eq_eq ▸ related

theorem variableName (name : Value) : (Gen.variableName name : Gen n String).Blind :=
  ask fun _ same => nomatch same

theorem procedureName (name : Value) : (Gen.procedureName name : Gen n String).Blind :=
  ask fun _ same => nomatch same

theorem developerName (name : Value) : (Gen.developerName name : Gen n String).Blind :=
  ask fun _ same => nomatch same

theorem distinctVariable (name : Value) : (Gen.distinctVariable name : Gen n String).Blind :=
  ask fun _ same => nomatch same

theorem temporary (name : Value) : (Gen.temporary name : Gen n String).Blind :=
  ask fun _ same => nomatch same

theorem helper (key : String) (template : Template) :
    (Gen.helper key template : Gen n String).Blind := ask fun _ same => nomatch same

theorem require (key statement : String) : (Gen.require key statement : Gen n Unit).Blind :=
  ask fun _ same => nomatch same

/-- A generator goes on alike after one that looks at no statement. -/
theorem bind_lockstep {relates : β → β → Prop} {generator : Gen n α} {next last : α → Gen n β}
    (first : generator.Blind)
    (rest : ∀ result, Lockstep strict relates (next result) (last result)) :
    Lockstep strict relates (generator >>= next) (generator >>= last) := by
  refine .bind (first.lockstep strict) ?_
  rintro result _ rfl
  exact rest result

/-- An outcome that is the same whatever the statements are is alike. -/
theorem alike {generator : Gen n Outcome} (blind : generator.Blind) :
    Lockstep strict (Outcome.Alike strict) generator generator := by
  refine (blind.lockstep strict).mono ?_
  rintro outcome _ rfl
  exact .refl outcome

end Blind

end Gen

end BlockScript
