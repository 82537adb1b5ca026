import BlockScript.Proofs.Contract

/-! # The active blocks

A pass marks the blocks whose code is being generated. Whatever is asked of a pass, and however it
ends, the active blocks are afterwards what they were before (`Setting.outcome_keepsActive`,
`Setting.runWith_keepsActive`): a block is marked only while its own generator runs.
-/

namespace BlockScript

variable {n : Nat} {α β : Type}

/-- A step leaves given active blocks as they are, however it ends. -/
def KeepsActive (active : List (Fin n)) (step : Emission n α) : Prop :=
  Step.Keeps (fun pass => pass.active = active) (fun _ => True) step

namespace KeepsActive

variable {active : List (Fin n)}

/-- The active blocks afterwards are those before. -/
theorem active_eq {step : Emission n α} {pass : Pass n} (keeps : KeepsActive pass.active step) :
    (step.run.run pass).2.active = pass.active := (keeps pass rfl).1

/-- One step after the other. -/
theorem bind {step : Emission n α} {next : α → Emission n β} (first : KeepsActive active step)
    (rest : ∀ result, KeepsActive active (next result)) : KeepsActive active (step >>= next) :=
  Step.Keeps.bind first fun result _ => rest result

theorem pure (result : α) : KeepsActive active (Pure.pure result : Emission n α) :=
  Step.Keeps.pure trivial

theorem throw (fault : Fault) : KeepsActive active (MonadExcept.throw fault : Emission n α) :=
  Step.Keeps.throw fault

/-- An attempt does not come near the pass. -/
theorem ofExcept (attempt : Attempt α) :
    KeepsActive active (MonadExcept.ofExcept attempt : Emission n α) :=
  Step.Keeps.ofExcept fun _ _ => trivial

/-- A change of anything else in the pass. -/
theorem modify {change : Pass n → Pass n} (ignores : ∀ pass, (change pass).active = pass.active) :
    KeepsActive active (modifyGet fun pass => ((), change pass) : Emission n Unit) := by
  apply Step.Keeps.modify
  intro pass kept
  rw [ignores, kept]

/-- A step that goes on from the pass it is at. -/
theorem get {next : Pass n → Emission n β}
    (rest : ∀ pass : Pass n, pass.active = active → KeepsActive active (next pass)) :
    KeepsActive active (MonadState.get >>= next) :=
  Step.Keeps.bind .get rest

/-- A block is marked while its own step runs, and at no other time. -/
theorem within (ref : Fin n) {step : Emission n α} (keeps : KeepsActive (ref :: active) step) :
    KeepsActive active (Pass.within ref step) := by
  intro pass kept
  have during := (keeps { pass with active := ref :: pass.active } (by rw [kept])).1
  rw [Pass.run_within]
  refine ⟨?_, fun _ _ => trivial⟩
  change ((step.run.run { pass with active := ref :: pass.active }).2.active).erase ref = active
  rw [during, List.erase_cons_head]

theorem note (message : String) : KeepsActive active (Pass.note message) := modify fun _ => rfl

/-- A grant changes the names, and takes a notice perhaps. -/
theorem grant (request : Names.Naming Grant) : KeepsActive active (Pass.grant request) := by
  apply get
  intro pass kept
  apply Step.Keeps.bind (.set (by exact kept))
  intro _ _
  apply bind (ofExcept _)
  intro grant
  cases grant.notice.bind Renaming.message? with
  | none => exact pure _
  | some message => exact bind (note _) fun _ => pure _

/-- A temporary is granted and listed. -/
theorem temporary (name : Value) : KeepsActive active (Pass.temporary name) := by
  apply bind (grant _)
  intro identifier
  exact bind (modify fun _ => rfl) fun _ => pure _

/-- A helper is granted a name and entered. -/
theorem provide (key : String) (template : Template) :
    KeepsActive active (Pass.provide key template) := by
  apply get
  intro pass _
  cases pass.functionNames.get? key with
  | some name => exact pure _
  | none =>
      apply bind (grant _)
      intro name
      refine bind (modify fun _ => rfl) fun _ => ?_
      apply bind (ofExcept _)
      intro source
      exact bind (modify fun _ => rfl) fun _ => bind (note _) fun _ => pure _

/-- An import is entered. -/
theorem require (key statement : String) : KeepsActive active (Pass.require key statement) := by
  apply get
  intro pass _
  cases pass.imports.has key with
  | true => exact pure _
  | false => exact bind (modify fun _ => rfl) fun _ => note _

theorem define (procedure : Procedure) : KeepsActive active (Pass.define procedure) :=
  bind (modify fun _ => rfl) fun _ => note _

/-- A request is met with the active blocks unchanged, if blocks are. -/
theorem meet {visit : Fin n → Emission n Outcome} (blocks : ∀ ref, KeepsActive active (visit ref))
    (request : Request n) : KeepsActive active (request.meet visit) := by
  cases request with
  | block ref => exact blocks ref
  | identifier space name => exact grant (Names.identify space name)
  | fresh space name => exact grant (Names.fresh space name)
  | temporary name => exact temporary name
  | helper key template => exact provide key template
  | require key statement => exact require key statement
  | define procedure => exact define procedure

/-- Requests are met one after the other. -/
theorem runWith {visit : Fin n → Emission n Outcome}
    (blocks : ∀ ref, KeepsActive active (visit ref)) (generator : Gen n α) :
    KeepsActive active (generator.runWith visit) := by
  induction generator with
  | done result => exact pure result
  | fail fault => exact throw fault
  | ask request next ih => exact bind (meet blocks request) ih

end KeepsActive

namespace Setting

variable (setting : Setting n)

/-- **Blocks leave the active blocks as they are.** -/
theorem outcome_keepsActive (depth : Nat) (ref : Fin n) (active : List (Fin n)) :
    KeepsActive active (setting.outcome depth ref) := by
  induction depth generalizing ref active with
  | zero =>
      unfold outcome
      refine .bind (.ofExcept _) fun found => ?_
      cases found with
      | none => exact .throw _
      | some kind => exact .throw _
  | succ depth ih =>
      unfold outcome
      refine .bind (.ofExcept _) fun found => ?_
      cases found with
      | none => exact .throw _
      | some kind =>
          apply KeepsActive.get
          intro pass _
          cases pass.active.contains ref with
          | true => exact .throw _
          | false => exact .within ref (.runWith (fun other => ih other _) _)

/-- **Generators leave the active blocks as they are.** -/
theorem runWith_keepsActive (depth : Nat) (generator : Gen n α) (active : List (Fin n)) :
    KeepsActive active (generator.runWith (setting.outcome depth)) :=
  .runWith (fun ref => setting.outcome_keepsActive depth ref active) generator

end Setting

end BlockScript
