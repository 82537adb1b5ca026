import BlockScript.Kind.Basic

/-! # Running generators

The requests of generators are met by the pass. A block's code is made by the generator of its kind,
with the block marked as active; a block that is asked for while it is active contains itself.
-/

namespace BlockScript

variable {n : Nat} {α : Type}

/-- Meets a request, given what blocks come to. -/
def Request.meet (visit : Fin n → Emission n Outcome) :
    (request : Request n) → Emission n request.Answer
  | .block ref => visit ref
  | .identifier space name => Pass.identifier space name
  | .fresh space name => Pass.fresh space name
  | .temporary name => Pass.temporary name
  | .helper key template => Pass.provide key template
  | .require key statement => Pass.require key statement
  | .define procedure => Pass.define procedure

namespace Gen

/-- Runs a generator, given what blocks come to. -/
def runWith (visit : Fin n → Emission n Outcome) : Gen n α → Emission n α
  | .done result => return result
  | .fail fault => throw fault
  | .ask request next => do
      let answer ← request.meet visit
      (next answer).runWith visit

variable {β : Type} (visit : Fin n → Emission n Outcome)

@[simp]
theorem runWith_done (result : α) : runWith visit (.done result) = pure result := rfl

@[simp]
theorem runWith_fail (fault : Fault) : runWith visit (.fail fault : Gen n α) = throw fault := rfl

/-- A block is what it comes to. -/
theorem runWith_block (ref : Fin n) : (Gen.block ref).runWith visit = visit ref := bind_pure _

/-- A generator and what continues it are run one after the other. -/
theorem runWith_bind (generator : Gen n α) (next : α → Gen n β) :
    (generator >>= next).runWith visit =
      generator.runWith visit >>= fun result => (next result).runWith visit := by
  induction generator with
  | done result => simp
  | fail fault => rfl
  | ask request answer ih =>
      simp only [ask_bind, runWith, bind_assoc]
      exact congrArg (request.meet visit >>= ·) (funext ih)

end Gen

namespace Setting

/-- What a block comes to, when no more than `depth` further blocks are to become active. When every
block is active, any block that is asked for contains itself. -/
def outcome (setting : Setting n) : Nat → Fin n → Emission n Outcome
  | depth, ref => do
      let block := setting.block ref
      match ← ofExcept (Kind.ofValue? block.kind) with
      | none => throw (Cause.fault (.unknownKind block.id block.kind))
      | some kind =>
          match depth with
          | 0 => throw (Cause.fault (.selfContained block.id block.kind))
          | depth + 1 =>
              if (← get).active.contains ref then
                throw (Cause.fault (.selfContained block.id block.kind))
              else
                Pass.within ref ((kind.generate setting block).runWith (setting.outcome depth))

/-- Runs a generator on a pass with no active block. -/
def run (setting : Setting n) (generator : Gen n α) : Emission n α :=
  generator.runWith (setting.outcome n)

end Setting

end BlockScript
