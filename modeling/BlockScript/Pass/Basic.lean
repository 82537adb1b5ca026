import BlockScript.Names.Grant
import BlockScript.Pass.Procedure
import BlockScript.Pass.Template

/-! # A generation pass

What one pass over a program accumulates: identifiers, imports, helpers, procedures and temporaries,
the blocks whose code is being generated, and the notices of what was done. The tables only grow.
-/

namespace BlockScript

/-- The state of a pass over a graph of `n` blocks. -/
structure Pass (n : Nat) where
  names : Names
  imports : Table String
  helpers : Table String
  functionNames : Table String
  procedures : Table Procedure
  temporaries : List String
  /-- The blocks whose code is being generated, the innermost first. -/
  active : List (Fin n)
  /-- The notices, in order. -/
  log : List String

/-- Steps of a pass that may fail; what a failed step has entered stays entered. -/
abbrev Emission (n : Nat) := ExceptT Fault (StateM (Pass n))

namespace Pass

variable {n : Nat}

/-- The start of a pass. -/
def start (names : Names) : Pass n := ⟨names, [], [], [], [], [], [], []⟩

/-- Adds a notice. -/
def note (message : String) : Emission n Unit :=
  modify fun pass => { pass with log := pass.log ++ [message] }

/-- Takes an identifier from the pool and notes a renaming. -/
def grant (request : Names.Naming Grant) : Emission n String := do
  let pass ← get
  let (result, names) := request.run.run pass.names
  set { pass with names := names }
  let grant ← ofExcept result
  if let some message := grant.notice.bind Renaming.message? then note message
  return grant.identifier

/-- The identifier of a name, the same throughout the pass. -/
def identifier (space : Space) (name : Value) : Emission n String :=
  grant (Names.identify space name)

/-- An identifier of its own. -/
def fresh (space : Space) (name : Value) : Emission n String := grant (Names.fresh space name)

/-- A temporary of its own. -/
def temporary (name : Value) : Emission n String := do
  let identifier ← fresh .developer name
  modify fun pass => { pass with temporaries := pass.temporaries ++ [identifier] }
  return identifier

/-- Provides a helper and gives its name. The first template under a key is the one that counts. -/
def provide (key : String) (template : Template) : Emission n String := do
  match (← get).functionNames.get? key with
  | some name => return name
  | none =>
      let name ← fresh .procedure (.text key)
      modify fun pass => { pass with functionNames := pass.functionNames.insert key name }
      let source ← ofExcept (template.render name)
      modify fun pass => { pass with helpers := pass.helpers.insert key source }
      note ("registered helper " ++ Text.shown key ++ " as " ++ name)
      return name

/-- Declares an import. The first statement under a key is the one that counts. -/
def require (key statement : String) : Emission n Unit := do
  unless (← get).imports.has key do
    modify fun pass => { pass with imports := pass.imports.insert key statement }
    note ("declared import " ++ Text.shown statement)

/-- Enters a procedure. A later one of the same name takes the place of an earlier one. -/
def define (procedure : Procedure) : Emission n Unit := do
  modify fun pass => { pass with procedures := pass.procedures.insert procedure.name procedure }
  note ("registered procedure " ++ procedure.name ++ "("
    ++ String.intercalate ", " procedure.params ++ ")")

/-- Runs a step with a block marked as active; the mark is taken back however the step ends. -/
def within {α : Type} (ref : Fin n) (step : Emission n α) : Emission n α :=
  ExceptT.mk do
    modify fun pass => { pass with active := ref :: pass.active }
    let result ← step.run
    modify fun pass => { pass with active := pass.active.erase ref }
    return result

/-- A step within a block is run with that block in front of the active ones. -/
theorem run_within {α : Type} (ref : Fin n) (step : Emission n α) (pass : Pass n) :
    (within ref step).run.run pass =
      let (result, after) := step.run.run { pass with active := ref :: pass.active }
      (result, { after with active := after.active.erase ref }) := rfl

end Pass

end BlockScript
