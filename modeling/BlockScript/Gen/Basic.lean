import BlockScript.Block
import BlockScript.Order
import BlockScript.Pass.Basic

/-! # Generators

A generator is a description of how code is made: a tree of requests to the pass, each continued by
the answer. It decides nothing about how requests are met, so whatever a pass keeps through every
request it keeps through every generator.
-/

namespace BlockScript

/-- An expression: its code and how tightly it binds. -/
structure Expression where
  code : String
  order : Order
deriving DecidableEq

/-- What a block comes to. -/
inductive Outcome where
  | expression (value : Expression)
  | statement (code : String)
  /-- The block leaves no code where it stands. -/
  | nothing
deriving DecidableEq

/-- What a generator may ask of a pass over a graph of `n` blocks. -/
inductive Request (n : Nat) where
  /-- What a block comes to. -/
  | block (ref : Fin n)
  /-- The identifier of a name. -/
  | identifier (space : Space) (name : Value)
  /-- An identifier of its own. -/
  | fresh (space : Space) (name : Value)
  /-- A temporary of its own. -/
  | temporary (name : Value)
  /-- The name of a helper. -/
  | helper (key : String) (template : Template)
  /-- An import. -/
  | require (key statement : String)
  /-- A procedure. -/
  | define (procedure : Procedure)

/-- The answer that a request gets. -/
@[reducible]
def Request.Answer {n : Nat} : Request n → Type
  | .block _ => Outcome
  | .identifier .. | .fresh .. | .temporary _ | .helper .. => String
  | .require .. | .define _ => Unit

/-- A generator of a result. -/
inductive Gen (n : Nat) (α : Type) where
  | done (result : α)
  | fail (fault : Fault)
  | ask (request : Request n) (next : request.Answer → Gen n α)

namespace Gen

variable {n : Nat} {α β : Type}

/-- Continues a generator with its result. -/
def andThen : Gen n α → (α → Gen n β) → Gen n β
  | .done result, next => next result
  | .fail fault, _ => .fail fault
  | .ask request answer, next => .ask request fun reply => (answer reply).andThen next

instance : Monad (Gen n) where
  pure := .done
  bind := andThen

@[simp]
theorem pure_eq_done (result : α) : (pure result : Gen n α) = .done result := rfl

@[simp]
theorem done_bind (result : α) (next : α → Gen n β) :
    (.done result : Gen n α) >>= next = next result := rfl

@[simp]
theorem fail_bind (fault : Fault) (next : α → Gen n β) :
    (.fail fault : Gen n α) >>= next = .fail fault := rfl

@[simp]
theorem ask_bind (request : Request n) (answer : request.Answer → Gen n α) (next : α → Gen n β) :
    .ask request answer >>= next = .ask request fun reply => answer reply >>= next := rfl

instance : LawfulMonad (Gen n) :=
  .mk' (Gen n)
    (fun generator => by
      change generator.andThen .done = generator
      induction generator with
      | done | fail => rfl
      | ask request answer ih => exact congrArg (Gen.ask request) (funext ih))
    (fun _ _ => rfl)
    (fun generator next last => by
      change (generator.andThen next).andThen last =
        generator.andThen fun result => (next result).andThen last
      induction generator with
      | done | fail => rfl
      | ask request answer ih => exact congrArg (Gen.ask request) (funext ih))

/-- A step that asks nothing. -/
def lift : Attempt α → Gen n α
  | .ok result => .done result
  | .error fault => .fail fault

/-- Rejects the program. -/
def reject (cause : Cause) : Gen n α := .fail cause.fault

/-- What a block comes to. -/
def block (ref : Fin n) : Gen n Outcome := .ask (.block ref) .done

/-- The identifier of a variable. -/
def variableName (name : Value) : Gen n String := .ask (.identifier .user name) .done

/-- The identifier of a procedure. -/
def procedureName (name : Value) : Gen n String := .ask (.identifier .procedure name) .done

/-- The identifier of a developer's variable. -/
def developerName (name : Value) : Gen n String :=
  .ask (.identifier .developer name) .done

/-- A variable of its own. -/
def distinctVariable (name : Value) : Gen n String := .ask (.fresh .user name) .done

/-- A temporary of its own. -/
def temporary (name : Value) : Gen n String := .ask (.temporary name) .done

/-- The name of a helper. -/
def helper (key : String) (template : Template) : Gen n String := .ask (.helper key template) .done

/-- Declares an import. -/
def require (key statement : String) : Gen n Unit := .ask (.require key statement) .done

/-- Enters a procedure. -/
def define (procedure : Procedure) : Gen n Unit := .ask (.define procedure) .done

/-- Runs a generator for every element in order. -/
def each (generate : α → Gen n β) : List α → Gen n (List β)
  | [] => .done []
  | a :: rest => do
      let b ← generate a
      let bs ← each generate rest
      return b :: bs

end Gen

end BlockScript
