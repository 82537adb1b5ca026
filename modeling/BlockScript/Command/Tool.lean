import BlockScript.Files.Tree
import BlockScript.Json.Reader
import BlockScript.Listing

/-! # Two small tools

One checks the links of a description, the other prints its listing. Both read the description from
the file that their first argument names.
-/

namespace BlockScript

namespace Tool

/-- What came of a tool: its exit code or the failure that broke it, and what it printed. -/
structure Report where
  result : Attempt Nat
  printed : String

/-- Reads a description from a file. -/
def load (files : Tree) (path : String) : Attempt Value := do
  match Json.read (← files.read path) with
  | .ok description => return description
  | .error .malformed => .error .notJson
  | .error .longInteger => .error .tooManyDigits

/-- Checks the links of a description. -/
def checkLinks (description : Value) : Attempt (List Value) := do
  let nodes ← description.member? "nodes"
  let edges ← description.member? "edges"
  Forest.check (nodes.getD (.list [])) (edges.getD (.list []))

/-- The checker. -/
def check (files : Tree) : List String → Report
  | [] => ⟨.ok 1, "Usage: validator.py ir.json\n"⟩
  | path :: _ =>
      match load files path >>= checkLinks with
      | .ok _ => ⟨.ok 0, "OK\n"⟩
      | .error (.rejected verdict) =>
          let message := "Validation error: " ++ verdict.message ++ " details: "
          match Value.shown? (.object verdict.details) with
          | some details => ⟨.ok 2, message ++ details ++ "\n"⟩
          | none => ⟨.error .tooManyDigits, message⟩
      | .error fault => ⟨.error fault, ""⟩

/-- The listing of a description. -/
def listing (description : Value) : Attempt Listing := do
  ((← Program.ofValue description).generate {}).result

/-- The printer. -/
def print (files : Tree) : List String → Report
  | [] => ⟨.ok 1, "Usage: py_emitter.py ir.json\n"⟩
  | path :: _ =>
      match load files path >>= listing with
      | .ok listing => ⟨.ok 0, listing.code⟩
      | .error fault => ⟨.error fault, ""⟩

end Tool

end BlockScript
