import BlockScript.Text.Lines
import BlockScript.Value.Basic

/-! # Procedures

The parts of a procedure of the program. The line of its global variables is known only when the
whole program has been gone through, so it is put in when the procedure is written.
-/

namespace BlockScript

/-- The block that a piece of the listing comes from. -/
structure Owner where
  id : Value
  kind : Value

/-- A procedure of the program. -/
structure Procedure where
  name : String
  params : List String
  /-- The identifiers of the user's variables that are no parameters. -/
  userGlobals : List String
  /-- The statements, indented. -/
  body : String
  /-- The line that returns the result, or nothing. -/
  returnLine : String
  /-- The block that defines the procedure. -/
  owner : Option Owner

namespace Procedure

/-- The first occurrences of texts, in order, that are not among others. -/
def distinct : List String → List String → List String
  | _, [] => []
  | known, name :: rest =>
      if name ∈ known then distinct known rest else name :: distinct (name :: known) rest

/-- The identifiers that a procedure declares as global. -/
def globals (procedure : Procedure) (developer : List String) : List String :=
  distinct procedure.params (procedure.userGlobals ++ developer)

/-- The line that declares global identifiers, or nothing. -/
def globalLine (names : List String) : String :=
  if names.isEmpty then "" else Text.margin ++ "global " ++ String.intercalate ", " names ++ "\n"

/-- The procedure as written. -/
def render (procedure : Procedure) (developer : List String) : String :=
  "def " ++ procedure.name ++ "(" ++ String.intercalate ", " procedure.params ++ "):\n"
    ++ globalLine (procedure.globals developer) ++ procedure.body ++ procedure.returnLine

end Procedure

end BlockScript
