import BlockScript.Names.Basic

/-! # Handing out identifiers

`Names.fresh` hands out an identifier that was never handed out before; `Names.identify` does so
once for a name in a space and repeats its answer from then on.
-/

namespace BlockScript

/-- A notice that a name became another identifier. -/
structure Renaming where
  title : String
  name : Value
  identifier : String

/-- The notice as a line, if it can be written. -/
def Renaming.message? (notice : Renaming) : Option String := do
  return "mangled " ++ notice.title ++ " name " ++ (← notice.name.shown?) ++ " -> "
    ++ Text.shown notice.identifier

/-- An identifier handed out, with a notice when it is not the name itself. -/
structure Grant where
  identifier : String
  notice : Option Renaming

namespace Names

/-- Steps on a pool that may fail; what a failed step has handed out stays handed out. -/
abbrev Naming := ExceptT Fault (StateM Names)

/-- The notice due for an identifier. -/
def noticeFor (space : Space) (name : Value) (identifier : String) : Attempt (Option Renaming) :=
  if name.isText identifier then .ok none
  else
    match space.title? with
    | some title => .ok (some ⟨title, name, identifier⟩)
    | none => .error .notAText

/-- An identifier never handed out before. -/
def fresh (space : Space) (name : Value) : Naming Grant := do
  let base ← ofExcept (suggestion name)
  let identifier := (← get).firstFree base
  modify (·.markUsed identifier)
  let notice ← ofExcept (noticeFor space name identifier)
  return ⟨identifier, notice⟩

/-- The identifier of a name in a space, the same at every request. -/
def identify (space : Space) (name : Value) : Naming Grant := do
  ofExcept space.label.atom
  ofExcept name.atom
  match (← get).find? space name with
  | some identifier => return ⟨identifier, none⟩
  | none =>
      let grant ← fresh space name
      modify (·.record space name grant.identifier)
      return grant

end Names

end BlockScript
