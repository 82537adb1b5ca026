import BlockScript.Forest.Load
import BlockScript.Gen.Run

/-! # Listings

The finished program: imports, variables, helpers, procedures and the body, with a blank line
between sections, and the lines on which the code of each top-level block stands.
-/

namespace BlockScript

/-- The lines on which the code of a block stands, counted from one. -/
structure Span where
  owner : Owner
  first : Nat
  last : Nat

/-- A listing with the lines of its top-level blocks. -/
structure Listing where
  code : String
  spans : List Span

/-- A section of a listing, with the block it comes from as a whole, if any. -/
structure Section where
  text : String
  owner : Option Owner

/-- The code of a top-level block in the body. -/
structure Piece where
  owner : Owner
  code : String

/-- What generation yields besides what the pass has entered. -/
structure Parts where
  /-- The identifiers of the user's variables. -/
  userNames : List String
  /-- The identifiers of the developer's variables. -/
  developerNames : List String
  body : List Piece

namespace Gen

variable {n : Nat}

/-- The code of the top-level blocks. A definition is entered with the pass, all else belongs to the
body. -/
def pieces (setting : Setting n) : List (Fin n) → Gen n (List Piece)
  | [] => .done []
  | top :: rest => do
      let block := setting.block top
      if Kind.isDefinition block.kind then
        let _ ← Gen.block top
        pieces setting rest
      else
        let code ← chain setting (some top)
        return ⟨⟨block.id, block.kind⟩, code⟩ :: (← pieces setting rest)

/-- The program as a whole. The user's names come first, so that nothing else takes them. -/
def program (setting : Setting n) : Gen n Parts := do
  let userNames ← each variableName setting.workspace.usedVariables
  let developerNames ← each developerName setting.workspace.developerVariables
  let body ← pieces setting setting.workspace.roots
  return ⟨userNames, developerNames, body⟩

end Gen

namespace Listing

/-- A section of its own text. -/
def plain (text : String) : Section := ⟨text, none⟩

/-- A section, unless there is nothing in it. -/
def unlessEmpty {α : Type} (entries : List α) (text : String) : List Section :=
  if entries.isEmpty then [] else [plain text]

/-- The body. -/
def bodyOf (parts : Parts) : String := String.join (parts.body.map (·.code))

/-- The global identifiers that procedures have besides the user's. -/
def developerGlobals (developer temporaries : List String) : List String :=
  developer ++ temporaries.filter (· ∉ developer)

/-- The sections of a listing, in order. -/
def sections {n : Nat} (pass : Pass n) (parts : Parts) : List Section :=
  let names := parts.userNames ++ parts.developerNames
  let globals := developerGlobals parts.developerNames pass.temporaries
  unlessEmpty pass.imports (String.intercalate "\n" pass.imports.entries ++ "\n")
    ++ unlessEmpty names (String.join (names.map (· ++ " = None\n")))
    ++ pass.helpers.entries.map (fun source => plain (source ++ "\n"))
    ++ pass.procedures.entries.map (fun procedure => ⟨procedure.render globals, procedure.owner⟩)
    ++ unlessEmpty (bodyOf parts).toList (bodyOf parts)

/-- The spans of the sections that come from a block, from a line on, and the line where the last
section starts. -/
def sectionSpans : Nat → Nat → List Section → List Span × Nat
  | _, start, [] => ([], start)
  | first, _, entry :: rest =>
      let count := Text.lineCount entry.text
      let (spans, start) := sectionSpans (first + count + 1) first rest
      match entry.owner with
      | some owner => (⟨owner, first, first + count - 1⟩ :: spans, start)
      | none => (spans, start)

/-- The spans of the pieces of the body, from a line on. A piece without code has the line where it
would stand. -/
def pieceSpans : Nat → List Piece → List Span
  | _, [] => []
  | first, piece :: rest =>
      let count := Text.lineCount piece.code
      ⟨piece.owner, first, first + max count 1 - 1⟩ :: pieceSpans (first + count) rest

/-- The listing of a finished pass. -/
def assemble {n : Nat} (pass : Pass n) (parts : Parts) : Listing :=
  let sections := sections pass parts
  let (spans, bodyStart) := sectionSpans 1 1 sections
  let pieces := if (bodyOf parts).isEmpty then [] else parts.body
  ⟨String.intercalate "\n" (sections.map (·.text)), spans ++ pieceSpans bodyStart pieces⟩

/-- A span as data. -/
def spanValue (span : Span) : Value :=
  .object [("block_id", span.owner.id), ("kind", span.owner.kind), ("start_line", .int span.first),
    ("end_line", .int span.last)]

/-- The spans of a listing as data. -/
def spanValues (listing : Listing) : Value := .list (listing.spans.map spanValue)

end Listing

namespace Setting

variable {n : Nat}

/-- Generates the listing of the program in a new pass. -/
def emit (setting : Setting n) : Emission n Listing := do
  set (Pass.start Names.start : Pass n)
  Pass.note ("generation pass started: " ++ toString setting.workspace.roots.length
    ++ " top-level block(s)")
  let parts ← setting.run (Gen.program setting)
  let pass ← get
  let listing := Listing.assemble pass parts
  Pass.note ("generation pass finished: " ++ toString (Text.lineCount listing.code)
    ++ " line(s), " ++ toString pass.helpers.length ++ " helper(s), "
    ++ toString pass.imports.length ++ " import(s)")
  return listing

end Setting

/-- The outcome of generating a listing, with the notices of the pass. -/
structure Generation where
  result : Attempt Listing
  log : List String

/-- Generates the listing of a program. -/
def Program.generate (program : Program) (options : Options) : Generation :=
  let setting : Setting program.size := ⟨program.workspace, options⟩
  let (result, pass) := setting.emit.run.run (Pass.start Names.start)
  ⟨result, pass.log⟩

end BlockScript
