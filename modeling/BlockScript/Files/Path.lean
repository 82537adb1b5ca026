import BlockScript.Fault

/-! # Paths

A path is a list of names, from a root or from the working directory. Empty names and single points
say nothing and are left out.
-/

namespace BlockScript

/-- A path. -/
structure Path where
  /-- The slashes in front of an absolute path. -/
  root : String
  names : List String
deriving DecidableEq

namespace Path

/-- The parts of a text between its slashes. -/
def splitSlashes : List Char → List (List Char)
  | [] => [[]]
  | c :: rest =>
      if c = '/' then [] :: splitSlashes rest
      else
        match splitSlashes rest with
        | [] => [[c]]
        | part :: parts => (c :: part) :: parts

/-- The root of a path: two slashes in front stay two, more are one. -/
def rootOf : List Char → String
  | '/' :: '/' :: '/' :: _ => "/"
  | '/' :: '/' :: _ => "//"
  | '/' :: _ => "/"
  | _ => ""

/-- The path that a text denotes. -/
def ofString (text : String) : Path :=
  let parts := (splitSlashes text.toList).map String.ofList
  ⟨rootOf text.toList, parts.filter fun part => part ≠ "" ∧ part ≠ "."⟩

/-- A path as text. -/
def toString (path : Path) : String :=
  if path.root = "" ∧ path.names = [] then "."
  else path.root ++ String.intercalate "/" path.names

/-- A name without its suffix: the last point with something on either side, and what follows it. -/
def stem (name : List Char) : List Char :=
  let fromEnd := name.reverse
  let suffix := fromEnd.takeWhile (· ≠ '.')
  match fromEnd.dropWhile (· ≠ '.') with
  | _ :: before => if suffix = [] ∨ before = [] then name else before.reverse
  | [] => name

/-- A path with another suffix. -/
def withSuffix (path : Path) (suffix : String) : Path :=
  match path.names.reverse with
  | [] => path
  | name :: before =>
      { path with
        names := before.reverse ++ [String.ofList (stem name.toList) ++ suffix] }

end Path

end BlockScript
