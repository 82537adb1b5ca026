import BlockScript.Files.Path

/-! # A tree of files

Files by the names that lead to each from the root, and the working directory that relative paths
start from. Directories are the working directory and those that lead to it or to a file.
-/

namespace BlockScript

/-- Files and a working directory. -/
structure Tree where
  here : List String
  files : List (List String × String)

namespace Tree

/-- The text at a place, among files. -/
def find? (place : List String) : List (List String × String) → Option String
  | [] => none
  | (other, text) :: rest => if other = place then some text else find? place rest

/-- The text of a file. -/
def get? (tree : Tree) (place : List String) : Option String := find? place tree.files

/-- Whether a place is a directory. -/
def isDirectory (tree : Tree) (place : List String) : Bool :=
  place.isPrefixOf tree.here ||
    tree.files.any fun (other, _) => place.isPrefixOf other && place ≠ other

/-- The greatest number of octets of a name. -/
def greatestName : Nat := 255

/-- The greatest number of octets of a path. -/
def greatestPath : Nat := 4095

/-- Checks that a name is not too long. -/
def checkName (name : String) : Attempt Unit :=
  if greatestName < name.utf8ByteSize then .error .nameTooLong else .ok ()

/-- Follows names from a directory through further directories. -/
def enter (tree : Tree) : List String → List String → Attempt (List String)
  | place, [] => .ok place
  | place, name :: rest => do
      checkName name
      let inner := if name = ".." then place.dropLast else place ++ [name]
      if tree.isDirectory inner then enter tree inner rest
      else if (tree.get? inner).isSome then .error .notADirectory
      else .error .noSuchFile

/-- The place that a path leads to, in a directory that is there. -/
def locate (tree : Tree) (path : Path) : Attempt (List String) := do
  let start := if path.root = "" then tree.here else []
  match path.names.getLast? with
  | none => return start
  | some last =>
      if last = ".." then tree.enter start path.names
      else
        let directory ← tree.enter start path.names.dropLast
        checkName last
        return directory ++ [last]

/-- Whether a text insists that it denotes a directory. -/
def insistsOnDirectory (text : String) : Bool :=
  match text.toList.reverse with
  | '/' :: _ => true
  | '.' :: '/' :: _ => true
  | _ => false

/-- Checks that a text can be a path at all. -/
def checkPath (text : String) : Attempt Unit :=
  if text.toList.contains (Char.ofNat 0) then .error .badPath
  else if text.isEmpty then .error .noSuchFile
  else if greatestPath < text.utf8ByteSize then .error .nameTooLong
  else .ok ()

/-- Reads a file. -/
def read (tree : Tree) (text : String) : Attempt String := do
  checkPath text
  let place ← tree.locate (.ofString text)
  match tree.get? place with
  | some content =>
      if insistsOnDirectory text then .error .notADirectory else return content
  | none => if tree.isDirectory place then .error .isDirectory else .error .noSuchFile

/-- Puts a text at a place, among files. -/
def put (place : List String) (text : String) :
    List (List String × String) → List (List String × String)
  | [] => [(place, text)]
  | (other, old) :: rest =>
      if other = place then (place, text) :: rest else (other, old) :: put place text rest

/-- Writes a file. -/
def write (tree : Tree) (path : Path) (text : String) : Attempt Tree := do
  checkPath path.toString
  let place ← tree.locate path
  if tree.isDirectory place then .error .isDirectory
  else return { tree with files := put place text tree.files }

/-- The files of a tree that an earlier one does not have, or has with another text. -/
def changes (earlier later : Tree) : List (List String × String) :=
  later.files.filter fun (place, text) => earlier.get? place ≠ some text

/-- The names that lead from the working directory to a place below it. -/
def below? (tree : Tree) (place : List String) : Option (List String) :=
  if tree.here.isPrefixOf place then some (place.drop tree.here.length) else none

end Tree

end BlockScript
