import BlockScript.Gen.Setting

/-! # Indices and slices

Positions of the user become offsets of the generated language, which start with zero and count from
the end when negative. Literal positions are computed here; others are computed when the generated
program runs.
-/

namespace BlockScript

/-- An offset: its code, and its value when that is known. -/
structure Index where
  code : String
  constant : Option Int

namespace Index

/-- The text of an integer in generated code. -/
def numeral (n : Int) : Attempt String := .written (Numeral.ofWhole? n)

/-- The offset of a literal position. -/
def ofLiteral (position shift : Int) (negate : Bool) : Attempt Index := do
  let offset := if negate then -(position + shift) else position + shift
  return ⟨← numeral offset, some offset⟩

/-- The code of a position with a shift. -/
def shifted (position : String) (shift : Int) : Attempt String := do
  if 0 < shift then return position ++ " + " ++ (← numeral shift)
  else if shift < 0 then return position ++ " - " ++ (← numeral (-shift))
  else return position

/-- The offset of a position that is known when the program runs. -/
def ofCode (position : String) (shift : Int) (negate : Bool) : Attempt Index := do
  let whole := "int(" ++ (← shifted position shift) ++ ")"
  return ⟨if negate then "-" ++ whole else whole, none⟩

end Index

/-- The integer that a number literal stands for, cut towards zero. -/
def literalPosition (code : String) : Attempt Int :=
  match Numeral.real? code with
  | some x => Value.wholeOfReal x
  | none => .error .badNumeral

namespace Gen

variable {n : Nat}

/-- The offset of the position in a socket, shifted, and negated for positions from the end. -/
def index (setting : Setting n) (block : Block n) (socket : String) (delta : Int)
    (negate : Bool) : Gen n Index := do
  let shift := if setting.oneBased then delta - 1 else delta
  let default := if setting.oneBased then "1" else "0"
  let order := if shift = 0 then Order.none else Order.additive
  let code ← value setting block socket order default
  if Numeral.isLiteral code then
    lift (do Index.ofLiteral (← literalPosition code) shift negate)
  else lift (Index.ofCode code shift negate)

/-- The offset of a position from the start. -/
def fromStart (setting : Setting n) (block : Block n) (socket : String) : Gen n Index :=
  index setting block socket 0 false

/-- The offset of a position from the end. -/
def fromEnd (setting : Setting n) (block : Block n) (socket : String) : Gen n Index :=
  index setting block socket 1 true

/-- The bounds of a slice; an empty one is open. -/
structure Bounds where
  first : String
  last : String

/-- The bounds of a slice, joined. -/
def Bounds.code (bounds : Bounds) : String := "[" ++ bounds.first ++ " : " ++ bounds.last ++ "]"

/-- The bound where a slice starts. -/
def sliceStart (setting : Setting n) (block : Block n) : Gen n String := do
  let where1 := block.field "WHERE1"
  if where1.isText "FROM_START" then
    let start ← fromStart setting block "AT1"
    return if start.constant = some 0 then "" else start.code
  else if where1.isText "FROM_END" then
    return (← fromEnd setting block "AT1").code
  else if where1.isText "FIRST" then return ""
  else unhandled block [("WHERE1", where1), ("WHERE2", block.field "WHERE2")]

/-- The bound where a slice ends. A distance of zero from the end means up to the end. -/
def sliceEnd (setting : Setting n) (block : Block n) : Gen n String := do
  let where2 := block.field "WHERE2"
  if where2.isText "FROM_START" then
    return (← index setting block "AT2" 1 false).code
  else if where2.isText "FROM_END" then
    let last ← index setting block "AT2" 0 true
    match last.constant with
    | none =>
        require "import_sys" "import sys"
        return last.code ++ " or sys.maxsize"
    | some offset => return if offset = 0 then "" else last.code
  else if where2.isText "LAST" then return ""
  else unhandled block [("WHERE1", block.field "WHERE1"), ("WHERE2", where2)]

/-- The bounds of the slice that a block asks for. -/
def slice (setting : Setting n) (block : Block n) : Gen n Bounds := do
  let first ← sliceStart setting block
  let last ← sliceEnd setting block
  return ⟨first, last⟩

end Gen

end BlockScript
