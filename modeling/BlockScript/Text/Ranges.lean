/-! # Classes of characters given by ranges

A class of characters is a list of ranges of code points, both ends included.
-/

namespace BlockScript

/-- Ranges of code points, in increasing order. -/
abbrev Ranges := List (Nat × Nat)

namespace Ranges

/-- The range that a code point lies in. -/
def find? (ranges : Ranges) (code : Nat) : Option (Nat × Nat) :=
  List.find? (fun range => range.1 ≤ code && code ≤ range.2) ranges

/-- Whether a character lies in one of the ranges. -/
def has (ranges : Ranges) (c : Char) : Bool := (ranges.find? c.toNat).isSome

end Ranges

end BlockScript
