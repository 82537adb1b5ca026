import BlockScript.Json.Reader

/-! # Encodings of the exchange format

A text arrives as octets. A mark at the front or the zeros among the first octets tell whether it
is in eight, sixteen or thirty-two bit units.
-/

namespace BlockScript

namespace Json

/-- How a text is encoded. -/
inductive Encoding where
  | octets
  /-- Octets behind a mark of three. -/
  | markedOctets
  | units16 (bigEndian : Bool)
  | units32 (bigEndian : Bool)

/-- The encoding of octets without a mark, by their zeros. -/
def Encoding.ofZeros : List Nat → Encoding
  | [0, _] => .units16 true
  | [_, 0] => .units16 false
  | 0 :: b :: _ :: _ :: _ => if b = 0 then .units32 true else .units16 true
  | _ :: 0 :: c :: d :: _ => if c = 0 ∧ d = 0 then .units32 false else .units16 false
  | _ => .octets

/-- The encoding of octets. -/
def Encoding.detect (octets : List Nat) : Encoding :=
  match octets with
  | 0xEF :: 0xBB :: 0xBF :: _ => .markedOctets
  | _ => .ofZeros octets

/-- A number from octets, the most significant first. -/
def joinOctets (octets : List Nat) : Nat := octets.foldl (fun n octet => 256 * n + octet) 0

/-- Sixteen-bit units. -/
def units16 (bigEndian : Bool) : List Nat → Option (List Nat)
  | [] => some []
  | a :: b :: rest =>
      (units16 bigEndian rest).map (joinOctets (if bigEndian then [a, b] else [b, a]) :: ·)
  | _ => none

/-- Thirty-two-bit units. -/
def units32 (bigEndian : Bool) : List Nat → Option (List Nat)
  | [] => some []
  | a :: b :: c :: d :: rest =>
      (units32 bigEndian rest).map
        (joinOctets (if bigEndian then [a, b, c, d] else [d, c, b, a]) :: ·)
  | _ => none

/-- The characters of sixteen-bit units. A surrogate on its own is replaced. -/
def charsOfUnits16 : List Nat → List Char
  | [] => []
  | [unit] => [if 0xD800 ≤ unit ∧ unit < 0xE000 then Char.ofNat 0xFFFD else Char.ofNat unit]
  | high :: low :: rest =>
      if 0xD800 ≤ high ∧ high < 0xDC00 ∧ 0xDC00 ≤ low ∧ low < 0xE000 then
        Char.ofNat (0x10000 + 1024 * (high - 0xD800) + (low - 0xDC00)) :: charsOfUnits16 rest
      else if 0xD800 ≤ high ∧ high < 0xE000 then
        Char.ofNat 0xFFFD :: charsOfUnits16 (low :: rest)
      else Char.ofNat high :: charsOfUnits16 (low :: rest)

/-- The character of a thirty-two-bit unit. A surrogate on its own is replaced. -/
def charOfUnit32 (unit : Nat) : Option Char :=
  if 0x10FFFF < unit then none
  else if 0xD800 ≤ unit ∧ unit < 0xE000 then some (Char.ofNat 0xFFFD)
  else some (Char.ofNat unit)

/-- The text that octets encode. -/
def decode (octets : ByteArray) : Option String :=
  let list := octets.toList.map UInt8.toNat
  match Encoding.detect list with
  | .octets => String.fromUTF8? octets
  | .markedOctets => String.fromUTF8? (octets.extract 3 octets.size)
  | .units16 bigEndian =>
      (units16 bigEndian list).map fun units => String.ofList (charsOfUnits16 units)
  | .units32 bigEndian => do
      return String.ofList (← (← units32 bigEndian list).mapM charOfUnit32)

end Json

end BlockScript
