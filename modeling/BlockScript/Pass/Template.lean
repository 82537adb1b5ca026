import BlockScript.Fault

/-! # Helper templates

The source of a helper has one slot, `$function_name`, for the name it is given. The slot may stand
in braces, and two dollar signs stand for one.
-/

namespace BlockScript

/-- The source of a helper. -/
structure Template where
  source : String

namespace Template

/-- The name of the slot. -/
def slot : String := "function_name"

/-- A template of several lines. -/
def ofLines (lines : List String) : Template := ⟨String.intercalate "\n" lines⟩

/-- Whether a slot's name may start with a character. -/
def startsSlot (c : Char) : Bool := c.isAlpha || c = '_'

/-- Whether a slot's name may go on with a character. -/
def continuesSlot (c : Char) : Bool := c.isAlphanum || c = '_'

/-- What stands at a dollar sign. -/
inductive Mark where
  /-- An escaped dollar sign. -/
  | dollar
  /-- A slot. -/
  | named (name : String)

/-- The mark after a dollar sign, and the rest. -/
def mark : List Char → Attempt (Mark × List Char)
  | '$' :: rest => .ok (.dollar, rest)
  | '\x7b' :: c :: rest =>
      let chars := c :: rest
      match startsSlot c, chars.dropWhile continuesSlot with
      | true, '\x7d' :: after => .ok (.named (String.ofList (chars.takeWhile continuesSlot)), after)
      | _, _ => .error .strayDollar
  | c :: rest =>
      let chars := c :: rest
      if startsSlot c then
        .ok (.named (String.ofList (chars.takeWhile continuesSlot)), chars.dropWhile continuesSlot)
      else .error .strayDollar
  | [] => .error .strayDollar

/-- What a mark stands for when the slot is filled with a name. -/
def Mark.filled (name : String) : Mark → Attempt (List Char)
  | .dollar => .ok ['$']
  | .named own => if own = slot then .ok name.toList else .error .unknownSlot

/-- Fills the slot in characters. Every step uses up a character. -/
def fill (name : String) : Nat → List Char → Attempt (List Char)
  | 0, _ => .ok []
  | _ + 1, [] => .ok []
  | steps + 1, c :: rest => do
      if c = '$' then
        let (mark, rest) ← mark rest
        return (← mark.filled name) ++ (← fill name steps rest)
      else return c :: (← fill name steps rest)

/-- The source with a name in the slot. -/
def render (template : Template) (name : String) : Attempt String := do
  let chars := template.source.toList
  return String.ofList (← fill name chars.length chars)

end Template

end BlockScript
