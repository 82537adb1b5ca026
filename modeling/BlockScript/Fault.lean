import BlockScript.Value.Display

/-! # What can go wrong

A `Rejection` is a verdict on a program description: it has a message and details for its author. It
is given only if its message can be written. A `Fault` is either a rejection or a datum of the wrong
shape met on the way, which has a cause only.
-/

namespace BlockScript

/-- The three families of verdicts. -/
inductive Family where
  /-- The links between the blocks are no forest of sockets. -/
  | invalid
  /-- A block has a kind, an option or a use that no code exists for. -/
  | malformed
  /-- A block can reach itself. -/
  | cyclic
deriving DecidableEq

/-- Why a program description is rejected. -/
inductive Cause where
  | linkFromNowhere (parent : Value)
  | linkToNowhere (parent port child : Value)
  | crowdedSocket (parent port first second : Value)
  | missingId (kind : Value)
  | repeatedId (id : Value)
  | sharedBlock (id : Value) (parents : Nat)
  | cycle (ids : List Value)
  | unknownKind (id kind : Value)
  | unhandled (id kind : Value) (combination : Table Value)
  | unknownMode (id kind mode : Value)
  | selfContained (id kind : Value)
  | notAnExpression (id kind parent : Value) (socket : String)
  | endlessChain (id kind : Value)

namespace Cause

/-- The family of a verdict. -/
def family : Cause → Family
  | .linkFromNowhere .. | .linkToNowhere .. | .crowdedSocket .. => .invalid
  | .missingId .. | .repeatedId .. | .sharedBlock .. => .invalid
  | .unknownKind .. | .unhandled .. | .unknownMode .. | .notAnExpression .. => .malformed
  | .cycle .. | .selfContained .. | .endlessChain .. => .cyclic

/-- One option of a combination. -/
def option? (entry : String × Value) : Option String := do
  return entry.1 ++ "=" ++ (← entry.2.display?)

/-- The message of a verdict, if it can be written. -/
def message? : Cause → Option String
  | .linkFromNowhere parent => do
      return "Link references unknown block '" ++ (← parent.display?) ++ "'"
  | .linkToNowhere parent _ child => do
      return "Input reference '" ++ (← child.display?) ++ "' for block '" ++ (← parent.display?)
        ++ "' not found"
  | .crowdedSocket parent port _ _ => do
      return "Socket '" ++ (← port.display?) ++ "' of block '" ++ (← parent.display?)
        ++ "' has more than one connection"
  | .missingId _ => some "Block without an id"
  | .repeatedId id => do return "Duplicate block id '" ++ (← id.display?) ++ "'"
  | .sharedBlock id _ => do
      return "Block '" ++ (← id.display?) ++ "' is connected to more than one socket"
  | .cycle _ => some "Cycle detected in block graph"
  | .unknownKind _ kind => do return "Unknown block kind: " ++ (← kind.display?)
  | .unhandled _ kind combination => do
      let options ← combination.mapM option?
      return "Unhandled combination (" ++ (← kind.display?) ++ "): "
        ++ String.intercalate ", " options
  | .unknownMode _ _ mode => do return "Unknown mode: " ++ (← mode.display?)
  | .selfContained id kind => do
      return "Block '" ++ (← id.display?) ++ "' (" ++ (← kind.display?) ++ ") contains itself"
  | .notAnExpression id kind _ socket => do
      return "Block '" ++ (← id.display?) ++ "' (" ++ (← kind.display?)
        ++ ") cannot be used as a value for '" ++ socket ++ "'"
  | .endlessChain id _ => do
      return "Statement chain loops back to block '" ++ (← id.display?) ++ "'"

/-- The details of a verdict. -/
def details : Cause → Table Value
  | .linkFromNowhere parent => [("block", parent)]
  | .linkToNowhere parent port child => [("block", parent), ("input", child), ("port", port)]
  | .crowdedSocket parent port first second =>
      [("block", parent), ("port", port), ("inputs", .list [first, second])]
  | .missingId kind => [("block_type", kind)]
  | .repeatedId id => [("block", id)]
  | .sharedBlock id parents => [("block", id), ("parents", .int parents)]
  | .cycle ids => [("cycle", .list ids)]
  | .unknownKind id kind => [("block", id), ("kind", kind)]
  | .unhandled id kind combination => [("block", id), ("kind", kind)] ++ combination
  | .unknownMode id kind mode => [("block", id), ("kind", kind), ("MODE", mode)]
  | .selfContained id kind => [("block", id), ("kind", kind)]
  | .notAnExpression id kind parent socket =>
      [("block", id), ("kind", kind), ("parent", parent), ("socket", .text socket)]
  | .endlessChain id kind => [("block", id), ("kind", kind)]

end Cause

/-- A verdict on a program description: its cause, and its message. -/
structure Rejection where
  cause : Cause
  message : String
  written : cause.message? = some message

namespace Rejection

/-- The family of a verdict. -/
def family (verdict : Rejection) : Family := verdict.cause.family

/-- The details of a verdict. -/
def details (verdict : Rejection) : Table Value := verdict.cause.details

end Rejection

/-- A failure, by its cause. -/
inductive Fault where
  /-- The description is rejected. -/
  | rejected (verdict : Rejection)
  /-- A member was asked of a value that is not an object. -/
  | notAnObject
  /-- A text was needed. -/
  | notAText
  /-- A member was selected from a value that has none. -/
  | notSelectable
  /-- The selected member is missing. -/
  | missingMember
  /-- A value that has no elements was to be gone through. -/
  | notIterable
  /-- A list or object was to identify something. -/
  | notAnAtom
  /-- A number was needed. -/
  | notANumber
  /-- Values of different kinds were to be put in order. -/
  | notOrdered
  /-- A text is no numeral, or a not-a-number was to be cut to an integer. -/
  | badNumeral
  /-- A number is too large for its target. -/
  | tooLarge
  /-- An integer has more digits than are read or written. -/
  | tooManyDigits
  /-- An element of a list of pairs is no pair. -/
  | notAPair
  /-- A template has a slot that nothing fills. -/
  | unknownSlot
  /-- A template has a dollar sign that starts no slot. -/
  | strayDollar
  /-- A text is not in the exchange format. -/
  | notJson
  /-- There is no such file, or no directory to write it in. -/
  | noSuchFile
  /-- A directory stands where a file was needed. -/
  | isDirectory
  /-- A file stands where a directory was needed. -/
  | notADirectory
  /-- A path holds a null character. -/
  | badPath
  /-- A path or one of its names is too long. -/
  | nameTooLong

/-- The results of steps that may fail. -/
abbrev Attempt := Except Fault

/-- A text that is needed, unless an integer in it has too many digits. -/
def Attempt.written : Option String → Attempt String
  | some text => .ok text
  | none => .error .tooManyDigits

@[simp]
theorem Attempt.written_eq_ok {text? : Option String} {text : String} :
    Attempt.written text? = .ok text ↔ text? = some text := by
  cases text? <;> simp [Attempt.written]

/-- The failure of a description that is to be rejected. There is no verdict without a message. -/
def Cause.fault (cause : Cause) : Fault :=
  match written : cause.message? with
  | some message => .rejected ⟨cause, message, written⟩
  | none => .tooManyDigits

namespace Cause

variable {cause : Cause} {verdict : Rejection}

/-- A cause whose message can be written is the cause of a verdict. -/
theorem fault_of_message {message : String} (written : cause.message? = some message) :
    cause.fault = .rejected ⟨cause, message, written⟩ := by
  rw [fault]
  split
  · next other told =>
      obtain rfl : other = message := Option.some.inj (told.symm.trans written)
      rfl
  · next unwritten => simp [unwritten] at written

/-- Without a message, too many digits are what is wrong. -/
theorem fault_of_no_message (unwritten : cause.message? = none) : cause.fault = .tooManyDigits := by
  rw [fault]
  split
  · next message told => simp [told] at unwritten
  · rfl

/-- A cause fails with the verdicts that are given for it. -/
theorem fault_eq_rejected : cause.fault = .rejected verdict ↔ verdict.cause = cause := by
  constructor
  · intro failed
    cases told : cause.message? with
    | none => simp [fault_of_no_message told] at failed
    | some message =>
        rw [fault_of_message told, Fault.rejected.injEq] at failed
        rw [← failed]
  · rintro rfl
    exact fault_of_message verdict.written

end Cause

/-- Rejects a description. -/
def reject {α : Type} (cause : Cause) : Attempt α := .error cause.fault

theorem reject_eq_rejected {α : Type} {cause : Cause} {verdict : Rejection} :
    (reject cause : Attempt α) = .error (.rejected verdict) ↔ verdict.cause = cause := by
  rw [reject, Except.error.injEq, Cause.fault_eq_rejected]

/-- There is a verdict for a cause unless its message cannot be written. -/
theorem reject_cases (α : Type) (cause : Cause) :
    (∃ verdict : Rejection,
        (reject cause : Attempt α) = .error (.rejected verdict) ∧ verdict.cause = cause) ∨
      (reject cause : Attempt α) = .error .tooManyDigits ∧ cause.message? = none := by
  cases told : cause.message? with
  | some message => exact .inl ⟨⟨cause, message, told⟩, reject_eq_rejected.mpr rfl, rfl⟩
  | none => exact .inr ⟨by rw [reject, Cause.fault_of_no_message told], rfl⟩

end BlockScript
