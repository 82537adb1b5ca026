import BlockScript.Kind.ProcedureBlock
import BlockScript.Kind.TextBlock

/-! # Kinds of blocks

The closed list of kinds that code exists for, with the label by which descriptions name each and
the generator of its code.
-/

namespace BlockScript

/-- A kind of block. -/
inductive Kind where
  | number
  | arithmetic
  | comparison
  | connection
  | negation
  | truth
  | null
  | getVariable
  | setVariable
  | conditional
  | conditionalLoop
  | countedLoop
  | listLoop
  | emptyList
  | listOf
  | repeatedItem
  | listLength
  | listIsEmpty
  | listIndexOf
  | getIndex
  | setIndex
  | sublist
  | sorted
  | split
  | reversed
  | text
  | joined
  | append
  | textLength
  | textIsEmpty
  | textIndexOf
  | letterAt
  | substring
  | changeCase
  | trim
  | print
  | promptWithSocket
  | prompt
  | occurrences
  | replaced
  | backwards
  | defineWithResult
  | defineWithoutResult
  | callForResult
  | callForEffect
  | earlyReturn
deriving DecidableEq

namespace Kind

/-- The label of a kind in descriptions. -/
def label : Kind → String
  | .number => "math_number"
  | .arithmetic => "math_arithmetic"
  | .comparison => "logic_compare"
  | .connection => "logic_operation"
  | .negation => "logic_negate"
  | .truth => "logic_boolean"
  | .null => "logic_null"
  | .getVariable => "variables_get"
  | .setVariable => "variables_set"
  | .conditional => "controls_if"
  | .conditionalLoop => "controls_whileUntil"
  | .countedLoop => "controls_repeat_ext"
  | .listLoop => "controls_forEach"
  | .emptyList => "lists_create_empty"
  | .listOf => "lists_create_with"
  | .repeatedItem => "lists_repeat"
  | .listLength => "lists_length"
  | .listIsEmpty => "lists_isEmpty"
  | .listIndexOf => "lists_indexOf"
  | .getIndex => "lists_getIndex"
  | .setIndex => "lists_setIndex"
  | .sublist => "lists_getSublist"
  | .sorted => "lists_sort"
  | .split => "lists_split"
  | .reversed => "lists_reverse"
  | .text => "text"
  | .joined => "text_join"
  | .append => "text_append"
  | .textLength => "text_length"
  | .textIsEmpty => "text_isEmpty"
  | .textIndexOf => "text_indexOf"
  | .letterAt => "text_charAt"
  | .substring => "text_getSubstring"
  | .changeCase => "text_changeCase"
  | .trim => "text_trim"
  | .print => "text_print"
  | .promptWithSocket => "text_prompt_ext"
  | .prompt => "text_prompt"
  | .occurrences => "text_count"
  | .replaced => "text_replace"
  | .backwards => "text_reverse"
  | .defineWithResult => "procedures_defreturn"
  | .defineWithoutResult => "procedures_defnoreturn"
  | .callForResult => "procedures_callreturn"
  | .callForEffect => "procedures_callnoreturn"
  | .earlyReturn => "procedures_ifreturn"

/-- All kinds. -/
def all : List Kind :=
  [.number, .arithmetic, .comparison, .connection, .negation, .truth, .null, .getVariable,
    .setVariable, .conditional, .conditionalLoop, .countedLoop, .listLoop, .emptyList, .listOf,
    .repeatedItem, .listLength, .listIsEmpty, .listIndexOf, .getIndex, .setIndex, .sublist,
    .sorted, .split, .reversed, .text, .joined, .append, .textLength, .textIsEmpty, .textIndexOf,
    .letterAt, .substring, .changeCase, .trim, .print, .promptWithSocket, .prompt, .occurrences,
    .replaced, .backwards, .defineWithResult, .defineWithoutResult, .callForResult,
    .callForEffect, .earlyReturn]

/-- The kind of a label. -/
def ofLabel? (label : String) : Option Kind := all.find? (·.label == label)

/-- The kind that a value names, if any. -/
def ofValue? (value : Value) : Attempt (Option Kind) := do
  value.atom
  match value with
  | .text label => return ofLabel? label
  | _ => return none

/-- The labels of all kinds, sorted. -/
def labels : List String := (all.map label).mergeSort fun a b => a ≤ b

/-- Whether a value names a kind that defines a procedure. -/
def isDefinition (value : Value) : Bool :=
  value.isText (label .defineWithResult) || value.isText (label .defineWithoutResult)

/-- Checks that every node of a description names a kind. -/
def checkAll : List Value → Attempt Unit
  | [] => .ok ()
  | node :: rest => do
      let kind ← node.member "type"
      if (← ofValue? kind).isNone then reject (.unknownKind (← node.member "id") kind)
      checkAll rest

open Gen in
/-- The generator of a kind. -/
def generate {n : Nat} : Kind → Setting n → Block n → Gen n Outcome
  | .number => Gen.number
  | .arithmetic => Gen.arithmetic
  | .comparison => Gen.comparison
  | .connection => Gen.connection
  | .negation => Gen.negation
  | .truth => Gen.truth
  | .null => Gen.null
  | .getVariable => Gen.getVariable
  | .setVariable => Gen.setVariable
  | .conditional => Gen.conditional
  | .conditionalLoop => Gen.conditionalLoop
  | .countedLoop => Gen.countedLoop
  | .listLoop => Gen.listLoop
  | .emptyList => Gen.emptyList
  | .listOf => Gen.listOf
  | .repeatedItem => Gen.repeatedItem
  | .listLength => Gen.lengthOf "[]"
  | .listIsEmpty => Gen.isEmpty "[]"
  | .listIndexOf => Gen.listIndexOf
  | .getIndex => Gen.getIndex
  | .setIndex => Gen.setIndex
  | .sublist => Gen.part "LIST" "[]"
  | .sorted => Gen.sorted
  | .split => Gen.split
  | .reversed => Gen.reversed
  | .text => Gen.text
  | .joined => Gen.joined
  | .append => Gen.append
  | .textLength => Gen.lengthOf emptyText
  | .textIsEmpty => Gen.isEmpty emptyText
  | .textIndexOf => Gen.textIndexOf
  | .letterAt => Gen.letterAt
  | .substring => Gen.part "STRING" emptyText
  | .changeCase => Gen.chosenMethod "CASE" caseMethods
  | .trim => Gen.chosenMethod "MODE" trimMethods
  | .print => Gen.print
  | .promptWithSocket => Gen.prompt
  | .prompt => Gen.prompt
  | .occurrences => Gen.occurrences
  | .replaced => Gen.replaced
  | .backwards => Gen.backwards
  | .defineWithResult => Gen.definition
  | .defineWithoutResult => Gen.definition
  | .callForResult => Gen.callForResult
  | .callForEffect => Gen.callForEffect
  | .earlyReturn => Gen.earlyReturn

end Kind

end BlockScript
