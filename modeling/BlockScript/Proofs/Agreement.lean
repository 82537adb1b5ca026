import BlockScript.Listing

/-! # Programs that read alike

Generators read a block by the names of its fields, of its mutation and of its sockets, and never
list what there is. So two programs whose blocks give the same answers have the same code, however
their sockets and fields are stored (`Kind.generate_congr`, `Setting.outcome_congr`,
`Setting.emit_congr`).
-/

namespace BlockScript

variable {n : Nat}

/-- Two blocks give the same answers to all that generators ask of a block. -/
structure Block.Alike (block other : Block n) : Prop where
  kind : block.kind = other.kind
  id : block.id = other.id
  fields : ∀ name, block.fields.get? name = other.fields.get? name
  mutation : ∀ name, block.mutation.get? name = other.mutation.get? name
  input? : ∀ socket, block.input? socket = other.input? socket
  next : block.next = other.next

namespace Block.Alike

variable {block other : Block n} (alike : block.Alike other)

include alike

/-- Blocks that read alike have the same fields. -/
theorem has (name : String) : block.fields.has name = other.fields.has name := by
  unfold Table.has
  rw [alike.fields]

theorem field? (name : String) : block.field? name = other.field? name := by
  unfold Block.field?
  rw [alike.fields]

theorem field (name : String) : block.field name = other.field name := by
  unfold Block.field
  rw [alike.field?]

/-- They have the same values for them, and the same defaults. -/
theorem fieldOr (name default : String) : block.fieldOr name default = other.fieldOr name default := by
  unfold Block.fieldOr
  rw [alike.field?]

/-- They have the same number of items. -/
theorem itemCount : block.itemCount = other.itemCount := by
  unfold Block.itemCount
  rw [alike.mutation]

/-- They have the same arguments. -/
theorem arguments : block.arguments = other.arguments := by
  unfold Block.arguments
  rw [alike.mutation]

/-- The code that is inserted for them is the same. -/
theorem instrument (template : Option String) :
    instrument template block = BlockScript.instrument template other := by
  unfold BlockScript.instrument
  rw [alike.id]

/-- Options that go together with no code are rejected in the same way. -/
theorem unhandled {α : Type} (combination : Table Value) :
    (Gen.unhandled block combination : Gen n α) = Gen.unhandled other combination := by
  unfold Gen.unhandled
  rw [alike.id, alike.kind]

end Block.Alike

/-- Two settings give the same answers to all that the generators of blocks ask of a program,
whichever blocks are at the top level. -/
structure Setting.Congruent (setting other : Setting n) : Prop where
  blocks : ∀ ref, (setting.block ref).Alike (other.block ref)
  usedVariables : setting.workspace.usedVariables = other.workspace.usedVariables
  oneBased : setting.oneBased = other.oneBased
  options : setting.options = other.options

/-- Two settings give the same answers to all that generators ask of a program. -/
structure Setting.Alike (setting other : Setting n) : Prop where
  blocks : ∀ ref, (setting.block ref).Alike (other.block ref)
  roots : setting.workspace.roots = other.workspace.roots
  usedVariables : setting.workspace.usedVariables = other.workspace.usedVariables
  developerVariables : setting.workspace.developerVariables = other.workspace.developerVariables
  oneBased : setting.oneBased = other.oneBased
  options : setting.options = other.options

/-- Settings that are alike agree on all blocks. -/
theorem Setting.Alike.congruent {setting other : Setting n} (alike : setting.Alike other) :
    setting.Congruent other :=
  ⟨alike.blocks, alike.usedVariables, alike.oneBased, alike.options⟩

namespace Gen

variable {setting other : Setting n} (alike : setting.Congruent other)

include alike

/-- A chain is followed in the same way. -/
theorem follow_congr (steps : Nat) (seen : List (Fin n)) (ref : Fin n) :
    setting.workspace.graph.follow steps seen ref = other.workspace.graph.follow steps seen ref := by
  induction steps generalizing seen ref with
  | zero => rfl
  | succ steps ih =>
      have next : (setting.workspace.graph.block ref).next = (other.workspace.graph.block ref).next :=
        (alike.blocks ref).next
      simp only [Graph.follow, next, ih]

/-- Chains are the same. -/
theorem chain_congr (first : Option (Fin n)) : chain setting first = chain other first := by
  cases first with
  | none => rfl
  | some first =>
      unfold chain Graph.chain
      simp only [follow_congr alike, (alike.blocks _).id, (alike.blocks _).kind]

variable {block twin : Block n} (same : block.Alike twin)

include same

/-- What is plugged into a socket is asked for in the same way. -/
theorem child_congr (socket : String) : child setting block socket = child other twin socket := by
  unfold child
  simp only [same.input?, same.id, (alike.blocks _).id, (alike.blocks _).kind]

/-- What is plugged into a socket is the same. -/
theorem value_congr (socket : String) (order : Order) (default : String) :
    value setting block socket order default = value other twin socket order default := by
  unfold value
  rw [child_congr alike same]

/-- So are the statements of a socket. -/
theorem statements_congr (socket : String) :
    statements setting block socket = statements other twin socket := by
  unfold statements
  rw [same.input?, chain_congr alike]

theorem loopBody_congr (socket : String) :
    loopBody setting block socket = loopBody other twin socket := by
  unfold loopBody
  rw [statements_congr alike same, alike.options, same.instrument]

/-- So is an offset. -/
theorem index_congr (socket : String) (delta : Int) (negate : Bool) :
    index setting block socket delta negate = index other twin socket delta negate := by
  unfold index
  simp only [alike.oneBased, value_congr alike same]

/-- So is a slice. -/
theorem slice_congr : slice setting block = slice other twin := by
  simp only [slice, sliceStart, sliceEnd, fromStart, fromEnd, index_congr alike same, same.field,
    same.unhandled]

theorem offset_congr (position : Position) :
    offset setting block position = offset other twin position := by
  cases position <;> simp only [offset, fromStart, fromEnd, index_congr alike same]

theorem numbered_congr (stem default : String) (count : Int) :
    numbered setting block stem default count = numbered other twin stem default count := by
  simp only [numbered, value_congr alike same]

/-- So is a branch of a conditional. -/
theorem branch_congr (number : Nat) : branch setting block number = branch other twin number := by
  simp only [branch, value_congr alike same, statements_congr alike same]

/-- So is a definition. -/
theorem definition_congr : definition setting block = definition other twin := by
  simp only [definition, definitionBody, same.arguments, alike.usedVariables, same.field,
    alike.options, same.instrument, statements_congr alike same, value_congr alike same, same.id,
    same.kind]

end Gen

/-- **Blocks that read alike have the same generator**, whatever their kind is. -/
theorem Kind.generate_congr {setting other : Setting n} (alike : setting.Congruent other)
    {block twin : Block n} (same : block.Alike twin) (kind : Kind) :
    kind.generate setting block = kind.generate other twin := by
  have value := Gen.value_congr alike same
  have child := Gen.child_congr alike same
  have loopBody := Gen.loopBody_congr alike same
  have offset := Gen.offset_congr alike same
  have numbered := Gen.numbered_congr alike same
  cases kind with
  | defineWithResult | defineWithoutResult => exact Gen.definition_congr alike same
  | sublist | substring =>
      simp only [generate, Gen.part, value, Gen.slice_congr alike same]
  | conditional =>
      have branch : Gen.branch setting block = Gen.branch other twin :=
        funext (Gen.branch_congr alike same)
      simp only [generate, Gen.conditional, Gen.otherwise, branch, same.mutation,
        Gen.statements_congr alike same]
  | conditionalLoop | countedLoop | listLoop =>
      simp only [generate, Gen.conditionalLoop, Gen.loopCondition, Gen.countedLoop, Gen.rounds,
        Gen.listLoop, value, loopBody, same.has, same.field, same.fieldOr, same.unhandled]
  | getIndex | setIndex | letterAt =>
      simp only [generate, Gen.getIndex, Gen.itemAt, Gen.itemAtRandom, Gen.setIndex,
        Gen.setAtRandom, Gen.listTwice, Gen.setAt, Gen.letterAt, value, child, offset,
        same.fieldOr, same.unhandled]
  | _ =>
      simp only [generate, Gen.number, Gen.arithmetic, Gen.comparison, Gen.connection, Gen.negation,
        Gen.truth, Gen.null, Gen.getVariable, Gen.setVariable, Gen.emptyList, Gen.listOf,
        Gen.repeatedItem, Gen.lengthOf, Gen.isEmpty, Gen.listIndexOf, Gen.sorted, Gen.split,
        Gen.reversed, Gen.text, Gen.joined, Gen.append, Gen.textIndexOf, Gen.chosenMethod, Gen.print,
        Gen.prompt, Gen.promptMessage, Gen.occurrences, Gen.replaced, Gen.backwards, Gen.call,
        Gen.callForResult, Gen.callForEffect, Gen.earlyReturn, value, numbered, same.has, same.field?,
        same.field, same.fieldOr, same.itemCount, same.arguments, same.mutation, same.unhandled,
        same.id, same.kind, alike.oneBased]

namespace Setting

section Congruent

variable {setting other : Setting n} (alike : setting.Congruent other)

include alike

/-- **Blocks come to the same.** -/
theorem outcome_congr (depth : Nat) : setting.outcome depth = other.outcome depth := by
  induction depth with
  | zero =>
      funext ref
      simp only [outcome, (alike.blocks ref).id, (alike.blocks ref).kind]
  | succ depth ih =>
      funext ref
      simp only [outcome, (alike.blocks ref).id, (alike.blocks ref).kind, ih,
        Kind.generate_congr alike (alike.blocks ref)]

/-- The blocks at the top come to the same pieces. -/
theorem pieces_congr (tops : List (Fin n)) : Gen.pieces setting tops = Gen.pieces other tops := by
  induction tops with
  | nil => rfl
  | cons top rest ih =>
      simp only [Gen.pieces, (alike.blocks top).id, (alike.blocks top).kind, ih,
        Gen.chain_congr alike]

end Congruent

/-- **Programs that read alike have the same listing**, or fail in the same way. -/
theorem emit_congr {setting other : Setting n} (alike : setting.Alike other) :
    setting.emit = other.emit := by
  have program : Gen.program setting = Gen.program other := by
    simp only [Gen.program, alike.usedVariables, alike.developerVariables, alike.roots,
      pieces_congr alike.congruent]
  simp only [emit, run, program, outcome_congr alike.congruent, alike.roots]

end Setting

end BlockScript
