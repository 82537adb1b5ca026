import BlockScript.Proofs.Body
import BlockScript.Proofs.Forest.Check
import BlockScript.Proofs.FrontEnds
import BlockScript.Proofs.Number.Integer

/-! # Numeric fields

A number block and a counted loop each read a number from a field, which may hold any value. An
integer of a number block becomes the literal of the number of double width next to it
(`Setting.integer_literal`). A value that is no number is a reason to reject the program, with two
exceptions (`NumericField.settled_throughout`). An integer beyond all numbers of double width breaks
the generation if it is the number of a block. And a verdict names the value, so none can be given
where the value holds an integer of too many digits; no such value is ever read from a text.
-/

namespace BlockScript

variable {n : Nat} {value id : Value}

namespace Value

/-- An integer beyond the numbers of double width. -/
def IsTooLarge (value : Value) : Prop :=
  ∃ k : Int, value = .int k ∧ Binary64.overflow ≤ k.natAbs

/-- The only values too large to be read as numbers are such integers. -/
theorem toReal_eq_tooLarge_iff : value.toReal = .error .tooLarge ↔ value.IsTooLarge := by
  constructor
  · intro failed
    cases value with
    | int k =>
        refine ⟨k, rfl, ?_⟩
        by_contra small
        rw [toReal_int (not_le.mp small)] at failed
        cases failed
    | text chars =>
        rw [toReal] at failed
        split at failed <;> cases failed
    | null | bool | real | list | object => cases failed
  · rintro ⟨k, rfl, large⟩
    rw [toReal, Binary64.ofInt_eq_infinite large]

/-- What stands for a number can be written. -/
theorem isSome_display?_of_toReal {x : Binary64} (read : value.toReal = .ok x) :
    value.display?.isSome = true := by
  cases value with
  | int k =>
      have small : k.natAbs < Binary64.overflow := by
        by_contra large
        rw [toReal_eq_tooLarge_iff.mpr ⟨k, rfl, not_lt.mp large⟩] at read
        cases read
      have short : k.natAbs < 10 ^ Numeral.greatestLength := small.trans (by decide +kernel)
      rw [display?, shown?, Numeral.ofWhole?, if_pos short]
      · rfl
      · intro chars same
        cases same
  | null | bool | real | text => rfl
  | list | object => cases read

/-- A value is written as running text if it is for a diagnostic. -/
theorem isSome_display? : value.display?.isSome = value.shown?.isSome := by
  cases value <;> rfl

end Value

namespace Block

variable {block : Block n} {name : String}

/-- A field that is there has its value, also if that is null. -/
theorem field_of_get? (given : block.fields.get? name = some value) :
    block.field name = value := by
  unfold field field?
  rw [given]
  cases value <;> rfl

end Block

namespace Setting

variable {setting : Setting n} {ref : Fin n} {kind : Kind} {pass after : Pass n}

/-- A block that is not active comes to what the generator of its kind comes to within it. -/
theorem run_outcome_of_run (has : setting.Has ref kind) (idle : ref ∉ pass.active) {depth : Nat}
    {result : Attempt Outcome}
    (ran : ((kind.generate setting (setting.block ref)).runWith (setting.outcome depth)).run.run
      { pass with active := ref :: pass.active } = (result, after)) :
    (setting.outcome (depth + 1) ref).run.run pass =
      (result, { after with active := after.active.erase ref }) := by
  have known : Kind.ofValue? (setting.block ref).kind = .ok (some kind) := by
    rw [has]
    exact congrArg Except.ok kind.ofLabel?_label
  have admitted :
      setting.entry ref pass.active = .ok (kind.generate setting (setting.block ref)) := by
    unfold entry
    simp only [known]
    exact if_neg (mt List.contains_iff_mem.mp idle)
  rw [run_outcome_succ, admitted]
  dsimp only
  rw [Pass.run_within, ran]

/-- A block whose generator asks for nothing leaves the pass as it is. -/
theorem run_outcome_of_lift (has : setting.Has ref kind) (idle : ref ∉ pass.active)
    {result : Attempt Outcome}
    (generated : kind.generate setting (setting.block ref) = Gen.lift result) (depth : Nat) :
    (setting.outcome (depth + 1) ref).run.run pass = (result, pass) := by
  have ran : ((kind.generate setting (setting.block ref)).runWith (setting.outcome depth)).run.run
      { pass with active := ref :: pass.active } =
        (result, { pass with active := ref :: pass.active }) := by
    rw [generated]
    cases result <;> rfl
  rw [run_outcome_of_run has idle ran, List.erase_cons_head]

/-- A number block with a number comes to its literal. -/
theorem run_number {x : Binary64} (has : setting.Has ref .number) (idle : ref ∉ pass.active)
    (read : (((setting.block ref).field? "NUM").getD (.int 0)).toReal = .ok x) (depth : Nat) :
    (setting.outcome (depth + 1) ref).run.run pass =
      (.ok (.expression (Gen.numberLiteral x)), pass) := by
  refine run_outcome_of_lift has idle ?_ depth
  simp only [Kind.generate, Gen.number, read, Gen.lift]

/-- **The literals of integers.** A number block with an integer below `10 ^ 308` in magnitude comes
to the literal of an integer, with the sign of the given one: the one of double width closest to it,
of two the one with the even significand. This is the given one exactly if it has no more than
fifty-three significant bits, as all those up to `2 ^ 53` do. -/
theorem integer_literal (has : setting.Has ref .number) (idle : ref ∉ pass.active) {k : Int}
    (given : (setting.block ref).fields.get? "NUM" = some (.int k)) (small : k.natAbs < 10 ^ 308)
    (depth : Nat) :
    ∃ m : Int,
      (setting.outcome (depth + 1) ref).run.run pass =
        (.ok (.expression ⟨toString m, if k < 0 then .unarySign else .atomic⟩), pass) ∧
      Binary64.Rounds k (.ofInt k) m ∧ (m = k ↔ Binary64.IsShort k) ∧
      (k.natAbs ≤ 2 ^ 53 → m = k) := by
  have bounded : k.natAbs < Binary64.overflow := small.trans (by decide +kernel)
  have field : (setting.block ref).field? "NUM" = some (.int k) := by
    unfold Block.field?
    rw [given]
  have read : (((setting.block ref).field? "NUM").getD (.int 0)).toReal = .ok (.ofInt k) := by
    rw [field]
    exact Value.toReal_int bounded
  obtain ⟨m, rounds, exactly, sign⟩ := Binary64.rounds_ofInt bounded
  refine ⟨m, ?_, rounds, exactly, fun near => exactly.mpr (Binary64.isShort_of_le near)⟩
  rw [run_number has idle read, Gen.numberLiteral_of_integer rounds.finite]
  simp only [sign]

/-- A program of one number. -/
def integerSample (k : Int) : Setting 1 := .ofBlocks #v[.ofKind .number [("NUM", .int k)] []] []

theorem integer_literal_integerSample :
    (integerSample (-(2 ^ 53 + 2))).Has (Fin.last 0) .number ∧
    ((integerSample (-(2 ^ 53 + 2))).block (Fin.last 0)).fields.get? "NUM" =
      some (.int (-(2 ^ 53 + 2))) ∧
    (-(2 ^ 53 + 2) : Int).natAbs < 10 ^ 308 ∧ Binary64.IsShort (-(2 ^ 53 + 2)) ∧
    ((integerSample (-(2 ^ 53 + 2))).outcome 1 (Fin.last 0)).run.run (Pass.start Names.start) =
      (.ok (.expression ⟨"-9007199254740994", .unarySign⟩), Pass.start Names.start) := by
  have small : (-(2 ^ 53 + 2) : Int).natAbs < 10 ^ 308 := by decide +kernel
  have short : Binary64.IsShort (-(2 ^ 53 + 2)) := ⟨2 ^ 52 + 1, 1, by decide, by decide⟩
  have has : (integerSample (-(2 ^ 53 + 2))).Has (Fin.last 0) .number := rfl
  have idle : Fin.last 0 ∉ (Pass.start Names.start : Pass 1).active := List.not_mem_nil
  obtain ⟨m, ran, -, exactly, -⟩ := integer_literal has idle rfl small 0
  obtain rfl := exactly.mpr short
  exact ⟨has, rfl, small, short, ran⟩

/-- An integer need not keep its value: the least one of fifty-four significant bits does not. -/
theorem integer_literal_changes :
    (integerSample (2 ^ 53 + 1)).Has (Fin.last 0) .number ∧
    ((integerSample (2 ^ 53 + 1)).block (Fin.last 0)).fields.get? "NUM" =
      some (.int (2 ^ 53 + 1)) ∧
    (2 ^ 53 + 1 : Int).natAbs < 10 ^ 308 ∧
    toString (2 ^ 53 + 1 : Int) = "9007199254740993" ∧
    (((integerSample (2 ^ 53 + 1)).outcome 1 (Fin.last 0)).run.run
      (Pass.start Names.start)).1.toOption =
        some (.expression ⟨"9007199254740992", .atomic⟩) := by
  refine ⟨rfl, rfl, by decide +kernel, by decide +kernel, by decide +kernel⟩

end Setting

/-! ## Programs of one block -/

/-- A program without variables whose only top-level block is followed by no other asks for that
block, and its body is what the block comes to. -/
theorem Gen.program_of_single {setting : Setting n} {ref : Fin n}
    (users : setting.workspace.usedVariables = [])
    (developers : setting.workspace.developerVariables = [])
    (roots : setting.workspace.roots = [ref])
    (plain : Kind.isDefinition (setting.block ref).kind = false)
    (alone : setting.workspace.graph.chain ref = ⟨[ref], none⟩) :
    program setting = .ask (.block ref) fun outcome =>
      .done ⟨[], [], [⟨⟨(setting.block ref).id, (setting.block ref).kind⟩,
        String.join [outcome.asStatement]⟩]⟩ := by
  unfold program
  rw [users, developers, roots]
  simp only [pieces, plain, chain, alone, each, statement, Gen.block]
  refine congrArg (Gen.ask (.block ref)) (funext fun outcome => ?_)
  cases outcome <;> rfl

/-- A program that asks for one block and for nothing else comes to a listing if the block comes to
anything, and fails as the block does. -/
theorem Setting.run_emit_of_ask {setting : Setting n} {ref : Fin n} {parts : Outcome → Parts}
    (single : Gen.program setting = .ask (.block ref) fun outcome => .done (parts outcome))
    (pass : Pass n) :
    ∃ log, ∃ listing : Outcome → Listing, (setting.emit.run.run pass).1 =
      ((setting.outcome n ref).run.run { Pass.start Names.start with log := log }).1.map
        listing := by
  obtain ⟨log, emitted⟩ := setting.run_emit pass
  unfold run at emitted
  rw [single, run_ask] at emitted
  dsimp only [Request.meet] at emitted
  refine ⟨log, ?_⟩
  rw [emitted]
  rcases (setting.outcome n ref).run.run _ with ⟨fault | outcome, after⟩
  · exact ⟨fun outcome => Listing.assemble after (parts outcome), rfl⟩
  · exact ⟨fun outcome => Listing.assemble after (parts outcome), rfl⟩

theorem Program.result_generate (program : Program) (options : Options) :
    (program.generate options).result =
      ((⟨program.workspace, options⟩ : Setting program.size).emit.run.run
        (Pass.start Names.start)).1 := rfl

/-! ## Fields -/

/-- A field that is read as a number. -/
inductive NumericField where
  /-- The number of a number block. -/
  | literal
  /-- The number of rounds of a counted loop. -/
  | rounds

namespace NumericField

/-- The kind of block that has the field. -/
def kind : NumericField → Kind
  | .literal => .number
  | .rounds => .countedLoop

/-- The name of the field. -/
def name : NumericField → String
  | .literal => "NUM"
  | .rounds => "TIMES"

/-- The failure of a value that breaks the generation: as the number of a block, an integer beyond
the numbers of double width; and otherwise a value that cannot be written in a verdict. -/
def fault? : NumericField → Value → Option Fault
  | .literal, .int k => if Binary64.overflow ≤ k.natAbs then some .tooLarge else none
  | _, value => if value.display?.isSome then none else some .tooManyDigits

/-- What comes of the value of a field: a result, or the verdict that the value is not handled,
which names the block, the field and the value. Only a value that breaks the generation comes to
anything else. -/
inductive Settled {β : Type} (field : NumericField) (id value : Value) : Attempt β → Prop
  | result (result : β) : field.fault? value = none → Settled field id value (.ok result)
  | refused (verdict : Rejection) : field.fault? value = none →
      verdict.cause = .unhandled id (.text field.kind.label) [(field.name, value)] →
        Settled field id value (.error (.rejected verdict))
  | broken (fault : Fault) : field.fault? value = some fault →
      Settled field id value (.error fault)

variable {field : NumericField} {α β : Type}

/-- What is made of a result makes no difference. -/
theorem Settled.map {attempt : Attempt α} (settled : field.Settled id value attempt) (f : α → β) :
    field.Settled id value (attempt.map f) := by
  cases settled with
  | result result contained => exact .result (f result) contained
  | refused verdict contained cause => exact .refused verdict contained cause
  | broken fault breaks => exact .broken fault breaks

/-- A value that breaks the generation comes to that failure. -/
theorem Settled.eq_of_fault? {attempt : Attempt α} (settled : field.Settled id value attempt)
    {fault : Fault} (breaks : field.fault? value = some fault) : attempt = .error fault := by
  cases settled with
  | result _ contained | refused _ contained =>
      rw [contained] at breaks
      cases breaks
  | broken other same =>
      rw [same] at breaks
      cases breaks
      rfl

/-- What stands for a number breaks nothing. -/
theorem fault?_of_toReal {x : Binary64} (read : value.toReal = .ok x) :
    field.fault? value = none := by
  have told := Value.isSome_display?_of_toReal read
  unfold fault?
  split
  · next k =>
    refine if_neg fun large => ?_
    rw [Value.toReal_eq_tooLarge_iff.mpr ⟨k, rfl, large⟩] at read
    cases read
  · exact if_pos told

/-- An integer that is too large breaks the generation as the number of a block. -/
theorem fault?_of_isTooLarge (large : value.IsTooLarge) :
    NumericField.literal.fault? value = some .tooLarge := by
  obtain ⟨k, rfl, beyond⟩ := large
  rw [fault?, if_pos beyond]

/-- Apart from integers that are too large, a value breaks the generation if it cannot be
written. -/
theorem fault?_eq (tame : field = .literal → ∀ k, value ≠ .int k) :
    field.fault? value = if value.display?.isSome then none else some .tooManyDigits := by
  unfold fault?
  split
  · next k => exact absurd rfl (tame rfl k)
  · rfl

/-- A value that was read from a text breaks the generation only if it is too large. -/
theorem fault?_of_readable (readable : Json.Readable value)
    (tame : field.fault? value ≠ some .tooLarge) : field.fault? value = none := by
  have told := Json.isSome_shown?_of_readable readable
  rw [← Value.isSome_display?] at told
  unfold fault? at tame ⊢
  split
  · next k => exact if_neg fun large => tame (if_pos large)
  · exact if_pos told

/-- A verdict on a value can be given if the value can be written. -/
theorem isSome_message? (field : NumericField) (id value : Value) :
    (Cause.unhandled id (.text field.kind.label) [(field.name, value)]).message?.isSome =
      value.display?.isSome := by
  have named : (Value.text field.kind.label).display? = some field.kind.label := rfl
  cases shown : value.display? with
  | some text => simp [Cause.message?, Cause.option?, shown, named]
  | none => simp [Cause.message?, Cause.option?, shown]

/-- A value that is not handled is refused, or breaks the generation. -/
theorem settled_unhandled (id : Value)
    (fault : field.fault? value = if value.display?.isSome then none else some .tooManyDigits) :
    field.Settled (β := β) id value
      (reject (.unhandled id (.text field.kind.label) [(field.name, value)])) := by
  rw [← field.isSome_message? id] at fault
  rcases reject_cases β (.unhandled id (.text field.kind.label) [(field.name, value)])
    with ⟨verdict, rejected, cause⟩ | ⟨failed, untold⟩
  · rw [rejected]
    refine .refused verdict ?_ cause
    rw [fault, ← cause, verdict.written]
    rfl
  · rw [failed]
    refine .broken _ ?_
    rw [fault, untold]
    rfl

/-! ## Blocks -/

section Blocks

variable {setting : Setting n} {block : Block n} {ref : Fin n} {pass : Pass n}

/-- The number of a block is read at once, and becomes an expression. -/
theorem settled_number (setting : Setting n) (kind : block.kind = .text Kind.number.label)
    (given : block.fields.get? "NUM" = some value) :
    ∃ result, Gen.number setting block = Gen.lift result ∧
      NumericField.literal.Settled block.id value result ∧ result ≠ .ok .nothing := by
  unfold Gen.number
  rw [Block.field_of_get? given]
  by_cases null : value = .null
  · -- Null stands for zero.
    subst null
    have zero : (block.field? "NUM").getD (.int 0) = .int 0 := by
      unfold Block.field?
      rw [given]
      rfl
    rw [zero]
    exact ⟨.ok _, rfl, .result _ rfl, by simp⟩
  have taken : (block.field? "NUM").getD (.int 0) = value := by
    unfold Block.field?
    rw [given]
    cases value with
    | null => exact absurd rfl null
    | bool | int | real | text | list | object => rfl
  rw [taken]
  split
  · next x read => exact ⟨.ok _, rfl, .result _ (fault?_of_toReal read), by simp⟩
  · next failed =>
    exact ⟨.error .tooLarge, rfl,
      .broken _ (fault?_of_isTooLarge (Value.toReal_eq_tooLarge_iff.mp failed)), by simp⟩
  · next fault other failed =>
    -- An integer is read or is too large, so what is left is named in a verdict.
    have tame : NumericField.literal = .literal → ∀ k, value ≠ .int k := by
      rintro - k rfl
      by_cases large : Binary64.overflow ≤ k.natAbs
      · rw [Value.toReal_eq_tooLarge_iff.mpr ⟨k, rfl, large⟩] at failed
        cases failed
        exact other rfl
      · rw [Value.toReal_int (not_le.mp large)] at failed
        cases failed
    refine ⟨reject (.unhandled block.id block.kind [("NUM", value)]), rfl, ?_, by simp [reject]⟩
    rw [kind]
    exact settled_unhandled block.id (fault?_eq tame)

/-- The rounds of a counted loop are what its field is read as, or the field is not handled. -/
theorem rounds_eq (given : block.fields.get? "TIMES" = some value) :
    Gen.rounds setting block =
      match value.toReal >>= Value.wholeOfReal with
      | .ok count => .done (toString count)
      | .error _ => Gen.unhandled block [("TIMES", value)] := by
  have present : block.fields.has "TIMES" = true := by
    rw [Table.has, given]
    rfl
  cases read : value.toReal >>= Value.wholeOfReal with
  | error => simp only [Gen.rounds, present, ↓reduceIte, Block.field_of_get? given, read]
  | ok =>
      simp only [Gen.rounds, present, ↓reduceIte, Block.field_of_get? given, read,
        Gen.pure_eq_done]

/-- A counted loop without a body asks for nothing but its counter, once its rounds are read. -/
theorem countedLoop_eq {count : Int} {trap : String}
    (given : block.fields.get? "TIMES" = some value) (unplugged : block.input? "DO" = none)
    (trapped : instrument setting.options.loopTrap block = .ok trap)
    (read : value.toReal >>= Value.wholeOfReal = .ok count) :
    ∃ code : String → String, Gen.countedLoop setting block =
      .ask (.fresh .user (.text "count")) fun counter => .done (.statement (code counter)) := by
  have rounds : Gen.rounds setting block = .done (toString count) := by
    rw [rounds_eq given, read]
  obtain ⟨body, plain⟩ : ∃ body, Gen.loopBody setting block "DO" = .done body := by
    unfold Gen.loopBody Gen.statements
    rw [unplugged, trapped]
    exact ⟨_, rfl⟩
  unfold Gen.countedLoop
  rw [rounds, plain]
  exact ⟨_, rfl⟩

/-- The number of rounds is read at once, and the loop is a statement. -/
theorem settled_countedLoop (kind : block.kind = .text Kind.countedLoop.label)
    (given : block.fields.get? "TIMES" = some value) (unplugged : block.input? "DO" = none)
    {trap : String} (trapped : instrument setting.options.loopTrap block = .ok trap)
    (visit : Fin n → Emission n Outcome) (pass : Pass n) :
    ∃ result after, ((Gen.countedLoop setting block).runWith visit).run.run pass = (result, after) ∧
      NumericField.rounds.Settled block.id value result ∧ result ≠ .ok .nothing := by
  rcases read : value.toReal >>= Value.wholeOfReal with fault | count
  · have rounds : Gen.rounds setting block =
        Gen.lift (reject (.unhandled block.id block.kind [("TIMES", value)])) := by
      rw [rounds_eq given, read]
      rfl
    refine ⟨reject (.unhandled block.id block.kind [("TIMES", value)]), pass, ?_, ?_,
      by simp [reject]⟩
    · unfold Gen.countedLoop
      rw [rounds]
      rfl
    · rw [kind]
      exact settled_unhandled block.id (fault?_eq fun other => by cases other)
  · obtain ⟨code, generated⟩ := countedLoop_eq given unplugged trapped read
    obtain ⟨log, counted⟩ := Request.run_fresh_of_text ⟨false, .user, _, rfl, "count"⟩ pass
    obtain ⟨x, number, -⟩ := Attempt.bind_eq_ok.mp read
    rw [generated, Setting.run_ask]
    dsimp only [Request.meet]
    rw [counted]
    exact ⟨_, _, rfl, .result _ (fault?_of_toReal number), by simp⟩

/-- **What comes of the value of a field**, whatever it is, when the code of its block is made. -/
theorem settled_outcome (has : setting.Has ref field.kind) (idle : ref ∉ pass.active)
    (given : (setting.block ref).fields.get? field.name = some value)
    (bare : field = .rounds → (setting.block ref).input? "DO" = none ∧
      ∃ trap, instrument setting.options.loopTrap (setting.block ref) = .ok trap) (depth : Nat) :
    field.Settled (setting.block ref).id value
        ((setting.outcome (depth + 1) ref).run.run pass).1 ∧
      ((setting.outcome (depth + 1) ref).run.run pass).1 ≠ .ok .nothing := by
  cases field with
  | literal =>
      obtain ⟨result, generated, settled, code⟩ := settled_number setting has given
      rw [Setting.run_outcome_of_lift has idle generated]
      exact ⟨settled, code⟩
  | rounds =>
      obtain ⟨unplugged, trap, trapped⟩ := bare rfl
      obtain ⟨result, after, ran, settled, code⟩ := settled_countedLoop has given unplugged trapped
        (setting.outcome depth) { pass with active := ref :: pass.active }
      rw [Setting.run_outcome_of_run has idle ran]
      exact ⟨settled, code⟩

end Blocks

/-! ## Programs -/

/-- A node with nothing but the field. -/
def node (field : NumericField) (id value : Value) : Value :=
  .object [("id", id), ("type", .text field.kind.label), ("fields", .object [(field.name, value)])]

/-- The description of a program of one such node. -/
def description (field : NumericField) (id value : Value) : Value :=
  .object [("nodes", .list [field.node id value])]

/-- The block of the node. -/
def block (field : NumericField) (id value : Value) : Block 1 :=
  ⟨.text field.kind.label, id, [(field.name, value)], [], [], none⟩

/-- The program of the description. -/
def program (field : NumericField) (id value : Value) : Program :=
  ⟨1, ⟨⟨.ofFn fun _ => field.block id value⟩, [Fin.last 0], [], [], true⟩⟩

/-- A single node is a forest, if it has an id. -/
theorem check_node (atom : id.isAtom = true) (present : id.isTrue = true) :
    Forest.check (.list [field.node id value]) (.list []) = .ok [id] := by
  have same := Value.same_self atom
  have identifies : id.atom = .ok () := by
    unfold Value.atom
    rw [if_pos atom]
  have entered : Forest.addNode [] id = .ok [⟨id, [], 0⟩] := by
    unfold Forest.addNode
    rw [identifies]
    rfl
  have counted : Forest.entries (.list [field.node id value]) (.list []) = .ok [⟨id, [], 0⟩] := by
    unfold Forest.entries
    change ((Forest.addNode [] id >>= fun entries => pure entries) >>= _) = _
    rw [entered]
    rfl
  have identified : Forest.checkIds [id] [field.node id value] = .ok () := by
    change (do
      unless id.isTrue do reject (.missingId (.text field.kind.label))
      if 1 < [id].countP (Value.same · id) then reject (.repeatedId id)
      Forest.checkIds [id] []) = _
    have once : [id].countP (Value.same · id) = 1 := by simp [same]
    rw [if_pos present, once]
    rfl
  have settled : Forest.settle [(⟨id, [], 0⟩ : Forest.Entry)].length [⟨id, [], 0⟩]
      (Forest.rootsOf [⟨id, [], 0⟩]) = ([⟨id, [], 0⟩], 1) := by
    change Forest.settle 1 [⟨id, [], 0⟩] [id] = _
    simp only [Forest.settle, Forest.childrenOf, List.find?_cons, same]
    rfl
  have concluded : Forest.conclude 1 [⟨id, [], 0⟩] = _ := Forest.conclude_eq rfl settled
  have read : [field.node id value].mapM (·.select "id") = .ok [id] := rfl
  rw [if_pos rfl] at concluded
  rw [Forest.check_eq read, identified, counted]
  exact concluded

/-- The description is loaded as the program. -/
theorem ofValue_description (atom : id.isAtom = true) (present : id.isTrue = true) :
    Program.ofValue (field.description id value) = .ok (field.program id value) := by
  have found : [id].filterMap (Forest.indexOf?
      [⟨.text field.kind.label, id, [(field.name, value)], []⟩]) = [Fin.last 0] := by
    simp [Forest.indexOf?, List.findFinIdx?, List.findFinIdx?.go, Value.same_self atom]
  unfold Program.ofValue
  change (Forest.check (.list [field.node id value]) (.list []) >>= _) = _
  rw [check_node atom present]
  change Except.ok (Program.mk 1 ⟨⟨.ofFn fun _ => field.block id value⟩, [id].filterMap
    (Forest.indexOf? [⟨.text field.kind.label, id, [(field.name, value)], []⟩]), [], [], true⟩) = _
  rw [found]
  rfl

/-- The program in a setting with given options. -/
def setting (field : NumericField) (id value : Value) (options : Options) : Setting 1 :=
  ⟨(field.program id value).workspace, options⟩

/-- The block has the value in its field. -/
theorem get?_fields (field : NumericField) (id value : Value) :
    (field.block id value).fields.get? field.name = some value :=
  if_pos rfl

/-- **What comes of the value of a field** when a listing of the program is made. -/
theorem settled_generate (field : NumericField) (id value : Value) {options : Options}
    (untrapped : options.loopTrap = none) :
    field.Settled id value ((field.program id value).generate options).result := by
  have plain : Kind.isDefinition (.text field.kind.label) = false := by cases field <;> rfl
  have users : (field.setting id value options).workspace.usedVariables = [] := by
    cases field <;> rfl
  have roots : (field.setting id value options).workspace.roots = [Fin.last 0] := rfl
  obtain ⟨log, listing, emitted⟩ := Setting.run_emit_of_ask
    (Gen.program_of_single users rfl roots plain rfl) (Pass.start Names.start)
  have has : (field.setting id value options).Has (Fin.last 0) field.kind := rfl
  have idle : Fin.last 0 ∉ ({ Pass.start Names.start with log := log } : Pass 1).active :=
    List.not_mem_nil
  have trapped : instrument (field.setting id value options).options.loopTrap
      ((field.setting id value options).block (Fin.last 0)) = .ok "" := by
    have none : (field.setting id value options).options.loopTrap = none := untrapped
    rw [none]
    rfl
  have settled := (settled_outcome has idle (field.get?_fields id value)
    (fun _ => ⟨rfl, "", trapped⟩) 0).1
  rw [Program.result_generate]
  exact emitted ▸ settled.map listing

/-! ## The service and the command -/

/-- What a request brings was read. -/
theorem readable_of_payload? {request : Service.Request} {data : Value}
    (brought : Service.payload? request = some data) : Json.Readable data := by
  simp only [Service.payload?, Option.bind_eq_bind, Option.bind_eq_some_iff] at brought
  obtain ⟨_, -, _, -, text, -, read⟩ := brought
  cases found : Json.read text with
  | ok other =>
      rw [found] at read
      cases read
      exact Json.readable_of_read found
  | error fault =>
      rw [found] at read
      cases read

/-- **What comes of the value of a field** when the service makes a listing. -/
theorem settled_listing (field : NumericField) (value : Value) (atom : id.isAtom = true)
    (present : id.isTrue = true) (config : Service.Config) (own : Option Bool) :
    field.Settled id value (Service.listing config (field.description id value) own) := by
  have known : Kind.checkAll [field.node id value] = .ok () := by
    cases field <;> rfl
  obtain ⟨oneBased, decided⟩ : ∃ oneBased,
      Service.oneBased config (field.description id value) own = .ok oneBased := by
    unfold Service.oneBased
    split
    · exact ⟨_, rfl⟩
    · exact ⟨_, rfl⟩
  unfold Service.listing
  change field.Settled id value (Kind.checkAll [field.node id value] >>= _)
  rw [known]
  change field.Settled id value (Program.ofValue (field.description id value) >>= _)
  rw [ofValue_description atom present]
  change field.Settled id value (Service.oneBased config (field.description id value) own >>= _)
  rw [decided]
  exact field.settled_generate id value rfl

/-- The id and the value in a description that was read from a text were read too. -/
theorem readable_parts (readable : Json.Readable (field.description id value)) :
    Json.Readable id ∧ Json.Readable value := by
  cases readable with
  | object _ nodes =>
      cases nodes _ (List.mem_singleton_self _) with
      | list each =>
          cases each _ (List.mem_singleton_self _) with
          | object _ members =>
              simp only [List.forall_mem_cons] at members
              obtain ⟨identified, -, fields, -⟩ := members
              cases fields with
              | object _ entries => exact ⟨identified, entries _ (List.mem_singleton_self _)⟩

/-- The details of the verdict can be read, so they can be written. -/
theorem readable_details (field : NumericField) (identified : Json.Readable id)
    (readable : Json.Readable value) : Json.Readable (.object
      (Cause.unhandled id (.text field.kind.label) [(field.name, value)]).details) := by
  have names : ["block", "kind", field.name].Nodup := by cases field <;> decide
  refine .object names ?_
  simp only [Cause.details, List.cons_append, List.nil_append, List.forall_mem_cons]
  exact ⟨identified, .text _, readable, List.forall_mem_nil _⟩

/-- A description whose value cannot be written is not read from any text of it, and neither is
anything that holds the description. -/
theorem shown?_description (untold : value.display? = none) :
    (field.description id value).shown? = none ∧
      (Value.object [("ir", field.description id value)]).shown? = none := by
  have hidden : value.shown? = none := by
    have same : value.display?.isSome = value.shown?.isSome := Value.isSome_display?
    rw [untold] at same
    exact Option.isSome_eq_false_iff.mp same.symm |> Option.isNone_iff_eq_none.mp
  constructor <;> simp [description, node, Value.shown?, Value.shown?.shownItems?,
    Value.shown?.shownMembers?, hidden]

/-- The status of a response: the listing, a refusal, or nothing if the generation broke. -/
theorem Settled.status {attempt : Attempt Listing} (settled : field.Settled id value attempt) :
    (field.fault? value = none →
      (Service.conclude attempt).status = 200 ∨ (Service.conclude attempt).status = 400) ∧
    (field.fault? value = some .tooLarge → (Service.conclude attempt).status = 500) := by
  refine ⟨fun contained => ?_, fun breaks => ?_⟩
  · cases settled with
    | result => exact .inl rfl
    | refused => exact .inr rfl
    | broken fault breaks =>
        rw [contained] at breaks
        cases breaks
  · rw [settled.eq_of_fault? breaks]
    rfl

/-- The exit of the command: a success, a rejection, or none if the generation broke. -/
theorem Settled.exit {options : Options} {invocation : Command.Invocation} {files : Tree}
    (settled : field.Settled id value (Program.listing options (field.description id value)))
    (identified : Json.Readable id) (readable : Json.Readable value)
    (writable : ∀ code spans, (Command.writeAll files [⟨Command.listingPath invocation, code⟩,
      ⟨Command.spanPath invocation, spans⟩]).1 = .ok ()) (debug : Bool) :
    (field.fault? value = some .tooLarge → (Command.carryOut debug files
      (Command.planFor invocation options (field.description id value))).result =
        .error .tooLarge) ∧
    (field.fault? value ≠ some .tooLarge → ∃ code ∈ [0, 2], (Command.carryOut debug files
      (Command.planFor invocation options (field.description id value))).result = .ok code) := by
  refine ⟨fun large => ?_, fun tame => ?_⟩
  · obtain ⟨notices, planned⟩ : ∃ notices, Command.planFor invocation options
        (field.description id value) = Command.stop notices .tooLarge :=
      Command.planFor_of_fault (settled.eq_of_fault? large)
    rw [planned]
    rfl
  generalize made : Program.listing options (field.description id value) = attempt at settled
  cases settled with
  | result listing =>
      obtain ⟨notices, planned⟩ : ∃ notices, Command.planFor invocation options
          (field.description id value) = ⟨notices, Command.finish invocation listing⟩ :=
        Command.planFor_of_listing made
      have written := writable listing.code (Command.spanDocument listing)
      rw [planned]
      simp only [Command.carryOut, Command.finish]
      generalize Command.writeAll files _ = report at written ⊢
      obtain ⟨done, after⟩ := report
      cases written
      exact ⟨0, by decide, rfl⟩
  | refused verdict _ cause =>
      obtain ⟨notices, planned⟩ : ∃ notices, Command.planFor invocation options
          (field.description id value) = Command.stop notices (.rejected verdict) :=
        Command.planFor_of_fault made
      -- The details were read from a text, so they can be shown.
      obtain ⟨details, shown⟩ :
          ∃ details, (Value.object verdict.details).shown? = some details := by
        refine Option.isSome_iff_exists.mp (Json.isSome_shown?_of_readable ?_)
        rw [Rejection.details, cause]
        exact readable_details field identified readable
      rw [planned]
      simp only [Command.stop, shown]
      exact ⟨2, by decide, rfl⟩
  | broken fault breaks =>
      -- What breaks the generation without being too large cannot have been read.
      rw [fault?_of_readable readable tame] at breaks
      cases breaks

/-- What the service makes of a value of a field. A value that is too large for a number block
breaks it, and for every other it responds with a listing or with a refusal. One that cannot be
written reaches it in no text. -/
structure SettledByService (field : NumericField) (id value : Value) : Prop where
  broken : ∀ (config : Service.Config) {request : Service.Request} {members : Table Value},
    Service.payload? request = some (.object members) →
    members.get? "ir" = some (field.description id value) →
    members.get? "oneBasedIndex" = none → field.fault? value = some .tooLarge →
      (Service.respond config request).status = 500
  responded : ∀ (config : Service.Config) {request : Service.Request} {members : Table Value},
    Service.payload? request = some (.object members) →
    members.get? "ir" = some (field.description id value) →
    field.fault? value ≠ some .tooLarge →
      (Service.respond config request).status = 200 ∨ (Service.respond config request).status = 400
  unread : ∀ (config : Service.Config) {request : Service.Request} {layout : Json.Layout},
    layout.Spaced → value.display? = none →
    Json.decode request.body =
      some (Json.write layout 0 (.object [("ir", field.description id value)])) →
      (Service.respond config request).status = 400

/-- What the command makes of a value of a field, when it can write next to its source. A value that
is too large for a number block breaks it, and for every other it exits with success or for a
rejection. One that cannot be written breaks it when the source is read. -/
structure SettledByCommand (field : NumericField) (id value : Value) : Prop where
  read : ∀ {environment : Command.Environment} {files : Tree} {arguments : List String}
    {invocation : Command.Invocation} {text : String},
    Command.Invocation.ofArguments environment.statementPrefix arguments = .ok invocation →
    files.read invocation.source = .ok text →
    Json.read text = .ok (field.description id value) →
    (∀ code spans, (Command.writeAll files [⟨Command.listingPath invocation, code⟩,
      ⟨Command.spanPath invocation, spans⟩]).1 = .ok ()) →
      (field.fault? value = some .tooLarge →
        (Command.run environment files arguments).result = .error .tooLarge) ∧
      (field.fault? value ≠ some .tooLarge →
        (Command.run environment files arguments).result = .ok 0 ∨
          (Command.run environment files arguments).result = .ok 2)
  unread : ∀ {environment : Command.Environment} {files : Tree} {arguments : List String}
    {invocation : Command.Invocation} {layout : Json.Layout},
    Command.Invocation.ofArguments environment.statementPrefix arguments = .ok invocation →
    layout.Spaced → value.display? = none →
    files.read invocation.source = .ok (Json.write layout 0 (field.description id value)) →
      (Command.run environment files arguments).result = .error .tooManyDigits

/-- The response to a description hangs on what comes of its listing. -/
theorem respond_description {config : Service.Config} {request : Service.Request}
    {members : Table Value} (brought : Service.payload? request = some (.object members))
    (described : members.get? "ir" = some (field.description id value)) :
    (∃ own, Service.respond config request =
        Service.conclude (Service.listing config (field.description id value) own)) ∨
      members.get? "oneBasedIndex" ≠ none ∧ (Service.respond config request).status = 400 := by
  have some : (Value.object members).isTrue = true := by
    cases members with
    | nil => cases described
    | cons => rfl
  have passed : Service.respond config request = Service.respondTo config members := by
    simp only [Service.respond, brought, some, Bool.not_true, Bool.false_eq_true, ↓reduceIte]
  have true : (field.description id value).isTrue = true := rfl
  rw [passed]
  unfold Service.respondTo
  simp only [described, Option.getD_some, true, Bool.not_true, Bool.false_eq_true, ↓reduceIte]
  cases given : members.get? "oneBasedIndex" with
  | none => exact .inl ⟨none, rfl⟩
  | some own =>
      cases own with
      | null => exact .inl ⟨none, rfl⟩
      | bool truth => exact .inl ⟨_, rfl⟩
      | int | real | text | list | object => exact .inr ⟨by simp, rfl⟩

/-- **The service settles the value of a field.** -/
theorem settledByService (field : NumericField) (value : Value) (atom : id.isAtom = true)
    (present : id.isTrue = true) : field.SettledByService id value where
  broken := by
    intro config request members brought described missing large
    rcases respond_description brought described with ⟨own, responded⟩ | ⟨given, -⟩
    · rw [responded]
      exact (field.settled_listing value atom present config own).status.2 large
    · exact absurd missing given
  responded := by
    intro config request members brought described tame
    have readable : Json.Readable value := by
      cases readable_of_payload? brought with
      | object _ each =>
          exact (readable_parts (each _ (Table.mem_of_get? described))).2
    rcases respond_description brought described with ⟨own, responded⟩ | ⟨-, refused⟩
    · rw [responded]
      exact (field.settled_listing value atom present config own).status.1
        (fault?_of_readable readable tame)
    · exact .inr refused
  unread := by
    -- Nothing is known of the header, but without a value the request brings nothing in any case.
    intro config request layout spaced untold decoded
    have unread : Json.read (Json.write layout 0 (.object [("ir", field.description id value)])) =
        .error .longInteger :=
      Json.read_write_of_shown? spaced (shown?_description untold).2
    have missing : Service.payload? request = none := by
      unfold Service.payload?
      rw [decoded]
      cases request.contentType with
      | none => rfl
      | some header =>
          simp only [Option.bind_eq_bind, Option.bind_some, unread]
          cases Service.announcesJson header <;> rfl
    simp only [Service.respond, missing]
    rfl

/-- **The command settles the value of a field.** -/
theorem settledByCommand (field : NumericField) (value : Value) (atom : id.isAtom = true)
    (present : id.isTrue = true) : field.SettledByCommand id value where
  read := by
    intro environment files arguments invocation text asked held parsed writable
    obtain ⟨identified, readable⟩ := readable_parts (Json.readable_of_read parsed)
    have settled : field.Settled id value (Program.listing
        (Command.optionsOf environment invocation) (field.description id value)) := by
      rw [Program.listing, ofValue_description atom present]
      exact field.settled_generate id value rfl
    have planned : Command.run environment files arguments =
        Command.carryOut invocation.debug files (Command.planFor invocation
          (Command.optionsOf environment invocation) (field.description id value)) := by
      simp only [Command.run, asked, held, Command.plan, parsed]
    rw [planned]
    obtain ⟨broken, exits⟩ := settled.exit identified readable writable invocation.debug
    refine ⟨broken, fun tame => ?_⟩
    simpa using exits tame
  unread := by
    intro environment files arguments invocation layout asked spaced untold held
    have unread : Json.read (Json.write layout 0 (field.description id value)) =
        .error .longInteger :=
      Json.read_write_of_shown? spaced (shown?_description untold).1
    simp only [Command.run, asked, held, Command.plan, unread]
    rfl

/-- **Numeric fields are reported.** Whatever value the number of a number block or the rounds of a
counted loop without a body have: the block comes to code, or it is rejected with the verdict that
names the block, the field and the value. For a description of such a block, the service then
responds with a listing or a refusal, and the command exits with the code of a success or of a
rejection. There are two exceptions. An integer beyond the numbers of double width breaks the block,
the service and the command if it is the number of a block. And a value that would have to be named
in a verdict, but holds an integer of too many digits, breaks the block; in a text it is not read,
so the service refuses the request, and the command breaks. -/
theorem settled_throughout (field : NumericField) (value : Value) :
    (∀ {n : Nat} {setting : Setting n} {ref : Fin n} {pass : Pass n} (depth : Nat),
      setting.Has ref field.kind →
      (setting.block ref).fields.get? field.name = some value →
      (field = .rounds → (setting.block ref).input? "DO" = none ∧
        ∃ trap, instrument setting.options.loopTrap (setting.block ref) = .ok trap) →
      ref ∉ pass.active →
        field.Settled (setting.block ref).id value
            ((setting.outcome (depth + 1) ref).run.run pass).1 ∧
          ((setting.outcome (depth + 1) ref).run.run pass).1 ≠ .ok .nothing) ∧
    ∀ id : Value, id.isAtom = true → id.isTrue = true →
      field.SettledByService id value ∧ field.SettledByCommand id value := by
  refine ⟨?_, ?_⟩
  · intro n setting ref pass depth has given bare idle
    exact settled_outcome has idle given bare depth
  · intro id atom present
    exact ⟨field.settledByService value atom present, field.settledByCommand value atom present⟩

/-- A description in the exchange format, with a list where a number should be. -/
def document : String :=
  "\x7b\"nodes\":[\x7b\"id\":\"n\",\"type\":\"math_number\",\"fields\":\x7b\"NUM\":[]\x7d\x7d]\x7d"

/-- A request that brings the description. -/
def request : Service.Request :=
  ⟨some "application/json", ("\x7b\"ir\":" ++ document ++ "\x7d").toUTF8⟩

/-- The request brings the description, with a list where a number should be. -/
theorem payload?_request : Service.payload? request =
    some (.object [("ir", NumericField.literal.description (.text "n") (.list []))]) := by
  have announced : Service.announcesJson "application/json" = true := by decide +kernel
  have decoded : Json.decode ("\x7b\"ir\":" ++ document ++ "\x7d").toUTF8 =
      some ("\x7b\"ir\":" ++ document ++ "\x7d") := by decide +kernel
  have read : Json.read ("\x7b\"ir\":" ++ document ++ "\x7d") =
      .ok (.object [("ir", NumericField.literal.description (.text "n") (.list []))]) := by cbv
  simp only [Service.payload?, request, Option.bind_eq_bind, Option.bind_some, announced, decoded,
    read, guard]
  rfl

/-- A directory with nothing but the description. -/
def directory : Tree := ⟨[], [(["p.json"], document)]⟩

/-- The command for the description. -/
def invocation : Command.Invocation := ⟨"p.json", none, none, none, false⟩

/-- The listing and its spans can be written to the directory. -/
theorem writeAll_directory (code spans : String) :
    (Command.writeAll directory [⟨Command.listingPath invocation, code⟩,
      ⟨Command.spanPath invocation, spans⟩]).1 = .ok () := by
  have listed : Command.listingPath invocation = ⟨"", ["p.py"]⟩ := by decide +kernel
  have mapped : Command.spanPath invocation = ⟨"", ["p.map.json"]⟩ := by decide +kernel
  have first : directory.write ⟨"", ["p.py"]⟩ code =
      .ok ⟨[], [(["p.json"], document), (["p.py"], code)]⟩ := rfl
  have second : (Tree.mk [] [(["p.json"], document), (["p.py"], code)]).write
      ⟨"", ["p.map.json"]⟩ spans =
        .ok ⟨[], [(["p.json"], document), (["p.py"], code), (["p.map.json"], spans)]⟩ := rfl
  simp only [listed, mapped, Command.writeAll, first, second]

theorem settled_throughout_samples :
    (NumericField.literal.fault? (.int (10 ^ 309)) = some .tooLarge ∧
      (((Setting.integerSample (10 ^ 309)).outcome 1 (Fin.last 0)).run.run
        (Pass.start Names.start)).1 = .error .tooLarge) ∧
    NumericField.literal.fault? (.list []) = none ∧
    Service.payload? request =
      some (.object [("ir", NumericField.literal.description (.text "n") (.list []))]) ∧
    ((Service.respond ⟨none, none⟩ request).status = 200 ∨
      (Service.respond ⟨none, none⟩ request).status = 400) ∧
    ((Command.run ⟨none, none⟩ directory ["p.json"]).result = .ok 0 ∨
      (Command.run ⟨none, none⟩ directory ["p.json"]).result = .ok 2) := by
  have large : NumericField.literal.fault? (.int (10 ^ 309)) = some .tooLarge :=
    fault?_of_isTooLarge ⟨10 ^ 309, rfl, by decide +kernel⟩
  have tame : NumericField.literal.fault? (.list []) = none := rfl
  have other : NumericField.literal.fault? (.list []) ≠ some .tooLarge := by
    rw [tame]
    intro same
    cases same
  have asked : Command.Invocation.ofArguments none ["p.json"] = .ok invocation := by cbv
  have found : directory.read invocation.source = .ok document := rfl
  have parsed :
      Json.read document = .ok (NumericField.literal.description (.text "n") (.list [])) := by cbv
  have block : NumericField.literal.Settled (.text Kind.number.label) (.int (10 ^ 309))
      (((Setting.integerSample (10 ^ 309)).outcome 1 (Fin.last 0)).run.run
        (Pass.start Names.start)).1 := by
    have has : (Setting.integerSample (10 ^ 309)).Has (Fin.last 0) .number := rfl
    have idle : Fin.last 0 ∉ (Pass.start Names.start : Pass 1).active := List.not_mem_nil
    obtain ⟨blocks, -⟩ := settled_throughout .literal (.int (10 ^ 309))
    refine (blocks 0 has rfl ?_ idle).1
    intro other
    cases other
  obtain ⟨-, fronts⟩ := settled_throughout .literal (.list [])
  obtain ⟨service, command⟩ := fronts (.text "n") rfl (by decide)
  exact ⟨⟨large, block.eq_of_fault? large⟩, tame, payload?_request,
    service.responded _ payload?_request rfl other,
    (command.read asked found parsed writeAll_directory).2 other⟩

end NumericField

end BlockScript
