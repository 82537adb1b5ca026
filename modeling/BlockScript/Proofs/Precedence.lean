import BlockScript.Proofs.Formula.Blocks
import BlockScript.Proofs.Formula.Printing

/-! # Parentheses are never missing

Blocks that depict a tree of operations come to the code of the tree, with every variable spelled by
its identifier (`Setting.Depicts.fills`). Parsed by the grammar of the generated language, the code
is that tree again, up to regroupings of associative operators (`Setting.outcome_parses`): no
operand changes its owner, and no comparison joins another one.
-/

namespace BlockScript

namespace OperationTree

/-- Code depends on the identifiers of the tree's own variables only. -/
theorem print_congr {spell other : Value → String} :
    ∀ tree : OperationTree, (∀ name ∈ tree.variableNames, spell name = other name) →
      tree.print spell = tree.print other
  | .unplugged, _ | .number .., _ | .truth _, _ | .null, _ => rfl
  | .reference name, same => by rw [print, print, same name (List.mem_singleton.mpr rfl)]
  | .binary operation left right, same => by
    rw [print, print, left.print_congr fun name member => same name (List.mem_append_left _ member),
      right.print_congr fun name member => same name (List.mem_append_right _ member)]
  | .negation operand, same => by rw [print, print, operand.print_congr same]

end OperationTree

/-- Code that stands for a formula is not empty. -/
theorem Formula.Plugs.written {held : Option Expression} {meant : Option Term}
    (plugs : Plugs held meant) : ∀ value ∈ held, value.code ≠ "" := by
  rintro value ⟨⟩ empty
  match meant, plugs with
  | some term, stands =>
    obtain ⟨parsed, read, -⟩ := stands.parse?_eq
    rw [empty] at read
    exact absurd read (by simp [parse?, tokens, Reading.finished, formula_nil])

namespace Setting

variable {n : Nat} {setting : Setting n}

/-- What holds of a pass after the blocks of a tree: its variables have identifiers. -/
structure Settles (tree : OperationTree) (pass after : Pass n) : Prop where
  named : ∀ name ∈ tree.variableNames, ∃ text, after.names.find? .user name = some text
  grows : pass.names.Grows after.names
  legal : after.names.Legal
  active : after.active = pass.active

variable {tree operand : OperationTree} {pass between after : Pass n}

theorem Settles.print_eq (settles : Settles tree pass between)
    (grows : between.names.Grows after.names) :
    tree.print between.names.spelling = tree.print after.names.spelling := by
  refine tree.print_congr fun name member => ?_
  obtain ⟨text, found⟩ := settles.named name member
  rw [Names.spelling, Names.spelling, found, grows name text found]

theorem Settles.plugs (settles : Settles tree pass after) :
    Formula.Plugs (tree.print after.names.spelling) (tree.term? after.names.spelling) := by
  refine tree.plugs fun name member => ?_
  obtain ⟨text, found⟩ := settles.named name member
  rw [Names.spelling, found]
  exact settles.legal.isName_of_find? found

/-- A pass in which the blocks of a tree can become active: there is room for them, and a block that
is active already and depicts a tree depicts a larger one. -/
structure Admits (setting : Setting n) (depth : Nat) (pass : Pass n) (tree : OperationTree) :
    Prop where
  legal : pass.names.Legal
  distinct : pass.active.Nodup
  room : n ≤ depth + pass.active.length
  outer : ∀ busy ∈ pass.active, ∀ inner, setting.Depicts (some busy) inner → tree.size < inner.size

theorem Admits.settled {depth : Nat} (admits : setting.Admits depth pass operand)
    (settles : Settles tree pass after) : setting.Admits depth after operand where
  legal := settles.legal
  distinct := settles.active ▸ admits.distinct
  room := settles.active ▸ admits.room
  outer := settles.active ▸ admits.outer

/-- A block that depicts a tree can become active, and then the blocks of its operands can. -/
theorem Admits.enter {depth : Nat} {ref : Fin n} (admits : setting.Admits depth pass tree)
    (depicts : setting.Depicts (some ref) tree) :
    ref ∉ pass.active ∧ ∃ less, depth = less + 1 ∧
      ∀ operand : OperationTree, operand.size < tree.size →
        setting.Admits less { pass with active := ref :: pass.active } operand := by
  -- A block that is active depicts a larger tree, so this one is not; and then there is room, since
  -- there are no more active blocks than blocks.
  have idle : ref ∉ pass.active := fun member =>
    Nat.lt_irrefl _ (admits.outer ref member tree depicts)
  have distinct : (ref :: pass.active).Nodup := List.nodup_cons.mpr ⟨idle, admits.distinct⟩
  have count := distinct.length_le_of_subset fun other _ => List.mem_finRange other
  rw [List.length_finRange, List.length_cons] at count
  have room := admits.room
  refine ⟨idle, depth - 1, by omega, fun operand smaller => ⟨admits.legal, distinct, ?_, ?_⟩⟩
  · simp only [List.length_cons]
    omega
  · intro busy member inner innerDepicts
    rcases List.mem_cons.mp member with rfl | member
    · rwa [← depicts.size_eq innerDepicts]
    · exact Nat.lt_trans smaller (admits.outer busy member inner innerDepicts)

/-- A block that is not active yet comes to what the generator of its kind yields. -/
theorem fills_block {ref : Fin n} {kind : Kind} (has : setting.Has ref kind)
    (idle : ref ∉ pass.active) {depth : Nat} {value : Expression}
    (yields : Gen.Yields (setting.outcome depth) (kind.generate setting (setting.block ref))
      { pass with active := ref :: pass.active } (.expression value) after) :
    Gen.Fills (setting.outcome (depth + 1)) (some ref) pass (some value)
      { after with active := after.active.erase ref } := by
  have known : Kind.ofValue? (setting.block ref).kind = .ok (some kind) := by
    rw [has]
    exact congrArg Except.ok kind.ofLabel?_label
  refine ⟨value, rfl, ?_⟩
  rw [outcome]
  simp only [known]
  refine Step.bind_eq_ok.mpr ⟨some kind, pass, rfl, Step.bind_eq_ok.mpr ⟨pass, pass, rfl, ?_⟩⟩
  rw [if_neg (mt List.contains_iff_mem.mp idle), Pass.run_within]
  unfold Gen.Yields at yields
  rw [yields]

/-- A block that depicts a tree holds the code of the tree, if the generator of its kind yields it
while the block is active. -/
theorem Admits.visit {depth : Nat} {ref : Fin n} {kind : Kind}
    (admits : setting.Admits depth pass tree) (depicts : setting.Depicts (some ref) tree)
    (has : setting.Has ref kind)
    (inside : ∀ {less : Nat} {inner : Pass n}, inner.names.Legal →
      (∀ operand : OperationTree, operand.size < tree.size → setting.Admits less inner operand) →
        ∃ value after, Gen.Yields (setting.outcome less) (kind.generate setting (setting.block ref))
            inner (.expression value) after ∧
          tree.print after.names.spelling = some value ∧ Settles tree inner after) :
    ∃ after, Gen.Fills (setting.outcome depth) (some ref) pass (tree.print after.names.spelling)
      after ∧ Settles tree pass after := by
  obtain ⟨idle, less, rfl, operands⟩ := admits.enter depicts
  obtain ⟨value, after, yields, printed, settles⟩ :=
    @inside less { pass with active := ref :: pass.active } admits.legal operands
  refine ⟨{ after with active := after.active.erase ref }, ?_, settles.named, settles.grows,
    settles.legal, ?_⟩
  · rw [printed]
    exact fills_block has idle yields
  · simp only [settles.active, List.erase_cons_head]

/-- **Blocks that depict a tree come to its code,** spelled with the identifiers that the pass has
for the variables from then on. -/
theorem Depicts.fills {socket : Option (Fin n)} (depicts : setting.Depicts socket tree)
    {depth : Nat} (admits : setting.Admits depth pass tree) :
    ∃ after, Gen.Fills (setting.outcome depth) socket pass (tree.print after.names.spelling) after ∧
      Settles tree pass after := by
  induction depicts generalizing depth pass with
  | unplugged =>
    exact ⟨pass, ⟨rfl, rfl⟩, by simp [OperationTree.variableNames], .refl _, admits.legal, rfl⟩
  | reference has nameable =>
    refine admits.visit (.reference has nameable) has fun legal _ => ?_
    obtain ⟨text, after, ran, found, grows, kept, active⟩ := Pass.identifier_eq nameable legal
    refine ⟨⟨text, .atomic⟩, after, ?_, ?_, ?_, grows, kept, active⟩
    · exact .bind (Step.bind_eq_ok.mpr ⟨text, after, ran, rfl⟩) (Gen.yields_done _)
    · rw [OperationTree.print, Names.spelling, found]
      rfl
    · exact List.forall_mem_singleton.mpr ⟨text, found⟩
  | number has real =>
    refine admits.visit (.number has real) has fun legal _ =>
      ⟨_, _, ?_, rfl, by simp [OperationTree.variableNames], .refl _, legal, rfl⟩
    simp only [Kind.generate, Gen.number, real]
    exact Gen.yields_done _
  | truth has =>
    exact admits.visit (.truth has) has fun legal _ =>
      ⟨_, _, Gen.yields_done _, rfl, by simp [OperationTree.variableNames], .refl _, legal, rfl⟩
  | null has =>
    exact admits.visit (.null has) has fun legal _ =>
      ⟨_, _, Gen.yields_done _, rfl, by simp [OperationTree.variableNames], .refl _, legal, rfl⟩
  | @binary ref operation left right has chosen leftDepicts rightDepicts leftFills rightFills =>
    refine admits.visit (.binary has chosen leftDepicts rightDepicts) has fun legal operands => ?_
    obtain ⟨between, leftHeld, leftSettles⟩ :=
      leftFills (operands left (by simp only [OperationTree.size]; omega))
    obtain ⟨after, rightHeld, rightSettles⟩ :=
      rightFills ((operands right (by simp only [OperationTree.size]; omega)).settled leftSettles)
    -- The left operand was printed before the right one was visited; its variables were named by
    -- then, and a name once given stays.
    have leftWritten := leftSettles.plugs.written
    rw [leftSettles.print_eq rightSettles.grows] at leftHeld leftWritten
    refine ⟨_, after, Gen.yields_operation chosen leftHeld rightHeld leftWritten
      rightSettles.plugs.written, rfl, fun name member => ?_,
      leftSettles.grows.trans rightSettles.grows, rightSettles.legal,
      rightSettles.active.trans leftSettles.active⟩
    rcases List.mem_append.mp member with member | member
    · obtain ⟨text, found⟩ := leftSettles.named name member
      exact ⟨text, rightSettles.grows name text found⟩
    · exact rightSettles.named name member
  | negation has inner ih =>
    refine admits.visit (.negation has inner) has fun legal operands => ?_
    obtain ⟨after, held, settles⟩ := ih (operands _ (by simp only [OperationTree.size]; omega))
    refine ⟨_, after, .bind (held.value .logicalNot "True") (Gen.yields_done _), rfl, ?_⟩
    exact ⟨settles.named, settles.grows, settles.legal, settles.active⟩

/-- **Precedence and associativity are respected.** Blocks that depict a tree come to an expression,
whatever else is active, and its code parses as the formula of the tree up to regroupings of
associative operators. In particular no comparison joins another one, and every operand that a
difference, a quotient, a power, a comparison or a negation holds in the tree is held by it in the
parse. -/
theorem outcome_parses {ref : Fin n} (depicts : setting.Depicts (some ref) tree)
    (reached : setting.Reached pass) {depth : Nat} (distinct : pass.active.Nodup)
    (room : n ≤ depth + pass.active.length)
    (outer : ∀ busy ∈ pass.active, ∀ inner, ¬ setting.Depicts (some busy) inner) :
    ∃ value after parsed meant,
      (setting.outcome depth ref).run.run pass = (.ok (.expression value), after) ∧
        (∀ name ∈ tree.variableNames,
          after.names.find? .user name = some (after.names.spelling name)) ∧
        tree.term? after.names.spelling = some meant ∧
        Formula.parse? value.code = some parsed ∧ Regroup parsed meant ∧
        parsed.Unchained ∧ parsed.holdings = meant.holdings := by
  have inserts : setting.Inserts fun _ => True := fun _ _ _ => trivial
  have admits : setting.Admits depth pass tree :=
    ⟨(reached.legal inserts).names, distinct, room, fun busy member inner innerDepicts =>
      absurd innerDepicts (outer busy member inner)⟩
  obtain ⟨after, ⟨value, printed, ran⟩, settles⟩ := depicts.fills admits
  have plugs := settles.plugs
  rw [printed] at plugs
  cases meant : tree.term? after.names.spelling with
  | none =>
    rw [meant] at plugs
    exact plugs.elim
  | some term =>
    rw [meant] at plugs
    obtain ⟨parsed, read, same⟩ := Formula.Stands.parse?_eq plugs
    refine ⟨value, after, parsed, term, ran, fun name member => ?_, meant, read, same,
      same.unchained_iff.mpr (tree.unchained _ term meant), same.holdings_eq⟩
    obtain ⟨text, found⟩ := settles.named name member
    rw [Names.spelling, found, Option.getD_some]

/-- A comparison of a comparison and a power: `(x < 2) == (-0.5) ** 0`. -/
def comparisonSample : Setting 6 :=
  .ofBlocks #v[
    .ofKind .comparison [("OP", .text "EQ")] [(.text "A", some 1), (.text "B", some 4)],
    .ofKind .comparison [("OP", .text "LT")] [(.text "A", some 2), (.text "B", some 3)],
    .ofKind .getVariable [("VAR", .text "x")] [],
    .ofKind .number [("NUM", .int 2)] [],
    .ofKind .arithmetic [("OP", .text "POWER")] [(.text "A", some 5)],
    .ofKind .number [("NUM", .text "-0.5")] []] [0]

/-- The tree of the sample. -/
def comparisonTree : OperationTree :=
  .binary .equal
    (.binary .less (.reference (.text "x")) (.number false (2 ^ 52) (-51) (by decide)))
    (.binary .power (.number true (2 ^ 52) (-53) (by decide)) .unplugged)

theorem outcome_parses_comparisonSample :
    comparisonSample.Depicts (some 0) comparisonTree ∧
      comparisonSample.Reached (Pass.start Names.start) ∧
      ∃ value after parsed meant,
        (comparisonSample.outcome 6 0).run.run (Pass.start Names.start) =
            (.ok (.expression value), after) ∧
          (∀ name ∈ comparisonTree.variableNames,
            after.names.find? .user name = some (after.names.spelling name)) ∧
          comparisonTree.term? after.names.spelling = some meant ∧
          Formula.parse? value.code = some parsed ∧ Regroup parsed meant ∧
          parsed.Unchained ∧ parsed.holdings = meant.holdings := by
  have depicts : comparisonSample.Depicts (some 0) comparisonTree :=
    .binary rfl rfl
      (.binary rfl rfl (.reference rfl ⟨rfl, "x", rfl⟩) (.number rfl rfl))
      (.binary rfl rfl (.number rfl rfl) .unplugged)
  exact ⟨depicts, .start,
    outcome_parses depicts .start List.nodup_nil (by decide) (by simp [Pass.start])⟩

end Setting

end BlockScript
