import BlockScript.Proofs.Agreement
import BlockScript.Proofs.Instrumentation
import BlockScript.Proofs.Operations

/-! # Blocks that are appended

The top-level blocks of a program are generated one after the other, so one more block at the end is
generated when all else has been. Blocks are not told which of them are at the top level; all they
can learn of it is which variables the program uses. As long as these are the same, a program comes
to the same as before, and what the new block adds to the tables of the pass and to the body comes
after it (`Setting.emit_appended`).
-/

namespace BlockScript

variable {n : Nat}

/-- A program with one more top-level block, behind the others. -/
def Setting.appended (setting : Setting n) (top : Fin n) : Setting n :=
  { setting with
    workspace := { setting.workspace with roots := setting.workspace.roots ++ [top] } }

theorem Block.Alike.refl (block : Block n) : block.Alike block :=
  ⟨rfl, rfl, fun _ => rfl, fun _ => rfl, fun _ => rfl, rfl⟩

/-- Top-level blocks are gone through one after the other. -/
theorem Gen.pieces_append (setting : Setting n) (first second : List (Fin n)) :
    pieces setting (first ++ second) = do
      let earlier ← pieces setting first
      let later ← pieces setting second
      return earlier ++ later := by
  induction first with
  | nil => exact (bind_pure _).symm
  | cons top rest ih =>
      rw [List.cons_append, pieces, pieces, ih]
      split
      · simp only [bind_assoc]
      · simp only [bind_assoc, pure_bind, List.cons_append]

namespace Setting

variable {setting : Setting n} {top : Fin n}

/-- Blocks learn of the top level only which variables are used. -/
theorem appended_congruent
    (same : (setting.appended top).workspace.usedVariables = setting.workspace.usedVariables) :
    (setting.appended top).Congruent setting :=
  ⟨fun ref => .refl (setting.block ref), same, rfl, rfl⟩

/-- **A program with a block appended is run as the program is, and then the block.** -/
theorem run_appended
    (same : (setting.appended top).workspace.usedVariables = setting.workspace.usedVariables) :
    (setting.appended top).run (Gen.program (setting.appended top)) = do
      let parts ← setting.run (Gen.program setting)
      let added ← setting.run (Gen.pieces setting [top])
      return { parts with body := parts.body ++ added } := by
  have congruent := appended_congruent same
  have program : Gen.program (setting.appended top) = do
      let parts ← Gen.program setting
      let added ← Gen.pieces setting [top]
      return { parts with body := parts.body ++ added } := by
    have roots : (setting.appended top).workspace.roots = setting.workspace.roots ++ [top] := rfl
    simp only [Gen.program, same, roots, pieces_congr congruent, Gen.pieces_append, bind_assoc,
      pure_bind]
    rfl
  unfold run
  rw [program, outcome_congr congruent]
  simp only [Gen.runWith_bind]
  rfl

/-- A listing is emitted: in a new pass the program comes to parts, and the listing is assembled from
them and from what the pass has in the end. -/
structure Emits (setting : Setting n) (pass : Pass n) (listing : Listing) (parts : Parts)
    (after : Pass n) : Prop where
  emitted : setting.emit.run.run pass = (.ok listing, after)
  generated : ∃ log notices,
    (setting.run (Gen.program setting)).run.run { Pass.start Names.start with log := log } =
      (.ok parts, { after with log := notices })
  assembled : listing = Listing.assemble after parts

/-- Notices do not matter: a program that comes to parts with some is emitted, whatever the pass was
before. -/
theorem emits_of_run {log : List String} {parts : Parts} {finished : Pass n}
    (ran : (setting.run (Gen.program setting)).run.run { Pass.start Names.start with log := log } =
      (.ok parts, finished)) (pass : Pass n) :
    ∃ listing after, setting.Emits pass listing parts after ∧ after.outline = finished.outline := by
  have instruments : setting.Instruments setting.options.statementPrefix setting.options.loopTrap :=
    ⟨fun _ => .refl .., fun _ => .refl ..⟩
  have lockstep (record : List String) := lockstep_run instruments
    { Pass.start Names.start with log := log } { Pass.start Names.start with log := record } rfl
  have same : setting.instrumented setting.options.statementPrefix setting.options.loopTrap =
      setting := rfl
  rw [same, ran] at lockstep
  have succeeds : ∃ listing, (setting.emit.run.run pass).1 = .ok listing := by
    obtain ⟨record, emitted⟩ := setting.run_emit pass
    rcases (lockstep record).1.cases with ⟨_, failed, _⟩ | ⟨_, others, _, came, _⟩
    · cases failed
    · rw [emitted, came]
      exact ⟨_, rfl⟩
  obtain ⟨listing, came⟩ := succeeds
  have emitted : setting.emit.run.run pass = (.ok listing, (setting.emit.run.run pass).2) :=
    Prod.ext came rfl
  obtain ⟨record, others, last, made, assembled, noted⟩ := program_of_emit emitted
  obtain ⟨results, close⟩ := lockstep record
  rw [made] at results close
  cases results with
  | ok agree =>
      cases agree rfl
      refine ⟨listing, _, ⟨emitted, ⟨record, last.log, ?_⟩, ?_⟩, ?_⟩
      · rw [made, noted]
      · rw [assembled, noted]
        rfl
      · rw [noted]
        exact close.symm

/-- **A block that is appended does not disturb what was there.** A program is emitted with one more
block at the end of its top level, which may share blocks with the others, and the program uses the
same variables with it as without. Then the program is emitted without it, too, and all of its
imports, helpers, names of helpers and temporaries and its body are at the beginning of those with
the block. -/
theorem emit_appended
    (same : (setting.appended top).workspace.usedVariables = setting.workspace.usedVariables)
    {pass after : Pass n} {listing : Listing}
    (ran : (setting.appended top).emit.run.run pass = (.ok listing, after)) (start : Pass n) :
    ∃ shorter parts before more rest,
      setting.Emits start shorter parts before ∧
      (setting.appended top).Emits pass listing more after ∧
      before.Advanced after ∧ Listing.bodyOf more = Listing.bodyOf parts ++ rest := by
  obtain ⟨log, more, finished, made, assembled, noted⟩ := program_of_emit ran
  have generated := made
  rw [run_appended same] at made
  obtain ⟨parts, between, first, appending⟩ := Step.bind_eq_ok.mp made
  obtain ⟨added, last, second, done⟩ := Step.bind_eq_ok.mp appending
  cases done
  obtain ⟨shorter, before, emits, close⟩ := emits_of_run first start
  have advanced : between.Advanced finished := by
    have program (last : Pass n) : (Gen.program setting).Conducts setting (hindsight last) :=
      Gen.conducts_program_of_names (fun _ _ => trivial) (fun _ _ => trivial) fun _ => trivial
    have block (last : Pass n) : (Gen.pieces setting [top]).Conducts setting (hindsight last) :=
      Gen.conducts_pieces (fun _ _ _ _ => trivial) _ fun _ _ => trivial
    have kept := setting.kept_run program (.of_start log)
    rw [first] at kept
    have grown := setting.advanced_run block kept
    rwa [second] at grown
  refine ⟨shorter, parts, before, { parts with body := parts.body ++ added },
    String.join (added.map (·.code)), emits, ⟨ran, ⟨log, finished.log, ?_⟩, ?_⟩, ?_, ?_⟩
  · rw [generated, noted]
  · rw [assembled, noted]
    rfl
  · have tables := Pass.SameTables.of_outline close
    have active : before.outline.active = between.outline.active := congrArg Pass.active close
    rw [noted]
    constructor
    case active => exact advanced.active.trans active.symm
    case imports => exact tables.imports ▸ advanced.imports
    case helpers => exact tables.helpers ▸ advanced.helpers
    case functionNames => exact tables.functionNames ▸ advanced.functionNames
    case temporaries => exact tables.temporaries ▸ advanced.temporaries
  · rw [Listing.bodyOf, List.map_append, String.join_append]
    rfl

/-- A position that is printed, a change of a list at random, a procedure, and a further change at
random of what was printed. -/
def sharingSample : Setting 11 :=
  .ofBlocks #v[
    .ofKind .print [] [(.text "TEXT", some 1)],
    .ofKind .listIndexOf [] [(.text "VALUE", some 2), (.text "FIND", some 3)],
    .ofKind .getVariable [("VAR", .text "x")] [],
    .ofKind .number [("NUM", .int 1)] [],
    .ofKind .setIndex [("WHERE", .text "RANDOM")] [(.text "LIST", some 5), (.text "TO", some 3)],
    .ofKind .emptyList [] [],
    .ofKind .defineWithoutResult [("NAME", .text "f")] [(.text "STACK", some 7)],
    .ofKind .print [] [(.text "TEXT", some 8)],
    .ofKind .getVariable [("VAR", .text "x")] [],
    .ofKind .setIndex [("WHERE", .text "RANDOM"), ("MODE", .text "INSERT")]
      [(.text "LIST", some 1), (.text "TO", some 10)],
    .ofKind .letterAt [("WHERE", .text "RANDOM")] [(.text "VALUE", some 2)]] [0, 4, 6]

theorem emit_appended_sharingSample :
    (sharingSample.appended 9).workspace.usedVariables = sharingSample.workspace.usedVariables ∧
      ∃ listing after,
        (sharingSample.appended 9).emit.run.run (Pass.start Names.start) = (.ok listing, after) ∧
        ∃ shorter parts before more rest,
          sharingSample.Emits (Pass.start Names.start) shorter parts before ∧
          (sharingSample.appended 9).Emits (Pass.start Names.start) listing more after ∧
          before.Advanced after ∧ Listing.bodyOf more = Listing.bodyOf parts ++ rest := by
  have computed : ((sharingSample.appended 9).emit.run.run
      (Pass.start Names.start)).1.toOption.isSome := by
    decide +kernel
  obtain ⟨listing, made⟩ := Option.isSome_iff_exists.mp computed
  have ran := Step.eq_ok_of_toOption made
  exact ⟨rfl, listing, _, ran, emit_appended rfl ran _⟩

end Setting

end BlockScript
