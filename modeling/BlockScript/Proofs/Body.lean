import BlockScript.Proofs.Hindsight
import BlockScript.Proofs.Spans

/-! # The body of a listing

The body is written from the top-level blocks. Of a chain that begins with a statement, every block
is written, in the order of the links, and a definition among them adds nothing. Of a chain that
begins with a definition, the definition alone is generated: whatever follows it is dropped
(`Setting.BodyChain`, `Setting.emit_body`).
-/

namespace BlockScript

variable {n : Nat}

/-! ## Chains -/

/-- The blocks on a chain, from a block to the last that follows. -/
inductive Graph.Chained (graph : Graph n) : Fin n → List (Fin n) → Prop
  | last {ref : Fin n} : (graph.block ref).next = none → Chained graph ref [ref]
  | link {ref following : Fin n} {rest : List (Fin n)} :
      (graph.block ref).next = some following → Chained graph following rest →
      Chained graph ref (ref :: rest)

/-- A chain that does not return to one of its blocks is followed to its end. -/
theorem Graph.chained_follow {graph : Graph n} (steps : Nat) (seen : List (Fin n)) (ref : Fin n)
    (ends : (graph.follow steps seen ref).returnsTo = none) :
    graph.Chained ref (graph.follow steps seen ref).blocks := by
  induction steps generalizing seen ref with
  | zero => cases ends
  | succ steps ih =>
      unfold follow at ends ⊢
      split at ends
      · cases ends
      · rename_i unseen
        rw [if_neg unseen]
        cases following : (graph.block ref).next with
        | none => exact .last following
        | some after =>
            rw [following] at ends
            exact .link following (ih _ _ ends)

/-- The code of an outcome as a statement. An expression becomes a line of its own. -/
def Outcome.asStatement : Outcome → String
  | .expression value => value.code ++ "\n"
  | .statement code => code
  | .nothing => ""

namespace Setting

variable {setting : Setting n}

/-- Blocks are generated one after the other and written as statements. -/
inductive Writes (setting : Setting n) : Pass n → List (Fin n) → List String → Pass n → Prop
  | done (pass : Pass n) : Writes setting pass [] [] pass
  | block {pass next after : Pass n} {ref : Fin n} {rest : List (Fin n)} {codes : List String}
      {outcome : Outcome} :
      (setting.outcome n ref).run.run pass = (.ok outcome, next) →
        Writes setting next rest codes after →
        Writes setting pass (ref :: rest) (outcome.asStatement :: codes) after

theorem Writes.append {pass between after : Pass n} {blocks others : List (Fin n)}
    {codes more : List String} (first : setting.Writes pass blocks codes between)
    (second : setting.Writes between others more after) :
    setting.Writes pass (blocks ++ others) (codes ++ more) after := by
  induction first with
  | done => exact second
  | block ran _ ih => exact .block ran (ih second)

theorem writes_of_each {blocks : List (Fin n)} {codes : List String} {pass after : Pass n}
    (ran : (setting.run (Gen.each Gen.statement blocks)).run.run pass = (.ok codes, after)) :
    setting.Writes pass blocks codes after := by
  induction blocks generalizing pass codes with
  | nil =>
      cases ran
      exact .done _
  | cons ref rest ih =>
      unfold Gen.each run at ran
      rw [Gen.runWith_bind] at ran
      obtain ⟨code, next, first, ran⟩ := Step.bind_eq_ok.mp ran
      rw [Gen.runWith_bind] at ran
      obtain ⟨others, last, remaining, done⟩ := Step.bind_eq_ok.mp ran
      cases done
      unfold Gen.statement at first
      rw [Gen.runWith_bind, Gen.runWith_block] at first
      obtain ⟨outcome, between, generated, written⟩ := Step.bind_eq_ok.mp first
      have same : code = outcome.asStatement ∧ between = next := by
        cases outcome <;> cases written <;> exact ⟨rfl, rfl⟩
      obtain ⟨rfl, rfl⟩ := same
      exact .block generated (ih remaining)

/-- **A chain is written whole.** -/
theorem writes_of_chain {top : Fin n} {code : String} {pass after : Pass n}
    (ran : (setting.run (Gen.chain setting (some top))).run.run pass = (.ok code, after)) :
    ∃ blocks codes, setting.workspace.graph.Chained top blocks ∧
      setting.Writes pass blocks codes after ∧ code = String.join codes := by
  unfold Gen.chain run at ran
  dsimp only at ran
  rw [Gen.runWith_bind] at ran
  obtain ⟨codes, next, written, ran⟩ := Step.bind_eq_ok.mp ran
  -- A chain that returns to one of its blocks is rejected.
  cases ends : (setting.workspace.graph.chain top).returnsTo with
  | some ref =>
      rw [ends] at ran
      cases ran
  | none =>
      rw [ends] at ran
      cases ran
      exact ⟨_, codes, Graph.chained_follow n [] top ends, writes_of_each written, rfl⟩

/-- A definition comes to nothing. -/
theorem ensures_definition (block : Block n) :
    (Gen.definition setting block).Ensures (Contract.free n) (· = .nothing) := by
  unfold Gen.definition
  refine .bind (.lift fun _ _ => trivial) fun arguments _ => ?_
  refine .bind (Gen.ensures_free _) fun userGlobals _ => ?_
  refine .bind (Gen.ensures_free _) fun name _ => ?_
  refine .bind (Gen.ensures_free _) fun statements _ => ?_
  refine .bind (Gen.ensures_free _) fun body _ => ?_
  refine .bind (Gen.ensures_free _) fun result _ => ?_
  refine .bind (Gen.ensures_free _) fun params _ => ?_
  exact .bind (Gen.ensures_free _) fun _ _ => rfl

theorem outcome_of_definition {ref : Fin n}
    (definition : Kind.isDefinition (setting.block ref).kind = true) {depth : Nat}
    {outcome : Outcome} {pass after : Pass n}
    (ran : (setting.outcome depth ref).run.run pass = (.ok outcome, after)) :
    outcome = .nothing := by
  obtain ⟨kind, below, inner, known, generated, _⟩ := exists_run_of_outcome ran
  rw [generate_of_isDefinition known definition] at generated
  have keeps : Step.Keeps (fun _ => True) (· = .nothing)
      ((Gen.definition setting (setting.block ref)).runWith (setting.outcome below)) :=
    (ensures_definition _).keeps fun _ _ _ _ => ⟨trivial, fun _ _ => trivial⟩
  exact (keeps _ trivial).2 outcome (congrArg Prod.fst generated)

/-- Definitions are written as nothing. -/
theorem Writes.definitions {pass after : Pass n} {blocks : List (Fin n)} {codes : List String}
    (writes : setting.Writes pass blocks codes after) :
    List.Forall₂ (fun ref code => Kind.isDefinition (setting.block ref).kind = true → code = "")
      blocks codes := by
  induction writes with
  | done => exact .nil
  | block ran _ ih =>
      refine .cons (fun definition => ?_) ih
      rw [outcome_of_definition definition ran]
      rfl

/-- The blocks that are written into the body for a top-level block: all of its chain, unless it is
a definition, which is generated alone. -/
inductive BodyChain (setting : Setting n) : Fin n → List (Fin n) → Prop
  | definition {top : Fin n} : Kind.isDefinition (setting.block top).kind = true →
      BodyChain setting top [top]
  | statements {top : Fin n} {blocks : List (Fin n)} :
      Kind.isDefinition (setting.block top).kind = false →
      setting.workspace.graph.Chained top blocks → BodyChain setting top blocks

/-- Nothing is dropped of the chains of blocks, unless a definition is first and something follows
it. -/
theorem chained_of_bodyChain {roots : List (Fin n)} {chains : List (List (Fin n))}
    (taken : List.Forall₂ setting.BodyChain roots chains)
    (alone : ∀ top ∈ roots, Kind.isDefinition (setting.block top).kind = true →
      (setting.block top).next = none) :
    List.Forall₂ setting.workspace.graph.Chained roots chains := by
  induction taken with
  | nil => exact .nil
  | cons own _ ih =>
      obtain ⟨first, others⟩ := List.forall_mem_cons.mp alone
      refine .cons ?_ (ih others)
      cases own with
      | definition defines => exact .last (first defines)
      | statements _ chained => exact chained

/-- **The pieces of the body are written from the chains of the top-level blocks.** -/
theorem Traversal.writes {pass after : Pass n} {roots : List (Fin n)} {pieces : List Piece}
    (traversal : setting.Traversal pass roots pieces after) :
    ∃ chains codes, List.Forall₂ setting.BodyChain roots chains ∧
      setting.Writes pass chains.flatten codes after ∧
      String.join (pieces.map (·.code)) = String.join codes := by
  induction traversal with
  | done pass => exact ⟨[], [], .nil, .done pass, rfl⟩
  | @definition pass next after top rest pieces outcome defines ran _ ih =>
      obtain ⟨chains, codes, taken, written, same⟩ := ih
      refine ⟨[top] :: chains, outcome.asStatement :: codes, .cons (.definition defines) taken,
        .block ran written, ?_⟩
      rw [outcome_of_definition defines ran, String.join_cons, ← same]
      exact (String.empty_append).symm
  | chain other ran _ ih =>
      obtain ⟨chains, codes, taken, written, same⟩ := ih
      obtain ⟨blocks, own, chained, first, rfl⟩ := writes_of_chain ran
      refine ⟨blocks :: chains, own ++ codes, .cons (.statements other chained) taken,
        first.append written, ?_⟩
      rw [List.map_cons, String.join_cons, same, String.join_append]

/-- The body of a finished program is written from chains of blocks, with a code for each block. -/
structure WritesBody (setting : Setting n) (begun : Pass n) (parts : Parts) (finished : Pass n)
    (chains : List (List (Fin n))) (codes : List String) : Prop where
  taken : List.Forall₂ setting.BodyChain setting.workspace.roots chains
  written : setting.Writes begun chains.flatten codes finished
  body : Listing.bodyOf parts = String.join codes
  /-- Definitions add nothing, wherever they stand. -/
  definitions : List.Forall₂
    (fun ref code => Kind.isDefinition (setting.block ref).kind = true → code = "")
    chains.flatten codes
  /-- Nothing is dropped if nothing follows the definitions at the top. -/
  whole : (∀ top ∈ setting.workspace.roots,
      Kind.isDefinition (setting.block top).kind = true → (setting.block top).next = none) →
    List.Forall₂ setting.workspace.graph.Chained setting.workspace.roots chains

/-- **The body is written from the chains at the top.** When a listing is emitted, the program has
been run from a new pass: after its variables are named, the blocks of the chains of the top-level
blocks are generated in order, and the body is their codes as statements, where definitions add
nothing. Only a definition at the top is generated without what follows it, so the body has all
blocks of all chains if nothing does. -/
theorem emit_body {pass after : Pass n} {listing : Listing}
    (ran : setting.emit.run.run pass = (.ok listing, after)) :
    ∃ log parts finished,
      (setting.run (Gen.program setting)).run.run { Pass.start Names.start with log := log } =
        (.ok parts, finished) ∧
      listing = Listing.assemble finished parts ∧
      ∃ named begun chains codes,
        (setting.run (Gen.each Gen.variableName setting.workspace.usedVariables)).run.run
          { Pass.start Names.start with log := log } = (.ok parts.userNames, named) ∧
        (setting.run (Gen.each Gen.developerName setting.workspace.developerVariables)).run.run
          named = (.ok parts.developerNames, begun) ∧
        setting.WritesBody begun parts finished chains codes := by
  obtain ⟨log, parts, finished, made, assembled, _⟩ := program_of_emit ran
  refine ⟨log, parts, finished, made, assembled, ?_⟩
  obtain @⟨userNames, developerNames, body, named, begun, _, users, developers, traversal⟩ :=
    execution_of_program made
  obtain ⟨chains, codes, taken, written, same⟩ := traversal.writes
  exact ⟨named, begun, chains, codes, users, developers, taken, written, same,
    written.definitions, chained_of_bodyChain taken⟩

/-- Chains with a definition that is first, in the middle and last. -/
def followedSample : Setting 7 :=
  .ofBlocks #v[
    { Block.ofKind .defineWithoutResult [("NAME", .text "f")] [] with next := some 1 },
    .ofKind .print [] [],
    { Block.ofKind .print [] [] with next := some 3 },
    { Block.ofKind .defineWithoutResult [("NAME", .text "g")] [] with next := some 4 },
    .ofKind .print [] [],
    { Block.ofKind .print [] [] with next := some 6 },
    .ofKind .defineWithoutResult [("NAME", .text "h")] []] [0, 2, 5]

/-- The statement after the first definition is dropped, though it is on the chain and the generator
of the chain writes it. -/
theorem emit_body_followedSample :
    followedSample.workspace.graph.Chained 0 [0, 1] ∧
    ((followedSample.run (Gen.chain followedSample (some 0))).run.run
      (Pass.start Names.start)).1.toOption = some "print('')\n" ∧
    ∃ listing after,
      followedSample.emit.run.run (Pass.start Names.start) = (.ok listing, after) ∧
      listing.code = "def f():\n    pass\n\ndef g():\n    pass\n\ndef h():\n    pass\n\n" ++
        "print('')\nprint('')\nprint('')\n" ∧
      ∃ log parts finished,
        (followedSample.run (Gen.program followedSample)).run.run
          { Pass.start Names.start with log := log } = (.ok parts, finished) ∧
        listing = Listing.assemble finished parts ∧
        ∃ named begun chains codes,
          (followedSample.run (Gen.each Gen.variableName
            followedSample.workspace.usedVariables)).run.run
              { Pass.start Names.start with log := log } = (.ok parts.userNames, named) ∧
          (followedSample.run (Gen.each Gen.developerName
            followedSample.workspace.developerVariables)).run.run named =
              (.ok parts.developerNames, begun) ∧
          followedSample.WritesBody begun parts finished chains codes := by
  refine ⟨.link rfl (.last rfl), by decide +kernel, ?_⟩
  have computed : (followedSample.emit.run.run (Pass.start Names.start)).1.toOption.map (·.code) =
      some ("def f():\n    pass\n\ndef g():\n    pass\n\ndef h():\n    pass\n\n" ++
        "print('')\nprint('')\nprint('')\n") := by
    decide +kernel
  obtain ⟨listing, made, code⟩ := Option.map_eq_some_iff.mp computed
  have ran := Step.eq_ok_of_toOption made
  exact ⟨listing, _, ran, code, emit_body ran⟩

end Setting

end BlockScript
