import BlockScript.Proofs.Hindsight
import BlockScript.Proofs.Mentions
import BlockScript.Proofs.Spans

/-! # Hygiene

All that the procedures and the body of a finished program mention are reserved words and
identifiers that the pass has handed out, unless code was put in from elsewhere
(`Setting.Hygienic`). The variables that generated code brings along, such as counters of loops,
have identifiers that nothing else in the pass has, whether it was named before or after
(`Block.Binds`, `Setting.emit_hygienic`).
-/

namespace BlockScript

variable {n : Nat} {α : Type}

/-! ## Names that are handed out in the end -/

namespace Pass

/-- Identifiers that a pass has handed out. -/
def HandedOut (last : Pass n) (text : String) : Prop :=
  text ∈ last.names.used ∧ Names.IsIdentifier text

/-- The procedures of a pass are written over what is handed out in the end. -/
structure Clean (pass last : Pass n) : Prop where
  ledger : pass.Ledger
  procedures : ∀ procedure ∈ pass.procedures.entries,
    procedure.Proper last.HandedOut (· = "")

/-- The globals of procedures are handed out. -/
theorem Clean.handedOut_developerGlobals {finished : Pass n} (clean : finished.Clean finished)
    {developer : List String} (named : ∀ name ∈ developer, finished.HandedOut name) :
    ∀ name ∈ Listing.developerGlobals developer finished.temporaries,
      finished.HandedOut name := by
  intro name member
  rcases List.mem_append.mp member with announced | added
  · exact named name announced
  · have temporary := (List.mem_filter.mp added).1
    have used := clean.ledger.used name
      (List.mem_append_right _ (List.mem_append_right _ temporary))
    exact ⟨used, (clean.ledger.named name used).1⟩

/-- **Answers are handed out**, and what keeps to the language keeps procedures written over
them. -/
theorem clean_upheld (last : Pass n) :
    (codeContract n last.HandedOut (· = "")).UpheldUpTo last (·.Clean last) where
  ignores pass active clean := ⟨ledger_stable.ignores pass active clean.ledger, clean.procedures⟩
  effects := by
    intro pass after request result allowed effect within clean
    have ledger := ledger_stable.effects effect clean.ledger
    have handedOut {identifier : String} (known : identifier ∈ after.names.used) :
        last.HandedOut identifier :=
      ⟨within.used.subset known, (ledger.named identifier known).1⟩
    cases effect with
    | refused | lost | unfinished =>
        exact ⟨⟨ledger, clean.procedures⟩, fun _ same => nomatch same⟩
    | known _ found =>
        apply And.intro ⟨ledger, clean.procedures⟩
        intro answer same
        cases same
        obtain ⟨_, _, member, _⟩ := Names.mem_table_of_search found
        exact handedOut (ledger.used _ (List.mem_append_left _ (List.mem_map.mpr ⟨_, member, rfl⟩)))
    | supplied found =>
        apply And.intro ⟨ledger, clean.procedures⟩
        intro answer same
        cases same
        have member := Table.mem_entries_of_get? found
        exact handedOut (ledger.used _ (List.mem_append_right _ (List.mem_append_left _ member)))
    | filed | distinct | temporary | provided =>
        apply And.intro ⟨ledger, clean.procedures⟩
        intro answer same
        cases same
        exact handedOut (List.mem_cons_self ..)
    | declared | imported => exact ⟨⟨ledger, clean.procedures⟩, fun _ _ => trivial⟩
    | defined _ =>
        refine ⟨⟨ledger, ?_⟩, fun _ _ => trivial⟩
        intro procedure member
        rcases Table.mem_entries_insert member with earlier | rfl
        · exact clean.procedures procedure earlier
        · exact allowed

end Pass

/-! ## Variables that code brings along -/

/-- A line that holds a list in a temporary, or nothing. -/
def HoldsList (isTemporary : String → Prop) (code : String) : Prop :=
  code = "" ∨ ∃ name list, isTemporary name ∧ code = name ++ " = " ++ list ++ "\n"

/-- What the code of a block brings along: a counted loop has a counter, a text that is joined from
more than two values has a variable that goes through them, and a change at a random position has a
temporary for the position, and one for the list if that is not a name. -/
def Block.Binds (isOwn isTemporary : String → Prop) (block : Block n) : Kind → Outcome → Prop
  | .countedLoop, outcome => ∃ counter bound body, isOwn counter ∧
      outcome = .statement ("for " ++ counter ++ " in range(" ++ bound ++ "):\n" ++ body)
  | .joined, outcome => (∃ count, block.itemCount = .ok count ∧ 0 ≤ count ∧ count ≤ 2) ∨
      ∃ x items, isOwn x ∧ outcome = .expression
        ⟨"''.join([str(" ++ x ++ ") for " ++ x ++ " in [" ++ items ++ "]])", .functionCall⟩
  | .setIndex, outcome => (block.fieldOr "WHERE" "FROM_START").isText "RANDOM" = true →
      ∃ before x items rest, HoldsList isTemporary before ∧ isTemporary x ∧ outcome = .statement
        (before ++ x ++ " = int(random.random() * len(" ++ items ++ "))\n" ++ rest)
  | _, _ => True

namespace Setting

variable (setting : Setting n) {isOwn isTemporary : String → Prop}

/-- The contract of variables that code brings along: they have identifiers of their own. -/
def binding (isOwn isTemporary : String → Prop) : Contract n where
  allows _ := True
  promises
    | .block ref, outcome => ∀ kind, Kind.ofValue? (setting.block ref).kind = .ok (some kind) →
        (setting.block ref).Binds isOwn isTemporary kind outcome
    | .fresh .., name => isOwn name
    | .temporary _, name => isTemporary name
    | _, _ => True

/-- Every generator keeps to the contract. -/
theorem ensures_any (generator : Gen n α) :
    generator.Ensures (setting.binding isOwn isTemporary) (fun _ => True) :=
  generator.ensures_of_allows fun _ => trivial

/-- A distinct variable is one that code brings along. -/
theorem ensures_own (name : Value) :
    (Gen.distinctVariable name).Ensures (setting.binding isOwn isTemporary) isOwn :=
  ⟨trivial, fun _ own => own⟩

/-- So is a temporary. -/
theorem ensures_ownTemporary (name : Value) :
    (Gen.temporary name).Ensures (setting.binding isOwn isTemporary) isTemporary :=
  ⟨trivial, fun _ own => own⟩

/-- A counted loop brings its counter along. -/
theorem binds_countedLoop (block : Block n) :
    (Gen.countedLoop setting block).Ensures (setting.binding isOwn isTemporary)
      (fun outcome => ∃ counter bound body, isOwn counter ∧
        outcome = .statement ("for " ++ counter ++ " in range(" ++ bound ++ "):\n" ++ body)) := by
  apply Gen.Ensures.bind (setting.ensures_any _)
  intro times _
  apply Gen.Ensures.bind (setting.ensures_own _)
  intro counter own
  apply Gen.Ensures.bind (setting.ensures_any _)
  intro body _
  exact ⟨counter, _, body, own, rfl⟩

/-- A text that is joined from more than two values brings a variable along. -/
theorem binds_joined (block : Block n) :
    (Gen.joined setting block).Ensures (setting.binding isOwn isTemporary)
      (block.Binds isOwn isTemporary .joined) := by
  unfold Gen.joined
  refine .bind (.lift fun count counted => counted) fun count counted => ?_
  split
  · rename_i none
    exact .inl ⟨count, counted, by omega, by omega⟩
  · split
    · rename_i one
      apply Gen.Ensures.bind (setting.ensures_any _)
      intro item _
      exact .inl ⟨count, counted, by omega, by omega⟩
    · split
      · rename_i two
        apply Gen.Ensures.bind (setting.ensures_any _)
        intro first _
        apply Gen.Ensures.bind (setting.ensures_any _)
        intro second _
        exact .inl ⟨count, counted, by omega, by omega⟩
      · apply Gen.Ensures.bind (setting.ensures_any _)
        intro items _
        apply Gen.Ensures.bind (setting.ensures_own _)
        intro x own
        exact .inr ⟨x, _, own, rfl⟩

/-- A list that is used twice is held in a temporary, unless it is a name. -/
theorem holds_listTwice (block : Block n) :
    (Gen.listTwice setting block).Ensures (setting.binding isOwn isTemporary)
      (fun code => HoldsList isTemporary code.1) := by
  unfold Gen.listTwice
  apply Gen.Ensures.bind (setting.ensures_any _)
  intro plugged _
  cases plugged with
  | none => exact .inl rfl
  | some list =>
      refine .ite (.inl rfl) ?_
      exact .bind (setting.ensures_ownTemporary _) fun name own => .inr ⟨name, _, own, rfl⟩

/-- A change at a random position brings a temporary for the position along. -/
theorem binds_setAtRandom (block : Block n) (isSet : Bool) (item : String) :
    (Gen.setAtRandom setting block isSet item).Ensures (setting.binding isOwn isTemporary)
      (fun outcome => ∃ before x items rest, HoldsList isTemporary before ∧ isTemporary x ∧
        outcome = .statement
          (before ++ x ++ " = int(random.random() * len(" ++ items ++ "))\n" ++ rest)) := by
  unfold Gen.setAtRandom
  apply Gen.Ensures.bind (setting.ensures_any _)
  intro _ _
  apply Gen.Ensures.bind (setting.holds_listTwice block)
  intro (before, items) holds
  apply Gen.Ensures.bind (setting.ensures_ownTemporary _)
  intro x own
  split
  · exact ⟨before, x, items, items ++ "[" ++ x ++ "] = " ++ item ++ "\n", holds, own,
      by simp [String.append_assoc]⟩
  · exact ⟨before, x, items, items ++ ".insert(" ++ x ++ ", " ++ item ++ ")\n", holds, own,
      by simp [String.append_assoc]⟩

/-- A change brings one along if its position is a random one. -/
theorem binds_setIndex (block : Block n) :
    (Gen.setIndex setting block).Ensures (setting.binding isOwn isTemporary)
      (block.Binds isOwn isTemporary .setIndex) := by
  unfold Gen.setIndex
  apply Gen.Ensures.bind (setting.ensures_any _)
  intro item _
  by_cases random : (block.fieldOr "WHERE" "FROM_START").isText "RANDOM" = true
  · refine .ite (.unhandled _ _) ?_
    rw [if_pos random]
    exact (setting.binds_setAtRandom block _ item).mono fun _ binds _ => binds
  · exact (setting.ensures_any _).mono fun _ _ claimed => (random claimed).elim

/-- **Generators bind what the contract says.** -/
theorem binds_generate (kind : Kind) (ref : Fin n)
    (known : Kind.ofValue? (setting.block ref).kind = .ok (some kind)) :
    (kind.generate setting (setting.block ref)).Ensures (setting.binding isOwn isTemporary)
      ((setting.binding isOwn isTemporary).promises (.block ref)) := by
  have binds : (kind.generate setting (setting.block ref)).Ensures
      (setting.binding isOwn isTemporary)
      ((setting.block ref).Binds isOwn isTemporary kind) := by
    cases kind with
    | countedLoop => exact setting.binds_countedLoop _
    | joined => exact setting.binds_joined _
    | setIndex => exact setting.binds_setIndex _
    | _ => exact setting.ensures_any _
  apply binds.mono
  intro outcome bound other same
  rw [known] at same
  cases same
  exact bound

/-- **Variables that code brings along have no other purpose**, in hindsight. -/
theorem binding_upheld (last : Pass n) :
    (setting.binding last.Apart (· ∈ last.temporaries)).UpheldUpTo last Pass.Ledger where
  ignores := Pass.ledger_stable.ignores
  effects := by
    intro pass after request result _ effect within kept
    have ledger := Pass.ledger_stable.effects effect kept
    cases effect with
    | refused | lost | unfinished => exact ⟨ledger, fun _ same => nomatch same⟩
    | distinct log novel =>
        apply And.intro ledger
        intro answer same
        cases same
        exact within.apart_of ⟨List.mem_cons_self .., kept.not_mem_purposes novel⟩
    | temporary =>
        apply And.intro ledger
        intro answer same
        cases same
        exact within.temporaries.subset (List.mem_append_right _ (List.mem_singleton_self _))
    | _ => exact ⟨ledger, fun _ _ => trivial⟩

end Setting

/-! ## Blocks and requests of a run -/

/-- The request that is to be met next. -/
def Control.pending : Control n α → Option (Request n)
  | .outside (.ask request _) => some request
  | .inside _ (.ask request _) _ _ => some request
  | _ => none

namespace Setting

variable {setting : Setting n}

/-- In a run of a generator, a request that is not for a block gets an answer. -/
def Answers (setting : Setting n) (generator : Gen n α) (pass : Pass n) (request : Request n)
    (answer : request.Answer) : Prop :=
  ∃ steps asked, setting.step^[steps] ⟨.outside generator, pass⟩ = asked ∧
    asked.control.pending = some request ∧ (serve request asked.pass).1 = .ok answer

/-- A step that meets a request leaves the pass as serving the request does. -/
theorem step_of_pending {machine : Machine n α} {request : Request n}
    (plain : ∀ ref, request ≠ .block ref) (pending : machine.control.pending = some request) :
    (setting.step machine).pass = (serve request machine.pass).2 := by
  obtain ⟨control, pass⟩ := machine
  cases control with
  | outside generator =>
      cases generator with
      | ask other next =>
          cases pending
          rw [hosts_outside.others _ plain]
      | _ => cases pending
  | inside ref generator frames last =>
      cases generator with
      | ask other next =>
          cases pending
          rw [(hosts_inside ref frames last).others _ plain]
      | _ => cases pending
  | _ => cases pending

/-- What an answer does to a pass is part of what comes of the run. -/
theorem Answers.exists_effect {generator : Gen n α} {pass : Pass n} {request : Request n}
    {answer : request.Answer} (answers : setting.Answers generator pass request answer)
    (plain : ∀ ref, request ≠ .block ref) (distinct : pass.active.Nodup) :
    ∃ before after, request.Effect before (.ok answer) after ∧
      ((setting.run generator).run.run pass).2.Extends after := by
  obtain ⟨steps, asked, arrives, pending, came⟩ := answers
  have effect := Request.effect_meet plain (fun _ => return .nothing) asked.pass
  change request.Effect asked.pass (serve request asked.pass).1 (serve request asked.pass).2
    at effect
  rw [came] at effect
  refine ⟨asked.pass, _, effect, ?_⟩
  apply (Pass.extends_stable _).finish setting distinct (steps + 1)
  rw [Function.iterate_succ_apply', arrives, step_of_pending plain pending]
  exact .refl _

/-- Names that are identified in a run are filed in the end, -/
theorem Answers.filed {generator : Gen n α} {pass : Pass n} {space : Space} {name : Value}
    {identifier : String}
    (answers : setting.Answers generator pass (.identifier space name) identifier)
    (distinct : pass.active.Nodup) {finished : Pass n}
    (reached : ((setting.run generator).run.run pass).2 = finished) :
    identifier ∈ finished.names.table.map (·.2) := by
  obtain ⟨before, after, effect, grown⟩ :=
    answers.exists_effect (fun _ same => nomatch same) distinct
  rw [reached] at grown
  apply (grown.table.map _).subset
  cases effect with
  | known _ found =>
      obtain ⟨_, _, member, _⟩ := Names.mem_table_of_search found
      exact List.mem_map.mpr ⟨_, member, rfl⟩
  | filed _ _ _ =>
      exact List.mem_map.mpr ⟨_, List.mem_append_right _ (List.mem_singleton_self _), rfl⟩

/-- and helpers that are provided are listed. -/
theorem Answers.listed {generator : Gen n α} {pass : Pass n} {key : String} {template : Template}
    {identifier : String}
    (answers : setting.Answers generator pass (.helper key template) identifier)
    (distinct : pass.active.Nodup) {finished : Pass n}
    (reached : ((setting.run generator).run.run pass).2 = finished) :
    identifier ∈ finished.functionNames.entries := by
  obtain ⟨before, after, effect, grown⟩ :=
    answers.exists_effect (fun _ same => nomatch same) distinct
  rw [reached] at grown
  apply (grown.functionNames.map _).subset
  cases effect with
  | supplied found => exact Table.mem_entries_of_get? found
  | provided _ _ _ _ => exact Table.mem_entries_of_get? (Table.get?_insert_self ..)

/-- In a run of a generator, a block is asked for and comes to an outcome. -/
def Generates (setting : Setting n) (generator : Gen n α) (pass : Pass n) (ref : Fin n)
    (outcome : Outcome) : Prop :=
  ∃ steps frames last asked,
    setting.step^[steps] ⟨.outside generator, pass⟩ = ⟨.entering ref frames last, asked⟩ ∧
    ((setting.outcome n ref).run.run asked).1 = .ok outcome

/-- What comes of a block in a run is part of what comes of the run. -/
theorem Generates.exists_asked {generator : Gen n α} {pass : Pass n} {ref : Fin n}
    {outcome : Outcome} (generates : setting.Generates generator pass ref outcome)
    (distinct : pass.active.Nodup) (ledger : pass.Ledger) :
    ∃ asked : Pass n, asked.Ledger ∧ ((setting.outcome n ref).run.run asked).1 = .ok outcome ∧
      ((setting.run generator).run.run pass).2.Extends
        ((setting.outcome n ref).run.run asked).2 := by
  obtain ⟨steps, frames, last, asked, arrives, came⟩ := generates
  have begun : (⟨.outside generator, pass⟩ : Machine n α).pass.Ledger := ledger
  have askedLedger := Pass.ledger_stable.iterate setting begun steps
  have askedDistinct := (setting.halts_run generator distinct).distinct steps
  rw [arrives] at askedLedger askedDistinct
  refine ⟨asked, askedLedger, came, ?_⟩
  -- The machine leaves the block again, and what the run adds from then on comes on top.
  obtain ⟨more, left, _⟩ :=
    (setting.faithful n ref frames last asked askedDistinct (by omega)).iterate
  apply (Pass.extends_stable _).finish setting distinct (more + steps)
  rw [Function.iterate_add_apply, arrives, left]
  exact .refl _

/-- Blocks of a run bind what nothing else in the finished pass has. -/
theorem Generates.binds {generator : Gen n α} {pass : Pass n} {ref : Fin n} {outcome : Outcome}
    (generates : setting.Generates generator pass ref outcome) (distinct : pass.active.Nodup)
    (ledger : pass.Ledger) {finished : Pass n}
    (reached : ((setting.run generator).run.run pass).2 = finished) {kind : Kind}
    (known : Kind.ofValue? (setting.block ref).kind = .ok (some kind)) :
    (setting.block ref).Binds finished.Apart (· ∈ finished.temporaries) kind outcome := by
  obtain ⟨asked, askedLedger, came, within⟩ := generates.exists_asked distinct ledger
  rw [reached] at within
  have blocks := blocksUpTo (setting.binding_upheld finished) setting.binds_generate n
  exact (blocks ref asked within askedLedger).2 outcome came kind known

end Setting

/-! ## Finished programs -/

/-- The developer variables of a program have names. -/
theorem Gen.ensures_developerNames {isName isInsert : String → Prop} {setting : Setting n} :
    (Gen.program setting).Ensures (codeContract n isName isInsert)
      (fun parts => ∀ name ∈ parts.developerNames, isName name) := by
  have developerName (name : Value) :
      (Gen.developerName name).Ensures (codeContract n isName isInsert) isName :=
    ⟨trivial, fun _ promised => promised⟩
  unfold Gen.program
  refine .bind (.each fun name _ => ensures_variableName name) fun userNames _ => ?_
  refine .bind (.each fun name _ => developerName name) fun developerNames named => ?_
  exact .bind (ensures_pieces _) fun body _ => named

namespace Setting

variable {setting : Setting n}

/-- No code is put into bodies from elsewhere. -/
def Uninstrumented (setting : Setting n) : Prop :=
  setting.options.statementPrefix.getD "" = "" ∧ setting.options.loopTrap.getD "" = ""

/-- Without a template, or with an empty one, nothing is inserted. -/
theorem instrument_eq_empty {template : Option String} (nothing : template.getD "" = "")
    (block : Block n) : instrument template block = .ok "" := by
  cases template with
  | none => rfl
  | some code =>
      cases nothing
      rfl

/-- Without instrumentation nothing is inserted into bodies. -/
theorem Uninstrumented.inserts (plain : setting.Uninstrumented) : setting.Inserts (· = "") := by
  rintro block inserted (made | made)
  · rw [instrument_eq_empty plain.2] at made
    exact (Except.ok.inj made).symm
  · rw [instrument_eq_empty plain.1] at made
    exact (Except.ok.inj made).symm

/-- A program that was run from a pass and is finished is hygienic. -/
structure Hygienic (setting : Setting n) (begun : Pass n) (parts : Parts) (finished : Pass n) :
    Prop where
  body : ∀ word ∈ mentions (Listing.bodyOf parts),
    word ∈ Names.reservedWords ∨ word ∈ finished.names.used
  procedures : ∀ procedure ∈ finished.procedures.entries, ∀ word ∈ mentions
      (procedure.render (Listing.developerGlobals parts.developerNames finished.temporaries)),
    word ∈ Names.reservedWords ∨ word ∈ finished.names.used
  /-- What blocks bind has no other purpose in the whole pass. -/
  binders : ∀ ref outcome, setting.Generates (Gen.program setting) begun ref outcome →
    ∀ kind, Kind.ofValue? (setting.block ref).kind = .ok (some kind) →
      (setting.block ref).Binds finished.Apart (· ∈ finished.temporaries) kind outcome
  /-- Variables, parameters and procedures that are named at some time are filed, -/
  named : ∀ space name identifier,
    setting.Answers (Gen.program setting) begun (.identifier space name) identifier →
      identifier ∈ finished.names.table.map (·.2)
  /-- helpers are listed, -/
  helpers : ∀ key template identifier,
    setting.Answers (Gen.program setting) begun (.helper key template) identifier →
      identifier ∈ finished.functionNames.entries
  /-- and temporaries are none of these. -/
  temporaries : ∀ temporary ∈ finished.temporaries,
    temporary ∉ finished.names.table.map (·.2) ∧ temporary ∉ finished.functionNames.entries

/-- A suite over what is handed out mentions nothing but reserved words and that. -/
theorem mentions_of_suite {finished : Pass n} {depth : Depth} {text : String}
    (suite : Suite finished.HandedOut (· = "") depth text) :
    ∀ word ∈ mentions text, word ∈ Names.reservedWords ∨ word ∈ finished.names.used := by
  intro word member
  have lists := suite.lists (fun _ handedOut => handedOut.2) (fun _ nothing => nothing)
  exact (lists.closes.passes.mentions word member).imp_right (·.1)

/-- What is run without instrumentation is written over what is handed out in the end. -/
theorem clean_run (plain : setting.Uninstrumented) {generator : Gen n α} {property : α → Prop}
    {pass finished : Pass n} {result : α} (ledger : pass.Ledger)
    (empty : pass.procedures = [])
    (ran : (setting.run generator).run.run pass = (.ok result, finished))
    (ensures : generator.Ensures (codeContract n finished.HandedOut (· = "")) property) :
    finished.Clean finished ∧ property result := by
  have clean : pass.Clean finished := by
    refine ⟨ledger, ?_⟩
    rw [empty]
    exact fun _ member => nomatch member
  have upheld := finished.clean_upheld
  have blocks := blocksUpTo upheld
    (fun kind ref _ => Kind.makes_generate plain.inserts kind (setting.block ref)) n
  have along := runWith_keepsUpTo upheld blocks ensures pass
  rw [run] at ran
  rw [ran] at along
  obtain ⟨cleanAfter, holds⟩ := along (.refl finished) clean
  exact ⟨cleanAfter, holds result rfl⟩

/-- **Generated code is hygienic.** When a listing is emitted and no code is put in from elsewhere,
its body and its procedures mention only reserved words and identifiers that the pass has handed
out, and the variables that blocks bring along are different from everything that is named in the
pass, at whatever time. -/
theorem emit_hygienic {pass after : Pass n} {listing : Listing}
    (plain : setting.Uninstrumented)
    (ran : setting.emit.run.run pass = (.ok listing, after)) :
    ∃ log parts finished,
      (setting.run (Gen.program setting)).run.run { Pass.start Names.start with log := log } =
        (.ok parts, finished) ∧
      listing = Listing.assemble finished parts ∧
      setting.Hygienic { Pass.start Names.start with log := log } parts finished := by
  obtain ⟨log, parts, finished, made, assembled, _⟩ := program_of_emit ran
  refine ⟨log, parts, finished, made, assembled, ?_⟩
  have ledger : ({ Pass.start Names.start with log := log } : Pass n).Ledger := .start log
  obtain ⟨clean, suites⟩ := clean_run plain ledger rfl made Gen.ensures_program
  obtain ⟨_, developerNames⟩ := clean_run plain ledger rfl made Gen.ensures_developerNames
  have reached := congrArg Prod.snd made
  refine ⟨?_, ?_, ?_, ?_, ?_, ?_⟩
  · apply mentions_of_suite
    apply Suite.join
    intro code member
    obtain ⟨piece, among, rfl⟩ := List.mem_map.mp member
    exact suites piece among
  · intro procedure member
    apply mentions_of_suite
    apply (clean.procedures procedure member).render
    exact clean.handedOut_developerGlobals developerNames
  · exact fun ref outcome generates kind known => generates.binds .nil ledger reached known
  · exact fun space name identifier answers => answers.filed .nil reached
  · exact fun key template identifier answers => answers.listed .nil reached
  · exact fun temporary member => clean.ledger.temporary member

/-- A loop that prints a joined text, over variables that are called as counters and variables of
comprehensions are, a change at a random position, and then a procedure that is called as a
temporary is. -/
def namesakeSample : Setting 8 :=
  .ofBlocks #v[
    .ofKind .countedLoop [("TIMES", .int 3)] [(.text "DO", some 1)],
    .ofKind .print [] [(.text "TEXT", some 2)],
    { Block.ofKind .joined [] [(.text "ADD0", some 3), (.text "ADD1", some 4)] with
      mutation := [("items", .int 3)] },
    .ofKind .getVariable [("VAR", .text "x")] [],
    .ofKind .getVariable [("VAR", .text "count")] [],
    .ofKind .setIndex [("WHERE", .text "RANDOM")] [(.text "LIST", some 6)],
    .ofKind .emptyList [] [],
    .ofKind .defineWithoutResult [("NAME", .text "tmp_x")] []] [0, 5, 7]

theorem emit_hygienic_namesakeSample :
    ∃ listing after, namesakeSample.Uninstrumented ∧
      namesakeSample.emit.run.run (Pass.start Names.start) = (.ok listing, after) ∧
      ∃ log parts finished,
        (namesakeSample.run (Gen.program namesakeSample)).run.run
          { Pass.start Names.start with log := log } = (.ok parts, finished) ∧
        listing = Listing.assemble finished parts ∧
        namesakeSample.Hygienic { Pass.start Names.start with log := log } parts finished := by
  have computed : (namesakeSample.emit.run.run (Pass.start Names.start)).1.toOption.isSome := by
    decide +kernel
  obtain ⟨listing, made⟩ := Option.isSome_iff_exists.mp computed
  have ran := Step.eq_ok_of_toOption made
  exact ⟨listing, _, ⟨rfl, rfl⟩, ran, emit_hygienic ⟨rfl, rfl⟩ ran⟩

end Setting

end BlockScript
