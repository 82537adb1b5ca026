import BlockScript.Proofs.Allocation
import BlockScript.Proofs.Conduct.Basic

/-! # What requests do to a pass

Every request that is not for a block does one of a few things to a pass, and whatever it hands out
was never handed out before (`Request.Effect`, `Request.effect_meet`). So an invariant that each of
them keeps, and that says nothing of the active blocks, is kept by whatever is run on a pass
(`Pass.Stable`), however it ends, and at every step on the way (`Pass.Stable.iterate`). No request
but for a block fails with a verdict on the program (`Request.Effect.unjudged`).
-/

namespace BlockScript

variable {n : Nat} {α : Type}

namespace Names

/-- An identifier that a pool may hand out next. -/
structure Novel (names : Names) (identifier : String) : Prop where
  unused : identifier ∉ names.used
  unreserved : identifier ∉ names.reserved
  proper : IsIdentifier identifier

/-- The first name that is free is new. -/
theorem novel_firstFree (names : Names) {base : String} (proper : IsIdentifier base) :
    names.Novel (names.firstFree base) := by
  obtain ⟨unused, unreserved⟩ := names.firstFree_not_mem base
  obtain ⟨k, same, _, _⟩ := names.firstFree_spec base
  refine ⟨unused, unreserved, ?_⟩
  rw [same]
  exact isIdentifier_candidate proper k

/-- What comes of a call for an identifier of its own. -/
inductive Granted (names : Names) : Attempt Grant → Names → Prop
  | refused {fault : Fault} : fault.Unjudged → Granted names (.error fault) names
  /-- The identifier is taken from the pool, and then a notice of it cannot be made. -/
  | lost {fault : Fault} {identifier : String} : fault.Unjudged → names.Novel identifier →
      Granted names (.error fault) (names.markUsed identifier)
  | given {identifier : String} (notice : Option Renaming) : names.Novel identifier →
      Granted names (.ok ⟨identifier, notice⟩) (names.markUsed identifier)

/-- A name may have no suggestion, but that is no verdict on the program. -/
theorem suggestion_unjudged (name : Value) : (suggestion name).Unjudged := by
  intro verdict failed
  unfold suggestion at failed
  split at failed
  · cases failed
  · split at failed <;> cases failed

/-- Neither is a notice that cannot be made. -/
theorem noticeFor_unjudged (space : Space) (name : Value) (identifier : String) :
    (noticeFor space name identifier).Unjudged := by
  intro verdict failed
  unfold noticeFor at failed
  split at failed
  · cases failed
  · split at failed <;> cases failed

/-- A call for a fresh identifier ends in one of these ways. -/
theorem granted_fresh (space : Space) (name : Value) (names : Names) :
    names.Granted ((fresh space name).run.run names).1 ((fresh space name).run.run names).2 := by
  rw [fresh_run]
  rcases suggested : suggestion name with fault | base
  · exact .refused ((suggestion_unjudged name).fault suggested)
  · have novel := names.novel_firstFree (isIdentifier_of_suggestion suggested)
    dsimp only
    rcases noted : noticeFor space name (names.firstFree base) with fault | notice
    · exact .lost ((noticeFor_unjudged space name _).fault noted) novel
    · exact .given notice novel

end Names

namespace Template

/-- A mark that cannot be read is no verdict on the program. -/
theorem mark_unjudged (chars : List Char) : (mark chars).Unjudged := by
  intro verdict failed
  unfold mark at failed
  split at failed
  · cases failed
  · dsimp only at failed
    split at failed <;> cases failed
  · dsimp only at failed
    split at failed <;> cases failed
  · cases failed

/-- Neither is a text with such marks. -/
theorem fill_unjudged (name : String) (steps : Nat) (chars : List Char) :
    (fill name steps chars).Unjudged := by
  induction steps generalizing chars with
  | zero => exact .ok _
  | succ steps ih =>
      cases chars with
      | nil => exact .ok _
      | cons c rest =>
          unfold fill
          split
          · refine .bind (mark_unjudged rest) fun ⟨mark, after⟩ => ?_
            refine .bind ?_ fun filled => .bind (ih after) fun _ => .ok _
            intro verdict failed
            cases mark with
            | dollar => cases failed
            | named own =>
                rw [Mark.filled] at failed
                split at failed <;> cases failed
          · exact .bind (ih rest) fun _ => .ok _

/-- Nor is a template that cannot be rendered. -/
theorem render_unjudged (template : Template) (name : String) :
    (template.render name).Unjudged :=
  .bind (fill_unjudged name _ _) fun _ => .ok _

end Template

namespace Request

/-- What meeting a request that is not for a block does to a pass, with the answer. Notices may be
taken all along. -/
inductive Effect (pass : Pass n) : (request : Request n) → Attempt request.Answer → Pass n → Prop
  | refused (request : Request n) {fault : Fault} (log : List String) : fault.Unjudged →
      Effect pass request (.error fault) { pass with log := log }
  /-- An identifier is taken from the pool and then not used. -/
  | lost (request : Request n) {fault : Fault} {identifier : String} (log : List String) :
      fault.Unjudged → pass.names.Novel identifier →
      Effect pass request (.error fault)
        { pass with names := pass.names.markUsed identifier, log := log }
  | known {space : Space} {name : Value} {identifier : String} (log : List String) :
      pass.names.find? space name = some identifier →
      Effect pass (.identifier space name) (.ok identifier) { pass with log := log }
  | filed {space : Space} {name : Value} {identifier : String} (log : List String) :
      pass.names.find? space name = none → pass.names.Novel identifier →
      Effect pass (.identifier space name) (.ok identifier)
        { pass with
          names := (pass.names.markUsed identifier).record space name identifier, log := log }
  | distinct {space : Space} {name : Value} {identifier : String} (log : List String) :
      pass.names.Novel identifier →
      Effect pass (.fresh space name) (.ok identifier)
        { pass with names := pass.names.markUsed identifier, log := log }
  | temporary {name : Value} {identifier : String} (log : List String) :
      pass.names.Novel identifier →
      Effect pass (.temporary name) (.ok identifier)
        { pass with
          names := pass.names.markUsed identifier
          temporaries := pass.temporaries ++ [identifier], log := log }
  | supplied {key : String} {template : Template} {identifier : String} :
      pass.functionNames.get? key = some identifier →
      Effect pass (.helper key template) (.ok identifier) pass
  | provided {key : String} {template : Template} {identifier source : String}
      (log : List String) :
      pass.functionNames.get? key = none → pass.names.Novel identifier →
      template.render identifier = .ok source →
      Effect pass (.helper key template) (.ok identifier)
        { pass with
          names := pass.names.markUsed identifier
          functionNames := pass.functionNames.insert key identifier
          helpers := pass.helpers.insert key source, log := log }
  /-- A helper whose source cannot be written has its name all the same. -/
  | unfinished {key : String} {template : Template} {identifier : String} {fault : Fault}
      (log : List String) :
      pass.functionNames.get? key = none → pass.names.Novel identifier →
      template.render identifier = .error fault →
      Effect pass (.helper key template) (.error fault)
        { pass with
          names := pass.names.markUsed identifier
          functionNames := pass.functionNames.insert key identifier, log := log }
  | declared {key statement : String} : pass.imports.has key = true →
      Effect pass (.require key statement) (.ok ()) pass
  | imported {key statement : String} (log : List String) : pass.imports.has key = false →
      Effect pass (.require key statement) (.ok ())
        { pass with imports := pass.imports.insert key statement, log := log }
  | defined {procedure : Procedure} (log : List String) :
      Effect pass (.define procedure) (.ok ())
        { pass with procedures := pass.procedures.insert procedure.name procedure, log := log }

/-- A text gets an identifier of its own, whatever was handed out before. -/
theorem run_fresh_of_text (call : Names.Call) (pass : Pass n) :
    ∃ log, (Pass.fresh call.space (.text call.name)).run.run pass =
      (.ok (pass.names.firstFree (Names.sanitize call.name)),
        { pass with
          names := pass.names.markUsed (pass.names.firstFree (Names.sanitize call.name))
          log := log }) := by
  obtain ⟨log, ran⟩ := Pass.run_grant (Names.fresh call.space (.text call.name)) pass
  obtain ⟨notice, granted⟩ := Names.run_fresh call pass.names
  refine ⟨log, ?_⟩
  unfold Pass.fresh
  rw [ran, granted]
  rfl

/-- What comes of a call for an identifier. -/
theorem effect_identifier (space : Space) (name : Value) (pass : Pass n) :
    Effect pass (.identifier space name) ((Pass.identifier space name).run.run pass).1
      ((Pass.identifier space name).run.run pass).2 := by
  obtain ⟨log, ran⟩ := Pass.run_grant (Names.identify space name) pass
  unfold Pass.identifier
  rw [ran, Names.identify_run]
  rcases labelled : space.label.atom with fault | _
  · exact .refused _ log ((Attempt.Unjudged.atom _).fault labelled)
  · rcases named : name.atom with fault | _
    · exact .refused _ log ((Attempt.Unjudged.atom _).fault named)
    · rcases found : pass.names.find? space name with _ | identifier
      · have granted := Names.granted_fresh space name pass.names
        generalize (Names.fresh space name).run.run pass.names = reply at granted ⊢
        obtain ⟨result, after⟩ := reply
        cases granted with
        | refused unjudged => exact .refused _ log unjudged
        | lost unjudged novel => exact .lost _ log unjudged novel
        | given notice novel => exact .filed log found novel
      · exact .known log found

/-- What comes of a call for a fresh identifier. -/
theorem effect_fresh (space : Space) (name : Value) (pass : Pass n) :
    Effect pass (.fresh space name) ((Pass.fresh space name).run.run pass).1
      ((Pass.fresh space name).run.run pass).2 := by
  obtain ⟨log, ran⟩ := Pass.run_grant (Names.fresh space name) pass
  unfold Pass.fresh
  rw [ran]
  have granted := Names.granted_fresh space name pass.names
  generalize (Names.fresh space name).run.run pass.names = reply at granted ⊢
  obtain ⟨result, after⟩ := reply
  cases granted with
  | refused unjudged => exact .refused _ log unjudged
  | lost unjudged novel => exact .lost _ log unjudged novel
  | given notice novel => exact .distinct log novel

/-- What comes of a call for a temporary variable. -/
theorem effect_temporary (name : Value) (pass : Pass n) :
    Effect pass (.temporary name) ((Pass.temporary name).run.run pass).1
      ((Pass.temporary name).run.run pass).2 := by
  have effect := effect_fresh .developer name pass
  unfold Pass.temporary
  rw [Step.run_bind]
  generalize (Pass.fresh .developer name).run.run pass = reply at effect ⊢
  obtain ⟨result, after⟩ := reply
  cases effect with
  | refused _ log unjudged => exact .refused _ log unjudged
  | lost _ log unjudged novel => exact .lost _ log unjudged novel
  | distinct log novel => exact .temporary log novel

/-- What comes of a call for a helper. -/
theorem effect_provide (key : String) (template : Template) (pass : Pass n) :
    Effect pass (.helper key template) ((Pass.provide key template).run.run pass).1
      ((Pass.provide key template).run.run pass).2 := by
  have looked : (get : Emission n (Pass n)).run.run pass = (.ok pass, pass) := rfl
  have effect := effect_fresh .procedure (.text key) pass
  unfold Pass.provide
  rw [Step.run_bind, looked]
  dsimp only
  rcases known : pass.functionNames.get? key with _ | identifier
  · rw [Step.run_bind]
    generalize (Pass.fresh .procedure (.text key)).run.run pass = reply at effect ⊢
    obtain ⟨result, after⟩ := reply
    cases effect with
    | refused _ log unjudged => exact .refused _ log unjudged
    | lost _ log unjudged novel => exact .lost _ log unjudged novel
    | distinct log novel =>
        rename_i identifier
        dsimp only
        rcases rendered : template.render identifier with fault | source
        · exact .unfinished log known novel rendered
        · exact .provided _ known novel rendered
  · exact .supplied known

/-- What comes of a call for an import. -/
theorem effect_require (key statement : String) (pass : Pass n) :
    Effect pass (.require key statement) ((Pass.require key statement).run.run pass).1
      ((Pass.require key statement).run.run pass).2 := by
  have looked : (get : Emission n (Pass n)).run.run pass = (.ok pass, pass) := rfl
  unfold Pass.require
  rw [Step.run_bind, looked]
  dsimp only
  rcases known : pass.imports.has key with _ | _
  · exact .imported _ known
  · exact .declared known

/-- **Every request has one of the effects**, unless it is for a block. -/
theorem effect_meet {request : Request n} (plain : ∀ ref, request ≠ .block ref)
    (visit : Fin n → Emission n Outcome) (pass : Pass n) :
    Effect pass request ((request.meet visit).run.run pass).1
      ((request.meet visit).run.run pass).2 := by
  cases request with
  | block ref => exact (plain ref rfl).elim
  | identifier space name => exact effect_identifier space name pass
  | fresh space name => exact effect_fresh space name pass
  | temporary name => exact effect_temporary name pass
  | helper key template => exact effect_provide key template pass
  | require key statement => exact effect_require key statement pass
  | define procedure => exact .defined _

/-- Only blocks are judged. -/
theorem Effect.unjudged {pass after : Pass n} {request : Request n}
    {result : Attempt request.Answer} (effect : Effect pass request result after) :
    result.Unjudged := by
  cases effect with
  | refused _ _ unjudged => exact .error unjudged
  | lost _ _ unjudged _ => exact .error unjudged
  | unfinished _ _ _ rendered => exact .error ((Template.render_unjudged _ _).fault rendered)
  | _ => exact .ok _

end Request

/-! ## Stable invariants -/

/-- An invariant that every request keeps, whatever blocks are active. -/
structure Pass.Stable (invariant : Pass n → Prop) : Prop where
  ignores : ∀ pass active, invariant pass → invariant { pass with active := active }
  effects : ∀ {pass after : Pass n} {request : Request n} {result : Attempt request.Answer},
    request.Effect pass result after → invariant pass → invariant after

/-- The contract that asks for nothing and promises nothing. -/
def Contract.free (n : Nat) : Contract n := ⟨fun _ => True, fun _ _ => True⟩

/-- Where every request is allowed, every generator keeps to the contract. -/
theorem Gen.ensures_of_allows {contract : Contract n} (allows : ∀ request, contract.allows request)
    (generator : Gen n α) : generator.Ensures contract (fun _ => True) := by
  induction generator with
  | done result => trivial
  | fail fault => trivial
  | ask request next ih => exact ⟨allows request, fun answer _ => ih answer⟩

/-- Every generator keeps to the free contract. -/
theorem Gen.ensures_free (generator : Gen n α) :
    generator.Ensures (Contract.free n) (fun _ => True) :=
  generator.ensures_of_allows fun _ => trivial

namespace Pass.Stable

variable {invariant : Pass n → Prop}

/-- The free contract upholds every stable invariant. -/
theorem upheld (stable : Pass.Stable invariant) : (Contract.free n).Upheld invariant := by
  intro visit blocks request _ pass kept
  refine ⟨?_, fun _ _ => trivial⟩
  by_cases block : ∃ ref, request = .block ref
  · obtain ⟨ref, rfl⟩ := block
    exact (blocks ref pass kept).1
  · exact stable.effects (Request.effect_meet (fun ref same => block ⟨ref, same⟩) visit pass) kept

/-- Blocks keep every stable invariant. -/
theorem blocks (stable : Pass.Stable invariant) (setting : Setting n) (depth : Nat) (ref : Fin n) :
    Step.Keeps invariant (fun _ => True) (setting.outcome depth ref) :=
  Setting.outcome_keeps stable.ignores stable.upheld
    (fun kind ref => (kind.generate setting (setting.block ref)).ensures_free) depth ref

/-- **What requests keep is kept by everything that is run**, however it ends. -/
theorem runWith (stable : Pass.Stable invariant) (setting : Setting n) (depth : Nat)
    (generator : Gen n α) {pass : Pass n} (kept : invariant pass) :
    invariant ((generator.runWith (setting.outcome depth)).run.run pass).2 :=
  (generator.ensures_free.keeps (stable.upheld _ (stable.blocks setting depth)) pass kept).1

/-- Where a generator is run, a request that it makes is met or a block is entered. -/
theorem ask {β : Type} (stable : Pass.Stable invariant) {setting : Setting n}
    {place : Gen n β → Control n α} {finish : Attempt β → Pass n → Machine n α}
    (hosts : setting.Hosts place finish) (request : Request n) (next : request.Answer → Gen n β)
    {pass : Pass n} (kept : invariant pass) :
    invariant (setting.step ⟨place (.ask request next), pass⟩).pass := by
  by_cases block : ∃ ref, request = .block ref
  · obtain ⟨ref, rfl⟩ := block
    obtain ⟨frames, last, enters, _⟩ := hosts.blocks ref next
    rw [enters]
    exact kept
  · have plain : ∀ ref, request ≠ .block ref := fun ref same => block ⟨ref, same⟩
    rw [hosts.others request plain]
    exact stable.effects (Request.effect_meet plain _ pass) kept

/-- A machine keeps it with every step. -/
theorem step (stable : Pass.Stable invariant) (setting : Setting n) {machine : Machine n α}
    (kept : invariant machine.pass) : invariant (setting.step machine).pass := by
  obtain ⟨control, pass⟩ := machine
  cases control with
  | outside generator =>
      cases generator with
      | done result => exact kept
      | fail fault => exact kept
      | ask request next => exact stable.ask Setting.hosts_outside request next kept
  | entering ref frames last =>
      rw [Setting.step]
      cases setting.entry ref pass.active with
      | ok generator => exact stable.ignores _ _ kept
      | error fault => exact kept
  | inside ref generator frames last =>
      cases generator with
      | done result => exact stable.ignores _ _ kept
      | fail fault => exact stable.ignores _ _ kept
      | ask request next => exact stable.ask (Setting.hosts_inside ref frames last) request next kept
  | leaving result frames last =>
      cases frames with
      | nil => exact kept
      | cons frame frames => exact kept
  | halted result => exact kept

/-- Any number of steps keep a stable invariant. -/
theorem iterate (stable : Pass.Stable invariant) (setting : Setting n) {machine : Machine n α}
    (kept : invariant machine.pass) (steps : Nat) :
    invariant (setting.step^[steps] machine).pass := by
  induction steps with
  | zero => exact kept
  | succ steps ih =>
      rw [Function.iterate_succ_apply']
      exact stable.step setting ih

/-- What holds at some step of a run holds in the end. -/
theorem finish (stable : Pass.Stable invariant) (setting : Setting n) {generator : Gen n α}
    {pass : Pass n} (distinct : pass.active.Nodup) (steps : Nat)
    (kept : invariant (setting.step^[steps] ⟨.outside generator, pass⟩).pass) :
    invariant ((setting.run generator).run.run pass).2 := by
  obtain ⟨total, arrives⟩ := (setting.halts_run generator distinct).halts
  have later := stable.iterate setting kept total
  rw [← Function.iterate_add_apply, Nat.add_comm, Function.iterate_add_apply, arrives,
    Setting.iterate_halted] at later
  exact later

end Pass.Stable

end BlockScript
