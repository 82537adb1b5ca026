import BlockScript.Proofs.Conduct.Kind
import BlockScript.Proofs.Growth

/-! # What is known in the end

Some promises are about the pass as it will be: that an identifier is among those handed out, that a
module is imported. They are kept in hindsight. Given the last pass of a run, a contract that
mentions it is upheld by every request that is met on the way there (`Contract.UpheldUpTo`), and so
the generators that keep to it keep an invariant all the way (`Setting.runWith_keepsUpTo`).
-/

namespace BlockScript

variable {n : Nat} {α : Type}

/-- A step keeps an invariant however it ends, and its result has a property, if no more than a last
pass has comes of it. -/
def Pass.KeepsUpTo (last : Pass n) (invariant : Pass n → Prop) (property : α → Prop)
    (step : Emission n α) : Prop :=
  ∀ pass, last.Extends (step.run.run pass).2 → invariant pass →
    invariant (step.run.run pass).2 ∧
      ∀ result, (step.run.run pass).1 = .ok result → property result

/-- On the way to a last pass, every request that is allowed gets a promised answer, and an
invariant is kept. -/
structure Contract.UpheldUpTo (contract : Contract n) (last : Pass n)
    (invariant : Pass n → Prop) : Prop where
  ignores : ∀ pass active, invariant pass → invariant { pass with active := active }
  effects : ∀ {pass after : Pass n} {request : Request n} {result : Attempt request.Answer},
    contract.allows request → request.Effect pass result after → last.Extends after →
      invariant pass →
        invariant after ∧ ∀ answer, result = .ok answer → contract.promises request answer

namespace Setting

variable {contract : Contract n} {last : Pass n} {invariant : Pass n → Prop} {setting : Setting n}

/-- Blocks keep an invariant and come to what is promised of them, on the way to a last pass. -/
def BlocksUpTo (setting : Setting n) (contract : Contract n) (last : Pass n)
    (invariant : Pass n → Prop) (depth : Nat) : Prop :=
  ∀ ref, last.KeepsUpTo invariant (contract.promises (.block ref)) (setting.outcome depth ref)

/-- A request is met as promised, if blocks are. -/
theorem meet_keepsUpTo (upheld : contract.UpheldUpTo last invariant) {depth : Nat}
    (blocks : setting.BlocksUpTo contract last invariant depth) {request : Request n}
    (allowed : contract.allows request) :
    last.KeepsUpTo invariant (contract.promises request)
      (request.meet (setting.outcome depth)) := by
  by_cases block : ∃ ref, request = .block ref
  · obtain ⟨ref, rfl⟩ := block
    exact blocks ref
  · intro pass within kept
    have effect := Request.effect_meet (fun ref same => block ⟨ref, same⟩)
      (setting.outcome depth) pass
    exact upheld.effects allowed effect within kept

/-- **Generators keep in hindsight what requests keep.** -/
theorem runWith_keepsUpTo (upheld : contract.UpheldUpTo last invariant) {depth : Nat}
    (blocks : setting.BlocksUpTo contract last invariant depth) {property : α → Prop}
    {generator : Gen n α} (ensures : generator.Ensures contract property) :
    last.KeepsUpTo invariant property (generator.runWith (setting.outcome depth)) := by
  induction generator with
  | done result =>
      intro pass _ kept
      refine ⟨kept, fun other same => ?_⟩
      cases same
      exact ensures
  | fail fault => exact fun pass _ kept => ⟨kept, fun _ same => nomatch same⟩
  | ask request next ih =>
      intro pass within kept
      have met := meet_keepsUpTo upheld blocks ensures.1 pass
      rw [run_ask] at within ⊢
      generalize (request.meet (setting.outcome depth)).run.run pass = reply at met within ⊢
      obtain ⟨fault | answer, after⟩ := reply
      · exact ⟨(met within kept).1, fun _ same => nomatch same⟩
      · -- What the rest of the generator adds comes on top of the answered request.
        have grown := Pass.runWith_extends setting depth (next answer) after
        obtain ⟨keptAfter, promised⟩ := met (within.trans grown) kept
        exact ih answer (ensures.2 answer (promised answer rfl)) after within keptAfter

theorem outcome_zero_fails (setting : Setting n) (ref : Fin n) (pass : Pass n) :
    ∃ fault, (setting.outcome 0 ref).run.run pass = (.error fault, pass) := by
  unfold outcome
  rcases known : Kind.ofValue? (setting.block ref).kind with fault | found
  · simp only [known]
    exact ⟨fault, rfl⟩
  · simp only [known]
    cases found with
    | none => exact ⟨_, rfl⟩
    | some kind => exact ⟨_, rfl⟩

/-- A block that comes to an outcome is of a kind, whose generator comes to it. -/
theorem exists_run_of_outcome {ref : Fin n} {depth : Nat} {outcome : Outcome} {pass after : Pass n}
    (ran : (setting.outcome depth ref).run.run pass = (.ok outcome, after)) :
    ∃ kind below inner, Kind.ofValue? (setting.block ref).kind = .ok (some kind) ∧
      ((kind.generate setting (setting.block ref)).runWith (setting.outcome below)).run.run
        { pass with active := ref :: pass.active } = (.ok outcome, inner) ∧
      after = { inner with active := inner.active.erase ref } := by
  cases depth with
  | zero =>
      obtain ⟨fault, failed⟩ := setting.outcome_zero_fails ref pass
      rw [failed] at ran
      cases ran
  | succ depth =>
      rw [run_outcome_succ] at ran
      cases admitted : setting.entry ref pass.active with
      | error fault =>
          rw [admitted] at ran
          cases ran
      | ok generator =>
          obtain ⟨kind, known, rfl⟩ := exists_kind_of_entry admitted
          rw [admitted] at ran
          obtain ⟨came, rfl⟩ := Prod.mk.inj ran
          exact ⟨kind, depth, _, known, Prod.ext came rfl, rfl⟩

/-- **Blocks keep in hindsight what generators ensure**, at every depth. -/
theorem blocksUpTo (upheld : contract.UpheldUpTo last invariant)
    (generates : ∀ (kind : Kind) (ref : Fin n),
      Kind.ofValue? (setting.block ref).kind = .ok (some kind) →
        (kind.generate setting (setting.block ref)).Ensures contract
          (contract.promises (.block ref)))
    (depth : Nat) : setting.BlocksUpTo contract last invariant depth := by
  induction depth with
  | zero =>
      intro ref pass _ kept
      obtain ⟨fault, failed⟩ := setting.outcome_zero_fails ref pass
      rw [failed]
      exact ⟨kept, fun _ same => nomatch same⟩
  | succ depth ih =>
      intro ref pass within kept
      rw [run_outcome_succ] at within ⊢
      cases admitted : setting.entry ref pass.active with
      | error fault => exact ⟨kept, fun _ same => nomatch same⟩
      | ok generator =>
          rw [admitted] at within
          obtain ⟨kind, known, rfl⟩ := exists_kind_of_entry admitted
          dsimp only at within ⊢
          rw [Pass.run_within] at within ⊢
          have inside := runWith_keepsUpTo upheld ih (generates kind ref known)
            { pass with active := ref :: pass.active }
            ⟨within.imports, within.functionNames, within.temporaries, within.table, within.used,
              within.apart⟩
            (upheld.ignores _ _ kept)
          exact ⟨upheld.ignores _ _ inside.1, inside.2⟩

end Setting

end BlockScript
