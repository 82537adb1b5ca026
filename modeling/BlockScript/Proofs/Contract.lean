import BlockScript.Gen.Run

/-! # Contracts of generators

A generator is a tree of requests, so what it ensures can be said without any pass: as long as the
answers are as a contract promises, every request is one that the contract allows and the result has
a property (`Gen.Ensures`). A pass that upholds the contract keeps its invariant through every
generator (`Gen.Ensures.keeps`), and, when the generators of all kinds ensure what the contract
promises of blocks, through every block (`Setting.outcome_keeps`).
-/

namespace BlockScript

variable {n : Nat} {σ α β : Type}

/-- Attempts in a row succeed when each of them does, whatever they may fail with. -/
theorem Attempt.bind_eq_ok {ε : Type} {first : Except ε α} {next : α → Except ε β} {result : β} :
    first >>= next = .ok result ↔ ∃ between, first = .ok between ∧ next between = .ok result := by
  cases first with
  | ok between =>
      refine ⟨fun done => ⟨between, rfl, done⟩, fun ⟨_, same, done⟩ => ?_⟩
      cases same
      exact done
  | error fault => exact ⟨fun done => (nomatch done), fun ⟨_, same, _⟩ => (nomatch same)⟩

/-- A step on a state that may fail. -/
abbrev Step (σ α : Type) := ExceptT Fault (StateM σ) α

namespace Step

/-- What continues a step is run where the step ended, and not after a failure. -/
theorem run_bind (step : Step σ α) (next : α → Step σ β) (state : σ) :
    (step >>= next).run.run state =
      match step.run.run state with
      | (.ok result, after) => (next result).run.run after
      | (.error fault, after) => (.error fault, after) := by
  change (match step.run.run state with
    | (result, after) => (ExceptT.bindCont next result).run after) = _
  rcases step.run.run state with ⟨_ | _, _⟩ <;> rfl

/-- Steps in a row succeed when each of them does. -/
theorem bind_eq_ok {step : Step σ α} {next : α → Step σ β} {state after : σ} {result : β} :
    (step >>= next).run.run state = (.ok result, after) ↔
      ∃ value between, step.run.run state = (.ok value, between) ∧
        (next value).run.run between = (.ok result, after) := by
  rw [run_bind]
  rcases step.run.run state with ⟨fault | value, between⟩
  · refine ⟨fun done => (nomatch done), fun ⟨_, _, same, _⟩ => (nomatch same)⟩
  · refine ⟨fun done => ⟨value, between, rfl, done⟩, fun ⟨_, _, same, done⟩ => ?_⟩
    cases same
    exact done

/-- A step that comes to a result succeeds with it. -/
theorem eq_ok_of_toOption {step : Step σ α} {state : σ} {result : α}
    (computed : (step.run.run state).1.toOption = some result) :
    step.run.run state = (.ok result, (step.run.run state).2) := by
  rcases ran : step.run.run state with ⟨fault | other, after⟩
  · rw [ran] at computed
    cases computed
  · rw [ran] at computed
    cases computed
    rfl

/-- A step keeps an invariant of the state however it ends, and its result has a property. -/
def Keeps (invariant : σ → Prop) (property : α → Prop) (step : Step σ α) : Prop :=
  ∀ state, invariant state → invariant (step.run.run state).2 ∧
    ∀ result, (step.run.run state).1 = .ok result → property result

namespace Keeps

variable {invariant : σ → Prop} {property : α → Prop} {further : β → Prop}

theorem pure {result : α} (holds : property result) :
    Keeps invariant property (Pure.pure result : Step σ α) := by
  intro state kept
  refine ⟨kept, fun other same => ?_⟩
  cases same
  exact holds

theorem throw (fault : Fault) : Keeps invariant property (throw fault : Step σ α) :=
  fun _ kept => ⟨kept, fun _ same => nomatch same⟩

/-- A step after another, which may use what that one ensured. -/
theorem bind {step : Step σ α} {next : α → Step σ β}
    (first : Keeps invariant property step)
    (rest : ∀ result, property result → Keeps invariant further (next result)) :
    Keeps invariant further (step >>= next) := by
  intro state kept
  obtain ⟨between, found⟩ := first state kept
  rw [run_bind]
  rcases ran : step.run.run state with ⟨fault | result, after⟩
  · rw [ran] at between
    exact ⟨between, fun _ same => nomatch same⟩
  · rw [ran] at between found
    exact rest result (found result rfl) after between

/-- A step that only looks the state up. -/
theorem get : Keeps invariant invariant (MonadState.get : Step σ σ) := by
  intro state kept
  refine ⟨kept, fun other same => ?_⟩
  cases same
  exact kept

/-- A state that is set has to satisfy the invariant. -/
theorem set {state : σ} (holds : invariant state) :
    Keeps invariant (fun _ => True) (set state : Step σ Unit) :=
  fun _ _ => ⟨holds, fun _ _ => trivial⟩

/-- A change of the state has to keep it. -/
theorem modify {change : σ → σ} (keeps : ∀ state, invariant state → invariant (change state)) :
    Keeps invariant (fun _ => True) (modify change : Step σ Unit) :=
  fun state kept => ⟨keeps state kept, fun _ _ => trivial⟩

/-- An attempt leaves the state alone. -/
theorem ofExcept {attempt : Attempt α} (holds : ∀ result, attempt = .ok result → property result) :
    Keeps invariant property (ofExcept attempt : Step σ α) := by
  cases attempt with
  | ok result => exact pure (holds result rfl)
  | error fault => exact throw fault

/-- An invariant that says nothing of the active blocks is kept while a block is active. -/
theorem within {invariant : Pass n → Prop} {step : Emission n α} (ref : Fin n)
    (ignores : ∀ pass active, invariant pass → invariant { pass with active := active })
    (keeps : Keeps invariant property step) : Keeps invariant property (Pass.within ref step) := by
  intro pass kept
  obtain ⟨after, found⟩ := keeps _ (ignores pass (ref :: pass.active) kept)
  rw [Pass.run_within]
  exact ⟨ignores _ _ after, found⟩

end Keeps

end Step

/-- What generators may ask of a pass, and what they may count on. -/
structure Contract (n : Nat) where
  /-- The requests that are made. -/
  allows : Request n → Prop
  /-- What holds of the answer to a request. -/
  promises : (request : Request n) → request.Answer → Prop

/-- A pass with an invariant upholds a contract if, given blocks that come to what is promised of
them, every request that is allowed gets a promised answer. -/
def Contract.Upheld (contract : Contract n) (invariant : Pass n → Prop) : Prop :=
  ∀ visit : Fin n → Emission n Outcome,
    (∀ ref, Step.Keeps invariant (contract.promises (.block ref)) (visit ref)) →
      ∀ request, contract.allows request →
        Step.Keeps invariant (contract.promises request) (request.meet visit)

namespace Gen

/-- A generator keeps to a contract and its result has a property, if it has one. -/
def Ensures (contract : Contract n) (property : α → Prop) : Gen n α → Prop
  | .done result => property result
  | .fail _ => True
  | .ask request next =>
      contract.allows request ∧
        ∀ answer, contract.promises request answer → (next answer).Ensures contract property

namespace Ensures

variable {contract : Contract n} {property : α → Prop} {further : β → Prop}

theorem fail (fault : Fault) : (Gen.fail fault : Gen n α).Ensures contract property := trivial

theorem reject (cause : Cause) : (Gen.reject cause : Gen n α).Ensures contract property := trivial

theorem unhandled (block : Block n) (combination : Table Value) :
    (Gen.unhandled block combination : Gen n α).Ensures contract property := trivial

/-- A generator after another, which may use what that one ensured. -/
theorem bind {generator : Gen n α} {next : α → Gen n β}
    (first : generator.Ensures contract property)
    (rest : ∀ result, property result → (next result).Ensures contract further) :
    (generator >>= next).Ensures contract further := by
  induction generator with
  | done result => exact rest result first
  | fail fault => trivial
  | ask request answer ih =>
      exact ⟨first.1, fun reply promised => ih reply (first.2 reply promised)⟩

/-- A generator ensures what follows from what it ensures. -/
theorem mono {generator : Gen n α} {weaker : α → Prop}
    (ensures : generator.Ensures contract property)
    (weakens : ∀ result, property result → weaker result) : generator.Ensures contract weaker := by
  induction generator with
  | done result => exact weakens result ensures
  | fail fault => trivial
  | ask request answer ih =>
      exact ⟨ensures.1, fun reply promised => ih reply (ensures.2 reply promised)⟩

/-- A choice ensures what both sides do. -/
theorem ite {condition : Prop} [Decidable condition] {first second : Gen n α}
    (yes : first.Ensures contract property) (no : second.Ensures contract property) :
    (if condition then first else second).Ensures contract property := by
  split
  · exact yes
  · exact no

/-- An attempt makes no request. -/
theorem lift {attempt : Attempt α} (holds : ∀ result, attempt = .ok result → property result) :
    (Gen.lift attempt : Gen n α).Ensures contract property := by
  cases attempt with
  | ok result => exact holds result rfl
  | error fault => trivial

/-- A generator that is run for every element of a list ensures a property of all results. -/
theorem each {γ : Type} {generate : γ → Gen n α} {elements : List γ}
    (ensures : ∀ element ∈ elements, (generate element).Ensures contract property) :
    (Gen.each generate elements).Ensures contract (fun results => ∀ result ∈ results,
      property result) := by
  induction elements with
  | nil => exact fun _ member => nomatch member
  | cons element rest ih =>
      refine bind (ensures element (List.mem_cons_self ..)) fun result holds => ?_
      refine bind (ih fun other member => ensures other (List.mem_cons_of_mem _ member))
        fun results all => ?_
      exact List.forall_mem_cons.mpr ⟨holds, all⟩

/-- **Generators keep what requests keep.** A pass that meets all allowed requests as promised
keeps its invariant through a whole generator. -/
theorem keeps {invariant : Pass n → Prop} {visit : Fin n → Emission n Outcome}
    (meets : ∀ request, contract.allows request →
      Step.Keeps invariant (contract.promises request) (request.meet visit))
    {generator : Gen n α} (ensures : generator.Ensures contract property) :
    Step.Keeps invariant property (generator.runWith visit) := by
  induction generator with
  | done result => exact .pure ensures
  | fail fault => exact .throw fault
  | ask request next ih =>
      exact .bind (meets request ensures.1) fun answer promised =>
        ih answer (ensures.2 answer promised)

end Ensures

end Gen

namespace Setting

variable {contract : Contract n} {invariant : Pass n → Prop} {setting : Setting n}

/-- **Blocks keep what generators ensure.** If the generator of every kind ensures what is promised
of blocks, then blocks come to what is promised, at any depth and whatever blocks are active. -/
theorem outcome_keeps
    (ignores : ∀ pass active, invariant pass → invariant { pass with active := active })
    (upheld : contract.Upheld invariant)
    (generates : ∀ (kind : Kind) (ref : Fin n),
      (kind.generate setting (setting.block ref)).Ensures contract (contract.promises (.block ref)))
    (depth : Nat) (ref : Fin n) :
    Step.Keeps invariant (contract.promises (.block ref)) (setting.outcome depth ref) := by
  induction depth generalizing ref with
  | zero =>
      -- At depth zero every block fails.
      unfold outcome
      refine .bind (.ofExcept fun _ _ => trivial) fun found _ => ?_
      cases found with
      | none => exact .throw _
      | some kind => exact .throw _
  | succ depth ih =>
      unfold outcome
      refine .bind (.ofExcept fun _ _ => trivial) fun found _ => ?_
      cases found with
      | none => exact .throw _
      | some kind =>
          refine .bind .get fun pass _ => ?_
          cases pass.active.contains ref with
          | true => exact .throw _
          | false =>
              exact .within ref ignores
                (Gen.Ensures.keeps (upheld (setting.outcome depth) ih) (generates kind ref))

end Setting

/-! ## Settings of given blocks -/

/-- A block of a kind, with the kind's label as its id, that nothing follows. -/
def Block.ofKind (kind : Kind) (fields : Table Value) (inputs : List (Value × Option (Fin n))) :
    Block n :=
  ⟨.text kind.label, .text kind.label, fields, [], inputs, none⟩

/-- A program of given blocks that declares no variables, with the options as they are by
default. -/
def Setting.ofBlocks (blocks : Vector (Block n) n) (roots : List (Fin n)) : Setting n where
  workspace := ⟨⟨blocks⟩, roots, [], [], true⟩
  options := {}

end BlockScript
