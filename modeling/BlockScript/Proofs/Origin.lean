import BlockScript.Proofs.Hygiene

/-! # Origins

Whatever a run brings about goes back to a request that was met at some step of it
(`Setting.exists_served`), and every request is made by the generator of a block, or by the one that
is run as a whole (`Control.running`). Each of them keeps to a contract of its own, for which it may
count on what is known in the end (`Setting.Regime`). The generators that wait for a block keep to
theirs when they go on, so every request of a run is one that the contract of whoever makes it
allows (`Setting.Regime.allows`).
-/

namespace BlockScript

variable {n : Nat} {α : Type}

/-- The block whose generator is run, none outside of all blocks. -/
def Control.running : Control n α → Option (Fin n)
  | .inside ref _ _ _ => some ref
  | _ => none

namespace Setting

variable {setting : Setting n}

/-- In a run of a generator, whoever is running makes a request that is not for a block and gets an
answer. -/
def Asks (setting : Setting n) (generator : Gen n α) (pass : Pass n) (asker : Option (Fin n))
    (request : Request n) (answer : request.Answer) : Prop :=
  ∃ steps asked, setting.step^[steps] ⟨.outside generator, pass⟩ = asked ∧
    asked.control.running = asker ∧ asked.control.pending = some request ∧
    (serve request asked.pass).1 = .ok answer

theorem Asks.answers {generator : Gen n α} {pass : Pass n} {asker : Option (Fin n)}
    {request : Request n} {answer : request.Answer}
    (asks : setting.Asks generator pass asker request answer) :
    setting.Answers generator pass request answer := by
  obtain ⟨steps, asked, arrives, _, pending, came⟩ := asks
  exact ⟨steps, asked, arrives, pending, came⟩

/-! ## Contracts of whoever asks -/

/-- Contracts for what is run as a whole and for every block, which are upheld up to a last pass.
Nothing is promised of what blocks come to. -/
structure Regime (setting : Setting n) (last : Pass n)
    (contract : Option (Fin n) → Contract n) : Prop where
  blocks : ∀ asker ref outcome, (contract asker).promises (.block ref) outcome
  served : ∀ asker request (pass : Pass n) answer, (∀ ref, request ≠ .block ref) →
    (contract asker).allows request → (serve request pass).1 = .ok answer →
      last.Extends (serve request pass).2 → (contract asker).promises request answer
  generates : ∀ asker ref kind, (contract asker).allows (.block ref) →
    Kind.ofValue? (setting.block ref).kind = .ok (some kind) →
      (kind.generate setting (setting.block ref)).Ensures (contract (some ref)) (fun _ => True)

end Setting

/-- Generators that wait for a block keep to their contracts when they go on. -/
structure Waits (contract : Option (Fin n) → Contract n) (frames : List (Frame n))
    (last : Outcome → Gen n α) : Prop where
  frames : ∀ frame ∈ frames, ∀ outcome,
    (frame.next outcome).Ensures (contract (some frame.ref)) (fun _ => True)
  last : ∀ outcome, (last outcome).Ensures (contract none) (fun _ => True)

/-- All generators of a machine keep to their contracts. -/
def Control.Complies (contract : Option (Fin n) → Contract n) : Control n α → Prop
  | .outside generator => generator.Ensures (contract none) (fun _ => True)
  | .entering ref frames last =>
      (∃ asker, (contract asker).allows (.block ref)) ∧ Waits contract frames last
  | .inside ref generator frames last =>
      generator.Ensures (contract (some ref)) (fun _ => True) ∧ Waits contract frames last
  | .leaving _ frames last => Waits contract frames last
  | .halted _ => True

theorem Control.Complies.allows {contract : Option (Fin n) → Contract n} {control : Control n α}
    (complies : control.Complies contract) {request : Request n}
    (pending : control.pending = some request) : (contract control.running).allows request := by
  cases control with
  | outside generator =>
      cases generator with
      | ask other next =>
          cases pending
          exact complies.1
      | _ => cases pending
  | inside ref generator frames last =>
      cases generator with
      | ask other next =>
          cases pending
          exact complies.1.1
      | _ => cases pending
  | _ => cases pending

namespace Setting

/-- A run has in the end what it has at any step. -/
theorem run_extends_step (setting : Setting n) (generator : Gen n α) {pass : Pass n}
    (distinct : pass.active.Nodup) (steps : Nat) :
    ((setting.run generator).run.run pass).2.Extends
      (setting.step^[steps] ⟨.outside generator, pass⟩).pass :=
  (Pass.extends_stable _).finish setting distinct steps (.refl _)

namespace Regime

variable {setting : Setting n} {last : Pass n} {contract : Option (Fin n) → Contract n}
  (regime : setting.Regime last contract)

include regime

/-- A generator that is answered keeps to its contract, and one that is refused fails. -/
theorem resumed {asker : Option (Fin n)} {request : Request n} {next : request.Answer → Gen n α}
    (ensures : (Gen.ask request next).Ensures (contract asker) (fun _ => True))
    (plain : ∀ ref, request ≠ .block ref) {pass : Pass n}
    (within : last.Extends (serve request pass).2) :
    (Gen.lift (serve request pass).1 >>= next).Ensures (contract asker) (fun _ => True) := by
  rcases came : (serve request pass).1 with fault | answer
  · trivial
  · exact ensures.2 answer (regime.served asker request pass answer plain ensures.1 came within)

/-- **A step keeps to the contracts**, on the way to the last pass. -/
theorem complies_step {machine : Machine n α} (complies : machine.control.Complies contract)
    (within : last.Extends (setting.step machine).pass) :
    (setting.step machine).control.Complies contract := by
  obtain ⟨control, pass⟩ := machine
  cases control with
  | outside generator =>
      cases generator with
      | done result => trivial
      | fail fault => trivial
      | ask request next =>
          by_cases block : ∃ ref, request = .block ref
          · obtain ⟨ref, rfl⟩ := block
            refine ⟨⟨none, complies.1⟩, ⟨?_, fun outcome => ?_⟩⟩
            · exact List.forall_mem_nil _
            · exact complies.2 outcome (regime.blocks none ref outcome)
          · have plain : ∀ ref, request ≠ .block ref := fun ref same => block ⟨ref, same⟩
            rw [hosts_outside.others request plain] at within ⊢
            exact regime.resumed complies plain within
  | entering ref frames continuation =>
      obtain ⟨⟨asker, allowed⟩, waits⟩ := complies
      rw [step]
      cases admitted : setting.entry ref pass.active with
      | error fault => exact waits
      | ok generator =>
          obtain ⟨kind, known, rfl⟩ := exists_kind_of_entry admitted
          exact ⟨regime.generates asker ref kind allowed known, waits⟩
  | inside ref generator frames continuation =>
      obtain ⟨ensures, waits⟩ := complies
      cases generator with
      | done outcome => exact waits
      | fail fault => exact waits
      | ask request next =>
          by_cases block : ∃ child, request = .block child
          · obtain ⟨child, rfl⟩ := block
            refine ⟨⟨some ref, ensures.1⟩, ⟨?_, waits.last⟩⟩
            refine List.forall_mem_cons.mpr ⟨fun outcome => ?_, waits.frames⟩
            exact ensures.2 outcome (regime.blocks (some ref) child outcome)
          · have plain : ∀ child, request ≠ .block child := fun child same => block ⟨child, same⟩
            rw [(hosts_inside ref frames continuation).others request plain] at within ⊢
            exact ⟨regime.resumed ensures plain within, waits⟩
  | leaving result frames continuation =>
      cases frames with
      | nil =>
          cases result with
          | error fault => trivial
          | ok outcome => exact complies.last outcome
      | cons frame frames =>
          obtain ⟨goesOn, others⟩ := List.forall_mem_cons.mp complies.frames
          refine ⟨?_, others, complies.last⟩
          cases result with
          | error fault => trivial
          | ok outcome => exact goesOn outcome
  | halted result => trivial

variable {generator : Gen n α}
  (ensures : generator.Ensures (contract none) (fun _ => True)) {pass : Pass n}
  (distinct : pass.active.Nodup) (reached : ((setting.run generator).run.run pass).2 = last)

include ensures distinct reached

/-- **A run keeps to the contracts** at every step. -/
theorem complies (steps : Nat) :
    (setting.step^[steps] ⟨.outside generator, pass⟩).control.Complies contract := by
  induction steps with
  | zero => exact ensures
  | succ steps ih =>
      have within := setting.run_extends_step generator distinct (steps + 1)
      rw [reached, Function.iterate_succ_apply'] at within
      rw [Function.iterate_succ_apply']
      exact regime.complies_step ih within

/-- Whatever is asked in a run is allowed to whoever asks. -/
theorem allows {steps : Nat} {asked : Machine n α}
    (arrives : setting.step^[steps] ⟨.outside generator, pass⟩ = asked) {request : Request n}
    (pending : asked.control.pending = some request) :
    (contract asked.control.running).allows request := by
  have complies := regime.complies ensures distinct reached steps
  rw [arrives] at complies
  exact complies.allows pending

/-- Whatever is answered in a run is allowed and answered as promised. -/
theorem promises {asker : Option (Fin n)} {request : Request n} {answer : request.Answer}
    (asks : setting.Asks generator pass asker request answer)
    (plain : ∀ ref, request ≠ .block ref) :
    (contract asker).allows request ∧ (contract asker).promises request answer := by
  obtain ⟨steps, asked, arrives, rfl, pending, came⟩ := asks
  have allowed := regime.allows ensures distinct reached arrives pending
  have within := setting.run_extends_step generator distinct (steps + 1)
  rw [reached, Function.iterate_succ_apply', arrives, step_of_pending plain pending] at within
  exact ⟨allowed, regime.served _ request asked.pass answer plain allowed came within⟩

end Regime

/-! ## What a run brings about -/

variable {setting : Setting n}

/-- A step of a machine meets a request, or no more changes than which blocks are active. -/
theorem step_pass (machine : Machine n α) :
    (∃ request, machine.control.pending = some request ∧ (∀ ref, request ≠ .block ref) ∧
      (setting.step machine).pass = (serve request machine.pass).2) ∨
      ∃ active, (setting.step machine).pass = { machine.pass with active := active } := by
  obtain ⟨control, pass⟩ := machine
  -- A request for a block leaves the pass alone, and any other is the one that is met.
  have asked {request : Request n} (pending : control.pending = some request)
      (entered : ∀ ref, request = .block ref → (setting.step ⟨control, pass⟩).pass = pass) :
      (∃ request, control.pending = some request ∧ (∀ ref, request ≠ .block ref) ∧
        (setting.step ⟨control, pass⟩).pass = (serve request pass).2) ∨
        ∃ active, (setting.step ⟨control, pass⟩).pass = { pass with active := active } := by
    by_cases block : ∃ ref, request = .block ref
    · obtain ⟨ref, same⟩ := block
      exact .inr ⟨pass.active, entered ref same⟩
    · have plain : ∀ ref, request ≠ .block ref := fun ref same => block ⟨ref, same⟩
      exact .inl ⟨request, pending, plain, step_of_pending plain pending⟩
  cases control with
  | outside generator =>
      cases generator with
      | ask request next =>
          refine asked rfl ?_
          rintro ref rfl
          rfl
      | _ => exact .inr ⟨pass.active, rfl⟩
  | entering ref frames last =>
      rw [step]
      cases setting.entry ref pass.active with
      | ok generator => exact .inr ⟨_, rfl⟩
      | error fault => exact .inr ⟨pass.active, rfl⟩
  | inside ref generator frames last =>
      cases generator with
      | ask request next =>
          refine asked rfl ?_
          rintro child rfl
          rfl
      | _ => exact .inr ⟨_, rfl⟩
  | leaving result frames last => cases frames <;> exact .inr ⟨pass.active, rfl⟩
  | halted result => exact .inr ⟨pass.active, rfl⟩

/-- **What a run brings about goes back to a request.** If something holds after a run that did not
hold before, and it is not about the active blocks, then some request was met before which it did
not hold and after which it did. -/
theorem exists_served (property : Pass n → Prop)
    (ignores : ∀ pass active, property { pass with active := active } → property pass)
    {generator : Gen n α} {pass finished : Pass n} (distinct : pass.active.Nodup)
    (reached : ((setting.run generator).run.run pass).2 = finished) (missing : ¬property pass)
    (brought : property finished) :
    ∃ asker request result before after,
      (∀ answer, result = .ok answer → setting.Asks generator pass asker request answer) ∧
      request.Effect before result after ∧ ¬property before ∧ property after := by
  obtain ⟨total, halted⟩ := (setting.halts_run generator distinct).halts
  have last : property (setting.step^[total] ⟨.outside generator, pass⟩).pass := by
    rw [halted, reached]
    exact brought
  clear halted reached brought
  -- From the last step back, one is found that brings it about.
  induction total with
  | zero => exact (missing last).elim
  | succ steps ih =>
      by_cases earlier : property (setting.step^[steps] ⟨.outside generator, pass⟩).pass
      · exact ih earlier
      · rw [Function.iterate_succ_apply'] at last
        rcases setting.step_pass (setting.step^[steps] ⟨.outside generator, pass⟩) with
          ⟨request, pending, plain, served⟩ | ⟨active, same⟩
        · rw [served] at last
          exact ⟨_, request, _, _, _, fun answer came => ⟨steps, _, rfl, rfl, pending, came⟩,
            Request.effect_meet plain (fun _ => return .nothing) _, earlier, last⟩
        · rw [same] at last
          exact (earlier (ignores _ _ last)).elim

end Setting

end BlockScript
