import BlockScript.Proofs.Conduct.Kind
import BlockScript.Proofs.Effect
import BlockScript.Proofs.Forest.Load

/-! # Verdicts of cycles

Generation finds a cycle in two ways: a block is asked for while it is active, or a chain comes back
to one of its blocks. Blocks may be shared and generated many times, and yet there is no false
alarm. The active blocks are a way through the graph at every moment, each of them leading to
whatever is asked for, so a block that is asked for while it is active leads to itself
(`Setting.soundAt`, `Setting.emit_sound`). The graph of an accepted description has no cycle, so
generating it never fails because of one (`cycle_verdicts_sound`).
-/

namespace BlockScript

variable {n : Nat} {α : Type}

theorem Kind.ofValue?_unjudged (value : Value) : (Kind.ofValue? value).Unjudged := by
  refine .bind (.atom value) fun _ => ?_
  cases value <;> exact .ok _

namespace Setting

/-- A result that reports a cycle only if the graph has one. -/
def Sound (setting : Setting n) (result : Attempt α) : Prop :=
  ∀ verdict, result = .error (.rejected verdict) → verdict.family = .cyclic →
    setting.workspace.graph.Cyclic

/-- The active blocks lead to a block, and those that are not active yet are no more than the
depth. -/
structure Underway (setting : Setting n) (depth : Nat) (leads : Fin n → Prop)
    (active : List (Fin n)) : Prop where
  distinct : active.Nodup
  enough : n ≤ depth + active.length
  path : ∀ other ∈ active, ∀ ref, leads ref →
    Relation.TransGen setting.workspace.graph.Links other ref

/-- Blocks report soundly what they come to at a depth, if the active blocks lead to them. -/
def SoundAt (setting : Setting n) (depth : Nat) : Prop :=
  ∀ (ref : Fin n) (pass : Pass n), setting.Underway depth (· = ref) pass.active →
    setting.Sound ((setting.outcome depth ref).run.run pass).1

variable {setting : Setting n}

/-- A scope in which nothing is made of the promises has them kept. -/
theorem conduct_promises (setting : Setting n) {scope : Scope n} (imported : scope.imported)
    (isProcedure : ∀ name, scope.isProcedure name) (request : Request n)
    (answer : request.Answer) : (setting.conduct scope).promises request answer := by
  cases request with
  | identifier space name =>
      cases space with
      | procedure => exact isProcedure answer
      | _ => trivial
  | require key statement => exact fun _ => imported
  | _ => trivial

/-- **Generators report soundly what blocks do.** The way through the active blocks goes on to every
block that a generator asks for. -/
theorem runWith_sound {depth : Nat} (blocks : setting.SoundAt depth) {scope : Scope n}
    (imported : scope.imported) (isProcedure : ∀ name, scope.isProcedure name)
    {generator : Gen n α} (conducts : generator.Conducts setting scope) (pass : Pass n)
    (underway : setting.Underway depth scope.leads pass.active) :
    setting.Sound ((generator.runWith (setting.outcome depth)).run.run pass).1 := by
  induction generator generalizing pass with
  | done result => exact fun _ failed => nomatch failed
  | fail fault => exact fun verdict failed => conducts verdict (Except.error.inj failed)
  | ask request next ih =>
      have kept := (KeepsActive.meet (fun ref => setting.outcome_keepsActive depth ref pass.active)
        request).active_eq
      have met : setting.Sound ((request.meet (setting.outcome depth)).run.run pass).1 := by
        by_cases block : ∃ ref, request = .block ref
        · obtain ⟨ref, rfl⟩ := block
          refine blocks ref pass ⟨underway.distinct, underway.enough, ?_⟩
          rintro other active _ rfl
          exact underway.path other active _ conducts.1
        · have effect := Request.effect_meet (fun ref same => block ⟨ref, same⟩)
            (setting.outcome depth) pass
          exact fun verdict failed => (effect.unjudged verdict failed).elim
      rw [run_ask]
      generalize (request.meet (setting.outcome depth)).run.run pass = reply at kept met ⊢
      obtain ⟨fault | answer, after⟩ := reply
      · exact fun verdict failed => met verdict (congrArg _ (Except.error.inj failed))
      · have promised := setting.conduct_promises imported isProcedure request answer
        refine ih answer (conducts.2 answer promised) after ?_
        rw [show after.active = pass.active from kept]
        exact underway

/-- A block that may not be entered is active, if the reason is a cycle. -/
theorem mem_of_entry {ref : Fin n} {active : List (Fin n)} {verdict : Rejection}
    (refused : setting.entry ref active = .error (.rejected verdict))
    (cyclic : verdict.family = .cyclic) : ref ∈ active := by
  unfold entry at refused
  dsimp only at refused
  rcases known : Kind.ofValue? (setting.block ref).kind with fault | found
  · rw [known] at refused
    rw [Except.error.inj refused] at known
    exact (Kind.ofValue?_unjudged _ verdict known).elim
  · rw [known] at refused
    cases found with
    | none =>
        rw [Rejection.family, reject_eq_rejected.mp refused] at cyclic
        cases cyclic
    | some kind =>
        by_contra absent
        have entered : active.contains ref = false := by simpa using absent
        simp only [entered] at refused
        cases refused

/-- **Blocks report cycles soundly**, at every depth. -/
theorem soundAt (setting : Setting n) (depth : Nat) : setting.SoundAt depth := by
  induction depth with
  | zero =>
      intro ref pass underway verdict _ _
      have enough := underway.enough
      rw [Nat.zero_add] at enough
      exact ⟨ref, underway.path ref (mem_of_full underway.distinct enough ref) ref rfl⟩
  | succ depth ih =>
      intro ref pass underway
      rw [run_outcome_succ]
      cases admitted : setting.entry ref pass.active with
      | error fault =>
          intro verdict failed cyclic
          rw [Except.error.inj failed] at admitted
          exact ⟨ref, underway.path ref (mem_of_entry admitted cyclic) ref rfl⟩
      | ok generator =>
          dsimp only
          rw [Pass.run_within]
          have conducts : generator.Conducts setting (setting.blockScope True (fun _ => True) ref) :=
            conducts_entry admitted
          refine runWith_sound ih trivial (fun _ => trivial) conducts _ ⟨?_, ?_, ?_⟩
          · exact List.nodup_cons.mpr ⟨not_mem_of_entry admitted, underway.distinct⟩
          · have enough := underway.enough
            rw [List.length_cons]
            omega
          · intro other active child leads
            rcases List.mem_cons.mp active with rfl | earlier
            · exact leads
            · exact (underway.path other earlier ref rfl).trans leads

/-- **There is no false alarm.** Whenever generating a program fails because of a cycle, some block
reaches itself. -/
theorem emit_sound (setting : Setting n) (pass : Pass n) :
    setting.Sound (setting.emit.run.run pass).1 := by
  obtain ⟨log, emitted⟩ := setting.run_emit pass
  have sound : setting.Sound
      ((setting.run (Gen.program setting)).run.run { Pass.start Names.start with log := log }).1 :=
    runWith_sound (setting.soundAt n) trivial (fun _ => trivial)
      (Gen.conducts_program setting True fun _ => True) _
      ⟨.nil, Nat.le_add_right .., fun _ member => nomatch member⟩
  rw [emitted]
  generalize (setting.run (Gen.program setting)).run.run _ = finished at sound ⊢
  obtain ⟨fault | parts, after⟩ := finished
  · exact fun verdict failed => sound verdict (congrArg _ (Except.error.inj failed))
  · exact fun verdict failed => nomatch failed

end Setting

theorem Program.acyclic {description : Value} {program : Program}
    (loaded : Program.ofValue description = .ok program) : ¬program.workspace.graph.Cyclic := by
  obtain ⟨nodes, links, roots, _, _, _, _, _, _, accepted, _, _, _, _, rfl⟩ :=
    Program.ofValue_accepted loaded
  exact accepted.not_cyclic

/-- **Verdicts of cycles are right.** On whatever graph generation fails because of a cycle, some
block reaches itself through sockets and blocks that follow; so it never does on a description that
was accepted. -/
theorem cycle_verdicts_sound :
    (∀ {n : Nat} (setting : Setting n) (pass : Pass n) (verdict : Rejection),
      (setting.emit.run.run pass).1 = .error (.rejected verdict) → verdict.family = .cyclic →
        ∃ ref, Relation.TransGen setting.workspace.graph.Links ref ref) ∧
      ∀ (description : Value) (program : Program) (options : Options) (verdict : Rejection),
        Program.ofValue description = .ok program →
        (program.generate options).result = .error (.rejected verdict) →
          verdict.family ≠ .cyclic := by
  constructor
  · intro n setting pass verdict failed cyclic
    exact setting.emit_sound pass verdict failed cyclic
  · intro description program options verdict loaded failed cyclic
    let setting : Setting program.size := ⟨program.workspace, options⟩
    have found : setting.workspace.graph.Cyclic :=
      setting.emit_sound (Pass.start Names.start) verdict failed cyclic
    exact Program.acyclic loaded found

/-- The family of the verdict that a result has, if it is one. -/
def Attempt.family? : Attempt α → Option Family
  | .error (.rejected verdict) => some verdict.family
  | _ => none

theorem Attempt.exists_verdict {result : Attempt α} {family : Family}
    (known : result.family? = some family) :
    ∃ verdict, result = .error (.rejected verdict) ∧ verdict.family = family := by
  rcases result with (verdict | _) | _
  · exact ⟨verdict, rfl, Option.some.inj known⟩
  all_goals cases known

/-- Two blocks that contain themselves are reported, and a tree of blocks without a kind is refused
for another reason. -/
theorem cycle_verdicts_sound_samples :
    (∃ verdict, (Setting.knotSample.emit.run.run (Pass.start Names.start)).1 =
        .error (.rejected verdict) ∧ verdict.family = .cyclic ∧
        ∃ ref, Relation.TransGen Setting.knotSample.workspace.graph.Links ref ref) ∧
      ∃ program, Program.ofValue Program.treeSample = .ok program ∧
        ∃ verdict, (program.generate {}).result = .error (.rejected verdict) ∧
          verdict.family ≠ .cyclic := by
  constructor
  · obtain ⟨verdict, failed, cyclic⟩ : ∃ verdict,
        (Setting.knotSample.emit.run.run (Pass.start Names.start)).1 = .error (.rejected verdict) ∧
          verdict.family = .cyclic := Attempt.exists_verdict (by decide +kernel)
    exact ⟨verdict, failed, cyclic, cycle_verdicts_sound.1 _ _ _ failed cyclic⟩
  · have refused : ((Program.ofValue Program.treeSample).toOption.map fun program =>
        (program.generate {}).result.family?) = some (some .malformed) := by decide +kernel
    cases loaded : Program.ofValue Program.treeSample with
    | error fault =>
        rw [loaded] at refused
        cases refused
    | ok program =>
        rw [loaded] at refused
        obtain ⟨verdict, failed, _⟩ := Attempt.exists_verdict (Option.some.inj refused)
        exact ⟨program, rfl, verdict, failed, cycle_verdicts_sound.2 _ _ _ _ loaded failed⟩

end BlockScript
