import BlockScript.Proofs.Growth

/-! # Providing helpers

Helpers are provided one after the other, and a template may have a dollar sign that nothing fills:
then its helper gets a name and no source, and the call fails. Later calls for the key get the name.
So over a run of calls a name is on record for every key that was asked for, and a source exactly
for those whose first template can be written (`Pass.Provided`, `Pass.provide_registers`).
-/

namespace BlockScript

variable {n : Nat}

/-- What succeeds, or fails with the same fault, goes on to do so. -/
theorem Attempt.map_bind_congr {α β γ : Type} {first second : Attempt α}
    {next last : α → Attempt β} {f : α → γ} {g : β → γ}
    (same : first.map f = second.map f)
    (rest : ∀ a b, (next a).map g = (last b).map g) :
    (first >>= next).map g = (second >>= last).map g := by
  rcases first with fault | a
  · rcases second with other | b
    · cases same
      rfl
    · cases same
  · rcases second with other | b
    · cases same
    · exact rest a b

namespace Template

/-- Whether the source of a template can be written: no name decides this. -/
def check (template : Template) : Attempt Unit := (template.render "").map fun _ => ()

theorem map_fill (name other : String) (steps : Nat) (chars : List Char) :
    (fill name steps chars).map (fun _ => ()) = (fill other steps chars).map fun _ => () := by
  induction steps generalizing chars with
  | zero => rfl
  | succ steps ih =>
      cases chars with
      | nil => rfl
      | cons c rest =>
          unfold fill
          split
          · rcases mark rest with fault | ⟨mark, after⟩
            · rfl
            · have filled : (mark.filled name).map (fun _ => ()) =
                  (mark.filled other).map fun _ => () := by
                cases mark with
                | dollar => rfl
                | named own =>
                    simp only [Mark.filled]
                    split <;> rfl
              change (mark.filled name >>= fun put => fill name steps after >>= fun more =>
                  pure (put ++ more)).map _ =
                (mark.filled other >>= fun put => fill other steps after >>= fun more =>
                  pure (put ++ more)).map _
              exact Attempt.map_bind_congr filled fun _ _ =>
                Attempt.map_bind_congr (ih after) fun _ _ => rfl
          · exact Attempt.map_bind_congr (ih rest) fun _ _ => rfl

theorem map_render (template : Template) (name : String) :
    (template.render name).map (fun _ => ()) = template.check :=
  Attempt.map_bind_congr (map_fill name "" _ _) fun _ _ => rfl

theorem render_of_check {template : Template} (sound : template.check = .ok ()) (name : String) :
    ∃ source, template.render name = .ok source := by
  rw [← template.map_render name] at sound
  rcases rendered : template.render name with fault | source
  · rw [rendered] at sound
    cases sound
  · exact ⟨source, rfl⟩

theorem check_of_render {template : Template} {name source : String}
    (rendered : template.render name = .ok source) : template.check = .ok () := by
  rw [← template.map_render name, rendered]
  rfl

end Template

/-- A call for a helper. -/
structure Provision where
  key : String
  template : Template

namespace Provision

/-- The first template that calls give for a key. -/
def first? (key : String) (calls : List Provision) : Option Template :=
  (calls.find? fun call => call.key == key).map (·.template)

/-- A call on a pass. -/
def run (call : Provision) (pass : Pass n) : Attempt String × Pass n :=
  (Pass.provide call.key call.template).run.run pass

/-- The pass after calls, some of which may fail. -/
def runAll (pass : Pass n) (calls : List Provision) : Pass n :=
  calls.foldl (fun pass call => (call.run pass).2) pass

/-- What a call does. A key that has a name gets it. Any other key gets a new name, and its source
is the template with that name; if that cannot be written, the name is on record all the same. -/
inductive Answer (call : Provision) (pass : Pass n) : Attempt String → Pass n → Prop
  | known {name : String} : pass.functionNames.get? call.key = some name →
      Answer call pass (.ok name) pass
  | provided {name source : String} (log : List String) :
      pass.functionNames.get? call.key = none → pass.names.Novel name →
      call.template.render name = .ok source →
      Answer call pass (.ok name)
        { pass with
          names := pass.names.markUsed name
          functionNames := pass.functionNames.insert call.key name
          helpers := pass.helpers.insert call.key source
          log := log }
  | unfinished {name : String} {fault : Fault} (log : List String) :
      pass.functionNames.get? call.key = none → pass.names.Novel name →
      call.template.render name = .error fault →
      Answer call pass (.error fault)
        { pass with
          names := pass.names.markUsed name
          functionNames := pass.functionNames.insert call.key name
          log := log }

/-- **Every call has one of the answers**: what is not a matter of the template cannot fail. -/
theorem answer_run (call : Provision) (pass : Pass n) :
    call.Answer pass (call.run pass).1 (call.run pass).2 := by
  have looked : (get : Emission n (Pass n)).run.run pass = (.ok pass, pass) := rfl
  unfold run Pass.provide
  rw [Step.run_bind, looked]
  dsimp only
  rcases known : pass.functionNames.get? call.key with _ | name
  · obtain ⟨log, granted⟩ :=
      Request.run_fresh_of_text ⟨false, .procedure, _, rfl, call.key⟩ pass
    have novel := pass.names.novel_firstFree (Names.isIdentifier_sanitize call.key)
    rw [Step.run_bind, granted]
    dsimp only
    rcases rendered : call.template.render (pass.names.firstFree (Names.sanitize call.key))
      with fault | source
    · exact .unfinished log known novel rendered
    · exact .provided _ known novel rendered
  · exact .known known

/-- A key keeps its name. -/
theorem get?_run {pass : Pass n} {key name : String}
    (known : pass.functionNames.get? key = some name) (call : Provision) :
    (call.run pass).2.functionNames.get? key = some name := by
  have answer := call.answer_run pass
  generalize call.run pass = reply at answer ⊢
  obtain ⟨result, after⟩ := reply
  cases answer with
  | known => exact known
  | provided log new | unfinished log new =>
      have other : key ≠ call.key := by
        rintro rfl
        rw [known] at new
        cases new
      rw [← known]
      exact Table.get?_insert_of_ne _ _ other

theorem get?_runAll {pass : Pass n} {key name : String}
    (known : pass.functionNames.get? key = some name) (calls : List Provision) :
    (runAll pass calls).functionNames.get? key = some name := by
  induction calls generalizing pass with
  | nil => exact known
  | cons call rest ih => exact ih (get?_run known call)

theorem first?_self (call : Provision) : first? call.key [call] = some call.template := by
  simp [first?]

theorem first?_of_ne {call : Provision} {key : String} (other : call.key ≠ key) :
    first? key [call] = none := by
  simp [first?, other]

theorem first?_append (key : String) (earlier later : List Provision) :
    first? key (earlier ++ later) = (first? key earlier).or (first? key later) := by
  unfold first?
  rw [List.find?_append]
  cases earlier.find? fun call => call.key == key <;> rfl

end Provision

namespace Pass

open Provision

/-- What calls for helpers leave behind. -/
structure Provided (start : Pass n) (calls : List Provision) (pass : Pass n) : Prop where
  imports : pass.imports = start.imports
  procedures : pass.procedures = start.procedures
  temporaries : pass.temporaries = start.temporaries
  /-- A key that had a name keeps it, and its source. -/
  kept : ∀ {key name : String}, start.functionNames.get? key = some name →
    pass.functionNames.get? key = some name ∧ pass.helpers.get? key = start.helpers.get? key
  /-- Any other key that was asked for has a name, and for its source the first template with that
  name, if this can be written. -/
  entered : ∀ {key : String} {template : Template}, start.functionNames.get? key = none →
    first? key calls = some template →
      ∃ name, pass.functionNames.get? key = some name ∧
        pass.helpers.get? key = (template.render name).toOption
  /-- All other keys have neither. -/
  absent : ∀ {key : String}, start.functionNames.get? key = none → first? key calls = none →
    pass.functionNames.get? key = none ∧ pass.helpers.get? key = none

namespace Provided

variable {start pass : Pass n} {calls : List Provision}

/-- Before any call. -/
theorem refl (level : ∀ key, start.helpers.has key = start.functionNames.has key) :
    start.Provided [] start where
  imports := rfl
  procedures := rfl
  temporaries := rfl
  kept known := ⟨known, rfl⟩
  entered _ asked := by cases asked
  absent {key} missing _ := by
    refine ⟨missing, Table.get?_eq_none_of_has ?_⟩
    rw [level, Table.has, missing]
    rfl

/-- A key without a name was not asked for. -/
theorem first?_eq_none (provided : start.Provided calls pass) {key : String}
    (missing : pass.functionNames.get? key = none) :
    start.functionNames.get? key = none ∧ first? key calls = none := by
  have new : start.functionNames.get? key = none := by
    cases known : start.functionNames.get? key with
    | none => rfl
    | some name =>
        rw [(provided.kept known).1] at missing
        cases missing
  refine ⟨new, ?_⟩
  cases asked : first? key calls with
  | none => rfl
  | some template =>
      obtain ⟨name, known, _⟩ := provided.entered new asked
      rw [known] at missing
      cases missing

/-- A call for a key that has a name adds nothing. -/
theorem again (provided : start.Provided calls pass) {call : Provision} {name : String}
    (found : pass.functionNames.get? call.key = some name) :
    start.Provided (calls ++ [call]) pass where
  imports := provided.imports
  procedures := provided.procedures
  temporaries := provided.temporaries
  kept := provided.kept
  entered {key template} new asked := by
    rw [first?_append] at asked
    cases earlier : first? key calls with
    | some known =>
        rw [earlier, Option.some_or] at asked
        cases asked
        exact provided.entered new earlier
    | none =>
        rw [earlier, Option.none_or] at asked
        obtain rfl : call.key = key := by
          by_contra other
          rw [first?_of_ne other] at asked
          cases asked
        rw [(provided.absent new earlier).1] at found
        cases found
  absent {key} new unasked := by
    rw [first?_append, Option.or_eq_none_iff] at unasked
    exact provided.absent new unasked.1

/-- A key without a name is entered with a name and what its template comes to. -/
theorem enter (provided : start.Provided calls pass) {call : Provision} {after : Pass n}
    {name : String} (missing : pass.functionNames.get? call.key = none)
    (imports : after.imports = pass.imports) (procedures : after.procedures = pass.procedures)
    (temporaries : after.temporaries = pass.temporaries)
    (names : after.functionNames = pass.functionNames.insert call.key name)
    (source : after.helpers.get? call.key = (call.template.render name).toOption)
    (others : ∀ key, key ≠ call.key → after.helpers.get? key = pass.helpers.get? key) :
    start.Provided (calls ++ [call]) after := by
  obtain ⟨new, unasked⟩ := provided.first?_eq_none missing
  have same {key : String} (other : key ≠ call.key) :
      after.functionNames.get? key = pass.functionNames.get? key := by
    rw [names, Table.get?_insert_of_ne _ _ other]
  have first {key : String} (other : key ≠ call.key) :
      first? key (calls ++ [call]) = first? key calls := by
    rw [first?_append, first?_of_ne other.symm, Option.or_none]
  refine ⟨imports.trans provided.imports, procedures.trans provided.procedures,
    temporaries.trans provided.temporaries, ?_, ?_, ?_⟩
  · intro key known found
    have other : key ≠ call.key := by
      rintro rfl
      rw [new] at found
      cases found
    rw [same other, others key other]
    exact provided.kept found
  · intro key template fresh asked
    by_cases other : key = call.key
    · subst other
      rw [first?_append, unasked, first?_self] at asked
      cases asked
      exact ⟨name, by rw [names, Table.get?_insert_self], source⟩
    · rw [first other] at asked
      rw [same other, others key other]
      exact provided.entered fresh asked
  · intro key fresh left
    have other : key ≠ call.key := by
      rintro rfl
      rw [first?_append, unasked, first?_self] at left
      cases left
    rw [first other] at left
    rw [same other, others key other]
    exact provided.absent fresh left

/-- **A call keeps this**, also if it fails. -/
theorem step (provided : start.Provided calls pass) (call : Provision) :
    start.Provided (calls ++ [call]) (call.run pass).2 := by
  have answer := call.answer_run pass
  generalize call.run pass = reply at answer ⊢
  obtain ⟨result, after⟩ := reply
  cases answer with
  | known found => exact provided.again found
  | provided log missing novel rendered =>
      refine provided.enter missing rfl rfl rfl rfl ?_ fun key other =>
        Table.get?_insert_of_ne _ _ other
      rw [rendered]
      exact Table.get?_insert_self ..
  | unfinished log missing novel failed =>
      obtain ⟨new, unasked⟩ := provided.first?_eq_none missing
      refine provided.enter missing rfl rfl rfl rfl ?_ fun key other => rfl
      rw [failed]
      exact (provided.absent new unasked).2

/-- **A run of calls keeps it.** -/
theorem run (provided : start.Provided calls pass) (more : List Provision) :
    start.Provided (calls ++ more) (runAll pass more) := by
  induction more generalizing calls pass with
  | nil =>
      rw [List.append_nil]
      exact provided
  | cons call rest ih =>
      rw [← List.singleton_append, ← List.append_assoc]
      exact ih (provided.step call)

/-- After the calls, names and sources are on record for the same keys exactly if the first template
of every new key can be written. -/
theorem level_iff (provided : start.Provided calls pass)
    (level : ∀ key, start.helpers.has key = start.functionNames.has key) :
    (∀ key, pass.helpers.has key = pass.functionNames.has key) ↔
      ∀ key template, start.functionNames.get? key = none → first? key calls = some template →
        template.check = .ok () := by
  constructor
  · intro same key template new asked
    obtain ⟨name, known, source⟩ := provided.entered new asked
    have both := same key
    rw [Table.has, Table.has, known, source] at both
    rcases rendered : template.render name with fault | code
    · rw [rendered] at both
      cases both
    · exact Template.check_of_render rendered
  · intro sound key
    cases new : start.functionNames.get? key with
    | some name =>
        obtain ⟨known, source⟩ := provided.kept new
        rw [Table.has, source, ← Table.has, level, Table.has, Table.has, new, known]
    | none =>
        cases asked : first? key calls with
        | none =>
            obtain ⟨unnamed, unwritten⟩ := provided.absent new asked
            rw [Table.has, Table.has, unnamed, unwritten]
        | some template =>
            obtain ⟨name, known, source⟩ := provided.entered new asked
            obtain ⟨code, rendered⟩ := Template.render_of_check (sound key template new asked) name
            rw [Table.has, Table.has, known, source, rendered]
            rfl

/-- The answer to a call: the name on record, unless this is the first call for a new key and its
template cannot be written. -/
theorem answer (provided : start.Provided calls pass) (call : Provision) :
    ∃ name, (call.run pass).2.functionNames.get? call.key = some name ∧
      (call.run pass).1 =
        if start.functionNames.get? call.key = none ∧ first? call.key calls = none then
          call.template.check.map fun _ => name
        else .ok name := by
  have answer := call.answer_run pass
  generalize call.run pass = reply at answer ⊢
  obtain ⟨result, after⟩ := reply
  cases answer with
  | @known name found =>
      refine ⟨name, found, ?_⟩
      rw [if_neg]
      rintro ⟨new, unasked⟩
      rw [(provided.absent new unasked).1] at found
      cases found
  | @provided name source log missing novel rendered =>
      refine ⟨name, Table.get?_insert_self .., ?_⟩
      rw [if_pos (provided.first?_eq_none missing), Template.check_of_render rendered]
      rfl
  | @unfinished name fault log missing novel failed =>
      refine ⟨name, Table.get?_insert_self .., ?_⟩
      rw [if_pos (provided.first?_eq_none missing), ← call.template.map_render name, failed]
      rfl

end Provided

/-- **Providing helpers.** A call on any pass for a key that has a name gets that name and changes
nothing. For any other key it gets a new name and enters the template with that name as the source;
or the template cannot be written, and then the call fails and leaves everything as it was but for
the name, which stays on record. So after calls on a pass with names and sources for the same keys:
every key that was asked for has a name, which every call for it got, but for the first if that
failed; the source is the first template with this name, if it can be written, and otherwise there
is none. Names and sources are on record for the same keys exactly if the first template of every
new key can be written. -/
theorem provide_registers (start : Pass n)
    (level : ∀ key, start.helpers.has key = start.functionNames.has key)
    (calls : List Provision) :
    (∀ (pass : Pass n) (call : Provision), call.Answer pass (call.run pass).1 (call.run pass).2) ∧
    start.Provided calls (runAll start calls) ∧
    (∀ earlier call later, calls = earlier ++ call :: later →
      ∃ name, (runAll start calls).functionNames.get? call.key = some name ∧
        (call.run (runAll start earlier)).1 =
          if start.functionNames.get? call.key = none ∧ first? call.key earlier = none then
            call.template.check.map fun _ => name
          else .ok name) ∧
    ((∀ key, (runAll start calls).helpers.has key = (runAll start calls).functionNames.has key) ↔
      ∀ key template, start.functionNames.get? key = none → first? key calls = some template →
        template.check = .ok ()) := by
  have reached (calls : List Provision) : start.Provided calls (runAll start calls) := by
    simpa using (Provided.refl level).run calls
  refine ⟨fun pass call => call.answer_run pass, reached calls, ?_, (reached calls).level_iff level⟩
  rintro earlier call later rfl
  obtain ⟨name, known, answer⟩ := (reached earlier).answer call
  refine ⟨name, ?_, answer⟩
  unfold runAll
  rw [List.foldl_append]
  exact get?_runAll known later

/-- A template with a slot that nothing fills. -/
def strayTemplate : Template := ⟨"def $function_name(): return $x"⟩

/-- Two calls for one key, the first of which cannot be met. -/
def strayCalls : List Provision :=
  [⟨"f", strayTemplate⟩, ⟨"f", ⟨"def $function_name(): return 1"⟩⟩]

/-- The first call fails, the second gets a name, and there is no helper of that name. -/
theorem provide_registers_strayCalls :
    (∀ key, (start Names.start : Pass 1).helpers.has key =
      (start Names.start : Pass 1).functionNames.has key) ∧
    strayTemplate.check.toOption = none ∧
    (∃ name, (runAll (start Names.start : Pass 1) strayCalls).functionNames.get? "f" = some name ∧
      (runAll (start Names.start : Pass 1) strayCalls).helpers.get? "f" = none) ∧
    ¬ ∀ key, (runAll (start Names.start : Pass 1) strayCalls).helpers.has key =
      (runAll (start Names.start : Pass 1) strayCalls).functionNames.has key := by
  have level : ∀ key, (start Names.start : Pass 1).helpers.has key =
      (start Names.start : Pass 1).functionNames.has key := fun _ => rfl
  have stray : strayTemplate.check.toOption = none := by decide +kernel
  have asked : first? "f" strayCalls = some strayTemplate := rfl
  obtain ⟨-, provided, -, same⟩ := provide_registers (start Names.start : Pass 1) level strayCalls
  obtain ⟨name, known, source⟩ := provided.entered rfl asked
  refine ⟨level, stray, ⟨name, known, ?_⟩, ?_⟩
  · rw [source]
    rw [← strayTemplate.map_render name] at stray
    rcases rendered : strayTemplate.render name with fault | code
    · rfl
    · rw [rendered] at stray
      cases stray
  · rw [same]
    intro sound
    rw [sound "f" strayTemplate rfl asked] at stray
    cases stray

end Pass

end BlockScript
