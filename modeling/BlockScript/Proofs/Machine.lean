import Mathlib.Data.Fintype.Card
import Mathlib.Logic.Function.Iterate
import BlockScript.Listing
import BlockScript.Proofs.Activity
import BlockScript.Proofs.Walk

/-! # Generation comes to an end

A machine runs generators step by step, with a stack of the blocks whose generators wait for another
one. It knows no bound on the depth of blocks within blocks. From any pass it halts with what the
generator comes to in the library, and on the way no block is active twice (`Setting.halts_run`,
`Setting.generation_terminates`): every block that is entered is marked as active, one that is
active is not entered, and so blocks that are not active yet limit how deep the stack can grow.
-/

namespace BlockScript

variable {n : Nat} {α : Type}

/-- A block whose generator waits for what another block comes to. -/
structure Frame (n : Nat) where
  ref : Fin n
  next : Outcome → Gen n Outcome

/-- What a machine is about to do. Wherever blocks are being generated, `frames` has those that
wait, the innermost first, and `last` is how the outermost generator goes on. -/
inductive Control (n : Nat) (α : Type) where
  /-- Runs the outermost generator. -/
  | outside (generator : Gen n α)
  /-- Asks for a block. -/
  | entering (ref : Fin n) (frames : List (Frame n)) (last : Outcome → Gen n α)
  /-- Runs the generator of a block. -/
  | inside (ref : Fin n) (generator : Gen n Outcome) (frames : List (Frame n))
      (last : Outcome → Gen n α)
  /-- Hands over what a block came to. -/
  | leaving (result : Attempt Outcome) (frames : List (Frame n)) (last : Outcome → Gen n α)
  | halted (result : Attempt α)

/-- A machine with the pass that it works on. -/
structure Machine (n : Nat) (α : Type) where
  control : Control n α
  pass : Pass n

namespace Setting

/-- The generator of a block that may be entered: its kind is known and it is not active. -/
def entry (setting : Setting n) (ref : Fin n) (active : List (Fin n)) :
    Attempt (Gen n Outcome) := do
  let block := setting.block ref
  match ← Kind.ofValue? block.kind with
  | none => reject (.unknownKind block.id block.kind)
  | some kind =>
      if active.contains ref then reject (.selfContained block.id block.kind)
      else return kind.generate setting block

/-- Meets a request that is not for a block. -/
def serve (request : Request n) (pass : Pass n) : Attempt request.Answer × Pass n :=
  (request.meet fun _ => return .nothing).run.run pass

/-- One step of a machine. -/
def step (setting : Setting n) : Machine n α → Machine n α
  | ⟨.outside (.done result), pass⟩ => ⟨.halted (.ok result), pass⟩
  | ⟨.outside (.fail fault), pass⟩ => ⟨.halted (.error fault), pass⟩
  | ⟨.outside (.ask (.block ref) next), pass⟩ => ⟨.entering ref [] next, pass⟩
  | ⟨.outside (.ask request next), pass⟩ =>
      let (answer, after) := serve request pass
      ⟨.outside (Gen.lift answer >>= next), after⟩
  | ⟨.entering ref frames last, pass⟩ =>
      match setting.entry ref pass.active with
      | .ok generator =>
          ⟨.inside ref generator frames last, { pass with active := ref :: pass.active }⟩
      | .error fault => ⟨.leaving (.error fault) frames last, pass⟩
  | ⟨.inside ref (.done outcome) frames last, pass⟩ =>
      ⟨.leaving (.ok outcome) frames last, { pass with active := pass.active.erase ref }⟩
  | ⟨.inside ref (.fail fault) frames last, pass⟩ =>
      ⟨.leaving (.error fault) frames last, { pass with active := pass.active.erase ref }⟩
  | ⟨.inside ref (.ask (.block child) next) frames last, pass⟩ =>
      ⟨.entering child (⟨ref, next⟩ :: frames) last, pass⟩
  | ⟨.inside ref (.ask request next) frames last, pass⟩ =>
      let (answer, after) := serve request pass
      ⟨.inside ref (Gen.lift answer >>= next) frames last, after⟩
  | ⟨.leaving result [] last, pass⟩ => ⟨.outside (Gen.lift result >>= last), pass⟩
  | ⟨.leaving result (frame :: frames) last, pass⟩ =>
      ⟨.inside frame.ref (Gen.lift result >>= frame.next) frames last, pass⟩
  | ⟨.halted result, pass⟩ => ⟨.halted result, pass⟩

/-- A machine gets to a state in some number of steps, and in every state on the way no block is
active twice. -/
inductive Leads (setting : Setting n) : Machine n α → Machine n α → Prop
  | stay {machine : Machine n α} : machine.pass.active.Nodup → Leads setting machine machine
  | move {machine target : Machine n α} :
      machine.pass.active.Nodup → Leads setting (setting.step machine) target →
        Leads setting machine target

namespace Leads

variable {setting : Setting n} {first second third : Machine n α}

theorem trans (earlier : setting.Leads first second) (later : setting.Leads second third) :
    setting.Leads first third := by
  induction earlier with
  | stay _ => exact later
  | move distinct _ ih => exact .move distinct (ih later)

theorem iterate (leads : setting.Leads first second) :
    ∃ steps, setting.step^[steps] first = second ∧
      ∀ k ≤ steps, (setting.step^[k] first).pass.active.Nodup := by
  induction leads with
  | stay distinct =>
      refine ⟨0, rfl, ?_⟩
      intro k none
      rw [Nat.le_zero.mp none]
      exact distinct
  | move distinct _ ih =>
      obtain ⟨steps, arrives, during⟩ := ih
      refine ⟨steps + 1, arrives, ?_⟩
      intro k within
      cases k with
      | zero => exact distinct
      | succ k => exact during k (Nat.le_of_succ_le_succ within)

end Leads

variable {setting : Setting n}

/-- What a block comes to when it is asked for at some depth: what its generator comes to within it,
if it may be entered. -/
theorem run_outcome_succ (depth : Nat) (ref : Fin n) (pass : Pass n) :
    (setting.outcome (depth + 1) ref).run.run pass =
      match setting.entry ref pass.active with
      | .ok generator =>
          (Pass.within ref (generator.runWith (setting.outcome depth))).run.run pass
      | .error fault => (.error fault, pass) := by
  unfold outcome entry
  rcases known : Kind.ofValue? (setting.block ref).kind with fault | found
  · simp only [known]
    rfl
  · simp only [known]
    cases found with
    | none => rfl
    | some kind =>
        change ((if pass.active.contains ref then _ else _ : Emission n Outcome)).run.run pass =
          match (if pass.active.contains ref then _ else _ : Attempt (Gen n Outcome)) with
          | .ok generator => _
          | .error fault => _
        split
        · rfl
        · rfl

/-- When all blocks are active, none may be entered. -/
theorem run_outcome_zero {ref : Fin n} {pass : Pass n} (active : ref ∈ pass.active) :
    ∃ fault, setting.entry ref pass.active = .error fault ∧
      (setting.outcome 0 ref).run.run pass = (.error fault, pass) := by
  have marked : pass.active.contains ref = true := List.contains_iff_mem.mpr active
  unfold outcome entry
  rcases known : Kind.ofValue? (setting.block ref).kind with fault | found
  · simp only [known]
    exact ⟨fault, rfl, rfl⟩
  · simp only [known]
    cases found with
    | none => exact ⟨_, rfl, rfl⟩
    | some kind => exact ⟨_, if_pos marked, rfl⟩

theorem not_mem_of_entry {ref : Fin n} {active : List (Fin n)} {generator : Gen n Outcome}
    (admitted : setting.entry ref active = .ok generator) : ref ∉ active := by
  intro marked
  unfold entry at admitted
  obtain ⟨found, _, chosen⟩ := Attempt.bind_eq_ok.mp admitted
  cases found with
  | none => cases chosen
  | some kind =>
      rw [List.contains_iff_mem.mpr marked] at chosen
      cases chosen

/-- Requests other than for blocks are met in the same way whatever blocks come to. -/
theorem serve_eq {request : Request n} (plain : ∀ ref, request ≠ .block ref)
    (visit : Fin n → Emission n Outcome) (pass : Pass n) :
    serve request pass = (request.meet visit).run.run pass := by
  cases request with
  | block ref => exact (plain ref rfl).elim
  | _ => rfl

/-- A generator goes on with the answer to its first request. -/
theorem run_ask (visit : Fin n → Emission n Outcome) (request : Request n)
    (next : request.Answer → Gen n α) (pass : Pass n) :
    ((Gen.ask request next).runWith visit).run.run pass =
      ((Gen.lift ((request.meet visit).run.run pass).1 >>= next).runWith visit).run.run
        ((request.meet visit).run.run pass).2 := by
  change (request.meet visit >>= fun answer => (next answer).runWith visit).run.run pass = _
  rw [Step.run_bind]
  rcases (request.meet visit).run.run pass with ⟨fault | answer, after⟩
  · rfl
  · rfl

variable (setting α) in
/-- The machine takes every block to what it comes to at a depth, if the blocks that are not active
yet are no more than the depth. -/
def Faithful (depth : Nat) : Prop :=
  ∀ (ref : Fin n) (frames : List (Frame n)) (last : Outcome → Gen n α) (pass : Pass n),
    pass.active.Nodup → n ≤ depth + pass.active.length →
      setting.Leads ⟨.entering ref frames last, pass⟩
        ⟨.leaving ((setting.outcome depth ref).run.run pass).1 frames last,
          ((setting.outcome depth ref).run.run pass).2⟩

variable (setting) in
/-- A place in a machine where generators are run, and how the machine goes on when they end. -/
structure Hosts {β : Type} (place : Gen n β → Control n α)
    (finish : Attempt β → Pass n → Machine n α) : Prop where
  done : ∀ result pass, setting.step ⟨place (.done result), pass⟩ = finish (.ok result) pass
  fails : ∀ fault pass, setting.step ⟨place (.fail fault), pass⟩ = finish (.error fault) pass
  /-- A block is entered from the place, and its outcome is handed over there. -/
  blocks : ∀ child next, ∃ frames last,
    (∀ pass, setting.step ⟨place (.ask (.block child) next), pass⟩ =
      ⟨.entering child frames last, pass⟩) ∧
    ∀ result pass, setting.step ⟨.leaving result frames last, pass⟩ =
      ⟨place (Gen.lift result >>= next), pass⟩
  others : ∀ request, (∀ child, request ≠ .block child) → ∀ next pass,
    setting.step ⟨place (.ask request next), pass⟩ =
      ⟨place (Gen.lift (serve request pass).1 >>= next), (serve request pass).2⟩
  distinct : ∀ result pass, pass.active.Nodup → (finish result pass).pass.active.Nodup

/-- Outside of all blocks a machine ends with the result. -/
theorem hosts_outside :
    setting.Hosts (Control.outside : Gen n α → Control n α)
      (fun result pass => ⟨.halted result, pass⟩) where
  done _ _ := rfl
  fails _ _ := rfl
  blocks _ next := ⟨[], next, fun _ => rfl, fun _ _ => rfl⟩
  others := by
    intro request plain next pass
    cases request with
    | block child => exact (plain child rfl).elim
    | _ => rfl
  distinct := fun _ _ distinct => distinct

/-- When the generator of a block ends, the block is left and no longer active. -/
theorem hosts_inside (ref : Fin n) (frames : List (Frame n)) (last : Outcome → Gen n α) :
    setting.Hosts (fun generator => Control.inside ref generator frames last)
      (fun result pass =>
        ⟨.leaving result frames last, { pass with active := pass.active.erase ref }⟩) where
  done _ _ := rfl
  fails _ _ := rfl
  blocks _ next := ⟨⟨ref, next⟩ :: frames, last, fun _ => rfl, fun _ _ => rfl⟩
  others := by
    intro request plain next pass
    cases request with
    | block child => exact (plain child rfl).elim
    | _ => rfl
  distinct := fun _ _ distinct => distinct.erase ref

/-- **Generators are run to their end.** Where the machine is faithful to blocks, it is faithful to
the generators it runs, in any place. -/
theorem Hosts.leads {β : Type} {place : Gen n β → Control n α}
    {finish : Attempt β → Pass n → Machine n α} (hosts : setting.Hosts place finish) {depth : Nat}
    (faithful : setting.Faithful α depth) (generator : Gen n β) (pass : Pass n)
    (distinct : pass.active.Nodup) (enough : n ≤ depth + pass.active.length) :
    setting.Leads ⟨place generator, pass⟩
      (finish ((generator.runWith (setting.outcome depth)).run.run pass).1
        ((generator.runWith (setting.outcome depth)).run.run pass).2) := by
  have failing : ∀ (fault : Fault) (pass : Pass n), pass.active.Nodup →
      setting.Leads ⟨place (.fail fault), pass⟩ (finish (.error fault) pass) := by
    intro fault pass distinct
    apply Leads.move distinct
    rw [hosts.fails]
    exact .stay (hosts.distinct _ _ distinct)
  induction generator generalizing pass with
  | done result =>
      apply Leads.move distinct
      rw [hosts.done]
      exact .stay (hosts.distinct _ _ distinct)
  | fail fault => exact failing fault pass distinct
  | ask request next ih =>
      rw [run_ask]
      have kept := (KeepsActive.meet (fun child => setting.outcome_keepsActive depth child
        pass.active) request).active_eq
      have resumed : ∀ (answer : Attempt request.Answer) (after : Pass n),
          after.active = pass.active → setting.Leads ⟨place (Gen.lift answer >>= next), after⟩
            (finish
              (((Gen.lift answer >>= next).runWith (setting.outcome depth)).run.run after).1
              (((Gen.lift answer >>= next).runWith (setting.outcome depth)).run.run after).2) := by
        intro answer after same
        rw [← same] at distinct enough
        cases answer with
        | ok reply => exact ih reply after distinct enough
        | error fault => exact failing fault after distinct
      by_cases block : ∃ child, request = .block child
      · obtain ⟨child, rfl⟩ := block
        obtain ⟨frames, last, enters, leaves⟩ := hosts.blocks child next
        apply Leads.move distinct
        rw [enters]
        apply (faithful child frames last pass distinct enough).trans
        apply Leads.move
        · change (((Request.block child).meet (setting.outcome depth)).run.run pass).2.active.Nodup
          rw [kept]
          exact distinct
        · rw [leaves]
          exact resumed _ _ kept
      · have plain : ∀ child, request ≠ .block child := by
          intro child same
          exact block ⟨child, same⟩
        apply Leads.move distinct
        rw [hosts.others request plain, serve_eq plain (setting.outcome depth)]
        exact resumed _ _ kept

/-- Different blocks that are as many as there are include every block. -/
theorem mem_of_full {active : List (Fin n)} (distinct : active.Nodup) (full : n ≤ active.length)
    (ref : Fin n) : ref ∈ active := by
  by_contra absent
  have bound := (List.nodup_cons.mpr ⟨absent, distinct⟩).length_le_card
  rw [List.length_cons, Fintype.card_fin] at bound
  omega

/-- **The machine is faithful to blocks** at every depth. -/
theorem faithful (depth : Nat) : setting.Faithful α depth := by
  induction depth with
  | zero =>
      intro ref frames last pass distinct enough
      rw [Nat.zero_add] at enough
      have marked := mem_of_full distinct enough ref
      obtain ⟨fault, refused, ran⟩ := setting.run_outcome_zero marked
      rw [ran]
      apply Leads.move distinct
      rw [step, refused]
      exact .stay distinct
  | succ depth ih =>
      intro ref frames last pass distinct enough
      rw [run_outcome_succ]
      apply Leads.move distinct
      rw [step]
      cases admitted : setting.entry ref pass.active with
      | error fault => exact .stay distinct
      | ok generator =>
          have entered : (ref :: pass.active).Nodup :=
            List.nodup_cons.mpr ⟨not_mem_of_entry admitted, distinct⟩
          apply (hosts_inside ref frames last).leads ih generator _ entered
          rw [List.length_cons]
          omega

/-- A machine that runs a generator from a pass halts with a result. In every state on the way the
active blocks are different from each other and no more than there are blocks. -/
structure Halts (setting : Setting n) (generator : Gen n α) (pass : Pass n)
    (result : Attempt α × Pass n) : Prop where
  halts : ∃ steps, setting.step^[steps] ⟨.outside generator, pass⟩ = ⟨.halted result.1, result.2⟩
  distinct : ∀ steps, (setting.step^[steps] ⟨.outside generator, pass⟩).pass.active.Nodup
  bounded : ∀ steps, (setting.step^[steps] ⟨.outside generator, pass⟩).pass.active.length ≤ n

theorem iterate_halted (setting : Setting n) (result : Attempt α) (pass : Pass n) (steps : Nat) :
    setting.step^[steps] ⟨.halted result, pass⟩ = ⟨.halted result, pass⟩ :=
  Function.iterate_fixed rfl steps

/-- **Generators are run to their end.** From any pass in which no block is active twice the machine
halts with what the generator comes to. -/
theorem halts_run (setting : Setting n) (generator : Gen n α) {pass : Pass n}
    (distinct : pass.active.Nodup) :
    setting.Halts generator pass ((setting.run generator).run.run pass) := by
  obtain ⟨steps, arrives, during⟩ :=
    (hosts_outside.leads (setting.faithful n) generator pass distinct (by omega)).iterate
  have always : ∀ k, (setting.step^[k] ⟨.outside generator, pass⟩).pass.active.Nodup := by
    intro k
    by_cases within : k ≤ steps
    · exact during k within
    · have last := during steps le_rfl
      rw [← Nat.sub_add_cancel (Nat.le_of_not_le within), Function.iterate_add_apply, arrives,
        iterate_halted]
      rw [arrives] at last
      exact last
  refine ⟨⟨steps, arrives⟩, always, ?_⟩
  intro k
  have bound := (always k).length_le_card
  rw [Fintype.card_fin] at bound
  exact bound

/-- The loop over a chain of blocks, unrolled from a block on, is a generator. The loop has seen
some blocks and has their codes. It stops after the last block and fails at a block that it has
seen; otherwise it generates the block as a statement and goes on with the one that follows. -/
inductive Unrolls (setting : Setting n) :
    List (Fin n) → List String → Option (Fin n) → Gen n String → Prop
  | stop (seen : List (Fin n)) (codes : List String) :
      Unrolls setting seen codes none (.done (String.join codes))
  | again {seen : List (Fin n)} {ref : Fin n} (codes : List String) :
      ref ∈ seen → Unrolls setting seen codes (some ref)
        (Gen.reject (.endlessChain (setting.block ref).id (setting.block ref).kind))
  | next {seen : List (Fin n)} {codes : List String} {ref : Fin n} {rest : String → Gen n String} :
      ref ∉ seen → (∀ code, Unrolls setting (ref :: seen) (codes ++ [code])
        (setting.block ref).next (rest code)) →
      Unrolls setting seen codes (some ref) (Gen.statement ref >>= rest)

/-- What is left of a chain, with the codes of the blocks before it. -/
def chainRest (setting : Setting n) (codes : List String) (chain : Graph.Chain n) :
    Gen n String := do
  let more ← Gen.each Gen.statement chain.blocks
  match chain.returnsTo with
  | some ref => Gen.reject (.endlessChain (setting.block ref).id (setting.block ref).kind)
  | none => return String.join (codes ++ more)

theorem chainRest_cons (setting : Setting n) (codes : List String) (ref : Fin n)
    (chain : Graph.Chain n) :
    setting.chainRest codes ⟨ref :: chain.blocks, chain.returnsTo⟩ =
      Gen.statement ref >>= fun code => setting.chainRest (codes ++ [code]) chain := by
  simp only [chainRest, Gen.each, bind_assoc, pure_bind]
  congr
  funext code
  congr
  funext more
  rw [← List.append_cons]

/-- A loop over a chain that is followed for enough steps is unrolled to its end. The blocks that
are not seen yet limit how long it goes on. -/
theorem unrolls_follow (steps : Nat) (seen : List (Fin n)) (codes : List String) (ref : Fin n)
    (distinct : seen.Nodup) (enough : n ≤ steps + seen.length) :
    setting.Unrolls seen codes (some ref)
      (setting.chainRest codes (setting.workspace.graph.follow steps seen ref)) := by
  induction steps generalizing seen codes ref with
  | zero =>
      rw [Nat.zero_add] at enough
      exact .again codes (mem_of_full distinct enough ref)
  | succ steps ih =>
      unfold Graph.follow
      by_cases known : ref ∈ seen
      · rw [if_pos known]
        exact .again codes known
      · rw [if_neg known]
        have further : (ref :: seen).Nodup := List.nodup_cons.mpr ⟨known, distinct⟩
        cases following : (setting.workspace.graph.block ref).next with
        | none =>
            rw [chainRest_cons setting codes ref ⟨[], none⟩]
            apply Unrolls.next known
            intro code
            rw [block, following]
            have ended : setting.chainRest (codes ++ [code]) ⟨[], none⟩ =
                .done (String.join (codes ++ [code])) := by
              simp only [chainRest, Gen.each, Gen.done_bind, List.append_nil, Gen.pure_eq_done]
            rw [ended]
            exact .stop _ _
        | some after =>
            simp only
            rw [chainRest_cons]
            apply Unrolls.next known
            intro code
            rw [block, following]
            apply ih _ _ _ further
            rw [List.length_cons]
            omega

theorem unrolls_chain (setting : Setting n) (first : Option (Fin n)) :
    setting.Unrolls [] [] first (Gen.chain setting first) := by
  cases first with
  | none => exact .stop [] []
  | some ref => exact unrolls_follow n [] [] ref .nil (by simp)

/-- What is emitted is assembled from what the program comes to in a new pass, unless that fails. -/
theorem run_emit (setting : Setting n) (pass : Pass n) :
    ∃ log, (setting.emit.run.run pass).1 =
      ((setting.run (Gen.program setting)).run.run { Pass.start Names.start with log := log }).1.map
        (Listing.assemble ((setting.run (Gen.program setting)).run.run
          { Pass.start Names.start with log := log }).2) := by
  refine ⟨["generation pass started: " ++ toString setting.workspace.roots.length
    ++ " top-level block(s)"], ?_⟩
  unfold emit
  rw [Step.run_bind]
  change ((Pass.note _ >>= _ : Emission n Listing).run.run (Pass.start Names.start)).1 = _
  rw [Step.run_bind]
  change ((setting.run (Gen.program setting) >>= _ : Emission n Listing).run.run
    { Pass.start Names.start with log := [_] }).1 = _
  rw [Step.run_bind]
  rcases (setting.run (Gen.program setting)).run.run _ with ⟨fault | parts, finished⟩
  · rfl
  · rfl

/-- Generation comes to an end from a pass, whatever is asked for. -/
structure Terminates (setting : Setting n) (pass : Pass n) : Prop where
  blocks : ∀ ref, setting.Halts (Gen.block ref) pass ((setting.outcome n ref).run.run pass)
  chains : ∀ first, setting.Halts (Gen.chain setting first) pass
    ((setting.run (Gen.chain setting first)).run.run pass)
  /-- The generator of a chain is the loop over its blocks, which stops. -/
  loops : ∀ first, setting.Unrolls [] [] first (Gen.chain setting first)
  /-- The walk that looks for variables stops. -/
  walks : ∀ ref, setting.workspace.graph.Visits [] [ref] (setting.workspace.graph.descendants ref)
  /-- What is emitted, or the failure to do so, comes from a machine that halts. -/
  emits : ∃ log result finished,
    setting.Halts (Gen.program setting) { Pass.start Names.start with log := log }
      (result, finished) ∧
    (setting.emit.run.run pass).1 = result.map (Listing.assemble finished)

/-- **Generation terminates on every graph.** Blocks may be shared, contain themselves and follow
each other in circles. Whatever the options and the pass, as long as no block is active twice in it:
a block, a chain of blocks and the whole program are generated to their end, with a result or a
failure, and at no time are more blocks active than there are. -/
theorem generation_terminates (setting : Setting n) (pass : Pass n)
    (distinct : pass.active.Nodup) : setting.Terminates pass where
  blocks ref := by
    have halts := setting.halts_run (Gen.block ref) distinct
    rw [run, Gen.runWith_block] at halts
    exact halts
  chains first := setting.halts_run (Gen.chain setting first) distinct
  loops first := setting.unrolls_chain first
  walks ref := setting.workspace.graph.visits_descendants ref
  emits := by
    obtain ⟨log, emitted⟩ := setting.run_emit pass
    exact ⟨log, _, _, setting.halts_run (Gen.program setting) .nil, emitted⟩

/-- A negation of itself, and a printed text that is followed by itself. -/
def knotSample : Setting 2 :=
  .ofBlocks #v[
    .ofKind .negation [] [(.text "BOOL", some 0)],
    { Block.ofKind .print [] [(.text "TEXT", some 0)] with next := some 1 }] [0, 1]

theorem generation_terminates_knotSample :
    (Pass.start Names.start : Pass 2).active.Nodup ∧
      knotSample.Terminates (Pass.start Names.start) :=
  ⟨.nil, knotSample.generation_terminates _ .nil⟩

end Setting

end BlockScript
