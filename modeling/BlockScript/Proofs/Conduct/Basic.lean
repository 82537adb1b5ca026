import BlockScript.Listing
import BlockScript.Proofs.Contract
import BlockScript.Proofs.Machine

/-! # The conduct of generators

What the generators of blocks ask a pass for and how they can fail, whatever the code is that they
make. A generator asks only for blocks that its own block leads to, it identifies only the names
that its block gives it, it provides no other helpers than the library has, those that use the
random module only after its import, and only definitions enter procedures, under names of
procedures. When its own verdict is that a program is cyclic, some block does reach itself
(`Gen.conducts_generate`, `Gen.conducts_program`).
-/

namespace BlockScript

variable {n : Nat} {α β : Type}

/-! ## Attempts without a verdict -/

/-- A fault that is no verdict on the program. -/
def Fault.Unjudged (fault : Fault) : Prop := ∀ verdict, fault ≠ .rejected verdict

/-- An attempt that may fail, but not with a verdict on the program. -/
def Attempt.Unjudged (attempt : Attempt α) : Prop :=
  ∀ verdict, attempt ≠ .error (.rejected verdict)

namespace Attempt.Unjudged

theorem ok (result : α) : Attempt.Unjudged (.ok result) := fun _ failed => nomatch failed

/-- A failure that is no verdict is an attempt without one. -/
theorem error {fault : Fault} (unjudged : fault.Unjudged) :
    Attempt.Unjudged (.error fault : Attempt α) :=
  fun verdict failed => unjudged verdict (Except.error.inj failed)

/-- The failure of an attempt that is unjudged is unjudged too. -/
theorem fault {attempt : Attempt α} (unjudged : attempt.Unjudged) {fault : Fault}
    (failed : attempt = .error fault) : fault.Unjudged := by
  intro verdict same
  rw [same] at failed
  exact unjudged verdict failed

/-- Steps that are unjudged make an attempt that is. -/
theorem bind {first : Attempt α} {next : α → Attempt β} (unjudged : first.Unjudged)
    (rest : ∀ result, (next result).Unjudged) : (first >>= next).Unjudged := by
  intro verdict failed
  cases first with
  | ok result => exact rest result verdict failed
  | error fault =>
      cases failed
      exact unjudged verdict rfl

/-- That a value is no atom is no verdict. -/
theorem atom (value : Value) : value.atom.Unjudged := by
  intro verdict failed
  unfold Value.atom at failed
  split at failed <;> cases failed

/-- That a value has no elements is no verdict. -/
theorem elements (value : Value) : value.elements.Unjudged := by
  intro verdict failed
  cases value <;> cases failed

/-- That a number cannot be cut to an integer is no verdict. -/
theorem wholeOfReal (x : Binary64) : (Value.wholeOfReal x).Unjudged := by
  intro verdict failed
  unfold Value.wholeOfReal at failed
  cases whole : x.truncated with
  | some k =>
      rw [whole] at failed
      cases failed
  | none =>
      rw [whole] at failed
      simp only [Except.error.injEq] at failed
      split at failed <;> cases failed

/-- That a value is no integer is no verdict. -/
theorem toWhole (value : Value) : value.toWhole.Unjudged := by
  intro verdict failed
  cases value with
  | real x => exact wholeOfReal x verdict failed
  | text chars =>
      unfold Value.toWhole at failed
      simp only at failed
      split at failed <;> cases failed
  | _ => cases failed

theorem itemCount (block : Block n) : block.itemCount.Unjudged := toWhole _

theorem arguments (block : Block n) : block.arguments.Unjudged := elements _

/-- Too many digits are no verdict. -/
theorem written (text? : Option String) : (Attempt.written text?).Unjudged := by
  intro verdict failed
  cases text? <;> cases failed

theorem display (value : Value) : value.display.Unjudged := written _

theorem quote (value : Value) : (BlockScript.quote value).Unjudged :=
  bind (display value) fun _ => ok _

/-- An instrument fails only if the id of its block cannot be quoted. -/
theorem instrument (template : Option String) (block : Block n) :
    (BlockScript.instrument template block).Unjudged := by
  unfold BlockScript.instrument
  split
  · exact ok _
  · split
    · exact ok _
    · exact bind (quote _) fun _ => ok _

theorem numeral (k : Int) : (Index.numeral k).Unjudged := written _

/-- A known position fails only for too many digits. -/
theorem ofLiteral (position shift : Int) (negate : Bool) :
    (Index.ofLiteral position shift negate).Unjudged :=
  bind (numeral _) fun _ => ok _

/-- So does the shift of a position. -/
theorem shifted (position : String) (shift : Int) : (Index.shifted position shift).Unjudged := by
  unfold Index.shifted
  split
  · exact bind (numeral _) fun _ => ok _
  · split
    · exact bind (numeral _) fun _ => ok _
    · exact ok _

/-- So does a position that is computed. -/
theorem ofCode (position : String) (shift : Int) (negate : Bool) :
    (Index.ofCode position shift negate).Unjudged :=
  bind (shifted position shift) fun _ => ok _

/-- That code is no integer is no verdict. -/
theorem literalPosition (code : String) : (BlockScript.literalPosition code).Unjudged := by
  unfold BlockScript.literalPosition
  split
  · exact wholeOfReal _
  · intro verdict failed
    cases failed

end Attempt.Unjudged

/-! ## Rules -/

/-- A contract that also limits the faults that generators end with of their own accord. -/
structure Rules (n : Nat) extends Contract n where
  faults : Fault → Prop

namespace Gen

/-- A generator keeps to rules and its result has a property, if it has one. -/
def Abides (rules : Rules n) (property : α → Prop) : Gen n α → Prop
  | .done result => property result
  | .fail fault => rules.faults fault
  | .ask request next =>
      rules.allows request ∧
        ∀ answer, rules.promises request answer → (next answer).Abides rules property

namespace Abides

variable {rules : Rules n} {property : α → Prop} {further : β → Prop}

/-- Generators that abide by rules do so one after the other. -/
theorem bind {generator : Gen n α} {next : α → Gen n β}
    (first : generator.Abides rules property)
    (rest : ∀ result, property result → (next result).Abides rules further) :
    (generator >>= next).Abides rules further := by
  induction generator with
  | done result => exact rest result first
  | fail fault => exact first
  | ask request answer ih =>
      exact ⟨first.1, fun reply promised => ih reply (first.2 reply promised)⟩

/-- Who keeps to rules keeps to their contract. -/
theorem ensures {generator : Gen n α} (abides : generator.Abides rules property) :
    generator.Ensures rules.toContract property := by
  induction generator with
  | done result => exact abides
  | fail fault => trivial
  | ask request next ih =>
      exact ⟨abides.1, fun answer promised => ih answer (abides.2 answer promised)⟩

end Abides

end Gen

/-! ## Conduct -/

/-- Some block of a graph reaches itself by a way that is not empty. -/
def Graph.Cyclic (graph : Graph n) : Prop := ∃ ref, Relation.TransGen graph.Links ref ref

/-- What a generator may concern itself with. -/
structure Scope (n : Nat) where
  /-- The blocks that it may ask for. -/
  leads : Fin n → Prop
  /-- The names that it may have identified. -/
  names : Space → Value → Prop
  /-- What the import of the random module is good for. -/
  imported : Prop
  /-- What it may take for the name of a procedure. -/
  isProcedure : String → Prop
  /-- What entering procedures takes. -/
  defines : Prop

/-- The helpers of the library, by key. Two of them use the random module. -/
inductive Snippet.Listed (oneBased : Bool) (imported : Prop) : String → Template → Prop
  | firstIndex : Listed oneBased imported "first_index" (Snippet.firstIndex oneBased)
  | lastIndex : Listed oneBased imported "last_index" (Snippet.lastIndex oneBased)
  | removeRandomItem : imported →
      Listed oneBased imported "lists_remove_random_item" Snippet.removeRandomItem
  | sort : Listed oneBased imported "lists_sort" Snippet.sort
  | randomLetter : imported →
      Listed oneBased imported "text_random_letter" Snippet.randomLetter

/-- The rules that generators keep to within a scope. -/
def Setting.conduct (setting : Setting n) (scope : Scope n) : Rules n where
  allows
    | .block ref => scope.leads ref
    | .identifier space name => scope.names space name
    | .helper key template => Snippet.Listed setting.oneBased scope.imported key template
    | .define procedure => scope.defines ∧ scope.isProcedure procedure.name
    | _ => True
  promises
    | .identifier .procedure _, name => scope.isProcedure name
    | .require key _, _ => key = "import_random" → scope.imported
    | _, _ => True
  faults fault := ∀ verdict, fault = .rejected verdict → verdict.family = .cyclic →
    setting.workspace.graph.Cyclic

namespace Gen

/-- A generator keeps to the rules of a scope. -/
abbrev Conducts (setting : Setting n) (scope : Scope n) (generator : Gen n α) : Prop :=
  generator.Abides (setting.conduct scope) (fun _ => True)

namespace Conducts

variable {setting : Setting n} {scope : Scope n}

theorem done (result : α) : (Gen.done result : Gen n α).Conducts setting scope := trivial

/-- Generators that are well conducted are so one after the other. -/
theorem bind {generator : Gen n α} {next : α → Gen n β}
    (first : generator.Conducts setting scope)
    (rest : ∀ result, (next result).Conducts setting scope) :
    (generator >>= next).Conducts setting scope :=
  Abides.bind first fun result _ => rest result

/-- A verdict of another family says nothing of cycles. -/
theorem reject {cause : Cause} (other : cause.family ≠ .cyclic) :
    (Gen.reject cause : Gen n α).Conducts setting scope := by
  intro verdict failed cyclic
  rw [Rejection.family, Cause.fault_eq_rejected.mp failed] at cyclic
  exact (other cyclic).elim

/-- Options that are not handled may be rejected anywhere. -/
theorem unhandled (block : Block n) (combination : Table Value) :
    (Gen.unhandled block combination : Gen n α).Conducts setting scope :=
  reject (by simp [Cause.family])

/-- A failure that is no verdict may happen anywhere. -/
theorem fail {fault : Fault} (unjudged : fault.Unjudged) :
    (Gen.fail fault : Gen n α).Conducts setting scope :=
  fun verdict same _ => (unjudged verdict same).elim

/-- What follows an attempt may count on where its result comes from. -/
theorem attempt {attempt : Attempt α} {next : α → Gen n β} (unjudged : attempt.Unjudged)
    (rest : ∀ result, attempt = .ok result → (next result).Conducts setting scope) :
    (Gen.lift attempt >>= next).Conducts setting scope := by
  cases attempt with
  | ok result => exact rest result rfl
  | error fault => exact fail (unjudged.fault rfl)

/-- An attempt that is unjudged may be made anywhere. -/
theorem lift {attempt : Attempt α} (unjudged : attempt.Unjudged) :
    (Gen.lift attempt : Gen n α).Conducts setting scope := by
  rw [← bind_pure (Gen.lift attempt)]
  exact .attempt unjudged fun result _ => done result

theorem ite {condition : Prop} [Decidable condition] {first second : Gen n α}
    (yes : first.Conducts setting scope) (no : second.Conducts setting scope) :
    (if condition then first else second).Conducts setting scope := by
  split
  · exact yes
  · exact no

/-- A generator for every element of a list is well conducted if each is. -/
theorem each {generate : α → Gen n β} {elements : List α}
    (conducts : ∀ element ∈ elements, (generate element).Conducts setting scope) :
    (Gen.each generate elements).Conducts setting scope := by
  induction elements with
  | nil => trivial
  | cons element rest ih =>
      refine bind (conducts element (List.mem_cons_self ..)) fun _ => ?_
      refine bind (ih fun other member => conducts other (List.mem_cons_of_mem _ member)) fun _ => ?_
      trivial

/-- Blocks that the scope leads to may be asked for. -/
theorem block {ref : Fin n} (leads : scope.leads ref) :
    (Gen.block ref).Conducts setting scope := ⟨leads, fun _ _ => trivial⟩

/-- Variables that the scope names may be asked for. -/
theorem variableName {name : Value} (named : scope.names .user name) :
    (Gen.variableName name : Gen n String).Conducts setting scope := ⟨named, fun _ _ => trivial⟩

/-- Identifiers of their own may be asked for anywhere. -/
theorem distinctVariable (name : Value) :
    (Gen.distinctVariable name : Gen n String).Conducts setting scope :=
  ⟨trivial, fun _ _ => trivial⟩

theorem temporary (name : Value) :
    (Gen.temporary name : Gen n String).Conducts setting scope := ⟨trivial, fun _ _ => trivial⟩

/-- Helpers that are listed may be asked for. -/
theorem helper {key : String} {template : Template}
    (listed : Snippet.Listed setting.oneBased scope.imported key template) :
    (Gen.helper key template : Gen n String).Conducts setting scope := ⟨listed, fun _ _ => trivial⟩

/-- Imports may be required anywhere. -/
theorem require (key statement : String) :
    (Gen.require key statement : Gen n Unit).Conducts setting scope :=
  ⟨trivial, fun _ _ => trivial⟩

/-- What follows the import of the random module may count on it. -/
theorem importRandom {next : Unit → Gen n β}
    (rest : scope.imported → (next ()).Conducts setting scope) :
    (Gen.importRandom >>= next).Conducts setting scope :=
  ⟨trivial, fun _ imported => rest (imported rfl)⟩

/-- What the identifier of a procedure is used for may count on it. -/
theorem procedureName {name : Value} {next : String → Gen n β}
    (named : scope.names .procedure name)
    (rest : ∀ identifier, scope.isProcedure identifier →
      (next identifier).Conducts setting scope) :
    (Gen.procedureName name >>= next).Conducts setting scope :=
  ⟨named, fun identifier promised => rest identifier promised⟩

/-- To look an option up fails only if it is no atom, and that is no verdict. -/
theorem choice (table : Table α) (option : Value) :
    (Gen.choice table option : Gen n (Option α)).Conducts setting scope := by
  unfold Gen.choice
  refine bind (lift (.atom option)) fun _ => ?_
  cases option <;> trivial

end Conducts

end Gen

/-! ## Chains -/

namespace Graph

variable {graph : Graph n}

/-- A block is linked to what is plugged into it. -/
theorem links_of_input? {ref child : Fin n} {socket : String}
    (plugged : (graph.block ref).input? socket = some child) : graph.Links ref child := by
  have held : ∀ {inputs : List (Value × Option (Fin n))},
      Value.lookup (.text socket) inputs = some (some child) → child ∈ inputs.filterMap (·.2) := by
    intro inputs found
    induction inputs with
    | nil => cases found
    | cons entry rest ih =>
        obtain ⟨key, plugged⟩ := entry
        unfold Value.lookup at found
        split at found
        · cases found
          exact List.mem_cons_self ..
        · exact List.mem_filterMap.mpr
            ((List.mem_filterMap.mp (ih found)).imp fun _ both => ⟨List.mem_cons_of_mem _ both.1, both.2⟩)
  exact List.mem_append_left _ (held (Option.join_eq_some_iff.mp plugged))

/-- A block is linked to the next one. -/
theorem links_of_next {ref child : Fin n} (following : (graph.block ref).next = some child) :
    graph.Links ref child := by
  refine List.mem_append_right _ ?_
  rw [following]
  exact List.mem_singleton_self _

/-- A set of blocks that has the block after each of its own has all blocks of a chain. -/
theorem forall_mem_follow {leads : Fin n → Prop}
    (onward : ∀ ref, leads ref → ∀ child, graph.Links ref child → leads child) (steps : Nat)
    (seen : List (Fin n)) (ref : Fin n) (first : leads ref) :
    ∀ other ∈ (graph.follow steps seen ref).blocks, leads other := by
  induction steps generalizing seen ref with
  | zero =>
      intro _ member
      cases member
  | succ steps ih =>
      unfold follow
      split
      · intro _ member
        cases member
      · split
        · intro other member
          rw [List.mem_singleton.mp member]
          exact first
        · rename_i after following
          intro other member
          rcases List.mem_cons.mp member with rfl | later
          · exact first
          · exact ih _ after (onward ref first after (links_of_next following)) other later

/-- **A chain that comes back is a cycle.** Every block that the walk along a chain has seen leads to
the block it is at, so the block it comes back to leads to itself. -/
theorem cyclic_of_follow (steps : Nat) (seen : List (Fin n)) (ref : Fin n)
    (distinct : seen.Nodup) (enough : n ≤ steps + seen.length)
    (leads : ∀ other ∈ seen, Relation.TransGen graph.Links other ref)
    {back : Fin n} (returns : (graph.follow steps seen ref).returnsTo = some back) :
    graph.Cyclic := by
  induction steps generalizing seen ref with
  | zero =>
      rw [Nat.zero_add] at enough
      exact ⟨ref, leads ref (Setting.mem_of_full distinct enough ref)⟩
  | succ steps ih =>
      unfold follow at returns
      split at returns
      · rename_i known
        exact ⟨ref, leads ref known⟩
      · rename_i unseen
        split at returns
        · cases returns
        · rename_i after following
          have linked := links_of_next following
          refine ih _ after (List.nodup_cons.mpr ⟨unseen, distinct⟩) ?_ ?_ returns
          · rw [List.length_cons]
            omega
          · intro other member
            rcases List.mem_cons.mp member with rfl | earlier
            · exact .single linked
            · exact (leads other earlier).tail linked

/-- A chain that returns to one of its blocks is a cycle. -/
theorem cyclic_of_chain {first back : Fin n} (returns : (graph.chain first).returnsTo = some back) :
    graph.Cyclic :=
  cyclic_of_follow n [] first .nil (Nat.le_add_right ..) (fun _ member => nomatch member) returns

end Graph

/-- A scope has what the generator of a block may reach and name. -/
structure Scope.Covers (scope : Scope n) (setting : Setting n) (block : Block n) : Prop where
  sockets : ∀ socket ref, block.input? socket = some ref → scope.leads ref
  onward : ∀ ref, scope.leads ref → ∀ child, setting.workspace.graph.Links ref child →
    scope.leads child
  variableField : scope.names .user (block.field "VAR")
  procedureField : scope.names .procedure (block.field "NAME")

namespace Gen

variable {setting : Setting n} {scope : Scope n} {block : Block n}

/-! ## Sockets and chains -/

/-- A chain within a scope that has all that its blocks link to. When it has no end, its blocks are
a cycle. -/
theorem conducts_chain
    (onward : ∀ ref, scope.leads ref → ∀ child, setting.workspace.graph.Links ref child →
      scope.leads child)
    {first : Option (Fin n)} (leads : ∀ ref ∈ first, scope.leads ref) :
    (chain setting first).Conducts setting scope := by
  cases first with
  | none => trivial
  | some ref =>
      unfold chain
      refine .bind (.each fun other member => ?_) fun codes => ?_
      · refine .bind (.block ?_) fun outcome => ?_
        · exact Graph.forall_mem_follow onward n [] ref (leads ref rfl) other member
        · cases outcome <;> trivial
      · split
        · rename_i returns
          exact fun _ _ _ => Graph.cyclic_of_chain returns
        · trivial

section Sockets

variable (covers : scope.Covers setting block)

include covers

/-- The block in a socket is a child of the block. -/
theorem conducts_child (socket : String) :
    (child setting block socket).Conducts setting scope := by
  unfold child
  split
  · trivial
  · rename_i ref plugged
    refine .bind (.block (covers.sockets socket ref plugged)) fun outcome => ?_
    cases outcome with
    | expression value => trivial
    | statement code => exact .reject (by simp [Cause.family])
    | nothing => exact .reject (by simp [Cause.family])

theorem conducts_value (socket : String) (order : Order) (default : String) :
    (value setting block socket order default).Conducts setting scope := by
  refine .bind (conducts_child covers socket) fun found => ?_
  cases found <;> trivial

theorem conducts_statements (socket : String) :
    (statements setting block socket).Conducts setting scope :=
  .bind (conducts_chain covers.onward (covers.sockets socket)) fun _ => .done _

/-- A loop body asks for the statements of its socket. -/
theorem conducts_loopBody (socket : String) :
    (loopBody setting block socket).Conducts setting scope :=
  .bind (conducts_statements covers socket) fun _ =>
    .bind (.lift (.instrument _ block)) fun _ => .done _

/-- An offset asks for the position in its socket. -/
theorem conducts_index (socket : String) (delta : Int) (negate : Bool) :
    (index setting block socket delta negate).Conducts setting scope := by
  refine .bind (conducts_value covers ..) fun code => ?_
  split
  · exact .lift (.bind (.literalPosition code) fun position => .ofLiteral position _ negate)
  · exact .lift (.ofCode code _ negate)

/-- A slice asks for the positions of its two ends. -/
theorem conducts_slice : (slice setting block).Conducts setting scope := by
  refine .bind ?_ fun first => .bind ?_ fun last => .done _
  · refine .ite ?_ (.ite ?_ (.ite (.done _) (.unhandled block _)))
    · exact .bind (conducts_index covers ..) fun _ => .done _
    · exact .bind (conducts_index covers ..) fun _ => .done _
  · refine .ite ?_ (.ite ?_ (.ite (.done _) (.unhandled block _)))
    · exact .bind (conducts_index covers ..) fun _ => .done _
    · refine .bind (conducts_index covers ..) fun last => ?_
      split
      · exact .bind (.require ..) fun _ => .done _
      · exact .done _

/-- Numbered sockets are sockets of the block. -/
theorem conducts_numbered (stem default : String) (count : Int) :
    (numbered setting block stem default count).Conducts setting scope :=
  .each fun _ _ => conducts_value covers ..

/-- An offset that is computed asks for what its position needs. -/
theorem conducts_offset (position : Position) :
    (offset setting block position).Conducts setting scope := by
  cases position with
  | first => trivial
  | last => trivial
  | fromStart => exact .bind (conducts_index covers ..) fun _ => .done _
  | fromEnd => exact .bind (conducts_index covers ..) fun _ => .done _

end Sockets

end Gen

end BlockScript
