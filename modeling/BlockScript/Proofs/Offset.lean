import BlockScript.Proofs.Evaluation
import BlockScript.Proofs.Number.Integer
import BlockScript.Proofs.NumberCode

/-! # What offsets denote

A position becomes an offset by a shift, by the number that positions start with, and by the sign of
positions that count from the end. Positions that are known are computed with in advance, others by
the generated code, and both come to the same offset (`Setting.index_denotes`). A known position is
a number of double width, so an integer of more than fifty-three significant bits is rounded before
it is shifted.
-/

namespace BlockScript

-- Powers are the built-in ones, also where a library brings others.
attribute [local instance (2000)] instPowNat

open Scanner

variable {n : Nat} {α : Type}

/-- Code that fits a place passes, with operators that bind tightly enough. -/
theorem Fits.passes {required : Order} {text : String} (fits : Fits Names.IsName required text) :
    ∃ orders, Passes True text orders ∧ ∀ order ∈ orders, required.rank ≤ order.rank := by
  obtain ⟨order, enough, code⟩ := fits
  obtain ⟨orders, passes, tight⟩ := code.reads
  exact ⟨orders, passes, fun other member => Int.le_trans enough (tight other member)⟩

theorem Attempt.ok_bind {α β : Type} (result : α) (next : α → Attempt β) :
    (.ok result : Attempt α) >>= next = next result := rfl

/-- A step after a choice of success or failure is made after success. -/
theorem Attempt.ite_bind {α β : Type} {condition : Prop} [Decidable condition] (result : α)
    (fault : Fault) (next : α → Attempt β) :
    (if condition then .ok result else .error fault : Attempt α) >>= next =
      if condition then next result else .error fault := by
  split <;> rfl

/-- Whether an integer has no more digits than can be written. -/
abbrev Numeral.IsWritable (m : Int) : Prop := m.natAbs < 10 ^ greatestLength

namespace Index

open Numeral

/-- The offset that a position denotes, when positions start with one or with zero. -/
def target (oneBased : Bool) (position delta : Int) (negate : Bool) : Int :=
  (if negate then -1 else 1) * (position + delta - if oneBased then 1 else 0)

/-- The position that an integer is taken for. One that is known in advance is rounded to double
width, and one that the program computes is not. -/
def taken (given : Int) (known : Bool) : Int :=
  if known then Binary64.roundedInt given else given

/-- What is added to positions. -/
def shift (oneBased : Bool) (delta : Int) : Int := if oneBased then delta - 1 else delta

/-- An offset is its position with a shift, perhaps negated. -/
theorem target_eq (oneBased : Bool) (position delta : Int) (negate : Bool) :
    target oneBased position delta negate =
      if negate then -(position + shift oneBased delta) else position + shift oneBased delta := by
  cases oneBased <;> cases negate <;> simp [target, shift] <;> omega

/-- An integer is written unless it has too many digits. -/
theorem numeral_eq (m : Int) :
    numeral m = if IsWritable m then .ok (toString m) else .error .tooManyDigits := by
  unfold numeral ofWhole?
  by_cases fits : IsWritable m
  · simp only [fits, ↓reduceIte, Attempt.written]
  · simp only [fits, ↓reduceIte, Attempt.written]

/-- A known position becomes an offset that is known too, if it can be written. -/
theorem ofLiteral_eq (oneBased : Bool) (position delta : Int) (negate : Bool) :
    ofLiteral position (shift oneBased delta) negate =
      if IsWritable (target oneBased position delta negate) then
        .ok ⟨toString (target oneBased position delta negate),
          some (target oneBased position delta negate)⟩
      else .error .tooManyDigits := by
  rw [target_eq]
  unfold ofLiteral
  dsimp only
  rw [numeral_eq]
  exact Attempt.ite_bind ..

/-- The code of a position with a shift that can be written. -/
def shiftedCode (position : String) (shift : Int) : String :=
  if 0 < shift then position ++ " + " ++ toString shift
  else if shift < 0 then position ++ " - " ++ toString (-shift)
  else position

/-- A position is shifted if the shift can be written. -/
theorem shifted_eq (position : String) (shift : Int) :
    shifted position shift =
      if IsWritable shift then .ok (shiftedCode position shift) else .error .tooManyDigits := by
  have opposite : IsWritable (-shift) ↔ IsWritable shift := by
    rw [IsWritable, Int.natAbs_neg]
  have zero : IsWritable 0 := Nat.pow_pos (by decide)
  unfold shifted shiftedCode
  rcases Int.lt_trichotomy shift 0 with below | rfl | above
  · have noSum : ¬ 0 < shift := by omega
    simp only [noSum, below, ↓reduceIte, numeral_eq, opposite]
    exact Attempt.ite_bind ..
  · rw [if_pos zero]
    rfl
  · simp only [above, ↓reduceIte, numeral_eq]
    exact Attempt.ite_bind ..

/-- The code of a shifted position that is computed when the program runs. -/
def conversionCode (position : String) (shift : Int) (negate : Bool) : String :=
  let whole := "int(" ++ shiftedCode position shift ++ ")"
  if negate then "-" ++ whole else whole

/-- A position that is computed becomes code, if its shift can be written. -/
theorem ofCode_eq (position : String) (shift : Int) (negate : Bool) :
    ofCode position shift negate =
      if IsWritable shift then .ok ⟨conversionCode position shift negate, none⟩
      else .error .tooManyDigits := by
  unfold ofCode
  rw [shifted_eq]
  exact Attempt.ite_bind ..

/-- The offset of what a socket holds. -/
def ofHeld (oneBased : Bool) (held : Option Expression) (delta : Int) (negate : Bool) :
    Attempt Index :=
  let code := OperationTree.socketCode held (Gen.shiftOrder (shift oneBased delta))
    (if oneBased then "1" else "0")
  if isLiteral code then do ofLiteral (← literalPosition code) (shift oneBased delta) negate
  else ofCode code (shift oneBased delta) negate

end Index

/-- The offset of a position hangs on what its socket holds. -/
theorem Gen.index_eq (setting : Setting n) (block : Block n) (socket : String) (delta : Int)
    (negate : Bool) :
    index setting block socket delta negate =
      child setting block socket >>= fun held =>
        lift (Index.ofHeld setting.oneBased held delta negate) := by
  unfold index value
  simp only [bind_assoc]
  refine congrArg (child setting block socket >>= ·) (funext fun held => ?_)
  unfold Index.ofHeld
  rw [apply_ite lift]
  cases held <;> rfl

/-- No operand of a shift has to be tighter than a signed number. -/
theorem Gen.rank_shiftOrder_le (amount : Int) :
    (shiftOrder amount).rank ≤ Order.unarySign.rank := by
  unfold shiftOrder
  split <;> decide

/-! ## Evaluating offsets -/

namespace Runtime

/-- A value with a shift, as generated code computes it. -/
def shifted (runtime : Runtime α) (amount : Int) (value : α) : Option α :=
  if 0 < amount then runtime.sum value (runtime.whole amount)
  else if amount < 0 then runtime.difference value (runtime.whole (-amount))
  else some value

/-- The offset of a value: it is shifted, converted to an integer and perhaps negated. -/
def offset (runtime : Runtime α) (amount : Int) (negate : Bool) (value : α) : Option α := do
  let whole ← runtime.conversion (← runtime.shifted amount value)
  if negate then runtime.negative whole else some whole

/-- The offset of an integer is an integer. -/
theorem offset_whole (runtime : Runtime α) (amount : Int) (negate : Bool) (value : Int) :
    runtime.offset amount negate (runtime.whole value) =
      some (runtime.whole (if negate then -(value + amount) else value + amount)) := by
  have moved : runtime.shifted amount (runtime.whole value) =
      some (runtime.whole (value + amount)) := by
    unfold shifted
    rcases Int.lt_trichotomy amount 0 with below | rfl | above
    · rw [if_neg (by omega), if_pos below, runtime.difference_whole, Int.sub_neg]
    · simp
    · rw [if_pos above, runtime.sum_whole]
  rw [offset, moved]
  simp only [Option.bind_eq_bind, Option.bind_some, runtime.conversion_whole]
  cases negate with
  | false => rfl
  | true => exact runtime.negative_whole _

end Runtime

namespace Index

open Numeral

variable {runtime : Runtime α} {imports : List String} {position : String} {amount : Int}

/-- A shifted position evaluates to its value with the shift. -/
theorem evaluate_shiftedCode (fits : Fits Names.IsName (Gen.shiftOrder amount) position) :
    runtime.evaluate imports (shiftedCode position amount) =
      (runtime.evaluate imports position).bind (runtime.shifted amount) := by
  obtain ⟨orders, passes, tight⟩ := fits.passes
  unfold shiftedCode
  rcases Int.lt_trichotomy amount 0 with below | rfl | above
  · obtain ⟨m, same⟩ := Int.eq_ofNat_of_zero_le (show 0 ≤ -amount by omega)
    rw [Gen.shiftOrder, if_neg (by omega)] at tight
    rw [if_neg (by omega), if_pos below, same]
    refine (runtime.evaluate_difference imports passes tight m).trans ?_
    refine congrArg (Option.bind _) (funext fun value => ?_)
    rw [Runtime.shifted, if_neg (by omega), if_pos below, same]
  · have same : runtime.shifted 0 = some := by
      funext value
      simp [Runtime.shifted]
    simp [same]
  · obtain ⟨m, rfl⟩ := Int.eq_ofNat_of_zero_le (show 0 ≤ amount by omega)
    rw [Gen.shiftOrder, if_neg (by omega)] at tight
    rw [if_pos above]
    refine (runtime.evaluate_sum imports passes tight m).trans ?_
    refine congrArg (Option.bind _) (funext fun value => ?_)
    rw [Runtime.shifted, if_pos above]

/-- A minus sign may stand before a conversion. -/
theorem starts_conversion (content : String) :
    Text.Starts isOperand ("int(" ++ content ++ ")") := by
  simpa [Text.Starts] using (show isOperand 'i' = true by decide)

/-- The code of an offset computes the offset of what its position evaluates to. -/
theorem evaluate_conversionCode (writable : IsWritable amount)
    (fits : Fits Names.IsName (Gen.shiftOrder amount) position) (negate : Bool) :
    runtime.evaluate imports (conversionCode position amount negate) =
      (runtime.evaluate imports position).bind (runtime.offset amount negate) := by
  have written : shifted position amount = .ok (shiftedCode position amount) := by
    rw [shifted_eq, if_pos writable]
  obtain ⟨orders, passes, -⟩ := (Gen.fits_shifted fits written).passes
  have converted := runtime.evaluate_conversion imports passes
  rw [evaluate_shiftedCode fits] at converted
  cases negate with
  | false =>
      refine (converted.trans (Option.bind_assoc ..)).trans ?_
      refine congrArg (Option.bind _) (funext fun value => ?_)
      simp [Runtime.offset]
  | true =>
      refine (runtime.evaluate_negative imports (Form.passes_conversion passes)
        (starts_conversion _)).trans ?_
      rw [converted, Option.bind_assoc, Option.bind_assoc]
      refine congrArg (Option.bind _) (funext fun value => ?_)
      simp [Runtime.offset]

/-- An index that denotes an offset: its code evaluates to the offset, and it holds the offset as a
constant exactly if that is known. -/
structure Denotes (runtime : Runtime α) (imports : List String) (index : Index) (offset : Int)
    (known : Bool) : Prop where
  code : runtime.evaluate imports index.code = some (runtime.whole offset)
  constant : index.constant = if known then some offset else none

variable {oneBased : Bool} {held : Option Expression} {place : Int}

@[simp] theorem taken_false (given : Int) : taken given false = given := rfl

/-- A position is taken for what it is, unless it is known and too long. -/
theorem taken_of_isShort {given : Int} {known : Bool}
    (exact : known = true → given.natAbs < Binary64.overflow ∧ Binary64.IsShort given) :
    taken given known = given := by
  cases known with
  | false => exact taken_false given
  | true =>
      obtain ⟨small, short⟩ := exact rfl
      exact Binary64.roundedInt_of_isShort small short

/-- A position that a socket holds as a literal. -/
structure Literal (oneBased : Bool) (held : Option Expression) (place : Int) : Prop where
  code : ∀ amount, OperationTree.socketCode held (Gen.shiftOrder amount)
    (if oneBased then "1" else "0") = toString place
  reads : literalPosition (toString place) = .ok place

/-- Nothing in a socket stands for the first position. -/
theorem literal_unplugged (oneBased : Bool) :
    Literal oneBased none (if oneBased then 1 else 0) := by
  have reads (digit : Int) (listed : digit ∈ [0, 1]) :
      literalPosition (toString digit) = .ok digit := by
    have whole : ∀ digit ∈ ([0, 1] : List Int), (Binary64.ofInt digit).isWhole = true ∧
      (Binary64.ofInt digit).truncated = some digit := by decide +kernel
    exact literalPosition_toString (whole digit listed).1 (whole digit listed).2
  cases oneBased with
  | false => exact ⟨fun _ => rfl, reads 0 (by decide)⟩
  | true => exact ⟨fun _ => rfl, reads 1 (by decide)⟩

/-- The literal of a finite number needs no parentheses. -/
theorem socketCode_numberLiteral {x : Binary64} (value : x.truncated = some place) (amount : Int)
    (default : String) :
    OperationTree.socketCode (some (Gen.numberLiteral x)) (Gen.shiftOrder amount) default =
      (Gen.numberLiteral x).code := by
  have required := Gen.rank_shiftOrder_le amount
  cases x with
  | nan | infinite => cases value
  | finite negative significand exponent canonical =>
      rw [OperationTree.socketCode, Order.wrap_of_le]
      refine Int.le_trans required ?_
      unfold Gen.numberLiteral
      dsimp only
      split <;> decide

/-- A whole number is held as its digits. -/
theorem literal_number {x : Binary64} (oneBased : Bool) (whole : x.isWhole = true)
    (value : x.truncated = some place) :
    Literal oneBased (some (Gen.numberLiteral x)) place := by
  refine ⟨fun amount => ?_, literalPosition_toString whole value⟩
  rw [socketCode_numberLiteral value]
  cases x with
  | nan | infinite => cases value
  | finite => simp only [Gen.numberLiteral, whole, value, ↓reduceIte, Option.getD_some]

/-- The offset of a number block: its number is cut towards zero and shifted in advance. -/
theorem ofHeld_numberLiteral {x : Binary64} (value : x.truncated = some place) (delta : Int)
    (negate : Bool) :
    ofHeld oneBased (some (Gen.numberLiteral x)) delta negate =
      if IsWritable (target oneBased place delta negate) then
        .ok ⟨toString (target oneBased place delta negate),
          some (target oneBased place delta negate)⟩
      else .error .tooManyDigits := by
  rw [← ofLiteral_eq, ofHeld, socketCode_numberLiteral value,
    if_pos (Gen.isLiteral_numberLiteral value), literalPosition_numberLiteral value,
    Attempt.ok_bind]

/-- A literal position is computed with in advance. -/
theorem Literal.ofHeld_eq (literal : Literal oneBased held place) (delta : Int) (negate : Bool) :
    ofHeld oneBased held delta negate =
      if IsWritable (target oneBased place delta negate) then
        .ok ⟨toString (target oneBased place delta negate),
          some (target oneBased place delta negate)⟩
      else .error .tooManyDigits := by
  rw [← ofLiteral_eq, ofHeld, literal.code, if_pos (isLiteral_toString place), literal.reads,
    Attempt.ok_bind]

/-- Code that is no literal is computed with when the program runs. -/
theorem ofHeld_of_not_literal {value : Expression} (composed : isLiteral value.code = false)
    (delta : Int) (negate : Bool) :
    ofHeld oneBased (some value) delta negate =
      ofCode (Order.wrap value.code value.order (Gen.shiftOrder (shift oneBased delta)))
        (shift oneBased delta) negate := by
  have wrapped (required : Order) :
      isLiteral (Order.wrap value.code value.order required) = false := by
    unfold Order.wrap
    split
    · exact isLiteral_of_mem (show '(' ∈ _ by simp) (by decide)
    · exact composed
  unfold ofHeld OperationTree.socketCode
  dsimp only
  rw [wrapped]
  rfl

end Index

/-! ## Sockets for positions -/

namespace Gen

variable {visit : Fin n → Emission n Outcome} {pass after : Pass n} {setting : Setting n}
  {block : Block n} {socket : String} {held : Option Expression}

theorem run_lift (attempt : Attempt α) (pass : Pass n) :
    ((lift attempt).runWith visit).run.run pass = (attempt, pass) := by
  cases attempt <;> rfl

/-- A socket that comes to something is filled. -/
theorem fills_of_yields_child (ran : Yields visit (child setting block socket) pass held after) :
    Fills visit (block.input? socket) pass held after := by
  unfold Yields child at ran
  cases plugged : block.input? socket with
  | none =>
      rw [plugged] at ran
      cases ran
      exact ⟨rfl, rfl⟩
  | some ref =>
      rw [plugged] at ran
      dsimp only at ran
      rw [runWith_bind, runWith_block, Step.bind_eq_ok] at ran
      obtain ⟨outcome, between, came, ran⟩ := ran
      cases outcome with
      | expression value =>
          cases ran
          exact ⟨value, rfl, came⟩
      | statement | nothing => cases ran

/-- The offset of a position is made of what its socket holds. -/
theorem run_index_of_yields (ran : Yields visit (child setting block socket) pass held after)
    (delta : Int) (negate : Bool) :
    ((index setting block socket delta negate).runWith visit).run.run pass =
      (Index.ofHeld setting.oneBased held delta negate, after) := by
  unfold Yields at ran
  rw [index_eq, runWith_bind, Step.run_bind, ran]
  exact run_lift ..

end Gen

namespace Setting

open Numeral

/-- What a socket for positions holds: nothing, which stands for the first position; a number block
whose field gives an integer that is not too large; or a block of another kind, with code that
evaluates to an integer. The flag tells whether the position is known in advance. -/
inductive Holds (setting : Setting n) (runtime : Runtime α) (imports : List String)
    (socket : Option (Fin n)) : Option Expression → Int → Bool → Prop
  | unplugged : socket = none →
      Holds setting runtime imports socket none (if setting.oneBased then 1 else 0) true
  | number {ref : Fin n} {value : Expression} {given : Int} : socket = some ref →
      setting.Has ref .number →
      (((setting.block ref).field? "NUM").getD (.int 0)).rational? = some (given : ℚ) →
      given.natAbs < Binary64.overflow →
        Holds setting runtime imports socket (some value) given true
  | other {ref : Fin n} {value : Expression} {given : Int} : socket = some ref →
      ¬ setting.Has ref .number →
      runtime.evaluate imports value.code = some (runtime.whole given) →
        Holds setting runtime imports socket (some value) given false

variable {setting : Setting n} {runtime : Runtime α} {imports : List String} {pass after : Pass n}
  {depth : Nat} {block : Block n} {socket : String} {held : Option Expression} {given : Int}
  {known : Bool}

/-- A number block that comes to an expression comes to the literal of its number. -/
theorem exists_number_of_outcome {ref : Fin n} {value : Expression}
    (has : setting.Has ref .number)
    (ran : (setting.outcome depth ref).run.run pass = (.ok (.expression value), after)) :
    ∃ x, (((setting.block ref).field? "NUM").getD (.int 0)).toReal = .ok x ∧
      value = Gen.numberLiteral x := by
  obtain ⟨kind, below, inner, named, generated, -⟩ := exists_run_of_outcome ran
  have same : setting.Has ref kind := eq_label_of_ofValue? named
  cases same.unique has
  simp only [Kind.generate, Gen.number] at generated
  cases read : (((setting.block ref).field? "NUM").getD (.int 0)).toReal with
  | ok x =>
      rw [read] at generated
      cases generated
      exact ⟨x, rfl, rfl⟩
  | error fault =>
      rw [read] at generated
      cases fault <;> cases generated

/-- A number block comes to the literal of the number that its field is read as. -/
theorem eq_numberLiteral_of_outcome {ref : Fin n} {value : Expression} {x : Binary64}
    (has : setting.Has ref .number)
    (read : (((setting.block ref).field? "NUM").getD (.int 0)).toReal = .ok x)
    (ran : (setting.outcome depth ref).run.run pass = (.ok (.expression value), after)) :
    value = Gen.numberLiteral x := by
  obtain ⟨y, again, same⟩ := exists_number_of_outcome has ran
  cases read.symm.trans again
  exact same

/-- A block that comes to an expression comes to code of the language. -/
theorem code_of_outcome (reached : setting.Reached pass) {ref : Fin n} {value : Expression}
    (ran : (setting.outcome depth ref).run.run pass = (.ok (.expression value), after)) :
    Code Names.IsName (.value value.order) value.code := by
  have inserts : setting.Inserts fun _ => True := fun _ _ _ => trivial
  obtain ⟨_, proper⟩ := setting.outcome_keeps_legal inserts depth ref pass (reached.legal inserts)
  exact proper (.expression value) (by rw [ran])

/-- What the offset of a position is written with: all of it if it is known, and otherwise the
shift. -/
def written (setting : Setting n) (place delta : Int) (negate known : Bool) : Int :=
  if known then Index.target setting.oneBased place delta negate
  else Index.shift setting.oneBased delta

/-- The offset of a position that is computed when the program runs, if the shift can be written. -/
theorem evaluate_conversion_of_outcome (reached : setting.Reached pass) {ref : Fin n}
    {value : Expression}
    (ran : (setting.outcome depth ref).run.run pass = (.ok (.expression value), after))
    {delta : Int} (writable : IsWritable (Index.shift setting.oneBased delta)) (negate : Bool) :
    runtime.evaluate imports (Index.conversionCode
        (Order.wrap value.code value.order (Gen.shiftOrder (Index.shift setting.oneBased delta)))
        (Index.shift setting.oneBased delta) negate) =
      (runtime.evaluate imports value.code).bind
        (runtime.offset (Index.shift setting.oneBased delta) negate) := by
  have code := code_of_outcome reached ran
  obtain ⟨orders, passes, -⟩ := code.reads
  have possible : (Gen.shiftOrder (Index.shift setting.oneBased delta)).rank ≤ Order.atomic.rank :=
    Int.le_trans (Gen.rank_shiftOrder_le _) (by decide)
  rw [Index.evaluate_conversionCode writable (.wrap code possible), runtime.evaluate_wrap imports
    passes]

/-- The integers in sockets are not too large to be rounded. -/
theorem Holds.small {socket : Option (Fin n)}
    (holds : setting.Holds runtime imports socket held given true) :
    given.natAbs < Binary64.overflow := by
  cases holds with
  | unplugged =>
      refine lt_of_le_of_lt (b := 1) ?_ (by decide +kernel)
      split <;> decide
  | number _ _ _ small => exact small

/-- A position that is known in advance is held as the literal of the integer it is taken for. -/
theorem Holds.literal {socket : Option (Fin n)}
    (holds : setting.Holds runtime imports socket held given true)
    (fills : Gen.Fills (setting.outcome depth) socket pass held after) :
    Index.Literal setting.oneBased held (Index.taken given true) := by
  have small := holds.small
  cases holds with
  | unplugged =>
      have exact : Index.taken (if setting.oneBased then 1 else 0) true =
          if setting.oneBased then 1 else 0 := by
        refine Index.taken_of_isShort fun _ => ⟨small, Binary64.isShort_of_le ?_⟩
        split <;> decide
      rw [exact]
      exact Index.literal_unplugged setting.oneBased
  | number plugged has denotes =>
      subst plugged
      obtain ⟨_, same, ran⟩ := fills
      cases same
      obtain ⟨x, read, finite⟩ := Value.exists_toReal_of_rational? denotes small
      have value := Binary64.truncated_eq_cut finite
      rw [Binary64.cut_intCast] at value
      rw [eq_numberLiteral_of_outcome has read ran]
      exact Index.literal_number setting.oneBased ((Binary64.isWhole_iff finite).mpr ⟨_, rfl⟩) value

/-- **What a position comes to.** An index that denotes the offset, unless too many digits would
have to be written. -/
theorem run_index (reached : setting.Reached pass)
    (ran : Gen.Yields (setting.outcome depth) (Gen.child setting block socket) pass held after)
    (holds : setting.Holds runtime imports (block.input? socket) held given known) (delta : Int)
    (negate : Bool) :
    (IsWritable (setting.written (Index.taken given known) delta negate known) ∧
      ∃ index, ((Gen.index setting block socket delta negate).runWith
        (setting.outcome depth)).run.run pass = (.ok index, after) ∧
        index.Denotes runtime imports
          (Index.target setting.oneBased (Index.taken given known) delta negate) known) ∨
    (¬ IsWritable (setting.written (Index.taken given known) delta negate known) ∧
      ((Gen.index setting block socket delta negate).runWith
        (setting.outcome depth)).run.run pass = (.error .tooManyDigits, after)) := by
  have fills := Gen.fills_of_yields_child ran
  rw [Gen.run_index_of_yields ran]
  cases known with
  | true =>
      -- The literal is computed with in advance, so it is the offset that has to be written.
      rw [(holds.literal fills).ofHeld_eq]
      by_cases writable :
          IsWritable (Index.target setting.oneBased (Index.taken given true) delta negate)
      · rw [if_pos writable]
        exact .inl ⟨writable, _, rfl, runtime.evaluate_toString imports _, rfl⟩
      · rw [if_neg writable]
        exact .inr ⟨writable, rfl⟩
  | false =>
      -- The code is computed with when the program runs, and only the shift is written.
      cases holds with
      | @other ref value _ plugged noNumber evaluated =>
          rw [plugged] at fills
          obtain ⟨_, same, came⟩ := fills
          cases same
          have composed := isLiteral_of_outcome reached noNumber came
          rw [Index.ofHeld_of_not_literal composed, Index.ofCode_eq]
          by_cases writable : IsWritable (Index.shift setting.oneBased delta)
          · rw [if_pos writable]
            refine .inl ⟨writable, _, rfl, ?_, rfl⟩
            rw [evaluate_conversion_of_outcome reached came writable, evaluated, Option.bind_some,
              runtime.offset_whole, Index.target_eq, Index.taken_false]
          · rw [if_neg writable]
            exact .inr ⟨writable, rfl⟩

/-- **Offsets under both conventions.** In every pass that occurs: where the socket of a position
fails, so does the offset, with the same fault. Where the socket is empty, holds a number block with
an integer, or holds a block of another kind with code that evaluates to an integer, the offset is
an index whose code evaluates to `± (place + delta - base)`, and that has this value as a constant
exactly if the socket is empty or holds a number; only an integer of more digits than can be written
makes it fail. The place is the integer, but that of a number block is the integer rounded to double
width, which changes it exactly if it has more than fifty-three significant bits. Where nothing is
rounded, an integer in a program that starts with zero has the offset of the next one in a program
that starts with one. -/
theorem index_denotes (reached : setting.Reached pass) (depth : Nat) (block : Block n)
    (socket : String) (delta : Int) (negate : Bool) (runtime : Runtime α)
    (imports : List String) :
    (∀ fault after,
      ((Gen.child setting block socket).runWith (setting.outcome depth)).run.run pass =
          (.error fault, after) →
        ((Gen.index setting block socket delta negate).runWith
          (setting.outcome depth)).run.run pass = (.error fault, after)) ∧
    (∀ held after given known,
      ((Gen.child setting block socket).runWith (setting.outcome depth)).run.run pass =
          (.ok held, after) →
      setting.Holds runtime imports (block.input? socket) held given known →
        (IsWritable (setting.written (Index.taken given known) delta negate known) →
          ∃ index, ((Gen.index setting block socket delta negate).runWith
            (setting.outcome depth)).run.run pass = (.ok index, after) ∧
            index.Denotes runtime imports
              (Index.target setting.oneBased (Index.taken given known) delta negate) known) ∧
        (¬ IsWritable (setting.written (Index.taken given known) delta negate known) →
          ((Gen.index setting block socket delta negate).runWith
            (setting.outcome depth)).run.run pass = (.error .tooManyDigits, after))) ∧
    (∀ given, Index.taken given false = given) ∧
    (∀ given : Int, given.natAbs < Binary64.overflow →
      Binary64.Rounds given (.ofInt given) (Index.taken given true) ∧
        (Index.taken given true = given ↔ Binary64.IsShort given)) ∧
    ∀ given known,
      (known = true → ∀ position ∈ [given, given + 1],
        position.natAbs < Binary64.overflow ∧ Binary64.IsShort position) →
        Index.target true (Index.taken (given + 1) known) delta negate =
          Index.target false (Index.taken given known) delta negate := by
  refine ⟨?_, ?_, Index.taken_false, fun _ => Binary64.rounds_roundedInt, ?_⟩
  · intro fault after failed
    rw [Gen.index_eq, Gen.runWith_bind, Step.run_bind, failed]
  · intro held after given known ran holds
    rcases run_index reached ran holds delta negate with ⟨writable, made⟩ | ⟨refused, failed⟩
    · exact ⟨fun _ => made, fun refused => absurd writable refused⟩
    · exact ⟨fun writable => absurd writable refused, fun _ => failed⟩
  · intro given known exact
    rw [Index.taken_of_isShort fun knows => exact knows _ (by simp),
      Index.taken_of_isShort fun knows => exact knows _ (by simp)]
    simp only [Index.target_eq, Index.shift, ↓reduceIte, Bool.false_eq_true]
    split <;> omega

/-- A program of one variable. -/
def variableSample : Setting 1 := .ofBlocks #v[.ofKind .getVariable [("VAR", .text "i")] []] [0]

/-- The variable holds whatever integer it has when the program runs. -/
theorem variableSample_holds (imports : List String) (given : Int) :
    variableSample.Holds (.integers (fun _ => some given) 9) imports (some 0)
      (some ⟨"i", .atomic⟩) given false := by
  refine .other rfl ?_ ?_
  · intro number
    cases number.unique (show variableSample.Has 0 .getVariable from rfl)
  · have form : Form.of? "i" = none := by decide +kernel
    rw [Runtime.evaluate, form]
    rfl

/-- A program of one number, with positions that start with one or with zero. -/
def numberSample (oneBased : Bool) (given : Int) : Setting 1 where
  workspace :=
    ⟨⟨.ofFn fun _ => .ofKind .number [("NUM", .int given)] []⟩, [Fin.last 0], [], [], oneBased⟩
  options := {}

/-- The number is known in advance. -/
theorem numberSample_holds (runtime : Runtime α) (imports : List String) (oneBased : Bool)
    {given : Int} (small : given.natAbs < Binary64.overflow) (value : Expression) :
    (numberSample oneBased given).Holds runtime imports (some 0) (some value) given true :=
  .number rfl rfl rfl small

/-- A block that takes its position from the only block of a program. -/
def accessSample : Block 1 := .ofKind .getIndex [] [(.text "AT", some 0)]

theorem index_denotes_variableSample :
    variableSample.Reached (Pass.start Names.start) ∧
      (∃ after, ((Gen.child variableSample accessSample "AT").runWith
        (variableSample.outcome 1)).run.run (Pass.start Names.start) =
          (.ok (some ⟨"i", .atomic⟩), after)) ∧
      variableSample.Holds (.integers (fun _ => some 3) 9) [] (accessSample.input? "AT")
        (some ⟨"i", .atomic⟩) 3 false ∧
      ∃ index after, ((Gen.index variableSample accessSample "AT" 5 true).runWith
        (variableSample.outcome 1)).run.run (Pass.start Names.start) = (.ok index, after) ∧
        index.Denotes (.integers (fun _ => some 3) 9) [] (-7) false := by
  have computed : (((Gen.child variableSample accessSample "AT").runWith
      (variableSample.outcome 1)).run.run (Pass.start Names.start)).1.toOption =
        some (some ⟨"i", .atomic⟩) := by decide +kernel
  have ran := Step.eq_ok_of_toOption computed
  have plugged : accessSample.input? "AT" = some 0 := by decide +kernel
  have holds := variableSample_holds [] 3
  rw [← plugged] at holds
  obtain ⟨index, made, denotes⟩ := ((index_denotes .start 1 accessSample "AT" 5 true
    (.integers (fun _ => some 3) 9) []).2.1 _ _ 3 false ran holds).1 (by decide +kernel)
  exact ⟨.start, ⟨_, ran⟩, holds, index, _, made, denotes⟩

/-- An offset can fail although its position does not: it has a digit too many. And an integer of
fifty-four bits is taken for the even one next to it, so a program that starts with zero and one
that starts with one disagree on it. -/
theorem index_deviates_numberSample :
    ((∃ after, ((Gen.child (numberSample true (-1)) accessSample "AT").runWith
        ((numberSample true (-1)).outcome 1)).run.run (Pass.start Names.start) =
          (.ok (some ⟨"-1", .unarySign⟩), after)) ∧
      (numberSample true (-1)).Holds (.integers (fun _ => none) 9) [] (accessSample.input? "AT")
        (some ⟨"-1", .unarySign⟩) (-1) true ∧
      ∃ after, ((Gen.index (numberSample true (-1)) accessSample "AT" (-(10 ^ 4300 - 1 : Nat))
        false).runWith ((numberSample true (-1)).outcome 1)).run.run (Pass.start Names.start) =
          (.error .tooManyDigits, after)) ∧
    ((numberSample false (2 ^ 53 + 1)).Holds (.integers (fun _ => none) 9) []
        (accessSample.input? "AT") (some ⟨"9007199254740992", .atomic⟩) (2 ^ 53 + 1) true ∧
      ∃ index after, ((Gen.index (numberSample false (2 ^ 53 + 1)) accessSample "AT" 0
        false).runWith ((numberSample false (2 ^ 53 + 1)).outcome 1)).run.run
          (Pass.start Names.start) = (.ok index, after) ∧
        index.Denotes (.integers (fun _ => none) 9) [] (2 ^ 53) true) ∧
    Index.target true (Index.taken (2 ^ 53 + 1) true) 0 false ≠
      Index.target false (Index.taken (2 ^ 53) true) 0 false := by
  have plugged : accessSample.input? "AT" = some 0 := by decide +kernel
  have shortRan := Step.eq_ok_of_toOption (show (((Gen.child (numberSample true (-1)) accessSample
    "AT").runWith ((numberSample true (-1)).outcome 1)).run.run (Pass.start Names.start)).1.toOption =
      some (some ⟨"-1", .unarySign⟩) by decide +kernel)
  have shortHolds : (numberSample true (-1)).Holds (.integers (fun _ => none) 9) []
      (accessSample.input? "AT") (some ⟨"-1", .unarySign⟩) (-1) true := by
    rw [plugged]
    exact numberSample_holds _ _ true (by decide +kernel) _
  have longRan := Step.eq_ok_of_toOption (show (((Gen.child (numberSample false (2 ^ 53 + 1))
    accessSample "AT").runWith ((numberSample false (2 ^ 53 + 1)).outcome 1)).run.run
      (Pass.start Names.start)).1.toOption = some (some ⟨"9007199254740992", .atomic⟩)
        by decide +kernel)
  have longHolds : (numberSample false (2 ^ 53 + 1)).Holds (.integers (fun _ => none) 9) []
      (accessSample.input? "AT") (some ⟨"9007199254740992", .atomic⟩) (2 ^ 53 + 1) true := by
    rw [plugged]
    exact numberSample_holds _ _ false (by decide +kernel) _
  refine ⟨⟨⟨_, shortRan⟩, shortHolds, ?_⟩, ⟨longHolds, ?_⟩, by decide +kernel⟩
  · rcases run_index .start shortRan shortHolds (-(10 ^ 4300 - 1 : Nat)) false
      with ⟨writable, -⟩ | ⟨-, failed⟩
    · exact absurd writable (by decide +kernel)
    · exact ⟨_, failed⟩
  · have place : Index.target (numberSample false (2 ^ 53 + 1)).oneBased
        (Index.taken (2 ^ 53 + 1) true) 0 false = 2 ^ 53 := by decide +kernel
    rcases run_index .start longRan longHolds 0 false with ⟨-, index, made, denotes⟩ | ⟨refused, -⟩
    · rw [place] at denotes
      exact ⟨index, _, made, denotes⟩
    · exact absurd (by decide +kernel) refused

end Setting

end BlockScript
