import BlockScript.Proofs.Offset

/-! # What slices denote

The two ends of a part of a sequence are named by an option each: an edge of the sequence, or a
position that is counted from the start or from the end. The bounds that are made of them cut out
the elements from the one end to the other, both included (`Setting.part_denotes`), where positions
that are known in advance have no more than fifty-three significant bits.
-/

namespace BlockScript

-- Powers are the built-in ones, also where a library brings others.
attribute [local instance (2000)] instPowNat

variable {n : Nat} {α β : Type}

namespace Slice

/-- Where a bound lies in a sequence: a negative one is counted from the end, and none lies
outside. -/
def place (length : Nat) (bound : Int) : Nat :=
  min length (if bound < 0 then bound + length else bound).toNat

/-- The elements of a sequence between two bounds; an open bound lies at an edge. -/
def cut (elements : List β) (first last : Option Int) : List β :=
  elements.extract (first.elim 0 (place elements.length))
    (last.elim elements.length (place elements.length))

/-- The two ends of a part of a sequence. -/
inductive Side where
  | opening
  | closing

namespace Side

/-- The field with the option of an end. -/
def field : Side → String
  | .opening => "WHERE1"
  | .closing => "WHERE2"

/-- The socket with the position of an end. -/
def socket : Side → String
  | .opening => "AT1"
  | .closing => "AT2"

/-- The option that puts an end at the edge. -/
def edge : Side → String
  | .opening => "FIRST"
  | .closing => "LAST"

/-- The index of the element at the edge. -/
def edgeIndex (length : Nat) : Side → Nat
  | .opening => 0
  | .closing => length - 1

end Side

end Slice

/-- What a bound of a slice evaluates to; an empty one is open. -/
def Runtime.bound? (runtime : Runtime α) (imports : List String) (code : String) :
    Option (Option α) :=
  if code = "" then some none else (runtime.evaluate imports code).map some

namespace Setting

open Slice

/-- The index, from zero, of the element that an end of a part is put at, in a sequence of some
length, when the generator of its position leads from a pass to another. A position that is not the
edge has to lie in the sequence, and to be short if it is known in advance. -/
inductive Endpoint (setting : Setting n) (depth : Nat) (runtime : Runtime α)
    (imports : List String) (block : Block n) (length : Nat) (side : Side) (pass : Pass n) :
    Nat → Pass n → Prop
  | edge : block.field side.field = .text side.edge →
      Endpoint setting depth runtime imports block length side pass (side.edgeIndex length) pass
  | fromStart {index : Nat} {held : Option Expression} {known : Bool} {after : Pass n} :
      block.field side.field = .text "FROM_START" →
      Gen.Yields (setting.outcome depth) (Gen.child setting block side.socket) pass held after →
      setting.Holds runtime imports (block.input? side.socket) held
        (index + if setting.oneBased then 1 else 0) known →
      (known = true → Binary64.IsShort (index + if setting.oneBased then 1 else 0)) →
      index < length →
        Endpoint setting depth runtime imports block length side pass index after
  | fromEnd (distance : Nat) {held : Option Expression} {known : Bool} {after : Pass n} :
      block.field side.field = .text "FROM_END" →
      Gen.Yields (setting.outcome depth) (Gen.child setting block side.socket) pass held after →
      setting.Holds runtime imports (block.input? side.socket) held
        (distance + if setting.oneBased then 1 else 0) known →
      (known = true → Binary64.IsShort (distance + if setting.oneBased then 1 else 0)) →
      distance < length →
        Endpoint setting depth runtime imports block length side pass (length - 1 - distance) after

end Setting

/-- Finite numbers have a limited number of digits. -/
theorem Binary64.natAbs_lt_of_truncated {x : Binary64} {v : Int} (value : x.truncated = some v) :
    v.natAbs < 2 ^ 53 * 2 ^ greatestExponent.toNat := by
  cases x with
  | nan | infinite => cases value
  | finite negative significand exponent canonical =>
      have small : significand < 2 ^ 53 := canonical.1
      have power : exponent.toNat ≤ greatestExponent.toNat := Int.toNat_le_toNat canonical.2.2.1
      have bounded : wholeMagnitude significand exponent < 2 ^ 53 * 2 ^ greatestExponent.toNat := by
        unfold wholeMagnitude
        split
        · exact Nat.mul_lt_mul_of_lt_of_le small (Nat.pow_le_pow_right (by decide) power)
            (Nat.two_pow_pos _)
        · calc significand / 2 ^ (-exponent).toNat
              ≤ significand := Nat.div_le_self ..
            _ < 2 ^ 53 := small
            _ ≤ 2 ^ 53 * 2 ^ greatestExponent.toNat :=
              Nat.le_mul_of_pos_right _ (Nat.two_pow_pos _)
      simp only [truncated, Option.some.injEq] at value
      have size : v.natAbs = wholeMagnitude significand exponent := by
        rw [← value]
        split
        · rw [Int.natAbs_neg, Int.natAbs_natCast]
        · rw [Int.natAbs_natCast]
      rwa [size]

/-- Integers are rounded to finite values. -/
theorem Binary64.natAbs_roundedInt_lt (v : Int) :
    (roundedInt v).natAbs < 2 ^ 53 * 2 ^ greatestExponent.toNat := by
  unfold roundedInt
  cases value : (ofInt v).truncated with
  | none => exact Nat.mul_pos (Nat.two_pow_pos _) (Nat.two_pow_pos _)
  | some cut => exact natAbs_lt_of_truncated value

namespace Index

variable {oneBased : Bool} {place delta : Int}

/-- An endpoint is shifted by two at most. -/
theorem natAbs_shift_le (near : delta.natAbs ≤ 1) : (shift oneBased delta).natAbs ≤ 2 := by
  cases oneBased <;> simp only [shift, ↓reduceIte, Bool.false_eq_true] <;> omega

/-- So it is not much farther from zero than its position. -/
theorem natAbs_target_le (near : delta.natAbs ≤ 1) (negate : Bool) :
    (target oneBased place delta negate).natAbs ≤ place.natAbs + 2 := by
  have shifted : (shift oneBased delta).natAbs ≤ 2 := natAbs_shift_le near
  rw [target_eq]
  split <;> omega

end Index

namespace Setting

open Slice Numeral

variable {setting : Setting n} {depth : Nat} {runtime : Runtime α} {imports : List String}
  {block : Block n} {length : Nat} {pass after : Pass n} {held : Option Expression} {given : Int}
  {known : Bool} {socket : String}

/-- The offsets that slices are made of can be written. -/
theorem isWritable_written (setting : Setting n) (given : Int) {delta : Int}
    (near : delta.natAbs ≤ 1) (negate known : Bool) :
    IsWritable (setting.written (Index.taken given known) delta negate known) := by
  have enough : 2 ^ 53 * 2 ^ Binary64.greatestExponent.toNat + 2 < 10 ^ greatestLength := by
    decide +kernel
  cases known with
  | true =>
      have size := Nat.le_of_lt (Binary64.natAbs_roundedInt_lt given)
      exact Nat.lt_of_le_of_lt (Index.natAbs_target_le near negate)
        (Nat.lt_of_le_of_lt (Nat.add_le_add_right size 2) enough)
  | false =>
      exact Nat.lt_of_le_of_lt (Index.natAbs_shift_le near)
        (Nat.lt_of_le_of_lt (Nat.le_add_left ..) enough)

/-- A short position comes to an index of the language that denotes its offset. -/
theorem yields_index (reached : setting.Reached pass)
    (ran : Gen.Yields (setting.outcome depth) (Gen.child setting block socket) pass held after)
    (holds : setting.Holds runtime imports (block.input? socket) held given known)
    (short : known = true → Binary64.IsShort given) {delta : Int} (near : delta.natAbs ≤ 1)
    (negate : Bool) :
    ∃ index, Gen.Yields (setting.outcome depth) (Gen.index setting block socket delta negate) pass
        index after ∧
      index.Denotes runtime imports (Index.target setting.oneBased given delta negate) known ∧
      Fits Names.IsName .unarySign index.code := by
  have exact : Index.taken given known = given :=
    Index.taken_of_isShort fun knows => ⟨(knows ▸ holds).small, short knows⟩
  rcases run_index reached ran holds delta negate with ⟨-, index, made, denotes⟩ | ⟨refused, -⟩
  · have inserts : setting.Inserts fun _ => True := fun _ _ _ => trivial
    have ensures : (Gen.index setting block socket delta negate).Ensures
        (codeContract n Names.IsName fun _ => True)
        (fun index => Fits Names.IsName .unarySign index.code) := Gen.ensures_index ..
    have kept := setting.runWith_keeps_legal inserts ensures depth pass (reached.legal inserts)
    rw [exact] at denotes
    exact ⟨index, made, denotes, kept.2 index (by rw [made])⟩
  · exact absurd (isWritable_written setting given near negate known) refused

end Setting

namespace Slice

variable {runtime : Runtime α} {imports : List String} {length : Nat} {code : String}

/-- A bound that evaluates to an integer, or is open, and lies at some place of a sequence. -/
def Marks (runtime : Runtime α) (imports : List String) (length : Nat) (code : String)
    (edge index : Nat) : Prop :=
  ∃ bound : Option Int, runtime.bound? imports code = some (bound.map runtime.whole) ∧
    bound.elim edge (place length) = index

/-- An open bound lies at the edge. -/
theorem marks_open (edge : Nat) : Marks runtime imports length "" edge edge :=
  ⟨none, rfl, rfl⟩

/-- A bound with code lies where its value does. -/
theorem marks_code {required : Order} (fits : Fits Names.IsName required code) {bound : Int}
    (evaluated : runtime.evaluate imports code = some (runtime.whole bound)) {edge index : Nat}
    (lies : place length bound = index) : Marks runtime imports length code edge index := by
  obtain ⟨order, _, made⟩ := fits
  have solid : code ≠ "" := made.ne_empty fun _ named => named.1
  refine ⟨some bound, ?_, lies⟩
  rw [Runtime.bound?, if_neg solid, evaluated]
  rfl

/-- A bound that is not negative lies at its index. -/
theorem place_nonnegative {index : Nat} (inside : index ≤ length) : place length index = index := by
  unfold place
  rw [if_neg (by omega)]
  omega

/-- A negative bound lies at its distance from the end. -/
theorem place_negative {distance : Nat} (inside : distance ≤ length) (positive : 0 < distance) :
    place length (-distance) = length - distance := by
  unfold place
  rw [if_pos (by omega)]
  omega

/-- A bound beyond the end lies at the end. -/
theorem place_beyond {bound : Nat} (beyond : length ≤ bound) : place length bound = length := by
  unfold place
  rw [if_neg (by omega)]
  omega

/-- A distance from the end, or the greatest length in place of none. -/
theorem marks_disjunction {distance : Nat} (imported : "import sys" ∈ imports)
    (fits : Fits Names.IsName .unarySign code)
    (evaluated : runtime.evaluate imports code = some (runtime.whole (-distance)))
    (inside : distance ≤ length) (short : length ≤ runtime.limit) :
    Marks runtime imports length (code ++ " or sys.maxsize") length (length - distance) := by
  have loose : Fits Names.IsName .logicalOr code := fits.mono (by decide)
  obtain ⟨orders, passes, tight⟩ := loose.passes
  have either := runtime.evaluate_disjunction imports imported passes tight evaluated
  have limit : Fits Names.IsName .logicalOr "sys.maxsize" := ⟨.member, by decide, .maxsize⟩
  have joined : Fits Names.IsName .logicalOr (code ++ " or " ++ "sys.maxsize") :=
    (loose.operation "or" (by decide) limit).fits (by decide)
  rw [String.append_assoc] at either joined
  refine marks_code joined either ?_
  split
  · next zero =>
    have none : distance = 0 := by omega
    rw [none]
    exact place_beyond short
  · exact place_negative inside (by omega)

end Slice

/-- The offset of a place that is counted from where places start. -/
theorem Index.target_add_base (oneBased : Bool) (index delta : Int) (negate : Bool) :
    target oneBased (index + if oneBased then 1 else 0) delta negate =
      if negate then -(index + delta) else index + delta := by
  cases oneBased <;> cases negate <;> simp [target] <;> omega

/-- After an import is required, there is one under its key. -/
theorem Gen.yields_require (visit : Fin n → Emission n Outcome) (pass : Pass n)
    (key statement : String) :
    ∃ after, Yields visit (require key statement) pass () after ∧ after.imports.has key = true := by
  have looked : (get : Emission n (Pass n)).run.run pass = (.ok pass, pass) := rfl
  have met : ∃ after, (Pass.require key statement).run.run pass = (.ok (), after) ∧
      after.imports.has key = true := by
    unfold Pass.require
    rw [Step.run_bind, looked]
    dsimp only
    cases known : pass.imports.has key with
    | false =>
        refine ⟨_, rfl, ?_⟩
        rw [Table.has, Table.get?_insert_self]
        rfl
    | true => exact ⟨pass, rfl, known⟩
  obtain ⟨after, ran, imported⟩ := met
  exact ⟨after, Step.bind_eq_ok.mpr ⟨(), after, ran, rfl⟩, imported⟩

namespace Setting

open Slice

variable {setting : Setting n} {depth : Nat} {runtime : Runtime α} {imports : List String}
  {block : Block n} {length index : Nat} {pass after : Pass n}

/-- The bound where a slice starts. -/
theorem yields_sliceStart (reached : setting.Reached pass)
    (endpoint : setting.Endpoint depth runtime imports block length .opening pass index after) :
    ∃ first, Gen.Yields (setting.outcome depth) (Gen.sliceStart setting block) pass first after ∧
      Marks runtime imports length first 0 index := by
  cases endpoint with
  | edge chosen =>
      have option : block.field "WHERE1" = .text "FIRST" := chosen
      refine ⟨"", ?_, marks_open 0⟩
      unfold Gen.sliceStart
      simp only [option]
      exact Gen.yields_done ""
  | fromStart chosen ran holds exact inside =>
      have option : block.field "WHERE1" = .text "FROM_START" := chosen
      obtain ⟨start, made, denotes, fits⟩ := yields_index reached ran holds exact
        (show (0 : Int).natAbs ≤ 1 by decide) false
      rw [Index.target_add_base, if_neg (by decide), Int.add_zero] at denotes
      refine ⟨if start.constant = some 0 then "" else start.code, ?_, ?_⟩
      · unfold Gen.sliceStart
        simp only [option]
        exact .bind made (Gen.yields_done _)
      · split
        · next zero =>
          -- Only a position that is known to be the first one is left out.
          have first : index = 0 := by
            rw [denotes.constant] at zero
            split at zero
            · exact Int.ofNat_eq_zero.mp (Option.some.inj zero)
            · cases zero
          rw [first]
          exact marks_open 0
        · exact marks_code fits denotes.code (place_nonnegative (Nat.le_of_lt inside))
  | fromEnd distance chosen ran holds exact inside =>
      have option : block.field "WHERE1" = .text "FROM_END" := chosen
      obtain ⟨start, made, denotes, fits⟩ := yields_index reached ran holds exact
        (show (1 : Int).natAbs ≤ 1 by decide) true
      rw [Index.target_add_base, if_pos rfl] at denotes
      refine ⟨start.code, ?_, marks_code fits denotes.code ?_⟩
      · unfold Gen.sliceStart
        simp only [option]
        exact .bind made (Gen.yields_done _)
      · have lies := place_negative (Nat.succ_le_of_lt inside) (Nat.succ_pos distance)
        rw [Nat.sub_sub, Nat.add_comm]
        exact lies

/-- The bound where a slice ends, if the module that it may need is imported. -/
theorem yields_sliceEnd (reached : setting.Reached pass) (positive : 1 ≤ length)
    (short : length ≤ runtime.limit)
    (endpoint : setting.Endpoint depth runtime imports block length .closing pass index after) :
    ∃ last final, Gen.Yields (setting.outcome depth) (Gen.sliceEnd setting block) pass last final ∧
      ((final.imports.has "import_sys" = true → "import sys" ∈ imports) →
        Marks runtime imports length last length (index + 1)) := by
  cases endpoint with
  | edge chosen =>
      have option : block.field "WHERE2" = .text "LAST" := chosen
      refine ⟨"", pass, ?_, fun _ => ?_⟩
      · unfold Gen.sliceEnd
        simp only [option]
        exact Gen.yields_done ""
      · have whole : Side.closing.edgeIndex length + 1 = length := Nat.sub_add_cancel positive
        rw [whole]
        exact marks_open length
  | fromStart chosen ran holds exact inside =>
      have option : block.field "WHERE2" = .text "FROM_START" := chosen
      obtain ⟨last, made, denotes, fits⟩ := yields_index reached ran holds exact
        (show (1 : Int).natAbs ≤ 1 by decide) false
      rw [Index.target_add_base, if_neg (by decide)] at denotes
      refine ⟨last.code, after, ?_, fun _ => marks_code fits denotes.code ?_⟩
      · unfold Gen.sliceEnd
        simp only [option]
        exact .bind made (Gen.yields_done _)
      · exact place_nonnegative (Nat.succ_le_of_lt inside)
  | @fromEnd distance _ known _ chosen ran holds exact inside =>
      have option : block.field "WHERE2" = .text "FROM_END" := chosen
      obtain ⟨last, made, denotes, fits⟩ := yields_index reached ran holds exact
        (show (0 : Int).natAbs ≤ 1 by decide) true
      rw [Index.target_add_base, if_pos rfl, Int.add_zero] at denotes
      have next : length - 1 - distance + 1 = length - distance := by omega
      rw [next]
      cases known with
      | true =>
          have constant : last.constant = some (-(distance : Int)) := denotes.constant
          refine ⟨if -(distance : Int) = 0 then "" else last.code, after, ?_, fun _ => ?_⟩
          · unfold Gen.sliceEnd
            simp only [option]
            refine .bind made ?_
            rw [constant]
            exact Gen.yields_done _
          · split
            · next zero =>
              -- No distance from the end is no bound.
              have none : distance = 0 := by omega
              rw [none]
              exact marks_open length
            · exact marks_code fits denotes.code (place_negative (Nat.le_of_lt inside) (by omega))
      | false =>
          -- The distance may turn out to be zero, which would cut off everything.
          have constant : last.constant = none := denotes.constant
          obtain ⟨final, required, imported⟩ :=
            Gen.yields_require (setting.outcome depth) after "import_sys" "import sys"
          refine ⟨last.code ++ " or sys.maxsize", final, ?_, fun filed => ?_⟩
          · unfold Gen.sliceEnd
            simp only [option]
            refine .bind made ?_
            rw [constant]
            exact .bind required (Gen.yields_done _)
          · exact marks_disjunction (filed imported) fits denotes.code (Nat.le_of_lt inside) short

/-- A pass that occurs leads to another when a socket is asked for what it holds. -/
theorem reached_of_yields_child {socket : String} {held : Option Expression}
    (reached : setting.Reached pass)
    (ran : Gen.Yields (setting.outcome depth) (Gen.child setting block socket) pass held after) :
    setting.Reached after := by
  have fills := Gen.fills_of_yields_child ran
  cases plugged : block.input? socket with
  | none =>
      rw [plugged] at fills
      rw [fills.2]
      exact reached
  | some ref =>
      rw [plugged] at fills
      obtain ⟨value, -, came⟩ := fills
      have next := Reached.meet depth (.block ref) trivial reached
      rwa [Request.meet, came] at next

/-- It does so when the code of an endpoint is made, which asks one socket at most. -/
theorem Endpoint.reached {side : Side} (reached : setting.Reached pass)
    (endpoint : setting.Endpoint depth runtime imports block length side pass index after) :
    setting.Reached after := by
  cases endpoint with
  | edge => exact reached
  | fromStart _ ran | fromEnd _ _ ran => exact reached_of_yields_child reached ran

/-- **Slices cut out the right elements.** In every pass that occurs, a block for a part of a list
or of a text comes to the code of the sequence with a slice. Both bounds are open or evaluate to
integers, and in every sequence of the given length they cut out the elements from the one endpoint
to the other, both included: none if the first endpoint lies after the last. When the last bound
needs the module of the greatest length, its import has been required. -/
theorem part_denotes {kind : Kind} {socket default : String}
    (listed : (kind, socket, default) ∈
      [(Kind.sublist, "LIST", "[]"), (Kind.substring, "STRING", "''")])
    {early late : Runtime α} (positive : 1 ≤ length) (short : length ≤ late.limit)
    (reached : setting.Reached pass) {held : Option Expression} {between middle : Pass n}
    {start stop : Nat}
    (sequence : Gen.Yields (setting.outcome depth) (Gen.child setting block socket) pass held
      between)
    (opening : setting.Endpoint depth early imports block length .opening between start middle)
    (closing : setting.Endpoint depth late imports block length .closing middle stop after) :
    ∃ first last final,
      Gen.Yields (setting.outcome depth) (kind.generate setting block) pass
        (.expression ⟨OperationTree.socketCode held .member default ++
          ("[" ++ first ++ " : " ++ last ++ "]"), .member⟩) final ∧
      ((final.imports.has "import_sys" = true → "import sys" ∈ imports) →
        ∃ lower upper : Option Int,
          early.bound? imports first = some (lower.map early.whole) ∧
          late.bound? imports last = some (upper.map late.whole) ∧
          ∀ (β : Type) (elements : List β), elements.length = length →
            cut elements lower upper = elements.extract start (stop + 1)) := by
  have startReached := reached_of_yields_child reached sequence
  obtain ⟨first, opened, marksFirst⟩ := yields_sliceStart startReached opening
  obtain ⟨last, final, closed, marksLast⟩ :=
    yields_sliceEnd (opening.reached startReached) positive short closing
  have sliced : Gen.Yields (setting.outcome depth) (Gen.slice setting block) between ⟨first, last⟩
      final := by
    unfold Gen.slice
    exact .bind opened (.bind closed (Gen.yields_done _))
  have made : Gen.Yields (setting.outcome depth) (Gen.part socket default setting block) pass
      (.expression ⟨OperationTree.socketCode held .member default ++
        ("[" ++ first ++ " : " ++ last ++ "]"), .member⟩) final := by
    unfold Gen.part
    exact .bind ((Gen.fills_of_yields_child sequence).value .member default)
      (.bind sliced (Gen.yields_done _))
  refine ⟨first, last, final, ?_, fun filed => ?_⟩
  · simp only [List.mem_cons, Prod.mk.injEq, List.not_mem_nil, or_false] at listed
    rcases listed with ⟨rfl, rfl, rfl⟩ | ⟨rfl, rfl, rfl⟩
    · exact made
    · exact made
  · obtain ⟨lower, evaluatedFirst, lies⟩ := marksFirst
    obtain ⟨upper, evaluatedLast, ends⟩ := marksLast filed
    refine ⟨lower, upper, evaluatedFirst, evaluatedLast, fun β elements size => ?_⟩
    rw [cut, size, lies, ends]

/-- A part of a list with both endpoints at the position in the only block of a program. -/
def partSample : Block 1 :=
  .ofKind .sublist [("WHERE1", .text "FROM_START"), ("WHERE2", .text "FROM_END")]
    [(.text "AT1", some (Fin.last 0)), (.text "AT2", some (Fin.last 0))]

/-- The variable is two when the slice starts, and one, for no distance from the end, when it
ends. -/
theorem part_denotes_variableSample :
    variableSample.Reached (Pass.start Names.start) ∧ 1 ≤ 3 ∧
      3 ≤ (Runtime.integers (fun _ => some 1) 9).limit ∧
      ∃ between middle after,
        Gen.Yields (variableSample.outcome 1) (Gen.child variableSample partSample "LIST")
          (Pass.start Names.start) none between ∧
        variableSample.Endpoint 1 (.integers (fun _ => some 2) 9) ["import sys"] partSample 3
          .opening between 1 middle ∧
        variableSample.Endpoint 1 (.integers (fun _ => some 1) 9) ["import sys"] partSample 3
          .closing middle 2 after ∧
        ∃ first last final,
          Gen.Yields (variableSample.outcome 1) (Kind.sublist.generate variableSample partSample)
            (Pass.start Names.start)
            (.expression ⟨"[]" ++ ("[" ++ first ++ " : " ++ last ++ "]"), .member⟩) final ∧
          ∃ lower upper : Option Int,
            (Runtime.integers (fun _ => some 2) 9).bound? ["import sys"] first = some lower ∧
            (Runtime.integers (fun _ => some 1) 9).bound? ["import sys"] last = some upper ∧
            cut [10, 20, 30] lower upper = [20, 30] := by
  have sequence : Gen.Yields (variableSample.outcome 1)
      (Gen.child variableSample partSample "LIST") (Pass.start Names.start) none
      (Pass.start Names.start) := rfl
  have first : (((Gen.child variableSample partSample "AT1").runWith
      (variableSample.outcome 1)).run.run (Pass.start Names.start)).1.toOption =
        some (some ⟨"i", .atomic⟩) := by decide +kernel
  have ranFirst := Step.eq_ok_of_toOption first
  have last : (((Gen.child variableSample partSample "AT2").runWith
      (variableSample.outcome 1)).run.run (((Gen.child variableSample partSample "AT1").runWith
        (variableSample.outcome 1)).run.run (Pass.start Names.start)).2).1.toOption =
        some (some ⟨"i", .atomic⟩) := by decide +kernel
  have ranLast := Step.eq_ok_of_toOption last
  have opening : variableSample.Endpoint 1 (.integers (fun _ => some 2) 9) ["import sys"]
      partSample 3 .opening (Pass.start Names.start) 1 _ :=
    .fromStart rfl ranFirst (variableSample_holds _ 2) nofun (by decide)
  have closing : variableSample.Endpoint 1 (.integers (fun _ => some 1) 9) ["import sys"]
      partSample 3 .closing _ 2 _ :=
    .fromEnd 0 rfl ranLast (variableSample_holds _ 1) nofun (by decide)
  obtain ⟨first, last, final, made, denotes⟩ := part_denotes (List.mem_cons_self ..) (by decide)
    (by decide) .start sequence opening closing
  obtain ⟨lower, upper, evaluatedFirst, evaluatedLast, right⟩ :=
    denotes fun _ => List.mem_singleton_self _
  exact ⟨.start, by decide, by decide, _, _, _, sequence, opening, closing, first, last, final,
    made, lower, upper, evaluatedFirst.trans (by cases lower <;> rfl),
    evaluatedLast.trans (by cases upper <;> rfl), right Nat [10, 20, 30] rfl⟩

/-- The rest of a list from the position in the only block of a program. -/
def tailSample : Block 1 :=
  .ofKind .sublist [("WHERE1", .text "FROM_START"), ("WHERE2", .text "LAST")]
    [(.text "AT1", some (Fin.last 0))]

/-- A position of fifty-four bits that is known in advance is taken for the even one next to it, and
the slice starts an element early. -/
theorem part_deviates_numberSample :
    (numberSample false (2 ^ 53 + 1)).Holds (.integers (fun _ => none) (2 ^ 63 - 1)) []
      (tailSample.input? "AT1") (some ⟨"9007199254740992", .atomic⟩) (2 ^ 53 + 1) true ∧
    (((Kind.sublist.generate (numberSample false (2 ^ 53 + 1)) tailSample).runWith
      ((numberSample false (2 ^ 53 + 1)).outcome 1)).run.run (Pass.start Names.start)).1.toOption =
        some (.expression ⟨"[][9007199254740992 : ]", .member⟩) ∧
    (Runtime.integers (fun _ => none) (2 ^ 63 - 1)).bound? [] "9007199254740992" =
      some (some (2 ^ 53)) ∧
    ∀ (β : Type) (elements : List β), 2 ^ 53 + 1 < elements.length →
      cut elements (some (2 ^ 53)) none ≠ elements.extract (2 ^ 53 + 1) elements.length := by
  refine ⟨?_, by decide +kernel, by decide +kernel, fun β elements long same => ?_⟩
  · have plugged : tailSample.input? "AT1" = some 0 := by decide +kernel
    rw [plugged]
    exact numberSample_holds _ _ false (by decide +kernel) _
  · have early : place elements.length (2 ^ 53) = 2 ^ 53 := by
      rw [place, if_neg (by decide)]
      omega
    have sizes := congrArg List.length same
    simp only [cut, Option.elim_some, Option.elim_none, early, List.extract_eq_take_drop,
      List.length_take, List.length_drop] at sizes
    omega

end Setting

end BlockScript
