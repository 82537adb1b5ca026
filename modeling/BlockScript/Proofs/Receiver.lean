import BlockScript.Proofs.Charter
import BlockScript.Proofs.Lexer.Code
import BlockScript.Proofs.Offset
import BlockScript.Proofs.WellFormed

/-! # Receivers of method calls

Some blocks call a method of what a socket holds (`Kind.receiver?`): the code of the socket, a dot,
the name of the method and a bracket. Whether the code needs parentheses is decided by its order
alone. That makes a receiver of every expression (`Setting.outcome_callsMethod`) except of whole
numbers that are not negative: their digits take the dot to themselves.
-/

namespace BlockScript

variable {n : Nat}

/-- The socket that a block calls a method of, by its kind and its options. -/
def Kind.receiver? (kind : Kind) (block : Block n) : Option String :=
  match kind with
  | .changeCase | .trim | .occurrences | .replaced => some "TEXT"
  | .textIndexOf => some "VALUE"
  | .split => some (if (block.field "MODE").isText "SPLIT" then "INPUT" else "DELIM")
  | .getIndex =>
      if (block.fieldOr "MODE" "GET").isText "GET" ||
        (block.fieldOr "WHERE" "FROM_START").isText "RANDOM" then none
      else some "VALUE"
  | .setIndex => if (block.fieldOr "MODE" "SET").isText "SET" then none else some "LIST"
  | _ => none

/-- Whether a block uses its list twice, once to pick a position at random. -/
def Kind.usesTwice (kind : Kind) (block : Block n) : Bool :=
  kind = .setIndex && (block.fieldOr "WHERE" "FROM_START").isText "RANDOM"

/-- The code of an outcome. -/
def Outcome.code : Outcome → String
  | .expression value => value.code
  | .statement code => code
  | .nothing => ""

/-- A call of a method, with the code around it. -/
structure MethodCall where
  before : String
  receiver : String
  method : String
  rest : String

def MethodCall.code (call : MethodCall) : String :=
  call.before ++ call.receiver ++ ("." ++ call.method ++ "(") ++ call.rest

/-- What is put before the dot for what a socket holds: a default, or the code in parentheses where
its order requires them. A list that is used twice is held by a temporary, unless its code is a bare
name. -/
def Receives (twice : Bool) : Option Expression → String → Prop
  | none, receiver => receiver ∈ ["''", "[]"]
  | some value, receiver =>
      if twice && !Order.isBareName value.code value.order then Names.IsName receiver
      else receiver = Order.wrap value.code value.order .member

namespace Setting

/-- What an answer comes from. A block came to its outcome in a legal pass that has all that `start`
has. -/
def Answered (setting : Setting n) (start : Pass n) : (request : Request n) → request.Answer → Prop
  | .block ref, outcome =>
      ∃ depth pass after, pass.Legal (fun _ => True) ∧ pass.Extends start ∧
        (setting.outcome depth ref).run.run pass = (.ok outcome, after)
  | _, _ => True

/-- What a socket holds, and from where. -/
def Supplies (setting : Setting n) (start : Pass n) (socket : Option (Fin n)) :
    Option Expression → Prop
  | none => socket = none
  | some value => ∃ ref, socket = some ref ∧ setting.Answered start (.block ref) (.expression value)

/-- A text is put before the dot for what a socket supplies. -/
def Hands (setting : Setting n) (start : Pass n) (socket : Option (Fin n)) (twice : Bool)
    (receiver : String) : Prop :=
  ∃ held, setting.Supplies start socket held ∧ Receives twice held receiver

/-- The code calls a method of what a socket supplies. Statements stand before the call only if the
list is used twice. -/
def CallsMethod (setting : Setting n) (start : Pass n) (socket : Option (Fin n)) (twice : Bool)
    (code : String) : Prop :=
  ∃ call : MethodCall, code = call.code ∧ Text.Ended call.before.toList ∧
    (twice = false → call.before = "") ∧ call.method ∈ calledMethods ∧
    setting.Hands start socket twice call.receiver

/-- The contract of code, with where the answers come from. -/
def handing (setting : Setting n) (start : Pass n) : Contract n where
  allows := (codeContract n Names.IsName fun _ => True).allows
  promises request answer :=
    (codeContract n Names.IsName fun _ => True).promises request answer ∧
      setting.Answered start request answer

variable {setting : Setting n} {start : Pass n}

/-- Requests are met as the contract promises. -/
theorem handing_meets (below : Nat) (request : Request n)
    (allowed : (setting.handing start).allows request) :
    Step.Keeps (fun pass => pass.Legal (fun _ => True) ∧ pass.Extends start)
      ((setting.handing start).promises request) (request.meet (setting.outcome below)) := by
  have inserts : setting.Inserts fun _ => True := fun _ _ _ => trivial
  rintro pass ⟨legal, grown⟩
  obtain ⟨kept, promised⟩ :=
    codeContract_upheld _ (outcome_keeps_legal inserts below) request allowed pass legal
  have stable := Pass.extends_stable start
  obtain ⟨later, -⟩ := stable.upheld _ (stable.blocks setting below) request trivial pass grown
  refine ⟨⟨kept, later⟩, fun answer same => ⟨promised answer same, ?_⟩⟩
  cases request with
  | block ref => exact ⟨below, pass, _, legal, grown, Prod.ext same rfl⟩
  | _ => trivial

end Setting

namespace Gen

variable {α : Type} {setting : Setting n} {start : Pass n} {block : Block n}

/-- What generators ensure under the contract of code they ensure here. -/
theorem Ensures.handing {property : α → Prop} {generator : Gen n α}
    (ensures : generator.Ensures (codeContract n Names.IsName fun _ => True) property) :
    generator.Ensures (setting.handing start) property :=
  ensures.adapt (fun _ allowed => allowed) fun _ _ promised => promised.1

/-- Any socket may be asked for its code. -/
theorem hands_value (socket default : String) {order : Order}
    (possible : order.rank ≤ Order.atomic.rank) :
    (value setting block socket order default).Ensures (setting.handing start) (fun _ => True) :=
  .handing (ensures_value_or possible trivial fun _ _ => trivial)

/-- What is plugged into a socket is what the socket supplies. -/
theorem supplies_child (socket : String) :
    (child setting block socket).Ensures (setting.handing start)
      (setting.Supplies start (block.input? socket)) := by
  unfold child
  cases block.input? socket with
  | none => exact rfl
  | some ref =>
      refine ⟨trivial, fun outcome promised => ?_⟩
      cases outcome with
      | expression value => exact ⟨ref, rfl, promised.2⟩
      | statement | nothing => trivial

/-- The code of a socket as a receiver. -/
theorem receives_value {socket default : String} (listed : default ∈ ["''", "[]"]) :
    (value setting block socket .member default).Ensures (setting.handing start)
      (setting.Hands start (block.input? socket) false) := by
  unfold value
  refine .bind (supplies_child socket) fun held supplied => ?_
  cases held with
  | none => exact ⟨none, supplied, listed⟩
  | some value => exact ⟨some value, supplied, rfl⟩

/-- A list that is used twice as a receiver. -/
theorem receives_listTwice :
    (listTwice setting block).Ensures (setting.handing start)
      (fun result => setting.Hands start (block.input? "LIST") true result.2) := by
  unfold listTwice
  refine .bind (supplies_child "LIST") fun held supplied => ?_
  cases held with
  | none => exact ⟨none, supplied, show "[]" ∈ _ by decide⟩
  | some list =>
      by_cases bare : Order.isBareName list.code list.order = true
      · have atomic : list.order = .atomic := by
          simp only [Order.isBareName, Bool.and_eq_true, beq_iff_eq] at bare
          exact bare.1
        have plain : list.code = Order.wrap list.code list.order .member := by
          rw [Order.wrap_of_le _ (by rw [atomic]; decide)]
        simp only [bare, ↓reduceIte]
        exact ⟨some list, supplied, by simpa [Receives, bare] using plain⟩
      · simp only [bare, Bool.false_eq_true, ↓reduceIte]
        refine .bind (ensures_temporary _).handing fun name named => ?_
        exact ⟨some list, supplied, by simpa [Receives, bare] using named⟩

/-! ## Blocks that call methods -/

variable {socket : String} {twice : Bool}

/-- Code that starts with a receiver, a dot and a method calls that method. -/
theorem calls_of_receiver {receiver method code : String}
    (received : setting.Hands start (block.input? socket) false receiver)
    (known : method ∈ calledMethods) (rest : String)
    (same : code = receiver ++ ("." ++ method ++ "(") ++ rest) :
    setting.CallsMethod start (block.input? socket) false code := by
  refine ⟨⟨"", receiver, method, rest⟩, ?_, .inl rfl, fun _ => rfl, known, received⟩
  rw [same, MethodCall.code, String.empty_append]

/-- A generator that calls a method of what a socket supplies. -/
abbrev HandsCall (setting : Setting n) (start : Pass n) (socket : Option (Fin n)) (twice : Bool)
    (generator : Gen n Outcome) : Prop :=
  generator.Ensures (setting.handing start) fun outcome =>
    setting.CallsMethod start socket twice outcome.code

/-- A block that chooses a method calls it on the text. -/
theorem hands_chosenMethod {field : String} {methods : Table String} (calls : BareCalls methods) :
    HandsCall setting start (block.input? "TEXT") false
      (chosenMethod field methods setting block) := by
  unfold chosenMethod
  refine .bind (ensures_choice ..) fun found listed => ?_
  cases found with
  | none => exact .unhandled ..
  | some code =>
      obtain ⟨name, member⟩ := listed code rfl
      obtain ⟨method, known, rfl⟩ := calls _ member
      refine .bind (receives_value (by decide)) fun whole received => ?_
      exact calls_of_receiver received known ")" (by simp [Outcome.code, ← String.toList_inj])

/-- Occurrences are counted by a method of the text. -/
theorem hands_occurrences :
    HandsCall setting start (block.input? "TEXT") false (occurrences setting block) := by
  unfold occurrences
  refine .bind (receives_value (by decide)) fun whole received => ?_
  refine .bind (hands_value _ _ (by decide)) fun part _ => ?_
  exact calls_of_receiver received (show "count" ∈ _ by decide) (part ++ ")")
    (by simp [Outcome.code, ← String.toList_inj])

/-- Replacements are made by a method of the text. -/
theorem hands_replaced :
    HandsCall setting start (block.input? "TEXT") false (replaced setting block) := by
  unfold replaced
  refine .bind (receives_value (by decide)) fun whole received => ?_
  refine .bind (hands_value _ _ (by decide)) fun old _ => ?_
  refine .bind (hands_value _ _ (by decide)) fun new _ => ?_
  exact calls_of_receiver received (show "replace" ∈ _ by decide) (old ++ ", " ++ new ++ ")")
    (by simp [Outcome.code, ← String.toList_inj])

/-- A text is searched by a method of its own, whether a one is added to the result or not. -/
theorem hands_textIndexOf :
    HandsCall setting start (block.input? "VALUE") false (textIndexOf setting block) := by
  have found {method : String} (known : method ∈ calledMethods) :
      HandsCall setting start (block.input? "VALUE") false (do
        let part ← value setting block "FIND" .none emptyText
        let whole ← value setting block "VALUE" .member emptyText
        let code := whole ++ "." ++ method ++ "(" ++ part ++ ")"
        if setting.oneBased then expression (code ++ " + 1") .additive
        else expression code .functionCall) := by
    refine .bind (hands_value _ _ (by decide)) fun part _ => ?_
    refine .bind (receives_value (by decide)) fun whole received => .ite ?_ ?_
    · exact calls_of_receiver received known (part ++ ") + 1")
        (by simp [Outcome.code, ← String.toList_inj])
    · exact calls_of_receiver received known (part ++ ")")
        (by simp [Outcome.code, ← String.toList_inj])
  unfold textIndexOf
  exact .ite (found (by decide)) (.ite (found (by decide)) (.unhandled ..))

/-- A text is split by a method of its own, and joined by a method of the delimiter. -/
theorem hands_split :
    HandsCall setting start
      (block.input? (if (block.field "MODE").isText "SPLIT" then "INPUT" else "DELIM")) false
      (Gen.split setting block) := by
  unfold Gen.split
  dsimp only
  split
  · refine .bind (receives_value (by decide)) fun text received => ?_
    refine .bind (hands_value _ _ (by decide)) fun delimiter _ => ?_
    exact calls_of_receiver received (show "split" ∈ _ by decide) (delimiter ++ ")")
      (by simp [Outcome.code, ← String.toList_inj])
  · refine .ite ?_ (.reject _)
    refine .bind (hands_value _ _ (by decide)) fun items _ => ?_
    refine .bind (receives_value (by decide)) fun delimiter received => ?_
    exact calls_of_receiver received (show "join" ∈ _ by decide) (items ++ ")")
      (by simp [Outcome.code, ← String.toList_inj])

/-- An item that is removed is popped from its list. -/
theorem hands_itemAt {mode whereTo : Value} {items : String} {position : Position}
    (removes : mode.isText "GET" = false)
    (received : setting.Hands start (block.input? socket) false items) :
    HandsCall setting start (block.input? socket) false
      (itemAt setting block mode whereTo items position) := by
  unfold itemAt
  refine .bind (ensures_offset position).handing fun place _ => ?_
  have pop (rest : String) : setting.CallsMethod start (block.input? socket) false
      ((if position = .last then items ++ ".pop()" else items ++ ".pop(" ++ place ++ ")") ++
        rest) := by
    split
    · exact calls_of_receiver received (show "pop" ∈ _ by decide) (")" ++ rest)
        (by simp [← String.toList_inj])
    · exact calls_of_receiver received (show "pop" ∈ _ by decide) (place ++ ")" ++ rest)
        (by simp [← String.toList_inj])
  simp only [removes, Bool.false_eq_true, ↓reduceIte]
  refine .ite ?_ (.ite (pop "\n") (.unhandled ..))
  have alone := pop ""
  rw [String.append_empty] at alone
  exact alone

/-- It is, unless its position is random. -/
theorem hands_getIndex (removes : (block.fieldOr "MODE" "GET").isText "GET" = false)
    (placed : (block.fieldOr "WHERE" "FROM_START").isText "RANDOM" = false) :
    HandsCall setting start (block.input? "VALUE") false (getIndex setting block) := by
  unfold getIndex
  simp only [placed, Bool.false_eq_true, ↓reduceIte]
  refine .bind (receives_value (by decide)) fun items received => ?_
  cases position? (block.fieldOr "WHERE" "FROM_START") with
  | none => exact .unhandled ..
  | some position => exact hands_itemAt removes received

/-- An item that is not assigned is appended to its list or inserted into it. -/
theorem hands_setAt {items item : String} {position : Position}
    (received : setting.Hands start (block.input? socket) false items) :
    HandsCall setting start (block.input? socket) false
      (setAt setting block false items item position) := by
  unfold setAt
  refine .bind (ensures_offset position).handing fun place _ => ?_
  simp only [Bool.false_eq_true, ↓reduceIte]
  refine .ite ?_ ?_
  · exact calls_of_receiver received (show "append" ∈ _ by decide) (item ++ ")\n")
      (by simp [Outcome.code, ← String.toList_inj])
  · exact calls_of_receiver received (show "insert" ∈ _ by decide)
      (place ++ ", " ++ item ++ ")\n") (by simp [Outcome.code, ← String.toList_inj])

/-- At a random position the call comes after the statements that pick it. -/
theorem hands_setAtRandom (item : String) :
    HandsCall setting start (block.input? "LIST") true (setAtRandom setting block false item) := by
  unfold setAtRandom importRandom
  refine .bind (ensures_require ..).handing fun _ _ => ?_
  refine .bind receives_listTwice fun (before, items) received => ?_
  refine .bind (ensures_temporary _).handing fun x _ => ?_
  have ended : (before ++ x ++ " = int(random.random() * len(" ++ items ++ "))\n").toList.getLast? =
      some '\n' := by
    rw [String.toList_append, List.getLast?_append]
    rfl
  refine ⟨⟨_, items, "insert", x ++ ", " ++ item ++ ")\n"⟩, ?_, .inr ended, (by simp),
    show "insert" ∈ _ by decide, received⟩
  simp [Outcome.code, MethodCall.code, ← String.toList_inj]

/-- It is, at random positions too. -/
theorem hands_setIndex (inserts : (block.fieldOr "MODE" "SET").isText "SET" = false) :
    HandsCall setting start (block.input? "LIST") (Kind.usesTwice .setIndex block)
      (setIndex setting block) := by
  have twice : Kind.usesTwice .setIndex block =
      (block.fieldOr "WHERE" "FROM_START").isText "RANDOM" := rfl
  rw [twice]
  unfold setIndex
  simp only [inserts]
  refine .bind (hands_value _ _ (by decide)) fun item _ => .ite (.unhandled ..) ?_
  cases (block.fieldOr "WHERE" "FROM_START").isText "RANDOM" with
  | true => exact hands_setAtRandom item
  | false =>
      refine .bind (receives_value (by decide)) fun items received => ?_
      cases position? (block.fieldOr "WHERE" "FROM_START") with
      | none => exact .unhandled ..
      | some position => exact hands_setAt received

end Gen

/-- **Every kind that calls a method** calls it of what its socket supplies. -/
theorem Kind.hands_generate {setting : Setting n} {start : Pass n} {block : Block n} {kind : Kind}
    {socket : String} (asked : kind.receiver? block = some socket) :
    Gen.HandsCall setting start (block.input? socket) (kind.usesTwice block)
      (kind.generate setting block) := by
  unfold generate
  cases kind with
  | changeCase =>
      cases asked
      exact Gen.hands_chosenMethod Gen.bareCalls_caseMethods
  | trim =>
      cases asked
      exact Gen.hands_chosenMethod Gen.bareCalls_trimMethods
  | occurrences =>
      cases asked
      exact Gen.hands_occurrences
  | replaced =>
      cases asked
      exact Gen.hands_replaced
  | textIndexOf =>
      cases asked
      exact Gen.hands_textIndexOf
  | split =>
      cases asked
      exact Gen.hands_split
  | getIndex =>
      simp only [receiver?, Option.ite_none_left_eq_some, Bool.or_eq_true, not_or,
        Bool.not_eq_true] at asked
      obtain ⟨⟨removes, placed⟩, same⟩ := asked
      cases same
      exact Gen.hands_getIndex removes placed
  | setIndex =>
      simp only [receiver?, Option.ite_none_left_eq_some, Bool.not_eq_true] at asked
      obtain ⟨inserts, same⟩ := asked
      cases same
      exact Gen.hands_setIndex inserts
  | _ => cases asked

/-- Code that fits a place is well-formed there. -/
theorem Fits.wellFormed {order : Order} {text : String} (fits : Fits Names.IsName order text) :
    WellFormed text order := by
  obtain ⟨actual, enough, code⟩ := fits
  obtain ⟨nonempty, printable, orders, read, binds⟩ := code.wellFormed
  exact ⟨nonempty, printable, orders, read, fun operator member =>
    Int.le_trans enough (binds operator member)⟩

/-! ## Receivers that are made of digits -/

open Numeral

/-- No identifier is made of digits. -/
theorem Text.isIdentifier_of_isDigits {text : String} (digits : IsDigits text.toList) :
    Text.isIdentifier text = false := by
  have above : ∀ range ∈ Text.identifierStart, 57 < range.1 := by decide +kernel
  obtain ⟨c, rest, same⟩ := List.exists_cons_of_ne_nil digits.1
  have digit : c.isDigit = true := digits.2 c (by simp [same])
  have below := (toNat_of_isDigit digit).2
  have none : Text.startsIdentifier c = false := by
    rw [Text.startsIdentifier, Ranges.has, Ranges.find?, Option.isSome_eq_false_iff,
      Option.isNone_iff_eq_none, List.find?_eq_none]
    intro range member
    have high := above range member
    simp only [Bool.and_eq_true, decide_eq_true_eq, not_and]
    omega
  simp [Text.isIdentifier, same, none]

/-- Parentheses are no digits. -/
theorem Order.isDigits_wrap_iff {code : String} {order : Order} :
    IsDigits (Order.wrap code order .member).toList ↔
      Order.member.rank ≤ order.rank ∧ IsDigits code.toList := by
  by_cases loose : order.rank < Order.member.rank
  · rw [Order.wrap_of_lt code loose]
    refine ⟨fun digits => ?_, fun ⟨enough, _⟩ => absurd loose (Int.not_lt.mpr enough)⟩
    cases digits.2 '(' (by simp)
  · have enough := Int.not_lt.mp loose
    rw [Order.wrap_of_le code enough, and_iff_right enough]

/-- A finite number is written with digits alone when it is whole. -/
theorem Binary64.isDigits_magnitudeText_iff {significand : Nat} {exponent : Int} :
    IsDigits (magnitudeText significand exponent).toList ↔
      0 ≤ exponent ∨ significand % 2 ^ (-exponent).toNat = 0 := by
  unfold magnitudeText
  split
  · rename_i whole
    rw [toList_toString]
    exact iff_of_true (isDigits_toDigits _) whole
  · rename_i fraction
    refine iff_of_false (fun digits => ?_) fraction
    have all := List.all_eq_true.mpr digits.2
    rw [DecimalStyle.layout_not_digits] at all
    cases all

/-- **The numbers that are made of digits** are the whole ones that are not negative. -/
theorem Gen.isDigits_numberLiteral_iff {x : Binary64} :
    IsDigits (Order.wrap (numberLiteral x).code (numberLiteral x).order .member).toList ↔
      x.isWhole = true ∧ x.isNegative = false := by
  rw [Order.isDigits_wrap_iff]
  cases x with
  | nan =>
      refine iff_of_false (fun ⟨_, digits⟩ => ?_) (by decide)
      cases digits.2 'f' (by decide)
  | infinite negative =>
      refine iff_of_false (fun ⟨_, digits⟩ => ?_) (fun ⟨whole, _⟩ => by cases whole)
      cases negative <;> cases digits.2 'f' (by decide)
  | finite negative significand exponent canonical =>
      rw [numberLiteral_finite]
      by_cases below : negative = true ∧ significand ≠ 0
      · have loose : ¬ Order.member.rank ≤ Order.unarySign.rank := by decide
        rw [if_pos below]
        refine iff_of_false (fun ⟨enough, _⟩ => loose enough) fun ⟨_, sign⟩ => ?_
        simp [Binary64.isNegative, below] at sign
      · have sign :
            Binary64.isNegative (.finite negative significand exponent canonical) = false := by
          simpa [Binary64.isNegative] using below
        have tight : Order.member.rank ≤ Order.atomic.rank := by decide
        rw [if_neg below, and_iff_right tight, Binary64.isDigits_magnitudeText_iff, sign]
        simp [Binary64.isWhole]

namespace Setting

variable {setting : Setting n} {start : Pass n}

/-- A number block with a whole number that is not negative. -/
def IsWholeNumber (setting : Setting n) (ref : Fin n) : Prop :=
  setting.Has ref .number ∧ ∃ x,
    (((setting.block ref).field? "NUM").getD (.int 0)).toReal = .ok x ∧ x.isWhole = true ∧
      x.isNegative = false

/-- Only such blocks come to digits. -/
theorem isDigits_outcome_iff {pass after : Pass n} (legal : pass.Legal fun _ => True) {depth : Nat}
    {ref : Fin n} {value : Expression}
    (ran : (setting.outcome depth ref).run.run pass = (.ok (.expression value), after)) :
    IsDigits (Order.wrap value.code value.order .member).toList ↔ setting.IsWholeNumber ref := by
  by_cases has : setting.Has ref .number
  · obtain ⟨x, read, rfl⟩ := exists_number_of_outcome has ran
    rw [Gen.isDigits_numberLiteral_iff]
    refine ⟨fun whole => ⟨has, x, read, whole⟩, fun ⟨_, y, again, whole⟩ => ?_⟩
    cases read.symm.trans again
    exact whole
  · refine iff_of_false (fun digits => ?_) fun ⟨number, _⟩ => has number
    have literal := isLiteral_unsigned (Order.isDigits_wrap_iff.mp digits).2.isUnsigned false
    cases literal.symm.trans (isLiteral_of_legal legal has ran)

variable {socket : Option (Fin n)} {twice : Bool} {receiver : String}

/-- What is put before a dot binds as tightly as a subscript. -/
theorem Hands.fits (hands : setting.Hands start socket twice receiver) :
    Fits Names.IsName .member receiver := by
  have inserts : setting.Inserts fun _ => True := fun _ _ _ => trivial
  obtain ⟨held, supplied, received⟩ := hands
  cases held with
  | none =>
      simp only [Receives, List.mem_cons, List.not_mem_nil, or_false] at received
      rcases received with rfl | rfl
      · exact Gen.fits_emptyText (by decide)
      · exact Gen.fits_emptyList (by decide)
  | some value =>
      obtain ⟨ref, -, depth, pass, after, legal, -, ran⟩ := supplied
      have code : Code Names.IsName (.value value.order) value.code :=
        (setting.outcome_keeps_legal inserts depth ref pass legal).2 _ (congrArg Prod.fst ran)
      simp only [Receives] at received
      split at received
      · exact ⟨.atomic, by decide, .name received⟩
      · rw [received]
        exact .wrap code (by decide)

/-- What is put before a dot is made of digits if the socket holds a whole number, and the list is
not used twice. -/
theorem Hands.isDigits_iff (hands : setting.Hands start socket twice receiver) :
    IsDigits receiver.toList ↔
      twice = false ∧ ∃ ref, socket = some ref ∧ setting.IsWholeNumber ref := by
  obtain ⟨held, supplied, received⟩ := hands
  cases held with
  | none =>
      have defaults : ∀ default ∈ ["''", "[]"], Text.Starts (fun c => !c.isDigit) default := by
        decide
      obtain ⟨c, rest, same, other⟩ := (defaults receiver received).exists_cons
      refine iff_of_false (fun digits => ?_) fun ⟨_, ref, plugged, _⟩ => ?_
      · simp [digits.2 c (by simp [same])] at other
      · cases supplied.symm.trans plugged
  | some value =>
      obtain ⟨ref, rfl, depth, pass, after, legal, -, ran⟩ := supplied
      cases twice with
      | false =>
          have same : receiver = Order.wrap value.code value.order .member := received
          rw [same, isDigits_outcome_iff legal ran]
          simp
      | true =>
          refine iff_of_false (fun digits => ?_) fun ⟨once, _⟩ => by cases once
          simp only [Receives] at received
          split at received
          · obtain ⟨⟨c, rest, same, -, other, -⟩, -⟩ := received
            cases other.symm.trans (digits.2 c (by simp [same]))
          · rename_i bare
            rw [received, Order.isDigits_wrap_iff] at digits
            simp [Order.isBareName, Text.isIdentifier_of_isDigits digits.2] at bare

/-- **Receivers of method calls.** In every pass that occurs, a block of a kind and with options
that call a method of what a socket holds comes to code in which the receiver, a dot, the name of
the method and a bracket follow each other, at its beginning or, if the list is used twice, after
whole lines. The receiver is what the block in the socket came to, in parentheses if its order
requires them, or a name that this was assigned to, or a default; no operator outside its brackets
binds less tightly than the call. It is read as a receiver, with the dot and the name as tokens of
their own, unless the block in the socket is a whole number that is not negative: then the dot is
read as part of the number. -/
theorem outcome_callsMethod {pass after : Pass n} (reached : setting.Reached pass) {depth : Nat}
    {ref : Fin n} {outcome : Outcome}
    (ran : (setting.outcome depth ref).run.run pass = (.ok outcome, after)) {kind : Kind}
    (has : setting.Has ref kind) {socket : String}
    (asked : kind.receiver? (setting.block ref) = some socket) :
    ∃ call : MethodCall, outcome.code = call.code ∧ Text.Ended call.before.toList ∧
      (kind.usesTwice (setting.block ref) = false → call.before = "") ∧
      call.method ∈ calledMethods ∧
      setting.Hands pass ((setting.block ref).input? socket)
        (kind.usesTwice (setting.block ref)) call.receiver ∧
      WellFormed call.receiver .member ∧
      (ReadsAsCall call.receiver call.method ↔
        ¬ (kind.usesTwice (setting.block ref) = false ∧
          ∃ child, (setting.block ref).input? socket = some child ∧
            setting.IsWholeNumber child)) := by
  obtain ⟨other, below, inner, named, generated, -⟩ := exists_run_of_outcome ran
  have same : setting.Has ref other := eq_label_of_ofValue? named
  cases same.unique has
  have inserts : setting.Inserts fun _ => True := fun _ _ _ => trivial
  have legal := legal_ignores pass (ref :: pass.active) (reached.legal inserts)
  have grown := (Pass.extends_stable pass).ignores pass (ref :: pass.active) (.refl pass)
  obtain ⟨-, found⟩ :=
    (Kind.hands_generate asked).keeps (handing_meets below) _ ⟨legal, grown⟩
  obtain ⟨call, written, ended, first, known, handed⟩ :=
    found outcome (congrArg Prod.fst generated)
  refine ⟨call, written, ended, first, known, handed, handed.fits.wellFormed, ?_⟩
  rw [handed.fits.readsAsCall_iff known, handed.isDigits_iff]

/-- Methods of a whole number, of a negative one, of one that is held by a temporary, and of a
sum. -/
def receiverSample : Setting 12 :=
  .ofBlocks #v[
    .ofKind .changeCase [("CASE", .text "UPPERCASE")] [(.text "TEXT", some 1)],
    .ofKind .number [("NUM", .int 5)] [],
    .ofKind .trim [("MODE", .text "BOTH")] [(.text "TEXT", some 3)],
    .ofKind .number [("NUM", .int (-5))] [],
    .ofKind .setIndex [("MODE", .text "INSERT"), ("WHERE", .text "RANDOM")]
      [(.text "LIST", some 5), (.text "TO", some 6)],
    .ofKind .number [("NUM", .int 7)] [],
    .ofKind .text [("TEXT", .text "a")] [],
    .ofKind .split [("MODE", .text "JOIN")] [(.text "DELIM", some 8), (.text "INPUT", some 11)],
    .ofKind .arithmetic [("OP", .text "ADD")] [(.text "A", some 9), (.text "B", some 10)],
    .ofKind .number [("NUM", .int 1)] [],
    .ofKind .number [("NUM", .int 2)] [],
    .ofKind .emptyList [] []] [0, 2, 4, 7]

/-- The code of a block of the sample, when it is the first to be asked for. -/
def receiverSampleCode (ref : Fin 12) : Option String :=
  ((receiverSample.outcome 12 ref).run.run (Pass.start Names.start)).1.toOption.map Outcome.code

theorem outcome_callsMethod_receiverSample :
    receiverSample.Reached (Pass.start Names.start) ∧
      receiverSampleCode 0 = some "5.upper()" ∧
      receiverSampleCode 2 = some "(-5).strip()" ∧
      receiverSampleCode 4 = some ("tmp_list = 7\ntmp_x = int(random.random() * len(tmp_list))\n" ++
        "tmp_list.insert(tmp_x, 'a')\n") ∧
      receiverSampleCode 7 = some "(1 + 2).join([])" ∧
      (∃ call : MethodCall, receiverSampleCode 0 = some call.code ∧
        ¬ ReadsAsCall call.receiver call.method) ∧
      ∀ ref ∈ ([2, 4, 7] : List (Fin 12)), ∃ call : MethodCall,
        receiverSampleCode ref = some call.code ∧ ReadsAsCall call.receiver call.method := by
  have calls {ref : Fin 12} {kind : Kind} {socket : String} (has : receiverSample.Has ref kind)
      (asked : kind.receiver? (receiverSample.block ref) = some socket)
      (succeeds : (receiverSampleCode ref).isSome = true) :
      ∃ call : MethodCall, receiverSampleCode ref = some call.code ∧
        (ReadsAsCall call.receiver call.method ↔
          ¬ (kind.usesTwice (receiverSample.block ref) = false ∧
            ∃ child, (receiverSample.block ref).input? socket = some child ∧
              receiverSample.IsWholeNumber child)) := by
    obtain ⟨code, computed⟩ := Option.isSome_iff_exists.mp succeeds
    obtain ⟨outcome, came, -⟩ := Option.map_eq_some_iff.mp computed
    obtain ⟨call, written, -, -, -, -, -, read⟩ :=
      outcome_callsMethod .start (Step.eq_ok_of_toOption came) has asked
    refine ⟨call, ?_, read⟩
    rw [receiverSampleCode, came, Option.map_some, written]
  have negative : ¬ receiverSample.IsWholeNumber 3 := by
    rintro ⟨_, x, read, _, sign⟩
    cases read
    cases sign
  have sum : ¬ receiverSample.IsWholeNumber 8 := by
    rintro ⟨number, -⟩
    cases number.unique (show receiverSample.Has 8 .arithmetic from rfl)
  refine ⟨.start, by decide +kernel, by decide +kernel, by decide +kernel, by decide +kernel, ?_, ?_⟩
  · obtain ⟨call, written, read⟩ :=
      calls (show receiverSample.Has 0 .changeCase from rfl) rfl (by decide +kernel)
    refine ⟨call, written, fun reads => read.mp reads ⟨rfl, 1, rfl, ?_⟩⟩
    exact ⟨rfl, _, rfl, by decide, by decide⟩
  · refine List.forall_mem_cons.mpr ⟨?_, List.forall_mem_cons.mpr
      ⟨?_, List.forall_mem_singleton.mpr ?_⟩⟩
    · obtain ⟨call, written, read⟩ :=
        calls (show receiverSample.Has 2 .trim from rfl) rfl (by decide +kernel)
      refine ⟨call, written, read.mpr fun ⟨_, child, plugged, whole⟩ => ?_⟩
      cases plugged
      exact negative whole
    · obtain ⟨call, written, read⟩ :=
        calls (show receiverSample.Has 4 .setIndex from rfl) rfl (by decide +kernel)
      exact ⟨call, written, read.mpr fun ⟨once, _⟩ => absurd once (by decide)⟩
    · obtain ⟨call, written, read⟩ :=
        calls (show receiverSample.Has 7 .split from rfl) rfl (by decide +kernel)
      refine ⟨call, written, read.mpr fun ⟨_, child, plugged, whole⟩ => ?_⟩
      cases plugged
      exact sum whole

end Setting

end BlockScript
