import BlockScript.Proofs.Formula.Printing
import BlockScript.Proofs.WellFormed

/-! # What generated expressions evaluate to

Offsets are made of integers, of sums and differences, of conversions to integers and of the minus
sign, around expressions of any other form. `Runtime.evaluate` gives the value of an expression: its
form is told by the loosest operator outside all brackets (`Form.of?`), a chain of such operators
groups to the left, and what has no form of interest has the value that the runtime gives it. The
rest of the module says what the code that is put together for offsets evaluates to.
-/

namespace BlockScript

open Scanner

variable {α : Type}

/-- The form of an expression, as far as offsets are made of it. -/
inductive Form where
  | disjunction (left right : String)
  | sum (left right : String)
  | difference (left right : String)
  | negative (operand : String)
  /-- An expression in parentheses. -/
  | group (content : String)
  /-- The conversion to an integer. -/
  | conversion (operand : String)
  | numeral (n : Int)
  /-- The greatest length of a sequence. -/
  | limit
deriving DecidableEq

namespace Form

/-- The expressions that a form is made of. -/
def parts : Form → List String
  | .disjunction left right | .sum left right | .difference left right => [left, right]
  | .negative operand | .group operand | .conversion operand => [operand]
  | .numeral _ | .limit => []

/-- Whether a text is read to its end, with all brackets and literals closed. -/
def isClosed (text : String) : Bool := (operators text).isSome

/-- Operators with blanks around them, each with the form that it makes of its operands. -/
abbrev Marks := List (String × (String → String → Form))

/-- The form of a text that is cut at a place by one of some marks, if both parts are closed. -/
def cutAt (marks : Marks) (before after : List Char) : Option Form :=
  marks.findSome? fun entry =>
    let left := String.ofList before
    let right := String.ofList (after.drop entry.1.length)
    if entry.1.toList.isPrefixOf after && isClosed left && isClosed right then
      some (entry.2 left right)
    else none

/-- The form of a text that is cut at the last place where it can be. -/
def lastCut (marks : Marks) (before : List Char) : List Char → Option Form
  | [] => none
  | c :: rest => (lastCut marks (before ++ [c]) rest).or (cutAt marks before (c :: rest))

/-- The operators of disjunctions. -/
def disjunctions : Marks := [(" or ", .disjunction)]

/-- The operators of sums and differences. -/
def sums : Marks := [(" + ", .sum), (" - ", .difference)]

/-- What a text has between some opening and a closing parenthesis that belongs to it. -/
def enclosed? (opening text : String) : Option String :=
  let content := String.ofList (text.toList.drop opening.length).dropLast
  if text = opening ++ content ++ ")" && isClosed content then some content else none

/-- The form of a word. -/
def ofWord? (text : String) : Option Form :=
  if text = "sys.maxsize" then some .limit
  else if text = "" then none
  else
    match Numeric.read? text.toList with
    | some (.whole n) => some (.numeral n)
    | _ => none

/-- The form of a text without operators outside all brackets. -/
def ofAtom? (text : String) : Option Form :=
  ((enclosed? "(" text).map .group).or
    (((enclosed? "int(" text).map .conversion).or (ofWord? text))

/-- The form of a text with a sign as its loosest operator. -/
def ofSigned? (text : String) : Option Form :=
  match text.toList with
  | '-' :: rest => some (.negative (String.ofList rest))
  | _ => none

/-- The form of a text, by the loosest operator outside all brackets. -/
def of? (text : String) : Option Form :=
  match operators text with
  | none => none
  | some orders =>
      match (orders.map Order.rank).min? with
      | none => ofAtom? text
      | some rank =>
          if rank = Order.logicalOr.rank then lastCut disjunctions [] text.toList
          else if rank = Order.additive.rank then lastCut sums [] text.toList
          else if rank = Order.unarySign.rank then ofSigned? text
          else none

/-! ## Forms are made of less -/

/-- Marks that are not empty and have forms that are made of the operands. -/
def Marks.Proper (marks : Marks) : Prop :=
  ∀ entry ∈ marks, entry.1 ≠ "" ∧ ∀ left right, (entry.2 left right).parts = [left, right]

theorem proper_disjunctions : disjunctions.Proper := by
  simp [Marks.Proper, disjunctions, parts]

theorem proper_sums : sums.Proper := by
  simp [Marks.Proper, sums, parts]

variable {marks : Marks} {before after : List Char} {form : Form} {text part : String}

/-- The parts of a text that is cut at a mark are shorter than the text. -/
theorem length_lt_of_cutAt (proper : marks.Proper) (cut : cutAt marks before after = some form)
    (member : part ∈ form.parts) : part.length < before.length + after.length := by
  obtain ⟨entry, listed, found⟩ := List.exists_of_findSome?_eq_some cut
  obtain ⟨nonempty, parts⟩ := proper entry listed
  have positive : 0 < entry.1.toList.length := List.length_pos_iff.mpr (by simpa using nonempty)
  simp only [Option.ite_none_right_eq_some, Option.some.injEq, Bool.and_eq_true,
    List.isPrefixOf_iff_prefix] at found
  obtain ⟨⟨⟨initial, _⟩, _⟩, rfl⟩ := found
  have long := initial.length_le
  rw [String.length_toList] at long positive
  rw [parts] at member
  simp only [List.mem_cons, List.not_mem_nil, or_false] at member
  rcases member with rfl | rfl
  · rw [String.length_ofList]
    omega
  · rw [String.length_ofList, List.length_drop]
    omega

/-- The parts of a text that is cut at its last mark are shorter too. -/
theorem length_lt_of_lastCut (proper : marks.Proper)
    (cut : lastCut marks before after = some form) (member : part ∈ form.parts) :
    part.length < before.length + after.length := by
  induction after generalizing before with
  | nil => cases cut
  | cons c rest ih =>
      rw [lastCut, Option.or_eq_some_iff] at cut
      rcases cut with later | ⟨_, here⟩
      · have shorter := ih later
        simp only [List.length_append, List.length_cons, List.length_nil] at shorter ⊢
        omega
      · exact length_lt_of_cutAt proper here member

/-- What is enclosed stands between its opening and a parenthesis, and is closed in itself. -/
theorem enclosed?_eq_some {opening content : String} :
    enclosed? opening text = some content ↔
      text = opening ++ content ++ ")" ∧ isClosed content = true := by
  unfold enclosed?
  dsimp only
  constructor
  · intro found
    simp only [Option.ite_none_right_eq_some, Option.some.injEq, Bool.and_eq_true,
      decide_eq_true_eq] at found
    obtain ⟨matched, rfl⟩ := found
    exact matched
  · rintro ⟨rfl, closed⟩
    have same : String.ofList
        (((opening ++ content ++ ")").toList.drop opening.length).dropLast) = content := by
      simp [← String.length_toList]
    rw [same]
    simp [closed]

/-- The parts of an atom are shorter than the atom. -/
theorem length_lt_of_ofAtom? (found : ofAtom? text = some form) (member : part ∈ form.parts) :
    part.length < text.length := by
  have inside {opening content : String} (enclosed : enclosed? opening text = some content) :
      content.length < text.length := by
    rw [(enclosed?_eq_some.mp enclosed).1, String.length_append, String.length_append]
    have : ")".length = 1 := rfl
    omega
  simp only [ofAtom?, Option.or_eq_some_iff, Option.map_eq_some_iff] at found
  rcases found with ⟨content, enclosed, rfl⟩ | ⟨_, ⟨operand, enclosed, rfl⟩ | ⟨_, word⟩⟩
  · rw [List.mem_singleton.mp member]
    exact inside enclosed
  · rw [List.mem_singleton.mp member]
    exact inside enclosed
  · unfold ofWord? at word
    split at word
    · cases word
      cases member
    · split at word
      · cases word
      · split at word
        · cases word
          cases member
        · cases word

/-- The parts of a signed text are shorter than the text. -/
theorem length_lt_of_ofSigned? (found : ofSigned? text = some form) (member : part ∈ form.parts) :
    part.length < text.length := by
  unfold ofSigned? at found
  split at found
  · next rest same =>
    cases found
    rw [List.mem_singleton.mp member, String.length_ofList, ← String.length_toList, same]
    exact Nat.lt_succ_self _
  · cases found

/-- What a text is made of is shorter than the text. -/
theorem length_lt_of_of? (found : of? text = some form) (member : part ∈ form.parts) :
    part.length < text.length := by
  have cut {marks : Marks} (proper : marks.Proper)
      (found : lastCut marks [] text.toList = some form) : part.length < text.length := by
    have shorter := length_lt_of_lastCut proper found member
    rwa [List.length_nil, Nat.zero_add, String.length_toList] at shorter
  unfold of? at found
  split at found
  · cases found
  · split at found
    · exact length_lt_of_ofAtom? found member
    · split at found
      · exact cut proper_disjunctions found
      · split at found
        · exact cut proper_sums found
        · split at found
          · exact length_lt_of_ofSigned? found member
          · cases found

/-! ## The forms of code that is put together -/

/-- Text that passes has the operators that it passes with. -/
theorem operators_of_passes {orders : List Order} (passes : Passes True text orders) :
    operators text = some orders := by
  obtain ⟨mode, settled, read⟩ := passes false [] [] fun _ => trivial
  simp only [List.nil_append, List.isEmpty_nil, ↓reduceIte] at read
  simp only [operators, start, read, Option.bind_some]
  cases settled with
  | between blank => rfl
  | word quiet => simp [finish, quiet]

/-- Text that passes is closed. -/
theorem isClosed_of_passes {orders : List Order} (passes : Passes True text orders) :
    isClosed text = true := by
  rw [isClosed, operators_of_passes passes]
  rfl

/-- A cut that is found later in a text is its last one. -/
theorem lastCut_append {first : List Char}
    (found : lastCut marks (before ++ first) after = some form) :
    lastCut marks before (first ++ after) = some form := by
  induction first generalizing before with
  | nil => simpa using found
  | cons c rest ih =>
      rw [List.cons_append, lastCut, ih (by simpa using found)]
      rfl

/-- A text with no more than one blank is not cut by marks with blanks around an operator. -/
theorem lastCut_eq_none (blanks : ∀ entry ∈ marks, 2 ≤ entry.1.toList.count ' ')
    (few : after.count ' ' ≤ 1) : lastCut marks before after = none := by
  induction after generalizing before with
  | nil => rfl
  | cons c rest ih =>
      have here : cutAt marks before (c :: rest) = none := by
        rw [cutAt, List.findSome?_eq_none_iff]
        intro entry listed
        have apart : ¬ entry.1.toList <+: c :: rest := by
          intro initial
          have fewer := initial.sublist.count_le ' '
          have := blanks entry listed
          omega
        simp [apart]
      rw [lastCut, here, ih (le_trans (List.count_le_count_cons ..) few)]
      rfl

/-- A text is cut at the mark that stands there, between closed parts. -/
theorem cutAt_cons_self {left mark right : String} {build : String → String → Form}
    (first : isClosed left = true) (second : isClosed right = true) (others : Marks) :
    cutAt ((mark, build) :: others) left.toList (mark ++ right).toList =
      some (build left right) := by
  have rest : String.ofList ((mark ++ right).toList.drop mark.length) = right := by
    simp [← String.length_toList]
  rw [cutAt, List.findSome?_cons]
  simp only [String.ofList_toList, rest, first, second]
  simp

/-- A mark that does not stand there makes no cut. -/
theorem cutAt_cons_of_not_prefix {mark : String} {build : String → String → Form}
    (apart : ¬ mark.toList <+: after) (others : Marks) :
    cutAt ((mark, build) :: others) before after = cutAt others before after := by
  have skipped : mark.toList.isPrefixOf after = false := by
    rwa [← Bool.not_eq_true, List.isPrefixOf_iff_prefix]
  rw [cutAt, List.findSome?_cons]
  simp only [skipped, Bool.false_and, Bool.false_eq_true, ↓reduceIte]
  rfl

/-- A text is cut at a mark that has one blank after its first character, if no blank comes
later. -/
theorem lastCut_mark {left mark right : String}
    (blanks : ∀ entry ∈ marks, 2 ≤ entry.1.toList.count ' ') (nonempty : mark.toList ≠ [])
    (few : mark.toList.tail.count ' ' ≤ 1) (last : ' ' ∉ right.toList)
    (cut : cutAt marks left.toList (mark ++ right).toList = some form) :
    lastCut marks [] (left ++ mark ++ right).toList = some form := by
  obtain ⟨c, rest, same⟩ := List.exists_cons_of_ne_nil nonempty
  rw [String.append_assoc, String.toList_append]
  apply lastCut_append
  rw [List.nil_append]
  rw [String.toList_append, same, List.cons_append] at cut ⊢
  rw [same, List.tail_cons] at few
  rw [lastCut, cut, lastCut_eq_none blanks]
  · rfl
  · rwa [List.count_append, List.count_eq_zero_of_not_mem last]

/-- The form of a text hangs on the loosest of its operators. -/
theorem of?_eq {orders : List Order} {order : Order} (read : operators text = some orders)
    (member : order ∈ orders) (least : ∀ other ∈ orders, order.rank ≤ other.rank) :
    of? text =
      if order.rank = Order.logicalOr.rank then lastCut disjunctions [] text.toList
      else if order.rank = Order.additive.rank then lastCut sums [] text.toList
      else if order.rank = Order.unarySign.rank then ofSigned? text
      else none := by
  have loosest : (orders.map Order.rank).min? = some order.rank := by
    rw [List.min?_eq_some_iff]
    refine ⟨List.mem_map_of_mem member, fun rank listed => ?_⟩
    obtain ⟨other, present, rfl⟩ := List.mem_map.mp listed
    exact least other present
  rw [of?, read]
  dsimp only
  rw [loosest]

/-- A text without operators is an atom. -/
theorem of?_eq_ofAtom? (read : operators text = some []) : of? text = ofAtom? text := by
  rw [of?, read]
  rfl

/-- There are no blanks in a numeral. -/
theorem not_mem_blank_toString (n : Nat) : ' ' ∉ (toString n).toList := by
  intro member
  rw [Numeral.toList_toString] at member
  exact absurd ((Numeral.isDigits_toDigits n).2 _ member) (by decide)

/-- A numeral passes without operators. -/
theorem passes_toString (n : Nat) : Passes True (toString n) [] :=
  passes_numeral (Numeral.isUnsigned_toString n)

variable {left : String} {orders : List Order}

/-- An operator that is no tighter than those of its first operand is the loosest one. -/
theorem forall_rank_le {order : Order} (tight : ∀ other ∈ orders, order.rank ≤ other.rank) :
    ∀ other ∈ orders ++ ([order] ++ []), order.rank ≤ other.rank := by
  intro other member
  rcases List.mem_append.mp member with inside | added
  · exact tight other inside
  · rw [List.mem_singleton.mp added]

/-- A sum or a difference of an expression that binds tightly enough and a natural number. -/
theorem of?_additive {mark : String} {build : String → String → Form}
    (listed : (mark, build) ∈ sums) (passes : Passes True left orders)
    (tight : ∀ order ∈ orders, Order.additive.rank ≤ order.rank) (n : Nat) :
    of? (left ++ mark ++ toString n) = some (build left (toString n)) := by
  have closed := isClosed_of_passes passes
  have numeral := isClosed_of_passes (passes_toString n)
  have read (operator : Closes True mark [Order.additive]) (starts : Text.Starts isNeutral mark) :=
    operators_of_passes (passes.separated operator starts (passes_toString n))
  have least := forall_rank_le tight
  simp only [sums, List.mem_cons, Prod.mk.injEq, List.not_mem_nil, or_false] at listed
  rcases listed with ⟨rfl, rfl⟩ | ⟨rfl, rfl⟩
  · have operator : Closes True " + " [Order.additive] :=
      closes_operator (show ("+", Order.additive) ∈ binaryOperators by decide)
    rw [of?_eq (read operator (by decide)) (by simp) least, if_neg (by decide), if_pos rfl]
    refine lastCut_mark (by decide) (by decide) (by decide) (not_mem_blank_toString n) ?_
    exact cutAt_cons_self closed numeral _
  · have operator : Closes True " - " [Order.additive] :=
      closes_operator (show ("-", Order.additive) ∈ binaryOperators by decide)
    rw [of?_eq (read operator (by decide)) (by simp) least, if_neg (by decide), if_pos rfl]
    refine lastCut_mark (by decide) (by decide) (by decide) (not_mem_blank_toString n) ?_
    rw [sums, cutAt_cons_of_not_prefix (by simp)]
    exact cutAt_cons_self closed numeral _

/-- A disjunction of an expression that binds tightly enough and the greatest length. -/
theorem of?_disjunction (passes : Passes True left orders)
    (tight : ∀ order ∈ orders, Order.logicalOr.rank ≤ order.rank) :
    of? (left ++ " or " ++ "sys.maxsize") = some (.disjunction left "sys.maxsize") := by
  have limit : Passes True "sys.maxsize" [] := by
    have word : Passes True "sys" [] := passes_word (by decide)
    have member : Passes True ("." ++ "maxsize") [] := closes_dot.append (passes_word (by decide))
    exact word.append member (by decide)
  have operator : Closes True " or " [Order.logicalOr] :=
    closes_operator (show ("or", Order.logicalOr) ∈ binaryOperators by decide)
  have read := operators_of_passes (passes.separated operator (by decide) limit)
  rw [of?_eq read (by simp) (forall_rank_le tight), if_pos rfl]
  refine lastCut_mark (by decide) (by decide) (by decide) (by decide) ?_
  exact cutAt_cons_self (isClosed_of_passes passes) (isClosed_of_passes limit) _

/-- A minus sign before an expression without operators outside all brackets. -/
theorem of?_negative (passes : Passes True text []) (starts : Text.Starts isOperand text) :
    of? ("-" ++ text) = some (.negative text) := by
  have read : operators ("-" ++ text) = some [Order.unarySign] :=
    operators_of_passes (passes.negative starts)
  rw [of?_eq read (List.mem_singleton_self _) (by simp), if_neg (by decide), if_neg (by decide),
    if_pos rfl]
  simp [ofSigned?]

/-- A text in parentheses is a group. -/
theorem of?_group (passes : Passes True text orders) :
    of? ("(" ++ text ++ ")") = some (.group text) := by
  rw [of?_eq_ofAtom? (operators_of_passes passes.inside.inParentheses), ofAtom?,
    enclosed?_eq_some.mpr ⟨rfl, isClosed_of_passes passes⟩]
  rfl

/-- A conversion passes without operators. -/
theorem passes_conversion (passes : Passes True text orders) :
    Passes True ("int(" ++ text ++ ")") [] := by
  have word : Passes True "int" [] := passes_word (by decide)
  exact word.withArguments passes.inside

/-- A conversion is read as one. -/
theorem of?_conversion (passes : Passes True text orders) :
    of? ("int(" ++ text ++ ")") = some (.conversion text) := by
  have ungrouped : enclosed? "(" ("int(" ++ text ++ ")") = none := by
    rw [Option.eq_none_iff_forall_not_mem]
    intro content found
    have same := congrArg String.toList (enclosed?_eq_some.mp found).1
    simp at same
  rw [of?_eq_ofAtom? (operators_of_passes (passes_conversion passes)), ofAtom?, ungrouped,
    enclosed?_eq_some.mpr ⟨rfl, isClosed_of_passes passes⟩]
  rfl

/-- A numeral is read as its number. -/
theorem of?_numeral (n : Nat) : of? (toString n) = some (.numeral n) := by
  have open? {opening : String} (apart : opening.toList.head?.any Char.isDigit = false)
      (nonempty : opening.toList ≠ []) : enclosed? opening (toString n) = none := by
    rw [Option.eq_none_iff_forall_not_mem]
    intro content found
    have same := congrArg String.toList (enclosed?_eq_some.mp found).1
    obtain ⟨c, rest, first⟩ := List.exists_cons_of_ne_nil nonempty
    rw [Numeral.toList_toString, String.toList_append, String.toList_append, first] at same
    have digit := (Numeral.isDigits_toDigits n).2 c (by rw [same]; simp)
    simp [first, digit] at apart
  have solid : toString n ≠ "" := by
    intro empty
    have none := congrArg String.toList empty
    rw [Numeral.toList_toString] at none
    exact (Numeral.isDigits_toDigits n).1 none
  have apart : toString n ≠ "sys.maxsize" := by
    intro same
    have chars := congrArg String.toList same
    rw [Numeral.toList_toString] at chars
    have digit := (Numeral.isDigits_toDigits n).2 's' (by rw [chars]; decide)
    exact absurd digit (by decide)
  rw [of?_eq_ofAtom? (operators_of_passes (passes_toString n)), ofAtom?,
    open? (by decide) (by decide), open? (by decide) (by decide), ofWord?, if_neg apart,
    if_neg solid, Numeral.toList_toString, Formula.read?_toDigits]
  rfl

/-- The greatest length is read as one. -/
theorem of?_limit : of? "sys.maxsize" = some .limit := by decide +kernel

end Form

/-- The values that generated code computes with: what expressions that are not looked into come to,
if to anything, and the operations on values, which are as usual on integers. -/
structure Runtime (α : Type) where
  value : String → Option α
  whole : Int → α
  sum : α → α → Option α
  difference : α → α → Option α
  negative : α → Option α
  /-- The conversion to an integer. -/
  conversion : α → Option α
  isTrue : α → Option Bool
  /-- The greatest length of a sequence. -/
  limit : Nat
  sum_whole : ∀ m n, sum (whole m) (whole n) = some (whole (m + n))
  difference_whole : ∀ m n, difference (whole m) (whole n) = some (whole (m - n))
  negative_whole : ∀ n, negative (whole n) = some (whole (-n))
  conversion_whole : ∀ n, conversion (whole n) = some (whole n)
  isTrue_whole : ∀ n, isTrue (whole n) = some (decide (n ≠ 0))

namespace Runtime

/-- The integers as values, with given integers for the expressions that are not looked into. -/
def integers (value : String → Option Int) (limit : Nat) : Runtime Int where
  value := value
  whole := id
  sum m n := some (m + n)
  difference m n := some (m - n)
  negative n := some (-n)
  conversion := some
  isTrue n := some (decide (n ≠ 0))
  limit := limit
  sum_whole _ _ := rfl
  difference_whole _ _ := rfl
  negative_whole _ := rfl
  conversion_whole _ := rfl
  isTrue_whole _ := rfl

/-- What an expression evaluates to, after some import statements. A disjunction is its first
operand, if that is true, and otherwise its second one. -/
def evaluate (runtime : Runtime α) (imports : List String) (text : String) : Option α :=
  match _form : Form.of? text with
  | none => runtime.value text
  | some (.disjunction left right) => do
      let first ← runtime.evaluate imports left
      if ← runtime.isTrue first then return first else runtime.evaluate imports right
  | some (.sum left right) => do
      runtime.sum (← runtime.evaluate imports left) (← runtime.evaluate imports right)
  | some (.difference left right) => do
      runtime.difference (← runtime.evaluate imports left) (← runtime.evaluate imports right)
  | some (.negative operand) => do runtime.negative (← runtime.evaluate imports operand)
  | some (.group content) => runtime.evaluate imports content
  | some (.conversion operand) => do runtime.conversion (← runtime.evaluate imports operand)
  | some (.numeral n) => some (runtime.whole n)
  | some .limit => if "import sys" ∈ imports then some (runtime.whole runtime.limit) else none
termination_by text.length
decreasing_by
  all_goals exact Form.length_lt_of_of? _form (by simp [Form.parts])

variable (runtime : Runtime α) (imports : List String) {text left : String} {orders : List Order}
  {m : Int}

/-- A natural number evaluates to itself. -/
theorem evaluate_natural (n : Nat) :
    runtime.evaluate imports (toString n) = some (runtime.whole n) := by
  rw [evaluate, Form.of?_numeral]

/-- Parentheses do not change what a text evaluates to. -/
theorem evaluate_group (passes : Passes True text orders) :
    runtime.evaluate imports ("(" ++ text ++ ")") = runtime.evaluate imports text := by
  rw [evaluate, Form.of?_group passes]

/-- A sum with a numeral evaluates its first operand, and adds the number. -/
theorem evaluate_sum (passes : Passes True left orders)
    (tight : ∀ order ∈ orders, Order.additive.rank ≤ order.rank) (n : Nat) :
    runtime.evaluate imports (left ++ " + " ++ toString n) =
      (runtime.evaluate imports left).bind fun value => runtime.sum value (runtime.whole n) := by
  have listed : (" + ", Form.sum) ∈ Form.sums := by simp [Form.sums]
  rw [evaluate, Form.of?_additive listed passes tight]
  simp only [runtime.evaluate_natural, Option.bind_eq_bind, Option.bind_some]

/-- A difference with a numeral evaluates its first operand, and takes the number off. -/
theorem evaluate_difference (passes : Passes True left orders)
    (tight : ∀ order ∈ orders, Order.additive.rank ≤ order.rank) (n : Nat) :
    runtime.evaluate imports (left ++ " - " ++ toString n) =
      (runtime.evaluate imports left).bind fun value =>
        runtime.difference value (runtime.whole n) := by
  have listed : (" - ", Form.difference) ∈ Form.sums := by simp [Form.sums]
  rw [evaluate, Form.of?_additive listed passes tight]
  simp only [runtime.evaluate_natural, Option.bind_eq_bind, Option.bind_some]

/-- A conversion evaluates what it converts first. -/
theorem evaluate_conversion (passes : Passes True text orders) :
    runtime.evaluate imports ("int(" ++ text ++ ")") =
      (runtime.evaluate imports text).bind runtime.conversion := by
  rw [evaluate, Form.of?_conversion passes]
  rfl

/-- A negated operand is evaluated first. -/
theorem evaluate_negative (passes : Passes True text []) (starts : Text.Starts isOperand text) :
    runtime.evaluate imports ("-" ++ text) =
      (runtime.evaluate imports text).bind runtime.negative := by
  rw [evaluate, Form.of?_negative passes starts]
  rfl

/-- An integer or, when it is zero, the greatest length. -/
theorem evaluate_disjunction (imported : "import sys" ∈ imports) (passes : Passes True left orders)
    (tight : ∀ order ∈ orders, Order.logicalOr.rank ≤ order.rank)
    (value : runtime.evaluate imports left = some (runtime.whole m)) :
    runtime.evaluate imports (left ++ " or " ++ "sys.maxsize") =
      some (runtime.whole (if m = 0 then runtime.limit else m)) := by
  have limit : runtime.evaluate imports "sys.maxsize" = some (runtime.whole runtime.limit) := by
    rw [evaluate, Form.of?_limit]
    simp [imported]
  rw [evaluate, Form.of?_disjunction passes tight]
  by_cases zero : m = 0
  · simp [value, runtime.isTrue_whole, zero, limit]
  · simp [value, runtime.isTrue_whole, zero]

/-- Parentheses that a place requires change nothing. -/
theorem evaluate_wrap (passes : Passes True text orders) (order required : Order) :
    runtime.evaluate imports (Order.wrap text order required) = runtime.evaluate imports text := by
  unfold Order.wrap
  split
  · exact runtime.evaluate_group imports passes
  · rfl

/-- **The text of an integer evaluates to it.** -/
theorem evaluate_toString (n : Int) :
    runtime.evaluate imports (toString n) = some (runtime.whole n) := by
  obtain ⟨m, rfl | rfl⟩ := n.eq_nat_or_neg
  · exact runtime.evaluate_natural imports m
  · by_cases zero : m = 0
    · subst zero
      exact runtime.evaluate_natural imports 0
    · have starts : Text.Starts isOperand (toString m) := by
        obtain ⟨c, rest, same⟩ := List.exists_cons_of_ne_nil (Numeral.isDigits_toDigits m).1
        have digit := (Numeral.isDigits_toDigits m).2 c (by simp [same])
        simpa [Text.Starts, Numeral.toList_toString, same] using
          Code.isOperand_of_isPlain (Names.isPlain_of_isDigit digit)
      rw [Numeral.toString_neg zero, runtime.evaluate_negative imports (Form.passes_toString m)
        starts, runtime.evaluate_natural, Option.bind_some, runtime.negative_whole]

end Runtime

end BlockScript
