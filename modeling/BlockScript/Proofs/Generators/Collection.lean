import BlockScript.Proofs.Generators.Expression

/-! # Lists and texts belong to the language -/

namespace BlockScript

namespace Gen

variable {n : Nat} {isName isInsert : String → Prop} {setting : Setting n} {block : Block n}

/-! ## Lists -/

/-- An empty list is a pair of brackets. -/
theorem makes_emptyList : MakesCode isName isInsert (emptyList setting block) :=
  makes_expression (.display .noItem)

/-- The code of every numbered socket fits where anything does. -/
theorem ensures_numbered {stem default : String} {count : Int}
    (absent : Fits isName .none default) :
    (numbered setting block stem default count).Ensures (codeContract n isName isInsert)
      (fun texts => ∀ text ∈ texts, Fits isName .none text) :=
  .each fun _ _ => ensures_value (by decide) absent

theorem fits_none {order : Order} (possible : order.rank ≤ Order.atomic.rank) :
    Fits isName order "None" := fits_constant (by decide) possible

/-- A list of items is set in brackets. -/
theorem makes_listOf : MakesCode isName isInsert (listOf setting block) := by
  unfold listOf
  refine .bind (.lift fun _ _ => trivial) fun count _ => ?_
  refine .bind (ensures_numbered (fits_none (by decide))) fun items fits => ?_
  exact makes_expression (.display (Code.intercalate fits))

/-- A repeated item is a list of one, multiplied. -/
theorem makes_repeatedItem : MakesCode isName isInsert (repeatedItem setting block) := by
  unfold repeatedItem
  refine .bind (ensures_value (by decide) (fits_none (by decide))) fun item fits => ?_
  refine .bind (ensures_value (by decide) (fits_natural 0 (by decide))) fun times timesFit => ?_
  have list : Fits isName .multiplicative ("[" ++ item ++ "]") :=
    ⟨.atomic, by decide, .display fits.item⟩
  have repeated := list.operation "*" (by decide) (timesFit.mono (by decide))
  have same : "[" ++ item ++ "] * " ++ times = "[" ++ item ++ "]" ++ (" " ++ "*" ++ " ") ++ times :=
    by simp [← String.toList_inj]
  exact makes_expression (same ▸ repeated)

/-- A length is a call of a function. -/
theorem makes_lengthOf {default : String} (absent : Fits isName .none default) :
    MakesCode isName isInsert (lengthOf default setting block) := by
  unfold lengthOf
  refine .bind (ensures_value (by decide) absent) fun items fits => ?_
  exact makes_expression (fits.call "len" (by decide))

/-- That there is nothing is the negation of a length. -/
theorem makes_isEmpty {default : String} (absent : Fits isName .none default) :
    MakesCode isName isInsert (isEmpty default setting block) := by
  unfold isEmpty
  refine .bind (ensures_value (by decide) absent) fun items fits => ?_
  have length : Fits isName .logicalNot ("len" ++ "(" ++ items ++ ")") :=
    (fits.call "len" (by decide)).fits (by decide)
  have same : "not len(" ++ items ++ ")" = "not " ++ ("len" ++ "(" ++ items ++ ")") := by
    simp [← String.toList_inj]
  exact makes_expression (same ▸ length.negation)

/-- The place of an item is a call of a helper. -/
theorem makes_listIndexOf : MakesCode isName isInsert (listIndexOf setting block) := by
  unfold listIndexOf
  refine .bind (ensures_value (by decide) (fits_none (by decide))) fun item itemFits => ?_
  refine .bind (ensures_value (by decide) (fits_emptyList (by decide))) fun items fits => ?_
  have call (name : String) (named : isName name) : MakesCode isName isInsert
      (expression (name ++ "(" ++ items ++ ", " ++ item ++ ")") .functionCall : Gen n Outcome) := by
    have made := Code.call (.inl named) (fits.items itemFits)
    simpa only [String.append_assoc] using makes_expression made
  exact .ite (.bind (ensures_helper ..) call)
    (.ite (.bind (ensures_helper ..) call) (.unhandled ..))

/-- To take an item out is a call of a method. -/
theorem code_pop {items place : String} (fits : Fits isName .member items)
    (inside : Code isName .items place) :
    Code isName (.value .functionCall) (items ++ ".pop(" ++ place ++ ")") :=
  fits.method "pop" (by decide) inside

/-- An item at a position is a selection or a call, or a statement. -/
theorem makes_itemAt {mode whereTo : Value} {items : String} {position : Position}
    (fits : Fits isName .member items) :
    MakesCode isName isInsert (itemAt setting block mode whereTo items position) := by
  unfold itemAt
  refine .bind (ensures_offset position) fun place placeFits => ?_
  have pop : Code isName (.value .functionCall)
      (if position = .last then items ++ ".pop()" else items ++ ".pop(" ++ place ++ ")") := by
    split
    · have bare := code_pop fits .noItem
      rwa [String.append_empty, String.append_assoc] at bare
    · exact code_pop fits placeFits.item
  obtain ⟨_, _, code⟩ := placeFits
  refine .ite ?_ (.ite ?_ (.ite ?_ (.unhandled ..)))
  · exact makes_expression (fits.element (.position code))
  · exact makes_expression pop
  · exact makes_line (.line (.expression pop))

/-- A random item is a call, or a statement. -/
theorem makes_itemAtRandom {mode whereTo : Value} {items : String}
    (fits : Fits isName .none items) :
    MakesCode isName isInsert (itemAtRandom block mode whereTo items) := by
  unfold itemAtRandom importRandom
  refine .bind (ensures_require ..) fun _ _ => ?_
  refine .ite (makes_expression (fits.call "random.choice" (by decide))) ?_
  refine .bind (ensures_helper ..) fun name named => ?_
  have call := Code.call (.inl named) fits.item
  refine .ite (makes_expression call) (.ite ?_ (.unhandled ..))
  exact makes_line (.line (.expression call))

/-- A position is not a random one. -/
theorem not_random_of_position? {option : Value} {position : Position}
    (found : position? option = some position) : option.isText "RANDOM" = false := by
  cases option with
  | text chars =>
      simp only [Value.isText, beq_eq_false_iff_ne, ne_eq]
      rintro rfl
      cases found
  | _ => rfl

/-- To get an item is to select it, by whatever mode and place. -/
theorem makes_getIndex : MakesCode isName isInsert (getIndex setting block) := by
  unfold getIndex
  dsimp only
  generalize block.fieldOr "WHERE" "FROM_START" = whereTo
  have possible :
      (if whereTo.isText "RANDOM" then Order.none else Order.member).rank ≤ Order.atomic.rank := by
    split <;> decide
  refine .bind (ensures_value possible (fits_emptyList possible)) fun items fits => ?_
  cases found : position? whereTo with
  | none =>
      refine .ite (makes_itemAtRandom (fits.mono ?_)) (.unhandled ..)
      split <;> decide
  | some position =>
      -- The list was asked for as the owner of a subscript.
      rw [not_random_of_position? found] at fits
      exact makes_itemAt fits

/-- A list that is used twice comes as statements that prepare it and an expression that owns. -/
theorem ensures_listTwice :
    (listTwice setting block).Ensures (codeContract n isName isInsert)
      (fun result => Suite isName isInsert .outer result.1 ∧ Fits isName .member result.2) := by
  unfold listTwice
  refine .bind (ensures_child _) fun found codes => ?_
  cases found with
  | none => exact ⟨.empty _, fits_emptyList (by decide)⟩
  | some list =>
      have code := codes list rfl
      by_cases bare : Order.isBareName list.code list.order
      · simp only [bare, ↓reduceIte]
        simp only [Order.isBareName, Bool.and_eq_true, beq_iff_eq] at bare
        refine ⟨.empty _, list.order, ?_, code⟩
        rw [bare.1]
        decide
      · simp only [bare, Bool.false_eq_true, ↓reduceIte]
        refine .bind (ensures_temporary _) fun name named => ?_
        exact ⟨.line (.assignment (.name named) code), .atomic, by decide, .name named⟩

/-- An item of a list is replaced. -/
theorem suite_replace {items place item : String} {order : Order}
    (fits : Fits isName .member items) (placeFits : Fits isName order place)
    (itemFits : Fits isName .none item) :
    Suite isName isInsert .outer (items ++ "[" ++ place ++ "] = " ++ item ++ "\n") := by
  obtain ⟨_, _, placeCode⟩ := placeFits
  obtain ⟨_, _, itemCode⟩ := itemFits
  have same : items ++ "[" ++ place ++ "] = " ++ item ++ "\n" =
      items ++ "[" ++ place ++ "]" ++ " = " ++ item ++ "\n" := by
    simp [← String.toList_inj]
  rw [same]
  exact .line (.assignment (fits.element (.position placeCode)) itemCode)

/-- An item is inserted into a list. -/
theorem suite_insert {items place item : String} {order : Order} (fits : Fits isName .member items)
    (placeFits : Fits isName order place) (itemFits : Fits isName .none item) :
    Suite isName isInsert .outer (items ++ ".insert(" ++ place ++ ", " ++ item ++ ")\n") := by
  have same : items ++ ".insert(" ++ place ++ ", " ++ item ++ ")\n" =
      items ++ ("." ++ "insert" ++ "(") ++ (place ++ ", " ++ item) ++ ")" ++ "\n" := by
    simp [← String.toList_inj]
  rw [same]
  exact .line (.expression (fits.method "insert" (by decide) (placeFits.items itemFits)))

/-- A position is picked at random from those of a list. -/
theorem suite_pick {x items : String} (named : isName x) (fits : Fits isName .member items) :
    Suite isName isInsert .outer (x ++ " = int(random.random() * len(" ++ items ++ "))\n") := by
  have random : Fits isName .multiplicative ("random.random" ++ "(" ++ "" ++ ")") :=
    ⟨.functionCall, by decide, .call (.inr (by decide)) .noItem⟩
  have length : Fits isName .multiplicative ("len" ++ "(" ++ items ++ ")") :=
    (fits.call "len" (by decide)).fits (by decide)
  have scaled := random.operation "*" (by decide) length
  have whole := (scaled.fits (Int.le_refl _)).call "int" (by decide)
  have same : x ++ " = int(random.random() * len(" ++ items ++ "))\n" =
      x ++ " = " ++ ("int" ++ "(" ++ ("random.random" ++ "(" ++ "" ++ ")" ++ (" " ++ "*" ++ " ") ++
        ("len" ++ "(" ++ items ++ ")")) ++ ")") ++ "\n" := by
    simp [← String.toList_inj]
  rw [same]
  exact .line (.assignment (.name named) whole)

/-- To set or insert a random item takes a line for its place before. -/
theorem makes_setAtRandom {isSet : Bool} {item : String} (itemFits : Fits isName .none item) :
    MakesCode isName isInsert (setAtRandom setting block isSet item) := by
  unfold setAtRandom importRandom
  refine .bind (ensures_require ..) fun _ _ => ?_
  refine .bind ensures_listTwice fun (before, items) ⟨suite, fits⟩ => ?_
  refine .bind (ensures_temporary _) fun x named => ?_
  have picked : Suite isName isInsert .outer
      (before ++ x ++ " = int(random.random() * len(" ++ items ++ "))\n") := by
    have both := suite.append (suite_pick named fits)
    simpa only [String.append_assoc] using both
  have place : Fits isName .none x := ⟨.atomic, by decide, .name named⟩
  refine .ite (makes_line ?_) (makes_line ?_)
  · simpa only [String.append_assoc] using picked.append (suite_replace fits place itemFits)
  · simpa only [String.append_assoc] using picked.append (suite_insert fits place itemFits)

/-- To set or insert an item is a statement. -/
theorem makes_setAt {isSet : Bool} {items item : String} {position : Position}
    (fits : Fits isName .member items) (itemFits : Fits isName .none item) :
    MakesCode isName isInsert (setAt setting block isSet items item position) := by
  unfold setAt
  refine .bind (ensures_offset position) fun place placeFits => ?_
  refine .ite (makes_line ?_) (.ite (makes_line ?_) (makes_line ?_))
  · exact suite_replace fits placeFits itemFits
  · have same : items ++ ".append(" ++ item ++ ")\n" =
        items ++ ("." ++ "append" ++ "(") ++ item ++ ")" ++ "\n" := by
      simp [← String.toList_inj]
    rw [same]
    exact .line (.expression (fits.method "append" (by decide) itemFits.item))
  · exact suite_insert fits placeFits itemFits

/-- To set an item is a statement, by whatever mode and place. -/
theorem makes_setIndex : MakesCode isName isInsert (setIndex setting block) := by
  unfold setIndex
  refine .bind (ensures_value (by decide) (fits_none (by decide))) fun item itemFits => ?_
  refine .ite (.unhandled ..) (.ite (makes_setAtRandom itemFits) ?_)
  refine .bind (ensures_value (by decide) (fits_emptyList (by decide))) fun items fits => ?_
  cases position? (block.fieldOr "WHERE" "FROM_START") with
  | none => exact .unhandled ..
  | some position => exact makes_setAt fits itemFits

/-- A part of a sequence is a selection with a slice. -/
theorem makes_part {socket default : String} (absent : Fits isName .member default) :
    MakesCode isName isInsert (part socket default setting block) := by
  unfold part
  refine .bind (ensures_value (by decide) absent) fun items fits => ?_
  refine .bind ensures_slice fun bounds inside => ?_
  have taken := fits.element inside
  unfold Bounds.code
  simpa only [String.append_assoc] using makes_expression taken

/-- The keys of sorting are among the fixed texts. -/
theorem sortKey_sound {name key : String} (listed : (name, key) ∈ sortKeys) : key ∈ labelTexts := by
  simp only [sortKeys, List.mem_cons, Prod.mk.injEq, List.not_mem_nil, or_false] at listed
  rcases listed with ⟨_, rfl⟩ | ⟨_, rfl⟩ | ⟨_, rfl⟩ | ⟨_, rfl⟩ <;> decide

/-- A sorted list is a call of a helper with a key. -/
theorem makes_sorted : MakesCode isName isInsert (sorted setting block) := by
  unfold sorted
  refine .bind (ensures_value (by decide) (fits_emptyList (by decide))) fun items fits => ?_
  refine .bind (ensures_choice ..) fun found listed => ?_
  cases found with
  | none => exact .unhandled ..
  | some key =>
      obtain ⟨option, member⟩ := listed key rfl
      refine .bind (.lift fun _ _ => trivial) fun written _ => ?_
      refine .bind (ensures_helper ..) fun name named => ?_
      dsimp only
      generalize flag : (if written = "1" then "False" else "True") = direction
      have known : direction ∈ constantWords := by
        rw [← flag]
        split <;> decide
      obtain ⟨_, _, code⟩ := fits
      have label : Code isName (.value .atomic) ("\"" ++ key ++ "\"") :=
        .label (sortKey_sound member)
      have call := Code.call (.inl named) (.item code (.item label (.lastItem (.constant known))))
      have same : name ++ "(" ++ items ++ ", \"" ++ key ++ "\", " ++ direction ++ ")" =
          name ++ "(" ++ (items ++ ", " ++ ("\"" ++ key ++ "\"" ++ ", " ++ direction)) ++ ")" := by
        simp [← String.toList_inj]
      rw [same]
      exact makes_expression call

/-- A split text and a joined list are calls of methods. -/
theorem makes_split : MakesCode isName isInsert (split setting block) := by
  unfold split
  refine .ite ?_ (.ite ?_ (.reject _))
  · refine .bind (ensures_value (by decide) (fits_emptyText (by decide))) fun text fits => ?_
    refine .bind (ensures_value_if (by decide)) fun delimiter either => ?_
    have arguments : Code isName .items delimiter := by
      rcases either with rfl | delimiterFits
      · exact .noItem
      · exact delimiterFits.item
    exact makes_expression (fits.method "split" (by decide) arguments)
  · refine .bind (ensures_value (by decide) (fits_emptyList (by decide))) fun items fits => ?_
    refine .bind (ensures_value (by decide) (fits_emptyText (by decide)))
      fun delimiter delimiterFits => ?_
    exact makes_expression (delimiterFits.method "join" (by decide) fits.item)

/-- A reversed list is a call of functions. -/
theorem makes_reversed : MakesCode isName isInsert (reversed setting block) := by
  unfold reversed
  refine .bind (ensures_value (by decide) (fits_emptyList (by decide))) fun items fits => ?_
  have turned : Fits isName .none ("reversed" ++ "(" ++ items ++ ")") :=
    (fits.call "reversed" (by decide)).fits (by decide)
  have same : "list(reversed(" ++ items ++ "))" =
      "list" ++ "(" ++ ("reversed" ++ "(" ++ items ++ ")") ++ ")" := by
    simp [← String.toList_inj]
  rw [same]
  exact makes_expression (turned.call "list" (by decide))

/-! ## Texts -/

/-- A value that can be written is a literal of the language. -/
theorem ensures_quote (value : Value) :
    (lift (quote value)).Ensures (codeContract n isName isInsert)
      (Code isName (.value .atomic)) := by
  refine .lift fun literal made => ?_
  obtain ⟨text, _, rfl⟩ := quote_eq_ok.mp made
  exact .quoted text

/-- A conversion to a text is a call of a function. -/
theorem code_str {item : String} (fits : Fits isName .none item) :
    Code isName (.value .functionCall) ("str(" ++ item ++ ")") := fits.call "str" (by decide)

/-- Two values as texts, one after the other. -/
theorem code_concatenation {first second : String} (left : Fits isName .none first)
    (right : Fits isName .none second) :
    Code isName (.value .additive) ("str(" ++ first ++ ") + str(" ++ second ++ ")") := by
  have augend : Fits isName .additive ("str(" ++ first ++ ")") := (code_str left).fits (by decide)
  have addend : Fits isName .additive ("str(" ++ second ++ ")") := (code_str right).fits (by decide)
  have same : "str(" ++ first ++ ") + str(" ++ second ++ ")" =
      "str(" ++ first ++ ")" ++ (" " ++ "+" ++ " ") ++ ("str(" ++ second ++ ")") := by
    simp [← String.toList_inj]
  rw [same]
  exact augend.operation "+" (by decide) addend

/-- A text is a literal. -/
theorem makes_text : MakesCode isName isInsert (text setting block) :=
  .bind (ensures_quote _) fun _ code => makes_expression code

/-- Joined texts are a literal, a conversion, a sum or a call. -/
theorem makes_joined : MakesCode isName isInsert (joined setting block) := by
  unfold joined
  refine .bind (.lift fun _ _ => trivial) fun count _ => ?_
  refine .ite (makes_expression (.quoted "")) (.ite ?_ (.ite ?_ ?_))
  · refine .bind (ensures_value (by decide) (fits_emptyText (by decide))) fun item fits => ?_
    exact makes_expression (code_str fits)
  · refine .bind (ensures_value (by decide) (fits_emptyText (by decide))) fun first left => ?_
    refine .bind (ensures_value (by decide) (fits_emptyText (by decide))) fun second right => ?_
    exact makes_expression (code_concatenation left right)
  · refine .bind (ensures_numbered (fits_emptyText (by decide))) fun items fits => ?_
    refine .bind (ensures_distinctVariable _) fun x named => ?_
    have each := code_str ⟨.atomic, by decide, Code.name named⟩
    have list : Fits isName .none _ :=
      (Code.comprehension each named (.display (Code.intercalate fits))).fits (by decide)
    have joined := (fits_emptyText (by decide)).method "join" (by decide) list.item
    generalize String.intercalate ", " items = inside at joined ⊢
    have same : "''.join([str(" ++ x ++ ") for " ++ x ++ " in [" ++ inside ++ "]])" =
        emptyText ++ ("." ++ "join" ++ "(") ++
          ("[" ++ ("str(" ++ x ++ ")") ++ " for " ++ x ++ " in " ++
            ("[" ++ inside ++ "]") ++ "]") ++ ")" := by
      simp [← String.toList_inj, emptyText]
    rw [same]
    exact makes_expression joined

/-- To append to a variable is an assignment. -/
theorem makes_append : MakesCode isName isInsert (append setting block) := by
  unfold append
  refine .bind (ensures_variableName _) fun name named => ?_
  refine .bind (ensures_value (by decide) (fits_emptyText (by decide))) fun item fits => ?_
  have own : Fits isName .none name := ⟨.atomic, by decide, .name named⟩
  have same : name ++ " = str(" ++ name ++ ") + str(" ++ item ++ ")\n" =
      name ++ " = " ++ ("str(" ++ name ++ ") + str(" ++ item ++ ")") ++ "\n" := by
    simp [← String.toList_inj]
  rw [same]
  exact makes_line (.line (.assignment (.name named) (code_concatenation own fits)))

/-- The place of a text is a call of a method, or a sum with one. -/
theorem makes_textIndexOf : MakesCode isName isInsert (textIndexOf setting block) := by
  have found (method : String) (known : method ∈ calledMethods) : MakesCode isName isInsert (do
      let part ← value setting block "FIND" .none emptyText
      let whole ← value setting block "VALUE" .member emptyText
      let code := whole ++ "." ++ method ++ "(" ++ part ++ ")"
      if setting.oneBased then expression (code ++ " + 1") .additive
      else expression code .functionCall) := by
    refine .bind (ensures_value (by decide) (fits_emptyText (by decide))) fun part partFits => ?_
    refine .bind (ensures_value (by decide) (fits_emptyText (by decide))) fun whole fits => ?_
    have call : Code isName (.value .functionCall)
        (whole ++ "." ++ method ++ "(" ++ part ++ ")") := by
      simpa only [String.append_assoc] using fits.method method known partFits.item
    refine .ite (makes_expression ?_) (makes_expression call)
    have position : Fits isName .additive (whole ++ "." ++ method ++ "(" ++ part ++ ")") :=
      call.fits (by decide)
    have shifted := position.operation "+" (by decide) (fits_natural 1 (by decide))
    rwa [String.append_assoc] at shifted
  unfold textIndexOf
  exact .ite (found "find" (by decide)) (.ite (found "rfind" (by decide)) (.unhandled ..))

/-- A letter is a selection or a call. -/
theorem makes_letterAt : MakesCode isName isInsert (letterAt setting block) := by
  unfold letterAt importRandom
  refine .ite ?_ ?_
  · refine .bind (ensures_value (by decide) (fits_emptyText (by decide))) fun whole fits => ?_
    refine .bind (ensures_require ..) fun _ _ => ?_
    refine .bind (ensures_helper ..) fun name named => ?_
    exact makes_expression (.call (.inl named) fits.item)
  · refine .bind (ensures_value (by decide) (fits_emptyText (by decide))) fun whole fits => ?_
    cases position? (block.fieldOr "WHERE" "FROM_START") with
    | none => exact .unhandled ..
    | some position =>
        refine .bind (ensures_offset position) fun place ⟨_, _, code⟩ => ?_
        exact makes_expression (fits.element (.position code))

/-- The tables of methods hold calls without arguments of methods that exist. -/
def BareCalls (methods : Table String) : Prop :=
  ∀ entry ∈ methods, ∃ method ∈ calledMethods, entry.2 = "." ++ method ++ "()"

/-- The methods for upper, lower and title case are called without arguments. -/
theorem bareCalls_caseMethods : BareCalls caseMethods := by
  intro entry listed
  simp only [caseMethods, List.mem_cons, List.not_mem_nil, or_false] at listed
  rcases listed with rfl | rfl | rfl
  · exact ⟨"upper", by decide⟩
  · exact ⟨"lower", by decide⟩
  · exact ⟨"title", by decide⟩

/-- So are those that trim. -/
theorem bareCalls_trimMethods : BareCalls trimMethods := by
  intro entry listed
  simp only [trimMethods, List.mem_cons, List.not_mem_nil, or_false] at listed
  rcases listed with rfl | rfl | rfl
  · exact ⟨"lstrip", by decide⟩
  · exact ⟨"rstrip", by decide⟩
  · exact ⟨"strip", by decide⟩

/-- A method that an option chooses is called on what a socket holds. -/
theorem makes_chosenMethod {field : String} {methods : Table String} (calls : BareCalls methods) :
    MakesCode isName isInsert (chosenMethod field methods setting block) := by
  unfold chosenMethod
  refine .bind (ensures_choice ..) fun found listed => ?_
  cases found with
  | none => exact .unhandled ..
  | some code =>
      obtain ⟨name, member⟩ := listed code rfl
      obtain ⟨method, known, rfl⟩ := calls _ member
      refine .bind (ensures_value (by decide) (fits_emptyText (by decide))) fun whole fits => ?_
      have call := fits.method method known .noItem
      have same : whole ++ ("." ++ method ++ "()") =
          whole ++ ("." ++ method ++ "(") ++ "" ++ ")" := by
        simp [← String.toList_inj]
      rw [same]
      exact makes_expression call

/-- To print is a statement. -/
theorem makes_print : MakesCode isName isInsert (print setting block) := by
  unfold print
  refine .bind (ensures_value (by decide) (fits_emptyText (by decide))) fun message fits => ?_
  have same : "print(" ++ message ++ ")\n" = "print" ++ "(" ++ message ++ ")" ++ "\n" := by
    simp [← String.toList_inj]
  rw [same]
  exact makes_line (.line (.expression (fits.call "print" (by decide))))

/-- The message of a prompt is a text or a value. -/
theorem ensures_promptMessage :
    (promptMessage setting block).Ensures (codeContract n isName isInsert) (Fits isName .none) := by
  unfold promptMessage
  refine .ite ?_ (ensures_value (by decide) (fits_emptyText (by decide)))
  exact (ensures_quote _).mono fun _ code => code.fits (by decide)

/-- A prompt is a call, perhaps inside a conversion. -/
theorem makes_prompt : MakesCode isName isInsert (prompt setting block) := by
  unfold prompt
  refine .bind ensures_promptMessage fun message fits => ?_
  have asked : Code isName (.value .functionCall) ("input(" ++ message ++ ")") :=
    fits.call "input" (by decide)
  have number : Fits isName .none ("input(" ++ message ++ ")") := asked.fits (by decide)
  apply makes_expression
  split
  · exact number.call "float" (by decide)
  · exact asked

/-- To count occurrences is a call of a method. -/
theorem makes_occurrences : MakesCode isName isInsert (occurrences setting block) := by
  unfold occurrences
  refine .bind (ensures_value (by decide) (fits_emptyText (by decide))) fun whole fits => ?_
  refine .bind (ensures_value (by decide) (fits_emptyText (by decide))) fun part partFits => ?_
  exact makes_expression (fits.method "count" (by decide) partFits.item)

/-- To replace texts is a call of a method. -/
theorem makes_replaced : MakesCode isName isInsert (replaced setting block) := by
  unfold replaced
  refine .bind (ensures_value (by decide) (fits_emptyText (by decide))) fun whole fits => ?_
  refine .bind (ensures_value (by decide) (fits_emptyText (by decide))) fun old oldFits => ?_
  refine .bind (ensures_value (by decide) (fits_emptyText (by decide))) fun new newFits => ?_
  have call : Code isName (.value .functionCall)
      (whole ++ ".replace(" ++ (old ++ ", " ++ new) ++ ")") :=
    fits.method "replace" (by decide) (oldFits.items newFits)
  simpa only [String.append_assoc] using makes_expression call

/-- A text is written backwards by a slice. -/
theorem makes_backwards : MakesCode isName isInsert (backwards setting block) := by
  unfold backwards
  refine .bind (ensures_value (by decide) (fits_emptyText (by decide))) fun whole fits => ?_
  have turned := fits.element .backwards
  rw [String.append_assoc, String.append_assoc] at turned
  exact makes_expression turned

end Gen

end BlockScript
