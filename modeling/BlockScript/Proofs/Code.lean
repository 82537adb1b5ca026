import BlockScript.Proofs.Identifier

/-! # The language of generated code

The texts that generators put together, as a language given by rules. `Code` has one rule for each
way in which an expression is made of its parts, and says of every expression how tightly it binds
at least. `Suite` has the rules for statements. That a text belongs to the language is shown once
for each generator; what holds of all generated code is then shown once for each rule.
-/

namespace BlockScript

namespace Numeral

/-- One or more decimal digits. -/
def IsDigits (chars : List Char) : Prop := chars ≠ [] ∧ ∀ c ∈ chars, c.isDigit = true

/-- A number literal without a sign: digits, then perhaps a fraction and an exponent. -/
def IsUnsigned (chars : List Char) : Prop :=
  ∃ whole fraction exponent, chars = whole ++ fraction ++ exponent ∧ IsDigits whole ∧
    (fraction = [] ∨ ∃ digits, fraction = '.' :: digits ∧ IsDigits digits) ∧
    (exponent = [] ∨ ∃ sign digits, exponent = 'e' :: sign :: digits ∧
      (sign = '+' ∨ sign = '-') ∧ IsDigits digits)

end Numeral

/-- The part that a text has in an expression. -/
inductive Role where
  /-- An expression that binds with an order. -/
  | value (order : Order)
  /-- Expressions separated by commas. -/
  | items
  /-- A bound of a slice. -/
  | bound
  /-- What stands between the brackets of a subscript. -/
  | subscript

/-- The words that stand for a value by themselves. -/
def constantWords : List String := ["True", "False", "None"]

/-- The functions that generated code calls besides those of the program. -/
def calledFunctions : List String :=
  ["len", "str", "int", "float", "input", "print", "list", "reversed", "range", "random.random",
    "random.choice"]

/-- The methods that generated code calls. -/
def calledMethods : List String :=
  ["pop", "split", "join", "find", "rfind", "upper", "lower", "title", "lstrip", "rstrip", "strip",
    "count", "replace", "insert", "append"]

/-- The texts that stand between double quotes in generated code. -/
def labelTexts : List String := ["inf", "nan", "NUMERIC", "TEXT", "IGNORE_CASE"]

/-- The binary operators with their orders. -/
def binaryOperators : Table Order :=
  [("or", .logicalOr), ("and", .logicalAnd), ("==", .relational), ("!=", .relational),
    ("<", .relational), ("<=", .relational), (">", .relational), (">=", .relational),
    ("+", .additive), ("-", .additive), ("*", .multiplicative), ("/", .multiplicative),
    ("**", .exponentiation)]

/-- The expressions of generated code, over the names that it may use. -/
inductive Code (isName : String → Prop) : Role → String → Prop
  | name {text : String} : isName text → Code isName (.value .atomic) text
  | constant {text : String} : text ∈ constantWords → Code isName (.value .atomic) text
  | numeral {text : String} : Numeral.IsUnsigned text.toList → Code isName (.value .atomic) text
  | quoted (text : String) : Code isName (.value .atomic) (Text.quoted text)
  | label {text : String} :
      text ∈ labelTexts → Code isName (.value .atomic) ("\"" ++ text ++ "\"")
  | grouped {order : Order} {text : String} :
      Code isName (.value order) text → Code isName (.value .atomic) ("(" ++ text ++ ")")
  | display {items : String} :
      Code isName .items items → Code isName (.value .atomic) ("[" ++ items ++ "]")
  | comprehension {element source : Order} {text name items : String} :
      Code isName (.value element) text → isName name → Code isName (.value source) items →
        Code isName (.value .atomic) ("[" ++ text ++ " for " ++ name ++ " in " ++ items ++ "]")
  | maxsize : Code isName (.value .member) "sys.maxsize"
  | call {function items : String} :
      isName function ∨ function ∈ calledFunctions → Code isName .items items →
        Code isName (.value .functionCall) (function ++ "(" ++ items ++ ")")
  | method {order : Order} {receiver method items : String} :
      Code isName (.value order) receiver → Order.member.rank ≤ order.rank →
        method ∈ calledMethods → Code isName .items items →
        Code isName (.value .functionCall) (receiver ++ ("." ++ method ++ "(") ++ items ++ ")")
  | element {order : Order} {receiver place : String} :
      Code isName (.value order) receiver → Order.member.rank ≤ order.rank →
        Code isName .subscript place →
        Code isName (.value .member) (receiver ++ "[" ++ place ++ "]")
  | negative {order : Order} {text : String} :
      Code isName (.value order) text → Order.member.rank ≤ order.rank →
        Code isName (.value .unarySign) ("-" ++ text)
  | operation {left right order : Order} {a operator b : String} :
      (operator, order) ∈ binaryOperators → Code isName (.value left) a →
        order.rank ≤ left.rank → Code isName (.value right) b → order.rank ≤ right.rank →
        Code isName (.value order) (a ++ (" " ++ operator ++ " ") ++ b)
  | negation {order : Order} {text : String} :
      Code isName (.value order) text → Order.logicalNot.rank ≤ order.rank →
        Code isName (.value .logicalNot) ("not " ++ text)
  | noItem : Code isName .items ""
  | lastItem {order : Order} {text : String} :
      Code isName (.value order) text → Code isName .items text
  | item {order : Order} {text items : String} :
      Code isName (.value order) text → Code isName .items items →
        Code isName .items (text ++ ", " ++ items)
  | openBound : Code isName .bound ""
  | bound {order : Order} {text : String} :
      Code isName (.value order) text → Code isName .bound text
  | position {order : Order} {text : String} :
      Code isName (.value order) text → Code isName .subscript text
  | slice {first last : String} :
      Code isName .bound first → Code isName .bound last →
        Code isName .subscript (first ++ " : " ++ last)
  | backwards : Code isName .subscript "::-1"

/-- An expression that binds at least as tightly as its place requires. -/
def Fits (isName : String → Prop) (required : Order) (text : String) : Prop :=
  ∃ order, required.rank ≤ order.rank ∧ Code isName (.value order) text

namespace Code

variable {isName : String → Prop}

/-- Code fits wherever a weaker binding is required. -/
theorem fits {order required : Order} {text : String} (code : Code isName (.value order) text)
    (enough : required.rank ≤ order.rank) : Fits isName required text := ⟨order, enough, code⟩

/-- A list of expressions, joined by commas. -/
theorem intercalate {texts : List String} (fit : ∀ text ∈ texts, Fits isName .none text) :
    Code isName .items (String.intercalate ", " texts) := by
  induction texts with
  | nil => exact noItem
  | cons text rest ih =>
      obtain ⟨order, _, code⟩ := fit text (List.mem_cons_self ..)
      cases rest with
      | nil =>
          rw [String.intercalate_singleton]
          exact lastItem code
      | cons next rest =>
          rw [String.intercalate_cons_cons]
          exact item code (ih fun other member => fit other (List.mem_cons_of_mem _ member))

end Code

namespace Fits

variable {isName : String → Prop}

/-- What fits a place fits a looser one. -/
theorem mono {required weaker : Order} {text : String} (fits : Fits isName required text)
    (weakens : weaker.rank ≤ required.rank) : Fits isName weaker text := by
  obtain ⟨order, enough, code⟩ := fits
  exact ⟨order, Int.le_trans weakens enough, code⟩

/-- Parentheses make an expression fit wherever anything fits. -/
theorem wrap {order required : Order} {text : String} (code : Code isName (.value order) text)
    (possible : required.rank ≤ Order.atomic.rank) :
    Fits isName required (Order.wrap text order required) := by
  by_cases loose : order.rank < required.rank
  · rw [Order.wrap_of_lt text loose]
    exact ⟨.atomic, possible, .grouped code⟩
  · have enough := Int.not_lt.mp loose
    rw [Order.wrap_of_le text enough]
    exact ⟨order, enough, code⟩

/-- An operator between expressions that bind tightly enough. -/
theorem operation {order : Order} {a b : String} (operator : String)
    (known : (operator, order) ∈ binaryOperators) (left : Fits isName order a)
    (right : Fits isName order b) :
    Code isName (.value order) (a ++ (" " ++ operator ++ " ") ++ b) := by
  obtain ⟨_, enoughLeft, codeLeft⟩ := left
  obtain ⟨_, enoughRight, codeRight⟩ := right
  exact .operation known codeLeft enoughLeft codeRight enoughRight

/-- A call of a method on code that binds as tightly as a member. -/
theorem method {receiver items : String} (fits : Fits isName .member receiver) (name : String)
    (known : name ∈ calledMethods) (arguments : Code isName .items items) :
    Code isName (.value .functionCall) (receiver ++ ("." ++ name ++ "(") ++ items ++ ")") := by
  obtain ⟨_, enough, code⟩ := fits
  exact .method code enough known arguments

/-- An item of what a subscript is taken of. -/
theorem element {receiver place : String} (fits : Fits isName .member receiver)
    (inside : Code isName .subscript place) :
    Code isName (.value .member) (receiver ++ "[" ++ place ++ "]") := by
  obtain ⟨_, enough, code⟩ := fits
  exact .element code enough inside

/-- A negated operand. -/
theorem negation {text : String} (fits : Fits isName .logicalNot text) :
    Code isName (.value .logicalNot) ("not " ++ text) := by
  obtain ⟨_, enough, code⟩ := fits
  exact .negation code enough

/-- An operand is an item. -/
theorem item {required : Order} {text : String} (fits : Fits isName required text) :
    Code isName .items text := by
  obtain ⟨_, _, code⟩ := fits
  exact .lastItem code

/-- Two operands are items. -/
theorem items {required other : Order} {text more : String} (fits : Fits isName required text)
    (rest : Fits isName other more) : Code isName .items (text ++ ", " ++ more) := by
  obtain ⟨_, _, code⟩ := fits
  exact .item code rest.item

/-- A call of a function on one argument. -/
theorem call {required : Order} {text : String} (fits : Fits isName required text)
    (function : String) (known : function ∈ calledFunctions) :
    Code isName (.value .functionCall) (function ++ "(" ++ text ++ ")") :=
  .call (.inr known) fits.item

end Fits

/-- The statements that take one line. -/
inductive Simple (isName : String → Prop) : String → Prop
  | expression {order : Order} {text : String} :
      Code isName (.value order) text → Simple isName text
  | assignment {target source : Order} {place text : String} :
      Code isName (.value target) place → Code isName (.value source) text →
        Simple isName (place ++ " = " ++ text)
  | nothing : Simple isName "pass"
  | leave : Simple isName "return"
  | answer {order : Order} {text : String} :
      Code isName (.value order) text → Simple isName ("return " ++ text)
  | globals {names : List String} : names ≠ [] → (∀ name ∈ names, isName name) →
      Simple isName ("global " ++ String.intercalate ", " names)

/-- The words that stand before a condition. -/
def conditionWords : List String := ["if", "elif", "while"]

/-- The first lines of statements that have a body, without the colon. -/
inductive Header (isName : String → Prop) : String → Prop
  | condition {order : Order} {word text : String} :
      word ∈ conditionWords → Code isName (.value order) text →
        Header isName (word ++ " " ++ text)
  | otherwise : Header isName "else"
  | loop {order : Order} {name items : String} :
      isName name → Code isName (.value order) items →
        Header isName ("for " ++ name ++ " in " ++ items)
  | definition {name : String} {params : List String} :
      isName name → (∀ param ∈ params, isName param) →
        Header isName ("def " ++ name ++ "(" ++ String.intercalate ", " params ++ ")")

/-- Where statements stand: at the margin or in a body. -/
inductive Depth where
  | outer
  | inner

/-- The statements of generated code, over the names that it may use and the texts that may be put
into bodies as they are. -/
inductive Suite (isName isInsert : String → Prop) : Depth → String → Prop
  | empty (depth : Depth) : Suite isName isInsert depth ""
  | append {depth : Depth} {first second : String} :
      Suite isName isInsert depth first → Suite isName isInsert depth second →
        Suite isName isInsert depth (first ++ second)
  | line {text : String} : Simple isName text → Suite isName isInsert .outer (text ++ "\n")
  | compound {header body : String} :
      Header isName header → Suite isName isInsert .inner body → body ≠ "" →
        Suite isName isInsert .outer (header ++ ":\n" ++ body)
  | indented {text : String} :
      Suite isName isInsert .outer text →
        Suite isName isInsert .inner (Text.indented text Text.margin)
  | insertion {text : String} :
      isInsert text → Suite isName isInsert .inner (Text.indented text Text.margin)
  | innerLine {text : String} :
      Simple isName text → Suite isName isInsert .inner (Text.margin ++ text ++ "\n")

namespace Suite

variable {isName isInsert : String → Prop}

/-- Suites in a row are one suite. -/
theorem join {depth : Depth} {texts : List String}
    (suites : ∀ text ∈ texts, Suite isName isInsert depth text) :
    Suite isName isInsert depth (String.join texts) := by
  induction texts with
  | nil => exact empty depth
  | cons text rest ih =>
      rw [String.join_cons]
      exact append (suites text (List.mem_cons_self ..))
        (ih fun other member => suites other (List.mem_cons_of_mem _ member))

theorem passLine : Suite isName isInsert .inner passLine := innerLine .nothing

theorem passLine_ne_empty : BlockScript.passLine ≠ "" := by decide

/-- A body, or the line that does nothing in the place of an empty one. -/
theorem orPass {text : String} (suite : Suite isName isInsert .inner text) :
    Suite isName isInsert .inner (orIfEmpty text BlockScript.passLine) ∧
      orIfEmpty text BlockScript.passLine ≠ "" := by
  unfold orIfEmpty
  by_cases nothing : text.isEmpty
  · simp only [nothing, ↓reduceIte]
    exact ⟨passLine, passLine_ne_empty⟩
  · simp only [nothing, Bool.false_eq_true, ↓reduceIte]
    exact ⟨suite, by simpa using nothing⟩

end Suite

namespace Procedure

/-- A procedure whose parts belong to the language and whose body is not empty. -/
structure Proper (isName isInsert : String → Prop) (procedure : Procedure) : Prop where
  name : isName procedure.name
  params : ∀ param ∈ procedure.params, isName param
  userGlobals : ∀ name ∈ procedure.userGlobals, isName name
  body : Suite isName isInsert .inner procedure.body
  returnLine : Suite isName isInsert .inner procedure.returnLine
  nonempty : procedure.body ++ procedure.returnLine ≠ ""

/-- Making names distinct adds none. -/
theorem mem_of_mem_distinct {name : String} :
    ∀ {known names : List String}, name ∈ distinct known names → name ∈ names
  | _, [], member => nomatch member
  | known, other :: rest, member => by
      unfold distinct at member
      split at member
      · exact List.mem_cons_of_mem _ (mem_of_mem_distinct member)
      · rcases List.mem_cons.mp member with rfl | member
        · exact List.mem_cons_self ..
        · exact List.mem_cons_of_mem _ (mem_of_mem_distinct member)

variable {isName isInsert : String → Prop}

/-- A line that declares names as global is a statement. -/
theorem suite_globalLine {names : List String} (named : ∀ name ∈ names, isName name) :
    Suite isName isInsert .inner (globalLine names) := by
  unfold globalLine
  by_cases none : names = []
  · simp only [none, List.isEmpty_nil, ↓reduceIte]
    exact .empty _
  · simp only [List.isEmpty_iff, none, ↓reduceIte]
    have line : Suite isName isInsert .inner (Text.margin ++ ("global " ++
        String.intercalate ", " names) ++ "\n") := .innerLine (.globals none named)
    rwa [← String.append_assoc] at line

/-- A procedure is written in the language. -/
theorem Proper.render {procedure : Procedure} (proper : procedure.Proper isName isInsert)
    {developer : List String} (named : ∀ name ∈ developer, isName name) :
    Suite isName isInsert .outer (procedure.render developer) := by
  have globals : ∀ name ∈ procedure.globals developer, isName name := by
    intro name member
    rcases List.mem_append.mp (mem_of_mem_distinct member) with member | member
    · exact proper.userGlobals name member
    · exact named name member
  have body : Suite isName isInsert .inner (globalLine (procedure.globals developer) ++
      (procedure.body ++ procedure.returnLine)) :=
    .append (suite_globalLine globals) (.append proper.body proper.returnLine)
  have written := Suite.compound (.definition proper.name proper.params) body
    (fun none => proper.nonempty (String.append_eq_empty_iff.mp none).2)
  have same : procedure.render developer =
      "def " ++ procedure.name ++ "(" ++ String.intercalate ", " procedure.params ++ ")" ++ ":\n" ++
        (globalLine (procedure.globals developer) ++ (procedure.body ++ procedure.returnLine)) := by
    simp [Procedure.render, ← String.toList_inj]
  rwa [same]

end Procedure

/-- What a block comes to belongs to the language. -/
def Outcome.Proper (isName isInsert : String → Prop) : Outcome → Prop
  | .expression value => Code isName (.value value.order) value.code
  | .statement code => Suite isName isInsert .outer code
  | .nothing => True

end BlockScript
