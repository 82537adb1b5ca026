import BlockScript.Names.Basic
import BlockScript.Text.Numeral

/-! # The grammar of formulas

A formula of the generated language is made of names, constants and number literals with the
operators of arithmetic, comparison and logic. `Formula.parse?` reads a text by the grammar of the
language, from the loosest operators to the tightest: `or`, `and`, `not`, comparisons, which chain,
`+` and `-`, `*` and `/`, the minus sign, and `**`, which groups to the right. The other binary
operators group to the left. A parse must use up the text.

`Regroup` relates formulas that differ by moving parentheses across associative operators. It keeps
what a difference or a quotient takes away, and it keeps the operands of powers, comparisons and
negations (`Regroup.holdings_eq`).
-/

namespace BlockScript

/-- What a number literal denotes: digits alone a whole number, any other literal the nearest number
of double width. -/
inductive Numeric where
  | whole (n : Int)
  | real (x : Binary64)
deriving DecidableEq

namespace Numeric

/-- The number with the other sign. -/
def negated : Numeric → Numeric
  | .whole n => .whole (-n)
  | .real (.finite negative significand exponent canonical) =>
      .real (.finite (!negative) significand exponent canonical)
  | .real (.infinite negative) => .real (.infinite (!negative))
  | .real .nan => .real .nan

/-- The value of a literal without sign. A whole number other than zero has no leading zero. -/
def read? (chars : List Char) : Option Numeric :=
  if chars.all Char.isDigit then
    if chars.head? = some '0' ∧ ¬ chars.all (· = '0') then none
    else some (.whole (Numeral.ofDigits chars))
  else (Numeral.decimal? chars).map fun decimal => .real (.ofDecimal false decimal.1 decimal.2)

end Numeric

/-- A formula, grouped. -/
inductive Term where
  | name (text : String)
  | constant (text : String)
  | number (value : Numeric)
  | minus (operand : Term)
  | negation (operand : Term)
  | binary (operator : String) (left right : Term)
  /-- A comparison that goes on from the last operand of another one. -/
  | chained (operator : String) (left right : Term)
deriving DecidableEq

namespace Formula

/-! ## Tokens -/

/-- A token of a formula. -/
inductive Token where
  | word (text : String)
  | numeral (chars : List Char)
  | sign (text : String)
deriving DecidableEq

/-- The operators that are written with signs. -/
def signs : List String :=
  ["+", "-", "*", "/", "**", "==", "!=", "<", "<=", ">", ">="]

/-- What is being read. -/
inductive Reading where
  | nothing
  | word (read : List Char)
  | numeral (read : List Char)
  | sign (read : List Char)
deriving DecidableEq

namespace Reading

/-- Whether a character belongs to an operator. -/
def isSign (c : Char) : Bool := "+-*/=!<>".toList.contains c

/-- Starts to read, after what has been read. -/
def start (c : Char) : Option (List Token × Reading) :=
  if c = ' ' then some ([], .nothing)
  else if c = '(' ∨ c = ')' then some ([.sign (String.singleton c)], .nothing)
  else if c.isDigit then some ([], .numeral [c])
  else if Names.isPlain c then some ([], .word [c])
  else if isSign c then some ([], .sign [c])
  else none

/-- The tokens of what has been read. -/
def finished : Reading → Option (List Token)
  | .nothing => some []
  | .word read => some [.word (String.ofList read)]
  | .numeral read => some [.numeral read]
  | .sign read =>
      if String.ofList read ∈ signs then some [.sign (String.ofList read)] else none

/-- What is read with one more character, when it belongs to the same token. A sign belongs to a
numeral behind the mark of an exponent. -/
def extended : Reading → Char → Option Reading
  | .nothing, _ => none
  | .word read, c => if Names.isPlain c then some (.word (read ++ [c])) else none
  | .numeral read, c =>
      let inExponent := (c = '+' ∨ c = '-') ∧ (read.getLast? = some 'e' ∨ read.getLast? = some 'E')
      if Names.isPlain c ∨ c = '.' ∨ inExponent then some (.numeral (read ++ [c])) else none
  | .sign read, c => if isSign c then some (.sign (read ++ [c])) else none

end Reading

/-- The tokens of a text, each as long as possible. -/
def tokens : Reading → List Char → Option (List Token)
  | reading, [] => reading.finished
  | reading, c :: rest =>
      match reading.extended c with
      | some longer => tokens longer rest
      | none => do
          let before ← reading.finished
          let (bracket, next) ← Reading.start c
          let after ← tokens next rest
          return before ++ bracket ++ after

/-! ## Levels of the grammar -/

/-- The levels of the grammar, from the loosest to the tightest. -/
inductive Level where
  | disjunction
  | conjunction
  | inversion
  | comparison
  | sum
  | product
  | factor
  | power
  | atom
deriving DecidableEq

namespace Level

/-- The place of a level above the tightest one. -/
def height : Level → Nat
  | .disjunction => 9
  | .conjunction => 8
  | .inversion => 7
  | .comparison => 6
  | .sum => 5
  | .product => 4
  | .factor => 3
  | .power => 2
  | .atom => 1

/-- The next tighter level. -/
def below : Level → Level
  | .disjunction => .conjunction
  | .conjunction => .inversion
  | .inversion => .comparison
  | .comparison => .sum
  | .sum => .product
  | .product => .factor
  | .factor => .power
  | .power => .atom
  | .atom => .atom

/-- The binary operators of a level. -/
def operators : Level → List String
  | .disjunction => ["or"]
  | .conjunction => ["and"]
  | .comparison => ["==", "!=", "<", "<=", ">", ">="]
  | .sum => ["+", "-"]
  | .product => ["*", "/"]
  | .power => ["**"]
  | .inversion | .factor | .atom => []

/-- An operand and those that follow it on a level, grouped to the left. Of several comparisons in a
row each but the first goes on from the one before. -/
def combine : Level → Term → List (String × Term) → Term
  | .comparison, first, [] => first
  | .comparison, first, (operator, second) :: others =>
      others.foldl (fun term next => .chained next.1 term next.2) (.binary operator first second)
  | _, first, others => others.foldl (fun term next => .binary next.1 term next.2) first

end Level

/-- The operator of a level that a token is. -/
def Token.operator? (level : Level) : Token → Option String
  | .word text | .sign text => if text ∈ level.operators then some text else none
  | .numeral _ => none

/-- The words that stand for values. -/
def constants : List String := ["True", "False", "None"]

/-- The words that are no names. -/
def keywords : List String :=
  ["False", "None", "True", "and", "as", "assert", "async", "await", "break", "class", "continue",
    "def", "del", "elif", "else", "except", "finally", "for", "from", "global", "if", "import",
    "in", "is", "lambda", "nonlocal", "not", "or", "pass", "raise", "return", "try", "while",
    "with", "yield"]

/-- The formula that a word is. -/
def ofWord? (text : String) : Option Term :=
  if text ∈ constants then some (.constant text)
  else if text ∈ keywords then none
  else some (.name text)

/-- A formula behind a minus sign; with a number literal it is a negative number. -/
def negative : Term → Term
  | .number value => .number value.negated
  | term => .minus term

mutual

/-- Reads a formula of a level: the formula and the tokens behind it. -/
def formula : Nat → Level → List Token → Option (Term × List Token)
  | 0, _, _ => none
  | _ + 1, .inversion, [] | _ + 1, .factor, [] | _ + 1, .atom, [] => none
  | fuel + 1, .inversion, token :: rest =>
      if token = .word "not" then do
        let (operand, rest) ← formula fuel .inversion rest
        return (.negation operand, rest)
      else formula fuel .comparison (token :: rest)
  | fuel + 1, .factor, token :: rest =>
      if token = .sign "-" then do
        let (operand, rest) ← formula fuel .factor rest
        return (negative operand, rest)
      else formula fuel .power (token :: rest)
  | fuel + 1, .power, tokens => do
      let (base, rest) ← formula fuel .atom tokens
      if rest.head? = some (.sign "**") then do
        let (exponent, rest) ← formula fuel .factor rest.tail
        return (.binary "**" base exponent, rest)
      else return (base, rest)
  | _ + 1, .atom, .numeral chars :: rest => do
      return (.number (← Numeric.read? chars), rest)
  | _ + 1, .atom, .word text :: rest => do return (← ofWord? text, rest)
  | fuel + 1, .atom, .sign text :: rest =>
      if text = "(" then do
        let (inner, rest) ← formula fuel .disjunction rest
        if rest.head? = some (.sign ")") then return (inner, rest.tail) else none
      else none
  | fuel + 1, level, tokens => do
      let (first, rest) ← formula fuel level.below tokens
      let (others, rest) ← operands fuel level rest
      return (level.combine first others, rest)

/-- Reads the operators of a level with the operands behind them. -/
def operands : Nat → Level → List Token → Option (List (String × Term) × List Token)
  | 0, _, _ => none
  | _ + 1, _, [] => some ([], [])
  | fuel + 1, level, token :: rest =>
      match token.operator? level with
      | none => some ([], token :: rest)
      | some operator => do
          let (operand, rest) ← formula fuel level.below rest
          let (others, rest) ← operands fuel level rest
          return ((operator, operand) :: others, rest)

end

/-- Steps enough to read that many tokens: each is reached through all levels. -/
def stepsFor (count : Nat) (level : Level) : Nat := 10 * count + level.height

/-- The formula that a text is. -/
def parse? (code : String) : Option Term := do
  let tokens ← tokens .nothing code.toList
  let (term, rest) ← formula (stepsFor tokens.length .disjunction) .disjunction tokens
  if rest = [] then some term else none

example : parse? "a < b < c" =
    some (.chained "<" (.binary "<" (.name "a") (.name "b")) (.name "c")) := by decide

example : parse? "not a - -2 ** b ** 3" =
    some (.negation (.binary "-" (.name "a") (.minus (.binary "**" (.number (.whole 2))
      (.binary "**" (.name "b") (.number (.whole 3))))))) := by decide

end Formula

/-! ## Regrouping -/

/-- The pairs of operators that regroup: `x o (y p z)` is `(x o y) p z`. -/
def regroupings : List (String × String) :=
  [("+", "+"), ("+", "-"), ("*", "*"), ("*", "/"), ("and", "and"), ("or", "or")]

/-- Formulas that differ by regroupings of their parts. -/
inductive Regroup : Term → Term → Prop where
  | refl (term : Term) : Regroup term term
  | symm {first second : Term} : Regroup first second → Regroup second first
  | trans {first second third : Term} :
      Regroup first second → Regroup second third → Regroup first third
  | rotate {outer inner : String} (known : (outer, inner) ∈ regroupings) (x y z : Term) :
      Regroup (.binary outer x (.binary inner y z)) (.binary inner (.binary outer x y) z)
  | minus {operand other : Term} : Regroup operand other → Regroup (.minus operand) (.minus other)
  | negation {operand other : Term} :
      Regroup operand other → Regroup (.negation operand) (.negation other)
  | binary {operator : String} {left right left' right' : Term} :
      Regroup left left' → Regroup right right' →
        Regroup (.binary operator left right) (.binary operator left' right')
  | chained {operator : String} {left right left' right' : Term} :
      Regroup left left' → Regroup right right' →
        Regroup (.chained operator left right) (.chained operator left' right')

namespace Term

/-- The names, constants and numbers of a formula from left to right. -/
def leaves : Term → List Term
  | .minus operand | .negation operand => operand.leaves
  | .binary _ left right | .chained _ left right => left.leaves ++ right.leaves
  | leaf => [leaf]

/-- Whether no comparison goes on from another one. -/
def Unchained : Term → Prop
  | .name _ | .constant _ | .number _ => True
  | .minus operand | .negation operand => operand.Unchained
  | .binary _ left right => left.Unchained ∧ right.Unchained
  | .chained .. => False

/-- The operators that hold their left operand. -/
def leftHolders : List String := "**" :: Formula.Level.comparison.operators

/-- The operators that hold their right operand. -/
def rightHolders : List String := "-" :: "/" :: leftHolders

/-- What the holding operators of a formula hold, from left to right: an operand is given by its
leaves. -/
def holdings : Term → List (String × List Term)
  | .minus operand => operand.holdings
  | .negation operand => ("not", operand.leaves) :: operand.holdings
  | .binary operator left right | .chained operator left right =>
      left.holdings ++ (if operator ∈ leftHolders then [(operator, left.leaves)] else []) ++
        (if operator ∈ rightHolders then [(operator, right.leaves)] else []) ++ right.holdings
  | _ => []

end Term

namespace Regroup

variable {first second : Term}

theorem leaves_eq (same : Regroup first second) : first.leaves = second.leaves := by
  induction same with
  | refl => rfl
  | symm _ ih => exact ih.symm
  | trans _ _ ih ih' => exact ih.trans ih'
  | rotate _ x y z => simp [Term.leaves]
  | minus _ ih | negation _ ih => exact ih
  | binary _ _ ih ih' | chained _ _ ih ih' => simp only [Term.leaves, ih, ih']

/-- Regrouping neither makes nor breaks a chain of comparisons. -/
theorem unchained_iff (same : Regroup first second) : first.Unchained ↔ second.Unchained := by
  induction same with
  | refl => rfl
  | symm _ ih => exact ih.symm
  | trans _ _ ih ih' => exact ih.trans ih'
  | rotate _ x y z => simp [Term.Unchained, and_assoc]
  | minus _ ih | negation _ ih => exact ih
  | binary _ _ ih ih' => simp only [Term.Unchained, ih, ih']
  | chained => rfl

/-- **Regrouping moves no operand that is held.** -/
theorem holdings_eq (same : Regroup first second) : first.holdings = second.holdings := by
  induction same with
  | refl => rfl
  | symm _ ih => exact ih.symm
  | trans _ _ ih ih' => exact ih.trans ih'
  | rotate known x y z =>
    -- The outer operator of a regrouping holds nothing, and the inner one nothing on its left.
    have free : ∀ pair ∈ regroupings, pair.1 ∉ Term.leftHolders ∧ pair.1 ∉ Term.rightHolders ∧
        pair.2 ∉ Term.leftHolders := by decide
    simp [Term.holdings, free _ known]
  | minus _ ih => exact ih
  | negation operand ih => simp only [Term.holdings, ih, operand.leaves_eq]
  | binary left right ih ih' | chained left right ih ih' =>
    simp only [Term.holdings, ih, ih', left.leaves_eq, right.leaves_eq]

end Regroup

end BlockScript
