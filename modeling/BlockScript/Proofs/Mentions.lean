import BlockScript.Proofs.Layout

/-! # The identifiers that a text mentions

An identifier of a text is a longest run of letters, digits and underscores outside of literals that
does not start with a digit and has no dot before it (`mentions`). Texts are read one after the
other: where the first leaves off, the second goes on (`Mention.Passes.close`,
`Mention.Closes.append`). All that generated code mentions are reserved words and the names that it
is written over (`Code.passes`, `Suite.lists`).
-/

namespace BlockScript

/-- What a reader of identifiers is in the middle of. -/
inductive Mention.Mode where
  /-- Nothing; the character before was a dot or not. -/
  | between (dot : Bool)
  /-- A word, with a dot before it or not and with its characters so far. -/
  | word (dot : Bool) (chars : List Char)
  /-- A literal that ends with a quote. -/
  | literal (quote : Char)
  /-- A literal, after a backslash. -/
  | escape (quote : Char)
deriving DecidableEq

namespace Mention

open Text

/-- Whether a character belongs to words. Whatever is not basic counts as a letter. -/
def isWordChar (c : Char) : Bool := Names.isPlain c || 0x80 ≤ c.toNat

namespace Mode

/-- The identifier that the reader has come to the end of, if it is one. -/
def ended : Mode → List String
  | .word false (c :: rest) => if c.isDigit then [] else [String.ofList (c :: rest)]
  | _ => []

/-- Reads a character that belongs to no word. -/
def apart (c : Char) : Mode := if c = '\'' || c = '"' then .literal c else .between (c = '.')

/-- Reads a character. -/
def next (mode : Mode) (c : Char) : Mode :=
  match mode with
  | .between dot => if isWordChar c then .word dot [c] else apart c
  | .word dot chars => if isWordChar c then .word dot (chars ++ [c]) else apart c
  | .literal quote =>
      if c = '\\' then .escape quote else if c = quote then .between false else .literal quote
  | .escape quote => .literal quote

/-- The identifier that ends where a character is read. -/
def found (mode : Mode) (c : Char) : List String := if isWordChar c then [] else mode.ended

/-- What the reader is in the middle of after some characters. -/
def after (mode : Mode) (chars : List Char) : Mode := chars.foldl next mode

/-- The identifiers that end within some characters. -/
def seen (mode : Mode) : List Char → List String
  | [] => []
  | c :: rest => mode.found c ++ seen (mode.next c) rest

/-- Where a reader is after two texts is where it is after the second, from where the first left it.
-/
theorem after_append (mode : Mode) (first second : List Char) :
    mode.after (first ++ second) = (mode.after first).after second := List.foldl_append

/-- The words seen in two texts are those of the first, and those of the second from there. -/
theorem seen_append (mode : Mode) (first second : List Char) :
    mode.seen (first ++ second) = mode.seen first ++ (mode.after first).seen second := by
  induction first generalizing mode with
  | nil => rfl
  | cons c rest ih =>
      rw [List.cons_append, seen, seen, ih, List.append_assoc]
      rfl

end Mode

end Mention

open Mention in
/-- The identifiers of a text. -/
def mentions (text : String) : List String :=
  let start := Mode.between false
  start.seen text.toList ++ (start.after text.toList).ended

namespace Mention

open Text

/-- The reader is in the middle of nothing, or of a word that may be mentioned. -/
inductive Mode.Settled (allowed : String → Prop) : Mode → Prop
  | between : Settled allowed (.between false)
  | word {dot : Bool} {chars : List Char} :
      (∀ word ∈ (Mode.word dot chars).ended, allowed word) → Settled allowed (.word dot chars)

instance (allowed : String → Prop) [DecidablePred allowed] (mode : Mode) :
    Decidable (mode.Settled allowed) :=
  match mode with
  | .between false => isTrue .between
  | .between true => isFalse nofun
  | .word dot chars =>
      decidable_of_iff (∀ word ∈ (Mode.word dot chars).ended, allowed word)
        ⟨.word, fun | .word all => all⟩
  | .literal _ => isFalse nofun
  | .escape _ => isFalse nofun

/-- A mode that has settled for some words has settled for more. -/
theorem Mode.Settled.mono {allowed more : String → Prop} (wider : ∀ word, allowed word → more word)
    {mode : Mode} (settled : mode.Settled allowed) : mode.Settled more := by
  cases settled with
  | between => exact .between
  | word all => exact .word fun word member => wider word (all word member)

/-- A text that is read from nothing to something settled and mentions only what is allowed. -/
structure Passes (allowed : String → Prop) (text : String) : Prop where
  settled : ((Mode.between false).after text.toList).Settled allowed
  seen : ∀ word ∈ (Mode.between false).seen text.toList, allowed word

/-- A text that is read as with `Passes`, at the end of which the reader is in the middle of
nothing. -/
structure Closes (allowed : String → Prop) (text : String) : Prop where
  closed : (Mode.between false).after text.toList = .between false
  seen : ∀ word ∈ (Mode.between false).seen text.toList, allowed word

instance (allowed : String → Prop) [DecidablePred allowed] (text : String) :
    Decidable (Passes allowed text) :=
  decidable_of_iff (_ ∧ _) ⟨fun both => ⟨both.1, both.2⟩, fun passes => ⟨passes.1, passes.2⟩⟩

instance (allowed : String → Prop) [DecidablePred allowed] (text : String) :
    Decidable (Closes allowed text) :=
  decidable_of_iff (_ ∧ _) ⟨fun both => ⟨both.1, both.2⟩, fun closes => ⟨closes.1, closes.2⟩⟩

variable {allowed more : String → Prop} {first second text : String}

/-- What passes with some words passes with more. -/
theorem Passes.mono (wider : ∀ word, allowed word → more word) (passes : Passes allowed text) :
    Passes more text :=
  ⟨passes.settled.mono wider, fun word member => wider word (passes.seen word member)⟩

/-- What closes with some words closes with more. -/
theorem Closes.mono (wider : ∀ word, allowed word → more word) (closes : Closes allowed text) :
    Closes more text :=
  ⟨closes.closed, fun word member => wider word (closes.seen word member)⟩

/-- A text that closes passes. -/
theorem Closes.passes (closes : Closes allowed text) : Passes allowed text := by
  refine ⟨?_, closes.seen⟩
  rw [closes.closed]
  exact .between

/-- All identifiers of a text that passes are allowed. -/
theorem Passes.mentions (passes : Passes allowed text) :
    ∀ word ∈ mentions text, allowed word := by
  intro word member
  rcases List.mem_append.mp member with within | last
  · exact passes.seen word within
  · have settled := passes.settled
    revert last
    generalize (Mode.between false).after text.toList = mode at settled ⊢
    intro last
    cases settled with
    | between => cases last
    | word allowed => exact allowed word last

/-- After a text that closes, any text may follow. -/
theorem Closes.append (left : Closes allowed first) (right : Passes allowed second) :
    Passes allowed (first ++ second) := by
  constructor
  · rw [String.toList_append, Mode.after_append, left.closed]
    exact right.settled
  · rw [String.toList_append, Mode.seen_append, left.closed]
    exact List.forall_mem_append.mpr ⟨left.seen, right.seen⟩

/-- Texts that close may follow each other. -/
theorem Closes.closes (left : Closes allowed first) (right : Closes allowed second) :
    Closes allowed (first ++ second) := by
  constructor
  · rw [String.toList_append, Mode.after_append, left.closed]
    exact right.closed
  · rw [String.toList_append, Mode.seen_append, left.closed]
    exact List.forall_mem_append.mpr ⟨left.seen, right.seen⟩

/-- A character that belongs to no word. -/
def isNeutral (c : Char) : Bool := !isWordChar c

/-- What is settled reads a neutral character as nothing does. -/
theorem Mode.Settled.next {mode : Mode} (settled : mode.Settled allowed) {c : Char}
    (neutral : isNeutral c = true) : mode.next c = (Mode.between false).next c := by
  have outside : isWordChar c = false := by simpa [isNeutral] using neutral
  cases settled <;> simp [Mode.next, outside]

/-- A settled mode finds only words that are allowed. -/
theorem Mode.Settled.found {mode : Mode} (settled : mode.Settled allowed) (c : Char) :
    ∀ word ∈ mode.found c, allowed word := by
  intro word member
  unfold Mode.found at member
  split at member
  · cases member
  · cases settled with
    | between => cases member
    | word allowed => exact allowed word member

/-- **A text that starts with a neutral character is read as if nothing came before it.** -/
theorem Passes.follow (left : Passes allowed first) (starts : Starts isNeutral second) :
    (Mode.between false).after (first ++ second).toList =
        (Mode.between false).after second.toList ∧
      ∀ word ∈ (Mode.between false).seen (first ++ second).toList,
        allowed word ∨ word ∈ (Mode.between false).seen second.toList := by
  obtain ⟨c, rest, same, neutral⟩ := starts.exists_cons
  have moves := left.settled.next neutral
  rw [String.toList_append, same]
  constructor
  · rw [Mode.after_append]
    change (((Mode.between false).after first.toList).next c).after rest = _
    rw [moves]
    rfl
  · rw [Mode.seen_append, Mode.seen, moves]
    intro word member
    rcases List.mem_append.mp member with before | member
    · exact .inl (left.seen word before)
    · rcases List.mem_append.mp member with last | later
      · exact .inl (left.settled.found c word last)
      · exact .inr (List.mem_append_right _ later)

/-- After a text that passes, one may follow that starts neutrally. -/
theorem Passes.append (left : Passes allowed first) (right : Passes allowed second)
    (starts : Starts isNeutral second) : Passes allowed (first ++ second) := by
  obtain ⟨reads, sees⟩ := left.follow starts
  refine ⟨?_, fun word member => (sees word member).elim id (right.seen word)⟩
  rw [reads]
  exact right.settled

/-- It may also be one that closes. -/
theorem Passes.close (left : Passes allowed first) (right : Closes allowed second)
    (starts : Starts isNeutral second) : Closes allowed (first ++ second) := by
  obtain ⟨reads, sees⟩ := left.follow starts
  exact ⟨reads.trans right.closed, fun word member => (sees word member).elim id (right.seen word)⟩

theorem closes_empty : Closes allowed "" := ⟨rfl, fun _ member => nomatch member⟩

/-- Texts with something between them that starts with a neutral character. -/
theorem Passes.intercalate {separator : String} {texts : List String}
    (between : Closes allowed separator) (starts : Starts isNeutral separator)
    (all : ∀ text ∈ texts, Passes allowed text) :
    Passes allowed (String.intercalate separator texts) := by
  induction texts with
  | nil => exact closes_empty.passes
  | cons text rest ih =>
      obtain ⟨own, others⟩ := List.forall_mem_cons.mp all
      cases rest with
      | nil =>
          rw [String.intercalate_singleton]
          exact own
      | cons next rest =>
          rw [String.intercalate_cons_cons]
          exact (own.close between starts).append (ih others)

/-! ## Words, numbers and literals -/

/-- A word goes on as long as its characters do. -/
theorem after_word (dot : Bool) (chars : List Char) {more : List Char}
    (all : ∀ c ∈ more, isWordChar c = true) :
    (Mode.word dot chars).after more = .word dot (chars ++ more) ∧
      (Mode.word dot chars).seen more = [] := by
  induction more generalizing chars with
  | nil => exact ⟨by simp [Mode.after], rfl⟩
  | cons c rest ih =>
      obtain ⟨letter, others⟩ := List.forall_mem_cons.mp all
      have grows : (Mode.word dot chars).next c = .word dot (chars ++ [c]) := by
        simp [Mode.next, letter]
      have quiet : (Mode.word dot chars).found c = [] := by simp [Mode.found, letter]
      obtain ⟨reads, sees⟩ := ih (chars ++ [c]) others
      constructor
      · change ((Mode.word dot chars).next c).after rest = _
        rw [grows, reads, List.append_assoc]
        rfl
      · rw [Mode.seen, quiet, grows, sees]
        rfl

/-- A run of letters, digits and underscores is one word. -/
theorem after_between (dot : Bool) {c : Char} {rest : List Char}
    (all : ∀ d ∈ c :: rest, isWordChar d = true) :
    (Mode.between dot).after (c :: rest) = .word dot (c :: rest) ∧
      (Mode.between dot).seen (c :: rest) = [] := by
  obtain ⟨letter, others⟩ := List.forall_mem_cons.mp all
  have starts : (Mode.between dot).next c = .word dot [c] := by simp [Mode.next, letter]
  have quiet : (Mode.between dot).found c = [] := by simp [Mode.found, letter]
  obtain ⟨reads, sees⟩ := after_word dot [c] others
  constructor
  · change ((Mode.between dot).next c).after rest = _
    rw [starts, reads]
    rfl
  · rw [Mode.seen, quiet, starts, sees]
    rfl

/-- Characters of plain identifiers are characters of words. -/
theorem isWordChar_of_isPlain {c : Char} (plain : Names.isPlain c = true) :
    isWordChar c = true := by
  simp [isWordChar, plain]

/-- An identifier mentions itself. -/
theorem passes_identifier (identifier : Names.IsIdentifier text) (own : allowed text) :
    Passes allowed text := by
  obtain ⟨c, rest, same, plain, notDigit, others⟩ := identifier
  have allPlain : ∀ d ∈ c :: rest, Names.isPlain d = true :=
    List.forall_mem_cons.mpr ⟨plain, others⟩
  have all : ∀ d ∈ c :: rest, isWordChar d = true :=
    fun d member => isWordChar_of_isPlain (allPlain d member)
  obtain ⟨reads, sees⟩ := after_between false all
  constructor
  · rw [same, reads]
    apply Mode.Settled.word
    intro word member
    rw [Mode.ended, notDigit, ← same, String.ofList_toList] at member
    rw [List.mem_singleton.mp member]
    exact own
  · rw [same, sees]
    exact fun _ member => nomatch member

/-- The reader is in the middle of a number. -/
inductive Mode.Numeric : Mode → Prop
  | digits {dot : Bool} {c : Char} (rest : List Char) : c.isDigit = true →
      Numeric (.word dot (c :: rest))

namespace Mode.Numeric

variable {mode : Mode} {digits : List Char}

/-- A number is no identifier. -/
theorem ended_eq_nil (numeric : mode.Numeric) : mode.ended = [] := by
  obtain ⟨rest, digit⟩ := numeric
  rename_i dot c
  cases dot with
  | false => exact if_pos digit
  | true => rfl

/-- Digits are a numeral, and no word. -/
theorem of_digits (dot : Bool) (shape : Numeral.IsDigits digits) :
    ((Mode.between dot).after digits).Numeric ∧ (Mode.between dot).seen digits = [] := by
  obtain ⟨c, rest, rfl⟩ := List.exists_cons_of_ne_nil shape.1
  obtain ⟨reads, sees⟩ := after_between dot fun d member =>
    isWordChar_of_isPlain (Names.isPlain_of_isDigit (shape.2 d member))
  rw [reads]
  exact ⟨.digits rest (shape.2 c (List.mem_cons_self ..)), sees⟩

/-- A fraction goes on with a numeral. -/
theorem fraction (numeric : mode.Numeric) (shape : Numeral.IsDigits digits) :
    (mode.after ('.' :: digits)).Numeric ∧ mode.seen ('.' :: digits) = [] := by
  have quiet : mode.found '.' = [] := numeric.ended_eq_nil
  have dot : mode.next '.' = .between true := by
    obtain ⟨_, _⟩ := numeric
    rfl
  rw [seen, quiet, dot]
  change ((mode.next '.').after digits).Numeric ∧ _
  rw [dot]
  exact of_digits true shape

/-- The sign of an exponent is no part of the word before it, but the digits after it are a number
again. -/
theorem exponent (numeric : mode.Numeric) {sign : Char} (signed : sign = '+' ∨ sign = '-')
    (shape : Numeral.IsDigits digits) :
    (mode.after ('e' :: sign :: digits)).Numeric ∧ mode.seen ('e' :: sign :: digits) = [] := by
  obtain ⟨rest, digit⟩ := numeric
  rename_i dot c
  have further : (Mode.word dot (c :: rest ++ ['e'])).Numeric := .digits _ digit
  have quiet : (Mode.word dot (c :: rest ++ ['e'])).found sign = [] := by
    rcases signed with rfl | rfl <;> exact further.ended_eq_nil
  have leaves : (Mode.word dot (c :: rest ++ ['e'])).next sign = .between false := by
    rcases signed with rfl | rfl <;> rfl
  have letter : (Mode.word dot (c :: rest)).next 'e' = .word dot (c :: rest ++ ['e']) := rfl
  have silent : (Mode.word dot (c :: rest)).found 'e' = [] := rfl
  rw [seen, silent, letter, seen, quiet, leaves]
  change ((((Mode.word dot (c :: rest)).next 'e').next sign).after digits).Numeric ∧ _
  rw [letter, leaves]
  exact of_digits false shape

/-- A numeral is no word, so it has settled for any. -/
theorem settled (numeric : mode.Numeric) : mode.Settled allowed := by
  have quiet := numeric.ended_eq_nil
  obtain ⟨_, _⟩ := numeric
  apply Mode.Settled.word
  rw [quiet]
  exact fun _ member => nomatch member

end Mode.Numeric

/-- A numeral mentions nothing. -/
theorem passes_numeral (unsigned : Numeral.IsUnsigned text.toList) : Passes allowed text := by
  obtain ⟨whole, fraction, exponent, same, digits, fractionShape, exponentShape⟩ := unsigned
  obtain ⟨first, sees⟩ := Mode.Numeric.of_digits false digits
  have second : (((Mode.between false).after whole).after fraction).Numeric ∧
      ((Mode.between false).after whole).seen fraction = [] := by
    rcases fractionShape with rfl | ⟨decimals, rfl, shape⟩
    · exact ⟨first, rfl⟩
    · exact first.fraction shape
  have third : ((((Mode.between false).after whole).after fraction).after exponent).Numeric ∧
      (((Mode.between false).after whole).after fraction).seen exponent = [] := by
    rcases exponentShape with rfl | ⟨sign, more, rfl, signed, shape⟩
    · exact ⟨second.1, rfl⟩
    · exact second.1.exponent signed shape
  constructor
  · rw [same, Mode.after_append, Mode.after_append]
    exact third.1.settled
  · rw [same, Mode.seen_append, Mode.seen_append, Mode.after_append, sees, second.2, third.2]
    exact fun _ member => nomatch member

/-- Nothing is found inside a quoted text. -/
theorem found_literal (quote c : Char) : (Mode.literal quote).found c = [] := ite_self _

/-- Escaped characters stay in the literal they are written into, and mention nothing. -/
theorem after_escaped (c : Char) :
    (Mode.literal '\'').after (Text.escaped c) = .literal '\'' ∧
      (Mode.literal '\'').seen (Text.escaped c) = [] := by
  have digit (k : Nat) : (Mode.literal '\'').next (Text.hexDigit (k % 16)) = .literal '\'' := by
    obtain ⟨_, backslash, quote⟩ := Text.hexDigit_of_lt (Nat.mod_lt k (by decide : 16 > 0))
    simp [Mode.next, backslash, quote]
  unfold Text.escaped
  split_ifs with backslash newline feed tab quote control
  · exact ⟨rfl, rfl⟩
  · exact ⟨rfl, rfl⟩
  · exact ⟨rfl, rfl⟩
  · exact ⟨rfl, rfl⟩
  · exact ⟨rfl, rfl⟩
  · constructor
    · change ((Mode.literal '\'').next _).next _ = _
      rw [digit, digit]
    · change (Mode.literal '\'').found _ ++ (((Mode.literal '\'').next _).found _ ++ []) = []
      rw [digit, found_literal, found_literal]
      rfl
  · constructor
    · change (Mode.literal '\'').next c = _
      simp [Mode.next, backslash, quote]
    · change (Mode.literal '\'').found c ++ [] = []
      rw [found_literal]
      rfl

/-- A quoted text mentions nothing, whatever the text is. -/
theorem closes_quoted (content : String) : Closes allowed (Text.quoted content) := by
  have inside : ∀ chars : List Char,
      (Mode.literal '\'').after (chars.flatMap Text.escaped) = .literal '\'' ∧
        (Mode.literal '\'').seen (chars.flatMap Text.escaped) = [] := by
    intro chars
    induction chars with
    | nil => exact ⟨rfl, rfl⟩
    | cons c rest ih =>
        obtain ⟨reads, sees⟩ := after_escaped c
        rw [List.flatMap_cons, Mode.after_append, Mode.seen_append, reads, sees]
        exact ih
  obtain ⟨reads, sees⟩ := inside content.toList
  have spelled : (Text.quoted content).toList =
      ['\''] ++ content.toList.flatMap Text.escaped ++ ['\''] := by
    rw [Text.quoted, String.toList_ofList]
    rfl
  have enters : (Mode.between false).after ['\''] = .literal '\'' := rfl
  constructor
  · rw [spelled, Mode.after_append, Mode.after_append, enters, reads]
    rfl
  · rw [spelled, Mode.seen_append, Mode.seen_append, Mode.after_append, enters, reads, sees]
    intro _ member
    cases member

end Mention

/-! ## The language -/

/-- What generated code may mention: reserved words, and the names that it is written over. -/
def Allowed (isName : String → Prop) (word : String) : Prop :=
  word ∈ Names.reservedWords ∨ isName word

namespace Mention

open Text

/-- What stands before the parts of expressions and statements. -/
def openers : List String :=
  ["(", "[", "-", "not ", "return ", "global ", "for ", "def ", Text.margin] ++
    conditionWords.map (· ++ " ")

/-- What stands after their parts or between them. -/
def joints : List String :=
  ["(", ")", "[", "]", ":", " for ", " in ", ", ", " : ", " = "] ++
    binaryOperators.map (fun operator => " " ++ operator.1 ++ " ") ++
      calledMethods.map ("." ++ · ++ "(")

/-- What stands by itself. -/
def fixtures : List String :=
  constantWords ++ calledFunctions ++ ["sys.maxsize", "::-1", "pass", "return", "else"] ++
    labelTexts.map ("\"" ++ · ++ "\"")

/-- Openers and joints mention reserved words only, and close. -/
theorem closes_of_mem {phrase : String} (known : phrase ∈ openers ++ joints) :
    Closes (· ∈ Names.reservedWords) phrase := by
  revert phrase
  decide +kernel

/-- Joints start neutrally. -/
theorem starts_of_mem {joint : String} (known : joint ∈ joints) : Starts isNeutral joint := by
  revert joint
  decide +kernel

/-- What comes after a dot counts for nothing. -/
theorem passes_of_mem {fixture : String} (known : fixture ∈ fixtures) :
    Passes (· ∈ Names.reservedWords) fixture := by
  revert fixture
  decide +kernel

variable {isName : String → Prop} {first second text : String}

/-- Fixed texts mention reserved words only. -/
theorem passes_fixture (known : text ∈ fixtures) : Passes (Allowed isName) text :=
  (passes_of_mem known).mono fun _ => .inl

/-- An opener may stand before any text. -/
theorem Passes.opened {opener : String} (passes : Passes (Allowed isName) text)
    (known : opener ∈ openers) : Passes (Allowed isName) (opener ++ text) :=
  ((closes_of_mem (List.mem_append_left _ known)).mono fun _ => .inl).append passes

/-- A joint closes the text before it. -/
theorem Passes.closed {joint : String} (passes : Passes (Allowed isName) text)
    (known : joint ∈ joints) : Closes (Allowed isName) (text ++ joint) :=
  passes.close ((closes_of_mem (List.mem_append_right _ known)).mono fun _ => .inl)
    (starts_of_mem known)

/-- Two texts may be joined. -/
theorem Passes.joined {joint : String} (left : Passes (Allowed isName) first)
    (known : joint ∈ joints) (right : Passes (Allowed isName) second) :
    Passes (Allowed isName) (first ++ joint ++ second) := (left.closed known).append right

/-- Texts may be listed with commas. -/
theorem Passes.listed {texts : List String} (all : ∀ text ∈ texts, Passes (Allowed isName) text) :
    Passes (Allowed isName) (String.intercalate ", " texts) := by
  have known : ", " ∈ joints := by decide
  exact .intercalate ((closes_of_mem (List.mem_append_right _ known)).mono fun _ => .inl)
    (starts_of_mem known) all

end Mention

open Mention

variable {isName isInsert : String → Prop} {text : String}

/-- The words of conditions are openers. -/
theorem mem_openers_of_condition {word : String} (known : word ∈ conditionWords) :
    word ++ " " ∈ openers := List.mem_append_right _ (List.mem_map_of_mem known)

/-- Operators between blanks are joints. -/
theorem mem_joints_of_operator {operator : String} {order : Order}
    (known : (operator, order) ∈ binaryOperators) : " " ++ operator ++ " " ∈ joints := by
  apply List.mem_append_left
  apply List.mem_append_right
  exact List.mem_map.mpr ⟨_, known, rfl⟩

/-- Calls of methods are joints. -/
theorem mem_joints_of_method {method : String} (known : method ∈ calledMethods) :
    "." ++ method ++ "(" ∈ joints :=
  List.mem_append_right _ (List.mem_map.mpr ⟨_, known, rfl⟩)

/-- Functions that are called are fixed texts. -/
theorem mem_fixtures_of_function {function : String} (known : function ∈ calledFunctions) :
    function ∈ fixtures := by
  apply List.mem_append_left
  apply List.mem_append_left
  exact List.mem_append_right _ known

section

variable (identifiers : ∀ text, isName text → Names.IsIdentifier text)

include identifiers

/-- A name mentions itself only. -/
theorem passes_name (named : isName text) : Passes (Allowed isName) text :=
  passes_identifier (identifiers text named) (.inr named)

/-- **Expressions mention nothing but reserved words and the names they are written over.** -/
theorem Code.passes {role : Role} (code : Code isName role text) : Passes (Allowed isName) text := by
  induction code with
  | name named => exact passes_name identifiers named
  | constant known =>
      apply passes_fixture
      exact List.mem_append_left _ (List.mem_append_left _ (List.mem_append_left _ known))
  | numeral unsigned => exact passes_numeral unsigned
  | quoted text => exact (closes_quoted text).passes
  | label known => exact passes_fixture (List.mem_append_right _ (List.mem_map.mpr ⟨_, known, rfl⟩))
  | grouped _ inside => exact ((inside.opened (by decide)).closed (by decide)).passes
  | display _ inside => exact ((inside.opened (by decide)).closed (by decide)).passes
  | comprehension _ named _ element source =>
      have bound := (element.opened (by decide : "[" ∈ openers)).joined
        (by decide : " for " ∈ joints) (passes_name identifiers named)
      exact ((bound.joined (by decide) source).closed (by decide)).passes
  | maxsize => exact passes_fixture (by decide)
  | call known _ items =>
      have function := known.elim (passes_name identifiers)
        fun called => passes_fixture (mem_fixtures_of_function called)
      exact ((function.joined (by decide) items).closed (by decide)).passes
  | method _ _ known _ receiver items =>
      exact ((receiver.joined (mem_joints_of_method known) items).closed (by decide)).passes
  | element _ _ _ receiver place =>
      exact ((receiver.joined (by decide) place).closed (by decide)).passes
  | negative _ _ operand => exact operand.opened (by decide)
  | operation known _ _ _ _ left right => exact left.joined (mem_joints_of_operator known) right
  | negation _ _ operand => exact operand.opened (by decide)
  | noItem => exact closes_empty.passes
  | lastItem _ inside => exact inside
  | item _ _ own items => exact own.joined (by decide) items
  | openBound => exact closes_empty.passes
  | bound _ inside => exact inside
  | position _ inside => exact inside
  | slice _ _ start stop => exact start.joined (by decide) stop
  | backwards => exact passes_fixture (by decide)

/-- Every form of simple code mentions names and reserved words only. -/
theorem Simple.passes (simple : Simple isName text) : Passes (Allowed isName) text := by
  cases simple with
  | expression code => exact code.passes identifiers
  | assignment place value =>
      exact (place.passes identifiers).joined (by decide) (value.passes identifiers)
  | nothing => exact passes_fixture (by decide)
  | leave => exact passes_fixture (by decide)
  | answer code => exact (code.passes identifiers).opened (by decide)
  | globals _ named =>
      have names := Passes.listed fun name member => passes_name identifiers (named name member)
      exact names.opened (by decide)

/-- So does every header. -/
theorem Header.passes {header : String} (head : Header isName header) :
    Passes (Allowed isName) header := by
  cases head with
  | condition known code =>
      exact (code.passes identifiers).opened (mem_openers_of_condition known)
  | otherwise => exact passes_fixture (by decide)
  | loop named code =>
      have counter := (passes_name identifiers named).opened (by decide : "for " ∈ openers)
      exact counter.joined (by decide) (code.passes identifiers)
  | definition named params =>
      have name := (passes_name identifiers named).opened (by decide : "def " ∈ openers)
      have names := Passes.listed fun param member =>
        passes_name identifiers (params param member)
      exact ((name.joined (by decide) names).closed (by decide)).passes

end

/-! ## Lines -/

namespace Mention

open Text

/-- A line that passes. -/
structure PassesLine (isName : String → Prop) (line : List Char) : Prop where
  nonempty : line ≠ []
  whole : '\n' ∉ line
  passes : Passes (Allowed isName) (String.ofList line)

/-- A text of lines that pass. -/
def Lists (isName : String → Prop) (text : String) : Prop :=
  ∃ lines, text.toList = terminated lines ∧ ∀ line ∈ lines, PassesLine isName line

namespace Lists

variable {isName : String → Prop} {first second text : String}

theorem empty : Lists isName "" := ⟨[], rfl, fun _ member => nomatch member⟩

/-- Lines that follow each other are lines. -/
theorem append (left : Lists isName first) (right : Lists isName second) :
    Lists isName (first ++ second) := by
  obtain ⟨before, same, passes⟩ := left
  obtain ⟨after, sameToo, passesToo⟩ := right
  refine ⟨before ++ after, ?_, List.forall_mem_append.mpr ⟨passes, passesToo⟩⟩
  rw [String.toList_append, same, sameToo, terminated_append]

/-- A margin mentions nothing. -/
theorem margin_line {line : List Char} (passes : PassesLine isName line) :
    PassesLine isName (Text.margin.toList ++ line) := by
  refine ⟨?_, ?_, ?_⟩
  · simp [passes.nonempty]
  · intro member
    rcases List.mem_append.mp member with before | within
    · revert before
      decide
    · exact passes.whole within
  · rw [String.ofList_append, String.ofList_toList]
    exact passes.passes.opened (by decide)

/-- A margin before each line mentions nothing. -/
theorem indented (lists : Lists isName text) :
    Lists isName (Text.indented text Text.margin) := by
  obtain ⟨lines, same, passes⟩ := lists
  refine ⟨lines.map (Text.margin.toList ++ ·), ?_, ?_⟩
  · rw [Text.indented, String.toList_ofList, same, indentedChars_terminated
      (fun line member => (passes line member).nonempty)
      (fun line member => (passes line member).whole)]
  · intro line member
    obtain ⟨own, given, rfl⟩ := List.mem_map.mp member
    exact margin_line (passes own given)

/-- A text of lines that pass is closed. -/
theorem closes (lists : Lists isName text) : Closes (Allowed isName) text := by
  obtain ⟨lines, same, passes⟩ := lists
  have newline : Closes (Allowed isName) "\n" := ⟨rfl, fun _ member => nomatch member⟩
  induction lines generalizing text with
  | nil =>
      rw [String.toList_eq_nil_iff.mp same]
      exact closes_empty
  | cons line rest ih =>
      obtain ⟨own, others⟩ := List.forall_mem_cons.mp passes
      have later : Closes (Allowed isName) (String.ofList (terminated rest)) :=
        ih String.toList_ofList others
      have split : text = String.ofList line ++ "\n" ++ String.ofList (terminated rest) := by
        rw [← String.toList_inj, same]
        simp
      rw [split]
      exact (own.passes.close newline (by decide)).closes later

end Lists

end Mention

/-- A line of the language. -/
theorem passesLine_of_printable (passes : Passes (Allowed isName) text) (nonempty : text ≠ "")
    (printable : Text.Printable text) : PassesLine isName text.toList := by
  refine ⟨by simpa using nonempty, ?_, by rwa [String.ofList_toList]⟩
  intro member
  cases printable _ member

/-- **Statements mention nothing but reserved words and the names they are written over**, if
nothing is inserted into them. -/
theorem Suite.lists (identifiers : ∀ text, isName text → Names.IsIdentifier text)
    (inserted : ∀ text, isInsert text → text = "") {depth : Depth}
    (suite : Suite isName isInsert depth text) : Lists isName text := by
  have simpleLine {text : String} (simple : Simple isName text) :
      PassesLine isName text.toList := by
    have flush := simple.flush identifiers
    refine passesLine_of_printable (simple.passes identifiers) ?_ flush.printable
    rintro rfl
    obtain ⟨_, member, _⟩ := flush.visible
    cases member
  induction suite with
  | empty => exact .empty
  | append _ _ left right => exact left.append right
  | line simple =>
      exact ⟨[_], by simp, List.forall_mem_singleton.mpr (simpleLine simple)⟩
  | @compound header body head _ _ inside =>
      obtain ⟨lines, same, passes⟩ := inside
      have first : PassesLine isName (header ++ ":").toList :=
        passesLine_of_printable ((head.passes identifiers).closed (by decide)).passes (by simp)
          ((head.printable identifiers).1.append (by decide))
      exact ⟨(header ++ ":").toList :: lines, by simp [same],
        List.forall_mem_cons.mpr ⟨first, passes⟩⟩
  | indented _ inside => exact inside.indented
  | insertion insert =>
      rw [inserted _ insert]
      exact .empty
  | @innerLine text simple =>
      exact ⟨[Text.margin.toList ++ text.toList], by simp,
        List.forall_mem_singleton.mpr (Lists.margin_line (simpleLine simple))⟩

end BlockScript
