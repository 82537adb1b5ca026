import BlockScript.Proofs.Lexer.Tokens
import BlockScript.Proofs.NumberText

/-! # Tokens of the language

All code of the language is read as tokens (`Code.lexes`). Where two texts of it meet, a token never
goes on from one into the other, with one exception: a dot that is put behind digits becomes part of
the number (`Lexer.lexes_absorbed`). So the expressions that have a method called when a call is put
behind them are those that are not made of digits (`Fits.readsAsCall_iff`).
-/

namespace BlockScript

namespace Lexer

open Text

variable {ends more : Char → Bool} {first second text : String} {read before after : List Lexeme}

/-! ## Words, numbers and literals -/

instance (text : String) : Decidable (Names.IsIdentifier text) := by
  refine decidable_of_iff (Starts (fun c => !c.isDigit) text ∧
    ∀ c ∈ text.toList, Names.isPlain c = true) ⟨?_, ?_⟩
  · rintro ⟨starts, plain⟩
    obtain ⟨c, rest, same, notDigit⟩ := starts.exists_cons
    rw [same] at plain
    obtain ⟨first, others⟩ := List.forall_mem_cons.mp plain
    exact ⟨c, rest, same, first, by simpa using notDigit, others⟩
  · rintro ⟨c, rest, same, first, notDigit, others⟩
    rw [Starts, same]
    exact ⟨by simpa using notDigit, List.forall_mem_cons.mpr ⟨first, others⟩⟩

/-- A word. -/
theorem lexes_word (identifier : Names.IsIdentifier text) : Lexes isBreak text [.word text] := by
  obtain ⟨c, others, spelled, plain, notDigit, plainOthers⟩ := identifier
  have starts : Mode.start c = some (.word [c]) := by
    have notBlank : c ≠ ' ' := by
      rintro rfl
      cases plain
    have notDot : c ≠ '.' := by
      rintro rfl
      cases plain
    rw [Mode.start, if_neg notBlank, if_neg notDot, notDigit, plain]
    rfl
  have grows : ∀ d ∈ others, ∀ read, (Mode.word read).extended d = some (.word (read ++ [d])) := by
    intro d member read
    rw [Mode.extended, plainOthers d member]
    rfl
  have reads (rest : List Char) :
      tokens .between (text.toList ++ rest) = tokens (.word text.toList) rest := by
    rw [spelled, List.cons_append, tokens_start starts, tokens_extended grows]
    rfl
  refine lexes_of_mode reads ?_ ?_
  · rw [Mode.finished, String.ofList_toList]
  · intro c follows
    rw [isBreak_iff, isSeparator_iff] at follows
    rcases follows with rfl | rfl | rfl | rfl | rfl | rfl | rfl <;> rfl

/-- Digits, at any stage of a number that they do not change. -/
theorem tokens_digits {stage : Stage} (same : ∀ c : Char, c.isDigit = true → stage.next c = some stage)
    {digits : List Char} (all : ∀ c ∈ digits, c.isDigit = true) (read rest : List Char) :
    tokens (.number stage read) (digits ++ rest) = tokens (.number stage (read ++ digits)) rest := by
  apply tokens_extended
  intro c member read
  rw [Mode.extended, same c (all c member)]

/-- Digits start a number. -/
theorem tokens_whole {digits : List Char} (shape : Numeral.IsDigits digits) (rest : List Char) :
    tokens .between (digits ++ rest) = tokens (.number .whole digits) rest := by
  obtain ⟨c, others, rfl⟩ := List.exists_cons_of_ne_nil shape.1
  obtain ⟨digit, digits⟩ := List.forall_mem_cons.mp shape.2
  have starts : Mode.start c = some (.number .whole [c]) := by
    have notBlank : c ≠ ' ' := by
      rintro rfl
      cases digit
    have notDot : c ≠ '.' := by
      rintro rfl
      cases digit
    rw [Mode.start, if_neg notBlank, if_neg notDot, if_pos digit]
  rw [List.cons_append, tokens_start starts,
    tokens_digits (fun d isDigit => by rw [Stage.next, if_pos isDigit]) digits]
  rfl

/-- A point goes on with the digits behind it. -/
theorem tokens_fraction {digits : List Char} (all : ∀ c ∈ digits, c.isDigit = true)
    (read rest : List Char) :
    tokens (.number .whole read) ('.' :: (digits ++ rest)) =
      tokens (.number .fraction (read ++ '.' :: digits)) rest := by
  have point : (Mode.number .whole read).extended '.' = some (.number .fraction (read ++ ['.'])) :=
    rfl
  rw [tokens_longer point, tokens_digits (fun d isDigit => by rw [Stage.next, if_pos isDigit]) all,
    List.append_assoc]
  rfl

/-- An exponent goes on with its sign and its digits. -/
theorem tokens_exponent {stage : Stage} (early : stage = .whole ∨ stage = .fraction) {sign : Char}
    (signed : sign = '+' ∨ sign = '-') {digits : List Char} (shape : Numeral.IsDigits digits)
    (read rest : List Char) :
    tokens (.number stage read) ('e' :: sign :: (digits ++ rest)) =
      tokens (.number .scaled (read ++ 'e' :: sign :: digits)) rest := by
  obtain ⟨c, others, rfl⟩ := List.exists_cons_of_ne_nil shape.1
  obtain ⟨digit, all⟩ := List.forall_mem_cons.mp shape.2
  have mark : (Mode.number stage read).extended 'e' = some (.number .marked (read ++ ['e'])) := by
    rcases early with rfl | rfl <;> rfl
  have attached : (Mode.number .marked (read ++ ['e'])).extended sign =
      some (.number .signed (read ++ ['e'] ++ [sign])) := by
    rcases signed with rfl | rfl <;> rfl
  have scaled (read : List Char) :
      (Mode.number .signed read).extended c = some (.number .scaled (read ++ [c])) := by
    rw [Mode.extended, Stage.next, if_pos digit]
  rw [tokens_longer mark, tokens_longer attached, List.cons_append, tokens_longer (scaled _),
    tokens_digits (fun d isDigit => by rw [Stage.next, if_pos isDigit]) all]
  simp only [List.append_assoc, List.cons_append, List.nil_append]

/-- A number literal is read as one, to a stage at which it is complete. -/
theorem tokens_numeral {chars : List Char} (unsigned : Numeral.IsUnsigned chars) :
    ∃ stage, (∀ rest, tokens .between (chars ++ rest) = tokens (.number stage chars) rest) ∧
      (stage = .whole ∧ Numeral.IsDigits chars ∨ stage = .fraction ∨ stage = .scaled) := by
  obtain ⟨whole, fraction, exponent, rfl, digits, pointed, exponential⟩ := unsigned
  have early : ∃ stage, (∀ rest, tokens .between (whole ++ fraction ++ rest) =
        tokens (.number stage (whole ++ fraction)) rest) ∧
      (stage = .whole ∧ Numeral.IsDigits (whole ++ fraction) ∨ stage = .fraction) := by
    rcases pointed with rfl | ⟨places, rfl, shape⟩
    · rw [List.append_nil]
      exact ⟨.whole, tokens_whole digits, .inl ⟨rfl, digits⟩⟩
    · refine ⟨.fraction, fun rest => ?_, .inr rfl⟩
      rw [List.append_assoc, tokens_whole digits, List.cons_append, tokens_fraction shape.2]
  obtain ⟨stage, reads, kinds⟩ := early
  rcases exponential with rfl | ⟨sign, places, rfl, signed, shape⟩
  · rw [List.append_nil]
    exact ⟨stage, reads, kinds.imp_right .inl⟩
  · refine ⟨.scaled, fun rest => ?_, .inr (.inr rfl)⟩
    rw [List.append_assoc, reads, List.cons_append, List.cons_append,
      tokens_exponent (kinds.imp_left And.left) signed shape]

/-- A number literal. Only digits alone cannot stand before a dot. -/
theorem lexes_numeral (unsigned : Numeral.IsUnsigned text.toList) :
    Lexes isSeparator text [.number text] ∧
      (Numeral.IsDigits text.toList ∨ Lexes isBreak text [.number text]) := by
  obtain ⟨stage, reads, kinds⟩ := tokens_numeral unsigned
  have finished : (Mode.number stage text.toList).finished = some [.number text] := by
    rw [Mode.finished, String.ofList_toList]
    rcases kinds with ⟨rfl, _⟩ | rfl | rfl <;> rfl
  refine ⟨lexes_of_mode reads finished fun c follows => ?_, ?_⟩
  · rw [isSeparator_iff] at follows
    rcases kinds with ⟨rfl, _⟩ | rfl | rfl <;>
      rcases follows with rfl | rfl | rfl | rfl | rfl | rfl <;> rfl
  · refine kinds.imp And.right fun late => lexes_of_mode reads finished fun c follows => ?_
    rw [isBreak_iff, isSeparator_iff] at follows
    rcases late with rfl | rfl <;>
      rcases follows with rfl | rfl | rfl | rfl | rfl | rfl | rfl <;> rfl

/-- A literal that has ended stands before anything but another literal. -/
theorem extended_closed {c : Char} (follows : isBreak c = true) (read : List Char) :
    (Mode.closed read).extended c = none := by
  rw [isBreak_iff, isSeparator_iff] at follows
  rcases follows with rfl | rfl | rfl | rfl | rfl | rfl | rfl <;> rfl

/-- A character that stands for itself in a literal. -/
def IsInner (quote : Quote) (c : Char) : Prop :=
  isControl c = false ∧ c ≠ '\\' ∧ c ≠ quote.char

instance (quote : Quote) (c : Char) : Decidable (IsInner quote c) :=
  inferInstanceAs (Decidable (_ ∧ _ ∧ _))

/-- A character inside a quoted text goes on with it. -/
theorem extended_inside {quote : Quote} {c : Char} (inner : IsInner quote c) (read : List Char) :
    (Mode.inside quote read).extended c = some (.inside quote (read ++ [c])) := by
  obtain ⟨visible, backslash, other⟩ := inner
  have line : isLineEnd c = false := by
    rw [isLineEnd, Bool.or_eq_false_iff, decide_eq_false_iff_not, decide_eq_false_iff_not]
    constructor
    · rintro rfl
      cases visible
    · rintro rfl
      cases visible
  rw [Mode.extended, line, if_neg Bool.false_ne_true, if_neg backslash, if_neg other]

/-- A character behind a backslash stays in the literal. -/
theorem tokens_backslash {quote : Quote} {c : Char} (line : isLineEnd c = false)
    (read rest : List Char) :
    tokens (.inside quote read) ('\\' :: c :: rest) =
      tokens (.inside quote (read ++ ['\\', c])) rest := by
  have escapes : (Mode.inside quote read).extended '\\' = some (.escape quote (read ++ ['\\'])) :=
    rfl
  have returns : (Mode.escape quote (read ++ ['\\'])).extended c =
      some (.inside quote (read ++ ['\\'] ++ [c])) := by
    rw [Mode.extended, line, if_neg Bool.false_ne_true]
  rw [tokens_longer escapes, tokens_longer returns, List.append_assoc]
  rfl

/-- Escaped characters stay in the literal that they are written into. -/
theorem tokens_escaped (c : Char) (read rest : List Char) :
    tokens (.inside .single read) (Text.escaped c ++ rest) =
      tokens (.inside .single (read ++ Text.escaped c)) rest := by
  unfold Text.escaped
  split_ifs with backslash newline feed tab quote control
  · exact tokens_backslash rfl read rest
  · exact tokens_backslash rfl read rest
  · exact tokens_backslash rfl read rest
  · exact tokens_backslash rfl read rest
  · exact tokens_backslash rfl read rest
  · have inner : ∀ d ∈ Text.hex 2 c.toNat, IsInner .single d := by
      have digit (k : Nat) : IsInner .single (Text.hexDigit (k % 16)) :=
        Text.hexDigit_of_lt (Nat.mod_lt k (by decide))
      simp only [Text.hex, List.nil_append, List.singleton_append, List.forall_mem_cons]
      exact ⟨digit _, digit _, List.forall_mem_nil _⟩
    rw [List.cons_append, List.cons_append, tokens_backslash rfl,
      tokens_extended fun d member => extended_inside (inner d member), List.append_assoc]
    rfl
  · have inner : IsInner .single c := ⟨by simpa using control, backslash, quote⟩
    exact tokens_longer (extended_inside inner read) rest

/-- A quoted text. -/
theorem lexes_quoted (content : String) :
    Lexes isBreak (Text.quoted content) [.literal (Text.quoted content)] := by
  have inside (chars read rest : List Char) :
      tokens (.inside .single read) (chars.flatMap Text.escaped ++ rest) =
        tokens (.inside .single (read ++ chars.flatMap Text.escaped)) rest := by
    induction chars generalizing read with
    | nil => rw [List.flatMap_nil, List.nil_append, List.append_nil]
    | cons c chars ih =>
        rw [List.flatMap_cons, List.append_assoc, tokens_escaped, ih, List.append_assoc]
  have reads (rest : List Char) : tokens .between ((Text.quoted content).toList ++ rest) =
      tokens (.closed (Text.quoted content).toList) rest := by
    have starts : Mode.start '\'' = some (.inside .single ['\'']) := rfl
    have ends (read : List Char) :
        (Mode.inside .single read).extended '\'' = some (.closed (read ++ ['\''])) := rfl
    rw [Text.quoted, String.toList_ofList, List.append_assoc, List.cons_append,
      tokens_start starts, inside]
    exact tokens_longer (ends _) rest
  exact lexes_of_mode reads (by rw [Mode.finished, String.ofList_toList])
    fun c follows => extended_closed follows _

/-- A label between double quotes. -/
theorem lexes_label (known : text ∈ labelTexts) :
    Lexes isBreak ("\"" ++ text ++ "\"") [.literal ("\"" ++ text ++ "\"")] := by
  have inner : ∀ text ∈ labelTexts, ∀ c ∈ text.toList, IsInner .double c := by decide
  have reads (rest : List Char) : tokens .between (("\"" ++ text ++ "\"").toList ++ rest) =
      tokens (.closed ("\"" ++ text ++ "\"").toList) rest := by
    have starts : Mode.start '"' = some (.inside .double ['"']) := rfl
    have ends (read : List Char) :
        (Mode.inside .double read).extended '"' = some (.closed (read ++ ['"'])) := rfl
    have chars : ("\"" ++ text ++ "\"").toList = '"' :: (text.toList ++ ['"']) := by simp
    rw [chars, List.cons_append, tokens_start starts, List.append_assoc,
      tokens_extended fun c member => extended_inside (inner text known c member)]
    exact tokens_longer (ends _) rest
  exact lexes_of_mode reads (by rw [Mode.finished, String.ofList_toList])
    fun c follows => extended_closed follows _

/-! ## Brackets, operators and dots -/

/-- Brackets are tokens of their own. -/
theorem lexes_bracket (known : text ∈ ["(", ")", "[", "]"]) : Lexes isAny text [.sign text] := by
  have alone : ∀ mark ∈ ['(', ')', '[', ']'], ∀ sign ∈ signs,
      sign.toList.head? = some mark → sign.toList.length = 1 := by decide
  have single {mark : Char} (listed : mark ∈ ['(', ')', '[', ']']) (c : Char) :
      (Mode.sign [mark]).extended c = none := by
    refine if_neg fun sign => ?_
    have length := alone mark listed _ sign (by simp)
    simp at length
  simp only [List.mem_cons, List.not_mem_nil, or_false] at known
  rcases known with rfl | rfl | rfl | rfl
  · exact lexes_of_mode (tokens_start rfl) rfl fun c _ => single (by decide) c
  · exact lexes_of_mode (tokens_start rfl) rfl fun c _ => single (by decide) c
  · exact lexes_of_mode (tokens_start rfl) rfl fun c _ => single (by decide) c
  · exact lexes_of_mode (tokens_start rfl) rfl fun c _ => single (by decide) c

/-- A text in brackets, behind another one. -/
theorem Lexes.enclose (left : Lexes ends first before) (inside : Lexes isSeparator text read)
    {opening closing : String} (opens : opening ∈ ["(", "["]) (closes : closing ∈ [")", "]"])
    (starts : Starts ends opening) :
    Lexes isAny (first ++ opening ++ text ++ closing)
      (before ++ [.sign opening] ++ read ++ [.sign closing]) := by
  have brackets : ∀ mark ∈ ["(", "["] ++ [")", "]"], mark ∈ ["(", ")", "[", "]"] := by decide
  have closed : ∀ mark ∈ [")", "]"], Starts isSeparator mark := by decide
  have opened := left.append (lexes_bracket (brackets _ (List.mem_append_left _ opens))) starts
  exact (opened.follow inside).append (lexes_bracket (brackets _ (List.mem_append_right _ closes)))
    (closed closing closes)

/-- A text in brackets. -/
theorem Lexes.bracketed (inside : Lexes isSeparator text read) {opening closing : String}
    (opens : opening ∈ ["(", "["]) (closes : closing ∈ [")", "]"]) :
    Lexes isAny (opening ++ text ++ closing) ([.sign opening] ++ read ++ [.sign closing]) := by
  have starts : ∀ mark ∈ ["(", "["], Starts isAny mark := by decide
  have whole := (lexes_empty : Lexes isAny "" []).enclose inside opens closes (starts opening opens)
  simpa using whole

/-- Texts on both sides of one between blanks. -/
theorem Lexes.joined (left : Lexes isSeparator first before) (glue : String)
    (right : Lexes more second after) (known : (lexemes glue).isSome = true)
    (blank : glue.toList.getLast? = some ' ') (starts : Starts isSeparator glue) :
    ∃ read, Lexes more (first ++ glue ++ second) read := by
  obtain ⟨between, same⟩ := Option.isSome_iff_exists.mp known
  exact ⟨_, (left.append (lexes_of_blank same blank) starts).follow right⟩

/-- A character that a minus or a colon makes no other sign with. -/
def isApart (c : Char) : Bool := c ≠ '=' && c ≠ '>'

/-- A minus or a colon is a sign of its own before a character that is apart from it. -/
theorem lexes_leading (known : text ∈ ["-", ":"]) : Lexes isApart text [.sign text] := by
  have longer : ∀ mark ∈ ['-', ':'], ∀ sign ∈ signs, sign.toList.head? = some mark →
      sign.toList[1]?.all (fun c => !isApart c) = true := by decide
  have single {mark : Char} (listed : mark ∈ ['-', ':']) {c : Char} (operand : isApart c = true) :
      (Mode.sign [mark]).extended c = none := by
    refine if_neg fun sign => ?_
    have other := longer mark listed _ sign (by simp)
    simp [operand] at other
  simp only [List.mem_cons, List.not_mem_nil, or_false] at known
  rcases known with rfl | rfl
  · exact lexes_of_mode (tokens_start rfl) rfl fun c => single (by decide)
  · exact lexes_of_mode (tokens_start rfl) rfl fun c => single (by decide)

/-- A character that a dot makes no number with. -/
def isAttribute (c : Char) : Bool := !c.isDigit && c ≠ '.'

/-- A dot is read before an attribute. -/
theorem lexes_dot : Lexes isAttribute "." [.sign "."] := by
  refine lexes_of_mode (tokens_start rfl) rfl fun c follows => ?_
  have apart : c.isDigit = false ∧ c ≠ '.' := by simpa [isAttribute] using follows
  rw [Mode.extended, apart.1, if_neg Bool.false_ne_true, if_neg apart.2]

/-- The methods that are called are identifiers. -/
theorem isIdentifier_of_method {method : String} (known : method ∈ calledMethods) :
    Names.IsIdentifier method := by
  revert method
  decide

/-- What calls a method: a dot, the name and a bracket. -/
theorem lexes_access {method : String} (known : method ∈ calledMethods) :
    Lexes isAny ("." ++ method ++ "(") [.sign ".", .word method, .sign "("] := by
  have starts : ∀ method ∈ calledMethods, Starts isAttribute method := by decide
  have name := lexes_dot.append (lexes_word (isIdentifier_of_method known)) (starts method known)
  exact name.append (lexes_bracket (by decide)) (by decide)

/-- A point behind digits belongs to the number. -/
theorem tokens_point {chars : List Char} (digits : Numeral.IsDigits chars) (rest : List Char) :
    tokens .between (chars ++ '.' :: rest) = tokens (.number .fraction (chars ++ ['.'])) rest := by
  have point : (Mode.number .whole chars).extended '.' =
      some (.number .fraction (chars ++ ['.'])) := rfl
  rw [tokens_whole digits, tokens_longer point]

/-- A character that a number with a point ends before. -/
def endsFraction (c : Char) : Bool := Stage.fraction.next c = none && Stage.fraction.endsBefore c

/-- Digits with a point are a number, where it ends there. -/
theorem lexes_point (digits : Numeral.IsDigits text.toList) :
    Lexes endsFraction (text ++ ".") [.number (text ++ ".")] := by
  have reads (rest : List Char) : tokens .between ((text ++ ".").toList ++ rest) =
      tokens (.number .fraction (text ++ ".").toList) rest := by
    rw [String.toList_append, List.append_assoc]
    exact tokens_point digits rest
  refine lexes_of_mode reads ?_ fun c follows => ?_
  · rw [Mode.finished, String.ofList_toList]
    rfl
  · obtain ⟨none, ends⟩ : Stage.fraction.next c = none ∧ Stage.fraction.endsBefore c = true := by
      simpa [endsFraction] using follows
    rw [Mode.extended, none, if_pos ends]

/-- Digits with a point and the mark of imaginary numbers are one number. -/
theorem lexes_imaginary (digits : Numeral.IsDigits text.toList) :
    Lexes isAny (text ++ ".j") [.number (text ++ ".j")] := by
  have reads (rest : List Char) : tokens .between ((text ++ ".j").toList ++ rest) =
      tokens (.number .imaginary (text ++ ".j").toList) rest := by
    have mark : (Mode.number .fraction (text.toList ++ ['.'])).extended 'j' =
        some (.number .imaginary (text.toList ++ ['.'] ++ ['j'])) := rfl
    rw [String.toList_append, List.append_assoc]
    have point := tokens_point digits ('j' :: rest)
    rw [tokens_longer mark, List.append_assoc] at point
    exact point
  refine lexes_of_mode reads ?_ fun c _ => rfl
  rw [Mode.finished, String.ofList_toList]
  rfl

/-- **A dot behind digits belongs to the number**, and so does the first letter of a method if it is
the mark of an imaginary number. -/
theorem lexes_absorbed (digits : Numeral.IsDigits text.toList) {method : String}
    (known : method ∈ calledMethods) :
    ∃ taken left, method = taken ++ left ∧
      Lexes isBreak (text ++ "." ++ method) [.number (text ++ ("." ++ taken)), .word left] := by
  have cases : ∀ method ∈ calledMethods, method = "j" ++ "oin" ∨ Starts endsFraction method := by
    decide
  rcases cases method known with rfl | starts
  · have remainder : Names.IsIdentifier "oin" := ⟨'o', "in".toList, rfl, rfl, rfl, by decide⟩
    have both := (lexes_imaginary digits).follow (lexes_word remainder)
    refine ⟨"j", "oin", rfl, ?_⟩
    rw [String.append_assoc] at both ⊢
    exact both
  · refine ⟨"", method, by simp, ?_⟩
    exact (lexes_point digits).append (lexes_word (isIdentifier_of_method known)) starts

end Lexer

/-! ## Code of the language -/

open Lexer Text

/-- How a text of the language is read by its part in an expression. What binds as tightly as a
subscript may stand before a dot, unless it is made of digits. -/
def Role.Lexes : Role → String → Prop
  | .value order, text =>
      ∃ read, Lexer.Lexes isSeparator text read ∧
        (Order.member.rank ≤ order.rank →
          Numeral.IsDigits text.toList ∨ Lexer.Lexes isBreak text read)
  | .items, text | .bound, text | .subscript, text => ∃ read, Lexer.Lexes isSeparator text read

namespace Code

/-- Plain characters are apart from signs. -/
theorem isApart_of_isPlain {c : Char} (plain : Names.isPlain c = true) : isApart c = true := by
  have signs : ∀ sign ∈ ['=', '>'], Names.isPlain sign = false := by decide
  have apart {sign : Char} (listed : sign ∈ ['=', '>']) : c ≠ sign := by
    rintro rfl
    cases plain.symm.trans (signs c listed)
  simp [isApart, apart (show '=' ∈ _ by decide), apart (show '>' ∈ _ by decide)]

/-- The functions that are called are read, with modules and dots. -/
theorem lexes_calledFunction {function : String} (known : function ∈ calledFunctions) :
    ∃ read, Lexer.Lexes isBreak function read := by
  have all : ∀ function ∈ calledFunctions, Names.IsIdentifier function ∨
      function = "random" ++ ("." ++ "random") ∨ function = "random" ++ ("." ++ "choice") := by
    decide
  have member {name : String} (word : Names.IsIdentifier name) (starts : Starts isAttribute name) :
      ∃ read, Lexer.Lexes isBreak ("random" ++ ("." ++ name)) read := by
    have dot : Starts isBreak "." := by decide
    have access := lexes_dot.append (lexes_word word) starts
    have module : Lexer.Lexes isBreak "random" [.word "random"] := lexes_word (by decide)
    exact ⟨_, module.append access (dot.append name)⟩
  rcases all function known with word | rfl | rfl
  · exact ⟨_, lexes_word word⟩
  · exact member (by decide) (by decide)
  · exact member (by decide) (by decide)

/-- **All code of the language is read as tokens.** -/
theorem lexes {role : Role} {text : String} (code : Code Names.IsName role text) :
    role.Lexes text := by
  have separates (c : Char) (separator : isSeparator c = true) : isBreak c = true :=
    isBreak_iff.mpr (.inr separator)
  have tight {order : Order} {text : String} {read : List Lexeme}
      (lexes : Lexer.Lexes isBreak text read) : Role.Lexes (.value order) text :=
    ⟨read, lexes.mono separates, fun _ => .inr lexes⟩
  have closed {order : Order} {text : String} {read : List Lexeme}
      (lexes : Lexer.Lexes isAny text read) : Role.Lexes (.value order) text :=
    tight (lexes.mono fun _ _ => rfl)
  have loose {order : Order} (loose : ¬ Order.member.rank ≤ order.rank) {text : String}
      {read : List Lexeme} (lexes : Lexer.Lexes isSeparator text read) :
      Role.Lexes (.value order) text :=
    ⟨read, lexes, fun tight => (loose tight).elim⟩
  have named {text : String} (name : Names.IsName text) : Lexer.Lexes isBreak text [.word text] :=
    lexes_word name.1
  induction code with
  | name name => exact tight (named name)
  | constant known =>
      have all : ∀ word ∈ constantWords, Names.IsIdentifier word := by decide
      exact tight (lexes_word (all _ known))
  | numeral unsigned =>
      obtain ⟨separate, dotted⟩ := lexes_numeral unsigned
      exact ⟨_, separate, fun _ => dotted⟩
  | quoted text => exact tight (lexes_quoted text)
  | label known => exact tight (lexes_label known)
  | grouped _ inside =>
      obtain ⟨_, inner, _⟩ := inside
      exact closed (inner.bracketed (by decide) (by decide))
  | display _ inside =>
      obtain ⟨_, inner⟩ := inside
      exact closed (inner.bracketed (by decide) (by decide))
  | comprehension _ name _ element source =>
      obtain ⟨_, first, _⟩ := element
      obtain ⟨_, last, _⟩ := source
      obtain ⟨_, bound⟩ := first.joined " for " ((named name).mono separates) (by decide)
        (by decide) (by decide)
      obtain ⟨_, inner⟩ := bound.joined " in " last (by decide) (by decide) (by decide)
      have whole := inner.bracketed (show "[" ∈ _ by decide) (show "]" ∈ _ by decide)
      simp only [String.append_assoc] at whole ⊢
      exact closed whole
  | maxsize =>
      have module : Lexer.Lexes isBreak "sys" [.word "sys"] := lexes_word (by decide)
      have member : Lexer.Lexes isBreak "maxsize" [.word "maxsize"] := lexes_word (by decide)
      exact tight (module.append (lexes_dot.append member (by decide)) (by decide))
  | call known _ inside =>
      obtain ⟨_, inner⟩ := inside
      obtain ⟨_, function⟩ := known.elim (fun name => ⟨_, named name⟩) lexes_calledFunction
      exact closed (function.enclose inner (by decide) (by decide) (by decide))
  | method _ enough known _ receiver inside =>
      obtain ⟨_, inner⟩ := inside
      obtain ⟨_, _, dotted⟩ := receiver
      have starts : Starts isBreak "." := by decide
      rcases dotted enough with digits | before
      · obtain ⟨_, _, _, call⟩ := lexes_absorbed digits known
        have whole := call.enclose inner (show "(" ∈ _ by decide) (show ")" ∈ _ by decide)
          (by decide)
        simp only [String.append_assoc] at whole ⊢
        exact closed whole
      · have call := before.append (lexes_access known) ((starts.append _).append _)
        exact closed ((call.follow inner).append (lexes_bracket (by decide)) (by decide))
  | element _ enough _ receiver inside =>
      obtain ⟨_, inner⟩ := inside
      obtain ⟨_, separate, _⟩ := receiver
      exact closed (separate.enclose inner (by decide) (by decide) (by decide))
  | negative code enough operand =>
      obtain ⟨_, separate, _⟩ := operand
      have starts : Starts isApart _ := code.starts (fun _ named => named.1)
        (fun _ => isApart_of_isPlain) (by decide) (.inl enough)
      exact loose (by decide) ((lexes_leading (by decide)).append separate starts)
  | operation known _ _ _ _ left right =>
      obtain ⟨_, first, _⟩ := left
      obtain ⟨_, second, _⟩ := right
      have all : ∀ entry ∈ binaryOperators, ¬ Order.member.rank ≤ entry.2.rank ∧
          (lexemes (" " ++ entry.1 ++ " ")).isSome = true ∧
          (" " ++ entry.1 ++ " ").toList.getLast? = some ' ' ∧
          Starts isSeparator (" " ++ entry.1 ++ " ") := by decide
      obtain ⟨low, known, blank, starts⟩ := all _ known
      obtain ⟨_, whole⟩ := first.joined _ second known blank starts
      exact loose low whole
  | negation _ _ operand =>
      obtain ⟨_, separate, _⟩ := operand
      have word : Lexer.Lexes isAny "not " [.word "not"] := lexes_of_blank (by decide) (by decide)
      exact loose (by decide) (word.follow separate)
  | noItem => exact ⟨_, lexes_empty⟩
  | lastItem _ item =>
      obtain ⟨_, separate, _⟩ := item
      exact ⟨_, separate⟩
  | item _ _ first others =>
      obtain ⟨_, separate, _⟩ := first
      obtain ⟨_, rest⟩ := others
      exact separate.joined ", " rest (by decide) (by decide) (by decide)
  | openBound => exact ⟨_, lexes_empty⟩
  | bound _ inside =>
      obtain ⟨_, separate, _⟩ := inside
      exact ⟨_, separate⟩
  | position _ inside =>
      obtain ⟨_, separate, _⟩ := inside
      exact ⟨_, separate⟩
  | slice _ _ first last =>
      obtain ⟨_, left⟩ := first
      obtain ⟨_, right⟩ := last
      exact left.joined " : " right (by decide) (by decide) (by decide)
  | backwards =>
      have one : Lexer.Lexes isSeparator "1" [.number "1"] :=
        (lexes_numeral (Numeral.isUnsigned_toString 1)).1
      have minus := (lexes_leading (show "-" ∈ _ by decide)).append one (by decide)
      have colon := (lexes_leading (show ":" ∈ _ by decide)).append minus (by decide)
      exact ⟨_, (lexes_leading (show ":" ∈ _ by decide)).append colon (by decide)⟩

end Code

/-- The call of a method is read as the receiver, a dot, the name and a bracket. -/
def ReadsAsCall (receiver method : String) : Prop :=
  ∃ read, lexemes receiver = some read ∧
    lexemes (receiver ++ ("." ++ method ++ "(")) =
      some (read ++ [.sign ".", .word method, .sign "("])

/-- **What may stand before a dot.** Of the expressions that bind as tightly as a subscript, only
those that are made of digits have no method called when a call is put behind them. -/
theorem Fits.readsAsCall_iff {receiver method : String}
    (fits : Fits Names.IsName .member receiver) (known : method ∈ calledMethods) :
    ReadsAsCall receiver method ↔ ¬ Numeral.IsDigits receiver.toList := by
  have starts : Starts isBreak "." := by decide
  obtain ⟨order, enough, code⟩ := fits
  obtain ⟨read, separate, dotted⟩ := code.lexes
  constructor
  · rintro ⟨tokens, alone, called⟩ digits
    -- The dot becomes part of the number, so there is one token less.
    have number := (lexes_numeral digits.isUnsigned).1.lexemes_eq
    obtain ⟨taken, left, -, absorbed⟩ := lexes_absorbed digits known
    have call := (absorbed.append (lexes_bracket (show "(" ∈ _ by decide)) (by decide)).lexemes_eq
    simp only [String.append_assoc] at call called
    rw [number, Option.some.injEq] at alone
    rw [call, Option.some.injEq, ← alone] at called
    simpa using congrArg List.length called
  · intro other
    have before := (dotted enough).resolve_left other
    have call := before.append (lexes_access known) ((starts.append method).append "(")
    exact ⟨read, before.lexemes_eq, call.lexemes_eq⟩

example : lexemes "0.5.upper(" =
    some [.number "0.5", .sign ".", .word "upper", .sign "("] := by decide

example : lexemes "5.upper(" = some [.number "5.", .word "upper", .sign "("] := by decide

end BlockScript
