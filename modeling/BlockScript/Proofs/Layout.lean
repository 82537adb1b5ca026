import BlockScript.Proofs.Lines
import BlockScript.Proofs.Printable
import BlockScript.Proofs.Reach

/-! # The layout of statements

Statements are laid out by indentation: a line that ends with a colon is followed by a body, whose
first line is indented by one level more, and no other line is followed by one that is indented more
(`Text.Layout`). Chains of blocks and procedures are laid out so (`Setting.chain_layout`), also when
code of one line is put into the bodies of loops and procedures.
-/

namespace BlockScript

namespace Text

/-- The number of spaces that a line starts with. -/
def indentation (line : List Char) : Nat := (line.takeWhile (· = ' ')).length

/-- Whether a line ends with a colon, so that a body has to follow. -/
def opensBody (line : List Char) : Bool := line.getLast? = some ':'

/-- The lines of a text that are ended by a newline. -/
def lines (text : String) : List (List Char) := (splitLines text.toList).dropLast

/-- Lines of which each is indented as the one before it asks for: by one level more after a colon,
and by no more than before otherwise. The last line asks for nothing. -/
def Hangs : List (List Char) → Prop
  | [] => True
  | [line] => opensBody line = false
  | line :: next :: rest =>
      (if opensBody line then indentation next = indentation line + 4
        else indentation next ≤ indentation line) ∧ Hangs (next :: rest)

/-- The layout of statements at the left margin. -/
structure Layout (text : String) : Prop where
  terminated : text = "" ∨ text.toList.getLast? = some '\n'
  printable : ∀ c ∈ text.toList, isControl c = true → c = '\n'
  visible : ∀ line ∈ lines text, ∃ c ∈ line, isSpace c = false
  first : ∀ line ∈ (lines text).head?, indentation line = 0
  aligned : ∀ line ∈ lines text, 4 ∣ indentation line
  hangs : Hangs (lines text)

/-! ## Lines at a margin -/

/-- Lines that start at a margin and stay behind it. -/
structure Laid (margin : Nat) (lines : List (List Char)) : Prop where
  printable : ∀ line ∈ lines, ∀ c ∈ line, isControl c = false
  visible : ∀ line ∈ lines, ∃ c ∈ line, isSpace c = false
  first : ∀ line ∈ lines.head?, indentation line = margin
  behind : ∀ line ∈ lines, margin ≤ indentation line
  aligned : ∀ line ∈ lines, 4 ∣ indentation line
  hangs : Hangs lines

/-- Lines hang together with others that are not indented deeper than the last of them. -/
theorem Hangs.append {first second : List (List Char)} (left : Hangs first) (right : Hangs second)
    (falls : ∀ last ∈ first.getLast?, ∀ next ∈ second.head?, indentation next ≤ indentation last) :
    Hangs (first ++ second) := by
  induction first with
  | nil => exact right
  | cons line rest ih =>
      cases rest with
      | nil =>
          cases second with
          | nil => exact left
          | cons next others =>
              have closed : opensBody line = false := left
              refine ⟨?_, right⟩
              rw [closed]
              exact falls line rfl next rfl
      | cons other others =>
          exact ⟨left.1, ih left.2 fun last member => falls last (by simpa using member)⟩

/-- A margin indents a line by four. -/
theorem indentation_append_margin (line : List Char) :
    indentation (margin.toList ++ line) = indentation line + 4 := by
  simp [indentation, margin]

/-- A margin does not make a line open a body. -/
theorem opensBody_append_margin {line : List Char} (nonempty : line ≠ []) :
    opensBody (margin.toList ++ line) = opensBody line := by
  obtain ⟨c, last⟩ := Option.ne_none_iff_exists'.mp (mt List.getLast?_eq_none_iff.mp nonempty)
  simp [opensBody, List.getLast?_append, last]

/-- A further margin moves all lines alike. -/
theorem Hangs.map_margin {lines : List (List Char)} (nonempty : ∀ line ∈ lines, line ≠ [])
    (hangs : Hangs lines) : Hangs (lines.map (margin.toList ++ ·)) := by
  induction lines with
  | nil => trivial
  | cons line rest ih =>
      have same := opensBody_append_margin (nonempty line (List.mem_cons_self ..))
      cases rest with
      | nil => exact same.trans hangs
      | cons next others =>
          refine ⟨?_, ih (fun other member => nonempty other (List.mem_cons_of_mem _ member))
            hangs.2⟩
          have step := hangs.1
          simp only [same, indentation_append_margin]
          split at step
          · rename_i opens
            simp only [opens, ↓reduceIte]
            omega
          · rename_i closed
            simp only [closed, Bool.false_eq_true, ↓reduceIte]
            omega

namespace Laid

variable {level : Nat} {first second lines : List (List Char)}

theorem nil : Laid level [] :=
  ⟨fun _ member => (nomatch member), fun _ member => (nomatch member),
    fun _ member => (nomatch member), fun _ member => (nomatch member),
    fun _ member => (nomatch member), trivial⟩

/-- No line is empty. -/
theorem line_ne_nil (laid : Laid level lines) : ∀ line ∈ lines, line ≠ [] := by
  rintro line member rfl
  obtain ⟨c, none, _⟩ := laid.visible [] member
  cases none

/-- No line has a new line in it. -/
theorem line_whole (laid : Laid level lines) : ∀ line ∈ lines, '\n' ∉ line := by
  intro line member newline
  have := laid.printable line member '\n' newline
  cases this

/-- Lines that are laid out at one level may follow each other. -/
theorem append (left : Laid level first) (right : Laid level second) :
    Laid level (first ++ second) where
  printable line member := (List.mem_append.mp member).elim (left.printable line)
    (right.printable line)
  visible line member := (List.mem_append.mp member).elim (left.visible line) (right.visible line)
  first line member := by
    cases first with
    | nil => exact right.first line member
    | cons _ _ => exact left.first line member
  behind line member := (List.mem_append.mp member).elim (left.behind line) (right.behind line)
  aligned line member := (List.mem_append.mp member).elim (left.aligned line) (right.aligned line)
  hangs := by
    refine left.hangs.append right.hangs fun last member next follows => ?_
    rw [right.first next follows]
    exact left.behind last (List.mem_of_getLast? member)

/-- Lines behind one more margin. -/
theorem map_margin (laid : Laid level lines) :
    Laid (level + 4) (lines.map (margin.toList ++ ·)) where
  printable line member c among := by
    obtain ⟨inner, listed, rfl⟩ := List.mem_map.mp member
    rcases List.mem_append.mp among with among | among
    · have blank : ∀ c ∈ margin.toList, isControl c = false := by decide
      exact blank c among
    · exact laid.printable inner listed c among
  visible line member := by
    obtain ⟨inner, listed, rfl⟩ := List.mem_map.mp member
    obtain ⟨c, among, seen⟩ := laid.visible inner listed
    exact ⟨c, List.mem_append_right _ among, seen⟩
  first line member := by
    cases lines with
    | nil => cases member
    | cons inner rest =>
        cases member
        rw [indentation_append_margin, laid.first inner rfl]
  behind line member := by
    obtain ⟨inner, listed, rfl⟩ := List.mem_map.mp member
    rw [indentation_append_margin]
    exact Nat.add_le_add_right (laid.behind inner listed) 4
  aligned line member := by
    obtain ⟨inner, listed, rfl⟩ := List.mem_map.mp member
    rw [indentation_append_margin]
    exact Nat.dvd_add (laid.aligned inner listed) (Nat.dvd_refl 4)
  hangs := laid.hangs.map_margin laid.line_ne_nil

end Laid

/-- A line that stands at the margin and opens no body. -/
structure Flush (line : List Char) : Prop where
  printable : ∀ c ∈ line, isControl c = false
  visible : ∃ c ∈ line, isSpace c = false
  unindented : line.head? ≠ some ' '
  closed : line.getLast? ≠ some ':'

/-- A line that starts with no blank is not indented. -/
theorem indentation_of_head? {line : List Char} (unindented : line.head? ≠ some ' ') :
    indentation line = 0 := by
  cases line with
  | nil => rfl
  | cons c rest =>
      have apart : c ≠ ' ' := by simpa using unindented
      simp [indentation, apart]

/-- A line that starts at the edge is laid out at the level of the edge. -/
theorem Flush.laid {line : List Char} (flush : Flush line) : Laid 0 [line] where
  printable other member := by
    rw [List.mem_singleton.mp member]
    exact flush.printable
  visible other member := by
    rw [List.mem_singleton.mp member]
    exact flush.visible
  first other member := by
    cases member
    exact indentation_of_head? flush.unindented
  behind _ _ := Nat.zero_le _
  aligned other member := by
    rw [List.mem_singleton.mp member, indentation_of_head? flush.unindented]
    exact Nat.dvd_zero 4
  hangs := by simpa [Hangs, opensBody] using flush.closed

/-- Text that starts visibly is not indented, and not blank. -/
theorem Starts.unindented {text : String} (starts : Starts isVisible text) :
    text.toList.head? ≠ some ' ' ∧ ∃ c ∈ text.toList, isSpace c = false := by
  obtain ⟨c, rest, same, seen⟩ := starts.exists_cons
  refine ⟨?_, c, by simp [same], by simpa [isVisible] using seen⟩
  rw [same]
  rintro ⟨⟩
  revert seen
  decide

/-- A line that ends with a colon, with its body behind it. -/
theorem Laid.compound {header : String} {body : List (List Char)} (printable : Printable header)
    (starts : Starts isVisible header) (laid : Laid 4 body) (nonempty : body ≠ []) :
    Laid 0 ((header ++ ":").toList :: body) := by
  obtain ⟨unindented, visible⟩ := (starts.append ":").unindented
  have flat := indentation_of_head? unindented
  refine ⟨List.forall_mem_cons.mpr ⟨printable.append (by decide), laid.printable⟩,
    List.forall_mem_cons.mpr ⟨visible, laid.visible⟩, ?_, fun _ _ => Nat.zero_le _,
    List.forall_mem_cons.mpr ⟨?_, laid.aligned⟩, ?_⟩
  · rintro line ⟨⟩
    exact flat
  · rw [flat]
    exact Nat.dvd_zero 4
  · obtain ⟨next, rest, rfl⟩ := List.exists_cons_of_ne_nil nonempty
    refine ⟨?_, laid.hangs⟩
    have opens : opensBody (header ++ ":").toList = true := by simp [opensBody]
    rw [opens, flat]
    exact laid.first next rfl

/-- A text of lines that start at a margin. -/
def Lays (level : Nat) (text : String) : Prop :=
  ∃ lines, text.toList = Text.terminated lines ∧ Laid level lines

namespace Lays

variable {level : Nat} {text first second : String}

/-- Texts that are laid out at one level may follow each other. -/
theorem append (left : Lays level first) (right : Lays level second) :
    Lays level (first ++ second) := by
  obtain ⟨before, same, laid⟩ := left
  obtain ⟨after, same', laid'⟩ := right
  exact ⟨before ++ after, by rw [String.toList_append, same, same', terminated_append],
    laid.append laid'⟩

/-- Indented text is laid out one level deeper. -/
theorem indented (lays : Lays level text) : Lays (level + 4) (Text.indented text Text.margin) := by
  obtain ⟨lines, same, laid⟩ := lays
  refine ⟨lines.map (Text.margin.toList ++ ·), ?_, laid.map_margin⟩
  rw [Text.indented, String.toList_ofList, same,
    indentedChars_terminated laid.line_ne_nil laid.line_whole]

/-- A text of lines that start at the left margin has the layout of statements. -/
theorem layout (lays : Lays 0 text) : Layout text := by
  obtain ⟨all, same, laid⟩ := lays
  have split : lines text = all := by
    rw [lines, same, splitLines_terminated laid.line_whole, List.dropLast_concat]
  refine ⟨?_, ?_, ?_, ?_, ?_, ?_⟩
  · rcases List.eq_nil_or_concat all with rfl | ⟨start, line, rfl⟩
    · exact .inl (by simpa using same)
    · exact .inr (by simp [same])
  · intro c member control
    rw [same, Text.terminated, List.mem_flatMap] at member
    obtain ⟨line, listed, among⟩ := member
    rcases List.mem_append.mp among with among | among
    · have := laid.printable line listed c among
      simp [control] at this
    · exact List.mem_singleton.mp among
  · rw [split]
    exact laid.visible
  · rw [split]
    exact laid.first
  · rw [split]
    exact laid.aligned
  · rw [split]
    exact laid.hangs

end Lays

/-- A flush line is laid out at the edge. -/
theorem Flush.lays {line : String} (flush : Flush line.toList) : Lays 0 (line ++ "\n") :=
  ⟨[line.toList], by simp, flush.laid⟩

/-- A printable line that starts visibly and opens no body is flush. -/
theorem flush_of {line : String} (printable : Printable line) (starts : Starts isVisible line)
    (ends : Ends (· ≠ ':') line) : Flush line.toList := by
  obtain ⟨unindented, visible⟩ := starts.unindented
  refine ⟨printable, visible, unindented, ?_⟩
  intro last
  simp [Ends, last] at ends

/-- Texts with separators end as the last of them does. -/
theorem Ends.intercalate {property : Char → Bool} {separator : String} {texts : List String}
    (nonempty : texts ≠ []) (all : ∀ text ∈ texts, Ends property text) :
    Ends property (String.intercalate separator texts) := by
  induction texts with
  | nil => exact (nonempty rfl).elim
  | cons text rest ih =>
      cases rest with
      | nil =>
          rw [String.intercalate_singleton]
          exact all text (List.mem_cons_self ..)
      | cons next rest =>
          rw [String.intercalate_cons_cons]
          have later := ih (by simp) fun other member => all other (List.mem_cons_of_mem _ member)
          exact later.append _

end Text

open Text

variable {isName isInsert : String → Prop}

/-- Simple code is a flush line, if names are identifiers. -/
theorem Simple.flush (identifiers : ∀ text, isName text → Names.IsIdentifier text) {text : String}
    (simple : Simple isName text) : Flush text.toList := by
  cases simple with
  | expression code =>
      exact flush_of (code.printable identifiers) (code.starts_visible identifiers)
        (code.ends identifiers)
  | assignment target source =>
      refine flush_of ?_ (((target.starts_visible identifiers).append _).append _)
        ((source.ends identifiers).append _)
      exact ((target.printable identifiers).append (by decide)).append
        (source.printable identifiers)
  | nothing => exact flush_of (by decide) (by decide) (by decide)
  | leave => exact flush_of (by decide) (by decide) (by decide)
  | answer code =>
      exact flush_of (Printable.append (by decide) (code.printable identifiers))
        (Starts.append (by decide) _) ((code.ends identifiers).append _)
  | globals nonempty named =>
      have separator : Printable ", " := by decide
      refine flush_of (Printable.append (by decide) (separator.intercalate ?_))
        (Starts.append (by decide) _) ((Ends.intercalate nonempty ?_).append _)
      · exact fun name member => (Code.name (named name member)).printable identifiers
      · exact fun name member => (Code.name (named name member)).ends identifiers

/-- A header is printable and starts visibly, if names are identifiers. -/
theorem Header.printable (identifiers : ∀ text, isName text → Names.IsIdentifier text)
    {text : String} (header : Header isName text) : Printable text ∧ Starts isVisible text := by
  cases header with
  | condition known code =>
      have words : ∀ word ∈ conditionWords, Printable word ∧ Starts isVisible word := by decide
      obtain ⟨printable, starts⟩ := words _ known
      exact ⟨(printable.append (by decide)).append (code.printable identifiers),
        (starts.append _).append _⟩
  | otherwise => exact ⟨by decide, by decide⟩
  | loop named code =>
      have name := (Code.name named).printable identifiers
      exact ⟨((Printable.append (by decide) name).append (by decide)).append
        (code.printable identifiers), ((Starts.append (by decide) _).append _).append _⟩
  | definition named params =>
      have name := (Code.name named).printable identifiers
      have separator : Printable ", " := by decide
      refine ⟨(((Printable.append (by decide) name).append (by decide)).append
        (separator.intercalate ?_)).append (by decide),
        (((Starts.append (by decide) _).append _).append _).append _⟩
      exact fun param member => (Code.name (params param member)).printable identifiers

/-- A text that may be put into a body: nothing, or a line with or without its newline. -/
def IsOneLine (text : String) : Prop :=
  text = "" ∨ ∃ line, Flush line ∧ (text.toList = line ∨ text.toList = line ++ ['\n'])

/-- The margin that statements start at. -/
def Depth.level : Depth → Nat
  | .outer => 0
  | .inner => 4

/-- **Statements of the language are laid out.** -/
theorem Suite.lays (identifiers : ∀ text, isName text → Names.IsIdentifier text)
    (inserted : ∀ text, isInsert text → IsOneLine text) {depth : Depth} {text : String}
    (suite : Suite isName isInsert depth text) : Lays depth.level text := by
  induction suite with
  | empty depth => exact ⟨[], rfl, .nil⟩
  | append _ _ left right => exact left.append right
  | line simple => exact (simple.flush identifiers).lays
  | @compound header body head _ nonempty inside =>
      obtain ⟨printable, starts⟩ := head.printable identifiers
      obtain ⟨lines, same, laid⟩ := inside
      refine ⟨(header ++ ":").toList :: lines, by simp [same], .compound printable starts laid ?_⟩
      -- A body without lines would be empty.
      rintro rfl
      exact nonempty (by simpa using same)
  | indented _ inside => exact inside.indented
  | insertion insert =>
      -- What a template inserts may lack its newline: indenting supplies it.
      rcases inserted _ insert with rfl | ⟨line, flush, same⟩
      · exact ⟨[], rfl, .nil⟩
      · have laid := flush.laid
        have member : line ∈ [line] := List.mem_singleton_self line
        have ⟨bare, ended⟩ := indentedChars_line (laid.line_ne_nil line member)
          (laid.line_whole line member) Text.margin.toList
        refine ⟨[Text.margin.toList ++ line], ?_, laid.map_margin⟩
        rw [Text.indented, String.toList_ofList]
        rcases same with same | same
        · rw [same, bare]
          simp
        · rw [same, ended]
          simp
  | @innerLine text simple =>
      exact ⟨[Text.margin.toList ++ text.toList], by simp,
        (simple.flush identifiers).laid.map_margin⟩

/-! ## Instrumentation -/

namespace Text

variable {mark digit : Char} {insertion : List Char}

/-- What marks are replaced by comes from the insertion, and all else from the text. -/
theorem mem_replaceMark {text : List Char} {c : Char}
    (member : c ∈ replaceMark mark digit insertion text) : c ∈ insertion ∨ c ∈ text := by
  fun_induction replaceMark mark digit insertion text with
  | case1 => exact .inr member
  | case2 => exact .inr member
  | case3 c' d rest found ih =>
      rcases List.mem_append.mp member with member | member
      · exact .inl member
      · exact (ih member).imp id fun among => by simp [among]
  | case4 c' d rest _ ih =>
      rcases List.mem_cons.mp member with rfl | member
      · exact .inr (List.mem_cons_self ..)
      · exact (ih member).imp id (List.mem_cons_of_mem _)

/-- A property of some character is kept where marks are replaced. -/
theorem exists_mem_replaceMark {property : Char → Prop} (inserted : ∃ c ∈ insertion, property c)
    {text : List Char} (found : ∃ c ∈ text, property c) :
    ∃ c ∈ replaceMark mark digit insertion text, property c := by
  fun_induction replaceMark mark digit insertion text with
  | case1 => exact found
  | case2 => exact found
  | case3 c' d rest _ ih =>
      obtain ⟨c, member, holds⟩ := inserted
      exact ⟨c, List.mem_append_left _ member, holds⟩
  | case4 c' d rest _ ih =>
      obtain ⟨c, member, holds⟩ := found
      rcases List.mem_cons.mp member with rfl | member
      · exact ⟨c, List.mem_cons_self .., holds⟩
      · obtain ⟨other, among, holds⟩ := ih ⟨c, member, holds⟩
        exact ⟨other, List.mem_cons_of_mem _ among, holds⟩

/-- Where marks are replaced, the text starts as before or with what is inserted. -/
theorem head?_replaceMark (nonempty : insertion ≠ []) (text : List Char) :
    (replaceMark mark digit insertion text).head? = text.head? ∨
      (replaceMark mark digit insertion text).head? = insertion.head? := by
  obtain ⟨first, others, rfl⟩ := List.exists_cons_of_ne_nil nonempty
  fun_cases replaceMark mark digit (first :: others) text with
  | case1 => exact .inl rfl
  | case2 => exact .inl rfl
  | case3 => exact .inr rfl
  | case4 => exact .inl rfl

/-- It ends as before or with what is inserted. -/
theorem getLast?_replaceMark (nonempty : insertion ≠ []) (text : List Char) :
    (replaceMark mark digit insertion text).getLast? = text.getLast? ∨
      (replaceMark mark digit insertion text).getLast? = insertion.getLast? := by
  obtain ⟨last, ends⟩ := Option.ne_none_iff_exists'.mp (mt List.getLast?_eq_none_iff.mp nonempty)
  fun_induction replaceMark mark digit insertion text with
  | case1 => exact .inl rfl
  | case2 => exact .inl rfl
  | case3 c d rest _ ih =>
      rw [List.getLast?_append]
      rcases ih with same | same
      · rw [same]
        cases rest with
        | nil => exact .inr rfl
        | cons e more => exact .inl (by simp [List.getLast?_cons])
      · rw [same, Option.or_self]
        exact .inr rfl
  | case4 c d rest _ ih =>
      rw [List.getLast?_cons, List.getLast?_cons]
      rcases ih with same | same
      · rw [same]
        exact .inl rfl
      · rw [same, ends]
        exact .inr rfl

/-- A new line at the end is no mark. -/
theorem replaceMark_append_newline (apart : digit ≠ '\n') (text : List Char) :
    replaceMark mark digit insertion (text ++ ['\n']) =
      replaceMark mark digit insertion text ++ ['\n'] := by
  fun_induction replaceMark mark digit insertion text with
  | case1 => rfl
  | case2 c => simp [replaceMark, Ne.symm apart]
  | case3 c d rest found ih =>
      rw [List.cons_append, List.cons_append, replaceMark, if_pos found, ih, List.append_assoc]
  | case4 c d rest missed ih =>
      rw [List.cons_append, List.cons_append, replaceMark, if_neg missed]
      exact congrArg (c :: ·) ih

/-- A line stays a line when marks in it are replaced by something that is put in quotes. -/
theorem Flush.replaceMark {line : List Char} (flush : Flush line) (content : String) :
    Flush (replaceMark mark digit (quoted content).toList line) := by
  have chars : (quoted content).toList = '\'' :: content.toList.flatMap escaped ++ ['\''] := by
    rw [quoted, String.toList_ofList]
  have nonempty : (quoted content).toList ≠ [] := by simp [chars]
  refine ⟨fun c member => ?_, ?_, ?_, ?_⟩
  · rcases mem_replaceMark member with member | member
    · exact printable_quoted content c member
    · exact flush.printable c member
  · exact exists_mem_replaceMark ⟨'\'', by simp [chars], by decide⟩ flush.visible
  · rcases head?_replaceMark nonempty line with same | same
    · rw [same]
      exact flush.unindented
    · rw [same, chars]
      simp
  · rcases getLast?_replaceMark nonempty line with same | same
    · rw [same]
      exact flush.closed
    · rw [same, chars, List.getLast?_concat]
      simp

end Text

/-- The code of a template of one line has one line. -/
theorem isOneLine_instrument {n : Nat} {template : Option String}
    (plain : ∀ source ∈ template, IsOneLine source) {block : Block n} {inserted : String}
    (made : instrument template block = .ok inserted) : IsOneLine inserted := by
  cases template with
  | none =>
      cases made
      exact .inl rfl
  | some source =>
      rw [instrument] at made
      split at made
      · cases made
        exact .inl rfl
      · next nonempty =>
        obtain ⟨id, quoted, same⟩ := Attempt.bind_eq_ok.mp made
        obtain ⟨content, _, rfl⟩ := quote_eq_ok.mp quoted
        cases same
        rcases plain source rfl with rfl | ⟨line, flush, same⟩
        · simp at nonempty
        · refine .inr ⟨replaceMark '%' '1' (Text.quoted content).toList line,
            flush.replaceMark content, ?_⟩
          rw [String.toList_ofList]
          rcases same with same | same
          · exact .inl (by rw [same])
          · exact .inr (by rw [same, replaceMark_append_newline (by decide)])

/-- Options whose templates, if there are any, have one line: it is not blank, starts without a
space, has no control character in it and does not end with a colon. -/
structure Options.OneLine (options : Options) : Prop where
  loopTrap : ∀ source ∈ options.loopTrap, IsOneLine source
  statementPrefix : ∀ source ∈ options.statementPrefix, IsOneLine source

/-- **Statements are laid out.** In every pass that occurs, if a chain of blocks comes to code, then
the code has the layout of statements, and so has every procedure that the pass has then entered,
whatever further names it declares as global. -/
theorem Setting.chain_layout {n : Nat} {setting : Setting n} (plain : setting.options.OneLine)
    {pass after : Pass n} (reached : setting.Reached pass) {depth : Nat} {first : Option (Fin n)}
    {code : String}
    (ran : ((Gen.chain setting first).runWith (setting.outcome depth)).run.run pass =
      (.ok code, after)) :
    Layout code ∧ ∀ procedure ∈ after.procedures.entries, ∀ globals : List String,
      (∀ name ∈ globals, Names.IsName name) → Layout (procedure.render globals) := by
  have inserts : setting.Inserts IsOneLine := fun _ _ made =>
    made.elim (isOneLine_instrument plain.loopTrap) (isOneLine_instrument plain.statementPrefix)
  have identifiers (text : String) (named : Names.IsName text) : Names.IsIdentifier text := named.1
  obtain ⟨legal, suite⟩ := setting.runWith_keeps_legal inserts (Gen.ensures_chain first) depth pass
    (reached.legal inserts)
  rw [ran] at legal suite
  refine ⟨?_, fun procedure member globals named => ?_⟩
  · exact ((suite code rfl).lays identifiers fun _ inserted => inserted).layout
  · have written := (legal.procedures procedure member).render named
    exact (written.lays identifiers fun _ inserted => inserted).layout

/-- A loop with a trap and an assignment in its body. -/
def Setting.loopSample : Setting 3 where
  workspace := (Setting.ofBlocks #v[
    .ofKind .conditionalLoop [("MODE", .text "UNTIL")] [(.text "DO", some 1)],
    .ofKind .setVariable [("VAR", .text "x y")] [(.text "VALUE", some 2)],
    .ofKind .number [("NUM", .int 1)] []] [0]).workspace
  options := { loopTrap := some "tick(%1)\n" }

theorem Setting.chain_layout_loopSample :
    loopSample.options.OneLine ∧ loopSample.Reached (Pass.start Names.start) ∧
      ∃ code after,
        ((Gen.chain loopSample (some 0)).runWith (loopSample.outcome 3)).run.run
            (Pass.start Names.start) = (.ok code, after) ∧
          code = "while not False:\n    tick('controls_whileUntil')\n    x_y = 1\n" ∧
          Layout code ∧ ∀ procedure ∈ after.procedures.entries, ∀ globals : List String,
            (∀ name ∈ globals, Names.IsName name) → Layout (procedure.render globals) := by
  have plain : loopSample.options.OneLine := by
    refine ⟨?_, fun _ absent => nomatch absent⟩
    rintro source ⟨⟩
    have visible : ∃ c ∈ "tick(%1)".toList, isSpace c = false := ⟨'t', by decide, rfl⟩
    exact .inr ⟨"tick(%1)".toList, ⟨by decide, visible, by decide, by decide⟩, .inr rfl⟩
  have computed : (((Gen.chain loopSample (some 0)).runWith (loopSample.outcome 3)).run.run
      (Pass.start Names.start)).1.toOption =
        some "while not False:\n    tick('controls_whileUntil')\n    x_y = 1\n" := by decide +kernel
  have ran := Step.eq_ok_of_toOption computed
  exact ⟨plain, .start, _, _, ran, rfl, chain_layout plain .start ran⟩

end BlockScript
