import Mathlib.Data.List.TakeWhile
import Mathlib.Data.Nat.Digits.Defs
import BlockScript.Proofs.Growth
import BlockScript.Proofs.Json.Scalar
import BlockScript.Proofs.Reach

/-! # Written values are read back

What is read from the text of a value hangs on the value only, and not on its layout
(`Json.read_write_eq`). A value whose objects have no name twice, and whose integers are not too
long, is read back (`Json.read_write`), and every value that was read is of that kind
(`Json.readable_of_read`). An integer that is too long is not read, and neither is anything that
holds one (`Json.reread_follows`).
-/

namespace BlockScript

/-- Induction over values and their elements. -/
@[elab_as_elim]
theorem Value.elementwise {motive : Value → Prop} (null : motive .null)
    (bool : ∀ truth, motive (.bool truth)) (int : ∀ n, motive (.int n))
    (real : ∀ x, motive (.real x)) (text : ∀ chars, motive (.text chars))
    (list : ∀ items, (∀ item ∈ items, motive item) → motive (.list items))
    (object : ∀ members : Table Value, (∀ member ∈ members, motive member.2) →
      motive (.object members)) : ∀ v, motive v :=
  @Value.rec motive (fun items => ∀ item ∈ items, motive item)
    (fun members => ∀ member ∈ members, motive member.2) (fun member => motive member.2)
    null bool int real text list object
    (List.forall_mem_nil _) (fun _ _ first later => List.forall_mem_cons.mpr ⟨first, later⟩)
    (List.forall_mem_nil _) (fun _ _ first later => List.forall_mem_cons.mpr ⟨first, later⟩)
    (fun _ _ entry => entry)

namespace Json

/-- A value that a text can stand for. -/
inductive Readable : Value → Prop
  | null : Readable .null
  | bool (truth : Bool) : Readable (.bool truth)
  | int {n : Int} (short : (Nat.toDigits 10 n.natAbs).length ≤ Numeral.greatestLength) :
      Readable (.int n)
  | real (x : Binary64) : Readable (.real x)
  | text (chars : String) : Readable (.text chars)
  | list {items : List Value} (each : ∀ item ∈ items, Readable item) : Readable (.list items)
  | object {members : Table Value} (distinct : members.keys.Nodup)
      (each : ∀ member ∈ members, Readable member.2) : Readable (.object members)

/-! ## Layouts -/

/-- A layout that sets elements apart by commas and blanks only. -/
structure Layout.Spaced (layout : Layout) : Prop where
  between : ∀ depth, ∃ blanks, (layout.between depth).toList = ',' :: blanks ∧
    ∀ c ∈ blanks, isBlank c = true
  opening : ∀ depth, ∀ c ∈ (layout.opening depth).toList, isBlank c = true
  closing : ∀ depth, ∀ c ∈ (layout.closing depth).toList, isBlank c = true

/-- A new line is made of blanks. -/
theorem isBlank_of_mem_newLine {depth : Nat} {c : Char}
    (member : c ∈ (Layout.newLine depth).toList) : isBlank c = true := by
  have either : c = '\n' ∨ depth ≠ 0 ∧ c = ' ' := by simpa [Layout.newLine] using member
  rcases either with rfl | ⟨-, rfl⟩ <;> rfl

theorem Layout.spaced_page : Layout.page.Spaced where
  between depth := ⟨(Layout.newLine depth).toList, by simp [Layout.page],
    fun _ => isBlank_of_mem_newLine⟩
  opening _ _ := isBlank_of_mem_newLine
  closing _ _ := isBlank_of_mem_newLine

/-- Blanks are skipped up to what is none. -/
theorem skipBlanks_append {blanks chars : List Char} (blank : ∀ c ∈ blanks, isBlank c = true)
    (solid : ∀ c ∈ chars.head?, isBlank c = false) : skipBlanks (blanks ++ chars) = chars := by
  rw [skipBlanks, List.dropWhile_append_of_pos blank]
  cases chars with
  | nil => rfl
  | cons c rest =>
      have kept : isBlank c = false := solid c rfl
      simp [kept]

/-- No number goes on after a blank or a mark. -/
theorem stops_append {blanks rest : List Char} {mark : Char}
    (blank : ∀ c ∈ blanks, isBlank c = true) (marked : mark = ',' ∨ mark = ']' ∨ mark = '\x7d') :
    Stops (blanks ++ mark :: rest) := by
  intro c head
  cases blanks with
  | nil =>
      obtain rfl : mark = c := by simpa using head
      rcases marked with rfl | rfl | rfl <;> decide
  | cons d blanks =>
      obtain rfl : d = c := by simpa using head
      have spaced := blank d (List.mem_cons_self ..)
      simp only [isBlank, Bool.or_eq_true, decide_eq_true_eq] at spaced
      rcases spaced with ((rfl | rfl) | rfl) | rfl <;> decide

/-! ## Values -/

/-- What becomes of a value that is written and then read: of members with one name the last is
kept in the place of the first, and no integer is read that has too many digits. -/
def reread : Value → Reading Value
  | .int n =>
      if (Nat.toDigits 10 n.natAbs).length ≤ Numeral.greatestLength then .ok (.int n)
      else .error .longInteger
  | .list elements => do return .list (← rereadItems elements)
  | .object table => do return .object (← rereadMembers [] table)
  | v => .ok v
where
  /-- The items of a list. -/
  rereadItems : List Value → Reading (List Value)
    | [] => .ok []
    | item :: rest => do return (← reread item) :: (← rereadItems rest)
  /-- The members of an object, after those already read. -/
  rereadMembers : Table Value → List (String × Value) → Reading (Table Value)
    | table, [] => .ok table
    | table, (name, entry) :: rest => do rereadMembers (table.insert name (← reread entry)) rest

/-- A reading that fails just if a text cannot be written, and then for an integer that is too
long. -/
def Follows {α β : Type} (read : Reading α) (told : Option β) : Prop :=
  (∃ found, read = .ok found) ∧ told.isSome = true ∨ read = .error .longInteger ∧ told = none

theorem Follows.done {α β : Type} (found : α) (text : β) :
    Follows (.ok found : Reading α) (some text) :=
  .inl ⟨⟨found, rfl⟩, rfl⟩

/-- Readings and texts that go on alike are alike. -/
theorem Follows.bind {α β γ δ : Type} {read : Reading α} {told : Option β}
    {next : α → Reading γ} {more : β → Option δ} (first : Follows read told)
    (later : ∀ found text, Follows (next found) (more text)) :
    Follows (read >>= next) (told >>= more) := by
  rcases first with ⟨⟨found, rfl⟩, told⟩ | ⟨rfl, rfl⟩
  · obtain ⟨text, rfl⟩ := Option.isSome_iff_exists.mp told
    exact later found text
  · exact .inr ⟨rfl, rfl⟩

section Cases

open Value (shown?)

/-- The items of a list are read if each can be written. -/
theorem follows_items {elements : List Value}
    (each : ∀ element ∈ elements, Follows (reread element) element.shown?) :
    Follows (reread.rereadItems elements) (shown?.shownItems? elements) := by
  induction elements with
  | nil => exact .done [] []
  | cons item rest ih =>
      obtain ⟨first, later⟩ := List.forall_mem_cons.mp each
      exact first.bind fun found text => (ih later).bind fun others texts => .done _ _

/-- The members of an object are read if each can be written, whatever was read before. -/
theorem follows_members {table : Table Value}
    (each : ∀ member ∈ table, Follows (reread member.2) member.2.shown?) (read : Table Value) :
    Follows (reread.rereadMembers read table) (shown?.shownMembers? table) := by
  induction table generalizing read with
  | nil => exact .done read []
  | cons member rest ih =>
      obtain ⟨name, entry⟩ := member
      obtain ⟨first, later⟩ := List.forall_mem_cons.mp each
      refine first.bind fun found text => ?_
      -- Nothing is read after the last member, but the texts of the members are put together.
      rw [← bind_pure (reread.rereadMembers (read.insert name found) rest)]
      exact (ih later _).bind fun table texts => .done _ _

/-- **What is not read back.** A value is read from its text unless it holds an integer of too many
digits, and just then it cannot be written for a diagnostic either. -/
theorem reread_follows (v : Value) : Follows (reread v) v.shown? := by
  induction v using Value.elementwise with
  | null | bool | real | text => exact .done _ _
  | int n =>
      have same : (Nat.toDigits 10 n.natAbs).length ≤ Numeral.greatestLength ↔
          n.natAbs < 10 ^ Numeral.greatestLength :=
        ⟨fun short => lt_of_lt_of_le (Binary64.lt_pow_digitCount _)
          (Nat.pow_le_pow_right (by decide) short), Nat.toDigits_length 10 _ _ (by decide)⟩
      rw [reread, shown?, Numeral.ofWhole?]
      by_cases short : n.natAbs < 10 ^ Numeral.greatestLength
      · rw [if_pos (same.mpr short), if_pos short]
        exact .done _ _
      · rw [if_neg (mt same.mp short), if_neg short]
        exact .inr ⟨rfl, rfl⟩
  | list items each => exact (follows_items each).bind fun found texts => .done _ _
  | object members each => exact (follows_members each []).bind fun found texts => .done _ _

end Cases

/-- What is written follows the grammar. -/
theorem map_reread_ne_malformed (v : Value) (rest : List Char) :
    (reread v).map (·, rest) ≠ .error .malformed := by
  rcases reread_follows v with ⟨⟨w, read⟩, -⟩ | ⟨long, -⟩
  · simp [read, Except.map]
  · simp [long, Except.map]

/-- A value, set in a layout, is reread before whatever ends a number. -/
def Rereads (layout : Layout) (v : Value) : Prop :=
  ∀ (depth steps : Nat) (rest : List Char), 2 * (write layout depth v).toList.length ≤ steps →
    Stops rest → value steps ((write layout depth v).toList ++ rest) = (reread v).map (·, rest)

variable {layout : Layout} {v : Value}

/-- What is reread starts neither with a blank nor with the end of a list. -/
theorem Rereads.exists_head (reads : Rereads layout v) (depth : Nat) :
    ∃ c chars, (write layout depth v).toList = c :: chars ∧ isBlank c = false ∧ c ≠ ']' := by
  have read := reads depth (2 * (write layout depth v).toList.length + 1) [] (by omega) stops_nil
  have grammatical := map_reread_ne_malformed v []
  rw [List.append_nil] at read
  rw [← read] at grammatical
  cases spelled : (write layout depth v).toList with
  | nil =>
      rw [spelled] at grammatical
      exact (grammatical rfl).elim
  | cons c chars =>
      rw [spelled] at grammatical
      refine ⟨c, chars, rfl, ?_, ?_⟩
      · rw [Bool.eq_false_iff]
        intro blank
        simp only [isBlank, Bool.or_eq_true, decide_eq_true_eq] at blank
        rcases blank with ((rfl | rfl) | rfl) | rfl <;> exact grammatical rfl
      · rintro rfl
        exact grammatical rfl

/-- Items are written one by one. -/
theorem writeItems_eq_map (layout : Layout) (depth : Nat) (elements : List Value) :
    write.writeItems layout depth elements = elements.map (write layout depth) := by
  induction elements with
  | nil => rfl
  | cons item rest ih => rw [write.writeItems, ih, List.map_cons]

/-- A member of an object as it is written. -/
def writtenMember (layout : Layout) (depth : Nat) (member : String × Value) : String :=
  writtenText member.1 ++ ": " ++ write layout depth member.2

/-- Members are written one by one. -/
theorem writeMembers_eq_map (layout : Layout) (depth : Nat) (table : Table Value) :
    write.writeMembers layout depth table = table.map (writtenMember layout depth) := by
  induction table with
  | nil => rfl
  | cons member rest ih => rw [write.writeMembers, ih, List.map_cons, writtenMember]

section Items

variable {steps : Nat} {chars after rest : List Char} {answer : Reading Value}
  (first : value steps chars = answer.map (·, after)) (read : List Value)

include first

/-- The list ends after an item that a bracket follows. -/
theorem items_last (close : skipBlanks after = ']' :: rest) :
    items (steps + 1) read chars =
      answer.map fun item => (.list (item :: read).reverse, rest) := by
  rw [items, first]
  cases answer with
  | error fault => rfl
  | ok item =>
      simp only [bind, Except.bind, Except.map, close]
      rfl

/-- The list goes on after an item that a comma follows. -/
theorem items_more (comma : skipBlanks after = ',' :: rest) :
    items (steps + 1) read chars =
      answer >>= fun item => items steps (item :: read) (skipBlanks rest) := by
  rw [items, first]
  cases answer with
  | error fault => rfl
  | ok item => simp only [bind, Except.bind, Except.map, comma]

end Items

/-- The text of elements that are set apart at a depth. -/
def Layout.joined (layout : Layout) (depth : Nat) (elements : List String) : List Char :=
  (String.intercalate (layout.between depth) elements).toList

theorem Layout.joined_singleton (layout : Layout) (depth : Nat) (element : String) :
    layout.joined depth [element] = element.toList := by
  rw [joined, String.intercalate_singleton]

/-- Elements are joined by what stands between them. -/
theorem Layout.joined_cons_cons (layout : Layout) (depth : Nat) (first second : String)
    (others : List String) : layout.joined depth (first :: second :: others) = first.toList ++
      ((layout.between depth).toList ++ layout.joined depth (second :: others)) := by
  rw [joined, String.intercalate_cons_cons, String.toList_append, String.toList_append,
    List.append_assoc, ← joined]

/-- Joined elements start with the first. -/
theorem Layout.exists_head_joined (layout : Layout) (depth : Nat) {first : String}
    (others : List String) {c : Char} {chars : List Char} (spelled : first.toList = c :: chars) :
    ∃ tail, layout.joined depth (first :: others) = c :: tail := by
  cases others with
  | nil => exact ⟨chars, by rw [joined_singleton, spelled]⟩
  | cons second others =>
      rw [joined_cons_cons, spelled]
      exact ⟨_, rfl⟩

/-- The items of a list are read up to its end. -/
theorem items_written (spaced : layout.Spaced) (depth : Nat) (rest : List Char) {item : Value}
    {others : List Value} (each : ∀ element ∈ item :: others, Rereads layout element)
    (read : List Value) (steps : Nat)
    (enough : 2 *
      (layout.joined depth ((item :: others).map (write layout depth))).length < steps) :
    items steps read (layout.joined depth ((item :: others).map (write layout depth)) ++
        ((layout.closing depth).toList ++ ']' :: rest)) =
      (reread.rereadItems (item :: others)).map fun found =>
        (.list (read.reverse ++ found), rest) := by
  induction others generalizing item read steps with
  | nil =>
      obtain ⟨steps, rfl⟩ := Nat.exists_eq_add_one.mpr (Nat.zero_lt_of_lt enough)
      rw [List.map_singleton, Layout.joined_singleton] at enough ⊢
      have stops : Stops ((layout.closing depth).toList ++ ']' :: rest) :=
        stops_append (spaced.closing depth) (.inr (.inl rfl))
      have close : skipBlanks ((layout.closing depth).toList ++ ']' :: rest) = ']' :: rest :=
        skipBlanks_append (spaced.closing depth) (by rintro c ⟨⟩; rfl)
      rw [items_last (each item (List.mem_singleton_self _) depth steps _ (by omega) stops) _ close,
        reread.rereadItems]
      cases reread item with
      | error fault => rfl
      | ok found =>
          simp only [Except.map, List.reverse_cons]
          rfl
  | cons second others ih =>
      obtain ⟨steps, rfl⟩ := Nat.exists_eq_add_one.mpr (Nat.zero_lt_of_lt enough)
      have later : ∀ element ∈ second :: others, Rereads layout element :=
        fun element member => each element (List.mem_cons_of_mem _ member)
      obtain ⟨blanks, comma, blank⟩ := spaced.between depth
      obtain ⟨c, _, spelled, solid, -⟩ := (later second (List.mem_cons_self ..)).exists_head depth
      obtain ⟨tail, leads⟩ : ∃ tail, layout.joined depth
          ((second :: others).map (write layout depth)) = c :: tail :=
        layout.exists_head_joined depth _ spelled
      rw [List.map_cons, List.map_cons, Layout.joined_cons_cons, comma, ← List.map_cons] at enough ⊢
      simp only [List.length_append, List.length_cons] at enough
      simp only [List.append_assoc, List.cons_append]
      rw [items_more (each item (List.mem_cons_self ..) depth steps _ (by omega)
          (by rintro d ⟨⟩; decide)) _ rfl, reread.rereadItems,
        skipBlanks_append blank (by rw [leads]; rintro d ⟨⟩; exact solid)]
      cases reread item with
      | error fault => rfl
      | ok found =>
          refine (ih later (found :: read) steps (by omega)).trans ?_
          cases reread.rereadItems (second :: others) with
          | error fault => rfl
          | ok more =>
              simp only [Except.map, List.reverse_cons, List.append_assoc, List.singleton_append]
              rfl

/-- A member is its quoted name, a colon, a blank and its value. -/
theorem toList_writtenMember (layout : Layout) (depth : Nat) (name : String) (entry : Value)
    (after : List Char) :
    (writtenMember layout depth (name, entry)).toList ++ after =
      '"' :: (name.toList.flatMap writtenChar ++
        '"' :: (':' :: ([' '] ++ ((write layout depth entry).toList ++ after)))) := by
  simp [writtenMember, toList_writtenText]

/-- The members of an object start with a quote. -/
theorem exists_head_members (layout : Layout) (depth : Nat) (member : String × Value)
    (others : Table Value) : ∃ tail, layout.joined depth
      ((member :: others).map (writtenMember layout depth)) = '"' :: tail := by
  have spelled := toList_writtenMember layout depth member.1 member.2 []
  rw [List.append_nil] at spelled
  exact layout.exists_head_joined depth _ spelled

section Member

variable {name : String} {entry : Value} {depth steps : Nat} {after rest : List Char}

/-- The value of a member is found behind its name. -/
theorem skipBlanks_entry (reads : Rereads layout entry) :
    skipBlanks ([' '] ++ ((write layout depth entry).toList ++ after)) =
      (write layout depth entry).toList ++ after := by
  obtain ⟨c, chars, spelled, solid, -⟩ := reads.exists_head depth
  refine skipBlanks_append (by simp [isBlank]) ?_
  rw [spelled]
  rintro d ⟨⟩
  exact solid

variable (reads : Rereads layout entry)
  (enough : 2 * (write layout depth entry).toList.length ≤ steps) (stops : Stops after)
  (read : Table Value)

include reads enough stops

/-- The object ends after a member that a brace follows. -/
theorem members_last (close : skipBlanks after = '\x7d' :: rest) :
    members (steps + 1) read ((writtenMember layout depth (name, entry)).toList ++ after) =
      (reread entry).map fun found => (.object (read.insert name found), rest) := by
  have colon (chars : List Char) : skipBlanks (':' :: chars) = ':' :: chars := rfl
  rw [toList_writtenMember, members, text_written]
  simp only [bind, Except.bind, colon, skipBlanks_entry reads,
    reads depth steps after enough stops]
  cases reread entry with
  | error fault => rfl
  | ok found =>
      simp only [Except.map, close]
      rfl

/-- The object goes on after a member that a comma follows. -/
theorem members_more (comma : skipBlanks after = ',' :: rest) :
    members (steps + 1) read ((writtenMember layout depth (name, entry)).toList ++ after) =
      reread entry >>= fun found =>
        members steps (read.insert name found) (skipBlanks rest) := by
  have colon (chars : List Char) : skipBlanks (':' :: chars) = ':' :: chars := rfl
  rw [toList_writtenMember, members, text_written]
  simp only [bind, Except.bind, colon, skipBlanks_entry reads,
    reads depth steps after enough stops]
  cases reread entry with
  | error fault => rfl
  | ok found => simp only [Except.map, comma]

end Member

/-- A member is longer than its value. -/
theorem length_write_le (layout : Layout) (depth : Nat) (name : String) (entry : Value) :
    (write layout depth entry).toList.length ≤
      (writtenMember layout depth (name, entry)).toList.length := by
  simp only [writtenMember, String.toList_append, List.length_append]
  omega

/-- The members of an object are read up to its end. -/
theorem members_written (spaced : layout.Spaced) (depth : Nat) (rest : List Char)
    {member : String × Value} {others : Table Value}
    (each : ∀ element ∈ member :: others, Rereads layout element.2)
    (read : Table Value) (steps : Nat)
    (enough : 2 * (layout.joined depth
      ((member :: others).map (writtenMember layout depth))).length < steps) :
    members steps read (layout.joined depth
        ((member :: others).map (writtenMember layout depth)) ++
          ((layout.closing depth).toList ++ '\x7d' :: rest)) =
      (reread.rereadMembers read (member :: others)).map fun table => (.object table, rest) := by
  induction others generalizing member read steps with
  | nil =>
      obtain ⟨name, entry⟩ := member
      obtain ⟨steps, rfl⟩ := Nat.exists_eq_add_one.mpr (Nat.zero_lt_of_lt enough)
      have size := length_write_le layout depth name entry
      rw [List.map_singleton, Layout.joined_singleton] at enough ⊢
      have stops : Stops ((layout.closing depth).toList ++ '\x7d' :: rest) :=
        stops_append (spaced.closing depth) (.inr (.inr rfl))
      have close : skipBlanks ((layout.closing depth).toList ++ '\x7d' :: rest) =
          '\x7d' :: rest := skipBlanks_append (spaced.closing depth) (by rintro c ⟨⟩; rfl)
      have fits : 2 * (write layout depth entry).toList.length ≤ steps := by omega
      rw [members_last (each _ (List.mem_singleton_self _)) fits stops read close,
        reread.rereadMembers]
      cases reread entry with
      | error fault => rfl
      | ok found => rfl
  | cons second others ih =>
      obtain ⟨name, entry⟩ := member
      obtain ⟨steps, rfl⟩ := Nat.exists_eq_add_one.mpr (Nat.zero_lt_of_lt enough)
      have size := length_write_le layout depth name entry
      have later : ∀ element ∈ second :: others, Rereads layout element.2 :=
        fun element member => each element (List.mem_cons_of_mem _ member)
      obtain ⟨blanks, comma, blank⟩ := spaced.between depth
      obtain ⟨tail, leads⟩ := exists_head_members layout depth second others
      rw [List.map_cons, List.map_cons, Layout.joined_cons_cons, comma, ← List.map_cons] at enough ⊢
      simp only [List.length_append, List.length_cons] at enough
      simp only [List.append_assoc, List.cons_append]
      have fits : 2 * (write layout depth entry).toList.length ≤ steps := by omega
      rw [members_more (each _ (List.mem_cons_self ..)) fits (by rintro d ⟨⟩; decide) read rfl,
        skipBlanks_append blank (by rw [leads]; rintro d ⟨⟩; rfl), reread.rereadMembers]
      cases reread entry with
      | error fault => rfl
      | ok found => exact ih later (read.insert name found) steps (by omega)

/-- Without elements there are only the brackets. -/
theorem toList_bracketed_nil (layout : Layout) (depth : Nat) (opening closing : String) :
    (bracketed layout depth opening closing []).toList = opening.toList ++ closing.toList := by
  rw [bracketed, String.toList_append]

/-- The elements stand between the brackets and the blanks of the layout. -/
theorem toList_bracketed_cons (layout : Layout) (depth : Nat) (opening closing first : String)
    (others : List String) :
    (bracketed layout depth opening closing (first :: others)).toList =
      opening.toList ++ ((layout.opening depth).toList ++ (layout.joined depth (first :: others) ++
        ((layout.closing depth).toList ++ closing.toList))) := by
  simp [bracketed, Layout.joined]

/-- What is read as a word or a number opens neither a text nor a list nor an object. -/
theorem value_of_scalar {steps : Nat} {chars : List Char}
    (grammatical : scalar chars ≠ .error .malformed) :
    value (steps + 1) chars = scalar chars := by
  rw [value]
  · rintro rest rfl
    exact grammatical rfl
  · rintro rest rfl
    exact grammatical rfl
  · rintro rest rfl
    exact grammatical rfl

/-- A list with something in it is read item by item. -/
theorem value_items {steps : Nat} {c : Char} {chars inner : List Char} (inside : c ≠ ']')
    (entered : skipBlanks chars = c :: inner) :
    value (steps + 1) ('[' :: chars) = items steps [] (c :: inner) := by
  rw [value, entered]
  split
  case h_1 rest same => exact absurd (List.cons.inj same).1 inside
  case h_2 => rfl

/-- An object with something in it is read member by member. -/
theorem value_members {steps : Nat} {c : Char} {chars inner : List Char} (inside : c ≠ '\x7d')
    (entered : skipBlanks chars = c :: inner) :
    value (steps + 1) ('\x7b' :: chars) = members steps [] (c :: inner) := by
  rw [value, entered]
  split
  case h_1 rest same => exact absurd (List.cons.inj same).1 inside
  case h_2 => rfl

/-- Values that are words or numbers are reread if those are. -/
theorem rereads_of_scalar (read : ∀ depth rest, Stops rest →
    scalar ((write layout depth v).toList ++ rest) = (reread v).map (·, rest)) :
    Rereads layout v := by
  intro depth steps rest enough stops
  cases steps with
  | zero =>
      have empty : (write layout depth v).toList = [] := List.eq_nil_of_length_eq_zero (by omega)
      have read := read depth [] stops_nil
      rw [empty] at read
      exact (map_reread_ne_malformed v [] read.symm).elim
  | succ steps =>
      rw [← read depth rest stops]
      exact value_of_scalar (by rw [read depth rest stops]; exact map_reread_ne_malformed v rest)

theorem rereads_text (layout : Layout) (chars : String) : Rereads layout (.text chars) := by
  intro depth steps rest enough stops
  rw [write, toList_writtenText] at enough ⊢
  obtain ⟨steps, rfl⟩ : ∃ fewer, steps = fewer + 1 :=
    Nat.exists_eq_add_one.mpr (by rw [List.length_cons] at enough; omega)
  rw [List.cons_append, List.append_assoc, List.singleton_append, value, text_written]
  rfl

/-- A list is reread if its items are. -/
theorem rereads_list (spaced : layout.Spaced) {elements : List Value}
    (each : ∀ element ∈ elements, Rereads layout element) :
    Rereads layout (.list elements) := by
  intro depth steps rest enough stops
  rw [write, writeItems_eq_map] at enough ⊢
  cases elements with
  | nil =>
      rw [List.map_nil, toList_bracketed_nil] at enough ⊢
      obtain ⟨steps, rfl⟩ : ∃ fewer, steps = fewer + 1 :=
        Nat.exists_eq_add_one.mpr (Nat.lt_of_lt_of_le (by decide) enough)
      rfl
  | cons item others =>
      obtain ⟨c, _, leads, solid, inside⟩ :=
        (each item (List.mem_cons_self ..)).exists_head (depth + 1)
      obtain ⟨tail, spelled⟩ : ∃ tail, layout.joined (depth + 1)
          ((item :: others).map (write layout (depth + 1))) = c :: tail :=
        layout.exists_head_joined (depth + 1) _ leads
      rw [List.map_cons, toList_bracketed_cons, ← List.map_cons] at enough ⊢
      have mark : "[".toList = ['['] := rfl
      simp only [List.length_append, mark, List.length_singleton] at enough
      obtain ⟨steps, rfl⟩ : ∃ fewer, steps = fewer + 1 := Nat.exists_eq_add_one.mpr (by omega)
      have written := items_written spaced (depth + 1) rest each [] steps (by omega)
      rw [spelled] at written ⊢
      simp only [List.append_assoc, mark, List.cons_append, List.nil_append]
      rw [value_items inside (skipBlanks_append (spaced.opening _) (by rintro d ⟨⟩; exact solid))]
      refine written.trans ?_
      rw [reread]
      cases reread.rereadItems (item :: others) <;> rfl

/-- An object is reread if its members are. -/
theorem rereads_object (spaced : layout.Spaced) {table : Table Value}
    (each : ∀ member ∈ table, Rereads layout member.2) : Rereads layout (.object table) := by
  intro depth steps rest enough stops
  rw [write, writeMembers_eq_map] at enough ⊢
  cases table with
  | nil =>
      rw [List.map_nil, toList_bracketed_nil] at enough ⊢
      obtain ⟨steps, rfl⟩ : ∃ fewer, steps = fewer + 1 :=
        Nat.exists_eq_add_one.mpr (Nat.lt_of_lt_of_le (by decide) enough)
      rfl
  | cons member others =>
      obtain ⟨tail, spelled⟩ := exists_head_members layout (depth + 1) member others
      rw [List.map_cons, toList_bracketed_cons, ← List.map_cons] at enough ⊢
      have mark : "\x7b".toList = ['\x7b'] := rfl
      simp only [List.length_append, mark, List.length_singleton] at enough
      obtain ⟨steps, rfl⟩ : ∃ fewer, steps = fewer + 1 := Nat.exists_eq_add_one.mpr (by omega)
      have written := members_written spaced (depth + 1) rest each [] steps (by omega)
      rw [spelled] at written ⊢
      simp only [List.append_assoc, mark, List.cons_append, List.nil_append]
      rw [value_members (by decide)
        (skipBlanks_append (spaced.opening _) (by rintro d ⟨⟩; rfl))]
      refine written.trans ?_
      rw [reread]
      cases reread.rereadMembers [] (member :: others) <;> rfl

/-- Every value is reread, in whatever layout it is written. -/
theorem rereads (spaced : layout.Spaced) (v : Value) : Rereads layout v := by
  induction v using Value.elementwise with
  | null => exact rereads_of_scalar fun _ _ _ => by rw [write]; rfl
  | bool truth => cases truth <;> exact rereads_of_scalar fun _ _ _ => by rw [write]; rfl
  | int n => exact rereads_of_scalar fun _ _ stops => scalar_int n stops
  | real x => exact rereads_of_scalar fun _ _ stops => scalar_real x stops
  | text chars => exact rereads_text layout chars
  | list _ each => exact rereads_list spaced each
  | object _ each => exact rereads_object spaced each

/-- **What is read from a written value** is the same in all layouts. -/
theorem read_write_eq (spaced : layout.Spaced) (v : Value) :
    read (write layout 0 v) = reread v := by
  have reads := rereads spaced v
  obtain ⟨c, chars, spelled, solid, -⟩ := reads.exists_head 0
  have all := reads 0 (2 * (write layout 0 v).toList.length + 2) [] (by omega) stops_nil
  have start : skipBlanks (c :: chars) = c :: chars := by simp [skipBlanks, solid]
  rw [List.append_nil, spelled] at all
  rw [read, spelled, start, all]
  cases reread v <;> rfl

/-- A value that holds an integer of too many digits is not read. -/
theorem read_write_of_shown? (spaced : layout.Spaced) (untold : v.shown? = none) :
    read (write layout 0 v) = .error .longInteger := by
  rw [read_write_eq spaced]
  rcases reread_follows v with ⟨-, told⟩ | ⟨long, -⟩
  · rw [untold] at told
    cases told
  · exact long

/-! ## What is read back -/

/-- A new name is put at the end of a table. -/
theorem insert_of_nodup {table others : Table Value} {name : String} {entry : Value}
    (distinct : (table ++ (name, entry) :: others).keys.Nodup) :
    table.insert name entry = table ++ [(name, entry)] := by
  rw [Table.keys, List.map_append, List.nodup_append] at distinct
  have new : name ∉ table.keys := fun known => distinct.2.2 name known name (by simp) rfl
  rw [← Table.has_iff_mem_keys, Bool.not_eq_true] at new
  exact Table.insert_of_get?_eq_none entry (Table.get?_eq_none_of_has new)

/-- A list is kept as it is if its items are. -/
theorem rereadItems_of_readable {elements : List Value}
    (each : ∀ element ∈ elements, reread element = .ok element) :
    reread.rereadItems elements = .ok elements := by
  induction elements with
  | nil => rfl
  | cons item rest ih =>
      obtain ⟨first, later⟩ := List.forall_mem_cons.mp each
      rw [reread.rereadItems, first, ih later]
      rfl

/-- An object is kept as it is if its members are, and no name comes twice. -/
theorem rereadMembers_of_readable {read table : Table Value}
    (distinct : (read ++ table).keys.Nodup)
    (each : ∀ member ∈ table, reread member.2 = .ok member.2) :
    reread.rereadMembers read table = .ok (read ++ table) := by
  induction table generalizing read with
  | nil => rw [reread.rereadMembers, List.append_nil]
  | cons member rest ih =>
      obtain ⟨name, entry⟩ := member
      obtain ⟨first, later⟩ := List.forall_mem_cons.mp each
      have entered := insert_of_nodup distinct
      have further : (read.insert name entry ++ rest).keys.Nodup := by
        rwa [entered, List.append_assoc]
      rw [reread.rereadMembers, first]
      refine (ih further later).trans ?_
      rw [entered, List.append_assoc]
      rfl

/-- A value that a text can stand for is not changed when it is reread. -/
theorem reread_of_readable (readable : Readable v) : reread v = .ok v := by
  induction readable with
  | null | bool | real | text => rfl
  | int short => rw [reread, if_pos short]
  | list _ ih =>
      rw [reread, rereadItems_of_readable ih]
      rfl
  | @object members distinct _ ih =>
      have kept : reread.rereadMembers [] members = .ok members :=
        rereadMembers_of_readable distinct ih
      rw [reread, kept]
      rfl

/-- **Every value that a text can stand for is read back,** in whatever layout it is written. -/
theorem read_write (spaced : layout.Spaced) (readable : Readable v) :
    read (write layout 0 v) = .ok v := by
  rw [read_write_eq spaced, reread_of_readable readable]

/-- A value that a text can stand for can be written for a diagnostic. -/
theorem isSome_shown?_of_readable (readable : Readable v) : v.shown?.isSome = true := by
  rcases reread_follows v with ⟨-, told⟩ | ⟨long, -⟩
  · exact told
  · rw [reread_of_readable readable] at long
    cases long

/-! ## What is read can be written -/

/-- The whole part of a number is made of digits. -/
theorem isDigit_of_wholePart {chars whole rest : List Char}
    (found : wholePart chars = some (whole, rest)) :
    whole ≠ [] ∧ ∀ c ∈ whole, c.isDigit = true := by
  unfold wholePart at found
  split at found
  · cases found
    exact ⟨by simp, by simp⟩
  · simp only at found
    split at found
    · cases found
    · next some =>
        cases found
        exact ⟨by simpa using some, fun _ => List.mem_takeWhile_imp⟩

/-- A number that is read can be written. -/
theorem readable_of_unsigned {negative : Bool} {chars rest : List Char}
    (found : unsigned negative chars = .ok (v, rest)) : Readable v := by
  unfold unsigned at found
  split at found
  · cases found
  · next whole after taken =>
      obtain ⟨some, decimal⟩ := isDigit_of_wholePart taken
      simp only at found
      split at found
      · split at found
        · cases found
        · next short =>
            cases found
            have size : (if negative = true then -(Numeral.ofDigits whole : Int)
                else Numeral.ofDigits whole).natAbs = Numeral.ofDigits whole := by
              split
              · rw [Int.natAbs_neg, Int.natAbs_natCast]
              · rw [Int.natAbs_natCast]
            have few := Nat.toDigits_length 10 _ _ (List.length_pos_of_ne_nil some)
              (size ▸ Numeral.ofDigits_lt decimal)
            exact .int (few.trans (Nat.not_lt.mp short))
      · cases found
        exact .real _

/-- A word or a number that is read can be written. -/
theorem readable_of_scalar {chars rest : List Char} (found : scalar chars = .ok (v, rest)) :
    Readable v := by
  unfold scalar at found
  split at found
  · next known =>
      cases found
      obtain ⟨entry, listed, taken⟩ := List.exists_of_findSome?_eq_some known
      obtain ⟨_, _, same⟩ := Option.map_eq_some_iff.mp taken
      cases same
      simp only [words, List.mem_cons, List.not_mem_nil, or_false] at listed
      rcases listed with rfl | rfl | rfl | rfl | rfl | rfl
      · exact .null
      · exact .bool true
      · exact .bool false
      all_goals exact .real _
  · split at found
    · exact readable_of_unsigned found
    · exact readable_of_unsigned found

/-- In a number of steps nothing is read but what can be written. -/
structure YieldsReadable (steps : Nat) : Prop where
  value : ∀ {chars rest v}, value steps chars = .ok (v, rest) → Readable v
  items : ∀ {chars rest v} (read : List Value), (∀ item ∈ read, Readable item) →
    items steps read chars = .ok (v, rest) → Readable v
  members : ∀ {chars rest v} (read : Table Value), read.keys.Nodup →
    (∀ member ∈ read, Readable member.2) → members steps read chars = .ok (v, rest) → Readable v

section Step

variable {steps : Nat} {chars rest : List Char} (yields : YieldsReadable steps)

include yields

/-- A value that is read in one more step can be written. -/
theorem YieldsReadable.value_succ (found : Json.value (steps + 1) chars = .ok (v, rest)) :
    Readable v := by
  unfold Json.value at found
  split at found
  · obtain ⟨_, _, same⟩ := Attempt.bind_eq_ok.mp found
    cases same
    exact .text _
  · split at found
    · cases found
      exact .list (List.forall_mem_nil _)
    · exact yields.items [] (List.forall_mem_nil _) found
  · split at found
    · cases found
      exact .object List.nodup_nil (List.forall_mem_nil _)
    · exact yields.members [] List.nodup_nil (List.forall_mem_nil _) found
  · exact readable_of_scalar found

/-- So can the items of a list. -/
theorem YieldsReadable.items_succ {read : List Value} (each : ∀ item ∈ read, Readable item)
    (found : Json.items (steps + 1) read chars = .ok (v, rest)) : Readable v := by
  rw [Json.items] at found
  obtain ⟨⟨item, after⟩, first, found⟩ := Attempt.bind_eq_ok.mp found
  have all : ∀ element ∈ item :: read, Readable element :=
    List.forall_mem_cons.mpr ⟨yields.value first, each⟩
  simp only at found
  split at found
  · cases found
    exact .list fun element member => all element (List.mem_reverse.mp member)
  · exact yields.items _ all found
  · cases found

/-- So can the members of an object, whose names are all different. -/
theorem YieldsReadable.members_succ {read : Table Value} (distinct : read.keys.Nodup)
    (each : ∀ member ∈ read, Readable member.2)
    (found : Json.members (steps + 1) read chars = .ok (v, rest)) : Readable v := by
  unfold Json.members at found
  split at found
  · obtain ⟨⟨name, after⟩, _, found⟩ := Attempt.bind_eq_ok.mp found
    simp only at found
    split at found
    · obtain ⟨⟨entry, after⟩, first, found⟩ := Attempt.bind_eq_ok.mp found
      have all : ∀ member ∈ read.insert name entry, Readable member.2 := by
        intro member listed
        rcases Table.mem_entries_insert (List.mem_map_of_mem listed) with known | new
        · obtain ⟨other, held, same⟩ := List.mem_map.mp known
          exact same ▸ each other held
        · exact new ▸ yields.value first
      have nodup := Table.nodup_keys_insert distinct name entry
      simp only at found
      split at found
      · cases found
        exact .object nodup all
      · exact yields.members _ nodup all found
      · cases found
    · cases found
  · cases found

end Step

/-- Whatever is read in however many steps can be written. -/
theorem yieldsReadable (steps : Nat) : YieldsReadable steps := by
  induction steps with
  | zero =>
      constructor
      case value =>
        intro chars rest v found
        rw [value] at found
        cases found
      case items =>
        intro chars rest v read _ found
        rw [items] at found
        cases found
      case members =>
        intro chars rest v read _ _ found
        rw [members] at found
        cases found
  | succ steps ih =>
      exact ⟨ih.value_succ, fun _ => ih.items_succ, fun _ => ih.members_succ⟩

/-- **What is read can be written** again, so that it is read back. -/
theorem readable_of_read {text : String} (found : read text = .ok v) : Readable v := by
  unfold read at found
  obtain ⟨⟨other, rest⟩, taken, found⟩ := Attempt.bind_eq_ok.mp found
  simp only at found
  split at found
  · cases found
    exact (yieldsReadable _).value taken
  · cases found

end Json

end BlockScript
