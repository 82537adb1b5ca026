import BlockScript.Proofs.Conduct.Basic
import BlockScript.Proofs.Mentions

/-! # Sources of helpers

Every helper of the library can be written under any name: its source starts with its name, and only
two of the helpers use the random module (`Snippet.Listed.supplies`).
-/

namespace BlockScript

open Mention Text

namespace Template

variable {name : String}

theorem fill_char {c : Char} (apart : c ≠ '$') (steps : Nat) (rest : List Char) :
    fill name (steps + 1) (c :: rest) = (c :: ·) <$> fill name steps rest := by
  rw [fill, if_neg apart]
  rfl

/-- Where there is no slot, a template stands as it is. -/
theorem fill_plain {steps : Nat} {chars : List Char} (plain : '$' ∉ chars)
    (enough : chars.length ≤ steps) : fill name steps chars = .ok chars := by
  induction chars generalizing steps with
  | nil => cases steps <;> rfl
  | cons c rest ih =>
      have apart : c ≠ '$' := (List.ne_of_not_mem_cons plain).symm
      cases steps with
      | zero => cases enough
      | succ steps =>
          rw [fill_char apart, ih (List.not_mem_of_not_mem_cons plain) (Nat.le_of_succ_le_succ enough)]
          rfl

/-- The slot is filled with the name. -/
theorem fill_slot (steps : Nat) (rest : List Char) :
    fill name (steps + 1) ('$' :: (slot.toList ++ '(' :: rest)) =
      (name.toList ++ ·) <$> fill name steps ('(' :: rest) := by
  have found : mark (slot.toList ++ '(' :: rest) = .ok (.named slot, '(' :: rest) := rfl
  rw [fill, if_pos rfl, found]
  rfl

/-- Lines by their characters. For lines that are given, unification finds these, which is much less
work than to compute them. -/
inductive Spelled : List String → List (List Char) → Prop
  | nil : Spelled [] []
  | cons {lines : List String} {spelling : List (List Char)} {chars : List Char} :
      Spelled lines spelling → Spelled (String.ofList chars :: lines) (chars :: spelling)

theorem Spelled.eq_map {lines : List String} {spelling : List (List Char)}
    (spelled : Spelled lines spelling) : lines = spelling.map String.ofList := by
  induction spelled with
  | nil => rfl
  | cons _ ih => rw [List.map_cons, ih]

/-- How the source of a helper starts. -/
def opening : List Char :=
  ['d', 'e', 'f', ' ', '$', 'f', 'u', 'n', 'c', 't', 'i', 'o', 'n', '_', 'n', 'a', 'm', 'e', '(']

theorem opening_eq : opening = "def ".toList ++ '$' :: (slot.toList ++ ['(']) := by decide

/-- What comes after that on the first line. -/
def signature (first : List Char) : List Char := first.drop opening.length

/-- A template whose only slot is the name of the function that it defines. -/
structure Defines (template : Template) (first : List Char) (lines : List (List Char)) :
    Prop where
  source : ∃ texts, template = .ofLines texts ∧ Spelled texts (first :: lines)
  opens : first = opening ++ signature first
  plain : ∀ line ∈ signature first :: lines, '$' ∉ line

/-- What comes after the name of the function. -/
def remainder (first : List Char) (lines : List (List Char)) : String :=
  String.intercalate "\n" ((signature first :: lines).map String.ofList)

theorem not_mem_intercalate {c : Char} (apart : c ≠ '\n') {lines : List String}
    (plain : ∀ line ∈ lines, c ∉ line.toList) : c ∉ (String.intercalate "\n" lines).toList := by
  induction lines with
  | nil => exact List.not_mem_nil
  | cons line rest ih =>
      obtain ⟨own, others⟩ := List.forall_mem_cons.mp plain
      cases rest with
      | nil =>
          rw [String.intercalate_singleton]
          exact own
      | cons next rest =>
          rw [String.intercalate_cons_cons, String.toList_append, String.toList_append]
          intro member
          rcases List.mem_append.mp member with before | later
          · rcases List.mem_append.mp before with within | newline
            · exact own within
            · exact apart (List.mem_singleton.mp newline)
          · exact ih others later

theorem Defines.source_eq {template : Template} {first : List Char} {lines : List (List Char)}
    (defines : template.Defines first lines) :
    template.source = String.ofList opening ++ remainder first lines := by
  obtain ⟨texts, source, spelled⟩ := defines.source
  rw [source, spelled.eq_map, ofLines, remainder]
  have opens := defines.opens
  generalize signature first = tail at opens ⊢
  rw [opens, List.map_cons, List.map_cons, String.ofList_append]
  cases lines with
  | nil => rw [List.map_nil, String.intercalate_singleton, String.intercalate_singleton]
  | cons next others =>
      rw [List.map_cons, String.intercalate_cons_cons, String.intercalate_cons_cons]
      simp only [String.append_assoc]

/-- It is written with any name in the place of the slot. -/
theorem Defines.render {template : Template} {first : List Char} {lines : List (List Char)}
    (defines : template.Defines first lines) (name : String) :
    template.render name = .ok ("def " ++ name ++ ("(" ++ remainder first lines)) := by
  have plain : '$' ∉ '(' :: (remainder first lines).toList := by
    apply List.not_mem_cons_of_ne_of_not_mem (by decide)
    apply not_mem_intercalate (by decide)
    intro text member
    obtain ⟨line, among, rfl⟩ := List.mem_map.mp member
    rw [String.toList_ofList]
    exact defines.plain line among
  have spelled := congrArg String.toList defines.source_eq
  rw [String.toList_append, String.toList_ofList, opening_eq, List.append_assoc, List.cons_append,
    List.append_assoc] at spelled
  generalize remainder first lines = rest at plain spelled ⊢
  have count : template.source.toList.length = rest.toList.length + 14 + 5 := by
    rw [spelled]
    simp [slot]
  have enough : ('(' :: rest.toList).length ≤ rest.toList.length + 14 := by
    rw [List.length_cons]
    omega
  have filled : fill name template.source.toList.length template.source.toList =
      .ok ("def ".toList ++ (name.toList ++ '(' :: rest.toList)) := by
    rw [count, spelled]
    change fill name _ ('d' :: 'e' :: 'f' :: ' ' :: '$' :: (slot.toList ++ '(' :: rest.toList)) = _
    rw [fill_char (by decide), fill_char (by decide), fill_char (by decide),
      fill_char (by decide), fill_slot, fill_plain plain enough]
    rfl
  unfold Template.render
  dsimp only
  rw [filled]
  apply congrArg Except.ok
  rw [← String.toList_inj]
  simp

end Template

namespace Snippet

/-- Lines that do not mention the random module. -/
def IsSelfContained (lines : List (List Char)) : Prop :=
  ∀ line ∈ lines, ((Mode.between false).after line).Settled (· ≠ "random") ∧
    ∀ word ∈ (Mode.between false).seen line, word ≠ "random"

instance (lines : List (List Char)) : Decidable (IsSelfContained lines) :=
  inferInstanceAs (Decidable (∀ line ∈ lines, _ ∧ _))

/-- A helper that uses no module does not mention the random module, whatever its name is. -/
theorem IsSelfContained.not_random {lines : List (List Char)}
    (selfContained : IsSelfContained lines) {name : String} (named : Names.IsName name) :
    "random" ∉ mentions
      ("def " ++ name ++ ("(" ++ String.intercalate "\n" (lines.map String.ofList))) := by
  have keyword : Closes (· ≠ "random") "def " := by decide
  have newline : Closes (· ≠ "random") "\n" := by decide
  have parenthesis : Closes (· ≠ "random") "(" := by decide
  have starts : Starts Mention.isNeutral "(" := by decide
  have other : name ≠ "random" := by
    rintro rfl
    exact named.2 (by decide +kernel)
  have each : ∀ text ∈ lines.map String.ofList, Passes (· ≠ "random") text := by
    intro text member
    obtain ⟨line, among, rfl⟩ := List.mem_map.mp member
    obtain ⟨settled, seen⟩ := selfContained line among
    constructor
    · rw [String.toList_ofList]
      exact settled
    · rw [String.toList_ofList]
      exact seen
  have body := Passes.intercalate newline (by decide) each
  have passes := (keyword.append (passes_identifier named.1 other)).append
    (parenthesis.append body) (starts.append _)
  exact fun member => passes.mentions _ member rfl

/-- The source of a template under a name: it starts with the name, and it uses the random module
only if that is imported. -/
def Supplies (template : Template) (name : String) (imported : Prop) : Prop :=
  ∃ rest, template.render name = .ok ("def " ++ name ++ ("(" ++ rest)) ∧
    ("random" ∈ mentions ("def " ++ name ++ ("(" ++ rest)) → imported)

variable {template : Template} {name : String} {imported : Prop}

theorem supplies_of_selfContained (named : Names.IsName name) {first : List Char}
    {lines : List (List Char)} (defines : template.Defines first lines)
    (selfContained : IsSelfContained (Template.signature first :: lines)) :
    Supplies template name imported :=
  ⟨_, defines.render name, fun used => (selfContained.not_random named used).elim⟩

theorem supplies_of_imported (given : imported) {first : List Char} {lines : List (List Char)}
    (defines : template.Defines first lines) : Supplies template name imported :=
  ⟨_, defines.render name, fun _ => given⟩

/-- **The helpers of the library.** Each of them can be written under any name and starts with it,
and those that use the random module do so after its import. -/
theorem Listed.supplies {oneBased : Bool} {key : String}
    (listed : Listed oneBased imported key template) (named : Names.IsName name) :
    Supplies template name imported := by
  cases listed with
  | firstIndex =>
      cases oneBased with
      | true =>
          apply supplies_of_selfContained named ⟨⟨_, rfl, by repeat constructor⟩, ?_, ?_⟩
          all_goals decide +kernel
      | false =>
          apply supplies_of_selfContained named ⟨⟨_, rfl, by repeat constructor⟩, ?_, ?_⟩
          all_goals decide +kernel
  | lastIndex =>
      cases oneBased with
      | true =>
          apply supplies_of_selfContained named ⟨⟨_, rfl, by repeat constructor⟩, ?_, ?_⟩
          all_goals decide +kernel
      | false =>
          apply supplies_of_selfContained named ⟨⟨_, rfl, by repeat constructor⟩, ?_, ?_⟩
          all_goals decide +kernel
  | sort =>
      apply supplies_of_selfContained named ⟨⟨_, rfl, by repeat constructor⟩, ?_, ?_⟩
      all_goals decide +kernel
  | removeRandomItem given =>
      apply supplies_of_imported given ⟨⟨_, rfl, by repeat constructor⟩, ?_, ?_⟩
      all_goals decide +kernel
  | randomLetter given =>
      apply supplies_of_imported given ⟨⟨_, rfl, by repeat constructor⟩, ?_, ?_⟩
      all_goals decide +kernel

end Snippet

end BlockScript
