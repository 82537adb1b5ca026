import Mathlib.Data.List.Nodup
import BlockScript.Proofs.Contract

/-! # Identifiers that a pool hands out

Every identifier of a pool is a plain word that does not start with a digit, and it is no reserved
word. The search for a free candidate never runs out of candidates: they are different from each
other, and there is one more than there are taken identifiers (`Names.exists_free_candidate`).
-/

namespace BlockScript

/-- What holds of all characters of a text is decided along the text. It comes before the way to
decide what holds of all characters there are. -/
instance (priority := 2000) Text.decidableForallMem (property : Char → Prop)
    [each : DecidablePred property] (chars : List Char) : Decidable (∀ c ∈ chars, property c) :=
  @List.decidableBAll Char property each chars

namespace Names

/-- A plain word: letters, digits and underscores, of which the first is no digit. -/
def IsIdentifier (text : String) : Prop :=
  ∃ c rest, text.toList = c :: rest ∧ isPlain c = true ∧ c.isDigit = false ∧
    ∀ d ∈ rest, isPlain d = true

/-- An identifier that generated code may use as a name of its own. -/
def IsName (text : String) : Prop := IsIdentifier text ∧ text ∉ reservedWords

/-- What a character is replaced by is plain. -/
theorem isPlain_plain (c : Char) : isPlain (plain c) = true := by
  unfold plain
  split
  · assumption
  · rfl

/-- Digits are plain. -/
theorem isPlain_of_isDigit {c : Char} (digit : c.isDigit = true) : isPlain c = true := by
  simp [isPlain, Char.isAlphanum, digit]

/-- Plain characters are an identifier once they do not start with a digit. -/
theorem isIdentifier_withoutLeadingDigit {chars : List Char} (nonempty : chars ≠ [])
    (allPlain : ∀ c ∈ chars, isPlain c = true) :
    IsIdentifier (String.ofList (withoutLeadingDigit chars)) := by
  cases chars with
  | nil => exact (nonempty rfl).elim
  | cons c rest =>
      by_cases digit : c.isDigit = true
      · refine ⟨'m', 'y' :: '_' :: c :: rest, by simp [withoutLeadingDigit, digit], rfl, rfl, ?_⟩
        simp only [List.mem_cons, forall_eq_or_imp]
        exact ⟨rfl, rfl, allPlain c (List.mem_cons_self ..),
          fun d member => allPlain d (List.mem_cons_of_mem _ member)⟩
      · refine ⟨c, rest, by simp [withoutLeadingDigit, digit], allPlain c (List.mem_cons_self ..),
          by simpa using digit, fun d member => allPlain d (List.mem_cons_of_mem _ member)⟩

theorem isIdentifier_unnamed : IsIdentifier "unnamed" :=
  ⟨'u', "nnamed".toList, rfl, rfl, rfl, by decide⟩

/-- What a text suggests is an identifier. -/
theorem isIdentifier_sanitize (name : String) : IsIdentifier (sanitize name) := by
  unfold sanitize
  split
  · exact isIdentifier_unnamed
  · rename_i nonempty
    apply isIdentifier_withoutLeadingDigit
    · simpa using nonempty
    · intro c member
      obtain ⟨d, _, rfl⟩ := List.mem_map.mp member
      exact isPlain_plain d

/-- What a value suggests is an identifier. -/
theorem isIdentifier_of_suggestion {name : Value} {base : String}
    (suggested : suggestion name = .ok base) : IsIdentifier base := by
  unfold suggestion at suggested
  split at suggested
  · cases suggested
    exact isIdentifier_sanitize _
  · split at suggested
    · cases suggested
    · cases suggested
      exact isIdentifier_unnamed

/-- An identifier may be followed by a number. -/
theorem isIdentifier_append_digits {base : String} (identifier : IsIdentifier base) (k : Nat) :
    IsIdentifier (base ++ toString k) := by
  obtain ⟨c, rest, spelled, first, notDigit, others⟩ := identifier
  refine ⟨c, rest ++ (toString k).toList, by simp [spelled], first, notDigit, ?_⟩
  intro d member
  rcases List.mem_append.mp member with member | member
  · exact others d member
  · have digit : d ∈ Nat.toDigits 10 k := by simpa [Nat.toString_eq_repr] using member
    exact isPlain_of_isDigit (Nat.isDigit_of_mem_toDigits (by decide) (by decide) digit)

/-- Every candidate for an identifier is one. -/
theorem isIdentifier_candidate {base : String} (identifier : IsIdentifier base) (k : Nat) :
    IsIdentifier (candidate base k) := by
  cases k with
  | zero => exact identifier
  | succ k => exact isIdentifier_append_digits identifier (k + 2)

/-- Different numbers give different candidates. -/
theorem candidate_injective (base : String) : Function.Injective (candidate base) := by
  have suffix : ∀ k, (candidate base k).toList =
      base.toList ++ (if k = 0 then [] else Nat.toDigits 10 (k + 1)) := by
    intro k
    cases k with
    | zero => simp [candidate]
    | succ k => simp [candidate, Nat.toString_eq_repr]
  intro i j same
  have digits := congrArg String.toList same
  rw [suffix, suffix, List.append_cancel_left_eq] at digits
  by_cases first : i = 0 <;> by_cases second : j = 0
  · rw [first, second]
  · simp only [first, second, ↓reduceIte] at digits
    exact (Nat.toDigits_ne_nil digits.symm).elim
  · simp only [first, second, ↓reduceIte] at digits
    exact (Nat.toDigits_ne_nil digits).elim
  · simp only [first, second, ↓reduceIte] at digits
    -- Digits are read back as the number they were written for.
    have read := congrArg (fun chars => Nat.ofDigitChars 10 chars 0) digits
    simpa using read

/-- An identifier is taken if it is used or reserved. -/
theorem taken_iff (names : Names) (identifier : String) :
    names.taken identifier = true ↔ identifier ∈ names.used ++ names.reserved := by
  simp [taken]

/-- Among one more candidate than there are taken identifiers one is free. -/
theorem exists_free_candidate (names : Names) (base : String) :
    ∃ k < names.used.length + names.reserved.length + 1,
      names.taken (candidate base k) = false := by
  -- Otherwise all candidates, which are distinct, fit among fewer taken identifiers.
  by_contra none
  push Not at none
  let bound := names.used.length + names.reserved.length + 1
  have distinct : ((List.range bound).map (candidate base)).Nodup :=
    List.nodup_range.map (candidate_injective base)
  have within : (List.range bound).map (candidate base) ⊆ names.used ++ names.reserved := by
    intro identifier member
    obtain ⟨k, below, rfl⟩ := List.mem_map.mp member
    exact (names.taken_iff _).mp (by simpa using none k (List.mem_range.mp below))
  have short := List.Nodup.length_le_of_subset distinct within
  simp only [List.length_map, List.length_range, List.length_append, bound] at short
  omega

/-- The first free candidate is a candidate, it is free, and those before it are taken. -/
theorem firstFree_spec (names : Names) (base : String) :
    ∃ k, names.firstFree base = candidate base k ∧ names.taken (candidate base k) = false ∧
      ∀ j < k, names.taken (candidate base j) = true := by
  unfold firstFree
  simp only
  split
  · rename_i k found
    obtain ⟨free, before⟩ := List.find?_range_eq_some.mp found
    exact ⟨k, rfl, by simpa using free, fun j below => by simpa using before.2 j below⟩
  · rename_i missing
    obtain ⟨k, below, free⟩ := names.exists_free_candidate base
    have := List.find?_eq_none.mp missing k (List.mem_range.mpr below)
    simp [free] at this

/-- A pool with the reserved words of the language, in which every filed identifier may be used as
a name. -/
structure Legal (names : Names) : Prop where
  reserved : names.reserved = reservedWords
  filed : ∀ entry ∈ names.table, IsName entry.2

theorem Legal.start : Legal start := ⟨rfl, fun _ member => nomatch member⟩

/-- The first identifier that is free may be used as a name. -/
theorem Legal.isName_firstFree {names : Names} (legal : names.Legal) {base : String}
    (identifier : IsIdentifier base) : IsName (names.firstFree base) := by
  obtain ⟨k, same, free, _⟩ := names.firstFree_spec base
  rw [same]
  refine ⟨isIdentifier_candidate identifier k, fun reserved => ?_⟩
  rw [← legal.reserved] at reserved
  have := (names.taken_iff (candidate base k)).mpr (List.mem_append_right _ reserved)
  simp [this] at free

/-- What is found in a table is filed there under the same space and name. -/
theorem mem_table_of_search {space : Space} {name : Value} {identifier : String} :
    ∀ {table : List ((Value × Value) × String)}, find?.search space name table = some identifier →
      ∃ label known, ((label, known), identifier) ∈ table ∧ label.same space.label = true ∧
        known.same name = true
  | [], found => nomatch found
  | ((label, known), _) :: rest, found => by
      unfold find?.search at found
      split at found
      · rename_i same
        cases found
        exact ⟨label, known, List.mem_cons_self .., Bool.and_eq_true_iff.mp same⟩
      · obtain ⟨label, known, member, same⟩ := mem_table_of_search found
        exact ⟨label, known, List.mem_cons_of_mem _ member, same⟩

/-- What is found may be used as a name. -/
theorem Legal.isName_of_find? {names : Names} (legal : names.Legal) {space : Space} {name : Value}
    {identifier : String} (found : names.find? space name = some identifier) :
    IsName identifier := by
  obtain ⟨_, _, member, _⟩ := mem_table_of_search found
  exact legal.filed _ member

end Names

end BlockScript
