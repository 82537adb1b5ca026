import Mathlib.Order.Bounds.Basic
import BlockScript.Proofs.Allocation
import BlockScript.Proofs.Number.Reading
import BlockScript.Proofs.Verbatim

/-! # The least free suffix

An identifier of its own is looked for by trying suffixes: none, `2`, and from then on the number
after the last one, each kept as text and read again for the next round. `Names.Search` says how
such a search goes. It ends after at most as many rounds as there are taken identifiers
(`Names.search_firstFree`), and the suffix it ends with is the least that makes the identifier free
(`Names.fresh_takes_least`).
-/

namespace BlockScript

namespace Names

/-- An identifier is free when it is neither in use nor reserved. -/
def Free (names : Names) (identifier : String) : Prop :=
  identifier ∉ names.used ∧ identifier ∉ names.reserved

instance (names : Names) (identifier : String) : Decidable (names.Free identifier) :=
  inferInstanceAs (Decidable (_ ∧ _))

theorem free_iff (names : Names) (identifier : String) :
    names.Free identifier ↔ names.taken identifier = false := by
  simp [Free, taken]

/-! ## The search -/

/-- The suffix to try after another one. -/
def nextSuffix (suffix : String) : String :=
  if suffix.isEmpty then "2" else toString (Numeral.ofDigits suffix.toList + 1)

/-- The search for a free identifier from a suffix on, with the number of its rounds and the suffix
that it ends with. -/
inductive Search (names : Names) (base : String) : String → Nat → String → Prop
  | found {suffix : String} (free : names.Free (base ++ suffix)) : Search names base suffix 0 suffix
  | round {suffix last : String} {rounds : Nat} (taken : ¬ names.Free (base ++ suffix))
      (rest : Search names base (nextSuffix suffix) rounds last) :
      Search names base suffix (rounds + 1) last

/-- The suffix of a candidate. -/
def suffixOf : Nat → String
  | 0 => ""
  | k + 1 => toString (k + 2)

theorem candidate_eq_append (base : String) (k : Nat) : candidate base k = base ++ suffixOf k := by
  cases k with
  | zero => simp [candidate, suffixOf]
  | succ k => rfl

/-- Each candidate is tried after the one before it. -/
theorem nextSuffix_suffixOf (k : Nat) : nextSuffix (suffixOf k) = suffixOf (k + 1) := by
  cases k with
  | zero => rfl
  | succ k =>
      have digits : (toString (k + 2)).toList = Nat.toDigits 10 (k + 2) := by
        simp [Nat.toString_eq_repr]
      have nonempty : (toString (k + 2)).isEmpty = false := by
        rw [← Bool.not_eq_true, String.isEmpty_iff, ← String.toList_eq_nil_iff, digits]
        exact Nat.toDigits_ne_nil
      rw [suffixOf, nextSuffix, nonempty, digits, Numeral.ofDigits_toDigits]
      rfl

/-- A search passes over the candidates that are taken, and ends at the first one that is free. -/
theorem search_of_candidates {names : Names} {base : String} {k : Nat}
    (free : names.taken (candidate base k) = false)
    (before : ∀ j < k, names.taken (candidate base j) = true) {rounds : Nat} (within : rounds ≤ k) :
    Search names base (suffixOf (k - rounds)) rounds (suffixOf k) := by
  -- The rounds are counted from the end of the search backwards.
  induction rounds with
  | zero =>
      refine .found ?_
      rw [Nat.sub_zero, ← candidate_eq_append, free_iff]
      exact free
  | succ rounds ih =>
      have next : k - rounds = k - (rounds + 1) + 1 := by omega
      refine .round ?_ ?_
      · rw [← candidate_eq_append, free_iff, before _ (by omega)]
        exact Bool.noConfusion
      · rw [nextSuffix_suffixOf, ← next]
        exact ih (by omega)

/-- **The search ends.** From the empty suffix on it needs no more rounds than there are taken
identifiers, and it ends with the identifier that is handed out. -/
theorem search_firstFree (names : Names) (base : String) :
    ∃ rounds suffix, Search names base "" rounds suffix ∧
      rounds ≤ names.used.length + names.reserved.length ∧
        names.firstFree base = base ++ suffix := by
  obtain ⟨k, same, free, before⟩ := names.firstFree_spec base
  obtain ⟨j, bounded, otherFree⟩ := names.exists_free_candidate base
  have least : k ≤ j := by
    by_contra later
    rw [before j (by omega)] at otherFree
    cases otherFree
  have search := search_of_candidates free before (Nat.le_refl k)
  rw [Nat.sub_self] at search
  exact ⟨k, suffixOf k, search, by omega, by rw [same, candidate_eq_append]⟩

/-! ## The suffix -/

/-- An identifier is the base itself when that is free, and else the base with the least number from
two on that makes it free. -/
structure LeastSuffix (names : Names) (base identifier : String) : Prop where
  bare : names.Free base → identifier = base
  numbered : ¬ names.Free base →
    ∃ k, IsLeast {k : Nat | 2 ≤ k ∧ names.Free (base ++ toString k)} k ∧
      identifier = base ++ toString k

theorem leastSuffix_firstFree (names : Names) (base : String) :
    LeastSuffix names base (names.firstFree base) := by
  obtain ⟨k, same, free, before⟩ := names.firstFree_spec base
  rw [same]
  cases k with
  | zero =>
      exact ⟨fun _ => rfl, fun taken => (taken ((names.free_iff base).mpr free)).elim⟩
  | succ k =>
      have taken : ¬ names.Free base := by
        rw [free_iff, ← Bool.not_eq_true, not_not]
        exact before 0 (Nat.succ_pos k)
      refine ⟨fun bare => (taken bare).elim, fun _ => ⟨k + 2, ⟨⟨by omega, ?_⟩, ?_⟩, rfl⟩⟩
      · exact (names.free_iff _).mpr free
      · rintro j ⟨numbered, otherFree⟩
        by_contra less
        obtain ⟨i, rfl⟩ : ∃ i, j = i + 2 := ⟨j - 2, by omega⟩
        have passed : names.taken (base ++ toString (i + 2)) = true := before (i + 1) (by omega)
        rw [(names.free_iff _).mp otherFree] at passed
        cases passed

/-- **Fresh names take the least free suffix.** In any pool and for any text, the search for an
identifier ends, within as many rounds as there are taken identifiers. What it ends with is handed
out: what the text suggests if that is free, or else that with the least number from two on that
makes it free. The pool has that identifier in use from then on, and is unchanged otherwise. What a
text suggests suggests itself, and so does every word of letters, digits and underscores that does
not start with a digit. -/
theorem fresh_takes_least (call : Call) (names : Names) :
    (∃ suffix rounds notice,
      Search names (sanitize call.name) "" rounds suffix ∧
      rounds ≤ names.used.length + names.reserved.length ∧
      (fresh call.space (.text call.name)).run.run names =
        (.ok ⟨sanitize call.name ++ suffix, notice⟩,
          { names with used := (sanitize call.name ++ suffix) :: names.used }) ∧
      LeastSuffix names (sanitize call.name) (sanitize call.name ++ suffix)) ∧
    sanitize (sanitize call.name) = sanitize call.name ∧
    ∀ text, IsIdentifier text → sanitize text = text := by
  obtain ⟨rounds, suffix, search, bounded, same⟩ := names.search_firstFree (sanitize call.name)
  obtain ⟨notice, ran⟩ := run_fresh call names
  have least := names.leastSuffix_firstFree (sanitize call.name)
  rw [same] at ran least
  exact ⟨⟨suffix, rounds, notice, search, bounded, ran, least⟩,
    sanitize_of_isIdentifier (isIdentifier_sanitize call.name),
    fun _ proper => sanitize_of_isIdentifier proper⟩

/-- A pool in which the first numbers for `x` are taken, and one after a gap. -/
def crowdedPool : Names := ⟨["x3"], [], ["x", "x2", "x5"]⟩

theorem fresh_takes_least_crowdedPool :
    IsIdentifier "x" ∧ sanitize "x" = "x" ∧ ∃ notice,
      (fresh .user (.text "x")).run.run crowdedPool =
        (.ok ⟨"x4", notice⟩, { crowdedPool with used := "x4" :: crowdedPool.used }) := by
  have proper : IsIdentifier "x" := ⟨'x', [], rfl, rfl, rfl, by decide⟩
  obtain ⟨⟨suffix, rounds, notice, _, _, ran, least⟩, _, keeps⟩ :=
    fresh_takes_least (.variable "x") crowdedPool
  have kept : sanitize (Call.variable "x").name = "x" := keeps "x" proper
  rw [kept] at ran least
  obtain ⟨k, ⟨⟨two, free⟩, lower⟩, same⟩ := least.numbered (by decide)
  have upper : k ≤ 4 := lower ⟨by decide, by decide⟩
  obtain rfl : k = 4 := by
    by_contra other
    obtain rfl | rfl : k = 2 ∨ k = 3 := by omega
    · exact absurd free (by decide)
    · exact absurd free (by decide)
  rw [same] at ran
  exact ⟨proper, kept, notice, ran⟩

end Names

end BlockScript
