/-! # Tables in order of insertion

A table lists named entries in the order in which their names were first entered. Entering a name
again replaces its entry and keeps its place.
-/

namespace BlockScript

/-- Named entries in order of first insertion. -/
abbrev Table (α : Type) := List (String × α)

namespace Table

variable {α : Type}

/-- The entry of a name. -/
def get? (table : Table α) (name : String) : Option α :=
  match table with
  | [] => none
  | (key, entry) :: rest => if key = name then some entry else get? rest name

/-- Whether a name has an entry. -/
def has (table : Table α) (name : String) : Bool := (table.get? name).isSome

/-- The names, in order. -/
def keys (table : Table α) : List String := table.map (·.1)

/-- The entries, in order. -/
def entries (table : Table α) : List α := table.map (·.2)

/-- Enters a name: a known name keeps its place and gets the new entry, a new one goes last. -/
def insert (table : Table α) (name : String) (entry : α) : Table α :=
  match table with
  | [] => [(name, entry)]
  | (key, old) :: rest =>
      if key = name then (key, entry) :: rest else (key, old) :: insert rest name entry

@[simp]
theorem get?_insert_self (table : Table α) (name : String) (entry : α) :
    (table.insert name entry).get? name = some entry := by
  induction table with
  | nil => simp [insert, get?]
  | cons head rest ih =>
      by_cases found : head.1 = name
      · simp [insert, get?, found]
      · simp [insert, get?, found, ih]

/-- Entering a name leaves the entries of the others. -/
theorem get?_insert_of_ne (table : Table α) {name other : String} (entry : α)
    (distinct : other ≠ name) :
    (table.insert name entry).get? other = table.get? other := by
  induction table with
  | nil => simp [insert, get?, distinct.symm]
  | cons head rest ih =>
      by_cases found : head.1 = name
      · simp [insert, get?, found, distinct.symm]
      · simp [insert, get?, found, ih]

/-- The names with an entry are the listed ones. -/
theorem has_iff_mem_keys (table : Table α) (name : String) :
    table.has name = true ↔ name ∈ table.keys := by
  induction table with
  | nil => simp [has, get?, keys]
  | cons head rest ih =>
      by_cases found : head.1 = name
      · simp [has, get?, keys, found]
      · simpa [has, get?, keys, found, Ne.symm found] using ih

/-- A name keeps its place, and a new one goes last. -/
theorem keys_insert (table : Table α) (name : String) (entry : α) :
    (table.insert name entry).keys =
      if table.has name then table.keys else table.keys ++ [name] := by
  induction table with
  | nil => rfl
  | cons head rest ih =>
      by_cases found : head.1 = name
      · simp [insert, has, get?, keys, found]
      · simp only [insert, keys, has, get?, found, if_false, List.map_cons] at ih ⊢
        rw [ih]
        by_cases known : (get? rest name).isSome <;> simp [known]

end Table

end BlockScript
