import BlockScript.Value.Access

/-! # When values are the same

Atoms are the same when they identify the same thing (`Value.same_iff_identity`), so sameness is an
equivalence among them. A text is the same as itself only.
-/

namespace BlockScript

theorem Binary64.Place.ofInt_inj {m n : Int} : Place.ofInt m = Place.ofInt n ↔ m = n := by
  refine ⟨fun same => ?_, congrArg Place.ofInt⟩
  injection same with scaled
  exact Int.eq_of_mul_eq_mul_right (Int.ne_of_gt (Int.pow_pos (by decide))) scaled

namespace Value

/-- What an atom identifies, whatever its spelling. -/
inductive Identity where
  | null
  | text (chars : String)
  | number (place : Binary64.Place)
  | nan

/-- The identity of an atom; lists and objects have none. -/
def identity : Value → Option Identity
  | .null => some .null
  | .text chars => some (.text chars)
  | .real .nan => some .nan
  | value => value.place.map .number

/-- **Sameness is equality of identities.** -/
theorem same_iff_identity {a b : Value} (atom : a.isAtom = true) :
    a.same b = true ↔ a.identity = b.identity := by
  -- Each pair of kinds is compared in a way of its own; infinities have a place each.
  rcases a with _ | _ | _ | (_ | (_ | _) | _) | _ | _ | _ <;>
    rcases b with _ | _ | _ | (_ | (_ | _) | _) | _ | _ | _ <;>
    simp [same, sameAtom, identity, place, Binary64.place, isAtom,
      Binary64.Place.ofInt_inj] at atom ⊢

/-- Lists and objects have no identity. -/
theorem identity_eq_none {value : Value} (composed : value.isAtom = false) :
    value.identity = none := by
  cases value with
  | list | object => rfl
  | null | bool | int | real | text => cases composed

/-- Atoms have one. -/
theorem identity_ne_none {value : Value} (atom : value.isAtom = true) : value.identity ≠ none := by
  rcases value with _ | _ | _ | (_ | (_ | _) | _) | _ | _ | _ <;>
    simp [identity, place, Binary64.place, isAtom] at atom ⊢

/-- Whatever is the same as an atom has its identity. -/
theorem same_atom_iff_identity {a b : Value} (atom : b.isAtom = true) :
    a.same b = true ↔ a.identity = b.identity := by
  cases first : a.isAtom with
  | true => exact same_iff_identity first
  | false =>
      rw [identity_eq_none first]
      apply iff_of_false
      · cases a with
        | list | object => cases b <;> simp [same, sameAtom, place, isAtom] at atom ⊢
        | null | bool | int | real | text => cases first
      · exact (identity_ne_none atom).symm

/-- An atom is the same as itself. -/
theorem same_self {value : Value} (atom : value.isAtom = true) : value.same value = true :=
  (same_iff_identity atom).mpr rfl

/-- What can be looked up is an atom. -/
theorem isAtom_of_atom {value : Value} (identified : value.atom = .ok ()) :
    value.isAtom = true := by
  unfold atom at identified
  split at identified
  · assumption
  · cases identified

/-- Texts are atoms. -/
theorem isAtom_of_isSomeText {value : Value} (text : value.isSomeText = true) :
    value.isAtom = true := by
  cases value with
  | text => rfl
  | null | bool | int | real | list | object => cases text

theorem eq_text_of_isSomeText {value : Value} (text : value.isSomeText = true) :
    value = .text value.chars := by
  cases value with
  | text => rfl
  | null | bool | int | real | list | object => cases text

/-- Nothing but a text is the same as it. -/
theorem same_text {value : Value} {chars : String} :
    value.same (.text chars) = true ↔ value = .text chars := by
  cases value with
  | text own => simp [same, sameAtom]
  | null | bool | int | real | list | object => simp [same, sameAtom, place]

/-- A text stands for itself. -/
theorem display?_of_isSomeText {value : Value} (text : value.isSomeText = true) :
    value.display? = some value.chars := by
  rw [eq_text_of_isSomeText text]
  rfl

/-- A text is the same as itself only, -/
theorem same_iff_eq {value other : Value} (text : other.isSomeText = true) :
    value.same other = true ↔ value = other := by
  rw [eq_text_of_isSomeText text]
  exact same_text

/-- whichever is asked. -/
theorem same_iff_eq_of_left {value other : Value} (text : value.isSomeText = true) :
    value.same other = true ↔ value = other := by
  rw [eq_text_of_isSomeText text]
  cases other with
  | text own => simp [same, sameAtom]
  | null | bool | int | real | list | object => simp [same, sameAtom, place]

/-- Texts are equal if they are the same text. -/
theorem equals_iff_eq {held child : Value} (heldText : held.isSomeText = true)
    (text : child.isSomeText = true) : held.equals child = true ↔ held = child := by
  rw [eq_text_of_isSomeText heldText]
  exact same_iff_eq text

theorem isText_iff {value : Value} {chars : String} :
    value.isText chars = true ↔ value = .text chars := by
  cases value with
  | text own => simp [isText]
  | null | bool | int | real | list | object => simp [isText]

/-- A text counts as true unless it is empty. -/
theorem isTrue_iff_ne_empty {value : Value} (text : value.isSomeText = true) :
    value.isTrue = true ↔ value ≠ .text "" := by
  rw [eq_text_of_isSomeText text]
  simp [isTrue]

end Value

end BlockScript
