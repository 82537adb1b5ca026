import Mathlib.Data.List.Pairwise
import BlockScript.Proofs.Naming

/-! # Runs of a pool

A pool is asked for identifiers again and again, for names in spaces and for identifiers of their
own, in any order. The record of such a run says which identifier every call got. The table of the
pool is exactly what the record has of named calls, and everything in the record is in use
(`Names.Recorded`); a call keeps this (`Names.Recorded.answer`). So two calls of a run get one
identifier only when both ask for the same name in the same space (`Names.answers_distinct`).
-/

namespace BlockScript

namespace Names

/-- A call on a pool, for the identifier of a name or for an identifier of its own. The label of the
space is a text. -/
structure Call where
  /-- Whether the name is to have the same identifier at every call. -/
  steady : Bool
  space : Space
  label : String
  labelled : space.label = .text label
  name : String

namespace Call

/-- The step on the pool that a call asks for. -/
def request (call : Call) : Naming Grant :=
  if call.steady then identify call.space (.text call.name)
  else fresh call.space (.text call.name)

/-- A call asks for the steady identifier of a name in a space. -/
def Asks (call : Call) (label name : String) : Prop :=
  call.steady = true ∧ call.label = label ∧ call.name = name

instance (call : Call) (label name : String) : Decidable (call.Asks label name) :=
  inferInstanceAs (Decidable (_ ∧ _ ∧ _))

/-- Two calls ask for the steady identifier of the same name in the same space. -/
def Repeats (first second : Call) : Prop :=
  first.Asks second.label second.name ∧ second.steady = true

theorem Repeats.symm {first second : Call} (repeats : first.Repeats second) :
    second.Repeats first := by
  obtain ⟨⟨steady, label, name⟩, other⟩ := repeats
  exact ⟨⟨other, label.symm, name.symm⟩, steady⟩

theorem Repeats.asks {first second : Call} {label name : String} (repeats : first.Repeats second)
    (asks : second.Asks label name) : first.Asks label name := by
  obtain ⟨⟨steady, sameLabel, sameName⟩, _⟩ := repeats
  exact ⟨steady, sameLabel.trans asks.2.1, sameName.trans asks.2.2⟩

end Call

/-- What the calls of a run get, one after the other on the same pool. -/
def answers : Names → List Call → List (Attempt String)
  | _, [] => []
  | names, call :: rest =>
      let (result, after) := call.request.run.run names
      result.map (·.identifier) :: answers after rest

/-- The first free candidate for a base is not in use and not reserved. -/
theorem firstFree_not_mem (names : Names) (base : String) :
    names.firstFree base ∉ names.used ∧ names.firstFree base ∉ names.reserved := by
  obtain ⟨k, same, free, _⟩ := names.firstFree_spec base
  have absent : candidate base k ∉ names.used ++ names.reserved := by
    intro member
    rw [(names.taken_iff _).mpr member] at free
    cases free
  rw [same]
  exact ⟨fun member => absent (List.mem_append_left _ member),
    fun member => absent (List.mem_append_right _ member)⟩

theorem isIdentifier_firstFree (names : Names) (name : String) :
    IsIdentifier (names.firstFree (sanitize name)) := by
  obtain ⟨k, same, _, _⟩ := names.firstFree_spec (sanitize name)
  rw [same]
  exact isIdentifier_candidate (isIdentifier_sanitize name) k

/-- A text gets the first free candidate as an identifier of its own. -/
theorem run_fresh (call : Call) (names : Names) :
    ∃ notice, (fresh call.space (.text call.name)).run.run names =
      (.ok ⟨names.firstFree (sanitize call.name), notice⟩,
        names.markUsed (names.firstFree (sanitize call.name))) := by
  have suggested : suggestion (.text call.name) = .ok (sanitize call.name) := rfl
  obtain ⟨notice, noted⟩ :=
    exists_noticeFor call.labelled (.text call.name) (names.firstFree (sanitize call.name))
  refine ⟨notice, ?_⟩
  rw [fresh_run, suggested]
  dsimp only
  rw [noted]

/-- A text whose identifier is known gets it, and one without gets an identifier of its own, which
is filed. -/
theorem run_identify (call : Call) (names : Names) :
    ∃ notice, (identify call.space (.text call.name)).run.run names =
      match names.find? call.space (.text call.name) with
      | some identifier => (.ok ⟨identifier, none⟩, names)
      | none =>
          (.ok ⟨names.firstFree (sanitize call.name), notice⟩,
            (names.markUsed (names.firstFree (sanitize call.name))).record call.space
              (.text call.name) (names.firstFree (sanitize call.name))) := by
  have labelled : call.space.label.atom = .ok () := by
    rw [call.labelled]
    rfl
  have named : (Value.text call.name).atom = .ok () := rfl
  obtain ⟨notice, granted⟩ := run_fresh call names
  refine ⟨notice, ?_⟩
  rw [identify_run, labelled, named, granted]
  cases names.find? call.space (.text call.name) with
  | some identifier => rfl
  | none => rfl

theorem search_singleton (call : Call) (entry : (Value × Value) × String) {label name : String}
    (filed : entry.1 = (.text label, .text name)) :
    find?.search call.space (.text call.name) [entry] =
      if label = call.label ∧ name = call.name then some entry.2 else none := by
  obtain ⟨⟨first, second⟩, identifier⟩ := entry
  cases filed
  unfold find?.search
  rw [call.labelled]
  simp [Value.same, Value.sameAtom, find?.search]

/-- Two calls got the same identifier exactly if they repeat each other. -/
def Agree (first second : Call × String) : Prop :=
  first.2 = second.2 ↔ first.1.Repeats second.1

instance : Std.Symm Agree where
  symm first second agree := by
    constructor
    · intro shared
      exact (agree.mp shared.symm).symm
    · intro repeats
      exact (agree.mpr repeats.symm).symm

/-- What a pool knows of the calls made on it so far and of what they got. -/
structure Recorded (history : List (Call × String)) (names : Names) : Prop where
  used : ∀ entry ∈ history, entry.2 ∈ names.used
  /-- The table has what named calls got, and nothing else. -/
  filed : ∀ (call : Call) (identifier : String),
    names.find? call.space (.text call.name) = some identifier ↔
      ∃ entry ∈ history, entry.1.Asks call.label call.name ∧ entry.2 = identifier
  proper : ∀ entry ∈ history, IsIdentifier entry.2 ∧ entry.2 ∉ names.reserved
  distinct : history.Pairwise Agree

namespace Recorded

variable {history : List (Call × String)} {names : Names}

theorem start (reserved : List String) : Recorded [] (withReserved reserved) where
  used := fun _ member => nomatch member
  filed := by
    intro call identifier
    constructor
    · intro found
      cases found
    · rintro ⟨_, member, _⟩
      cases member
  proper := fun _ member => nomatch member
  distinct := .nil

/-- Whatever got the identifier of a name had asked for that name. -/
theorem asks_of_find? (recorded : Recorded history names) {call : Call} {identifier : String}
    (found : names.find? call.space (.text call.name) = some identifier)
    {entry : Call × String} (member : entry ∈ history) (same : entry.2 = identifier) :
    entry.1.Asks call.label call.name := by
  obtain ⟨owner, owned, asks, granted⟩ := (recorded.filed call identifier).mp found
  by_cases equal : entry = owner
  · rw [equal]
    exact asks
  · have agree : Agree entry owner := recorded.distinct.forall member owned equal
    exact (agree.mp (same.trans granted.symm)).asks asks

/-- A name that is known gets its identifier again. -/
theorem known (recorded : Recorded history names) {call : Call} (steady : call.steady = true)
    {identifier : String} (found : names.find? call.space (.text call.name) = some identifier) :
    Recorded (history ++ [(call, identifier)]) names := by
  obtain ⟨owner, owned, asks, granted⟩ := (recorded.filed call identifier).mp found
  constructor
  · intro entry member
    rcases List.mem_append.mp member with earlier | latest
    · exact recorded.used entry earlier
    · rw [List.mem_singleton.mp latest, ← granted]
      exact recorded.used owner owned
  · intro other answer
    rw [recorded.filed other answer]
    constructor
    · rintro ⟨entry, member, rest⟩
      exact ⟨entry, List.mem_append_left _ member, rest⟩
    · rintro ⟨entry, member, asked, same⟩
      rcases List.mem_append.mp member with earlier | latest
      · exact ⟨entry, earlier, asked, same⟩
      · rw [List.mem_singleton.mp latest] at asked same
        obtain ⟨_, label, name⟩ := asked
        refine ⟨owner, owned, ?_, granted.trans same⟩
        rw [← label, ← name]
        exact asks
  · intro entry member
    rcases List.mem_append.mp member with earlier | latest
    · exact recorded.proper entry earlier
    · rw [List.mem_singleton.mp latest, ← granted]
      exact recorded.proper owner owned
  · apply List.pairwise_append.mpr
    refine ⟨recorded.distinct, List.pairwise_singleton .., ?_⟩
    intro entry member latest isLatest
    rw [List.mem_singleton.mp isLatest]
    constructor
    · intro same
      exact ⟨recorded.asks_of_find? found member same, steady⟩
    · intro repeats
      have again := (recorded.filed call entry.2).mpr ⟨entry, member, repeats.1, rfl⟩
      rw [found] at again
      exact (Option.some.inj again).symm

/-- A call that repeats no earlier one gets an identifier that is not in use. -/
theorem granted (recorded : Recorded history names) {call : Call} {identifier : String}
    {later : Names} (fresh : identifier ∉ names.used)
    (proper : IsIdentifier identifier ∧ identifier ∉ names.reserved)
    (single : ∀ entry ∈ history, ¬ entry.1.Repeats call)
    (reserved : later.reserved = names.reserved) (used : later.used = identifier :: names.used)
    (table : ∀ other : Call, later.find? other.space (.text other.name) =
      (names.find? other.space (.text other.name)).or
        (if call.Asks other.label other.name then some identifier else none)) :
    Recorded (history ++ [(call, identifier)]) later := by
  constructor
  · intro entry member
    rw [used]
    rcases List.mem_append.mp member with earlier | latest
    · exact List.mem_cons_of_mem _ (recorded.used entry earlier)
    · rw [List.mem_singleton.mp latest]
      exact List.mem_cons_self ..
  · intro other answer
    rw [table other]
    constructor
    · intro found
      rcases Option.or_eq_some_iff.mp found with known | ⟨_, newly⟩
      · obtain ⟨entry, member, rest⟩ := (recorded.filed other answer).mp known
        exact ⟨entry, List.mem_append_left _ member, rest⟩
      · obtain ⟨asks, same⟩ := Option.ite_none_right_eq_some.mp newly
        exact ⟨(call, identifier), List.mem_append_right _ (List.mem_singleton_self _), asks,
          Option.some.inj same⟩
    · rintro ⟨entry, member, asks, same⟩
      rcases List.mem_append.mp member with earlier | latest
      · rw [(recorded.filed other answer).mpr ⟨entry, earlier, asks, same⟩]
        rfl
      · rw [List.mem_singleton.mp latest] at asks same
        have unknown : names.find? other.space (.text other.name) = none := by
          apply Option.eq_none_iff_forall_ne_some.mpr
          intro known found
          obtain ⟨entry, earlier, asked, _⟩ := (recorded.filed other known).mp found
          apply single entry earlier
          exact ⟨⟨asked.1, asked.2.1.trans asks.2.1.symm, asked.2.2.trans asks.2.2.symm⟩, asks.1⟩
        rw [unknown, Option.none_or, if_pos asks]
        exact congrArg some same
  · intro entry member
    rw [reserved]
    rcases List.mem_append.mp member with earlier | latest
    · exact recorded.proper entry earlier
    · rw [List.mem_singleton.mp latest]
      exact proper
  · apply List.pairwise_append.mpr
    refine ⟨recorded.distinct, List.pairwise_singleton .., ?_⟩
    intro entry member latest isLatest
    rw [List.mem_singleton.mp isLatest]
    constructor
    · intro same
      have known := recorded.used entry member
      rw [same] at known
      exact (fresh known).elim
    · intro repeats
      exact (single entry member repeats).elim

/-- **A call keeps the record.** It gets an identifier, and the pool knows of it from then on. -/
theorem answer (recorded : Recorded history names) (call : Call) :
    ∃ grant later, call.request.run.run names = (.ok grant, later) ∧
      later.reserved = names.reserved ∧
      Recorded (history ++ [(call, grant.identifier)]) later := by
  have proper : IsIdentifier (names.firstFree (sanitize call.name)) ∧
      names.firstFree (sanitize call.name) ∉ names.reserved :=
    ⟨names.isIdentifier_firstFree call.name, (names.firstFree_not_mem _).2⟩
  have unused := (names.firstFree_not_mem (sanitize call.name)).1
  unfold Call.request
  cases steady : call.steady with
  | false =>
      obtain ⟨notice, ran⟩ := run_fresh call names
      refine ⟨_, _, ran, rfl, recorded.granted unused proper ?_ rfl rfl ?_⟩
      · intro entry _ repeats
        exact Bool.false_ne_true (steady.symm.trans repeats.2)
      · intro other
        have silent : ¬ call.Asks other.label other.name := by
          intro asks
          exact Bool.false_ne_true (steady.symm.trans asks.1)
        rw [if_neg silent, Option.or_none]
        rfl
  | true =>
      obtain ⟨notice, ran⟩ := run_identify call names
      cases found : names.find? call.space (.text call.name) with
      | some identifier =>
          rw [found] at ran
          exact ⟨_, _, ran, rfl, recorded.known steady found⟩
      | none =>
          rw [found] at ran
          refine ⟨_, _, ran, rfl, recorded.granted unused proper ?_ rfl rfl ?_⟩
          · intro entry member repeats
            have known := (recorded.filed call entry.2).mpr ⟨entry, member, repeats.1, rfl⟩
            rw [found] at known
            cases known
          · intro other
            change find?.search other.space (.text other.name) (names.table ++ [_]) = _
            rw [search_append, search_singleton other _ (by rw [call.labelled])]
            simp only [Call.Asks, steady, true_and]
            rfl

/-- The calls of a run all get an identifier, and the record goes on with them. -/
theorem run (recorded : Recorded history names) (calls : List Call) :
    ∃ identifiers later, names.answers calls = identifiers.map .ok ∧
      identifiers.length = calls.length ∧ later.reserved = names.reserved ∧
      Recorded (history ++ calls.zip identifiers) later := by
  induction calls generalizing history names with
  | nil =>
      refine ⟨[], names, rfl, rfl, rfl, ?_⟩
      rw [List.zip_nil_left, List.append_nil]
      exact recorded
  | cons call rest ih =>
      obtain ⟨grant, between, ran, kept, next⟩ := recorded.answer call
      obtain ⟨identifiers, later, answered, length, reserved, last⟩ := ih next
      refine ⟨grant.identifier :: identifiers, later, ?_, ?_, reserved.trans kept, ?_⟩
      · rw [answers, ran, List.map_cons, ← answered]
        rfl
      · rw [List.length_cons, List.length_cons, length]
      · rw [List.zip_cons_cons, List.append_cons]
        exact last

end Recorded

/-- **No identifier is handed out for two purposes.** However a pool that has handed out nothing is
called, for names in spaces and for identifiers of their own, every call gets an identifier. Each is
a plain word that does not start with a digit, and none is reserved. Any two calls get the same one
exactly if both ask for the identifier of the same name in the same space. -/
theorem answers_distinct (reserved : List String) (calls : List Call) :
    ∃ identifiers : List String,
      (withReserved reserved).answers calls = identifiers.map .ok ∧
      (∀ identifier ∈ identifiers, IsIdentifier identifier ∧ identifier ∉ reserved) ∧
      (calls.zip identifiers).Pairwise Agree := by
  obtain ⟨identifiers, later, answered, length, kept, recorded⟩ :=
    (Recorded.start reserved).run calls
  rw [List.nil_append] at recorded
  refine ⟨identifiers, answered, ?_, recorded.distinct⟩
  intro identifier member
  rw [← List.map_snd_zip (Nat.le_of_eq length)] at member
  obtain ⟨entry, entered, rfl⟩ := List.mem_map.mp member
  have proper := recorded.proper entry entered
  rw [kept] at proper
  exact proper

/-- A steady call for a variable. -/
def Call.variable (name : String) : Call := ⟨true, .user, "VARIABLE", rfl, name⟩

-- A number that a name has already is no obstacle to numbering another one.
example : ((withReserved ["x"]).answers
    [.variable "x2", .variable "x", .variable "x 2", .variable "x"]).map (·.toOption) =
      [some "x2", some "x3", some "x_2", some "x3"] := by
  decide +kernel

end Names

end BlockScript
