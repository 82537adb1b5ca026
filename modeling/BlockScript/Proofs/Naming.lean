import BlockScript.Proofs.Reach
import BlockScript.Proofs.Sameness

/-! # Names that are found again

A value that can be the name of a variable has an identifier from its first request on, and it keeps
it: the table of a pool only grows, and a name is the same as itself (`Names.identify_eq`,
`Pass.identifier_eq`).
-/

namespace BlockScript

namespace Names

/-- A value that can be the name of a variable. -/
def Nameable (name : Value) : Prop := name.isAtom = true ∧ ∃ base, suggestion name = .ok base

/-- Variables keep their identifiers. -/
def Grows (names later : Names) : Prop :=
  ∀ name identifier, names.find? .user name = some identifier →
    later.find? .user name = some identifier

theorem Grows.refl (names : Names) : Grows names names := fun _ _ found => found

theorem Grows.trans {first second third : Names} (earlier : Grows first second)
    (later : Grows second third) : Grows first third :=
  fun name identifier found => later name identifier (earlier name identifier found)

theorem search_append {space : Space} {name : Value}
    (table more : List ((Value × Value) × String)) :
    find?.search space name (table ++ more) =
      (find?.search space name table).or (find?.search space name more) := by
  induction table with
  | nil => rfl
  | cons entry table ih =>
    rw [List.cons_append, find?.search, find?.search, ih]
    split <;> rfl

theorem grows_record (names : Names) (name : Value) (identifier : String) :
    Grows names (names.record .user name identifier) := by
  intro other known found
  unfold find? record at *
  rw [search_append, found]
  rfl

theorem find?_record {names : Names} {space : Space} {name : Value}
    (label : space.label.isAtom = true) (atom : name.isAtom = true)
    (missing : names.find? space name = none) (identifier : String) :
    (names.record space name identifier).find? space name = some identifier := by
  unfold find? record at *
  rw [search_append, missing]
  simp [find?.search, Value.same_self atom, Value.same_self label]

/-- A call for an identifier of its own, by what the name suggests and whether it can be noted. -/
theorem fresh_run (space : Space) (name : Value) (names : Names) :
    (fresh space name).run.run names =
      match suggestion name with
      | .error fault => (.error fault, names)
      | .ok base =>
          match noticeFor space name (names.firstFree base) with
          | .error fault => (.error fault, names.markUsed (names.firstFree base))
          | .ok notice =>
              (.ok ⟨names.firstFree base, notice⟩, names.markUsed (names.firstFree base)) := by
  unfold fresh
  rcases suggestion name with fault | base
  · rfl
  · change (ofExcept (noticeFor space name (names.firstFree base)) >>= fun notice =>
      pure ⟨names.firstFree base, notice⟩ : Naming Grant).run.run
        (names.markUsed (names.firstFree base)) = _
    dsimp only
    rcases noticeFor space name (names.firstFree base) with fault | notice
    · rfl
    · rfl

/-- A call for the identifier of a name: one that is known is found, and any other is granted one,
which is filed. -/
theorem identify_run (space : Space) (name : Value) (names : Names) :
    (identify space name).run.run names =
      match space.label.atom, name.atom, names.find? space name with
      | .error fault, _, _ | .ok _, .error fault, _ => (.error fault, names)
      | .ok _, .ok _, some identifier => (.ok ⟨identifier, none⟩, names)
      | .ok _, .ok _, none =>
          match (fresh space name).run.run names with
          | (.error fault, after) => (.error fault, after)
          | (.ok grant, after) => (.ok grant, after.record space name grant.identifier) := by
  have passed (done : Unit) :
      (ofExcept (.ok done : Attempt Unit) : Naming Unit).run.run names = (.ok done, names) := rfl
  have looked : (get : Naming Names).run.run names = (.ok names, names) := rfl
  unfold identify
  rw [Step.run_bind]
  rcases space.label.atom with fault | done
  · rfl
  · rw [passed]
    dsimp only
    rw [Step.run_bind]
    rcases name.atom with fault | done
    · rfl
    · rw [passed]
      dsimp only
      rw [Step.run_bind, looked]
      dsimp only
      rcases names.find? space name with _ | identifier
      · dsimp only
        rw [Step.run_bind]
        rcases (fresh space name).run.run names with ⟨fault | grant, after⟩
        · rfl
        · rfl
      · rfl

/-- In a space with a text as its label, renamings are noted. -/
theorem exists_noticeFor {space : Space} {label : String} (labelled : space.label = .text label)
    (name : Value) (identifier : String) :
    ∃ notice, noticeFor space name identifier = .ok notice := by
  unfold noticeFor
  split
  · exact ⟨none, rfl⟩
  · cases space with
    | custom label =>
        cases labelled
        exact ⟨_, rfl⟩
    | _ => exact ⟨_, rfl⟩

/-- A name that can be one has an identifier from its first request on. -/
theorem identify_eq {name : Value} (nameable : Nameable name) (names : Names) :
    ∃ grant later, (identify .user name).run.run names = (.ok grant, later) ∧
      later.find? .user name = some grant.identifier ∧ Grows names later := by
  obtain ⟨atom, base, suggested⟩ := nameable
  have labelled : Space.user.label.atom = .ok () := rfl
  have checked : name.atom = .ok () := by simp [Value.atom, atom]
  obtain ⟨notice, noted⟩ := exists_noticeFor (rfl : Space.user.label = _) name (names.firstFree base)
  rw [identify_run, labelled, checked, fresh_run, suggested]
  -- A name is looked up first, and only one that is not found is granted an identifier.
  cases found : names.find? .user name with
  | some identifier => exact ⟨⟨identifier, none⟩, names, rfl, found, .refl names⟩
  | none =>
    dsimp only
    rw [noted]
    exact ⟨_, _, rfl, find?_record rfl atom found _, grows_record (names.markUsed _) name _⟩

/-- The identifiers of variables. -/
def spelling (names : Names) (name : Value) : String := (names.find? .user name).getD ""

end Names

/-- What is granted by the pool is granted by the pass. -/
theorem Pass.run_grant {n : Nat} (call : Names.Naming Grant) (pass : Pass n) :
    ∃ log, (Pass.grant call).run.run pass =
      ((call.run.run pass.names).1.map (·.identifier),
        { pass with names := (call.run.run pass.names).2, log := log }) := by
  have looked : (get : Emission n (Pass n)).run.run pass = (.ok pass, pass) := rfl
  unfold Pass.grant
  rw [Step.run_bind, looked]
  dsimp only
  rcases call.run.run pass.names with ⟨fault | ⟨identifier, notice⟩, names⟩
  · exact ⟨pass.log, rfl⟩
  · have stored (names : Names) : (set { pass with names } : Emission n PUnit).run.run pass =
        (.ok (), { pass with names }) := rfl
    have handed (grant : Grant) (after : Pass n) :
        (ofExcept (.ok grant) : Emission n Grant).run.run after = (.ok grant, after) := rfl
    rw [Step.run_bind, stored]
    dsimp only
    rw [Step.run_bind, handed]
    dsimp only
    cases notice.bind Renaming.message? with
    | none => exact ⟨pass.log, rfl⟩
    | some message => exact ⟨pass.log ++ [message], rfl⟩

/-- A variable that can be one has an identifier, and no block becomes active on the way. -/
theorem Pass.identifier_eq {n : Nat} {name : Value} (nameable : Names.Nameable name)
    {pass : Pass n} (legal : pass.names.Legal) :
    ∃ text after, (Pass.identifier .user name).run.run pass = (.ok text, after) ∧
      after.names.find? .user name = some text ∧ pass.names.Grows after.names ∧
        after.names.Legal ∧ after.active = pass.active := by
  obtain ⟨grant, later, identified, found, grows⟩ := Names.identify_eq nameable pass.names
  obtain ⟨log, ran⟩ := Pass.run_grant (Names.identify .user name) pass
  have kept : ((Names.identify .user name).run.run pass.names).2.Legal :=
    (Names.identify_keeps pass.names legal).1
  rw [identified] at ran kept
  exact ⟨grant.identifier, _, ran, found, grows, kept, rfl⟩

end BlockScript
