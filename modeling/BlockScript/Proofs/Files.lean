import BlockScript.Command.Basic
import BlockScript.Proofs.Contract

/-! # Files that are written

A path leads to a place of its own name in a directory that is there (`Tree.Leads`). Writing to it
makes no directory and changes no other file, so that files with different names can be written one
after the other and all hold what was written (`Command.writeAll_holds`). A path that ends in a
suffix leads to a file of the same stem with another one (`Path.withSuffix_ofString`).
-/

namespace BlockScript

/-! ## Paths -/

namespace Path

variable {name suffix : List Char}

/-- A name without slashes is one part. -/
theorem splitSlashes_of_not_mem (plain : '/' ∉ name) : splitSlashes name = [name] := by
  induction name with
  | nil => rfl
  | cons c rest ih =>
      obtain ⟨first, others⟩ : '/' ≠ c ∧ '/' ∉ rest := by simpa using plain
      rw [splitSlashes, if_neg first.symm, ih others]

/-- A suffix belongs to the part after the last slash. -/
theorem exists_splitSlashes (name : List Char) : ∃ parts last,
    (∀ c ∈ name.getLast?, c ≠ '/' → last ≠ []) ∧
    ∀ suffix : List Char, '/' ∉ suffix →
      splitSlashes (name ++ suffix) = parts ++ [last ++ suffix] := by
  induction name with
  | nil => exact ⟨[], [], by simp, fun suffix => splitSlashes_of_not_mem⟩
  | cons c rest ih =>
      obtain ⟨parts, last, filled, split⟩ := ih
      by_cases slash : c = '/'
      · refine ⟨[] :: parts, last, ?_, ?_⟩
        · intro d ends solid
          cases rest with
          | nil =>
              obtain rfl : c = d := by simpa using ends
              exact absurd slash solid
          | cons => exact filled d (by simpa using ends) solid
        · intro suffix plain
          rw [List.cons_append, splitSlashes, if_pos slash, split suffix plain, List.cons_append]
      · cases parts with
        | nil =>
            refine ⟨[], c :: last, by simp, ?_⟩
            intro suffix plain
            rw [List.cons_append, splitSlashes, if_neg slash, split suffix plain]
            rfl
        | cons part parts =>
            refine ⟨(c :: part) :: parts, last, ?_, ?_⟩
            · intro d ends solid
              cases rest with
              | nil =>
                  have alone := split [] List.not_mem_nil
                  simp [splitSlashes] at alone
              | cons => exact filled d (by simpa using ends) solid
            · intro suffix plain
              rw [List.cons_append, splitSlashes, if_neg slash, split suffix plain]
              rfl

/-- What follows a name does not change where its path starts. -/
theorem rootOf_append (name : List Char) (plain : '/' ∉ suffix) :
    rootOf (name ++ suffix) = rootOf name := by
  cases suffix with
  | nil => rw [List.append_nil]
  | cons other rest =>
      have solid : other ≠ '/' := by
        rintro rfl
        exact plain (List.mem_cons_self ..)
      -- The root is told by the first three characters.
      rcases name with _ | ⟨c, _ | ⟨d, _ | ⟨e, name⟩⟩⟩
      · simp [rootOf, solid]
      · by_cases first : c = '/' <;> simp [rootOf, solid, first]
      · by_cases first : c = '/' <;> by_cases second : d = '/' <;>
          simp [rootOf, solid, first, second]
      · by_cases first : c = '/' <;> by_cases second : d = '/' <;> by_cases third : e = '/' <;>
          simp [rootOf, first, second, third]

/-- A name with a suffix is the last name of a path. -/
theorem exists_ofString (name : String) : ∃ before last,
    (∀ c ∈ name.toList.getLast?, c ≠ '/' → last ≠ []) ∧
    ∀ suffix : String, '/' ∉ suffix.toList → 2 ≤ suffix.toList.length →
      ofString (name ++ suffix) =
        ⟨rootOf name.toList, before ++ [String.ofList (last ++ suffix.toList)]⟩ := by
  obtain ⟨parts, last, filled, split⟩ := exists_splitSlashes name.toList
  refine ⟨(parts.map String.ofList).filter fun part => part ≠ "" ∧ part ≠ ".", last, filled, ?_⟩
  intro suffix plain long
  have size : (last ++ suffix.toList).length = last.length + suffix.toList.length :=
    List.length_append
  have kept : String.ofList (last ++ suffix.toList) ≠ "" ∧
      String.ofList (last ++ suffix.toList) ≠ "." := by
    constructor
    · intro same
      have none : last ++ suffix.toList = [] := by simpa using congrArg String.toList same
      rw [none, List.length_nil] at size
      omega
    · intro same
      have one : last ++ suffix.toList = ['.'] := by simpa using congrArg String.toList same
      rw [one, List.length_singleton] at size
      omega
  simp only [ofString, String.toList_append, rootOf_append _ plain, split _ plain, List.map_append,
    List.filter_append, List.map_cons, List.map_nil]
  congr 2
  exact List.filter_cons_of_pos (decide_eq_true kept)

/-- A suffix is taken off a name that has more than it. -/
theorem stem_append {name suffix : List Char} (some : name ≠ []) (more : suffix ≠ [])
    (plain : '.' ∉ suffix) : stem (name ++ '.' :: suffix) = name := by
  have pointless : ∀ c ∈ suffix.reverse, decide (c ≠ '.') = true := by
    intro c member
    refine decide_eq_true ?_
    rintro rfl
    exact plain (List.mem_reverse.mp member)
  have reversed : (name ++ '.' :: suffix).reverse = suffix.reverse ++ '.' :: name.reverse := by
    simp
  have taken : (suffix.reverse ++ '.' :: name.reverse).takeWhile (· ≠ '.') = suffix.reverse := by
    rw [List.takeWhile_append_of_pos pointless, List.takeWhile_cons_of_neg (by simp),
      List.append_nil]
  have dropped : (suffix.reverse ++ '.' :: name.reverse).dropWhile (· ≠ '.') =
      '.' :: name.reverse := by
    rw [List.dropWhile_append_of_pos pointless, List.dropWhile_cons_of_neg (by simp)]
  simp only [stem, reversed, taken, dropped]
  rw [if_neg (by simp [some, more]), List.reverse_reverse]

/-- **Another suffix** in place of the one that a path ends with. -/
theorem withSuffix_ofString {name : String} (named : ∃ c ∈ name.toList.getLast?, c ≠ '/')
    {suffix : String} (plain : '/' ∉ suffix.toList) (long : 2 ≤ suffix.toList.length) :
    (ofString (name ++ ".json")).withSuffix suffix = ofString (name ++ suffix) := by
  obtain ⟨c, ends, solid⟩ := named
  obtain ⟨before, last, filled, of⟩ := exists_ofString name
  rw [of ".json" (by decide) (by decide), of suffix plain long]
  have stemmed : stem (last ++ ".json".toList) = last :=
    stem_append (filled c ends solid) (by decide) (by decide)
  simp only [withSuffix, List.reverse_append, List.reverse_cons, List.reverse_nil, List.nil_append,
    List.singleton_append, String.toList_ofList, stemmed, List.reverse_reverse]
  rw [String.ofList_append, String.ofList_toList]

/-- Different suffixes make different names. -/
theorem getLast?_names_ne (name : String) {first second : String}
    (plain : '/' ∉ first.toList ∧ '/' ∉ second.toList)
    (long : 2 ≤ first.toList.length ∧ 2 ≤ second.toList.length) (different : first ≠ second) :
    (ofString (name ++ first)).names.getLast? ≠ (ofString (name ++ second)).names.getLast? := by
  obtain ⟨before, last, -, of⟩ := exists_ofString name
  rw [of first plain.1 long.1, of second plain.2 long.2]
  simpa [String.toList_inj] using different

end Path

/-! ## Directories -/

namespace Tree

variable {tree after : Tree} {place directory : List String} {path : Path} {text : String}

/-- A directory leads to the current one or to a file. -/
theorem isDirectory_iff : tree.isDirectory directory = true ↔
    directory <+: tree.here ∨
      ∃ other ∈ tree.files.map (·.1), directory <+: other ∧ directory ≠ other := by
  simp [isDirectory]

/-- What leads to a directory is one. -/
theorem isDirectory_above (below : tree.isDirectory place = true) (leads : directory <+: place) :
    tree.isDirectory directory = true := by
  rw [isDirectory_iff] at below ⊢
  rcases below with here | ⟨other, listed, above, apart⟩
  · exact .inl (leads.trans here)
  · refine .inr ⟨other, listed, leads.trans above, ?_⟩
    rintro rfl
    exact apart (above.eq_of_length_le leads.length_le)

/-- What is entered is a directory. -/
theorem isDirectory_enter {names : List String} (start : tree.isDirectory directory = true)
    (found : tree.enter directory names = .ok place) : tree.isDirectory place = true := by
  induction names generalizing directory with
  | nil =>
      cases found
      exact start
  | cons name rest ih =>
      rw [enter] at found
      obtain ⟨_, _, found⟩ := Attempt.bind_eq_ok.mp found
      generalize (if name = ".." then directory.dropLast else directory ++ [name]) = inner at found
      simp only at found
      split at found
      · next inside => exact ih inside found
      · split at found <;> cases found

/-- Where the directories are the same, names lead to the same place. -/
theorem enter_eq {other : Tree} (same : ∀ place, other.isDirectory place = tree.isDirectory place)
    {names : List String} (found : tree.enter directory names = .ok place) :
    other.enter directory names = .ok place := by
  induction names generalizing directory with
  | nil => exact found
  | cons name rest ih =>
      rw [enter] at found ⊢
      obtain ⟨_, short, found⟩ := Attempt.bind_eq_ok.mp found
      refine Attempt.bind_eq_ok.mpr ⟨_, short, ?_⟩
      generalize (if name = ".." then directory.dropLast else directory ++ [name]) = inner
        at found ⊢
      simp only at found ⊢
      rw [same]
      split at found
      · next inside => rw [if_pos inside, ih found]
      · split at found <;> cases found

/-! ## Places -/

/-- A path leads to a place that is no directory. -/
structure Leads (tree : Tree) (path : Path) (place : List String) : Prop where
  locate : tree.locate path = .ok place
  isFile : tree.isDirectory place = false

/-- Such a place has the name that the path ends with, in a directory that is there. -/
theorem Leads.name (leads : tree.Leads path place) :
    path.names.getLast? = place.getLast? ∧ tree.isDirectory place.dropLast = true := by
  have start : tree.isDirectory (if path.root = "" then tree.here else []) = true := by
    split
    · exact isDirectory_iff.mpr (.inl (List.prefix_refl _))
    · exact isDirectory_iff.mpr (.inl List.nil_prefix)
  have located := leads.locate
  have isFile := leads.isFile
  unfold Tree.locate at located
  generalize (if path.root = "" then tree.here else []) = directory at start located
  simp only at located
  split at located
  · cases located
    rw [start] at isFile
    cases isFile
  · next last ends =>
      split at located
      · rw [isDirectory_enter start located] at isFile
        cases isFile
      · obtain ⟨inner, entered, located⟩ := Attempt.bind_eq_ok.mp located
        obtain ⟨_, _, located⟩ := Attempt.bind_eq_ok.mp located
        cases located
        simp [ends, isDirectory_enter start entered]

/-- A path leads to one place in all trees with the same directories. -/
theorem Leads.of_directories {other : Tree} (leads : tree.Leads path place)
    (here : other.here = tree.here)
    (same : ∀ place, other.isDirectory place = tree.isDirectory place) :
    other.Leads path place := by
  refine ⟨?_, (same place).trans leads.isFile⟩
  have located := leads.locate
  unfold Tree.locate at located ⊢
  rw [here]
  generalize (if path.root = "" then tree.here else []) = directory at located ⊢
  simp only at located ⊢
  split at located
  · exact located
  · next last ends =>
      split at located
      · next up => rw [if_pos up]; exact enter_eq same located
      · next down =>
          rw [if_neg down]
          obtain ⟨inner, entered, located⟩ := Attempt.bind_eq_ok.mp located
          exact Attempt.bind_eq_ok.mpr ⟨inner, enter_eq same entered, located⟩

/-! ## Writing -/

/-- A file that is put is found, and all others are as before. -/
theorem find?_put (place probe : List String) (text : String)
    (files : List (List String × String)) :
    find? probe (put place text files) =
      if probe = place then some text else find? probe files := by
  induction files with
  | nil =>
      by_cases same : probe = place
      · simp [put, find?, same]
      · simp [put, find?, same, Ne.symm same]
  | cons head rest ih =>
      obtain ⟨other, old⟩ := head
      by_cases found : other = place
      · by_cases same : probe = place
        · simp [put, find?, found, same]
        · simp [put, find?, found, same, Ne.symm same]
      · by_cases same : other = probe
        · have apart : probe ≠ place := same ▸ found
          simp [put, find?, same, apart]
        · simp [put, find?, found, same, ih]

/-- The files after one is put are those before and that one. -/
theorem mem_put {other : List String} {files : List (List String × String)} :
    other ∈ (put place text files).map (·.1) ↔ other = place ∨ other ∈ files.map (·.1) := by
  induction files with
  | nil => simp [put]
  | cons head rest ih =>
      by_cases found : head.1 = place
      · simp [put, found]
      · rw [put, if_neg found, List.map_cons, List.mem_cons, ih, List.map_cons, List.mem_cons]
        exact or_left_comm

/-- A file in a directory that is there makes no other. -/
theorem isDirectory_put (inside : tree.isDirectory place.dropLast = true) (text : String)
    (directory : List String) :
    isDirectory { tree with files := put place text tree.files } directory =
      tree.isDirectory directory := by
  rw [Bool.eq_iff_iff, isDirectory_iff, isDirectory_iff]
  constructor
  · rintro (here | ⟨other, listed, above, apart⟩)
    · exact .inl here
    · rcases mem_put.mp listed with rfl | known
      · refine isDirectory_iff.mp (isDirectory_above inside ?_)
        obtain ⟨rest, rfl⟩ := above
        have more : rest ≠ [] := by
          rintro rfl
          exact apart (List.append_nil _).symm
        rw [List.dropLast_append_of_ne_nil more]
        exact List.prefix_append _ _
      · exact .inr ⟨other, known, above, apart⟩
  · rintro (here | ⟨other, listed, above, apart⟩)
    · exact .inl here
    · exact .inr ⟨other, mem_put.mpr (.inr listed), above, apart⟩

/-- A text is written if the path can be one and leads to the place of a file. -/
theorem write_eq_ok : tree.write path text = .ok after ↔
    checkPath path.toString = .ok () ∧ ∃ place, tree.Leads path place ∧
      after = { tree with files := put place text tree.files } := by
  unfold write
  constructor
  · intro written
    obtain ⟨_, passed, written⟩ := Attempt.bind_eq_ok.mp written
    obtain ⟨place, located, written⟩ := Attempt.bind_eq_ok.mp written
    split at written
    · cases written
    · next isFile =>
        cases written
        exact ⟨passed, place, ⟨located, by simpa using isFile⟩, rfl⟩
  · rintro ⟨passed, place, leads, rfl⟩
    refine Attempt.bind_eq_ok.mpr ⟨(), passed, Attempt.bind_eq_ok.mpr ⟨place, leads.locate, ?_⟩⟩
    rw [leads.isFile]
    rfl

/-- A path that something can be written to. -/
def Writable (tree : Tree) (path : Path) : Prop :=
  ∃ text after, tree.write path text = .ok after

/-- The file that a path leads to has a text. -/
def Holds (tree : Tree) (path : Path) (text : String) : Prop :=
  ∃ place, tree.Leads path place ∧ tree.get? place = some text

/-- A path that is writable can be written to. -/
theorem Writable.exists_write (writable : tree.Writable path) (text : String) :
    ∃ after, tree.write path text = .ok after := by
  obtain ⟨_, _, possible⟩ := writable
  obtain ⟨passed, place, leads, -⟩ := write_eq_ok.mp possible
  exact ⟨_, write_eq_ok.mpr ⟨passed, place, leads, rfl⟩⟩

variable {target : Path} {content : String}

/-- Writing makes no directories. -/
theorem Leads.write (leads : tree.Leads path place)
    (written : tree.write target content = .ok after) : after.Leads path place := by
  obtain ⟨-, _, other, rfl⟩ := write_eq_ok.mp written
  exact leads.of_directories rfl (isDirectory_put other.name.2 content)

/-- Writing a file leaves what is writable so. -/
theorem Writable.write (writable : tree.Writable path)
    (written : tree.write target content = .ok after) : after.Writable path := by
  obtain ⟨text, _, possible⟩ := writable
  obtain ⟨passed, _, leads, -⟩ := write_eq_ok.mp possible
  exact ⟨text, _, write_eq_ok.mpr ⟨passed, _, leads.write written, rfl⟩⟩

/-- What is written is held. -/
theorem holds_write (written : tree.write path text = .ok after) : after.Holds path text := by
  obtain ⟨-, place, leads, rfl⟩ := write_eq_ok.mp written
  refine ⟨place, leads.write written, ?_⟩
  rw [get?, find?_put, if_pos rfl]

/-- Writing changes no file of another name. -/
theorem Holds.write (holds : tree.Holds path text)
    (written : tree.write target content = .ok after)
    (apart : path.names.getLast? ≠ target.names.getLast?) : after.Holds path text := by
  obtain ⟨place, leads, found⟩ := holds
  obtain ⟨-, other, leadsOther, rfl⟩ := write_eq_ok.mp written
  refine ⟨place, leads.write written, ?_⟩
  have distinct : place ≠ other := by
    rintro rfl
    exact apart (leads.name.1.trans leadsOther.name.1.symm)
  rw [get?, find?_put, if_neg distinct]
  exact found

end Tree

namespace Command

variable {tree after : Tree} {outputs : List Output}

/-- The name that an output is filed under in its directory. -/
def Output.name? (output : Output) : Option String := output.path.names.getLast?

/-- A file is not touched by outputs with other names. -/
theorem holds_writeAll {path : Path} {text : String} (holds : tree.Holds path text)
    (apart : path.names.getLast? ∉ outputs.map Output.name?)
    (written : writeAll tree outputs = (.ok (), after)) : after.Holds path text := by
  induction outputs generalizing tree with
  | nil =>
      cases written
      exact holds
  | cons output rest ih =>
      obtain ⟨other, others⟩ : path.names.getLast? ≠ output.name? ∧
          path.names.getLast? ∉ rest.map Output.name? := by simpa using apart
      rw [writeAll] at written
      split at written
      · next between first => exact ih (holds.write first other) others written
      · cases written

/-- **Outputs with different names are all written,** when each can be. -/
theorem writeAll_holds (apart : (outputs.map Output.name?).Nodup)
    (writable : ∀ output ∈ outputs, tree.Writable output.path) :
    ∃ after, writeAll tree outputs = (.ok (), after) ∧
      ∀ output ∈ outputs, after.Holds output.path output.text := by
  induction outputs generalizing tree with
  | nil => exact ⟨tree, rfl, List.forall_mem_nil _⟩
  | cons output rest ih =>
      obtain ⟨own, others⟩ := List.nodup_cons.mp apart
      obtain ⟨between, first⟩ :=
        (writable output (List.mem_cons_self ..)).exists_write output.text
      obtain ⟨after, written, held⟩ := ih others fun other member =>
        (writable other (List.mem_cons_of_mem _ member)).write first
      refine ⟨after, ?_, List.forall_mem_cons.mpr ⟨?_, held⟩⟩
      · rw [writeAll, first]
        exact written
      · exact holds_writeAll (Tree.holds_write first) own written

end Command

end BlockScript
