import BlockScript.Command.Basic
import BlockScript.Proofs.Json.RoundTrip
import BlockScript.Proofs.Location

/-! # The document of spans

The spans of a listing belong to blocks, whose ids and kinds stand in the description, and their
lines are lines of the code or the one after it. So the document that they are written to is read
back as it was written, unless a line has a number too long to be read
(`Program.read_spanDocument`).
-/

namespace BlockScript

/-! ## Ids and kinds -/

namespace Json

variable {v found : Value} {name : String}

/-- Members of what can be written can be written. -/
theorem Readable.get? {members : Table Value} (readable : Readable (.object members))
    (held : members.get? name = some found) : Readable found := by
  cases readable with
  | object _ each => exact each _ (Table.mem_of_get? held)

/-- So can a member that is missing, which is read as nothing. -/
theorem Readable.member (readable : Readable v) (held : v.member name = .ok found) :
    Readable found := by
  cases v with
  | object members =>
      cases known : Table.get? members name with
      | none =>
          rw [Value.member, Value.member?, known] at held
          cases held
          exact .null
      | some entry =>
          rw [Value.member, Value.member?, known] at held
          cases held
          exact readable.get? known
  | _ => cases held

/-- So can a member that has to be there. -/
theorem Readable.select (readable : Readable v) (held : v.select name = .ok found) :
    Readable found := by
  cases v with
  | object members =>
      cases known : Table.get? members name with
      | none =>
          rw [Value.select, known] at held
          cases held
      | some entry =>
          rw [Value.select, known] at held
          cases held
          exact readable.get? known
  | _ => cases held

/-- Elements of what can be written can be written. -/
theorem Readable.elements (readable : Readable v) {items : List Value}
    (held : v.elements = .ok items) : ∀ item ∈ items, Readable item := by
  cases readable with
  | list each =>
      cases held
      exact each
  | text chars =>
      cases held
      intro item member
      obtain ⟨c, -, rfl⟩ := List.mem_map.mp member
      exact .text _
  | object _ _ =>
      cases held
      intro item member
      obtain ⟨c, -, rfl⟩ := List.mem_map.mp member
      exact .text _
  | _ => cases held

end Json

open Json Forest

/-- A list of a description can be written, also one that is missing. -/
theorem Json.Readable.listMember {description listing : Value} {name : String}
    (readable : Readable description) (held : Forest.listMember description name = .ok listing) :
    Readable listing := by
  obtain ⟨found, given, same⟩ := Attempt.bind_eq_ok.mp held
  cases same
  unfold Value.orElse
  split
  · exact readable.member given
  · exact .list (List.forall_mem_nil _)

/-- The id and the kind of a node can be written. -/
theorem Json.Readable.node {value : Value} {node : Node} (readable : Readable value)
    (read : Node.ofValue value = .ok node) : Readable node.id ∧ Readable node.kind := by
  obtain ⟨id, selected, read⟩ := Attempt.bind_eq_ok.mp read
  obtain ⟨kind, given, read⟩ := Attempt.bind_eq_ok.mp read
  obtain ⟨_, _, read⟩ := Attempt.bind_eq_ok.mp read
  obtain ⟨_, _, read⟩ := Attempt.bind_eq_ok.mp read
  obtain ⟨_, _, read⟩ := Attempt.bind_eq_ok.mp read
  obtain ⟨_, _, read⟩ := Attempt.bind_eq_ok.mp read
  cases read
  exact ⟨readable.select selected, readable.member given⟩

/-- A block is described by what can be written. -/
theorem Program.readable_block {description : Value} {program : Program}
    (readable : Readable description) (loaded : ofValue description = .ok program)
    (ref : Fin program.size) :
    Readable (program.workspace.graph.block ref).id ∧
      Readable (program.workspace.graph.block ref).kind := by
  obtain ⟨nodes, links, _, _, _, _, _, nodesRead, -, -, -, -, -, -, rfl⟩ := ofValue_accepted loaded
  have own := ofBlock_graph nodes links ref
  obtain ⟨values, listed, each⟩ := Attempt.bind_eq_ok.mp nodesRead
  obtain ⟨listing, kept, elements⟩ := Attempt.bind_eq_ok.mp listed
  obtain ⟨value, held, read⟩ := (Attempt.mem_mapM each).mp (List.get_mem nodes ref)
  have written : Readable value := (readable.listMember kept).elements elements value held
  have described := written.node read
  rw [← own] at described
  exact described

namespace Listing

/-- The number of lines that sections take up, with the empty lines that follow them. -/
def extent (entries : List Section) : Nat :=
  (entries.map fun entry => Text.lineCount entry.text + 1).sum

/-- Sections take up no more lines than the text that is made of them, and one more. -/
theorem extent_le (entries : List Section) :
    extent entries ≤ Text.lineCount (String.intercalate "\n" (entries.map (·.text))) + 1 := by
  induction entries with
  | nil => exact Nat.zero_le _
  | cons entry rest ih =>
      cases rest with
      | nil => simp [extent]
      | cons next others =>
          have newline : Text.lineCount "\n" = 1 := rfl
          simp only [List.map_cons, String.intercalate_cons_cons, Text.lineCount_append, newline,
            extent, List.sum_cons] at ih ⊢
          omega

/-- The spans of sections lie within the lines that the sections take up. -/
theorem lines_sectionSpans (entries : List Section) (first start : Nat) :
    ∀ span ∈ (sectionSpans first start entries).1,
      span.first < first + extent entries ∧ span.last < first + extent entries := by
  induction entries generalizing first start with
  | nil => exact List.forall_mem_nil _
  | cons entry rest ih =>
      have total : extent (entry :: rest) = Text.lineCount entry.text + 1 + extent rest := rfl
      intro span member
      rw [sectionSpans] at member
      rcases owned : entry.owner with _ | owner
      · simp only [owned] at member
        have below := ih _ _ span member
        omega
      · simp only [owned, List.mem_cons] at member
        rcases member with rfl | member
        · simp only
          omega
        · have below := ih _ _ span member
          omega

/-- The last section starts after the lines of the others. -/
theorem start_sectionSpans (entries : List Section) (last : Section) (first start : Nat) :
    (sectionSpans first start (entries ++ [last])).2 = first + extent entries := by
  induction entries generalizing first start with
  | nil => rcases owned : last.owner with _ | owner <;> simp [sectionSpans, owned, extent]
  | cons entry rest ih =>
      have total : extent (entry :: rest) = Text.lineCount entry.text + 1 + extent rest := rfl
      rw [List.cons_append, sectionSpans]
      rcases owned : entry.owner with _ | owner
      · simp only [ih, total]
        omega
      · simp only [ih, total]
        omega

/-- The spans of pieces lie within the lines of the pieces, or one after them. -/
theorem lines_pieceSpans (pieces : List Piece) (first : Nat) :
    ∀ span ∈ pieceSpans first pieces,
      span.first ≤ first + Text.lineCount (String.join (pieces.map (·.code))) ∧
      span.last ≤ first + Text.lineCount (String.join (pieces.map (·.code))) := by
  induction pieces generalizing first with
  | nil => exact List.forall_mem_nil _
  | cons piece rest ih =>
      intro span member
      rw [List.map_cons, String.join_cons, Text.lineCount_append]
      rw [pieceSpans] at member
      rcases List.mem_cons.mp member with rfl | member
      · simp only
        omega
      · have below := ih _ span member
        omega

variable {n : Nat}

/-- **The lines of spans** are lines of the code, or the one after it. -/
theorem lines_assemble (pass : Pass n) (parts : Parts) :
    ∀ span ∈ (assemble pass parts).spans,
      span.first ≤ Text.lineCount (assemble pass parts).code + 1 ∧
      span.last ≤ Text.lineCount (assemble pass parts).code + 1 := by
  intro span member
  have size := extent_le (sections pass parts)
  have code : (assemble pass parts).code =
    String.intercalate "\n" ((sections pass parts).map (·.text)) := rfl
  rw [← code] at size
  simp only [assemble] at member
  rcases List.mem_append.mp member with member | member
  · have below := lines_sectionSpans _ _ _ span member
    omega
  · by_cases bodyless : bodyOf parts = ""
    · simp [bodyless, pieceSpans] at member
    · rw [if_neg (by simpa using bodyless), sections_of_body bodyless, start_sectionSpans] at member
      have below := lines_pieceSpans _ _ span member
      rw [sections_of_body bodyless] at size
      have total : extent (heads pass parts ++ [plain (bodyOf parts)]) =
          extent (heads pass parts) + (Text.lineCount (bodyOf parts) + 1) := by
        simp [extent, plain]
      rw [total] at size
      simp only [bodyOf] at size
      omega

end Listing

namespace Program

variable {description : Value} {program : Program} {options : Options} {listing : Listing}

/-- Every span belongs to a block. -/
theorem exists_owner (generated : (program.generate options).result = .ok listing) :
    ∀ span ∈ listing.spans, ∃ ref, span.owner =
      ⟨(program.workspace.graph.block ref).id, (program.workspace.graph.block ref).kind⟩ := by
  have ran : (program.setting options).emit.run.run (Pass.start Names.start) = (.ok listing, _) :=
    Prod.ext generated rfl
  obtain ⟨log, parts, finished, made, rfl, _⟩ := Setting.program_of_emit ran
  intro span member
  have owned := List.mem_map_of_mem (f := (·.owner)) member
  rw [Listing.owners_assemble] at owned
  rcases List.mem_append.mp owned with owned | owned
  · obtain ⟨procedure, registered, own⟩ := List.mem_filterMap.mp owned
    obtain ⟨ref, _, _, builds⟩ := Setting.exists_builds made registered
    exact ⟨ref, Option.some.inj (own.symm.trans builds.owner)⟩
  · obtain ⟨_, _, traversal⟩ := Setting.execution_of_program made
    split at owned
    · cases owned
    · rw [traversal.owners] at owned
      obtain ⟨top, _, own⟩ := List.mem_map.mp owned
      exact ⟨top, own.symm⟩

/-- The lines of spans of a program are lines of its listing, or the one after it. -/
theorem lines_generate (generated : (program.generate options).result = .ok listing) :
    ∀ span ∈ listing.spans, span.first ≤ Text.lineCount listing.code + 1 ∧
      span.last ≤ Text.lineCount listing.code + 1 := by
  have ran : (program.setting options).emit.run.run (Pass.start Names.start) = (.ok listing, _) :=
    Prod.ext generated rfl
  obtain ⟨_, parts, finished, _, rfl, _⟩ := Setting.program_of_emit ran
  exact Listing.lines_assemble finished parts

/-- The number of a line can be written, unless there are too many lines. -/
theorem readable_line {line bound : Nat} (most : line ≤ bound)
    (short : bound < 10 ^ Numeral.greatestLength) : Readable (.int line) := by
  refine .int (Nat.toDigits_length 10 _ _ (by decide) ?_)
  rw [Int.natAbs_natCast]
  omega

/-- **The document of spans is read back** as it was written. -/
theorem read_spanDocument (readable : Readable description)
    (loaded : ofValue description = .ok program)
    (generated : (program.generate options).result = .ok listing)
    (short : Text.lineCount listing.code + 1 < 10 ^ Numeral.greatestLength) :
    Json.read (Command.spanDocument listing) =
      .ok (.object [("mappings", listing.spanValues)]) := by
  refine Json.read_write Layout.spaced_page (.object (List.nodup_singleton _) ?_)
  rw [List.forall_mem_singleton]
  refine .list ?_
  intro value member
  obtain ⟨span, listed, rfl⟩ := List.mem_map.mp member
  obtain ⟨ref, own⟩ := exists_owner generated span listed
  obtain ⟨first, last⟩ := lines_generate generated span listed
  obtain ⟨id, kind⟩ := readable_block readable loaded ref
  have names : ["block_id", "kind", "start_line", "end_line"].Nodup := by decide
  refine .object names ?_
  simp only [List.forall_mem_cons, own]
  exact ⟨id, kind, readable_line first short, readable_line last short, List.forall_mem_nil _⟩

end Program

end BlockScript
