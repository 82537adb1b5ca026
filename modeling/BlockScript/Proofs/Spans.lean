import BlockScript.Proofs.Excerpt
import BlockScript.Proofs.Reach

/-! # The lines that code comes from

The spans of a listing say on which lines the code of each procedure and of each top-level block
stands. They are computed apart from the listing, by counting newlines; that they are right
(`Setting.emit_spans`) rests on every section of a listing being ended by a newline.
-/

namespace BlockScript

open Text

namespace Listing

/-- The sections of a text that come from a block and are not empty. -/
def owned (chunks : List Section) : List (Owner × String) :=
  chunks.filterMap fun chunk =>
    if chunk.text = "" then none else chunk.owner.map fun owner => (owner, chunk.text)

/-- The spans of the sections of a text that come from a block and are not empty, from a line on,
when nothing stands between the sections. -/
def chunkSpans : Nat → List Section → List Span
  | _, [] => []
  | first, chunk :: rest =>
      let count := lineCount chunk.text
      let others := chunkSpans (first + count) rest
      if chunk.text = "" then others
      else
        match chunk.owner with
        | some owner => ⟨owner, first, first + count - 1⟩ :: others
        | none => others

/-- Spans mark texts in a listing: they belong to the same blocks, their lines are the texts, and
they follow each other. -/
structure Marks (code : String) (spans : List Span) (texts : List (Owner × String)) : Prop where
  owners : spans.map (·.owner) = texts.map (·.1)
  excerpts : spans.map (fun span => excerpt code span.first span.last) = texts.map (·.2)
  nonempty : ∀ span ∈ spans, span.first ≤ span.last
  increasing : spans.Pairwise fun earlier later => earlier.last < later.first

/-- A span before others marks a text before theirs. -/
theorem Marks.cons {code text : String} {span : Span} {owner : Owner} {spans : List Span}
    {texts : List (Owner × String)} (others : Marks code spans texts) (same : span.owner = owner)
    (marked : excerpt code span.first span.last = text) (proper : span.first ≤ span.last)
    (earlier : ∀ later ∈ spans, span.last < later.first) :
    Marks code (span :: spans) ((owner, text) :: texts) where
  owners := by simp [same, others.owners]
  excerpts := by simp [marked, others.excerpts]
  nonempty := List.forall_mem_cons.mpr ⟨proper, others.nonempty⟩
  increasing := .cons earlier others.increasing

/-- A text that ends its lines, and has something in it, has lines. -/
theorem lineCount_pos {text : String} (ended : Ended text.toList) (nonempty : text ≠ "") :
    0 < lineCount text := by
  refine Nat.pos_of_ne_zero fun none => nonempty ?_
  have nothing := ended.eq_nil_of_count none
  simpa using nothing

/-- Spans do not start before their first line. -/
theorem first_le_of_mem_chunkSpans {chunks : List Section} {first : Nat} {span : Span}
    (member : span ∈ chunkSpans first chunks) : first ≤ span.first := by
  induction chunks generalizing first with
  | nil => cases member
  | cons chunk rest ih =>
      have later : span ∈ chunkSpans (first + lineCount chunk.text) rest → first ≤ span.first :=
        fun member => Nat.le_trans (Nat.le_add_right ..) (ih member)
      unfold chunkSpans at member
      split at member
      · exact later member
      · split at member
        · rcases List.mem_cons.mp member with rfl | member
          · exact Nat.le_refl _
          · exact later member
        · exact later member

/-- **Counting newlines marks the sections.** -/
theorem marks_chunkSpans {chunks : List Section} (ended : ∀ chunk ∈ chunks, Ended chunk.text.toList)
    {before : String} (beforeEnded : Ended before.toList) :
    Marks (before ++ String.join (chunks.map (·.text))) (chunkSpans (lineCount before + 1) chunks)
      (owned chunks) := by
  -- What stands before the sections grows with each of them, so it is part of the induction.
  induction chunks generalizing before with
  | nil => exact ⟨rfl, rfl, fun _ member => (nomatch member), .nil⟩
  | cons chunk rest ih =>
      have own := ended chunk (List.mem_cons_self ..)
      have further : Ended (before ++ chunk.text).toList := by
        rw [String.toList_append]
        exact beforeEnded.append own
      have others := ih (fun other member => ended other (List.mem_cons_of_mem _ member)) further
      have line : lineCount (before ++ chunk.text) + 1 =
          lineCount before + 1 + lineCount chunk.text := by
        rw [lineCount_append]
        omega
      rw [line, String.append_assoc, ← String.join_cons, ← List.map_cons] at others
      by_cases nothing : chunk.text = ""
      · simpa [chunkSpans, owned, nothing] using others
      cases owner : chunk.owner with
      | none => simpa [chunkSpans, owned, nothing, owner] using others
      | some block =>
          have positive := lineCount_pos own nothing
          have spans : chunkSpans (lineCount before + 1) (chunk :: rest) =
              ⟨block, lineCount before + 1, lineCount before + lineCount chunk.text⟩ ::
                chunkSpans (lineCount before + 1 + lineCount chunk.text) rest := by
            have last : lineCount before + 1 + lineCount chunk.text - 1 =
                lineCount before + lineCount chunk.text := by omega
            simp [chunkSpans, nothing, owner, last]
          have texts : owned (chunk :: rest) = (block, chunk.text) :: owned rest := by
            simp [owned, nothing, owner]
          rw [spans, texts]
          refine others.cons rfl ?_ (by simp only; omega) fun later member => ?_
          · rw [List.map_cons, String.join_cons, ← String.append_assoc]
            exact excerpt_append beforeEnded own _
          · have := first_le_of_mem_chunkSpans member
            simp only
            omega

/-- The spans of sections that follow each other are those of the first, and those of the second
after its lines. -/
theorem chunkSpans_append (first : Nat) (before after : List Section) :
    chunkSpans first (before ++ after) = chunkSpans first before ++
      chunkSpans (first + lineCount (String.join (before.map (·.text)))) after := by
  induction before generalizing first with
  | nil => rfl
  | cons chunk rest ih =>
      simp only [List.cons_append, chunkSpans, ih, List.map_cons, String.join_cons,
        lineCount_append, Nat.add_assoc]
      split
      · rfl
      · split <;> rfl

/-! ## The spans of a listing -/

/-- Sections with an empty line after each of them. -/
def separated : List Section → List Section
  | [] => []
  | entry :: rest => entry :: plain "\n" :: separated rest

/-- Sections with an empty line between them are separated sections and the last one. -/
theorem intercalate_concat (entries : List Section) (last : Section) :
    String.intercalate "\n" ((entries ++ [last]).map (·.text)) =
      String.join ((separated entries).map (·.text)) ++ last.text := by
  induction entries with
  | nil => simp [separated, String.intercalate_singleton]
  | cons entry rest ih =>
      have more : ∃ next others, (rest ++ [last]).map (·.text) = next :: others := by
        cases rest with
        | nil => exact ⟨_, _, rfl⟩
        | cons _ _ => exact ⟨_, _, rfl⟩
      obtain ⟨next, others, same⟩ := more
      rw [same] at ih
      rw [List.cons_append, List.map_cons, same, String.intercalate_cons_cons, ih]
      simp [separated, plain, String.append_assoc]

/-- The spans of sections are those of the sections with the empty lines between them, and the last
section starts where the others end. -/
theorem sectionSpans_concat {entries : List Section} {last : Section}
    (nonempty : ∀ entry ∈ entries ++ [last], entry.text ≠ "") (first start : Nat) :
    sectionSpans first start (entries ++ [last]) =
      (chunkSpans first (separated entries ++ [last]),
        first + lineCount (String.join ((separated entries).map (·.text)))) := by
  induction entries generalizing first start with
  | nil =>
      have filled := nonempty last (List.mem_singleton_self last)
      cases owner : last.owner with
      | none => simp [sectionSpans, separated, chunkSpans, filled, owner, lineCount]
      | some block => simp [sectionSpans, separated, chunkSpans, filled, owner, lineCount]
  | cons entry rest ih =>
      have filled := nonempty entry (List.mem_cons_self ..)
      have others := ih (fun other member => nonempty other (List.mem_cons_of_mem _ member))
        (first + lineCount entry.text + 1) first
      have newline : lineCount "\n" = 1 := rfl
      have apart : "\n" ≠ "" := by decide
      have last : first + lineCount entry.text + 1 +
          lineCount (String.join ((separated rest).map (·.text))) =
            first + (lineCount entry.text +
              (1 + lineCount (String.join ((separated rest).map (·.text))))) := by
        omega
      simp only [List.cons_append, sectionSpans, others, separated, chunkSpans, filled, apart,
        ↓reduceIte, plain, newline, List.map_cons, String.join_cons, lineCount_append, last]
      cases entry.owner with
      | none => rfl
      | some block => rfl

/-- The empty lines between sections belong to nobody. -/
theorem owned_separated (entries : List Section) : owned (separated entries) = owned entries := by
  induction entries with
  | nil => rfl
  | cons entry rest ih =>
      simp only [separated, owned, List.filterMap_cons, plain] at ih ⊢
      rw [ih]
      simp

/-- The code of a top-level block as a section. -/
def ofPiece (piece : Piece) : Section := ⟨piece.code, some piece.owner⟩

/-- The top-level blocks that come to no code. -/
def idleOwners (pieces : List Piece) : List Owner :=
  (pieces.filter (·.code = "")).map (·.owner)

/-- The spans of pieces are those of the pieces that are not empty, and one for each other piece. -/
theorem pieceSpans_perm {pieces : List Piece}
    (ended : ∀ piece ∈ pieces, Ended piece.code.toList) (first : Nat) :
    (chunkSpans first (pieces.map ofPiece)).Sublist (pieceSpans first pieces) ∧
      ∃ idle, (pieceSpans first pieces).Perm (chunkSpans first (pieces.map ofPiece) ++ idle) ∧
        idle.map (·.owner) = idleOwners pieces := by
  induction pieces generalizing first with
  | nil => exact ⟨.slnil, [], .nil, rfl⟩
  | cons piece rest ih =>
      obtain ⟨sublist, idle, same, owners⟩ := ih
        (fun other member => ended other (List.mem_cons_of_mem _ member))
        (first + lineCount piece.code)
      by_cases nothing : piece.code = ""
      · have spans : chunkSpans first ((piece :: rest).map ofPiece) =
            chunkSpans (first + lineCount piece.code) (rest.map ofPiece) := by
          simp [chunkSpans, ofPiece, nothing]
        rw [spans]
        refine ⟨sublist.cons _,
          ⟨piece.owner, first, first + max (lineCount piece.code) 1 - 1⟩ :: idle, ?_, ?_⟩
        · exact (same.cons _).trans List.perm_middle.symm
        · simpa [idleOwners, nothing] using owners
      · -- A piece of code has a line, so its span is not moved by the one line a span has at least.
        have positive := lineCount_pos (ended piece (List.mem_cons_self ..)) nothing
        have spans : chunkSpans first ((piece :: rest).map ofPiece) =
            ⟨piece.owner, first, first + max (lineCount piece.code) 1 - 1⟩ ::
              chunkSpans (first + lineCount piece.code) (rest.map ofPiece) := by
          rw [Nat.max_eq_left positive]
          simp [chunkSpans, ofPiece, nothing]
        rw [spans]
        refine ⟨sublist.cons_cons _, idle, same.cons _, ?_⟩
        simpa [idleOwners, nothing] using owners

/-- Of the pieces of a body, those with code are owned. -/
theorem owned_pieces (pieces : List Piece) :
    owned (pieces.map ofPiece) =
      (pieces.filter (·.code ≠ "")).map fun piece => (piece.owner, piece.code) := by
  induction pieces with
  | nil => rfl
  | cons piece rest ih =>
      simp only [owned, List.map_cons, List.filterMap_cons] at ih ⊢
      by_cases nothing : piece.code = ""
      · simpa [ofPiece, nothing] using ih
      · simpa [ofPiece, nothing] using ih

/-- Separated sections end their lines. -/
theorem ended_separated {entries : List Section}
    (ended : ∀ entry ∈ entries, Ended entry.text.toList) :
    ∀ chunk ∈ separated entries, Ended chunk.text.toList := by
  induction entries with
  | nil => exact fun _ member => nomatch member
  | cons entry rest ih =>
      refine List.forall_mem_cons.mpr ⟨ended entry (List.mem_cons_self ..), ?_⟩
      refine List.forall_mem_cons.mpr ⟨.inr rfl, ?_⟩
      exact ih fun other member => ended other (List.mem_cons_of_mem _ member)

/-- Texts that end their lines do so together. -/
theorem ended_join {texts : List String} (ended : ∀ text ∈ texts, Ended text.toList) :
    Ended (String.join texts).toList := by
  induction texts with
  | nil => exact .inl rfl
  | cons text rest ih =>
      rw [String.join_cons, String.toList_append]
      exact (ended text (List.mem_cons_self ..)).append
        (ih fun other member => ended other (List.mem_cons_of_mem _ member))

/-- Nothing comes only of nothing. -/
theorem eq_empty_of_join {texts : List String} (nothing : String.join texts = "") {text : String}
    (member : text ∈ texts) : text = "" := by
  induction texts with
  | nil => cases member
  | cons first rest ih =>
      rw [String.join_cons, String.append_eq_empty_iff] at nothing
      rcases List.mem_cons.mp member with rfl | member
      · exact nothing.1
      · exact ih nothing.2 member

/-- A section that ends with a newline. -/
def Filled (entry : Section) : Prop := Ended entry.text.toList ∧ entry.text ≠ ""

/-- A text that ends with a new line is filled. -/
theorem filled_of_newline {text : String} {owner : Option Owner} (start : String)
    (same : text = start ++ "\n") : Filled ⟨text, owner⟩ := by
  refine ⟨.inr (by simp [same]), ?_⟩
  simp [same]

variable {n : Nat} {pass : Pass n} {parts : Parts}

/-- The sections before the body. -/
def heads (pass : Pass n) (parts : Parts) : List Section :=
  let names := parts.userNames ++ parts.developerNames
  let globals := developerGlobals parts.developerNames pass.temporaries
  unlessEmpty pass.imports (String.intercalate "\n" pass.imports.entries ++ "\n")
    ++ unlessEmpty names (String.join (names.map (· ++ " = None\n")))
    ++ pass.helpers.entries.map (fun source => plain (source ++ "\n"))
    ++ pass.procedures.entries.map (fun procedure => ⟨procedure.render globals, procedure.owner⟩)

/-- The line where the body starts. -/
def bodyLine (pass : Pass n) (parts : Parts) : Nat :=
  1 + lineCount (String.join ((separated (heads pass parts)).map (·.text)))

/-- The sections are the heads, and the body unless it is empty. -/
theorem sections_eq (pass : Pass n) (parts : Parts) :
    sections pass parts = heads pass parts ++
      unlessEmpty (bodyOf parts).toList (bodyOf parts) := rfl

/-- A section that is there unless it is empty has something in it. -/
theorem mem_unlessEmpty {α : Type} {entries : List α} {text : String} {entry : Section}
    (member : entry ∈ unlessEmpty entries text) : entries ≠ [] ∧ entry = plain text := by
  unfold unlessEmpty at member
  split at member
  · cases member
  · rename_i nonempty
    exact ⟨by simpa using nonempty, List.mem_singleton.mp member⟩

/-- The procedures of a pass, with the blocks that define them. -/
def procedureTexts (pass : Pass n) (developer : List String) : List (Owner × String) :=
  pass.procedures.entries.filterMap fun procedure =>
    procedure.owner.map fun owner =>
      (owner, procedure.render (developerGlobals developer pass.temporaries))

/-- The top-level blocks that are not definitions and come to code. -/
def pieceTexts (pieces : List Piece) : List (Owner × String) :=
  (pieces.filter (·.code ≠ "")).map fun piece => (piece.owner, piece.code)

/-- Sections are owned one by one. -/
theorem owned_append (first second : List Section) :
    owned (first ++ second) = owned first ++ owned second := List.filterMap_append

/-- Plain sections are not owned. -/
theorem owned_of_plain {entries : List Section} (unowned : ∀ entry ∈ entries, entry.owner = none) :
    owned entries = [] := by
  refine List.filterMap_eq_nil_iff.mpr fun entry member => ?_
  simp [unowned entry member]

section Heads

variable (procedures : ∀ procedure ∈ pass.procedures.entries, ∀ globals,
  Filled ⟨procedure.render globals, procedure.owner⟩)
include procedures

/-- The heads of a listing are filled. -/
theorem filled_heads : ∀ entry ∈ heads pass parts, Filled entry := by
  intro entry member
  simp only [heads, List.mem_append, List.mem_map] at member
  rcases member with ((member | member) | ⟨source, _, rfl⟩) | ⟨procedure, listed, rfl⟩
  · obtain ⟨_, rfl⟩ := mem_unlessEmpty member
    exact filled_of_newline _ rfl
  · obtain ⟨nonempty, rfl⟩ := mem_unlessEmpty member
    refine ⟨ended_join fun text listed => ?_, ?_⟩
    · obtain ⟨name, _, rfl⟩ := List.mem_map.mp listed
      exact .inr (by simp)
    · obtain ⟨name, rest, same⟩ := List.exists_cons_of_ne_nil nonempty
      simp [plain, same]
  · exact filled_of_newline source rfl
  · exact procedures procedure listed _

/-- Of the heads of a listing, the procedures are owned. -/
theorem owned_heads : owned (heads pass parts) = procedureTexts pass parts.developerNames := by
  have unowned {α : Type} (entries : List α) (text : String) :
      owned (unlessEmpty entries text) = [] := by
    refine owned_of_plain fun entry member => ?_
    obtain ⟨_, rfl⟩ := mem_unlessEmpty member
    rfl
  have helpers : owned (pass.helpers.entries.map fun source => plain (source ++ "\n")) = [] := by
    refine owned_of_plain fun entry member => ?_
    obtain ⟨source, _, rfl⟩ := List.mem_map.mp member
    rfl
  simp only [heads, owned_append, unowned, helpers, List.nil_append]
  rw [owned, List.filterMap_map, procedureTexts]
  refine List.filterMap_congr fun procedure member => ?_
  have filled := (procedures procedure member
    (developerGlobals parts.developerNames pass.temporaries)).2
  simp only [Function.comp_apply]
  rw [if_neg filled]

end Heads

/-- **Sections that end their lines are marked** by their spans, one after the other. -/
theorem marks_join {chunks : List Section} (ended : ∀ chunk ∈ chunks, Ended chunk.text.toList) :
    Marks (String.join (chunks.map (·.text))) (chunkSpans 1 chunks) (owned chunks) := by
  have marks := marks_chunkSpans ended (.inl rfl : Ended "".toList)
  rwa [String.empty_append] at marks

/-- Sections stand where their spans say, with the empty lines between them in no span. -/
theorem marks_sections {entries : List Section} (filled : ∀ entry ∈ entries, Filled entry) :
    Marks (String.intercalate "\n" (entries.map (·.text))) (sectionSpans 1 1 entries).1
      (owned entries) := by
  rcases List.eq_nil_or_concat entries with rfl | ⟨start, last, rfl⟩
  · exact ⟨rfl, rfl, fun _ member => (nomatch member), .nil⟩
  · rw [List.concat_eq_append] at filled ⊢
    rw [sectionSpans_concat fun entry member => (filled entry member).2, intercalate_concat]
    have ended : ∀ chunk ∈ separated start ++ [last], Ended chunk.text.toList := by
      refine List.forall_mem_append.mpr ⟨ended_separated fun entry member => ?_, ?_⟩
      · exact (filled entry (List.mem_append_left _ member)).1
      · exact fun entry member => (filled entry (List.mem_append_right _ member)).1
    have marks := marks_join ended
    rwa [owned_append, owned_separated, ← owned_append, List.map_append, String.join_append,
      List.map_singleton, String.join_cons, String.join_nil, String.append_empty] at marks

section Assembly

/-- Without a body there are no pieces to account for. -/
theorem pieceTexts_of_bodyless (bodyless : bodyOf parts = "") : pieceTexts parts.body = [] := by
  have codes : ∀ piece ∈ parts.body, piece.code = "" := by
    intro piece member
    exact eq_empty_of_join bodyless (List.mem_map_of_mem member)
  simp only [pieceTexts, List.map_eq_nil_iff, List.filter_eq_nil_iff]
  intro piece member
  simp [codes piece member]

/-- Without a body, the listing is made of its heads. -/
theorem assemble_of_bodyless (bodyless : bodyOf parts = "") :
    assemble pass parts = ⟨String.intercalate "\n" ((heads pass parts).map (·.text)),
      (sectionSpans 1 1 (heads pass parts)).1⟩ := by
  simp [assemble, sections_eq, bodyless, unlessEmpty, pieceSpans]

variable (embodied : bodyOf parts ≠ "")
include embodied

/-- With a body, that is the last section. -/
theorem sections_of_body : sections pass parts = heads pass parts ++ [plain (bodyOf parts)] := by
  simp [sections_eq, unlessEmpty, embodied]

/-- The body is the last section, and its pieces stand where it does. -/
theorem spans_of_body (solid : ∀ entry ∈ heads pass parts, entry.text ≠ "") :
    (assemble pass parts).spans = chunkSpans 1 (separated (heads pass parts)) ++
      pieceSpans (bodyLine pass parts) parts.body := by
  have all : ∀ entry ∈ heads pass parts ++ [plain (bodyOf parts)], entry.text ≠ "" := by
    refine List.forall_mem_append.mpr ⟨solid, ?_⟩
    exact fun entry member => List.mem_singleton.mp member ▸ embodied
  simp only [assemble, sections_of_body embodied, sectionSpans_concat all, chunkSpans_append]
  simp [chunkSpans, plain, embodied, bodyLine]

/-- The code of a listing with a body is that of its heads and of its pieces. -/
theorem code_of_body :
    (assemble pass parts).code =
      String.join ((separated (heads pass parts) ++ parts.body.map ofPiece).map (·.text)) := by
  rw [List.map_append, String.join_append, List.map_map]
  simp only [assemble, sections_of_body embodied, intercalate_concat]
  rfl

end Assembly

/-- **The spans of a listing are exact**, given that procedures and pieces end with newlines. -/
theorem assemble_marks
    (procedures : ∀ procedure ∈ pass.procedures.entries, ∀ globals,
      Filled ⟨procedure.render globals, procedure.owner⟩)
    (pieces : ∀ piece ∈ parts.body, Ended piece.code.toList) :
    ∃ spans idle, spans.Sublist (assemble pass parts).spans ∧
      (assemble pass parts).spans.Perm (spans ++ idle) ∧
      (idle.map (·.owner)).Sublist (idleOwners parts.body) ∧
      Marks (assemble pass parts).code spans
        (procedureTexts pass parts.developerNames ++ pieceTexts parts.body) := by
  have filled : ∀ entry ∈ heads pass parts, Filled entry := filled_heads procedures
  by_cases bodyless : bodyOf parts = ""
  · rw [assemble_of_bodyless bodyless, pieceTexts_of_bodyless bodyless, List.append_nil,
      ← owned_heads procedures]
    refine ⟨_, [], List.Sublist.refl _, ?_, List.nil_sublist _, marks_sections filled⟩
    rw [List.append_nil]
  · have ended : ∀ chunk ∈ separated (heads pass parts) ++ parts.body.map ofPiece,
        Ended chunk.text.toList := by
      refine List.forall_mem_append.mpr
        ⟨ended_separated fun entry member => (filled entry member).1, fun chunk member => ?_⟩
      obtain ⟨piece, listed, rfl⟩ := List.mem_map.mp member
      exact pieces piece listed
    obtain ⟨sublist, idle, same, owners⟩ := pieceSpans_perm pieces (bodyLine pass parts)
    rw [spans_of_body bodyless fun entry member => (filled entry member).2, code_of_body bodyless]
    refine ⟨chunkSpans 1 (separated (heads pass parts) ++ parts.body.map ofPiece), idle, ?_, ?_,
      owners ▸ List.Sublist.refl _, ?_⟩
    · rw [chunkSpans_append]
      exact (List.Sublist.refl _).append sublist
    · rw [chunkSpans_append, List.append_assoc]
      exact same.append_left _
    · have marks := marks_join ended
      rwa [owned_append, owned_separated, owned_heads procedures, owned_pieces] at marks

end Listing

/-! ## Emission -/

/-- Indented text ends its lines. -/
theorem Text.ended_indentedChars (text margin : List Char) : Ended (indentedChars text margin) := by
  unfold indentedChars
  split
  · exact .inl rfl
  · generalize splitLines (withoutFinalNewlines text) = lines
    rcases List.eq_nil_or_concat lines with rfl | ⟨start, line, rfl⟩
    · exact .inl rfl
    · exact .inr (by simp)

/-- Statements end with a newline. -/
theorem Suite.ended {isName isInsert : String → Prop} {depth : Depth} {text : String}
    (suite : Suite isName isInsert depth text) : Ended text.toList := by
  induction suite with
  | empty depth => exact .inl rfl
  | append _ _ left right =>
      rw [String.toList_append]
      exact left.append right
  | line simple => exact .inr (by simp)
  | @compound header body _ _ _ inside =>
      rw [String.toList_append]
      exact Ended.append (.inr (by simp)) inside
  | indented _ _ =>
      rw [Text.indented, String.toList_ofList]
      exact Text.ended_indentedChars ..
  | insertion _ =>
      rw [Text.indented, String.toList_ofList]
      exact Text.ended_indentedChars ..
  | innerLine _ => exact .inr (by simp)

/-- Procedures that are proper are filled. -/
theorem Procedure.Proper.filled {isName isInsert : String → Prop} {procedure : Procedure}
    (proper : procedure.Proper isName isInsert) (globals : List String) :
    Listing.Filled ⟨procedure.render globals, procedure.owner⟩ := by
  have line : Ended (globalLine (procedure.globals globals)).toList := by
    unfold globalLine
    split
    · exact .inl rfl
    · rw [String.toList_append]
      exact .inr List.getLast?_concat
  have header (start : List Char) : Ended (start ++ "):\n".toList) :=
    .inr (by simp [List.getLast?_append])
  refine ⟨?_, by simp [Procedure.render]⟩
  simp only [Procedure.render, String.toList_append]
  exact (((header _).append line).append proper.body.ended).append proper.returnLine.ended

/-- The pieces of a program are statements of the language. -/
theorem Gen.ensures_pieces {n : Nat} {isName isInsert : String → Prop} {setting : Setting n}
    (roots : List (Fin n)) :
    (Gen.pieces setting roots).Ensures (codeContract n isName isInsert)
      (fun pieces => ∀ piece ∈ pieces, Suite isName isInsert .outer piece.code) := by
  induction roots with
  | nil => exact fun _ member => nomatch member
  | cons top rest ih =>
      unfold Gen.pieces
      refine .ite (.bind (ensures_block top) fun _ _ => ih) ?_
      refine .bind (ensures_chain _) fun code suite => ?_
      exact .bind ih fun pieces suites => List.forall_mem_cons.mpr ⟨suite, suites⟩

/-- A program comes to pieces that are suites. -/
theorem Gen.ensures_program {n : Nat} {isName isInsert : String → Prop} {setting : Setting n} :
    (Gen.program setting).Ensures (codeContract n isName isInsert)
      (fun parts => ∀ piece ∈ parts.body, Suite isName isInsert .outer piece.code) := by
  have developerName (name : Value) :
      (Gen.developerName name).Ensures (codeContract n isName isInsert) isName :=
    ⟨trivial, fun _ promised => promised⟩
  unfold Gen.program
  refine .bind (.each fun name _ => ensures_variableName name) fun userNames _ => ?_
  refine .bind (.each fun name _ => developerName name) fun developerNames _ => ?_
  exact .bind (ensures_pieces _) fun body suites => suites

namespace Setting

variable {n : Nat} {setting : Setting n}

/-- The top-level blocks of a program are gone through in order. A definition is asked for, and
leaves nothing; the chain of any other block comes to a piece of code. -/
inductive Traversal (setting : Setting n) : Pass n → List (Fin n) → List Piece → Pass n → Prop
  | done (pass : Pass n) : Traversal setting pass [] [] pass
  | definition {pass next after : Pass n} {top : Fin n} {rest : List (Fin n)}
      {pieces : List Piece} {outcome : Outcome} :
      Kind.isDefinition (setting.block top).kind = true →
        (setting.outcome n top).run.run pass = (.ok outcome, next) →
        Traversal setting next rest pieces after →
        Traversal setting pass (top :: rest) pieces after
  | chain {pass next after : Pass n} {top : Fin n} {rest : List (Fin n)} {pieces : List Piece}
      {code : String} :
      Kind.isDefinition (setting.block top).kind = false →
        (setting.run (Gen.chain setting (some top))).run.run pass = (.ok code, next) →
        Traversal setting next rest pieces after →
        Traversal setting pass (top :: rest)
          (⟨⟨(setting.block top).id, (setting.block top).kind⟩, code⟩ :: pieces) after

/-- A run over the top-level blocks goes through them one by one. -/
theorem traversal_of_pieces {roots : List (Fin n)} {pass after : Pass n} {pieces : List Piece}
    (ran : (setting.run (Gen.pieces setting roots)).run.run pass = (.ok pieces, after)) :
    Traversal setting pass roots pieces after := by
  induction roots generalizing pass pieces with
  | nil =>
      cases ran
      exact .done _
  | cons top rest ih =>
      unfold Gen.pieces run at ran
      cases definition : Kind.isDefinition (setting.block top).kind with
      | true =>
          simp only [definition, ↓reduceIte, Gen.runWith_bind] at ran
          obtain ⟨outcome, next, asked, others⟩ := Step.bind_eq_ok.mp ran
          rw [Gen.runWith_block] at asked
          exact .definition definition asked (ih others)
      | false =>
          simp only [definition, Bool.false_eq_true, ↓reduceIte, Gen.runWith_bind] at ran
          obtain ⟨code, next, asked, others⟩ := Step.bind_eq_ok.mp ran
          obtain ⟨more, last, found, same⟩ := Step.bind_eq_ok.mp others
          cases same
          exact .chain definition asked (ih found)

/-- A listing that is emitted is assembled from what the program comes to in a new pass. -/
theorem program_of_emit {pass after : Pass n} {listing : Listing}
    (ran : setting.emit.run.run pass = (.ok listing, after)) :
    ∃ log parts finished,
      (setting.run (Gen.program setting)).run.run { Pass.start Names.start with log := log } =
        (.ok parts, finished) ∧
      listing = Listing.assemble finished parts ∧ after = { finished with log := after.log } := by
  unfold emit at ran
  obtain ⟨_, started, reset, noting⟩ := Step.bind_eq_ok.mp ran
  obtain ⟨_, noted, note, running⟩ := Step.bind_eq_ok.mp noting
  obtain ⟨parts, finished, made, finishing⟩ := Step.bind_eq_ok.mp running
  cases finishing
  cases reset
  cases note
  exact ⟨_, parts, finished, made, rfl, rfl⟩

/-- A program is run: the user's variables that are used are named, then the developer's, and then
the top-level blocks are gone through. -/
inductive Execution (setting : Setting n) (pass : Pass n) : Parts → Pass n → Prop
  | intro {userNames developerNames : List String} {body : List Piece}
      {named begun finished : Pass n} :
      (setting.run (Gen.each Gen.variableName setting.workspace.usedVariables)).run.run pass =
        (.ok userNames, named) →
      (setting.run (Gen.each Gen.developerName setting.workspace.developerVariables)).run.run
        named = (.ok developerNames, begun) →
      Traversal setting begun setting.workspace.roots body finished →
      Execution setting pass ⟨userNames, developerNames, body⟩ finished

/-- A run of a program is an execution of its parts. -/
theorem execution_of_program {pass finished : Pass n} {parts : Parts}
    (ran : (setting.run (Gen.program setting)).run.run pass = (.ok parts, finished)) :
    setting.Execution pass parts finished := by
  unfold Gen.program run at ran
  simp only [Gen.runWith_bind] at ran
  obtain ⟨userNames, named, users, naming⟩ := Step.bind_eq_ok.mp ran
  obtain ⟨developerNames, begun, developers, walking⟩ := Step.bind_eq_ok.mp naming
  obtain ⟨body, last, walked, same⟩ := Step.bind_eq_ok.mp walking
  cases same
  exact .intro users developers (traversal_of_pieces walked)

/-- **The spans of a listing are exact.** When a listing is emitted, the program has been run from a
new pass, and the spans of the listing are of two sorts. Those of the first mark, in their order,
the procedures of the pass as written and the pieces of code that are not empty: the lines from
first to last are that text, and each span ends before the next begins. The others belong to
top-level blocks that came to no code, at most one to each. -/
theorem emit_spans {pass after : Pass n} {listing : Listing}
    (ran : setting.emit.run.run pass = (.ok listing, after)) :
    ∃ (log : List String) (parts : Parts) (finished : Pass n) (spans idle : List Span),
      setting.Execution { Pass.start Names.start with log := log } parts finished ∧
      after = { finished with log := after.log } ∧
      spans.Sublist listing.spans ∧
      listing.spans.Perm (spans ++ idle) ∧
      (idle.map (·.owner)).Sublist (Listing.idleOwners parts.body) ∧
      Listing.Marks listing.code spans
        (Listing.procedureTexts after parts.developerNames ++ Listing.pieceTexts parts.body) := by
  obtain ⟨log, parts, finished, made, rfl, same⟩ := program_of_emit ran
  have execution := execution_of_program made
  have inserts : setting.Inserts fun _ => True := fun _ _ _ => trivial
  have fresh : Pass.Legal (fun _ => True) { (Pass.start Names.start : Pass n) with log := log } :=
    (Reached.start.aside [] log : setting.Reached _).legal inserts
  obtain ⟨legal, suites⟩ := setting.runWith_keeps_legal inserts
    (Gen.ensures_program : (Gen.program setting).Ensures _ _) n _ fresh
  rw [run] at made
  rw [made] at legal suites
  have procedures : ∀ procedure ∈ finished.procedures.entries, ∀ globals,
      Listing.Filled ⟨procedure.render globals, procedure.owner⟩ :=
    fun procedure member => (legal.procedures procedure member).filled
  obtain ⟨spans, idle, sublist, all, owners, marks⟩ := Listing.assemble_marks procedures
    fun piece member => (suites parts rfl piece member).ended
  refine ⟨log, parts, finished, spans, idle, execution, same, sublist, all, owners, ?_⟩
  rw [same]
  exact marks

/-- A procedure and an assignment. -/
def procedureSample : Setting 4 :=
  .ofBlocks #v[
    .ofKind .setVariable [("VAR", .text "x")] [],
    .ofKind .defineWithoutResult [("NAME", .text "greet")] [(.text "STACK", some 2)],
    .ofKind .print [] [(.text "TEXT", some 3)],
    .ofKind .text [("TEXT", .text "hello")] []] [0, 1]

theorem emit_spans_procedureSample :
    ∃ listing after, procedureSample.emit.run.run (Pass.start Names.start) = (.ok listing, after) ∧
      listing.code =
        "x = None\n\ndef greet():\n    global x\n    print('hello')\n\nx = 0\n" ∧
      ∃ (log : List String) (parts : Parts) (finished : Pass 4) (spans idle : List Span),
        procedureSample.Execution { Pass.start Names.start with log := log } parts finished ∧
        after = { finished with log := after.log } ∧
        spans.Sublist listing.spans ∧
        listing.spans.Perm (spans ++ idle) ∧
        (idle.map (·.owner)).Sublist (Listing.idleOwners parts.body) ∧
        Listing.Marks listing.code spans
          (Listing.procedureTexts after parts.developerNames ++ Listing.pieceTexts parts.body) := by
  have computed : (procedureSample.emit.run.run (Pass.start Names.start)).1.toOption.map (·.code) =
      some "x = None\n\ndef greet():\n    global x\n    print('hello')\n\nx = 0\n" := by
    decide +kernel
  obtain ⟨listing, made, code⟩ := Option.map_eq_some_iff.mp computed
  have ran := Step.eq_ok_of_toOption made
  exact ⟨listing, _, ran, code, emit_spans ran⟩

end Setting

end BlockScript
