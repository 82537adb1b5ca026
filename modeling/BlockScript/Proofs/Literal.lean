import BlockScript.Gen.Setting
import BlockScript.Proofs.Printable

/-! # Literals are read back

A literal of the generated language starts with a single quote and goes on to the next one that is
not escaped. A backslash escapes itself, a quote, and the letters for a newline, a return and a tab;
behind an `x` it takes two hexadecimal digits. `Text.readLiteral?` reads one literal from the front
of a text. A quoted text is read back, whatever it holds and whatever follows it, and within it only
the two quotes around it are not escaped (`quote_reads_back`).
-/

namespace BlockScript

namespace Text

/-- The letters that stand behind a backslash, each with the character that is meant. -/
def letterEscapes : List (Char × Char) :=
  [('\\', '\\'), ('\'', '\''), ('n', '\n'), ('r', '\r'), ('t', '\t')]

/-- The value of a hexadecimal digit, in either case. -/
def hexValue? (c : Char) : Option Nat :=
  if '0' ≤ c ∧ c ≤ '9' then some (c.toNat - 48)
  else if 'a' ≤ c ∧ c ≤ 'f' then some (c.toNat - 87)
  else if 'A' ≤ c ∧ c ≤ 'F' then some (c.toNat - 55)
  else none

/-- The character of a number with two hexadecimal digits. -/
def hexChar? (high low : Char) : Option Char := do
  return Char.ofNat (16 * (← hexValue? high) + (← hexValue? low))

/-- Whether a character cannot stand in a literal as it is: it ends the line or the file. -/
def breaksLiteral (c : Char) : Bool := c = '\n' || c = '\r' || c = '\x00'

/-- Reads a literal behind its first quote: the text that is meant, and what follows the quote that
ends it. -/
def readInside? : List Char → Option (List Char × List Char)
  | [] => none
  | '\'' :: rest => some ([], rest)
  | '\\' :: 'x' :: high :: low :: rest => do
      let c ← hexChar? high low
      let (text, rest) ← readInside? rest
      return (c :: text, rest)
  | '\\' :: letter :: rest => do
      let c ← letterEscapes.lookup letter
      let (text, rest) ← readInside? rest
      return (c :: text, rest)
  | c :: rest =>
      if c = '\\' || breaksLiteral c then none
      else do
        let (text, rest) ← readInside? rest
        return (c :: text, rest)

/-- Reads one literal from the front of a text: the text that is meant, and the rest. -/
def readLiteral? (code : String) : Option (String × String) :=
  match code.toList with
  | '\'' :: chars =>
      (readInside? chars).map fun read => (String.ofList read.1, String.ofList read.2)
  | _ => none

/-- Whether a character is escaped by what stands before it: by an odd number of backslashes. -/
def isEscapedAfter (before : List Char) : Bool :=
  (before.reverse.takeWhile (· = '\\')).length % 2 = 1

/-! ## Escaped characters -/

theorem hexValue?_hexDigit {k : Nat} (below : k < 16) : hexValue? (hexDigit k) = some k := by
  revert k
  decide

/-- The two digits of a small number are read as its character. -/
theorem hexChar?_hex {n : Nat} (small : n < 256) :
    hexChar? (hexDigit (n / 16 % 16)) (hexDigit (n % 16)) = some (Char.ofNat n) := by
  have digits : 16 * (n / 16 % 16) + n % 16 = n := by omega
  rw [hexChar?, hexValue?_hexDigit (Nat.mod_lt _ (by decide)),
    hexValue?_hexDigit (Nat.mod_lt _ (by decide))]
  exact congrArg (some ∘ Char.ofNat) digits

/-- The ways in which a character is written into a literal: by a letter, by its number, or as it
is. -/
inductive Written : Char → List Char → Prop
  | letter {letter c : Char} :
      (letter, c) ∈ letterEscapes → Written c ['\\', letter]
  | number {high low c : Char} : hexChar? high low = some c → Written c ['\\', 'x', high, low]
  | plain {c : Char} : c ≠ '\'' → c ≠ '\\' → breaksLiteral c = false → Written c [c]

theorem written_escaped (c : Char) : Written c (escaped c) := by
  unfold escaped
  by_cases backslash : c = '\\'
  · subst backslash
    exact .letter (by decide)
  by_cases newline : c = '\n'
  · subst newline
    exact .letter (by decide)
  by_cases feed : c = '\r'
  · subst feed
    exact .letter (by decide)
  by_cases tab : c = '\t'
  · subst tab
    exact .letter (by decide)
  by_cases quote : c = '\''
  · subst quote
    exact .letter (by decide)
  by_cases control : isControl c = true
  · have small : c.toNat < 256 := by
      simp only [isControl, Bool.or_eq_true, decide_eq_true_eq, beq_iff_eq] at control
      omega
    have read := hexChar?_hex small
    rw [Char.ofNat_toNat] at read
    simpa [backslash, newline, feed, tab, quote, control, hex] using Written.number read
  · have whole : breaksLiteral c = false := by
      have null : c ≠ '\x00' := fun same => control (by rw [same]; rfl)
      simp [breaksLiteral, newline, feed, null]
    simpa [backslash, newline, feed, tab, quote, control] using Written.plain quote backslash whole

namespace Written

variable {c : Char} {chars : List Char}

/-- **A character is read back,** whatever follows it. -/
theorem readInside?_append (written : Written c chars) (rest : List Char) :
    readInside? (chars ++ rest) =
      (readInside? rest).map fun read => (c :: read.1, read.2) := by
  cases written with
  | @letter letter c known =>
      have all : ∀ entry ∈ letterEscapes, letterEscapes.lookup entry.1 = some entry.2 ∧
          entry.1 ≠ 'x' := by decide
      obtain ⟨found, apart⟩ := all _ known
      cases following : readInside? rest <;> simp [readInside?, apart, found, following]
  | number known =>
      cases following : readInside? rest <;> simp [readInside?, known, following]
  | plain quote backslash whole =>
      cases following : readInside? rest <;>
        simp [readInside?, backslash, whole, following]

end Written

/-- **A quoted text is read back.** -/
theorem readInside?_quoted (text rest : List Char) :
    readInside? (text.flatMap escaped ++ '\'' :: rest) = some (text, rest) := by
  induction text with
  | nil => simp [readInside?]
  | cons c text ih =>
      rw [List.flatMap_cons, List.append_assoc, (written_escaped c).readInside?_append, ih]
      rfl

/-! ## Quotes that are not escaped -/

theorem isEscapedAfter_concat (before : List Char) (c : Char) :
    isEscapedAfter (before ++ [c]) = (decide (c = '\\') && !isEscapedAfter before) := by
  by_cases backslash : c = '\\'
  · have parity (k : Nat) : decide ((k + 1) % 2 = 1) = !decide (k % 2 = 1) := by
      rw [← decide_not, decide_eq_decide]
      omega
    simp [isEscapedAfter, backslash, parity]
  · simp [isEscapedAfter, backslash]

namespace Written

variable {c : Char} {chars before : List Char}

/-- The digits of a number are neither quotes nor backslashes. -/
theorem digits_apart {high low : Char} (known : hexChar? high low = some c) :
    '\'' ∉ [high, low] ∧ '\\' ∉ [high, low] := by
  have quote : hexValue? '\'' = none := by decide
  have backslash : hexValue? '\\' = none := by decide
  unfold hexChar? at known
  constructor
  · intro member
    rcases List.mem_pair.mp member with rfl | rfl
    · simp [quote] at known
    · simp [quote] at known
  · intro member
    rcases List.mem_pair.mp member with rfl | rfl
    · simp [backslash] at known
    · simp [backslash] at known

/-- What follows a character is not escaped by it. -/
theorem isEscapedAfter_append (written : Written c chars) (free : isEscapedAfter before = false) :
    isEscapedAfter (before ++ chars) = false := by
  cases written with
  | @letter letter c known =>
      have opened : isEscapedAfter (before ++ ['\\']) = true := by
        simp [isEscapedAfter_concat, free]
      rw [List.append_cons, isEscapedAfter_concat, opened]
      simp
  | @number high low c known =>
      have apart : low ≠ '\\' := fun same => (digits_apart known).2 (by simp [same])
      rw [show before ++ ['\\', 'x', high, low] = before ++ ['\\', 'x', high] ++ [low] by simp,
        isEscapedAfter_concat]
      simp [apart]
  | plain quote backslash whole => simp [isEscapedAfter_concat, backslash]

/-- A quote that is written within a literal is escaped. -/
theorem isEscapedAfter_of_quote (written : Written c chars) (free : isEscapedAfter before = false)
    {start rest : List Char} (split : chars = start ++ '\'' :: rest) :
    isEscapedAfter (before ++ start) = true := by
  cases written with
  | letter known =>
      obtain rfl : start = ['\\'] := by
        rcases start with _ | ⟨first, _ | ⟨second, more⟩⟩
        · cases split
        · cases split
          rfl
        · simp at split
      simp [isEscapedAfter_concat, free]
  | @number high low c known =>
      have inside : '\'' ∈ '\\' :: 'x' :: [high, low] := by rw [split]; simp
      have digit := (List.mem_cons.mp ((List.mem_cons.mp inside).resolve_left (by decide)))
      exact ((digits_apart known).1 (digit.resolve_left (by decide))).elim
  | plain quote backslash whole =>
      have inside : '\'' ∈ [c] := by rw [split]; simp
      exact (quote (List.mem_singleton.mp inside).symm).elim

end Written

/-- Behind characters that leave nothing escaped, the only quote of a literal that is not escaped is
the one that ends it. -/
theorem isEscapedAfter_inside {text before start rest : List Char}
    (free : isEscapedAfter before = false)
    (split : text.flatMap escaped ++ ['\''] = start ++ '\'' :: rest) :
    isEscapedAfter (before ++ start) = false ↔ rest = [] := by
  induction text generalizing before start with
  | nil =>
      obtain ⟨rfl, rfl⟩ : start = [] ∧ rest = [] := by
        rcases start with _ | ⟨c, more⟩
        · simpa using split
        · simp at split
      simpa using free
  | cons c text ih =>
      have written := written_escaped c
      rw [List.flatMap_cons, List.append_assoc] at split
      rcases List.append_eq_append_iff.mp split with ⟨middle, rfl, later⟩ | ⟨middle, own, later⟩
      · -- The quote stands behind the first character.
        rw [← List.append_assoc]
        exact ih (written.isEscapedAfter_append free) later
      · rcases middle with _ | ⟨first, more⟩
        · -- The quote comes right behind the first character.
          rw [List.append_nil] at own
          have next : isEscapedAfter (before ++ escaped c ++ []) = false ↔ rest = [] :=
            ih (written.isEscapedAfter_append free) later.symm
          rwa [List.append_nil, own] at next
        · obtain ⟨rfl, rfl⟩ := List.cons.inj later
          have escaped := written.isEscapedAfter_of_quote free own
          simp [escaped]

end Text

/-- **Quoted texts are literals that delimit themselves and lose nothing.** Every text has a
literal. Reading one literal from the front of it and whatever follows yields the text and leaves
what follows. The literal has no control character in it, and a quote in it is not escaped exactly
when it is the first or the last character. -/
theorem quote_reads_back (text rest : String) :
    ∃ literal, quote (.text text) = .ok literal ∧
      Text.readLiteral? (literal ++ rest) = some (text, rest) ∧
      (∀ c ∈ literal.toList, 0x20 ≤ c.toNat ∧ c.toNat ≠ 0x7f) ∧
      ∀ before after, literal.toList = before ++ '\'' :: after →
        (Text.isEscapedAfter before = false ↔ before = [] ∨ after = []) := by
  have chars : (Text.quoted text).toList = '\'' :: (text.toList.flatMap Text.escaped ++ ['\'']) :=
    String.toList_ofList
  refine ⟨Text.quoted text, rfl, ?_, fun c member => ?_, fun before after split => ?_⟩
  · have read := Text.readInside?_quoted text.toList rest.toList
    simp [Text.readLiteral?, chars, read]
  · have visible := Text.printable_quoted text c member
    simp only [Text.isControl, Bool.or_eq_false_iff, decide_eq_false_iff_not,
      beq_eq_false_iff_ne] at visible
    exact ⟨Nat.le_of_not_lt visible.1, visible.2⟩
  · rw [chars] at split
    rcases before with _ | ⟨first, start⟩
    · simp [Text.isEscapedAfter]
    · obtain ⟨rfl, inside⟩ := List.cons.inj split
      have free : Text.isEscapedAfter ['\''] = false := by decide
      simpa using Text.isEscapedAfter_inside free inside

example : Text.readLiteral? "'it\\'s \\x07f\\\\'.upper()" =
    some ("it's \x07f\\", ".upper()") := by decide +kernel

example : Text.readLiteral? "'it\\'s" = none := by decide +kernel

end BlockScript
