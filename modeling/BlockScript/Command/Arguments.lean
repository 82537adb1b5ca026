import BlockScript.Gen.Setting

/-! # Command-line arguments

An argument is a word, an option, or the mark after which everything is a word. Long options may be
shortened as long as only one fits, and take their value after an equals sign or from the next word.
-/

namespace BlockScript

namespace Command

/-- What the command is asked to do. -/
structure Invocation where
  /-- The file with the description. -/
  source : String
  /-- The file for the listing. -/
  out : Option String
  oneBased : Option Bool
  statementPrefix : Option String
  debug : Bool

/-- Why there is nothing to do. -/
inductive Refusal where
  /-- Help was asked for. -/
  | help
  /-- The arguments make no sense. -/
  | usage
deriving DecidableEq

/-- The options of the command. -/
inductive Flag where
  | help
  | out
  | oneBased
  | zeroBased
  | statementPrefix
  | debug
deriving DecidableEq

namespace Flag

/-- The spellings of the options. -/
def spellings : List (String × Flag) :=
  [("-h", .help), ("--help", .help), ("--out", .out), ("--one-based", .oneBased),
    ("--zero-based", .zeroBased), ("--statement-prefix", .statementPrefix), ("--debug", .debug)]

/-- Whether an option takes a value. -/
def takesValue : Flag → Bool
  | .out | .statementPrefix => true
  | _ => false

end Flag

/-- An argument by its form. -/
inductive Argument where
  | word (text : String)
  /-- An option with the value given in the same argument, if any. -/
  | option (flag : Flag) (value : Option String)
  /-- The short option for help with something behind it that it does not take. -/
  | garbled
  | unknown

/-- A text up to its first equals sign, and what follows if there is one. -/
def splitEquals (text : List Char) : List Char × Option String :=
  let before := text.takeWhile (· ≠ '=')
  match text.dropWhile (· ≠ '=') with
  | _ :: after => (before, some (String.ofList after))
  | [] => (before, none)

/-- Whether a text looks like a negative number. -/
def isNegativeNumber (text : List Char) : Bool :=
  match text with
  | '-' :: rest =>
      let rest := if rest.getLast? = some '\n' then rest.dropLast else rest
      let digits := rest.takeWhile Text.isDecimalDigit
      match rest.dropWhile Text.isDecimalDigit with
      | [] => !digits.isEmpty
      | '.' :: fraction => !fraction.isEmpty && fraction.all Text.isDecimalDigit
      | _ => false
  | _ => false

/-- An argument that starts with a dash and is no option. -/
def wordOrUnknown (text : List Char) : Argument :=
  if isNegativeNumber text || text.contains ' ' then .word (String.ofList text) else .unknown

/-- The form of an argument that starts with two dashes. -/
def longForm (text : List Char) : Except Refusal Argument :=
  let (name, value) := splitEquals text
  match Flag.spellings.find? (·.1.toList == name) with
  | some (_, flag) => .ok (.option flag value)
  | none =>
      match Flag.spellings.filter (fun entry => name.isPrefixOf entry.1.toList) with
      | [] => .ok (wordOrUnknown text)
      | [(_, flag)] => .ok (.option flag value)
      | _ => .error .usage

/-- The form of letters behind the short option for help: each has to ask for help once more. -/
def helpLetters (letters : List Char) : Argument :=
  if letters.all (· = 'h') then .option .help none else .garbled

/-- The form of an argument that starts with one dash. An equals sign may stand before the letters
behind the short option, but not before nothing. -/
def shortForm (text : List Char) : Argument :=
  match text with
  | ['-', 'h', '='] => .garbled
  | '-' :: 'h' :: '=' :: letters => helpLetters letters
  | '-' :: 'h' :: letters => helpLetters letters
  | _ => wordOrUnknown text

/-- The form of an argument. -/
def Argument.ofText (text : String) : Except Refusal Argument :=
  match text.toList with
  | '-' :: '-' :: rest => longForm ('-' :: '-' :: rest)
  | '-' :: c :: rest => .ok (shortForm ('-' :: c :: rest))
  | _ => .ok (.word text)

/-- The mark after which everything is a word. -/
def mark : String := "--"

/-- The arguments before the mark by their forms, and the words after it if there is a mark. -/
def forms : List String → Except Refusal (List Argument × Option (List String))
  | [] => .ok ([], none)
  | text :: rest =>
      if text = mark then .ok ([], some rest)
      else do
        let form ← Argument.ofText text
        let (more, after) ← forms rest
        return (form :: more, after)

/-- What has been gathered from the arguments. -/
structure Gathered where
  source : Option String := none
  out : Option String := none
  oneBased : Option Bool := none
  statementPrefix : Option String
  debug : Bool := false
  /-- Whether an argument was left over. -/
  leftOver : Bool := false
  /-- Whether the latest argument was the source. -/
  atSource : Bool := false

namespace Gathered

/-- Takes a word: the first is the source. -/
def takeWord (gathered : Gathered) (text : String) : Gathered :=
  match gathered.source with
  | none => { gathered with source := some text, atSource := true }
  | some _ => { gathered with leftOver := true, atSource := false }

/-- Takes the convention for indices. The two conventions exclude each other. -/
def takeBase (gathered : Gathered) (oneBased : Bool) : Except Refusal Gathered :=
  if gathered.oneBased = some (!oneBased) then .error .usage
  else .ok { gathered with oneBased := some oneBased }

/-- Takes an option without a value. -/
def takeFlag (gathered : Gathered) : Flag → Except Refusal Gathered
  | .help => .error .help
  | .oneBased => gathered.takeBase true
  | .zeroBased => gathered.takeBase false
  | .debug => .ok { gathered with debug := true }
  | .out | .statementPrefix => .error .usage

/-- The value that a text gives to an option: the mark alone takes back what was given. -/
def valueOf? (text : String) : Option String := if text = mark then none else some text

/-- Takes an option with its value. -/
def takeValue (gathered : Gathered) (flag : Flag) (text : String) : Except Refusal Gathered :=
  match flag with
  | .out => .ok { gathered with out := valueOf? text }
  | .statementPrefix => .ok { gathered with statementPrefix := valueOf? text }
  | _ => .error .usage

/-- Takes arguments in order. An option that takes a value takes the next word for it. -/
def takeAll : Gathered → List Argument → Except Refusal Gathered
  | gathered, [] => .ok gathered
  | gathered, .word text :: rest => takeAll (gathered.takeWord text) rest
  | gathered, .unknown :: rest =>
      takeAll { gathered with leftOver := true, atSource := false } rest
  | _, .garbled :: _ => .error .usage
  | gathered, .option flag (some value) :: rest => do
      takeAll (← { gathered with atSource := false }.takeValue flag value) rest
  | gathered, .option flag none :: rest => do
      let gathered := { gathered with atSource := false }
      if flag.takesValue then
        match rest with
        | .word text :: rest => takeAll (← gathered.takeValue flag text) rest
        | _ => .error .usage
      else takeAll (← gathered.takeFlag flag) rest

/-- Takes the words after the mark. The mark is left over unless the source stands next to it. -/
def takeMarked (gathered : Gathered) (words : List String) : Gathered :=
  match gathered.source, words with
  | none, text :: rest =>
      { gathered with source := some text, leftOver := gathered.leftOver || !rest.isEmpty }
  | none, [] => { gathered with leftOver := true }
  | some _, words =>
      { gathered with leftOver := gathered.leftOver || !gathered.atSource || !words.isEmpty }

end Gathered

/-- What the arguments ask for; the statement prefix is given unless an argument has one. -/
def Invocation.ofArguments (statementPrefix : Option String) (arguments : List String) :
    Except Refusal Invocation := do
  let (options, after) ← forms arguments
  let gathered ← Gathered.takeAll { statementPrefix } options
  let gathered :=
    match after with
    | some words => gathered.takeMarked words
    | none => gathered
  match gathered.source, gathered.leftOver with
  | some source, false =>
      return ⟨source, gathered.out, gathered.oneBased, gathered.statementPrefix, gathered.debug⟩
  | _, _ => .error .usage

end Command

end BlockScript
