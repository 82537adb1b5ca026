import BlockScript.Command.Arguments
import BlockScript.Files.Tree
import BlockScript.Json.Reader
import BlockScript.Json.Writer
import BlockScript.Listing

/-! # The generation command

The command reads a description from a file and writes the listing and the lines of its top-level
blocks to files. What it would do is planned without touching any file; `Command.run` carries a plan
out on a directory.
-/

namespace BlockScript

namespace Command

/-- The environment of the command. -/
structure Environment where
  /-- The convention for indices: they start with one exactly when this is `1`. -/
  oneBased : Option String
  statementPrefix : Option String

/-- How weighty a notice is. -/
inductive Level where
  | debug
  | info
  | error
deriving DecidableEq

/-- A notice for the user. -/
structure Notice where
  level : Level
  message : String

namespace Notice

/-- The label of a level. -/
def label : Level → String
  | .debug => "DEBUG"
  | .info => "INFO"
  | .error => "ERROR"

/-- A notice as a line. -/
def line (notice : Notice) : String := "[" ++ label notice.level ++ "] " ++ notice.message ++ "\n"

/-- Whether a notice is shown. -/
def isShown (debug : Bool) (notice : Notice) : Bool := debug || notice.level ≠ .debug

/-- The lines of the notices that are shown. -/
def shown (debug : Bool) (notices : List Notice) : String :=
  String.join ((notices.filter (isShown debug)).map line)

end Notice

/-- A file to be written. -/
structure Output where
  path : Path
  text : String

/-- How a plan ends. -/
inductive Ending where
  | exit (code : Nat)
  /-- A failure that is no verdict on the description. -/
  | broken (fault : Fault)
  /-- Files are to be written before the last notices. -/
  | write (outputs : List Output) (after : List Notice)

/-- What the command would do: notices, and how it ends. -/
structure Plan where
  notices : List Notice
  ending : Ending

/-- The lines of the top-level blocks as a document. -/
def spanDocument (listing : Listing) : String :=
  Json.paged (.object [("mappings", listing.spanValues)])

/-- Where the listing goes. -/
def listingPath (invocation : Invocation) : Path :=
  match invocation.out with
  | some out =>
      if out.isEmpty then (Path.ofString invocation.source).withSuffix ".py" else .ofString out
  | none => (Path.ofString invocation.source).withSuffix ".py"

/-- Where the lines of the top-level blocks go. -/
def spanPath (invocation : Invocation) : Path :=
  (Path.ofString invocation.source).withSuffix ".map.json"

/-- The ending of a finished listing. -/
def finish (invocation : Invocation) (listing : Listing) : Ending :=
  let out := listingPath invocation
  let spans := spanPath invocation
  .write [⟨out, listing.code⟩, ⟨spans, spanDocument listing⟩]
    [⟨.info, "Wrote Python to: " ++ out.toString⟩,
      ⟨.debug, "Wrote mapping to: " ++ spans.toString⟩]

/-- The ending of a failure, with its last notice. -/
def stop (notices : List Notice) : Fault → Plan
  | .rejected verdict =>
      match Value.shown? (.object verdict.details) with
      | some details =>
          let notice : Notice :=
            ⟨.error, "Generation failed: " ++ verdict.message ++ " details: " ++ details⟩
          ⟨notices ++ [notice], .exit 2⟩
      | none => ⟨notices, .broken .tooManyDigits⟩
  | fault => ⟨notices, .broken fault⟩

/-- The plan for a description. -/
def planFor (invocation : Invocation) (options : Options) (description : Value) : Plan :=
  match Program.ofValue description with
  | .error fault => stop [] fault
  | .ok program =>
      let generation := program.generate options
      let notices := generation.log.map fun message => ⟨.debug, message⟩
      match generation.result with
      | .error fault => stop notices fault
      | .ok listing => ⟨notices, finish invocation listing⟩

/-- The plan when the description cannot be read. -/
def unreadable (invocation : Invocation) : Plan :=
  ⟨[⟨.error, "Could not read IR " ++ invocation.source⟩], .exit 1⟩

/-- The options of an invocation; the environment decides the convention for indices when no
argument does. -/
def optionsOf (environment : Environment) (invocation : Invocation) : Options :=
  { oneBased := invocation.oneBased <|> environment.oneBased.map (· == "1")
    statementPrefix := invocation.statementPrefix }

/-- The plan for what was read from the source. -/
def plan (environment : Environment) (invocation : Invocation) (content : Attempt String) : Plan :=
  match content with
  | .error .badPath => ⟨[], .broken .badPath⟩
  | .error _ => unreadable invocation
  | .ok text =>
      match Json.read text with
      | .error .malformed => unreadable invocation
      | .error .longInteger => ⟨[], .broken .tooManyDigits⟩
      | .ok description => planFor invocation (optionsOf environment invocation) description

/-- What came of the command: its exit code or the failure that broke it, the lines shown, and the
files afterwards. -/
structure Report where
  result : Attempt Nat
  log : String
  files : Tree

/-- Writes files one after the other, up to the first failure. -/
def writeAll : Tree → List Output → Attempt Unit × Tree
  | tree, [] => (.ok (), tree)
  | tree, output :: rest =>
      match tree.write output.path output.text with
      | .ok tree => writeAll tree rest
      | .error fault => (.error fault, tree)

/-- Carries a plan out. -/
def carryOut (debug : Bool) (files : Tree) (plan : Plan) : Report :=
  let shown := Notice.shown debug
  match plan.ending with
  | .exit code => ⟨.ok code, shown plan.notices, files⟩
  | .broken fault => ⟨.error fault, shown plan.notices, files⟩
  | .write outputs after =>
      match writeAll files outputs with
      | (.ok (), written) => ⟨.ok 0, shown (plan.notices ++ after), written⟩
      | (.error fault, written) => ⟨.error fault, shown plan.notices, written⟩

/-- Runs the command on a directory. -/
def run (environment : Environment) (files : Tree) (arguments : List String) : Report :=
  match Invocation.ofArguments environment.statementPrefix arguments with
  | .error .help => ⟨.ok 0, "", files⟩
  | .error .usage => ⟨.ok 2, "", files⟩
  | .ok invocation =>
      carryOut invocation.debug files (plan environment invocation (files.read invocation.source))

end Command

end BlockScript
