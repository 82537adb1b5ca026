import BlockScript.Command.Basic

/-! # The command line -/

open BlockScript

/-- Reads a file; any failure means that it cannot be read. -/
def readSource (path : String) : IO (Attempt String) := do
  try
    return .ok (← IO.FS.readFile path)
  catch _ => return .error .noSuchFile

/-- Runs the command on the files of the system. -/
def main (arguments : List String) : IO UInt32 := do
  let statementPrefix ← IO.getEnv "STATEMENT_PREFIX"
  let environment : Command.Environment := ⟨← IO.getEnv "ONE_BASED_INDEX", statementPrefix⟩
  match Command.Invocation.ofArguments statementPrefix arguments with
  | .error .help => return 0
  | .error .usage => return 2
  | .ok invocation =>
      let plan := Command.plan environment invocation (← readSource invocation.source)
      let shown := Command.Notice.shown invocation.debug
      IO.eprint (shown plan.notices)
      match plan.ending with
      | .exit code => return UInt32.ofNat code
      | .broken _ => return 1
      | .write outputs after =>
          for output in outputs do
            IO.FS.writeFile output.path.toString output.text
          IO.eprint (shown after)
          return 0
