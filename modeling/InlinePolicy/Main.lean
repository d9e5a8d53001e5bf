import InlinePolicy.CommandLine.Run

/-!
# The program

Reads the arguments, the environment and the scenario's file, and prints what the run says.
-/

namespace InlinePolicy.CommandLine

/-- Why reading a file failed. -/
def fileError : IO.Error → FileError
  | .noFileOrDirectory .. => .notFound
  | .inappropriateType .. => .isADirectory
  | error => .other (toString error)

/-- The content of the file that a command needs. -/
def readNeeded (command : Command) : IO (String → Except FileError String) := do
  let .evaluate options := command | return fun _ => .error .notFound
  let content ← EIO.toBaseIO (IO.FS.readFile options.scenario)
  return fun _ => content.mapError fileError

/-- The variables of the environment that a run may look at. -/
def readEnvironment : IO Lookup := do
  let names := Config.variableNames ++ ["RUST_LOG", "CLICOLOR_FORCE", "NO_COLOR", "CLICOLOR"]
  let values ← names.filterMapM fun name => do return (← IO.getEnv name).map (name, ·)
  return fun name => List.lookup name values

end InlinePolicy.CommandLine

open InlinePolicy CommandLine

/-- Runs the program: 0 if it succeeds, 1 if it fails, 2 if its arguments are refused. -/
def main (arguments : List String) : IO UInt32 := do
  let some command := Command.ofArguments? arguments
    | IO.eprintln "error: the arguments are not understood"
      return 2
  let world : World :=
    { environment := ← readEnvironment
      content := ← readNeeded command
      terminal := ← (← IO.getStdout).isTty }
  let outcome := run world command
  for line in outcome.log world do
    IO.eprintln line
  match outcome.result with
  | .ok output =>
    IO.print output
    return 0
  | .error failure =>
    for text in failure.chain do
      IO.eprintln text
    return 1
