import LiveForm.Command.Basic

/-!
# The program

Reads the files that the command line mentions and the environment, runs the command, and writes
what came of it.
-/

namespace LiveForm.Program

/-- The text of a file, if it can be read. -/
def readText (path : String) : IO (Option String) := do
  try
    return some (← IO.FS.readFile path)
  catch _ =>
    return none

/-- The files among some paths. -/
def readFiles (paths : List String) : IO Files := do
  let found ← paths.mapM fun path => do
    return (← readText path).map fun text => (path, text)
  return Table.ofList found.reduceOption

/-- The variables of the environment that settings come from. -/
def readEnvironment : IO Environment := do
  let names :=
    ["FORMALITY_DEBOUNCE_MS", "FORMALITY_POLL_INTERVAL_MS", "FORMALITY_VALIDATION_TIMEOUT_MS",
      "FORMALITY_LOG_LEVEL"]
  let found ← names.mapM fun name => do
    return (← IO.getEnv name).map fun v => (name, v)
  return found.reduceOption

/-- Writes what came of a command line. -/
def write (report : Report) : IO Unit := do
  let output ← IO.getStdout
  let errors ← IO.getStderr
  output.putStr report.output
  for entry in report.log do
    if report.threshold ≤ entry.level.weight then errors.putStrLn entry.line
  errors.putStr report.complaints
  if report.exit == 2 then errors.putStrLn "Error: the command line does not fit. Try '--help'."
  if let some f := report.fault then errors.putStrLn ("Error: " ++ f.message)

end LiveForm.Program

/-- Runs a command line. -/
def main (words : List String) : IO UInt32 := do
  let files ← LiveForm.Program.readFiles (LiveForm.Command.mentioned words)
  let report := LiveForm.Command.run files (← LiveForm.Program.readEnvironment) words
  LiveForm.Program.write report
  return report.exit.toUInt32
