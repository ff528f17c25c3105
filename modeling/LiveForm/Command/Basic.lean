import LiveForm.Command.Form
import LiveForm.Command.Formula

/-!
# The command line

The words of a command line lead to a command. What it did is reported as its output, its
complaints, its log and a number: zero if it went well, one if it failed, and two if it was not
called as it has to be.
-/

namespace LiveForm

/-- What came of a command line. -/
structure Report where
  exit : Nat
  output : String
  complaints : String := ""
  log : Log
  /-- The weight from which on entries of the log are shown. -/
  threshold : Nat
  /-- The failure that the command did not provide for. -/
  fault : Option Fault := none

namespace Command

/-- The first page. -/
def mainPage : Page where
  path := "formality"
  about := "Formality reactive form expression engine CLI."
  options :=
    [⟨"--log-level", "TEXT", "Logging level (default: FORMALITY_LOG_LEVEL or WARNING)."⟩]
  commands := [("expr", formulaPage.about), ("form", formPage.about)]

/-- The command of a name. -/
def byName (name : String) : Command (List String → Command Unit) :=
  match name with
  | "expr" => return onFormula
  | "form" => return onForm
  | _ => throw .usage

/-- Sets the level of the log. -/
def setLevel (level : Option String) : Command Unit := do
  let settings ← ofExcept (Settings.ofEnvironment (← get).environment)
  let chosen := match level with
    | none => settings
    | some "" => settings
    | some name => { settings with logLevel := Text.upper name }
  let threshold ← logging chosen.weight
  modify fun c => { c with threshold }

/-- Follows the words of a command line. -/
def onWords (words : List String) : Command Unit := do
  let given ← readWords mainPage words
  let (name, words) ← further given
  let command ← byName name
  setLevel (given.last? "--log-level")
  command words

/-- Runs the words of a command line among some files. -/
def run (files : Files) (environment : Environment) (words : List String) : Report :=
  let (r, c) := StateT.run (ExceptT.run (onWords words)) { files, environment }
  let report : Report := { exit := 0, output := c.output, log := c.log, threshold := c.threshold }
  match r with
  | .ok _ => report
  | .error (.help page) => { report with output := c.output ++ page.help }
  | .error .usage => { report with exit := 2 }
  | .error (.refused reason) => { report with exit := 1, complaints := reason ++ "\n" }
  | .error (.fault f) => { report with exit := 1, fault := some f }

/-- The paths that a command line may be about. -/
def mentioned (words : List String) : List String :=
  words.flatMap fun word => [word, (splitAtEquals word).2.getD word].map Files.tidyPath

end Command

end LiveForm
