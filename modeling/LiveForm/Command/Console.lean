import LiveForm.Command.Page
import LiveForm.Document.Json
import LiveForm.Form.Loader
import LiveForm.Settings

/-!
# Commands

A command reads files, writes to its output and to the log, and may stop before its end. What it has
written then stays written.
-/

namespace LiveForm

/-- Why a command stops before its end. -/
inductive Stop where
  /-- Help was asked for. -/
  | help (page : Page)
  /-- The command was not called as it has to be. -/
  | usage
  /-- What the command was given is refused, for this reason. -/
  | refused (reason : String)
  /-- Something failed that the command does not provide for. -/
  | fault (f : Fault)

/-- What commands work with, and what they have written. -/
structure Console where
  files : Files := []
  environment : Environment := []
  output : String := ""
  log : Log := []
  /-- The weight from which on entries of the log are shown. -/
  threshold : Nat := 30

/-- A command at work. -/
abbrev Command := ExceptT Stop (StateM Console)

namespace Command

/-- Writes a line. -/
def print (line : String) : Command Unit :=
  modify fun c => { c with output := c.output ++ line ++ "\n" }

/-- Does something that logs. -/
def logging (op : Logged α) : Command α := do
  let c ← get
  let (r, log) := op.run.run c.log
  set { c with log }
  match r with
  | .ok a => return a
  | .error f => throw (.fault f)

/-- Goes on with an outcome. -/
def ofExcept (r : Except Fault α) : Command α :=
  logging (Logged.ofExcept r)

/-- Reads the words behind a command. -/
def readWords (page : Page) (words : List String) : Command Given :=
  match page.read words with
  | none => throw .usage
  | some given => if given.help then throw (.help page) else return given

/-- The one argument of a command. -/
def argument (given : Given) : Command String :=
  match given.arguments with
  | [a] => return a
  | _ => throw .usage

/-- The name of a further command, and the words behind it. -/
def further (given : Given) : Command (String × List String) :=
  match given.arguments with
  | [] => throw .usage
  | name :: words => return (name, words)

/-! ### Files -/

/-- Takes a path to a file that has to be there. -/
def existing (path : String) : Command String := do
  let tidy := Files.tidyPath path
  match Files.read (← get).files tidy with
  | .ok _ => if path.endsWith "/" || path.endsWith "/." then throw .usage else return tidy
  | .error _ => throw .usage

/-- Takes a path that may be left out. -/
def existing? (path : Option String) : Command (Option String) :=
  match path with
  | none => return none
  | some path => some <$> existing path

/-- The text of a file. -/
def textOf (path : String) : Command String :=
  return (Files.read (← get).files path).toOption.getD ""

/-- Reads a document. -/
def document (path text : String) : Command Value :=
  match Document.read text with
  | .ok v => return v
  | .error .malformed => throw (.fault (.form (.unreadable path)))
  | .error (.number e) => throw (.fault (.number e))

/-- The values in a file, which must hold a map or nothing. -/
def valuesIn (path : String) : Command Entries := do
  match ← document path (← textOf path) with
  | .null => return []
  | .map es => return es
  | _ => throw .usage

/-- The values in a file that may be left out. -/
def valuesIn? (path : Option String) : Command (Option Entries) :=
  match path with
  | none => return none
  | some path => some <$> valuesIn path

/-- Reads an assignment of a value to a name. -/
def assignment (text : String) : Command (String × Value) := do
  let (name, value?) := splitAtEquals text
  let name := String.ofList (Text.trim name.toList)
  match value? with
  | none => throw .usage
  | some raw =>
    if name.isEmpty then throw .usage
    else if raw.isEmpty then return (name, .text "")
    else return (name, ← document name raw)

/-- Adds assigned values. -/
def assign (values : Entries) : List String → Command Entries
  | [] => return values
  | text :: rest => do
    let (name, v) ← assignment text
    assign (Table.put (.text name) v values) rest

/-- A value as it is printed. -/
def json (v : Value) (depth : Option Nat) : Command String :=
  ofExcept (Fault.ofNumber (Json.write depth v))

end Command

end LiveForm
