import LiveForm.Fault

/-!
# Logs

Operations write a log while they run. What has been written stays written when the operation
fails.
-/

namespace LiveForm

/-- How much an entry of the log matters. -/
inductive Level where
  | info | warning | error
deriving Repr, DecidableEq

/-- The level by name. -/
def Level.name : Level → String
  | info => "INFO"
  | warning => "WARNING"
  | error => "ERROR"

/-- The weight of the level, by which settings choose what is shown. -/
def Level.weight : Level → Nat
  | info => 20
  | warning => 30
  | error => 40

/-- An entry of a log. -/
structure LogEntry where
  level : Level
  message : String
deriving Repr, DecidableEq

/-- The entry on one line. -/
def LogEntry.line (e : LogEntry) : String :=
  e.level.name ++ ": " ++ e.message

/-- A log, oldest entry first. -/
abbrev Log := List LogEntry

/-- An operation that writes a log and may fail. -/
abbrev Logged := ExceptT Fault (StateM Log)

namespace Logged

/-- Writes an entry. -/
def write (level : Level) (message : String) : Logged Unit :=
  fun log => (.ok (), log ++ [⟨level, message⟩])

/-- Writes a warning. -/
def warn (message : String) : Logged Unit :=
  write .warning message

/-- An outcome as an operation. -/
def ofExcept (r : Except Fault α) : Logged α :=
  fun log => (r, log)

/-- Runs an operation on an empty log. -/
def runNew (op : Logged α) : Except Fault α × Log :=
  op.run.run []

end Logged

end LiveForm
