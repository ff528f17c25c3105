import LiveForm.Logged
import LiveForm.Text.Case

/-!
# Settings

How long forms wait, in milliseconds, and how much they log. Settings come from the variables of an
environment; a variable that is missing or blank leaves the default in its place.
-/

namespace LiveForm

/-- The variables of an environment. -/
abbrev Environment := Table String String

/-- The settings of all forms. Durations are in milliseconds. -/
structure Settings where
  debounce : Int := 1000
  pollInterval : Int := 10
  validationTimeout : Int := 5000
  logLevel : String := "WARNING"
deriving Repr, DecidableEq

namespace Settings

/-- A whole number from a variable, or a default. -/
def wholeNumber (env : Environment) (name : String) (default : Int) : Except Fault Int :=
  match Table.get? name env with
  | none => .ok default
  | some raw =>
    if (Text.trim raw.toList).isEmpty then .ok default
    else
      match Numeral.read raw with
      | .ok n => .ok n
      | .error _ => .error (.setting name (Text.quoted raw))

/-- The settings of an environment. -/
def ofEnvironment (env : Environment) : Except Fault Settings := do
  let defaults : Settings := {}
  let debounce ← wholeNumber env "FORMALITY_DEBOUNCE_MS" defaults.debounce
  let pollInterval ← wholeNumber env "FORMALITY_POLL_INTERVAL_MS" defaults.pollInterval
  let validationTimeout ←
    wholeNumber env "FORMALITY_VALIDATION_TIMEOUT_MS" defaults.validationTimeout
  let level := (Table.get? "FORMALITY_LOG_LEVEL" env).getD defaults.logLevel
  return { debounce, pollInterval, validationTimeout, logLevel := Text.upper level }

/-- A duration in seconds. -/
def seconds (milliseconds : Int) : Except Fault Float :=
  Fault.ofNumber (Number.ratio milliseconds 1000)

/-- The names of the levels of a log, with their weights. -/
def levels : Table String Nat :=
  [("CRITICAL", 50), ("FATAL", 50), ("ERROR", 40), ("WARN", 30), ("WARNING", 30), ("INFO", 20),
    ("DEBUG", 10), ("NOTSET", 0)]

/-- The weight of the level of the log. An unknown level is logged, and counts as a warning. -/
def weight (s : Settings) : Logged Nat :=
  match Table.get? (Text.upper s.logLevel) levels with
  | some n => return n
  | none => do
    Logged.warn ("Unknown log level " ++ Text.quoted s.logLevel ++ ", using WARNING")
    return 30

end Settings

end LiveForm
