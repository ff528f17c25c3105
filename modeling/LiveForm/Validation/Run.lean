import LiveForm.Host
import LiveForm.Validation.Builtin
import LiveForm.Validation.Message

/-!
# Running validators

A field names its validators by a specification: a name, a map from names to arguments, code of the
host, or a list of specifications, gone through up to the first failure. Code of the host may take
its time, so that a validation is a process which stops at each question to the host and goes on
with the answer.
-/

namespace LiveForm

/-- A validation under way. -/
inductive Checking (α : Type) where
  | done (a : α)
  | fail (f : Fault)
  /-- Writes to the log and goes on. -/
  | say (e : LogEntry) (next : Checking α)
  /-- Asks a check of the host about a value, given the values of the form. -/
  | ask (ref : Nat) (value : Value) (values : Entries) (next : Except Fault Value → Checking α)

namespace Checking

/-- Goes on with what a process ends in. -/
def bind : Checking α → (α → Checking β) → Checking β
  | done a, f => f a
  | fail e, _ => fail e
  | say e next, f => say e (next.bind f)
  | ask ref value values next, f => ask ref value values fun r => (next r).bind f

instance : Monad Checking where
  pure := done
  bind := bind

/-- Writes a warning. -/
def warn (message : String) : Checking Unit :=
  say ⟨.warning, message⟩ (done ())

/-- Runs a process to its end; the host answers at once. -/
def run (host : Host) : Checking α → Logged α
  | done a => return a
  | fail f => throw f
  | say e next => do
    Logged.write e.level e.message
    next.run host
  | ask ref value values next => do
    let r ← tryCatch (Except.ok <$> host.check ref value values) fun f => return .error f
    (next r).run host

end Checking

namespace Validation

/-- A failure that stands for a fault. -/
def faultIssue (message : String) : Value :=
  .issue "validation_error" (.text (if message.isEmpty then "Validation error" else message))

/-- The answer of a validator. One that fails to answer fails the value. -/
def settle : Except Fault Value → Value
  | .ok v => v
  | .error f => faultIssue f.message

/-- Asks a validator. -/
def call (v : Validator) (value : Value) (values : Entries) : Checking Value :=
  match v with
  | .rule check => return settle (check value values)
  | .code ref => .ask ref value values fun r => return settle r

/-- Asks a validator that had to be found first. One that cannot be made because its arguments are
unfit fails the value; any other fault of its maker stops the validation. -/
def callFound (name : String) (found : Except Fault Validator) (value : Value)
    (values : Entries) : Checking Value :=
  match found with
  | .ok v => call v value values
  | .error f =>
    if f.isUnfit then
      return .issue "validation_error"
        (.text ("Cannot build validator '" ++ name ++ "': " ++ f.message))
    else .fail f

/-- Warns that a name is unknown, and lets the value pass. -/
def skipUnknown (name : String) : Checking Value := do
  Checking.warn ("Validator '" ++ name ++ "' is not registered, skipping")
  return .bool true

/-- Asks the validator of a name. False in the place of arguments switches it off; true and nothing
stand for no arguments. -/
def runNamed (r : Registry) (name : Key) (args : Value) (value : Value) (values : Entries) :
    Checking Value :=
  match args, name with
  | .bool false, _ => return .bool true
  | args, .text n =>
    if !r.knows n then skipUnknown n
    else
      let found :=
        match args with
        | .null => r.resolve n
        | .bool true => r.resolve n
        | args => r.resolveWith n args
      callFound n found value values
  | _, key => skipUnknown (key.plain.toOption.getD "")

mutual

/-- Runs a specification on a value. The answer is the first that fails, or passes. -/
def runSpec (r : Registry) (spec value : Value) (values : Entries) : Checking Value :=
  match spec with
  | .null => return .bool true
  | .text name => runNamed r (.text name) .null value values
  | .map entries => runEntries r entries value values
  | .list items => runItems r items value values
  | .check ref => call (.code ref) value values
  | .callback _ => return faultIssue "a callback cannot check a value"
  | spec => do
    Checking.warn
      ("Unsupported validator spec " ++ spec.written.toOption.getD "" ++ ", skipping")
    return .bool true

/-- Runs the entries of a map of names and arguments. -/
def runEntries (r : Registry) (entries : List (Key × Value)) (value : Value) (values : Entries) :
    Checking Value :=
  match entries with
  | [] => return .bool true
  | (name, args) :: rest => do
    let result ← runNamed r name args value values
    if passes result then runEntries r rest value values else return result

/-- Runs a list of specifications. -/
def runItems (r : Registry) (items : List Value) (value : Value) (values : Entries) :
    Checking Value :=
  match items with
  | [] => return .bool true
  | spec :: rest => do
    let result ← runSpec r spec value values
    if passes result then runItems r rest value values else return result

end

/-- Runs what a value can be gone through for as specifications in a row. -/
def runEach (r : Registry) (specs value : Value) (values : Entries) : Checking Value :=
  match specs.elements with
  | .ok items => runItems r items value values
  | .error e => .fail (.shape e)

end Validation

end LiveForm
