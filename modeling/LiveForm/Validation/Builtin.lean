import LiveForm.Pattern.Parser
import LiveForm.Validation.Registry

/-!
# The validators that come with forms

A value can be required, a text bounded in length or held to a pattern or to the form of an email
address, and a number bounded. A validator lets pass what it does not speak of.
-/

namespace LiveForm.Validation

/-- A failure of some type without a message of its own. -/
def fails (type : String) : Except Fault Value :=
  .ok (.issue type .null)

/-- A failure of some type with a message. -/
def failsWith (type : String) (message : Value) : Except Fault Value :=
  .ok (.issue type message)

/-- The answer that passes. -/
def pass : Except Fault Value :=
  .ok (.bool true)

/-- Nothing, the empty text and empty collections are missing. -/
def isMissing : Value → Bool
  | .null => true
  | .text s => s.isEmpty
  | .list items => items.isEmpty
  | .map entries => entries.isEmpty
  | _ => false

/-- There must be a value. -/
def required : Validator :=
  .rule fun v _ => if isMissing v then fails "required" else pass

/-- A class of characters from ranges. -/
def ranges (rs : List (Char × Char)) : CharClass :=
  { items := rs.map fun r => .range r.1.toNat r.2.toNat }

/-- The ranges of the letters of ASCII. -/
def letters : List (Char × Char) :=
  [('a', 'z'), ('A', 'Z')]

/-- A character as a range. -/
def only (c : Char) : Char × Char :=
  (c, c)

/-- Characters from ranges, so many or more. -/
def atLeast (rs : List (Char × Char)) (count : Nat) : Pattern :=
  .repeated (.chars (ranges rs)) count none .eager

/-- The form of an email address: a name, an at sign, a domain, and after its last point two letters
or more. -/
def emailPattern : Pattern :=
  Pattern.row
    [.start false,
      atLeast (letters ++ [('0', '9')] ++ ("._%+-".toList.map only)) 1,
      .char '@',
      atLeast (letters ++ [('0', '9')] ++ (".-".toList.map only)) 1,
      .char '.',
      atLeast letters 2,
      .finish false]

/-- A text must look like an email address, unless it is empty. -/
def email : Validator :=
  .rule fun v _ =>
    match v with
    | .text s =>
      if s.isEmpty || emailPattern.matchesStart s then pass else fails "email"
    | _ => pass

/-- How a number compares with a limit, which must be a number or a flag. The symbol and the kind of
the number are named if it is not. -/
def compareLimit (symbol kind : String) (n : Number) (limit : Value) :
    Except Fault (Option Ordering) :=
  match limit.count? with
  | some m => .ok (n.compare? m)
  | none => .error (.shape (.unordered symbol kind limit.kindName))

/-- A failure whose message ends in the limit. -/
def failsAt (type message ending : String) (limit : Value) : Except Fault Value := do
  let shown ← Fault.ofNumber limit.plain
  failsWith type (.text (message ++ shown ++ ending))

/-- A text must not be shorter than this. -/
def minLength (limit : Value) : Validator :=
  .rule fun v _ =>
    match v with
    | .text s => do
      if (← compareLimit "<" "int" (.int s.length) limit) == some .lt then
        failsAt "minLength" "Must be at least " " characters" limit
      else pass
    | _ => pass

/-- A text must not be longer than this. -/
def maxLength (limit : Value) : Validator :=
  .rule fun v _ =>
    match v with
    | .text s => do
      if (← compareLimit ">" "int" (.int s.length) limit) == some .gt then
        failsAt "maxLength" "Must be at most " " characters" limit
      else pass
    | _ => pass

/-- A number must not be smaller than this. -/
def minValue (limit : Value) : Validator :=
  .rule fun v _ =>
    match v with
    | .number n => do
      if (← compareLimit "<" v.kindName n limit) == some .lt then
        failsAt "min" "Must be at least " "" limit
      else pass
    | _ => pass

/-- A number must not be greater than this. -/
def maxValue (limit : Value) : Validator :=
  .rule fun v _ =>
    match v with
    | .number n => do
      if (← compareLimit ">" v.kindName n limit) == some .gt then
        failsAt "max" "Must be at most " "" limit
      else pass
    | _ => pass

/-- A text must hold what is searched for. -/
def fits (wanted : Search) (message : Value) : Validator :=
  .rule fun v _ =>
    match v with
    | .text s =>
      if wanted.found s then pass
      else failsWith "pattern" (if message.isSet then message else .text "Invalid format")
    | _ => pass

/-- A pattern that is no text cannot be searched for in one. -/
def fitsNothing (kind : String) : Validator :=
  .rule fun v _ =>
    match v with
    | .text _ => .error (.shape (.noMember kind "search"))
    | _ => pass

/-- Makes a validator from a pattern and a message. -/
def pattern (regex message : Value) : Except Fault Validator :=
  match regex with
  | .text s =>
    match Pattern.parse s with
    | .ok p => .ok (fits p message)
    | .error e =>
      .error (if e.isRefusal then .registry (.refused e.message) else .pattern e)
  | v => .ok (fitsNothing v.kindName)

/-- A maker that takes one argument. -/
def unaryMaker (name argument : String) (make : Value → Validator) : Maker
  | [] => .error (.shape (.missingArgument name argument))
  | [v] => .ok (make v)
  | args => .error (.shape (.extraArguments name "1 positional argument" args.length))

/-- The maker of patterns takes a pattern and, if wanted, a message. -/
def patternMaker : Maker
  | [] => .error (.shape (.missingArgument "pattern" "regex"))
  | [regex] => pattern regex .null
  | [regex, message] => pattern regex message
  | args =>
    .error (.shape (.extraArguments "pattern" "from 1 to 2 positional arguments" args.length))

end LiveForm.Validation

namespace LiveForm

open Validation in
/-- Registers the validators that come with forms. -/
def Registry.withBuiltins (r : Registry) : Registry :=
  ((((((r.register "required" required).register "email" email).registerMaker "minLength"
    (unaryMaker "min_length" "length" minLength)).registerMaker "maxLength"
    (unaryMaker "max_length" "length" maxLength)).registerMaker "min"
    (unaryMaker "min_value" "limit" minValue)).registerMaker "max"
    (unaryMaker "max_value" "limit" maxValue)).registerMaker "pattern" patternMaker

/-- The registry that forms start from. -/
def Registry.standard : Registry :=
  ({} : Registry).withBuiltins

end LiveForm
