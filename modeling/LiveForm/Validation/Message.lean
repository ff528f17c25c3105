import LiveForm.Text.Case
import LiveForm.Value.Compare

/-!
# Messages of validation

A validator passes with true or nothing. Any other answer fails: false with the general message, a
text with that text, a typed failure with its own message, with the message kept for its type, or
with its type in words.
-/

namespace LiveForm.Validation

/-- The answer passes. -/
def passes : Value → Bool
  | .null => true
  | .bool true => true
  | _ => false

/-- The messages that a form starts from. -/
def defaultMessages : Entries :=
  Entries.ofNames
    [("required", .text "This field is required"), ("invalid", .text "Invalid value"),
      ("minLength", .text "Too short"), ("maxLength", .text "Too long"),
      ("pattern", .text "Invalid format"), ("min", .text "Value is too small"),
      ("max", .text "Value is too large"), ("email", .text "Invalid email address"),
      ("validate", .text "Validation failed")]

/-- The messages of a form: its own in the place of those it starts from. -/
def messagesWith (own : Entries) : Entries :=
  Table.putAll defaultMessages own

/-- Puts a space between a small letter and the capital behind it. -/
def spaceWords : List Char → List Char
  | a :: b :: rest =>
    if a.isLower && b.isUpper then a :: ' ' :: b :: spaceWords rest
    else a :: spaceWords (b :: rest)
  | cs => cs

/-- A type of failure in words: small letters with spaces, the first letter a capital. -/
def typeInWords (type : String) : String :=
  let spaced := (spaceWords type.toList).map fun c => if c == '_' then ' ' else c
  match (Text.lower (String.ofList spaced)).toList with
  | [] => ""
  | c :: rest => Text.upper (String.singleton c) ++ String.ofList rest

/-- The type of a failing answer. -/
def failureType? : Value → Option String
  | .null => none
  | .bool true => none
  | .bool false => some "invalid"
  | .issue type _ => some (if type.isEmpty then "validate" else type)
  | _ => some "validate"

/-- The general message. -/
def invalidText : Value :=
  .text "Invalid value"

/-- The message of an answer, nothing if it passes. -/
def messageOf (messages : Entries) : Value → Value
  | .null => .null
  | .bool true => .null
  | .text s => .text s
  | .bool false => (Entries.at? messages "invalid").getD invalidText
  | .issue type message =>
    if message.isSet then message
    else if type.isEmpty then invalidText
    else (Entries.at? messages type).getD (.text (typeInWords type))
  | _ => invalidText

end LiveForm.Validation
