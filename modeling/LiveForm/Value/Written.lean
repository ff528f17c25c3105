import LiveForm.Value.Basic

/-!
# Values in messages

Messages name values in two ways. The written form shows a text between quotes and spells a
collection out; the plain form of a text is the text itself. Both fail on whole numbers that are
too long to be written.
-/

namespace LiveForm

/-- The spelling of a flag in messages. -/
def flagText (b : Bool) : String :=
  if b then "True" else "False"

/-- The kind of a value, as messages name it. -/
def Value.kindName : Value → String
  | null => "NoneType"
  | bool _ => "bool"
  | number (.int _) => "int"
  | number (.float _) => "float"
  | text _ => "str"
  | list _ => "list"
  | map _ => "dict"
  | field _ _ _ => "FieldState"
  | issue _ _ => "FieldError"
  | unset => "_Unset"
  | callback _ => "function"
  | check _ => "function"

/-- The kind of a key. -/
def Key.kindName : Key → String
  | null => "NoneType"
  | bool _ => "bool"
  | number (.int _) => "int"
  | number (.float _) => "float"
  | text _ => "str"

/-- The written form of a key. -/
def Key.written : Key → Except NumberError String
  | null => .ok "None"
  | bool b => .ok (flagText b)
  | number n => n.write
  | text s => .ok (Text.quoted s)

/-- The plain form of a key. -/
def Key.plain : Key → Except NumberError String
  | text s => .ok s
  | k => k.written

/-- The plain form of a key. A number that is too long to be written leaves it empty. -/
def Key.shown (k : Key) : String :=
  k.plain.toOption.getD ""

/-- A list of written parts between brackets. -/
def bracketed (opening closing : String) (parts : List String) : String :=
  opening ++ ", ".intercalate parts ++ closing

mutual

/-- The written form of a value. -/
def Value.written : Value → Except NumberError String
  | .null => .ok "None"
  | .bool b => .ok (flagText b)
  | .number n => n.write
  | .text s => .ok (Text.quoted s)
  | .list items => do return bracketed "[" "]" (← writtenItems items)
  | .map entries => do return bracketed "\x7b" "\x7d" (← writtenEntries entries)
  | .field value marks error => do
    let v ← value.written
    let e ← error.written
    return bracketed "FieldState(" ")"
      ["value=" ++ v, "is_touched=" ++ flagText marks.touched,
        "is_dirty=" ++ flagText marks.dirty, "is_validating=" ++ flagText marks.validating,
        "error=" ++ e, "disabled=" ++ flagText marks.disabled]
  | .issue type message => do
    return bracketed "FieldError(" ")"
      ["type=" ++ Text.quoted type, "message=" ++ (← message.written)]
  | .unset => .ok "UNSET"
  | .callback _ => .ok "<function>"
  | .check _ => .ok "<function>"

/-- The written forms of a list of values. -/
def writtenItems : List Value → Except NumberError (List String)
  | [] => .ok []
  | v :: rest => do return (← v.written) :: (← writtenItems rest)

/-- The written forms of the entries of a map. -/
def writtenEntries : List (Key × Value) → Except NumberError (List String)
  | [] => .ok []
  | (k, v) :: rest => do
    let key ← k.written
    let value ← v.written
    return (key ++ ": " ++ value) :: (← writtenEntries rest)

end

/-- The plain form of a value: a text is itself, all else is written. -/
def Value.plain : Value → Except NumberError String
  | text s => .ok s
  | v => v.written

end LiveForm
