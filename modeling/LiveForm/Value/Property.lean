import LiveForm.Value.Basic
import LiveForm.Number.Numeral
import LiveForm.Text.Digit

/-!
# Properties of values

A formula reads properties with a point or in brackets. A wrapped field answers to the names of its
marks first and otherwise for its value; maps answer to their keys, lists and texts to their length
and to positions, numbers and failures to a few names. What is missing is nothing.
-/

namespace LiveForm

namespace Value

mutual

/-- A value without any wrapping, at any depth of lists and maps. -/
def stripped : Value → Value
  | .field value _ _ => value.stripped
  | .list items => .list (strippedItems items)
  | .map entries => .map (strippedEntries entries)
  | v => v

/-- Values without any wrapping. -/
def strippedItems : List Value → List Value
  | [] => []
  | v :: rest => v.stripped :: strippedItems rest

/-- Entries without any wrapping. -/
def strippedEntries : List (Key × Value) → List (Key × Value)
  | [] => []
  | (k, v) :: rest => (k, v.stripped) :: strippedEntries rest

end

/-- A value as a key, if it can be one. -/
def toKey? : Value → Option Key
  | null => some .null
  | bool b => some (.bool b)
  | number n => some (.number n)
  | text s => some (.text s)
  | _ => none

/-- The position that a value names. A text of digits names one too; if it holds anything that only
looks like a digit, it cannot be read. -/
def index? : Value → Except NumberError (Option Int)
  | number (.int n) => .ok (some n)
  | number (.float x) => .ok (Binary.toInt? x)
  | text s =>
    if !s.isEmpty && s.toList.all Text.looksLikeDigit then (Numeral.read s).map some
    else .ok none
  | _ => .ok none

/-- The element at a position, if there is one. -/
def elementAt (items : List α) (key : Value) : Except NumberError (Option α) := do
  match ← key.index? with
  | none => return none
  | some i => return if i < 0 then none else items[i.toNat]?

/-- The marks and the error of a wrapped field, by name; its value too. -/
def mark? (value : Value) (marks : Marks) (error : Value) : String → Option Value
  | "value" => some value
  | "isTouched" => some (bool marks.touched)
  | "isDirty" => some (bool marks.dirty)
  | "isValidating" => some (bool marks.validating)
  | "error" => some error
  | "invalid" => some (bool !error.isNull)
  | "disabled" => some (bool marks.disabled)
  | _ => none

/-- The properties of a whole number. -/
def partOfWhole (n : Int) : String → Value
  | "real" => int n
  | "imag" => int 0
  | "numerator" => int n
  | "denominator" => int 1
  | _ => null

/-- The properties of what is neither a collection nor a field. -/
def part : Value → String → Value
  | bool b, name => partOfWhole (if b then 1 else 0) name
  | number (.int n), name => partOfWhole n name
  | number (.float x), "real" => float x
  | number (.float _), "imag" => float 0.0
  | issue type _, "type" => text type
  | issue _ message, "message" => message
  | _, _ => null

/-- The name that a value is, if it is a text. -/
def name? : Value → Option String
  | text s => some s
  | _ => none

/-- The property of a value under a key. -/
def property : Value → Value → Except NumberError Value
  | field value marks error, key =>
    match key.name?.bind (mark? value marks error) with
    | some v => .ok v
    | none => property value key
  | null, _ => .ok null
  | map entries, key =>
    match key.toKey? with
    | some k => .ok ((Table.get? k entries).getD null)
    | none => .ok null
  | list items, key =>
    if key.name? == some "length" then .ok (int items.length)
    else do return (← elementAt items key).getD null
  | text s, key =>
    if key.name? == some "length" then .ok (int s.length)
    else do
      match ← elementAt s.toList key with
      | some c => return text (String.singleton c)
      | none => return null
  | v, key =>
    match key.name? with
    | some name => .ok (part v name)
    | none => .ok null

end Value

end LiveForm
