import LiveForm.Form.Definition
import LiveForm.Host
import LiveForm.Validation.Message

/-!
# The store of a form

The store holds the values of a form and what is known about its fields: which of them are touched,
dirty or disabled, which are being validated, and what is wrong with them. A value is dirty when it
differs from its default. Validations are numbered as they begin; a validation that ends after a
later one of the same field has begun leaves the field's error alone.
-/

namespace LiveForm

/-- What is wrong with a field. -/
structure Issue where
  type : String
  message : Value

/-- What is wrong with a field, as a value. -/
def Issue.toValue (i : Issue) : Value :=
  .issue i.type i.message

/-- What an answer of a validator says is wrong, if it fails. -/
def Issue.ofAnswer? (messages : Entries) (answer : Value) : Option Issue :=
  (Validation.failureType? answer).map fun type =>
    ⟨type, Validation.messageOf messages answer⟩

/-- A validation that has begun: its field, the value it looks at, and its number. -/
structure Ticket where
  name : FieldName
  value : Value
  number : Nat

/-- The store. -/
structure Store where
  values : Entries := []
  defaults : Entries := []
  record : Entries := []
  errors : Table FieldName Issue := []
  touched : FieldNames := []
  dirty : FieldNames := []
  disabled : FieldNames := []
  /-- The messages for types of failure. -/
  messages : Entries := []
  /-- The values that have been submitted, oldest first. -/
  submitted : List Entries := []
  /-- How many validations of each field have begun and not ended. -/
  running : Table FieldName Nat := []
  /-- The number of the last validation of each field. -/
  latest : Table FieldName Nat := []
  /-- How many validations have begun. -/
  begun : Nat := 0
  /-- Validations that began with a change and wait for their turn. -/
  waiting : List Ticket := []

namespace Store

/-- The store of a new form. -/
def ofDefinition (d : Definition) (record defaults : Value) : Except ShapeError Store := do
  let kept ← record.toEntriesOrNone
  let initial ← d.initialValues record defaults
  return {
    values := initial, defaults := initial, record := kept
    messages := Validation.messagesWith d.errorMessages }

/-- The value of a field. -/
def value (s : Store) (name : FieldName) : Value :=
  (Table.get? name.key s.values).getD .null

/-- The default of a field. -/
def default (s : Store) (name : FieldName) : Value :=
  (Table.get? name.key s.defaults).getD .null

/-- What is wrong with a field. -/
def error? (s : Store) (name : FieldName) : Option Issue :=
  Table.get? name s.errors

/-- A validation of the field is under way. -/
def isValidating (s : Store) (name : FieldName) : Bool :=
  (Table.get? name s.running).any (0 < ·)

/-- Writes a value. The field counts as touched if a user did it, and as dirty if the value differs
from the default. -/
def write (s : Store) (name : FieldName) (v : Value) (touch : Bool) : Store :=
  { s with
    values := Table.put name.key v s.values
    touched := if touch then Names.add name s.touched else s.touched
    dirty :=
      if v.strictEq (s.default name) then Names.remove name s.dirty
      else Names.add name s.dirty }

/-- Begins a validation of a field. -/
def begin (s : Store) (name : FieldName) (v : Value) : Ticket × Store :=
  let number := s.begun + 1
  (⟨name, v, number⟩,
    { s with
      begun := number
      latest := Table.put name number s.latest
      running := Table.put name ((Table.get? name s.running).getD 0 + 1) s.running })

/-- Begins a validation of a field that waits for its turn. -/
def beginLater (s : Store) (name : FieldName) (v : Value) : Store :=
  let (ticket, s) := s.begin name v
  { s with waiting := s.waiting ++ [ticket] }

/-- Ends a validation with what it found. Only the last validation of a field that has begun decides
about the field's error, and one that failed to answer decides nothing. -/
def finish (s : Store) (t : Ticket) (found : Except Fault (Option Issue)) : Store :=
  let s := { s with
    running := Table.put t.name ((Table.get? t.name s.running).getD 0 - 1) s.running }
  match found with
  | .error _ => s
  | .ok issue =>
    if Table.get? t.name s.latest != some t.number then s
    else
      match issue with
      | none => { s with errors := Table.drop t.name s.errors }
      | some i => { s with errors := Table.put t.name i s.errors }

/-- Takes values down as submitted. -/
def submit (s : Store) (values : Entries) : Store :=
  { s with submitted := s.submitted ++ [values] }

/-- The fields of which a validation is under way. -/
def validating (s : Store) : FieldNames :=
  (s.running.filter fun e => 0 < e.2).map Prod.fst

/-- The state of the form as formulas and callbacks see it. -/
def snapshot (s : Store) : Snapshot where
  values := s.values
  defaults := s.defaults
  record := s.record
  errors := s.errors.map fun e => (e.1.key, e.2.toValue)
  touched := s.touched
  dirty := s.dirty
  validating := s.validating
  disabled := s.disabled

end Store

end LiveForm
