import LiveForm.Value.Names
import LiveForm.Value.Shape

/-!
# Names of fields

A field has the key as its name under which it is defined. Most names are texts, but any key will
do; it keeps its spelling, so that one and true are two names.
-/

namespace LiveForm

/-- The name of a field. -/
structure FieldName where
  key : Key
deriving DecidableEq

/-- A set of names of fields. -/
abbrev FieldNames := Names FieldName

namespace FieldName

/-- The name that is a text. -/
def text (s : String) : FieldName :=
  ⟨.text s⟩

/-- The name as a value. -/
def toValue (n : FieldName) : Value :=
  .ofKey n.key

/-- The name as it stands in a message. -/
def shown (n : FieldName) : String :=
  n.key.shown

/-- The name as it stands in a list in a message. -/
def quoted (n : FieldName) : String :=
  n.key.written.toOption.getD ""

/-- Where a name stands among names of other kinds: texts come last. -/
def rank (n : FieldName) : Nat :=
  match n.key with
  | .null => 0
  | .bool _ => 1
  | .number _ => 1
  | .text _ => 2

/-- The first name does not come after the second. -/
def le (m n : FieldName) : Bool :=
  match m.key, n.key with
  | .text s, .text t => decide (s ≤ t)
  | k, l =>
    match k.number?, l.number? with
    | some a, some b => a.compare? b != some .gt
    | _, _ => m.rank ≤ n.rank

/-- Names in ascending order. -/
def sorted (s : FieldNames) : List FieldName :=
  s.mergeSort le

@[simp] theorem mem_sorted {n : FieldName} {s : FieldNames} : n ∈ sorted s ↔ n ∈ s := by
  simp [sorted]

end FieldName

end LiveForm
