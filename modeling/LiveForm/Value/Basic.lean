import LiveForm.Number.Basic
import LiveForm.Value.Table

/-!
# Values

What a field can hold and a formula can compute: nothing, flags, numbers, texts, lists and maps,
and a few things of the form itself. A field's value may come wrapped in the field's marks and
error, so that a formula can ask for either. What a host supplies as code is opaque here: a value
only carries the number under which the host knows it.
-/

namespace LiveForm

/-- A key of a map. -/
inductive Key where
  | null
  | bool (b : Bool)
  | number (n : Number)
  | text (s : String)
deriving DecidableEq

/-- The number that a key equals, if it equals one: flags are one and zero. -/
def Key.number? : Key → Option Number
  | bool b => some (.int (if b then 1 else 0))
  | number n => some n
  | _ => none

/-- Two keys are the same: one, one as a floating number and true are one key. -/
def Key.same (a b : Key) : Bool :=
  match a, b with
  | null, null => true
  | text s, text t => s == t
  | a, b =>
    match a.number?, b.number? with
    | some m, some n => m.eqv n
    | _, _ => false

instance : BEq Key := ⟨Key.same⟩

/-- What is known about a field beside its value. -/
structure Marks where
  touched : Bool := false
  dirty : Bool := false
  validating : Bool := false
  disabled : Bool := false
deriving Repr, DecidableEq

/-- A value. -/
inductive Value where
  | null
  | bool (b : Bool)
  | number (n : Number)
  | text (s : String)
  | list (items : List Value)
  | map (entries : List (Key × Value))
  /-- A field's value together with its marks and its error. -/
  | field (value : Value) (marks : Marks) (error : Value)
  /-- A typed failure of validation, with its message or nothing. -/
  | issue (type : String) (message : Value)
  /-- The marker for "not given". -/
  | unset
  /-- Code of the host that answers to the state of the form. -/
  | callback (ref : Nat)
  /-- Code of the host that checks a value. -/
  | check (ref : Nat)

/-- The entries of a map. -/
abbrev Entries := Table Key Value

/-- The standing of a field: its value, its marks and its error. -/
structure Standing where
  value : Value := .null
  marks : Marks := {}
  error : Value := .null

instance : Inhabited Value := ⟨.null⟩

instance : Inhabited Standing := ⟨{}⟩

/-- A whole number. -/
abbrev Value.int (n : Int) : Value :=
  .number (.int n)

/-- A floating number. -/
abbrev Value.float (x : Float) : Value :=
  .number (.float x)

/-- Nothing at all. -/
def Value.isNull : Value → Bool
  | null => true
  | _ => false

/-- Code of the host. -/
def Value.isCode : Value → Bool
  | callback _ => true
  | check _ => true
  | _ => false

/-- The value behind a field's wrapping, however often it is wrapped. -/
def Value.bare : Value → Value
  | field value _ _ => value.bare
  | v => v

/-- A field's standing as a value. -/
def Standing.toValue (s : Standing) : Value :=
  .field s.value s.marks s.error

/-- A field with an error is invalid. -/
def Standing.invalid (s : Standing) : Bool :=
  !s.error.isNull

namespace Entries

/-- The value under a text. -/
def at? (es : Entries) (name : String) : Option Value :=
  Table.get? (Key.text name) es

/-- The value under a text, or nothing. -/
def at0 (es : Entries) (name : String) : Value :=
  (at? es name).getD .null

/-- A map from names. -/
def ofNames (t : Table String Value) : Entries :=
  t.map fun e => (Key.text e.1, e.2)

end Entries

/-- A map from names. -/
def Value.ofNames (t : Table String Value) : Value :=
  .map (Entries.ofNames t)

/-- A list of texts. -/
def Value.texts (l : List String) : Value :=
  .list (l.map .text)

namespace Value

@[simp] theorem bare_field (value : Value) (marks : Marks) (error : Value) :
    (field value marks error).bare = value.bare := rfl

/-- What is bare stays as it is. -/
@[simp] theorem bare_bare : ∀ v : Value, v.bare.bare = v.bare
  | null | bool _ | number _ | text _ | list _ | map _ | issue _ _ | unset | callback _
  | check _ => rfl
  | field value _ _ => by simpa using bare_bare value

end Value

end LiveForm
