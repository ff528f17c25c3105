import LiveForm.Value.FieldName

/-!
# What a formula can see

A formula is evaluated against a context: a map that holds each field under its own name, wrapped in
its marks and error, and seven names of its own: all fields, the record, the errors, the defaults,
the touched and the dirty fields, and the extra properties. Where a field has one of the seven
names, the name of the context wins.
-/

namespace LiveForm

/-- A context. -/
abbrev Context := Entries

/-- The state of a whole form at one instant. -/
structure Snapshot where
  values : Entries := []
  defaults : Entries := []
  record : Entries := []
  errors : Entries := []
  touched : FieldNames := []
  dirty : FieldNames := []
  validating : FieldNames := []
  disabled : FieldNames := []

/-- The seven names that a context has of its own. -/
def qualifiedNames : List String :=
  ["fields", "record", "errors", "defaultValues", "touchedFields", "dirtyFields", "props"]

/-- The standing of a field. -/
def Snapshot.standing (s : Snapshot) (k : Key) : Standing where
  value := (Table.get? k s.values).getD .null
  marks :=
    { touched := s.touched.contains ⟨k⟩, dirty := s.dirty.contains ⟨k⟩,
      validating := s.validating.contains ⟨k⟩, disabled := s.disabled.contains ⟨k⟩ }
  error := (Table.get? k s.errors).getD .null

/-- The standings of all fields that have a value or an error or are disabled. -/
def Snapshot.standings (s : Snapshot) : Table Key Standing :=
  Table.ofList ((Table.keys s.values ++ Table.keys s.errors ++ s.disabled.map FieldName.key).map
    fun k => (k, s.standing k))

namespace Context

/-- The standing of a field as a context shows it: the value from the values, all else from the
standings. -/
def standing (values : Entries) (standings : Table Key Standing) (k : Key) : Standing :=
  let known := (Table.get? k standings).getD {}
  { known with value := (Table.get? k values).getD known.value }

/-- The fields that a context shows. -/
def fields (values : Entries) (standings : Table Key Standing) : Table Key Standing :=
  Table.ofList ((Table.keys values ++ Table.keys standings).map
    fun k => (k, standing values standings k))

/-- The context of a form. -/
def build (values record props : Entries) (standings : Table Key Standing)
    (defaults : Entries) : Context :=
  let shown := fields values standings
  let wrapped : Entries := shown.map fun e => (e.1, e.2.toValue)
  let marked (p : Standing → Bool) : Value :=
    .map ((shown.filter fun e => p e.2).map fun e => (e.1, .bool true))
  Table.putAll wrapped
    [(.text "fields", .map wrapped),
      (.text "record", .map record),
      (.text "props", .map props),
      (.text "errors",
        .map ((shown.filter fun e => e.2.invalid).map fun e => (e.1, e.2.error))),
      (.text "touchedFields", marked fun s => s.marks.touched),
      (.text "dirtyFields", marked fun s => s.marks.dirty),
      (.text "defaultValues", .map defaults)]

/-- The values of fields, which come as a map. Any value whose elements can be names will do as long
as there is no field to look up in it. -/
def fieldValues (values : Value) (standings : Table Key Standing) : Except ShapeError Entries :=
  match values with
  | .map es => .ok es
  | v =>
    match v.elements? with
    | none => .error (.noNames v.kindName)
    | some names => do
      let _ ← names.mapM Value.asKey
      if names.isEmpty && standings.isEmpty then return []
      else throw (.noMember v.kindName "get")

/-- The context of a form whose values, record, properties and defaults come as values. All but the
values may be left out. -/
def ofValues (values record props : Value) (standings : Table Key Standing)
    (defaults : Value) : Except ShapeError Context := do
  let values ← fieldValues values standings
  let shownRecord ← record.toEntriesOrNone
  let shownProps ← props.toEntriesOrNone
  return build values shownRecord shownProps standings (← defaults.toEntriesOrNone)

/-- The context of a snapshot. -/
def ofSnapshot (s : Snapshot) (props : Entries) : Context :=
  build s.values s.record props s.standings s.defaults

/-- The context of one field of a snapshot: its properties hold the field's name. -/
def ofField (s : Snapshot) (name : FieldName) (props : Entries) : Context :=
  ofSnapshot s (Table.put (.text "name") name.toValue props)

end Context

end LiveForm
