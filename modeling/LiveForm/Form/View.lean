import LiveForm.Form.Condition

/-!
# Views

What is needed to draw a field or the head of a form: values, errors, whether the field is shown and
can be used, its properties and its label.
-/

namespace LiveForm

/-- A field as it is drawn. -/
structure FieldView where
  name : FieldName
  value : Value
  error : Value
  disabled : Bool
  visible : Bool
  props : Entries
  label : Value

namespace FieldView

mutual

/-- A value with all wrapped fields and failures in it laid out as maps. -/
def laidOut : Value → Value
  | .list items => .list (laidOutItems items)
  | .map entries => .map (laidOutEntries entries)
  | .field value marks error =>
    .ofNames [("value", laidOut value), ("is_touched", .bool marks.touched),
      ("is_dirty", .bool marks.dirty), ("is_validating", .bool marks.validating),
      ("error", laidOut error), ("disabled", .bool marks.disabled)]
  | .issue type message => .ofNames [("type", .text type), ("message", laidOut message)]
  | v => v

/-- The elements of a list, laid out. -/
def laidOutItems : List Value → List Value
  | [] => []
  | v :: rest => laidOut v :: laidOutItems rest

/-- The entries of a map, laid out. -/
def laidOutEntries : List (Key × Value) → List (Key × Value)
  | [] => []
  | (k, v) :: rest => (k, laidOut v) :: laidOutEntries rest

end

/-- The view as a map. -/
def outline (v : FieldView) : Value :=
  .ofNames [("name", v.name.toValue), ("value", laidOut v.value), ("error", laidOut v.error),
    ("disabled", .bool v.disabled), ("visible", .bool v.visible),
    ("props", .map (laidOutEntries v.props)), ("label", laidOut v.label)]

end FieldView

namespace Form

mutual

/-- Calls every callback that is left in a computed value. -/
def invokeAll (host : Host) (s : Snapshot) : Value → Logged Value
  | .list items => do return .list (← invokeItems host s items)
  | .map entries => do return .map (← invokeEntries host s entries)
  | v => invoke host s v

/-- Calls the callbacks in a list. -/
def invokeItems (host : Host) (s : Snapshot) : List Value → Logged (List Value)
  | [] => return []
  | v :: rest => do
    let first ← invokeAll host s v
    return first :: (← invokeItems host s rest)

/-- Calls the callbacks in the entries of a map. -/
def invokeEntries (host : Host) (s : Snapshot) : List (Key × Value) → Logged (List (Key × Value))
  | [] => return []
  | (k, v) :: rest => do
    let first ← invokeAll host s v
    return (k, first) :: (← invokeEntries host s rest)

end

/-- The properties of a field: those of its type of input, its own, and those that are computed. -/
def propsOf (host : Host) (f : Form) (name : FieldName) : Logged Entries := do
  let field ← Logged.ofExcept (f.field name)
  let input ← Logged.ofExcept (Fault.ofShape (f.definition.inputFor name))
  let props := Table.putAll input.props field.props
  if field.selectProps.isNull then return props
  else
    let described ←
      Formula.evaluateDescriptor (Context.ofField f.snapshot name props) field.selectProps
    match ← invokeAll host f.snapshot described with
    | .map computed => return Table.putAll props computed
    | v =>
      Logged.warn ("selectProps of '" ++ name.shown ++ "' did not produce a mapping: " ++
        v.written.toOption.getD "")
      return props

/-- The first of two values that says something. -/
def orElse (v other : Value) : Value :=
  if v.isSet then v else other

/-- A field as it is drawn. -/
def fieldView (host : Host) (f : Form) (name : FieldName) : Logged FieldView := do
  let field ← Logged.ofExcept (f.field name)
  let props ← propsOf host f name
  let disabled ← isDisabled host f name
  let visible ← isVisible host f name
  return {
    name
    value := f.store.value name
    error := ((f.store.error? name).map Issue.message).getD .null
    disabled
    visible
    props
    label := orElse (Entries.at0 props "label") (orElse field.label name.toValue) }

/-- The title of the form: computed if it can be, else the one it is given. -/
def title (host : Host) (f : Form) : Logged Value := do
  let d := f.definition
  if d.selectTitle.isNull then return d.title
  else
    let described ←
      Formula.evaluateDescriptor (Context.ofSnapshot f.snapshot []) d.selectTitle
    match ← invokeAll host f.snapshot described with
    | .null => return d.title
    | v => return .text (← Logged.ofExcept (Fault.ofNumber v.plain))

end Form

end LiveForm
