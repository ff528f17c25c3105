import LiveForm.Rule.Basic

/-!
# Definitions of forms

A definition names the fields of a form, the types of input that fields share, and groups of fields
with conditions in common. Groups nest: a group may have a parent, and no group is among its own
ancestors. A definition is read from a value and refused if it is malformed.
-/

namespace LiveForm

/-- What fields of one type of input have in common. -/
structure InputType where
  /-- The value of a field that is given none. -/
  default : Value := .null
  validator : Value := .null
  debounce : Value := .null
  props : Entries := []

/-- The group that a field or a group belongs to. -/
inductive GroupRef where
  | none
  | named (k : Key)
  /-- A value that names no group. -/
  | odd (v : Value)

/-- A field. -/
structure Field where
  name : FieldName
  type : Value := .text "textField"
  label : Value := .null
  /-- Whether the field is disabled, whatever its conditions say. -/
  disabled : Value := .null
  /-- Whether the field is hidden, whatever its conditions say. -/
  hidden : Value := .null
  /-- The name under which the record holds the field's value. -/
  recordKey : Value := .null
  validator : Value := .null
  props : Entries := []
  /-- Properties that are computed. -/
  selectProps : Value := .null
  conditions : List Rule := []
  subscribesTo : List String := []
  group : GroupRef := .none

/-- A group of fields. -/
structure Group where
  name : Key
  conditions : List Rule := []
  subscribesTo : List String := []
  parent : GroupRef := .none

/-- A form. -/
structure Definition where
  name : Value := .text "form"
  inputs : Table Key InputType := []
  fields : Table FieldName Field := []
  groups : Table Key Group := []
  title : Value := .null
  /-- A title that is computed. -/
  selectTitle : Value := .null
  autoSave : Bool := false
  /-- How long the form waits before it saves itself, in milliseconds. -/
  debounce : Value := .null
  errorMessages : Entries := []

/-! ### Reading definitions -/

namespace Definition

/-- The entries of a value whose members are asked for by name. -/
def members (v : Value) : Except Fault Entries :=
  if !v.isSet then .ok []
  else
    match v with
    | .map es => .ok es
    | v => .error (.shape (.noMember v.kindName "get"))

/-- The value under a key, or another if the key is missing. -/
def atOr (es : Entries) (key : String) (other : Value) : Value :=
  (Entries.at? es key).getD other

/-- Reads names: none, one, or a list. -/
def readNames (part : String) : Value → Except Fault (List String)
  | .null => .ok []
  | .text s => .ok [s]
  | .list items => Rule.plainNames items
  | _ => .error (.form (.namesNotList part))

/-- Reads the conditions of a part of the form. What is wrong with a condition is told together with
the part. -/
def readConditions (part : String) : Value → Except Fault (List Rule)
  | .null => .ok []
  | .list items =>
    match Rule.ofValues items with
    | .ok rules => .ok rules
    | .error (.form e) => .error (.form (.badCondition part e.message))
    | .error (.number e) => .error (.form (.badCondition part e.message))
    | .error f => .error f
  | _ => .error (.form (.conditionsNotList part))

/-- A key as the name of a group. Nothing names none. -/
def groupNamed : Key → GroupRef
  | .null => .none
  | k => .named k

/-- Reads the group that something belongs to. -/
def readGroupRef (v : Value) : GroupRef :=
  match v.toKey? with
  | some k => groupNamed k
  | none => .odd v

/-- Reads properties. -/
def readProps (es : Entries) : Except Fault Entries :=
  Fault.ofShape (Entries.at0 es "props").toEntriesOrNone

/-- Reads a type of input. -/
def readInput (v : Value) : Except Fault InputType := do
  let es ← members v
  return {
    default := Entries.at0 es "defaultValue"
    validator := Entries.at0 es "validator"
    debounce :=
      match Entries.at0 es "debounce" with
      | .bool false => .int 0
      | v => v
    props := ← readProps es }

/-- Reads a field. -/
def readField (name : FieldName) (v : Value) : Except Fault Field := do
  let es ← members v
  let part := "Field '" ++ (← Fault.ofNumber name.key.plain) ++ "'"
  let props ← readProps es
  let conditions ← readConditions part (Entries.at0 es "conditions")
  let subscribesTo ← readNames (part ++ " subscribesTo") (Entries.at0 es "subscribesTo")
  return {
    name
    type := atOr es "type" (.text "textField")
    label := atOr es "label" (Entries.at0 es "title")
    disabled := Entries.at0 es "disabled"
    hidden := Entries.at0 es "hidden"
    recordKey := Entries.at0 es "recordKey"
    validator := Entries.at0 es "validator"
    props
    selectProps := Entries.at0 es "selectProps"
    conditions
    subscribesTo
    group := readGroupRef (Entries.at0 es "group") }

/-- Reads a group. -/
def readGroup (name : Key) (v : Value) : Except Fault Group := do
  let es ← members v
  let part := "Group '" ++ (← Fault.ofNumber name.plain) ++ "'"
  let conditions ← readConditions part (Entries.at0 es "conditions")
  let subscribesTo ← readNames (part ++ " subscribesTo") (Entries.at0 es "subscribesTo")
  return { name, conditions, subscribesTo, parent := readGroupRef (Entries.at0 es "parent") }

/-- Reads the values of a map one after the other, each with its key. -/
def readAll (name : Key → κ) (read : κ → Value → Except Fault α) :
    List (Key × Value) → Except Fault (Table κ α)
  | [] => .ok []
  | (k, v) :: rest => do
    let first ← read (name k) v
    return (name k, first) :: (← readAll name read rest)

/-- The entries of a part of a definition. -/
def sectionsAt (es : Entries) (key : String) : Except Fault Entries :=
  Fault.ofShape (Entries.at0 es key).toSections

/-- Reads a definition without looking at how its parts refer to each other. -/
def read : Value → Except Fault Definition
  | .map es => do
    let fieldValues := Entries.at0 es "fields"
    let fieldEntries ←
      if !fieldValues.isSet then pure []
      else
        match fieldValues with
        | .map fs => pure fs
        | _ => throw (.form .fieldsNotMapping)
    let inputs ← readAll id (fun _ => readInput) (← sectionsAt es "inputs")
    let fields ← readAll FieldName.mk readField fieldEntries
    let groups ← readAll id readGroup (← sectionsAt es "groups")
    return {
      name := atOr es "form" (atOr es "name" (.text "form"))
      inputs
      fields
      groups
      title := Entries.at0 es "title"
      selectTitle := Entries.at0 es "selectTitle"
      autoSave := (Entries.at0 es "autoSave").isSet
      debounce := Entries.at0 es "debounce"
      errorMessages := ← Fault.ofShape (Entries.at0 es "errorMessages").toEntriesOrNone }
  | _ => .error (.form .notMapping)

/-! ### Groups -/

/-- The fault of asking for a group that is not defined. -/
def noGroup (v : Value) : Fault :=
  match v.asKey, v.written with
  | .error e, _ => .shape e
  | _, .error e => .number e
  | .ok _, .ok shown => .noGroup shown

/-- A group and its ancestors, outermost first, in front of those that have been found. Groups that
have been met before make a cycle. -/
def chainFrom (groups : Table Key Group) (start : Key) (unseen : Names Key) (current : GroupRef)
    (found : List Group) : Except Fault (List Group) :=
  match current with
  | .none => .ok found
  | .odd v => .error (noGroup v)
  | .named name =>
    match Table.get? name groups with
    | none => .error (noGroup (.ofKey name))
    | some g =>
      if h : unseen.any (· == name) then
        have : (Names.remove name unseen).length < unseen.length :=
          List.length_filter_lt_length_iff_exists.2 (by simpa [bne] using h)
        chainFrom groups start (Names.remove name unseen) g.parent (g :: found)
      else .error (.form (.cyclicParents start.shown))
termination_by unseen.length

/-- A group and its ancestors, outermost first. -/
def chain (d : Definition) : GroupRef → Except Fault (List Group)
  | .none => .ok []
  | .odd v => .error (noGroup v)
  | .named name => chainFrom d.groups name (Table.keys d.groups) (.named name) []

/-- Refuses a group that is not defined. -/
def checkRef (d : Definition) (refuse : String → FormError) : GroupRef → Except Fault Unit
  | .none => .ok ()
  | .named name =>
    if Table.has name d.groups then .ok ()
    else do throw (.form (refuse (← Fault.ofNumber name.plain)))
  | .odd v => do
    let _ ← Fault.ofShape v.asKey
    throw (.form (refuse (← Fault.ofNumber v.plain)))

/-- Checks that groups and parents are defined, and that no group is its own ancestor. -/
def check (d : Definition) : Except Fault Unit := do
  d.fields.forM fun (_, f) => d.checkRef (.unknownGroup f.name.shown) f.group
  d.groups.forM fun (_, g) => d.checkRef (.unknownParent g.name.shown) g.parent
  d.groups.forM fun (name, _) => do
    let _ ← d.chain (groupNamed name)

/-- Reads a definition and checks it. -/
def ofValue (v : Value) : Except Fault Definition := do
  let d ← read v
  d.check
  return d

/-! ### Values at the start -/

/-- The type of input of a field. A field that is not defined has the type that fields have by
default. -/
def inputFor (d : Definition) (name : FieldName) : Except ShapeError InputType := do
  let type := ((Table.get? name d.fields).map Field.type).getD (.text "textField")
  return ((← type.asKey).bind fun k => Table.get? k d.inputs).getD {}

/-- The key under which the record holds the value of a field. -/
def Field.keyInRecord (f : Field) : Value :=
  if f.recordKey.isSet then f.recordKey else f.name.toValue

/-- The value of a field at the start: the default that is given for it, what the record holds, or
what its type of input has. -/
def initialValue (d : Definition) (record defaults : Value) (f : Field) :
    Except ShapeError Value := do
  match ← defaults.find? f.name.toValue with
  | some v => return v
  | none =>
    match ← record.find? (Field.keyInRecord f) with
    | some v => return v
    | none => return (← d.inputFor f.name).default

/-- The values at the start of all fields, followed by the defaults for what is no field. The record
and the defaults may be left out. -/
def initialValues (d : Definition) (record defaults : Value) : Except ShapeError Entries := do
  let given (v : Value) : Value := if v.isSet then v else .map []
  let own ← d.fields.mapM fun (name, f) => do
    return (name.key, ← d.initialValue (given record) (given defaults) f)
  let others ← defaults.toSections
  return Table.putAll own (others.filter fun e => !Table.has e.1 own)

end Definition

end LiveForm
