import LiveForm.AutoSave.Basic
import LiveForm.Form.Store
import LiveForm.Graph
import LiveForm.Rule.Effect
import LiveForm.Settings
import LiveForm.Validation.Registry

/-!
# Forms

A form joins a definition with a store, the graph of who depends on whom, and the state of its
saving. A mounted field stands in the graph and subscribes to every field that it reads: in its
computed properties, in its conditions and in those of its groups.
-/

namespace LiveForm

/-- A form. -/
structure Form where
  definition : Definition
  registry : Registry
  settings : Settings
  store : Store
  /-- How long the form waits before it saves itself, in milliseconds. -/
  debounce : Number
  graph : Graph := {}
  autoSave : AutoSave := {}
  /-- The present, if time passes: without a loop that lets it pass nothing can be scheduled. -/
  clock : Option Instant

/-- An operation on a form. What it has changed and logged before it fails stays. -/
abbrev FormOp := ExceptT Fault (StateT Form (StateM Log))

namespace FormOp

/-- An operation that only looks at the form. -/
def look (op : Form → Logged α) : FormOp α :=
  fun form log =>
    let (r, log) := op form log
    ((r, form), log)

/-- Changes the form. -/
def change (f : Form → Form) : FormOp Unit :=
  fun form log => ((.ok (), f form), log)

/-- Runs an operation on a form and a log. -/
def runOn (op : FormOp α) (form : Form) (log : Log) : Except Fault α × Form × Log :=
  let ((r, form), log) := op form log
  (r, form, log)

end FormOp

namespace Form

/-- The fault of asking for a field that the form does not have. -/
def noField (f : Form) (name : FieldName) : Fault :=
  match f.definition.name.plain, name.key.plain with
  | .ok form, .ok shown => .form (.noField form shown)
  | .error e, _ => .number e
  | _, .error e => .number e

/-- A field of the form. -/
def field (f : Form) (name : FieldName) : Except Fault Field :=
  match Table.get? name f.definition.fields with
  | some field => .ok field
  | none => .error (f.noField name)

/-- A field of the form has this name. -/
def hasField (f : Form) (name : FieldName) : Bool :=
  Table.has name f.definition.fields

/-- The names of the fields, in order. -/
def fieldNames (f : Form) : List FieldName :=
  Table.keys f.definition.fields

/-- The state of the form as formulas and callbacks see it. -/
def snapshot (f : Form) : Snapshot :=
  f.store.snapshot

/-! ### Subscriptions -/

/-- Every name that a field reads, with repetitions. -/
def readsOf (f : Form) (field : Field) : Except Fault (List String) := do
  let chain ← f.definition.chain field.group
  return field.subscribesTo ++ Formula.descriptorReads field.selectProps ++
    Rule.allDependencies field.conditions ++
    chain.flatMap fun g => Rule.allDependencies g.conditions ++ g.subscribesTo

/-- The fields that a field depends on. -/
def subscriptionsFor (f : Form) (name : FieldName) : Except Fault FieldNames := do
  let reads ← f.readsOf (← f.field name)
  return Names.remove name (Names.ofList (reads.map FieldName.text))

/-- Registers a field and subscribes it to what it reads. -/
def mount (name : FieldName) : FormOp Unit := do
  let _ ← FormOp.look fun f => Logged.ofExcept (f.field name)
  FormOp.change fun f => { f with graph := f.graph.register name }
  let targets ← FormOp.look fun f => Logged.ofExcept (f.subscriptionsFor name)
  FormOp.change fun f => { f with graph := f.graph.setSubscriptions name targets }

/-- Takes a field out of the graph. -/
def unmount (name : FieldName) : FormOp Unit :=
  FormOp.change fun f => { f with graph := f.graph.unregister name }

/-- The defined fields that are not mounted. -/
def unusedFields (f : Form) : List FieldName :=
  f.graph.unused f.fieldNames

end Form

end LiveForm
