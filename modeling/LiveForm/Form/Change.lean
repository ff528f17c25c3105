import LiveForm.Form.Condition

/-!
# Changes

A change of a field begins a validation of the field, schedules a save if the form saves itself, and
is passed on: conditions of fields that depend on it may give them values in turn. The walk goes
through those fields breadth first and visits each at most once.
-/

namespace LiveForm.Form

/-- A duration in milliseconds, in microseconds. -/
def microseconds : Number → Nat
  | .int n => (n * 1000).toNat
  | .float x => ((x * 1000).round.toUInt64).toNat

/-- Writes a value and begins a validation of it. Without a loop nothing is validated. -/
def setValue (name : FieldName) (v : Value) (touch validate : Bool) : FormOp Unit :=
  FormOp.change fun f =>
    let store := f.store.write name v touch
    { f with store := if validate && f.clock.isSome then store.beginLater name v else store }

/-- Notes a change for the next save, and puts the save off. -/
def markChanged (name : FieldName) : FormOp Unit := do
  FormOp.change fun f => { f with autoSave := f.autoSave.note name (f.graph.affectedBy name) }
  match (← get).clock with
  | none => throw .noLoop
  | some now =>
    FormOp.change fun f => { f with autoSave := f.autoSave.arm (now + microseconds f.debounce) }

/-- Writes a value and notes the change for the next save. -/
def saveChange (name : FieldName) (v : Value) : FormOp Unit := do
  setValue name v true true
  markChanged name

/-- Gives a field the value of its conditions, unless it has it. Whether the value changed. -/
def applySet (host : Host) (name : FieldName) (validate : Bool) : FormOp Bool := do
  match ← FormOp.look fun f => effectiveSet host f name with
  | none => return false
  | some .null => return false
  | some v =>
    if ((← get).store.value name).strictEq v then return false
    else
      setValue name v false validate
      return true

/-- Gives a name the value of its conditions, if it is a field. Whether the value changed. -/
def applySetOf (host : Host) (name : FieldName) : FormOp Bool := do
  if (← get).hasField name then applySet host name true else return false

/-- Goes through a queue of fields and gives each the value of its conditions; those that change
have their subscribers queued. Each field that has not been seen is visited once. -/
def applySets (host : Host) (unseen : FieldNames) (queue : List FieldName) : FormOp Unit :=
  match queue with
  | [] => return ()
  | name :: rest =>
    if h : name ∈ unseen then
      have := Names.length_remove_lt h
      do
        let applied ← applySetOf host name
        let graph := (← get).graph
        let subscribers := if applied then FieldName.sorted (graph.subscribersOf name) else []
        applySets host (Names.remove name unseen) (rest ++ subscribers)
    else applySets host unseen rest
termination_by (unseen.length, queue.length)

/-- Gives the fields that depend on a changed field the values of their conditions. -/
def propagate (host : Host) (changed : FieldName) : FormOp Unit := do
  let graph := (← get).graph
  applySets host (Names.remove changed (Table.keys graph.subscriptions))
    (FieldName.sorted (graph.subscribersOf changed))

/-- A user changes a field. -/
def changeField (host : Host) (name : FieldName) (v : Value) : FormOp Unit := do
  let _ ← FormOp.look fun f => Logged.ofExcept (f.field name)
  if (← get).definition.autoSave then saveChange name v else setValue name v true true
  propagate host name
  refreshDisabled host

/-! ### New forms -/

/-- Mounts fields in order. -/
def mountAll : List FieldName → FormOp Unit
  | [] => return ()
  | name :: rest => do
    mount name
    mountAll rest

/-- Gives fields the values of their conditions, in order, without validation. -/
def applyInitialSets (host : Host) : List FieldName → FormOp Unit
  | [] => return ()
  | name :: rest => do
    let _ ← applySet host name false
    applyInitialSets host rest

/-- The duration that a form waits before it saves itself: its own, or that of the settings. -/
def debounceOf (d : Definition) (settings : Settings) : Except Fault Number :=
  match d.debounce with
  | .null => .ok (.int settings.debounce)
  | .bool b => .ok (.int (if b then 1 else 0))
  | .number n => .ok n
  | v => .error (.shape (.notDivisible v.kindName "int"))

/-- A duration in seconds. -/
def seconds : Number → Except Fault Float
  | .int n => Settings.seconds n
  | .float x => .ok (x / 1000)

/-- A form with nothing mounted. -/
def blank (d : Definition) (registry : Registry) (settings : Settings) (record defaults : Value)
    (clock : Option Instant) : Except Fault Form := do
  let store ← Fault.ofShape (Store.ofDefinition d record defaults)
  let debounce ← debounceOf d settings
  let _ ← seconds debounce
  return { definition := d, registry, settings, store, debounce, clock }

/-- Mounts all fields, gives them the values of their conditions and takes down which of them are
disabled. -/
def setUp (host : Host) : FormOp Unit := do
  let names := (← get).fieldNames
  mountAll names
  applyInitialSets host names
  refreshDisabled host

end LiveForm.Form
