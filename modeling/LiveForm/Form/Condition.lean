import LiveForm.Form.Basic

/-!
# Conditions of fields and groups

The conditions of a field are evaluated against the form as it is. Conditions of the groups around
the field apply where the field's own are silent: any group may disable the field, any may hide it,
and the innermost group that gives a value decides the value. Callbacks among the conditions are
called here.
-/

namespace LiveForm

/-- The state of a group together with its ancestors. -/
structure GroupState where
  disabled : Bool := false
  visible : Bool := true
  hasSet : Bool := false
  setValue : Value := .null

/-- Adds the effect of a group further inside. -/
def GroupState.add (s : GroupState) (e : Effect) : GroupState where
  disabled := if e.hasDisabled then e.disabled.getD false || s.disabled else s.disabled
  visible :=
    match e.hasVisible, e.visible with
    | true, some shown => shown && s.visible
    | _, _ => s.visible
  hasSet := s.hasSet || e.hasSet
  setValue := if e.hasSet then e.setValue else s.setValue

namespace Form

/-- Code of the host answers to a snapshot; any other value is its own answer. -/
def invoke (host : Host) (s : Snapshot) (v : Value) : Logged Value :=
  match v with
  | .callback ref => host.callback ref s
  | .check _ => throw (.host "a check cannot answer to the state of a form")
  | v => return v

/-- Replaces a callback in the place of a rule's trigger by its outcome: the rule goes if the
outcome does not hold, and else it applies always. -/
def resolveTrigger (host : Host) (s : Snapshot) (r : Rule) : Logged (Option Rule) := do
  if r.selectWhen.isCode then
    if r.triggerHolds (← invoke host s r.selectWhen) then
      return some { r with
        selectWhen := .bool true
        matcher := { r.matcher with is := none, truthy := none } }
    else return none
  else return some r

/-- Replaces the callbacks among the triggers. -/
def resolveTriggers (host : Host) (s : Snapshot) : List Rule → Logged (List Rule)
  | [] => return []
  | r :: rest => do
    let first ← resolveTrigger host s r
    return first.toList ++ (← resolveTriggers host s rest)

/-- The effect of rules on a form in some state. -/
def effectOf (host : Host) (s : Snapshot) (props : Entries) (rules : List Rule) :
    Logged Effect := do
  let resolved ← resolveTriggers host s rules
  let effect ← Rule.evaluateAll (Scene.ofSnapshot s props) resolved
  return { effect with setValue := ← invoke host s effect.setValue }

/-- The effect of a field's own conditions. -/
def fieldEffect (host : Host) (f : Form) (name : FieldName) : Logged Effect := do
  let field ← Logged.ofExcept (f.field name)
  effectOf host f.snapshot [(.text "name", name.toValue)] field.conditions

/-- The state of a group together with its ancestors. -/
def groupState (host : Host) (f : Form) (group : GroupRef) : Logged GroupState := do
  let chain ← Logged.ofExcept (f.definition.chain group)
  chain.foldlM (fun s g => do return s.add (← effectOf host f.snapshot [] g.conditions)) {}

/-- The value that conditions give to a field. Those of the field come before those of its
groups. -/
def effectiveSet (host : Host) (f : Form) (name : FieldName) : Logged (Option Value) := do
  let own ← fieldEffect host f name
  if own.hasSet then return some own.setValue
  else
    let field ← Logged.ofExcept (f.field name)
    let group ← groupState host f field.group
    return if group.hasSet then some group.setValue else none

/-- The field is disabled: by its definition, by its own conditions, or by its groups. -/
def isDisabled (host : Host) (f : Form) (name : FieldName) : Logged Bool := do
  let field ← Logged.ofExcept (f.field name)
  if !field.disabled.isNull then return field.disabled.isSet
  else
    let own ← fieldEffect host f name
    if own.hasDisabled then return own.disabled.getD false
    else return (← groupState host f field.group).disabled

/-- The field is visible: by its definition, by its own conditions, or by its groups. -/
def isVisible (host : Host) (f : Form) (name : FieldName) : Logged Bool := do
  let field ← Logged.ofExcept (f.field name)
  if !field.hidden.isNull then return !field.hidden.isSet
  else
    let own ← fieldEffect host f name
    if own.hasVisible then return own.visible.getD true
    else return (← groupState host f field.group).visible

/-- The disabled ones among some fields. -/
def disabledAmong (host : Host) (f : Form) : List FieldName → Logged FieldNames
  | [] => return []
  | name :: rest => do
    let disabled ← isDisabled host f name
    let others ← disabledAmong host f rest
    return if disabled then name :: others else others

/-- Takes down which fields are disabled. -/
def refreshDisabled (host : Host) : FormOp Unit := do
  let disabled ← FormOp.look fun f => disabledAmong host f f.fieldNames
  FormOp.change fun f => { f with store := { f.store with disabled } }

end Form

end LiveForm
