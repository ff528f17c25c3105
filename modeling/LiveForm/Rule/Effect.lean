import LiveForm.Formula.Eval
import LiveForm.Rule.Basic

/-!
# The effect of rules

The rules that match are merged in their order. A field is disabled if any of them disables it, it
is visible if all that speak of it show it, and it gets the value of the last one that gives one.
The effects of several groups of rules merge in the same way.
-/

namespace LiveForm

/-- What rules do to a field. The flags tell an axis that no rule spoke of from one that a rule has
decided. -/
structure Effect where
  disabled : Option Bool := none
  visible : Option Bool := none
  setValue : Value := .null
  hasDisabled : Bool := false
  hasVisible : Bool := false
  hasSet : Bool := false

namespace Effect

/-- Whether anything so far hides or disables the field, read as a flag. -/
def flag (b : Option Bool) : Bool :=
  b.getD false

/-- An effect, and one that comes after it. -/
def merge (e next : Effect) : Effect where
  disabled := if next.hasDisabled then some (flag e.disabled || flag next.disabled) else e.disabled
  hasDisabled := e.hasDisabled || next.hasDisabled
  visible :=
    if next.hasVisible then
      match e.visible with
      | none => next.visible
      | some shown => some (shown && next.visible.getD true)
    else e.visible
  hasVisible := e.hasVisible || next.hasVisible
  setValue := if next.hasSet then next.setValue else e.setValue
  hasSet := e.hasSet || next.hasSet

/-- Effects in a row. -/
def mergeAll (es : List Effect) : Effect :=
  es.foldl merge {}

/-- The effect as a map. -/
def outline (e : Effect) : Value :=
  let flagValue (b : Option Bool) : Value := (b.map Value.bool).getD .null
  .ofNames
    [("disabled", flagValue e.disabled), ("visible", flagValue e.visible),
      ("setValue", e.setValue), ("hasDisabledCondition", .bool e.hasDisabled),
      ("hasVisibleCondition", .bool e.hasVisible), ("hasSetCondition", .bool e.hasSet)]

end Effect

/-- What rules are evaluated against: the values, what is known of the fields, and the context for
formulas. -/
structure Scene where
  values : Entries
  standings : Table Key Standing
  context : Context

/-- The scene of some values, with a record and properties that come as values. -/
def Scene.ofValues (values record props : Value) (standings : Table Key Standing) :
    Except ShapeError Scene := do
  let context ← Context.ofValues values record props standings .null
  return { values := ← Context.fieldValues values standings, standings, context }

/-- The scene of a snapshot. -/
def Scene.ofSnapshot (s : Snapshot) (props : Entries) : Scene where
  values := s.values
  standings := s.standings
  context := Context.build s.values s.record props s.standings []

namespace Matcher

/-- The checks on a value alone: the ones that are there must hold. -/
def holdsOfValue (m : Matcher) (v : Value) : Bool :=
  m.is.all (fun wanted => v.strictEq wanted) && m.truthy.all (fun wanted => v.truthy == wanted)

/-- The checks on a field. A field of which nothing is known is valid and not disabled. -/
def holds (m : Matcher) (v : Value) (standing : Option Standing) : Bool :=
  if m.isEmpty then v.truthy
  else
    m.holdsOfValue v &&
      m.valid.all (fun wanted => !(standing.any Standing.invalid) == wanted) &&
      m.disabled.all (fun wanted => (standing.any fun s => s.marks.disabled) == wanted)

/-- The checks on a field of a scene. -/
def holdsIn (m : Matcher) (scene : Scene) (name : String) : Bool :=
  m.holds (Entries.at0 scene.values name) (Table.get? (Key.text name) scene.standings)

end Matcher

namespace Rule

/-- The checks on a computed trigger. Without any its truth decides. -/
def triggerHolds (r : Rule) (v : Value) : Bool :=
  if r.matcher.is.isNone && r.matcher.truthy.isNone then v.truthy else r.matcher.holdsOfValue v

/-- The computed trigger holds. Code of the host never does here: the form runs it beforehand. -/
def selectHolds (r : Rule) (scene : Scene) : Logged Bool :=
  if r.selectWhen.isNull || r.selectWhen.isCode then return false
  else do return r.triggerHolds (← Formula.evaluateDescriptor scene.context r.selectWhen)

/-- The rule is triggered, and its checks hold. -/
def isMatched (r : Rule) (scene : Scene) : Logged Bool :=
  match r.when with
  | .field name =>
    if name.isEmpty then r.selectHolds scene else return r.matcher.holdsIn scene name
  | .fields matchers =>
    if matchers.isEmpty then r.selectHolds scene
    else return matchers.all fun e => e.2.holdsIn scene e.1
  | .none => r.selectHolds scene

/-- The value that a matching rule gives. Code of the host is handed on. -/
def givenValue (r : Rule) (scene : Scene) : Logged Value :=
  match r.set with
  | some v => return v
  | none =>
    if r.selectSet.isCode then return r.selectSet
    else do return (← Formula.evaluateDescriptor scene.context r.selectSet).bare

/-- The value that a matching rule gives, if it gives one. -/
def newValue? (r : Rule) (scene : Scene) : Logged (Option Value) :=
  if r.hasSet then do return some (← r.givenValue scene) else return none

/-- What a matching rule does to the effect of the rules before it. The first rule that speaks of
being visible decides it, and the later ones can only hide. -/
def act (r : Rule) (e : Effect) (newValue : Option Value) : Effect where
  disabled :=
    match r.disabled with
    | some disabled => some (Effect.flag e.disabled || disabled)
    | none => e.disabled
  hasDisabled := e.hasDisabled || r.disabled.isSome
  visible :=
    match r.visible with
    | some visible => some (if e.hasVisible then Effect.flag e.visible && visible else visible)
    | none => e.visible
  hasVisible := e.hasVisible || r.visible.isSome
  setValue := newValue.getD e.setValue
  hasSet := e.hasSet || newValue.isSome

/-- Adds the effect of a rule, if it has a trigger and matches. -/
def addEffect (scene : Scene) (sum : Effect) (r : Rule) : Logged Effect := do
  if !r.hasTrigger then return sum
  else if ← r.isMatched scene then return r.act sum (← r.newValue? scene)
  else return sum

/-- The effect of rules, in their order. -/
def evaluateAll (scene : Scene) (rules : List Rule) : Logged Effect :=
  rules.foldlM (addEffect scene) {}

/-- The effect of rules that are read one by one, each just before its turn. -/
def evaluateDescribed (scene : Scene) (described : List Value) : Logged Effect :=
  described.foldlM (fun sum v => do addEffect scene sum (← Logged.ofExcept (ofValue v))) {}

end Rule

end LiveForm
