import LiveForm.Fault
import LiveForm.Formula.Reads

/-!
# Rules

A rule says when something happens to a field and what. It is triggered by the value of one field,
by the values of several, or by a formula or code of the host; matchers narrow the trigger; the
actions disable the field, show or hide it, or give it a value.
-/

namespace LiveForm

/-- The checks on one field. Each may be missing; without any the field's truth decides. -/
structure Matcher where
  /-- The value that the field must equal. -/
  is : Option Value := none
  /-- The truth that the value must have. -/
  truthy : Option Bool := none
  /-- Whether the field must be free of errors. -/
  valid : Option Bool := none
  /-- Whether the field must be disabled. -/
  disabled : Option Bool := none

/-- A matcher without any check. -/
def Matcher.isEmpty (m : Matcher) : Bool :=
  m.is.isNone && m.truthy.isNone && m.valid.isNone && m.disabled.isNone

/-- The fields that trigger a rule by their values. -/
inductive When where
  | none
  | field (name : String)
  | fields (matchers : Table String Matcher)

/-- Some field triggers the rule. -/
def When.isGiven : When → Bool
  | none => false
  | field name => !name.isEmpty
  | fields matchers => !matchers.isEmpty

/-- A rule. -/
structure Rule where
  when : When := .none
  /-- A formula, code of the host, or a value that describes several. -/
  selectWhen : Value := .null
  /-- The checks on the one field, or on the value of the formula. -/
  matcher : Matcher := {}
  disabled : Option Bool := none
  visible : Option Bool := none
  /-- The value to give. -/
  set : Option Value := none
  /-- The value to give, computed. -/
  selectSet : Value := .null
  /-- The fields that the rule depends on and does not name. -/
  subscribesTo : List String := []

namespace Rule

/-- A rule without a trigger has no effect. -/
def hasTrigger (r : Rule) : Bool :=
  r.when.isGiven || !r.selectWhen.isNull

/-- The rule gives a value. -/
def hasSet (r : Rule) : Bool :=
  r.set.isSome || !r.selectSet.isNull

/-! ### Reading rules -/

/-- The keys of a matcher. -/
def matcherKeys : List String :=
  ["is", "truthy", "isTruthy", "isValid", "isDisabled"]

/-- The keys of a rule. -/
def ruleKeys : List String :=
  matcherKeys ++ ["when", "selectWhen", "disabled", "visible", "set", "selectSet", "subscribesTo"]

/-- The flag under the first of several keys that is there and not nothing. -/
def flagAt (es : Entries) (keys : List String) : Option Bool :=
  keys.findSome? fun key =>
    match Entries.at0 es key with
    | .null => none
    | v => some v.isSet

/-- The value under a key, unless it is missing or marked as not given. -/
def given? (es : Entries) (key : String) : Option Value :=
  match Entries.at? es key with
  | some .unset => none
  | v => v

/-- Reads a matcher. A value that is no map is the value to equal. -/
def readMatcher : Value → Matcher
  | .null => {}
  | .unset => {}
  | .map es =>
    { is := given? es "is"
      truthy := flagAt es ["truthy", "isTruthy"]
      valid := flagAt es ["isValid"]
      disabled := flagAt es ["isDisabled"] }
  | v => { is := some v }

/-- The key belongs to a rule. -/
def isRuleKey : Key → Bool
  | .text s => ruleKeys.contains s
  | _ => false

/-- Numbers among keys in ascending order. -/
def ascending (keys : List Key) : List Key :=
  keys.mergeSort fun k l =>
    match k.number?, l.number? with
    | some m, some n => m.compare? n != some .gt
    | _, _ => true

/-- Refuses keys that a rule does not have. Keys that are no texts are refused for that; the keys
are told in ascending order, if they have one. If they have none, nothing stands before the others
when the first two are compared. -/
def refuseKeys (unknown : List Key) : Except Fault Unit :=
  let names := unknown.filterMap fun k =>
    match k with
    | .text s => some s
    | _ => none
  if names.length == unknown.length then .error (.form (.unknownConditionKeys (Names.sorted names)))
  else
    let ordered := unknown.all fun k => k.number?.isSome
    let (empty, others) := unknown.partition (· == .null)
    match if ordered then ascending unknown else empty ++ others with
    | first :: second :: _ =>
      if ordered then .error (.shape (.notText 0 first.kindName))
      else .error (.shape (.unordered "<" second.kindName first.kindName))
    | first :: _ => .error (.shape (.notText 0 first.kindName))
    | [] => .ok ()

/-- Reads the matchers of several fields. -/
def readMatchers : List (Key × Value) → Except Fault (List (String × Matcher))
  | [] => .ok []
  | (k, v) :: rest => do
    let name ← Fault.ofNumber k.plain
    return (name, readMatcher v) :: (← readMatchers rest)

/-- Reads the fields that trigger a rule. -/
def readWhen : Value → Except Fault When
  | .null => .ok .none
  | .text s => .ok (.field s)
  | .map es => do return .fields (Table.ofList (← readMatchers es))
  | v => .error (.form (.badWhen v.kindName))

/-- The plain forms of values that stand for names. -/
def plainNames : List Value → Except Fault (List String)
  | [] => .ok []
  | v :: rest => do
    let name ← Fault.ofNumber v.plain
    return name :: (← plainNames rest)

/-- Reads the names of fields that a rule depends on: one name, or what can be gone through. -/
def readSubscriptions (v : Value) : Except Fault (List String) :=
  if !v.isSet then .ok []
  else
    match v with
    | .text s => .ok [s]
    | v => do plainNames (← Fault.ofShape v.elements)

/-- Reads a rule. -/
def ofValue : Value → Except Fault Rule
  | .map es => do
    let unknown := (Table.keys es).filter fun k => !isRuleKey k
    if !unknown.isEmpty then refuseKeys unknown
    let when ← readWhen (Entries.at0 es "when")
    return {
      when
      selectWhen := Entries.at0 es "selectWhen"
      matcher := readMatcher (.map es)
      disabled := flagAt es ["disabled"]
      visible := flagAt es ["visible"]
      set := given? es "set"
      selectSet := Entries.at0 es "selectSet"
      subscribesTo := ← readSubscriptions (Entries.at0 es "subscribesTo") }
  | v => .error (.form (.conditionNotMapping v.kindName))

/-- Reads a list of rules. -/
def ofValues : List Value → Except Fault (List Rule)
  | [] => .ok []
  | v :: rest => do
    let rule ← ofValue v
    return rule :: (← ofValues rest)

/-! ### What rules read -/

/-- The fields that a rule depends on, with repetitions. -/
def dependencies (r : Rule) : List String :=
  (match r.when with
    | .none => []
    | .field name => if name.isEmpty then [] else [name]
    | .fields matchers => Table.keys matchers) ++
  Formula.descriptorReads r.selectWhen ++ Formula.descriptorReads r.selectSet ++ r.subscribesTo

/-- The fields that several rules depend on, in the order in which they are first named. -/
def allDependencies (rules : List Rule) : Names String :=
  Names.ofList (rules.flatMap dependencies)

end Rule

end LiveForm
