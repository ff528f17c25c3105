import LiveForm.Value.FieldName
import LiveForm.Value.Table

/-!
# Who depends on whom

A field that depends on another subscribes to it. The graph keeps the subscribers of each target
and the targets of each subscriber, and which fields are registered. A field that leaves takes its
own subscriptions with it, while those of others to it stay for its return.
-/

namespace LiveForm

/-- The graph of subscriptions. No set in it is empty. -/
structure Graph where
  /-- The subscribers of each target. -/
  subscribers : Table FieldName FieldNames := []
  /-- The targets of each subscriber. -/
  subscriptions : Table FieldName FieldNames := []
  /-- The registered fields, in the order in which they came. -/
  registered : FieldNames := []
deriving DecidableEq

namespace Graph

/-- Adds a name to the set under a key. -/
def addUnder (key name : FieldName) (t : Table FieldName FieldNames) : Table FieldName FieldNames :=
  Table.put key (Names.add name ((Table.get? key t).getD [])) t

/-- Takes a name out of the set under a key. A set that is left empty goes too. -/
def removeUnder (key name : FieldName) (t : Table FieldName FieldNames) :
    Table FieldName FieldNames :=
  match Table.get? key t with
  | none => t
  | some s =>
    let s' := Names.remove name s
    if s'.isEmpty then Table.drop key t else Table.put key s' t

/-- The fields that depend on a target directly. -/
def subscribersOf (g : Graph) (target : FieldName) : FieldNames :=
  (Table.get? target g.subscribers).getD []

/-- The fields that a subscriber depends on directly. -/
def subscriptionsOf (g : Graph) (subscriber : FieldName) : FieldNames :=
  (Table.get? subscriber g.subscriptions).getD []

/-- Lets a subscriber depend on a target. A field does not depend on itself. -/
def subscribe (g : Graph) (target subscriber : FieldName) : Graph :=
  if target == subscriber then g
  else
    { g with
      subscribers := addUnder target subscriber g.subscribers
      subscriptions := addUnder subscriber target g.subscriptions }

/-- Ends the dependence of a subscriber on a target. -/
def unsubscribe (g : Graph) (target subscriber : FieldName) : Graph :=
  { g with
    subscribers := removeUnder target subscriber g.subscribers
    subscriptions := removeUnder subscriber target g.subscriptions }

/-- Registers a field. -/
def register (g : Graph) (name : FieldName) : Graph :=
  { g with registered := Names.add name g.registered }

/-- Forgets a field and its own subscriptions. -/
def unregister (g : Graph) (name : FieldName) : Graph :=
  (g.subscriptionsOf name).foldl (fun acc target => acc.unsubscribe target name)
    { g with registered := Names.remove name g.registered }

/-- The field is registered. -/
def isRegistered (g : Graph) (name : FieldName) : Bool :=
  g.registered.contains name

/-- Gives a subscriber exactly these targets, itself left out. -/
def setSubscriptions (g : Graph) (subscriber : FieldName) (targets : List FieldName) : Graph :=
  let wanted := Names.remove subscriber (Names.ofList targets)
  let current := g.subscriptionsOf subscriber
  let less := (Names.minus current wanted).foldl
    (fun acc target => acc.unsubscribe target subscriber) g
  (Names.minus wanted current).foldl (fun acc target => acc.subscribe target subscriber) less

/-- Goes through a queue of fields and their subscribers, breadth first. Each field that has not
been seen is seen once. -/
def spread (g : Graph) (unseen : FieldNames) (queue : List FieldName) : FieldNames :=
  match queue with
  | [] => []
  | n :: rest =>
    if h : n ∈ unseen then
      have := Names.length_remove_lt h
      n :: spread g (Names.remove n unseen) (rest ++ g.subscribersOf n)
    else spread g unseen rest
termination_by (unseen.length, queue.length)

/-- The fields that depend on a field, directly or through others. -/
def affectedBy (g : Graph) (name : FieldName) : FieldNames :=
  g.spread (Names.remove name (Table.keys g.subscriptions)) (g.subscribersOf name)

/-- The names that are not registered. -/
def unused (g : Graph) (names : List FieldName) : List FieldName :=
  names.filter fun n => !g.isRegistered n

/-- The targets in ascending order, each with its subscribers in ascending order. -/
def edges (g : Graph) : List (FieldName × List FieldName) :=
  (FieldName.sorted (Table.keys g.subscribers)).map fun t =>
    (t, FieldName.sorted (g.subscribersOf t))

end Graph

end LiveForm
