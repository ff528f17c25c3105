import LiveForm.Value.Compare
import LiveForm.Value.Written

/-!
# Values of the wrong shape

Settings come as values of any shape. Where a map, a list of names or a number of milliseconds is
wanted, a value that cannot serve is refused with what is wrong about its shape.
-/

namespace LiveForm

/-- What is wrong with the shape of a value. -/
inductive ShapeError where
  /-- A value of this kind has no such member. -/
  | noMember (kind member : String)
  /-- A value of this kind has no elements. -/
  | notIterable (kind : String)
  /-- An element that should be a key with a value has no elements. -/
  | notPair (position : Nat)
  /-- An element that should be a key with a value has another number of elements. -/
  | pairLength (position length : Nat)
  /-- A value of this kind cannot be a key. -/
  | unhashable (kind : String)
  /-- A value of this kind cannot be searched. -/
  | notSearchable (kind : String)
  /-- A text is searched for texts only, and not for a value of this kind. -/
  | notInText (kind : String)
  /-- A value of this kind is no position in a text. -/
  | noTextPosition (kind : String)
  /-- A value of this kind is no position in a list. -/
  | noListPosition (kind : String)
  /-- A list does not go as far as a position. -/
  | outOfRange
  /-- A value of this kind cannot be gone through for names. -/
  | noNames (kind : String)
  /-- Values of these kinds have no order. -/
  | unordered (symbol left right : String)
  /-- Values of these kinds cannot be divided. -/
  | notDivisible (left right : String)
  /-- A value of this kind stands where a text should. -/
  | notText (position : Nat) (kind : String)
  /-- A maker of validators lacks an argument. -/
  | missingArgument (maker argument : String)
  /-- A maker of validators got more arguments than it takes. -/
  | extraArguments (maker takes : String) (given : Nat)
deriving Repr, DecidableEq

/-- The error in words. -/
def ShapeError.message : ShapeError → String
  | noMember kind member => "'" ++ kind ++ "' object has no attribute '" ++ member ++ "'"
  | notIterable kind => "'" ++ kind ++ "' object is not iterable"
  | notPair position =>
    "cannot convert dictionary update sequence element #" ++ toString position ++
      " to a sequence"
  | pairLength position length =>
    "dictionary update sequence element #" ++ toString position ++ " has length " ++
      toString length ++ "; 2 is required"
  | unhashable kind => "unhashable type: '" ++ kind ++ "'"
  | notSearchable kind => "argument of type '" ++ kind ++ "' is not iterable"
  | notInText kind => "'in <string>' requires string as left operand, not " ++ kind
  | noTextPosition kind => "string indices must be integers, not '" ++ kind ++ "'"
  | noListPosition kind => "list indices must be integers or slices, not " ++ kind
  | outOfRange => "list index out of range"
  | noNames kind => "Value after * must be an iterable, not " ++ kind
  | unordered symbol left right =>
    "'" ++ symbol ++ "' not supported between instances of '" ++ left ++ "' and '" ++ right ++ "'"
  | notDivisible left right =>
    "unsupported operand type(s) for /: '" ++ left ++ "' and '" ++ right ++ "'"
  | notText position kind =>
    "sequence item " ++ toString position ++ ": expected str instance, " ++ kind ++ " found"
  | missingArgument maker argument =>
    maker ++ "() missing 1 required positional argument: '" ++ argument ++ "'"
  | extraArguments maker takes given =>
    maker ++ "() takes " ++ takes ++ " but " ++ toString given ++ " were given"

namespace Value

/-- A key as a value. -/
def ofKey : Key → Value
  | .null => null
  | .bool b => bool b
  | .number n => number n
  | .text s => text s

/-- The elements of a value: those of a list, the keys of a map, the characters of a text. -/
def elements? : Value → Option (List Value)
  | list items => some items
  | map entries => some (entries.map fun e => ofKey e.1)
  | text s => some (s.toList.map fun c => text (String.singleton c))
  | _ => none

/-- The elements of a value that must have some. -/
def elements (v : Value) : Except ShapeError (List Value) :=
  match v.elements? with
  | some items => .ok items
  | none => .error (.notIterable v.kindName)

/-- The kind of the first part of a value that keeps it from being a key. -/
def unhashable? : Value → Option String
  | list items => some (list items).kindName
  | map entries => some (map entries).kindName
  | field value _ error => value.unhashable? <|> error.unhashable?
  | issue _ message => message.unhashable?
  | _ => none

/-- A value as a key. Some values could be keys but are never met as keys: they give none. -/
def asKey (v : Value) : Except ShapeError (Option Key) :=
  match v.unhashable? with
  | some kind => .error (.unhashable kind)
  | none => .ok v.toKey?

/-- Reads a list of keys with their values. Positions count from the given one. -/
def pairs (position : Nat) : List Value → Except ShapeError (List (Key × Value))
  | [] => .ok []
  | item :: rest =>
    match item.elements? with
    | none => .error (.notPair position)
    | some [k, v] => do
      let key ← k.asKey
      return (key.map fun key => (key, v)).toList ++ (← pairs (position + 1) rest)
    | some other => .error (.pairLength position other.length)

/-- The entries of a value that should be a map. A list of keys with their values will do. -/
def toEntries (v : Value) : Except ShapeError Entries :=
  match v with
  | map entries => .ok entries
  | v =>
    match v.elements? with
    | none => .error (.notIterable v.kindName)
    | some items => (pairs 0 items).map Table.ofList

/-- The entries of a value that may be left out: a value that counts as nothing has none. -/
def toEntriesOrNone (v : Value) : Except ShapeError Entries :=
  if v.isSet then v.toEntries else .ok []

/-- The entries of a value that may be left out and must be a map if it is not. -/
def toSections (v : Value) : Except ShapeError Entries :=
  if !v.isSet then .ok []
  else
    match v with
    | map entries => .ok entries
    | v => .error (.noMember v.kindName "items")

/-- The element of a list at a position. A position below zero counts from the end. -/
def itemAt (items : List Value) (position : Int) : Except ShapeError Value :=
  let place := if position < 0 then position + items.length else position
  match if place < 0 then none else items[place.toNat]? with
  | some v => .ok v
  | none => .error .outOfRange

/-- What stands under a key that is searched for. A map holds values under keys. A list is searched
for an element that equals the key, a text for a part; a key that is found must then be a
position. -/
def find? (v key : Value) : Except ShapeError (Option Value) :=
  match v with
  | map entries => do return (← key.asKey).bind fun k => Table.get? k entries
  | list items =>
    if !items.any (·.same key) then .ok none
    else
      match key.count? with
      | some (.int i) => (itemAt items i).map some
      | _ => .error (.noListPosition key.kindName)
  | text s =>
    match key with
    | text part =>
      if part.isEmpty || 1 < (s.splitOn part).length then .error (.noTextPosition key.kindName)
      else .ok none
    | _ => .error (.notInText key.kindName)
  | _ => .error (.notSearchable v.kindName)

end Value

end LiveForm
