import LiveForm.Value.Property

/-!
# Truth and equality of values

Two notions of truth: the one of formulas, and the one of settings. Two of equality: the strict one
compares values of one kind only, the loose one counts flags as numbers and reads numbers from
texts.
-/

namespace LiveForm

namespace Value

/-- The truth of a value in a formula: nothing, false, zero, what is not a number and empty
collections are false. -/
def truthy (v : Value) : Bool :=
  match v.bare with
  | null => false
  | bool b => b
  | number (.int n) => n != 0
  | number (.float x) => x != 0 && x == x
  | text s => !s.isEmpty
  | list items => !items.isEmpty
  | map entries => !entries.isEmpty
  | _ => true

/-- The truth of a setting: nothing, false, zero, empty collections and the marker for "not given"
are false. -/
def isSet : Value → Bool
  | null => false
  | bool b => b
  | number (.int n) => n != 0
  | number (.float x) => x != 0
  | text s => !s.isEmpty
  | list items => !items.isEmpty
  | map entries => !entries.isEmpty
  | unset => false
  | _ => true

/-- The number that a number or a flag counts as. -/
def count? : Value → Option Number
  | bool b => some (.int (if b then 1 else 0))
  | number n => some n
  | _ => none

mutual

/-- Equality without any reading: flags count as numbers, all else by kind. -/
def same : Value → Value → Bool
  | .null, w => w.isNull
  | .bool b, w =>
    match w.count? with
    | some n => (Number.int (if b then 1 else 0)).eqv n
    | none => false
  | .number m, w =>
    match w.count? with
    | some n => m.eqv n
    | none => false
  | .text s, w => w.name? == some s
  | .list items, w =>
    match w with
    | .list others => sameItems items others
    | _ => false
  | .map entries, w =>
    match w with
    | .map others => entries.length == others.length && sameEntries entries others
    | _ => false
  | .field value marks error, w =>
    match w with
    | .field value' marks' error' => same value value' && marks == marks' && same error error'
    | _ => false
  | .issue type message, w =>
    match w with
    | .issue type' message' => type == type' && same message message'
    | _ => false
  | .unset, w =>
    match w with
    | .unset => true
    | _ => false
  | .callback ref, w =>
    match w with
    | .callback ref' => ref == ref'
    | _ => false
  | .check ref, w =>
    match w with
    | .check ref' => ref == ref'
    | _ => false

/-- Lists of one length with the same values in each place. -/
def sameItems : List Value → List Value → Bool
  | [], ws => ws.isEmpty
  | v :: vs, ws =>
    match ws with
    | w :: ws => same v w && sameItems vs ws
    | [] => false

/-- Every entry stands in the other map too. -/
def sameEntries : List (Key × Value) → Entries → Bool
  | [], _ => true
  | (k, v) :: rest, other =>
    match Table.get? k other with
    | some w => same v w && sameEntries rest other
    | none => false

end

mutual

/-- Strict equality. Wrappings are looked through at every depth, and flags equal flags only. -/
def strictEq : Value → Value → Bool
  | .field value _ _, w => strictEq value w
  | .null, w => w.bare.isNull
  | .bool b, w =>
    match w.bare with
    | .bool b' => b == b'
    | _ => false
  | .number m, w =>
    match w.bare with
    | .number n => m.eqv n
    | _ => false
  | .list items, w =>
    match w.bare with
    | .list others => strictEqItems items others
    | _ => false
  | .map entries, w =>
    match w.bare with
    | .map others => entries.length == others.length && strictEqEntries entries others
    | _ => false
  | .text s, w => w.bare.name? == some s
  | .issue type message, w => same (.issue type message) w.bare
  | .unset, w => same .unset w.bare
  | .callback ref, w => same (.callback ref) w.bare
  | .check ref, w => same (.check ref) w.bare

/-- Lists of one length, strictly equal in each place. -/
def strictEqItems : List Value → List Value → Bool
  | [], ws => ws.isEmpty
  | v :: vs, ws =>
    match ws with
    | w :: ws => strictEq v w && strictEqItems vs ws
    | [] => false

/-- Every entry stands in the other map too, strictly equal. -/
def strictEqEntries : List (Key × Value) → Entries → Bool
  | [], _ => true
  | (k, v) :: rest, other =>
    match Table.get? k other with
    | some w => strictEq v w && strictEqEntries rest other
    | none => false

end

/-- The whole number that a flag counts as; other values stay. -/
def flagAsNumber : Value → Value
  | bool b => int (if b then 1 else 0)
  | v => v

/-- Loose equality. Nothing equals only nothing; flags are numbers; a text equals a number if that
number can be read from it. -/
def looseEq (v w : Value) : Bool :=
  match v.bare, w.bare with
  | null, r => r.isNull
  | _, null => false
  | l, r =>
    match l.flagAsNumber, r.flagAsNumber with
    | number m, text s => (Number.read? s).any m.eqv
    | text s, number n => (Number.read? s).any n.eqv
    | l, r => strictEq l r

/-- The kind of a value as a formula names it. -/
def typeOf (v : Value) : String :=
  match v.bare with
  | null => "undefined"
  | bool _ => "boolean"
  | number _ => "number"
  | text _ => "string"
  | callback _ => "function"
  | check _ => "function"
  | _ => "object"

end Value

end LiveForm
