import LiveForm.Fault
import LiveForm.Value.Names

/-!
# Registered validators

Validators are known by name. Some are ready for use, others are made from arguments by a maker. A
name keeps what was first registered under it.
-/

namespace LiveForm

/-- What checks a value: a rule, or code of the host. -/
inductive Validator where
  /-- A rule on a value and the values of the form. -/
  | rule (check : Value → Entries → Except Fault Value)
  | code (ref : Nat)

/-- A maker of validators from arguments. -/
abbrev Maker := List Value → Except Fault Validator

/-- The validators and the makers, by name. -/
structure Registry where
  validators : Table String Validator := []
  makers : Table String Maker := []

namespace Registry

/-- Registers a validator, unless its name is taken by another. -/
def register (r : Registry) (name : String) (v : Validator) : Registry :=
  if Table.has name r.validators then r
  else { r with validators := Table.put name v r.validators }

/-- Registers a maker, unless its name is taken by another. -/
def registerMaker (r : Registry) (name : String) (m : Maker) : Registry :=
  if Table.has name r.makers then r else { r with makers := Table.put name m r.makers }

/-- The name belongs to a validator or to a maker. -/
def knows (r : Registry) (name : String) : Bool :=
  Table.has name r.validators || Table.has name r.makers

/-- All names, in ascending order. -/
def names (r : Registry) : List String :=
  Names.sorted (Names.ofList (Table.keys r.validators ++ Table.keys r.makers))

/-- The validator of a name. -/
def get (r : Registry) (name : String) : Except Fault Validator :=
  match Table.get? name r.validators with
  | some v => .ok v
  | none => .error (.registry (.noValidator name r.names))

/-- The validator of a name, made without arguments if need be. -/
def resolve (r : Registry) (name : String) : Except Fault Validator :=
  match Table.get? name r.validators, Table.get? name r.makers with
  | some v, _ => .ok v
  | none, some make => make []
  | none, none => r.get name

/-- The arguments that a value stands for: those of a list, or the value alone. -/
def argumentsOf : Value → List Value
  | .list items => items
  | v => [v]

/-- The validator that the maker of a name makes. -/
def resolveWith (r : Registry) (name : String) (args : Value) : Except Fault Validator :=
  match Table.get? name r.makers with
  | some make => make (argumentsOf args)
  | none => .error (.registry (.noMaker name r.names))

end Registry

end LiveForm
