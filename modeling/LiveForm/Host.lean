import LiveForm.Formula.Context
import LiveForm.Logged

/-!
# The host

A form lives in a host that supplies code of its own: callbacks that answer to the state of the
form, checks of values, and what takes the values in when they are submitted. Values carry callbacks
and checks as numbers; the host says what each number does. Durations are in microseconds.
-/

namespace LiveForm

/-- How a host takes values in. -/
structure Reception where
  /-- How long it takes. A host that answers at once has no duration. -/
  takes : Option Nat := none
  /-- Whether it succeeds. -/
  answer : Except Fault Unit := .ok ()

/-- What the code of a host does. -/
structure Host where
  /-- The answer of a callback to the state of the form. -/
  callback : Nat → Snapshot → Logged Value
  /-- The answer of a check to a value and the values of the form. -/
  check : Nat → Value → Entries → Logged Value
  /-- How long the calls of a check take, in order; the last duration stands for all later calls. A
  check without durations answers at once. -/
  delays : Nat → List Nat
  /-- How the submission of a number, counted from zero, is taken in. -/
  reception : Nat → Reception := fun _ => {}

/-- How long the call of a number, counted from zero, takes. -/
def Host.delay? (h : Host) (ref call : Nat) : Option Nat :=
  let ds := h.delays ref
  (ds[call]?).or ds.getLast?

end LiveForm
