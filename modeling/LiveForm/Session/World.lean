import LiveForm.Form.Basic
import LiveForm.Validation.Run

/-!
# A form in its host

Tasks work on a form and call code of its host. Some of that code takes its time. A validation then
stops at its question to the host, and goes on with the answer when the time is over.
-/

namespace LiveForm

/-- A form, its host, and the log. -/
structure World where
  host : Host
  form : Form
  /-- How often each check of the host has been called. -/
  calls : Table Nat Nat := []
  log : Log := []

/-- How far a validation gets before it has to wait. -/
inductive Progress (α : Type) where
  | ended (r : Except Fault α)
  /-- It waits for a check of the host to answer. -/
  | waits (duration : Nat) (answer : Logged Value) (next : Except Fault Value → Checking α)

namespace World

/-- The present. -/
def now (w : World) : Instant :=
  w.form.clock.getD 0

/-- Adds to the log. -/
def write (w : World) (log : Log) : World :=
  { w with log := w.log ++ log }

/-- Changes the store of the form. -/
def withStore (w : World) (f : Store → Store) : World :=
  { w with form := { w.form with store := f w.form.store } }

/-- Changes the state of the form's saving. -/
def withAutoSave (w : World) (f : AutoSave → AutoSave) : World :=
  { w with form := { w.form with autoSave := f w.form.autoSave } }

/-- Runs an operation that only logs. -/
def runLogged (w : World) (op : Logged α) : Except Fault α × World :=
  let (r, log) := op.run.run w.log
  (r, { w with log })

/-- Runs an operation on the form. -/
def runForm (w : World) (op : FormOp α) : Except Fault α × World :=
  let (r, form, log) := op.runOn w.form w.log
  (r, { w with form, log })

/-- Counts a call of a check. The answer is the number of the call, counted from zero. -/
def countCall (w : World) (ref : Nat) : Nat × World :=
  let n := (Table.get? ref w.calls).getD 0
  (n, { w with calls := Table.put ref (n + 1) w.calls })

/-- Goes on with a validation until it ends or has to wait. -/
def advance (w : World) : Checking α → Progress α × World
  | .done a => (.ended (.ok a), w)
  | .fail f => (.ended (.error f), w)
  | .say e next => (w.write [e]).advance next
  | .ask ref value values next =>
    let (n, w) := w.countCall ref
    let answer := w.host.check ref value values
    match w.host.delay? ref n with
    | some duration => (.waits duration answer next, w)
    | none =>
      let (r, w) := w.runLogged answer
      w.advance (next r)

/-- Submits the values of the form. -/
def submit (w : World) : Reception × World :=
  (w.host.reception w.form.store.submitted.length,
    w.withStore fun s => s.submit s.values)

end World

end LiveForm
