import LiveForm.AutoSave.Run
import LiveForm.Session.World

/-!
# Tasks

What goes on in a form beside the changes of its user: validations of single fields, runs that save,
and what the user asks for and waits for. A task works until it has to wait; then it says what it
waits for, and what it will be when it goes on.
-/

namespace LiveForm

/-- What a task ends with. -/
inductive Reply where
  | nothing
  /-- Whether all that was validated passed. -/
  | passed (b : Bool)
  /-- How a save ended. -/
  | saved (outcome : Option Outcome)
deriving Repr, DecidableEq

/-- Everything that was validated passed. -/
def Reply.holds : Reply → Bool
  | passed b => b
  | _ => true

/-- The answer with which a task goes on or ends. -/
abbrev Answer := Except Fault Reply

/-- The tasks that the form keeps in mind until they have ended. -/
inductive Kept where
  /-- Validations that began with a change. -/
  | validations
  /-- Runs that save. -/
  | runs
deriving Repr, DecidableEq

/-- A task. -/
inductive Task where
  /-- A validation that has begun. -/
  | started (ticket : Ticket)
  /-- A validation that waits for a check of the host. The specifications still to be met follow. -/
  | checking (ticket : Ticket) (answer : Logged Value) (next : Except Fault Value → Checking Value)
      (rest : List Value)
  /-- A run that saves. -/
  | run (r : Run)
  /-- Lets time pass. -/
  | sleep (duration : Nat)
  /-- Validates a field as it is then. -/
  | validateField (name : FieldName)
  /-- Validates fields as they are then. -/
  | validate (names : List FieldName)
  /-- Validates all fields and submits the values if they pass. -/
  | submit
  /-- Submits the values if the fields have passed. -/
  | submitPassed
  /-- Waits for the validations that began with changes, then saves what waits to be saved. -/
  | flush
  /-- Saves what waits to be saved. -/
  | saveNow
  /-- Waits until nothing that has begun goes on. -/
  | waitIdle
  /-- Waits until no run goes on. -/
  | waitRuns
  /-- Ends with the answer that it is given. -/
  | ending

/-- What a task does when it has to wait. -/
inductive Next where
  /-- It pauses, and goes on with this answer. -/
  | pause (duration : Nat) (answer : Answer) (task : Task)
  /-- It starts other tasks and waits for them, or for the first that fails. -/
  | gather (children : List Task) (task : Task)
  /-- It waits until all kept tasks that go on have ended, however they end. -/
  | settle (kept : Kept) (task : Task)
  /-- It starts a run and waits for it. -/
  | follow (assignment : Assignment) (task : Task)
  /-- It ends. -/
  | finish (answer : Answer)

namespace Task

/-! ### Validations -/

/-- Ends a validation with what it found. -/
def conclude (w : World) (t : Ticket) (found : Except Fault (Option Issue)) : Next × World :=
  (.finish (found.map fun issue => .passed issue.isNone), w.withStore fun s => s.finish t found)

mutual

/-- Meets specifications in turn, up to the first that fails. The values of the form are taken when
a specification's turn comes. -/
def meet (w : World) (t : Ticket) (specs : List Value) : Next × World :=
  match specs with
  | [] => conclude w t (.ok none)
  | spec :: rest =>
    let check := Validation.runSpec w.form.registry spec t.value w.form.store.values
    let (progress, w) := w.advance check
    goOn w t progress rest
termination_by (specs.length, 0)

/-- Goes on with a validation as far as it got with one specification. -/
def goOn (w : World) (t : Ticket) (progress : Progress Value) (rest : List Value) : Next × World :=
  match progress with
  | .waits duration answer next =>
    (.pause duration (.ok .nothing) (.checking t answer next rest), w)
  | .ended (.error f) => conclude w t (.error f)
  | .ended (.ok answer) =>
    if Validation.passes answer then meet w t rest
    else conclude w t (.ok (Issue.ofAnswer? w.form.store.messages answer))
termination_by (rest.length, 1)

end

/-- The specifications that a field has to meet: its own, and that of its type of input. -/
def specsOf (d : Definition) (name : FieldName) : Except Fault (List Value) := do
  let input ← Fault.ofShape (d.inputFor name)
  return [((Table.get? name d.fields).map Field.validator).getD .null, input.validator]

/-- Works on a validation from its start. -/
def examine (w : World) (t : Ticket) : Next × World :=
  match specsOf w.form.definition t.name with
  | .error f => conclude w t (.error f)
  | .ok specs => meet w t specs

/-! ### Runs -/

/-- A duration of the settings in microseconds. -/
def ofMilliseconds (n : Int) : Nat :=
  (n * 1000).toNat

/-- What a run sees. -/
def sight (w : World) : Sight where
  now := w.now
  version := w.form.autoSave.version
  patience := ofMilliseconds w.form.settings.validationTimeout
  validating := w.form.store.isValidating
  invalid name := (w.form.store.error? name).isSome

/-- Ends a run. -/
def leaveRun (w : World) (r : Run) (outcome : Outcome) (log : Log) : Next × World :=
  (.finish (.ok (.saved (some outcome))),
    (w.write log).withAutoSave fun a => a.leave r.version outcome)

/-- Does what a run wants. -/
def grant (w : World) (run : Run) : Move → Next × World
  | .pause r =>
    (.pause (ofMilliseconds w.form.settings.pollInterval) (.ok .nothing) (.run r), w)
  | .validate names r => (.gather (names.map .validateField) (.run r), w)
  | .finish outcome log => leaveRun w run outcome log
  | .submit r =>
    let (reception, w) := w.submit
    match reception.takes with
    | some duration => (.pause duration (reception.answer.map fun _ => .nothing) (.run r), w)
    | none =>
      match reception.answer with
      | .ok _ => leaveRun w run .submitted []
      | .error _ => leaveRun w run .failed [r.entry .error "failed"]

/-- Goes on with a run. -/
def stepRun (w : World) (r : Run) (answer : Answer) : Next × World :=
  let w := if r.phase == .created then w.withAutoSave AutoSave.enter else w
  grant w r (r.resume (sight w) (answer.map Reply.holds))

/-! ### What is asked for -/

/-- Starts a run now. -/
def saveAtOnce (w : World) : Next × World :=
  let w := w.withAutoSave AutoSave.disarm
  match w.form.autoSave.start? with
  | none => (.finish (.ok (.saved none)), w)
  | some (assignment, autoSave) => (.follow assignment .ending, w.withAutoSave fun _ => autoSave)

/-- The note that a form was not submitted. -/
def notSubmitted (w : World) : LogEntry :=
  ⟨.info, "Form '" ++ w.form.definition.name.plain.toOption.getD "" ++
    "' not submitted: validation failed"⟩

/-- Submits the values, if the fields have passed. -/
def submitIf (w : World) (passed : Bool) : Next × World :=
  if !passed then (.finish (.ok (.passed false)), w.write [notSubmitted w])
  else
    let (reception, w) := w.submit
    let answer := reception.answer.map fun _ => Reply.passed true
    match reception.takes with
    | some duration => (.pause duration answer .ending, w)
    | none => (.finish answer, w)

/-- Validates fields and goes on as a task. -/
def gatherFields (names : List FieldName) (task : Task) : Next :=
  .gather (names.map .validateField) task

/-- Goes on with a task. Whether kept tasks go on decides what there is to wait for. -/
def step (w : World) (busy : Kept → Bool) (task : Task) (answer : Answer) : Next × World :=
  match task with
  | .started t => examine w t
  | .checking t question next rest =>
    let (r, w) := w.runLogged question
    let (progress, w) := w.advance (next r)
    goOn w t progress rest
  | .run r => stepRun w r answer
  | .sleep duration => (.pause duration (.ok .nothing) .ending, w)
  | .validateField name =>
    let (t, store) := w.form.store.begin name (w.form.store.value name)
    examine (w.withStore fun _ => store) t
  | .validate names =>
    if names.isEmpty then (.finish (.ok (.passed true)), w) else (gatherFields names .ending, w)
  | .submit =>
    let names := w.form.fieldNames
    if names.isEmpty then submitIf w true else (gatherFields names .submitPassed, w)
  | .submitPassed =>
    match answer with
    | .error f => (.finish (.error f), w)
    | .ok reply => submitIf w reply.holds
  | .flush => if busy .validations then (.settle .validations .flush, w) else saveAtOnce w
  | .saveNow => saveAtOnce w
  | .waitIdle =>
    if busy .validations then (.settle .validations .waitIdle, w)
    else if busy .runs then (.settle .runs .waitRuns, w)
    else (.finish (.ok .nothing), w)
  | .waitRuns =>
    if busy .runs then (.settle .runs .waitRuns, w) else (.finish (.ok .nothing), w)
  | .ending => (.finish answer, w)

end Task

end LiveForm
