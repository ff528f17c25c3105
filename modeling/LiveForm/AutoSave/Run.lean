import LiveForm.AutoSave.Basic
import LiveForm.Logged

/-!
# Runs

A run saves the fields of its assignment. It waits, for a limited time, until none of them is being
validated; it requires the changed fields to be free of errors; it has the fields validated that
depend on them, waits again, and submits. Between any two of its steps the form may have moved on,
so a run is a state that is resumed with what it can see at that time, and that answers with what it
wants next.
-/

namespace LiveForm

/-- Where a run stands. -/
inductive Phase where
  | created
  /-- It waits until the validations of its fields have ended. -/
  | settling (deadline : Instant)
  /-- It has asked for the validation of the dependent fields. -/
  | validating
  /-- The dependent fields have been validated, and it waits once more. -/
  | confirming (passed : Bool) (deadline : Instant)
  /-- It has submitted the values. -/
  | submitting
deriving Repr, DecidableEq

/-- A run. -/
structure Run where
  version : Nat
  batch : Batch
  phase : Phase := .created
deriving DecidableEq

/-- What a run sees of the form when it goes on. -/
structure Sight where
  now : Instant
  /-- The version of the form's saving. -/
  version : Nat
  /-- How long a run waits for validations. -/
  patience : Nat
  /-- A validation of the field is under way. -/
  validating : FieldName → Bool
  /-- The field has an error. -/
  invalid : FieldName → Bool

/-- What a run wants next. -/
inductive Move where
  /-- To go on after a pause. -/
  | pause (run : Run)
  /-- The validation of these fields. -/
  | validate (names : List FieldName) (run : Run)
  /-- To submit the values of the form. -/
  | submit (run : Run)
  /-- Nothing more. -/
  | finish (outcome : Outcome) (log : Log)

namespace Run

/-- The run of an assignment. -/
def ofAssignment (a : Assignment) : Run where
  version := a.version
  batch := a.batch

/-- Names as they stand in the log. -/
def shownNames (names : List FieldName) : String :=
  "[" ++ ", ".intercalate (names.map FieldName.quoted) ++ "]"

/-- An entry of the log about a run. -/
def entry (r : Run) (level : Level) (what : String) : LogEntry :=
  ⟨level, "Auto-save run " ++ toString r.version ++ " " ++ what⟩

/-- The run has been superseded. -/
def superseded (r : Run) (s : Sight) : Bool :=
  s.version != r.version

/-- Waits until none of the names is being validated, and then makes the move. -/
def settle (r : Run) (s : Sight) (names : FieldNames) (deadline : Instant) (phase : Phase)
    (move : Move) : Move :=
  if names.any s.validating then
    if r.superseded s then .finish .aborted []
    else if deadline ≤ s.now then
      .finish .blocked [r.entry .warning
        ("timed out waiting for validation of " ++ shownNames (FieldName.sorted names))]
    else .pause { r with phase }
  else if r.superseded s then .finish .aborted []
  else move

/-- Submits, unless the run has been superseded. -/
def conclude (r : Run) (s : Sight) : Move :=
  if r.superseded s then .finish .aborted [] else .submit { r with phase := .submitting }

/-- Goes on when the validations of the run's fields have ended. -/
def examine (r : Run) (s : Sight) : Move :=
  let invalid := FieldName.sorted (r.batch.changed.filter s.invalid)
  if !invalid.isEmpty then
    .finish .blocked [r.entry .info ("blocked by invalid fields: " ++ shownNames invalid)]
  else if r.batch.dependents.isEmpty then r.conclude s
  else .validate (FieldName.sorted r.batch.dependents) { r with phase := .validating }

/-- Goes on when the validations of the dependent fields have ended. -/
def confirm (r : Run) (s : Sight) (passed : Bool) : Move :=
  if !passed || r.batch.dependents.any s.invalid then
    .finish .blocked [r.entry .info "blocked by affected fields"]
  else r.conclude s

/-- Code of the host failed. -/
def fail (r : Run) : Move :=
  .finish .failed [r.entry .error "failed"]

/-- How a submission ended. -/
def submitted (r : Run) (answer : Except Fault Bool) : Move :=
  match answer with
  | .ok _ => .finish .submitted []
  | .error _ => r.fail

/-- Goes on with the answer to what the run wanted. -/
def resume (r : Run) (s : Sight) (answer : Except Fault Bool) : Move :=
  match r.phase with
  | .created =>
    let deadline := s.now + s.patience
    r.settle s r.batch.fields deadline (.settling deadline) (r.examine s)
  | .settling deadline => r.settle s r.batch.fields deadline (.settling deadline) (r.examine s)
  | .validating =>
    match answer with
    | .error _ => r.fail
    | .ok passed =>
      if r.superseded s then .finish .aborted []
      else
        let deadline := s.now + s.patience
        r.settle s r.batch.dependents deadline (.confirming passed deadline) (r.confirm s passed)
  | .confirming passed deadline =>
    r.settle s r.batch.dependents deadline (.confirming passed deadline) (r.confirm s passed)
  | .submitting => r.submitted answer

end Run

end LiveForm
