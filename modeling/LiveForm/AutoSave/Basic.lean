import LiveForm.Value.FieldName
import LiveForm.Value.Table

/-!
# Automatic saving

A form that saves itself collects the fields that change, together with those that depend on them,
and waits until no change has come for a while. Then a run takes the collected fields over. Each
change, each start of a run and each cancellation raises the version, and a run that finds the
version moved gives up: a newer run takes its fields over, or else they return to those that wait.
-/

namespace LiveForm

/-- A point of time, in microseconds since the start. -/
abbrev Instant := Nat

/-- Fields to be saved: those that changed, and those that depend on one of them. -/
structure Batch where
  changed : FieldNames := []
  affected : FieldNames := []
deriving DecidableEq

namespace Batch

/-- The fields of two batches. -/
def union (a b : Batch) : Batch where
  changed := Names.union a.changed b.changed
  affected := Names.union a.affected b.affected

/-- A batch without fields. -/
def isEmpty (b : Batch) : Bool :=
  b.changed.isEmpty && b.affected.isEmpty

/-- All fields of a batch. -/
def fields (b : Batch) : FieldNames :=
  Names.union b.changed b.affected

/-- The fields that depend on a change and did not change themselves. -/
def dependents (b : Batch) : FieldNames :=
  Names.minus b.affected b.changed

end Batch

/-- How a run ends. -/
inductive Outcome where
  | submitted
  /-- A later change, run or cancellation took its place. -/
  | aborted
  /-- A field was invalid, or a validation took too long. -/
  | blocked
  /-- Code of the host failed. -/
  | failed
deriving Repr, DecidableEq

/-- The outcome by name. -/
def Outcome.name : Outcome → String
  | submitted => "submitted"
  | aborted => "aborted"
  | blocked => "blocked"
  | failed => "failed"

/-- What a form that saves itself is about to do. -/
inductive Activity where
  | idle | pending | debouncing | executing
deriving Repr, DecidableEq

/-- The activity by name. -/
def Activity.name : Activity → String
  | idle => "idle"
  | pending => "pending"
  | debouncing => "debouncing"
  | executing => "executing"

/-- The state of a form's saving. -/
structure AutoSave where
  version : Nat := 0
  /-- The fields that wait for a run. -/
  pending : Batch := {}
  /-- When the next run starts, if no change comes before. -/
  timer : Option Instant := none
  /-- The batches of runs that have not ended and have not been taken over, by the version of the
  run. -/
  held : Table Nat Batch := []
  /-- How many runs are under way. -/
  executing : Nat := 0
  /-- How the last run ended. -/
  outcome : Option Outcome := none
deriving DecidableEq

/-- What a run is given when it starts: its version and its fields. -/
structure Assignment where
  version : Nat
  batch : Batch
deriving DecidableEq

namespace AutoSave

/-- What the form is about to do. -/
def activity (a : AutoSave) : Activity :=
  if a.timer.isSome then .debouncing
  else if a.executing != 0 then .executing
  else if a.pending.isEmpty then .idle
  else .pending

/-- Notes a change of a field on which others depend. -/
def note (a : AutoSave) (name : FieldName) (affected : FieldNames) : AutoSave :=
  { a with
    pending := a.pending.union ⟨[name], affected⟩
    version := a.version + 1 }

/-- Sets the time of the next run, in the place of any that was set. -/
def arm (a : AutoSave) (due : Instant) : AutoSave :=
  { a with timer := some due }

/-- Takes the time of the next run away. -/
def disarm (a : AutoSave) : AutoSave :=
  { a with timer := none }

/-- Calls off the next run and every run under way. The fields that wait go on waiting. -/
def cancel (a : AutoSave) : AutoSave :=
  { a.disarm with version := a.version + 1 }

/-- The fields that a run would save now: those that wait, and those of the runs that it would take
over. -/
def collected (a : AutoSave) : Batch :=
  a.held.foldl (fun acc e => acc.union e.2) a.pending

/-- Starts a run, if there is anything to save. -/
def start? (a : AutoSave) : Option (Assignment × AutoSave) :=
  if a.collected.isEmpty then none
  else
    let version := a.version + 1
    some (⟨version, a.collected⟩,
      { a with version, pending := {}, held := [(version, a.collected)] })

/-- A run begins its work. -/
def enter (a : AutoSave) : AutoSave :=
  { a with executing := a.executing + 1 }

/-- A run ends. The fields of one that was aborted wait again, unless a newer run has taken them
over. -/
def leave (a : AutoSave) (version : Nat) (outcome : Outcome) : AutoSave :=
  let left := { a with
    executing := a.executing - 1
    held := Table.drop version a.held
    outcome := some outcome }
  if outcome == .aborted then
    match Table.get? version a.held with
    | some batch => { left with pending := left.pending.union batch }
    | none => left
  else left

end AutoSave

end LiveForm
