import Mathlib
import LiveForm.Proofs.Session.Turns

/-!
# What a validation finds

A validation ends in the turn in which its last answer comes. What it finds then is told by its
specifications and the answers alone (`Task.finding?`): neither its number nor what the store knows
of other validations has any part in it. `Task.step_finds` says that the store is given just that
finding.
-/

namespace LiveForm

/-- What a validation has found: an issue, nothing that is wrong, or a fault that has kept it from
an answer. -/
abbrev Finding := Except Fault (Option Issue)

/-- What is found once a specification is answered. If it is met the specifications behind it
decide, and while the answer is awaited nothing is found. -/
def Progress.finding? (messages : Entries) (progress : Progress Value) (more : Option Finding) :
    Option Finding :=
  match progress with
  | .waits _ _ _ => none
  | .ended (.error f) => some (.error f)
  | .ended (.ok answer) =>
    if Validation.passes answer then more else some (.ok (Issue.ofAnswer? messages answer))

namespace Task

/-- What specifications find in a value, unless they have to wait for an answer. -/
def specsFinding? (w : World) (value : Value) : List Value → Option Finding
  | [] => some (.ok none)
  | spec :: rest =>
    let check := Validation.runSpec w.form.registry spec value w.form.store.values
    let (progress, w) := w.advance check
    progress.finding? w.form.store.messages (specsFinding? w value rest)

/-- What a validation finds if it is worked on from its start. -/
def startFinding? (w : World) (t : Ticket) : Option Finding :=
  match specsOf w.form.definition t.name with
  | .error f => some (.error f)
  | .ok specs => specsFinding? w t.value specs

/-- The validation that the task begins in its turn. -/
def opening? (w : World) : Task → Option Ticket
  | .validateField name => some (w.form.store.begin name (w.form.store.value name)).1
  | _ => none

/-- The validation that the task works on in its turn. -/
def worksOn? (w : World) (task : Task) : Option Ticket :=
  task.ticket?.or (task.opening? w)

/-- The world in which the task works on a validation: one that begins has begun in it. -/
def opened (w : World) : Task → World
  | .validateField name => w.withStore fun s => (s.begin name (s.value name)).2
  | _ => w

/-- What the task has found when its turn is over, if it ends a validation. -/
def finding? (w : World) : Task → Option Finding
  | .started t => startFinding? w t
  | .checking t question next rest =>
    let (r, w) := w.runLogged question
    let (progress, w) := w.advance (next r)
    progress.finding? w.form.store.messages (specsFinding? w t.value rest)
  | .validateField name =>
    startFinding? ((validateField name).opened w)
      (w.form.store.begin name (w.form.store.value name)).1
  | _ => none

/-- A turn of a validation, with what it finds. -/
inductive Finds (w : World) (t : Ticket) : Option Finding → Next × World → Prop
  | asks (w' : World) (duration : Nat) (question : Logged Value)
      (next : Except Fault Value → Checking Value) (rest : List Value) : w'.form = w.form →
      Finds w t none (.pause duration (.ok .nothing) (.checking t question next rest), w')
  | ends (w' : World) (found : Finding) : w'.form = w.form →
      Finds w t (some found) (conclude w' t found)

variable {w w' : World} {t : Ticket}

theorem Finds.of_form {finding : Option Finding} {x : Next × World} (h : Finds w' t finding x)
    (hform : w'.form = w.form) : Finds w t finding x := by
  cases h with
  | asks w'' duration question next rest hf =>
    exact .asks w'' duration question next rest (hf.trans hform)
  | ends w'' found hf => exact .ends w'' found (hf.trans hform)

/-- A validation goes on with a specification as far as it got. -/
theorem goOn_finds {progress : Progress Value} {rest : List Value} {more : Option Finding}
    (hmeet : Finds w t more (meet w t rest)) :
    Finds w t (progress.finding? w.form.store.messages more) (goOn w t progress rest) := by
  unfold goOn
  cases progress with
  | waits duration question next => exact .asks w duration question next rest rfl
  | ended r =>
    cases r with
    | error f => exact .ends w (.error f) rfl
    | ok answer =>
      unfold Progress.finding?
      by_cases hpass : Validation.passes answer = true
      · simpa only [if_pos hpass] using hmeet
      · simpa only [if_neg hpass] using Finds.ends w _ rfl

theorem meet_finds (w : World) (t : Ticket) (specs : List Value) :
    Finds w t (specsFinding? w t.value specs) (meet w t specs) := by
  induction specs generalizing w with
  | nil =>
    rw [meet]
    exact .ends w (.ok none) rfl
  | cons spec rest ih =>
    obtain ⟨hf, -⟩ :=
      w.advance_form (Validation.runSpec w.form.registry spec t.value w.form.store.values)
    rw [meet]
    exact (goOn_finds (ih _)).of_form hf

theorem examine_finds (w : World) (t : Ticket) :
    Finds w t (startFinding? w t) (examine w t) := by
  unfold examine startFinding?
  cases specsOf w.form.definition t.name with
  | error f => exact .ends w (.error f) rfl
  | ok specs => exact meet_finds w t specs

/-- **The store is given what a validation finds**, in the turn in which it ends. -/
theorem step_finds (w : World) (busy : Kept → Bool) {task : Task} (answer : Answer) {t : Ticket}
    (h : task.worksOn? w = some t) :
    Finds (task.opened w) t (task.finding? w) (task.step w busy answer) := by
  cases task with
  | started u =>
    obtain rfl := Option.some.inj h
    exact examine_finds w u
  | checking u question next rest =>
    obtain rfl := Option.some.inj h
    obtain ⟨hf, -⟩ := (w.runLogged question).2.advance_form (next (w.runLogged question).1)
    exact (goOn_finds (meet_finds _ u rest)).of_form hf
  | validateField name =>
    obtain rfl := Option.some.inj h
    exact examine_finds _ _
  | _ => exact nomatch h

end Task

end LiveForm
