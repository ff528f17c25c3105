import Mathlib
import LiveForm.Proofs.Value.Table
import LiveForm.AutoSave.Run
import LiveForm.Session.Task

/-!
# The moves of a run

A run that asks for something has just looked at the form. `Run.resume_cases` says for each kind of
request what the run saw: never that it has been superseded. `Task.stepRun_turn` says what becomes of
the form in a turn of a run, and with it everything that a turn of a run can do.
-/

namespace LiveForm

namespace Run

/-! ### Waiting for validations -/

/-- While a run waits, it either goes on waiting, gives up, or has found everything settled. -/
theorem settle_cases (r : Run) (s : Sight) (names : FieldNames) (deadline : Instant)
    (phase : Phase) (move : Move) :
    (∃ o log, r.settle s names deadline phase move = .finish o log) ∨
      (r.superseded s = false ∧ r.settle s names deadline phase move = .pause { r with phase }) ∨
      (r.superseded s = false ∧ (∀ n ∈ names, s.validating n = false) ∧
        r.settle s names deadline phase move = move) := by
  unfold settle
  cases hv : names.any s.validating with
  | true =>
    cases hs : r.superseded s with
    | true => exact Or.inl ⟨.aborted, [], by simp⟩
    | false =>
      by_cases hd : deadline ≤ s.now
      · exact Or.inl ⟨.blocked, _, by simp [hd]; rfl⟩
      · exact Or.inr (Or.inl ⟨rfl, by simp [hd]⟩)
  | false =>
    cases hs : r.superseded s with
    | true => exact Or.inl ⟨.aborted, [], by simp⟩
    | false =>
      refine Or.inr (Or.inr ⟨rfl, ?_, by simp⟩)
      intro n hn
      simpa using List.any_eq_false.1 hv n hn

/-- A run concludes by submitting, unless it has been superseded. -/
theorem conclude_cases (r : Run) (s : Sight) :
    r.conclude s = .finish .aborted [] ∨
      (r.superseded s = false ∧ r.conclude s = .submit { r with phase := .submitting }) := by
  unfold conclude
  cases hs : r.superseded s with
  | true => exact Or.inl (by simp)
  | false => exact Or.inr ⟨rfl, by simp⟩

/-- The run has not yet asked for validations. -/
def isEarly (r : Run) : Prop :=
  r.phase = .created ∨ ∃ deadline, r.phase = .settling deadline

/-- The run has asked for validations, and has not submitted. -/
def isLate (r : Run) : Prop :=
  r.phase = .validating ∨ ∃ passed deadline, r.phase = .confirming passed deadline

theorem isEarly.ne_submitting {r : Run} (h : r.isEarly) : r.phase ≠ .submitting := by
  rcases h with h | ⟨d, h⟩
  · simp [h]
  · simp [h]

theorem isLate.ne_submitting {r : Run} (h : r.isLate) : r.phase ≠ .submitting := by
  rcases h with h | ⟨p, d, h⟩
  · simp [h]
  · simp [h]

/-- The run waits until validations have ended. -/
def isWaiting (r : Run) : Prop :=
  (∃ deadline, r.phase = .settling deadline) ∨ ∃ passed deadline, r.phase = .confirming passed deadline

/-- After the first wait a run blocks, submits, or asks for the validation of its dependents. Unless
it blocks, no changed field has an error. -/
theorem examine_cases (r : Run) (s : Sight) :
    (∃ o log, r.examine s = .finish o log) ∨
      ((∀ n ∈ r.batch.changed, s.invalid n = false) ∧
        ((r.batch.dependents = [] ∧ r.superseded s = false ∧
            r.examine s = .submit { r with phase := .submitting }) ∨
          (r.batch.dependents ≠ [] ∧ r.examine s =
            .validate (FieldName.sorted r.batch.dependents) { r with phase := .validating }))) := by
  unfold examine
  by_cases hi : (FieldName.sorted (r.batch.changed.filter s.invalid)).isEmpty
  · have hvalid : ∀ n ∈ r.batch.changed, s.invalid n = false := by
      intro n hn
      by_contra hc
      have hmem : n ∈ FieldName.sorted (r.batch.changed.filter s.invalid) := by
        simpa [hn] using hc
      rw [List.isEmpty_iff.1 hi] at hmem
      exact absurd hmem (by simp)
    by_cases hd : r.batch.dependents.isEmpty
    · rcases conclude_cases r s with h | ⟨hs, h⟩
      · exact Or.inl ⟨_, _, by simp [hi, hd, h]; exact ⟨rfl, rfl⟩⟩
      · exact Or.inr ⟨hvalid, Or.inl ⟨List.isEmpty_iff.1 hd, hs, by simp [hi, hd, h]⟩⟩
    · exact Or.inr ⟨hvalid, Or.inr ⟨by simpa using hd, by simp [hi, hd]⟩⟩
  · exact Or.inl ⟨.blocked, _, by simp [hi]; rfl⟩

/-- After the second wait a run blocks or submits. Unless it blocks, no dependent field has an
error. -/
theorem confirm_cases (r : Run) (s : Sight) (passed : Bool) :
    (∃ o log, r.confirm s passed = .finish o log) ∨
      ((∀ n ∈ r.batch.dependents, s.invalid n = false) ∧ r.superseded s = false ∧
        r.confirm s passed = .submit { r with phase := .submitting }) := by
  unfold confirm
  by_cases hi : (!passed || r.batch.dependents.any s.invalid) = true
  · exact Or.inl ⟨.blocked, _, by rw [if_pos hi]⟩
  · rw [if_neg hi]
    rcases conclude_cases r s with h | ⟨hs, h⟩
    · exact Or.inl ⟨_, _, h⟩
    · refine Or.inr ⟨?_, hs, h⟩
      intro n hn
      simp only [Bool.or_eq_true, not_or] at hi
      simpa using List.any_eq_false.1 (by simpa using hi.2) n hn

/-! ### What a run saw before it moved -/

/-- No field of the run is being validated, and none of its changed fields has an error. -/
structure IsSettled (r : Run) (s : Sight) : Prop where
  quiet : ∀ n ∈ r.batch.fields, s.validating n = false
  valid : ∀ n ∈ r.batch.changed, s.invalid n = false

/-- No dependent field of the run is being validated, and none has an error. -/
structure IsConfirmed (r : Run) (s : Sight) : Prop where
  quiet : ∀ n ∈ r.batch.dependents, s.validating n = false
  valid : ∀ n ∈ r.batch.dependents, s.invalid n = false

theorem resume_early {r : Run} (h : r.isEarly) (s : Sight) (answer : Except Fault Bool) :
    ∃ d, r.resume s answer = r.settle s r.batch.fields d (.settling d) (r.examine s) := by
  rcases h with h | ⟨d, h⟩
  · exact ⟨s.now + s.patience, by simp only [resume, h]⟩
  · exact ⟨d, by simp only [resume, h]⟩

theorem resume_late {r : Run} (h : r.isLate) (s : Sight) (answer : Except Fault Bool) :
    (∃ o log, r.resume s answer = .finish o log) ∨
      ∃ p d, r.resume s answer =
        r.settle s r.batch.dependents d (.confirming p d) (r.confirm s p) := by
  rcases h with h | ⟨p, d, h⟩
  · simp only [resume, h]
    cases answer with
    | error f => exact Or.inl ⟨_, _, rfl⟩
    | ok p =>
      cases hs : r.superseded s with
      | true => exact Or.inl ⟨.aborted, [], by simp⟩
      | false => exact Or.inr ⟨p, s.now + s.patience, by simp⟩
  · exact Or.inr ⟨p, d, by simp only [resume, h]⟩

theorem resume_submitting {r : Run} (h : r.phase = .submitting) (s : Sight)
    (answer : Except Fault Bool) : ∃ o log, r.resume s answer = .finish o log := by
  simp only [resume, h]
  cases answer with
  | error f => exact ⟨_, _, rfl⟩
  | ok b => exact ⟨_, _, rfl⟩

theorem phase_cases (r : Run) : r.isEarly ∨ r.isLate ∨ r.phase = .submitting := by
  cases h : r.phase with
  | created => exact Or.inl (Or.inl h)
  | settling d => exact Or.inl (Or.inr ⟨d, h⟩)
  | validating => exact Or.inr (Or.inl (Or.inl h))
  | confirming p d => exact Or.inr (Or.inl (Or.inr ⟨p, d, h⟩))
  | submitting => exact Or.inr (Or.inr rfl)

/-- A run that has not submitted is about to wait, or waits. -/
theorem first_or_waiting (r : Run) (h : r.phase ≠ .submitting) :
    (r.phase = .created ∨ r.phase = .validating) ∨ r.isWaiting := by
  cases hphase : r.phase with
  | created => exact Or.inl (Or.inl rfl)
  | settling d => exact Or.inr (Or.inl ⟨d, hphase⟩)
  | validating => exact Or.inl (Or.inr rfl)
  | confirming p d => exact Or.inr (Or.inr ⟨p, d, hphase⟩)
  | submitting => exact absurd hphase h

/-- **All moves of a run.** A run that does not end has not been superseded. It pauses in the wait
at which it was, or the wait is over: then it asks for the validation of its dependents, or it
submits. -/
theorem resume_cases (r : Run) (s : Sight) (answer : Except Fault Bool) :
    (∃ o log, r.resume s answer = .finish o log) ∨
      r.superseded s = false ∧
        ((r.isEarly ∧ ∃ d, r.resume s answer = .pause { r with phase := .settling d }) ∨
          (r.isLate ∧ ∃ p d, r.resume s answer = .pause { r with phase := .confirming p d }) ∨
          (r.isEarly ∧ r.IsSettled s ∧ r.batch.dependents ≠ [] ∧ r.resume s answer =
            .validate (FieldName.sorted r.batch.dependents) { r with phase := .validating }) ∨
          (r.isEarly ∧ r.IsSettled s ∧ r.batch.dependents = [] ∧
            r.resume s answer = .submit { r with phase := .submitting }) ∨
          (r.isLate ∧ r.IsConfirmed s ∧
            r.resume s answer = .submit { r with phase := .submitting })) := by
  rcases phase_cases r with he | hl | hs
  · obtain ⟨d, hr⟩ := resume_early he s answer
    rw [hr]
    rcases settle_cases r s r.batch.fields d (.settling d) (r.examine s) with
      h | ⟨hs, h⟩ | ⟨hs, hq, h⟩
    · exact Or.inl h
    · exact Or.inr ⟨hs, Or.inl ⟨he, d, h⟩⟩
    · rw [h]
      rcases examine_cases r s with h | ⟨hv, ⟨hd, _, h⟩ | ⟨hd, h⟩⟩
      · exact Or.inl h
      · exact Or.inr ⟨hs, Or.inr (Or.inr (Or.inr (Or.inl ⟨he, ⟨hq, hv⟩, hd, h⟩)))⟩
      · exact Or.inr ⟨hs, Or.inr (Or.inr (Or.inl ⟨he, ⟨hq, hv⟩, hd, h⟩))⟩
  · rcases resume_late hl s answer with h | ⟨p, d, hr⟩
    · exact Or.inl h
    · rw [hr]
      rcases settle_cases r s r.batch.dependents d (.confirming p d) (r.confirm s p) with
        h | ⟨hs, h⟩ | ⟨hs, hq, h⟩
      · exact Or.inl h
      · exact Or.inr ⟨hs, Or.inr (Or.inl ⟨hl, p, d, h⟩)⟩
      · rw [h]
        rcases confirm_cases r s p with h | ⟨hv, _, h⟩
        · exact Or.inl h
        · exact Or.inr ⟨hs, Or.inr (Or.inr (Or.inr (Or.inr ⟨hl, ⟨hq, hv⟩, h⟩)))⟩
  · exact Or.inl (resume_submitting hs s answer)

/-- The waits of the run are over, and it may submit. -/
def MaySubmit (r : Run) (s : Sight) : Prop :=
  (r.isEarly ∧ r.IsSettled s ∧ r.batch.dependents = []) ∨ (r.isLate ∧ r.IsConfirmed s)

end Run

/-! ### Turns -/

namespace World

/-- The world in which a run takes its turn: with its first turn it enters. -/
def entered (w : World) (r : Run) : World :=
  if r.phase == .created then w.withAutoSave AutoSave.enter else w

variable (w : World) (r : Run)

/-- Entering only counts the run. -/
theorem entered_eq : ∃ n, w.entered r = w.withAutoSave fun a => { a with executing := n } := by
  unfold entered
  split
  · exact ⟨_, rfl⟩
  · exact ⟨w.form.autoSave.executing, rfl⟩

@[simp] theorem entered_store : (w.entered r).form.store = w.form.store := by
  obtain ⟨n, h⟩ := w.entered_eq r
  rw [h]; rfl

@[simp] theorem entered_version :
    (w.entered r).form.autoSave.version = w.form.autoSave.version := by
  obtain ⟨n, h⟩ := w.entered_eq r
  rw [h]; rfl

@[simp] theorem entered_pending :
    (w.entered r).form.autoSave.pending = w.form.autoSave.pending := by
  obtain ⟨n, h⟩ := w.entered_eq r
  rw [h]; rfl

@[simp] theorem entered_held : (w.entered r).form.autoSave.held = w.form.autoSave.held := by
  obtain ⟨n, h⟩ := w.entered_eq r
  rw [h]; rfl

end World

/-! ### The books -/

namespace AutoSave

variable (a : AutoSave) (version : Nat)

@[simp] theorem leave_version (o : Outcome) : (a.leave version o).version = a.version := by
  unfold leave
  split
  · split <;> rfl
  · rfl

@[simp] theorem leave_held (o : Outcome) :
    (a.leave version o).held = Table.drop version a.held := by
  unfold leave
  split
  · split <;> rfl
  · rfl

/-- What a run is given, and what its start leaves behind. -/
theorem start?_eq {a saving : AutoSave} {r : Assignment} (h : a.start? = some (r, saving)) :
    r = ⟨a.version + 1, a.collected⟩ ∧ saving =
      { a with version := r.version, pending := {}, held := [(r.version, r.batch)] } := by
  unfold start? at h
  split at h
  · exact absurd h (by simp)
  · obtain ⟨rfl, rfl⟩ := Prod.mk.inj (Option.some.inj h)
    exact ⟨rfl, rfl⟩

/-- The field has changed, and it waits for a run or is held by one. -/
def Owes (f : FieldName) : Prop :=
  f ∈ a.pending.changed ∨ ∃ e ∈ a.held, f ∈ e.2.changed

/-- A run is to save all fields that have changed. -/
theorem mem_collected {f : FieldName} : f ∈ a.collected.changed ↔ a.Owes f := by
  have hfold : ∀ (held : Table Nat Batch) (b : Batch),
      f ∈ (held.foldl (fun acc e => acc.union e.2) b).changed ↔
        f ∈ b.changed ∨ ∃ e ∈ held, f ∈ e.2.changed := by
    intro held
    induction held with
    | nil => simp
    | cons e rest ih =>
      intro b
      rw [List.foldl_cons, ih]
      simp [Batch.union, Names.mem_union, or_assoc]
  exact hfold a.held a.pending

/-- The end of a run adds no field to those that have changed. -/
theorem owes_of_leave {f : FieldName} {o : Outcome} (h : (a.leave version o).Owes f) :
    a.Owes f := by
  rcases h with hpending | ⟨e, he, hf⟩
  · unfold leave at hpending
    split at hpending
    · split at hpending
      · rename_i batch hbatch
        rcases Names.mem_union.1 hpending with hold | hheld
        · exact Or.inl hold
        · exact Or.inr ⟨(version, batch), Table.mem_of_get? hbatch, hheld⟩
      · exact Or.inl hpending
    · exact Or.inl hpending
  · rw [leave_held] at he
    exact Or.inr ⟨e, (List.mem_filter.1 he).1, hf⟩

/-- The start of a run adds no field to those that have changed. -/
theorem owes_of_start? {a saving : AutoSave} {r : Assignment} (h : a.start? = some (r, saving))
    {f : FieldName} (hf : saving.Owes f) : a.Owes f := by
  obtain ⟨rfl, rfl⟩ := start?_eq h
  rcases hf with hpending | ⟨e, he, hchanged⟩
  · exact absurd hpending (by simp)
  · obtain rfl := List.mem_singleton.1 he
    exact a.mem_collected.1 hchanged

end AutoSave

/-- Two states of saving agree on the version, on what waits, and on what runs hold. -/
structure SameBooks (a b : AutoSave) : Prop where
  version : b.version = a.version
  pending : b.pending = a.pending
  held : b.held = a.held

namespace SameBooks

theorem refl (a : AutoSave) : SameBooks a a := ⟨rfl, rfl, rfl⟩

theorem entered (w : World) (r : Run) :
    SameBooks w.form.autoSave (w.entered r).form.autoSave :=
  ⟨w.entered_version r, w.entered_pending r, w.entered_held r⟩

/-- What a run leaves behind depends on the books only. -/
theorem leave {a b : AutoSave} (h : SameBooks a b) (version : Nat) (o : Outcome) :
    SameBooks (a.leave version o) (b.leave version o) := by
  obtain ⟨hv, hp, hh⟩ := h
  unfold AutoSave.leave
  cases ho : o == .aborted with
  | false => exact ⟨hv, hp, by simp [hh]⟩
  | true =>
    simp only [if_true, hh]
    cases Table.get? version a.held with
    | none => exact ⟨hv, hp, rfl⟩
    | some batch => exact ⟨hv, by simp [hp], rfl⟩

end SameBooks

namespace Task

/-- What a turn of a run does, and what the run has seen when it does so. -/
inductive RunTurn (w : World) (r : Run) : Next × World → Prop
  | leaves (o : Outcome) (log : Log) : RunTurn w r (leaveRun w r o log)
  | settles (pause : Nat) (a : Answer) (deadline : Instant) :
      w.form.autoSave.version = r.version → r.isEarly →
      RunTurn w r (.pause pause a (.run { r with phase := .settling deadline }), w)
  | confirms (pause : Nat) (a : Answer) (passed : Bool) (deadline : Instant) :
      w.form.autoSave.version = r.version → r.isLate →
      RunTurn w r (.pause pause a (.run { r with phase := .confirming passed deadline }), w)
  | asks : w.form.autoSave.version = r.version → r.isEarly → r.IsSettled (sight w) →
      r.batch.dependents ≠ [] →
      RunTurn w r (.gather ((FieldName.sorted r.batch.dependents).map .validateField)
        (.run { r with phase := .validating }), w)
  | submits (pause : Nat) (a : Answer) :
      w.form.autoSave.version = r.version → r.MaySubmit (sight w) →
      RunTurn w r (.pause pause a (.run { r with phase := .submitting }), w.submit.2)
  | submitsAndLeaves (o : Outcome) (log : Log) :
      w.form.autoSave.version = r.version → r.MaySubmit (sight w) →
      RunTurn w r (leaveRun w.submit.2 r o log)

/-- A run that submits waits for the host, or ends if the host takes the values in at once, and it is
not aborted then. -/
theorem grant_submit (w : World) (r r' : Run) :
    (∃ pause a, grant w r (.submit r') = (.pause pause a (.run r'), w.submit.2)) ∨
      ∃ o log, o ≠ .aborted ∧ grant w r (.submit r') = leaveRun w.submit.2 r o log := by
  simp only [grant]
  cases hd : w.submit.1.takes with
  | some d => exact Or.inl ⟨_, _, rfl⟩
  | none =>
    cases ha : w.submit.1.answer with
    | ok u => exact Or.inr ⟨.submitted, _, by simp, rfl⟩
    | error f => exact Or.inr ⟨.failed, _, by simp, rfl⟩

/-- **Every turn of a run is one of these.** -/
theorem stepRun_turn (w : World) (r : Run) (answer : Answer) :
    RunTurn (w.entered r) r (stepRun w r answer) := by
  have hstep : stepRun w r answer = grant (w.entered r) r
      (r.resume (sight (w.entered r)) (answer.map Reply.holds)) := rfl
  rw [hstep]
  have current : r.superseded (sight (w.entered r)) = false →
      (w.entered r).form.autoSave.version = r.version := by
    intro h
    simpa [Run.superseded, sight] using h
  -- a submission that the host takes in at once also ends the run
  have submission : ∀ r', (w.entered r).form.autoSave.version = r.version →
      r.MaySubmit (sight (w.entered r)) → r' = { r with phase := .submitting } →
      RunTurn (w.entered r) r (grant (w.entered r) r (.submit r')) := by
    rintro r' hv hm rfl
    rcases grant_submit (w.entered r) r { r with phase := .submitting } with
      ⟨p, a, h⟩ | ⟨o, l, -, h⟩
    · rw [h]
      exact .submits p a hv hm
    · rw [h]
      exact .submitsAndLeaves o l hv hm
  rcases r.resume_cases (sight (w.entered r)) (answer.map Reply.holds) with
    ⟨o, log, h⟩ | ⟨hs, ⟨he, d, h⟩ | ⟨hl, p, d, h⟩ | ⟨he, hq, hd, h⟩ | ⟨he, hq, hd, h⟩ | ⟨hl, hq, h⟩⟩
  · rw [h]
    exact .leaves o log
  · rw [h]
    exact .settles _ _ d (current hs) he
  · rw [h]
    exact .confirms _ _ p d (current hs) hl
  · rw [h]
    exact .asks (current hs) he hq hd
  · rw [h]
    exact submission _ (current hs) (Or.inl ⟨he, hq, hd⟩) rfl
  · rw [h]
    exact submission _ (current hs) (Or.inr ⟨hl, hq⟩) rfl

end Task

end LiveForm
