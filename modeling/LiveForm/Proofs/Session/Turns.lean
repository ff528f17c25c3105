import Mathlib
import LiveForm.Proofs.AutoSave.Moves
import LiveForm.Proofs.Form.Validations
import LiveForm.Proofs.Session.Live

/-!
# Turns

What a task of a form that saves itself can do in its turn. A validation goes on to the next question
to the host or ends with what it has found; a validation of a field begins first; a run makes one of
its moves; and what waits for others or saves at once leaves the store alone. `Task.step_turn` says
that there is nothing else.
-/

namespace LiveForm

namespace World

/-- Going on with a validation leaves the form and the host alone. -/
theorem advance_form {α : Type} (w : World) (c : Checking α) :
    (w.advance c).2.form = w.form ∧ (w.advance c).2.host = w.host := by
  induction c generalizing w with
  | done a => exact ⟨rfl, rfl⟩
  | fail f => exact ⟨rfl, rfl⟩
  | say e next ih => exact ih (w.write [e])
  | ask ref value values next ih =>
    unfold advance
    simp only []
    split
    · exact ⟨rfl, rfl⟩
    · exact ih _ _

/-- The host is the same, and of the form the values and what it has been given, and time still
passes. The version is no lower, and no more fields have changed. -/
structure Steady (w w' : World) : Prop where
  host : w'.host = w.host
  definition : w'.form.definition = w.form.definition
  registry : w'.form.registry = w.form.registry
  graph : w'.form.graph = w.form.graph
  clock : w.form.clock.isSome = true → w'.form.clock.isSome = true
  values : w'.form.store.values = w.form.store.values
  waiting : w'.form.store.waiting = w.form.store.waiting
  version : w.form.autoSave.version ≤ w'.form.autoSave.version
  owes : ∀ f, w'.form.autoSave.Owes f → w.form.autoSave.Owes f

namespace Steady

variable {w w' w'' : World}

theorem of_form (hhost : w'.host = w.host) (hform : w'.form = w.form) : w.Steady w' := by
  refine ⟨hhost, ?_, ?_, ?_, fun h => ?_, ?_, ?_, ?_, fun f hf => ?_⟩
  all_goals rw [hform] at *
  · exact h
  · exact hf

theorem trans (h : w.Steady w') (g : w'.Steady w'') : w.Steady w'' where
  host := g.host.trans h.host
  definition := g.definition.trans h.definition
  registry := g.registry.trans h.registry
  graph := g.graph.trans h.graph
  clock := fun hclock => g.clock (h.clock hclock)
  values := g.values.trans h.values
  waiting := g.waiting.trans h.waiting
  version := Nat.le_trans h.version g.version
  owes := fun f hf => h.owes f (g.owes f hf)

/-- The form is in the same host, and has what it has been made with. -/
theorem setting (h : w.Steady w') : w'.host = w.host ∧
    w'.form.definition = w.form.definition ∧ w'.form.registry = w.form.registry :=
  ⟨h.host, h.definition, h.registry⟩

/-- Another store with the same values in which the same validations wait, or another state of
saving with no lower version and no more fields that have changed. -/
theorem of_parts {store : Store} {saving : AutoSave} (hhost : w'.host = w.host)
    (hform : w'.form = { w.form with store, autoSave := saving })
    (hvalues : store.values = w.form.store.values)
    (hwaiting : store.waiting = w.form.store.waiting)
    (hversion : w.form.autoSave.version ≤ saving.version)
    (howes : ∀ f, saving.Owes f → w.form.autoSave.Owes f) : w.Steady w' := by
  refine ⟨hhost, ?_, ?_, ?_, fun h => ?_, ?_, ?_, ?_, ?_⟩
  all_goals rw [hform]
  · exact h
  · exact hvalues
  · exact hwaiting
  · exact hversion
  · exact howes

end Steady

end World

namespace Task

/-- The validation that the task works on, if it has begun one. -/
def ticket? : Task → Option Ticket
  | .started t => some t
  | .checking t _ _ _ => some t
  | _ => none

/-- The task works on a validation of the field. -/
def validates (name : FieldName) (task : Task) : Bool :=
  task.ticket?.any fun t => t.name == name

/-- The task waits for others or for a time, and may save at once. -/
def IsPlain : Task → Prop
  | .sleep _ => True
  | .flush => True
  | .saveNow => True
  | .waitIdle => True
  | .waitRuns => True
  | .ending => True
  | _ => False

/-- A task that goes on in a form that saves itself: it validates a field, saves, or is plain. -/
def IsUsual : Task → Prop
  | .validate _ => False
  | .submit => False
  | .submitPassed => False
  | _ => True

/-- What a plain task does next. -/
inductive PlainNext : Next → Prop
  | pause (duration : Nat) (a : Answer) (task : Task) : task.IsPlain →
      PlainNext (.pause duration a task)
  | settle (kept : Kept) (task : Task) : task.IsPlain → PlainNext (.settle kept task)
  | finish (a : Answer) : PlainNext (.finish a)

/-- What a validation that has begun does in its turn. -/
inductive CheckTurn (w : World) (t : Ticket) : Next × World → Prop
  | asks (w' : World) (duration : Nat) (question : Logged Value)
      (next : Except Fault Value → Checking Value) (rest : List Value) :
      w'.form = w.form → w'.host = w.host →
      CheckTurn w t (.pause duration (.ok .nothing) (.checking t question next rest), w')
  | ends (w' : World) (found : Except Fault (Option Issue)) :
      w'.form = w.form → w'.host = w.host → CheckTurn w t (conclude w' t found)

/-- What a task does in its turn. -/
inductive TaskTurn (w : World) : Task → Next × World → Prop
  | checks (task : Task) (t : Ticket) (x : Next × World) : task.ticket? = some t →
      CheckTurn w t x → TaskTurn w task x
  | begins (name : FieldName) (x : Next × World) :
      CheckTurn (w.withStore fun s => (s.begin name (s.value name)).2)
        (w.form.store.begin name (w.form.store.value name)).1 x →
      TaskTurn w (.validateField name) x
  | runs (r : Run) (x : Next × World) : RunTurn (w.entered r) r x → TaskTurn w (.run r) x
  | starts (task : Task) (a : Assignment) (saving : AutoSave) : task.IsPlain →
      w.form.autoSave.disarm.start? = some (a, saving) →
      TaskTurn w task (.follow a .ending, w.withAutoSave fun _ => saving)
  | rests (task : Task) (next : Next) (f : AutoSave → AutoSave) : task.IsPlain →
      PlainNext next → f = id ∨ f = AutoSave.disarm → TaskTurn w task (next, w.withAutoSave f)

/-! ### Validations -/

theorem CheckTurn.of_form {w w' : World} {t : Ticket} {x : Next × World} (h : CheckTurn w' t x)
    (hform : w'.form = w.form) (hhost : w'.host = w.host) : CheckTurn w t x := by
  cases h with
  | asks w'' duration question next rest hf hh =>
    exact .asks w'' duration question next rest (hf.trans hform) (hh.trans hhost)
  | ends w'' found hf hh => exact .ends w'' found (hf.trans hform) (hh.trans hhost)

theorem goOn_turn_of {w : World} {t : Ticket} {progress : Progress Value} {rest : List Value}
    (hmeet : CheckTurn w t (meet w t rest)) : CheckTurn w t (goOn w t progress rest) := by
  unfold goOn
  cases progress with
  | waits duration question next => exact .asks w duration question next rest rfl rfl
  | ended r =>
    cases r with
    | error f => exact .ends w (.error f) rfl rfl
    | ok answer =>
      simp only []
      split
      · exact hmeet
      · exact .ends w _ rfl rfl

theorem meet_turn (w : World) (t : Ticket) (specs : List Value) :
    CheckTurn w t (meet w t specs) := by
  induction specs generalizing w with
  | nil =>
    unfold meet
    exact .ends w (.ok none) rfl rfl
  | cons spec rest ih =>
    have hmeet : meet w t (spec :: rest) =
        goOn (w.advance (Validation.runSpec w.form.registry spec t.value w.form.store.values)).2 t
          (w.advance (Validation.runSpec w.form.registry spec t.value w.form.store.values)).1
          rest := by
      rw [meet]
    obtain ⟨hf, hh⟩ :=
      w.advance_form (Validation.runSpec w.form.registry spec t.value w.form.store.values)
    rw [hmeet]
    exact (goOn_turn_of (ih _)).of_form hf hh

theorem examine_turn (w : World) (t : Ticket) : CheckTurn w t (examine w t) := by
  unfold examine
  cases specsOf w.form.definition t.name with
  | error f => exact .ends w (.error f) rfl rfl
  | ok specs => exact meet_turn w t specs

/-- A validation that has asked goes on with the answer. -/
theorem checking_turn (w : World) (busy : Kept → Bool) (t : Ticket) (question : Logged Value)
    (next : Except Fault Value → Checking Value) (rest : List Value) (answer : Answer) :
    CheckTurn w t (step w busy (.checking t question next rest) answer) := by
  obtain ⟨hf, hh⟩ := (w.runLogged question).2.advance_form (next (w.runLogged question).1)
  exact (goOn_turn_of (meet_turn _ t rest)).of_form hf hh

/-! ### Plain tasks -/

theorem saveAtOnce_turn (w : World) (task : Task) (h : task.IsPlain) :
    TaskTurn w task (saveAtOnce w) := by
  unfold saveAtOnce
  have hsaving : (w.withAutoSave AutoSave.disarm).form.autoSave = w.form.autoSave.disarm := rfl
  simp only [hsaving]
  cases hs : w.form.autoSave.disarm.start? with
  | none => exact .rests task _ AutoSave.disarm h (.finish _) (Or.inr rfl)
  | some found =>
    obtain ⟨a, saving⟩ := found
    exact .starts task a saving h hs

/-- A plain task that leaves the world as it is. -/
theorem rests_turn (w : World) (task : Task) (h : task.IsPlain) {next : Next}
    (hnext : PlainNext next) : TaskTurn w task (next, w) :=
  .rests task next id h hnext (Or.inl rfl)

/-- **Every turn of a usual task is one of these.** -/
theorem step_turn (w : World) (busy : Kept → Bool) {task : Task} (h : task.IsUsual)
    (answer : Answer) : TaskTurn w task (task.step w busy answer) := by
  cases task with
  | started t => exact .checks _ t _ rfl (examine_turn w t)
  | checking t question next rest =>
    exact .checks _ t _ rfl (checking_turn w busy t question next rest answer)
  | run r => exact .runs r _ (stepRun_turn w r answer)
  | sleep duration => exact rests_turn w (.sleep duration) trivial (.pause _ _ _ trivial)
  | validateField name => exact .begins name _ (examine_turn _ _)
  | validate names => exact absurd h id
  | submit => exact absurd h id
  | submitPassed => exact absurd h id
  | flush =>
    unfold step
    simp only []
    split
    · exact rests_turn w .flush trivial (.settle _ _ trivial)
    · exact saveAtOnce_turn w .flush trivial
  | saveNow => exact saveAtOnce_turn w .saveNow trivial
  | waitIdle =>
    unfold step
    simp only []
    split
    · exact rests_turn w .waitIdle trivial (.settle _ _ trivial)
    · split
      · exact rests_turn w .waitIdle trivial (.settle _ _ trivial)
      · exact rests_turn w .waitIdle trivial (.finish _)
  | waitRuns =>
    unfold step
    simp only []
    split
    · exact rests_turn w .waitRuns trivial (.settle _ _ trivial)
    · exact rests_turn w .waitRuns trivial (.finish _)
  | ending => exact rests_turn w .ending trivial (.finish _)

/-! ### What turns leave alone -/

/-- What a run does to the form in its turn: it may submit the values, if it has the version of the
form and its waits are over, and else only the state of saving changes, but not the version. -/
theorem RunTurn.form {w : World} {r : Run} {x : Next × World} (h : RunTurn w r x) :
    x.2.host = w.host ∧ ∃ saving : AutoSave, saving.version = w.form.autoSave.version ∧
      (∀ f, saving.Owes f → w.form.autoSave.Owes f) ∧
      (x.2.form = { w.form with autoSave := saving } ∨
        (w.form.autoSave.version = r.version ∧ r.MaySubmit (sight w) ∧
          x.2.form = { w.form with
            autoSave := saving, store := w.form.store.submit w.form.store.values })) := by
  have hsame : ∀ f, w.form.autoSave.Owes f → w.form.autoSave.Owes f := fun _ h => h
  have hleave : ∀ o f, (w.form.autoSave.leave r.version o).Owes f → w.form.autoSave.Owes f :=
    fun o f => AutoSave.owes_of_leave _ _
  cases h with
  | leaves o log =>
    exact ⟨rfl, w.form.autoSave.leave r.version o, AutoSave.leave_version _ _ _, hleave o,
      Or.inl rfl⟩
  | settles pause a d _ _ => exact ⟨rfl, w.form.autoSave, rfl, hsame, Or.inl rfl⟩
  | confirms pause a p d _ _ => exact ⟨rfl, w.form.autoSave, rfl, hsame, Or.inl rfl⟩
  | asks _ _ _ _ => exact ⟨rfl, w.form.autoSave, rfl, hsame, Or.inl rfl⟩
  | submits pause a hv hm => exact ⟨rfl, w.form.autoSave, rfl, hsame, Or.inr ⟨hv, hm, rfl⟩⟩
  | submitsAndLeaves o log hv hm =>
    exact ⟨rfl, w.form.autoSave.leave r.version o, AutoSave.leave_version _ _ _, hleave o,
      Or.inr ⟨hv, hm, rfl⟩⟩

/-- What a validation does to the form in its turn: if it goes on, nothing, and if it ends, the
store takes down what it has found. -/
theorem CheckTurn.effect {w : World} {t : Ticket} {x : Next × World} (h : CheckTurn w t x) :
    x.2.host = w.host ∧ x.1.children = [] ∧
      ((x.2.form = w.form ∧ ∃ question next rest,
          x.1.task? = some (.checking t question next rest)) ∨
        ∃ found, x.2.form = { w.form with store := w.form.store.finish t found } ∧
          x.1.task? = none) := by
  cases h with
  | asks w' duration question next rest hf hh =>
    exact ⟨hh, rfl, Or.inl ⟨hf, question, next, rest, rfl⟩⟩
  | ends w' found hf hh =>
    refine ⟨hh, rfl, Or.inr ⟨found, ?_, rfl⟩⟩
    show { w'.form with store := w'.form.store.finish t found } = _
    rw [hf]

/-- How a validation that has begun counts: it goes on counting or has been taken off. -/
theorem CheckTurn.counted {w : World} {t : Ticket} {x : Next × World} (h : CheckTurn w t x)
    (f : FieldName) :
    (x.1.task?.elim 0 fun task => (task.validates f).toNat) + w.form.store.underway f ≤
      x.2.form.store.underway f + (t.name == f).toNat := by
  obtain ⟨-, -, ⟨hf, question, next, rest, hq⟩ | ⟨found, hf, hnone⟩⟩ := h.effect
  · rw [hf, hq]
    show (t.name == f).toNat + _ ≤ _
    omega
  · have hu := w.form.store.finish_underway f t found
    rw [hf, hnone]
    show 0 + _ ≤ (w.form.store.finish t found).underway f + _
    omega

/-- A validation that has begun is known of in its own field only. -/
theorem CheckTurn.quiet {w : World} {t : Ticket} {x : Next × World} (h : CheckTurn w t x)
    {f : FieldName} (hne : t.name ≠ f) :
    x.2.form.store.underway f = w.form.store.underway f ∧
      x.2.form.store.error? f = w.form.store.error? f := by
  obtain ⟨-, -, ⟨hf, -⟩ | ⟨found, hf, -⟩⟩ := h.effect
  · rw [hf]
    exact ⟨rfl, rfl⟩
  · have hunder := w.form.store.finish_underway f t found
    rw [beq_eq_false_iff_ne.2 hne] at hunder
    rw [hf]
    exact ⟨hunder, w.form.store.finish_error?_of_ne f t found hne⟩

/-- A validation submits nothing. -/
theorem CheckTurn.submitted {w : World} {t : Ticket} {x : Next × World} (h : CheckTurn w t x) :
    x.2.form.store.submitted = w.form.store.submitted := by
  obtain ⟨-, -, ⟨hf, -⟩ | ⟨found, hf, -⟩⟩ := h.effect
  · rw [hf]
  · rw [hf]
    exact Store.finish_submitted _ t found

/-- What becomes of a run in its turn: it ends, or goes on with the same fields, and starts
validations only when it asks for them. -/
theorem RunTurn.effect {w : World} {r : Run} {x : Next × World} (h : RunTurn w r x) :
    (x.1.children = [] ∧
        (x.1.task? = none ∨ ∃ phase, x.1.task? = some (.run { r with phase }))) ∨
      (w.form.autoSave.version = r.version ∧ r.isEarly ∧ r.IsSettled (sight w) ∧
        x.2.form = w.form ∧
        x.1 = .gather ((FieldName.sorted r.batch.dependents).map .validateField)
          (.run { r with phase := .validating })) := by
  cases h with
  | leaves o log => exact Or.inl ⟨rfl, Or.inl rfl⟩
  | settles pause a d _ _ => exact Or.inl ⟨rfl, Or.inr ⟨_, rfl⟩⟩
  | confirms pause a p d _ _ => exact Or.inl ⟨rfl, Or.inr ⟨_, rfl⟩⟩
  | asks hv he hs _ => exact Or.inr ⟨hv, he, hs, rfl, rfl⟩
  | submits pause a _ _ => exact Or.inl ⟨rfl, Or.inr ⟨_, rfl⟩⟩
  | submitsAndLeaves o log _ _ => exact Or.inl ⟨rfl, Or.inl rfl⟩

/-- A run that goes on has the version of the form. It waits in the wait at which it was, or it has
asked for validations, or it has submitted. -/
theorem RunTurn.goes_on {w : World} {r r' : Run} {x : Next × World} (h : RunTurn w r x)
    (ht : x.1.task? = some (.run r')) :
    w.form.autoSave.version = r.version ∧ r'.batch = r.batch ∧
      ((r.isEarly ∧ (∃ d, r'.phase = .settling d) ∧ x.1.children = [] ∧ x.2.form = w.form) ∨
        (r.isLate ∧ (∃ p d, r'.phase = .confirming p d) ∧ x.1.children = [] ∧
          x.2.form = w.form) ∨
        (r.isEarly ∧ r.IsSettled (sight w) ∧ r'.phase = .validating ∧ x.2.form = w.form ∧
          x.1 = .gather ((FieldName.sorted r.batch.dependents).map .validateField) (.run r')) ∨
        r'.phase = .submitting) := by
  cases h with
  | leaves o log => exact absurd ht (by simp [leaveRun, Next.task?])
  | settles pause a d hv he =>
    obtain rfl := Task.run.inj (Option.some.inj ht)
    exact ⟨hv, rfl, Or.inl ⟨he, ⟨d, rfl⟩, rfl, rfl⟩⟩
  | confirms pause a p d hv hl =>
    obtain rfl := Task.run.inj (Option.some.inj ht)
    exact ⟨hv, rfl, Or.inr (Or.inl ⟨hl, ⟨p, d, rfl⟩, rfl, rfl⟩)⟩
  | asks hv he hs _ =>
    obtain rfl := Task.run.inj (Option.some.inj ht)
    exact ⟨hv, rfl, Or.inr (Or.inr (Or.inl ⟨he, hs, rfl, rfl, rfl⟩))⟩
  | submits pause a hv _ =>
    obtain rfl := Task.run.inj (Option.some.inj ht)
    exact ⟨hv, rfl, Or.inr (Or.inr (Or.inr rfl))⟩
  | submitsAndLeaves o log _ _ => exact absurd ht (by simp [leaveRun, Next.task?])

theorem PlainNext.effect {next : Next} (h : PlainNext next) :
    next.children = [] ∧ (next.task? = none ∨ ∃ task, next.task? = some task ∧ task.IsPlain) := by
  cases h with
  | pause duration a task ht => exact ⟨rfl, Or.inr ⟨task, rfl, ht⟩⟩
  | settle kept task ht => exact ⟨rfl, Or.inr ⟨task, rfl, ht⟩⟩
  | finish a => exact ⟨rfl, Or.inl rfl⟩

theorem IsPlain.isUsual {task : Task} (h : task.IsPlain) : task.IsUsual := by
  cases task with
  | validate names => exact absurd h id
  | submit => exact absurd h id
  | submitPassed => exact absurd h id
  | _ => trivial

theorem IsPlain.ticket?_eq_none {task : Task} (h : task.IsPlain) : task.ticket? = none := by
  cases task with
  | started t => exact absurd h id
  | checking t question next rest => exact absurd h id
  | _ => rfl

namespace TaskTurn

variable {w : World} {task : Task} {x : Next × World}

/-- A turn changes neither the values of the form nor what the form has been given. -/
theorem steady (h : TaskTurn w task x) : w.Steady x.2 := by
  have checking : ∀ {w' : World} {t : Ticket}, w.Steady w' → CheckTurn w' t x → w.Steady x.2 := by
    intro w' t hw hc
    refine hw.trans ?_
    obtain ⟨hhost, -, ⟨hf, -⟩ | ⟨found, hf, -⟩⟩ := hc.effect
    · exact .of_form hhost hf
    · exact .of_parts hhost hf (Store.finish_values _ t found) (Store.finish_waiting _ t found)
        (Nat.le_refl _) (fun _ h => h)
  cases h with
  | checks _ t _ _ hc => exact checking (.of_form rfl rfl) hc
  | begins name _ hc =>
    have hbegun : w.Steady (w.withStore fun s => (s.begin name (s.value name)).2) :=
      .of_parts rfl rfl rfl rfl (Nat.le_refl _) (fun _ h => h)
    exact checking hbegun hc
  | runs r _ hr =>
    obtain ⟨n, hn⟩ := w.entered_eq r
    rw [hn] at hr
    obtain ⟨hhost, saving, hv, howes, hf | ⟨-, -, hf⟩⟩ := hr.form
    · exact .of_parts hhost hf rfl rfl (Nat.le_of_eq hv.symm) howes
    · exact .of_parts hhost hf rfl rfl (Nat.le_of_eq hv.symm) howes
  | starts _ a saving _ hs =>
    refine .of_parts rfl rfl rfl rfl ?_ (fun f hf => AutoSave.owes_of_start? hs hf)
    obtain ⟨rfl, rfl⟩ := AutoSave.start?_eq hs
    exact Nat.le_succ _
  | rests _ next f _ _ hf =>
    rcases hf with rfl | rfl
    · exact .of_form rfl rfl
    · exact .of_parts rfl rfl rfl rfl (Nat.le_refl _) (fun _ h => h)

/-- A task becomes a validation that has begun, a run goes on as it is in another phase, or what there
is next is a plain task. -/
theorem becomes (h : TaskTurn w task x) {task' : Task} (ht : x.1.task? = some task') :
    (∃ t question next rest, (task.ticket? = some t ∨ task = .validateField t.name) ∧
        task' = .checking t question next rest) ∨
      (∃ r phase, task = .run r ∧ task' = .run { r with phase }) ∨ task'.IsPlain := by
  cases h with
  | checks _ t _ hticket hc =>
    obtain ⟨-, -, ⟨-, question, next, rest, hq⟩ | ⟨-, -, hnone⟩⟩ := hc.effect
    · exact .inl ⟨t, question, next, rest, .inl hticket, Option.some.inj (ht.symm.trans hq)⟩
    · exact nomatch hnone.symm.trans ht
  | begins name _ hc =>
    obtain ⟨-, -, ⟨-, question, next, rest, hq⟩ | ⟨-, -, hnone⟩⟩ := hc.effect
    · exact .inl ⟨_, question, next, rest, .inr rfl, Option.some.inj (ht.symm.trans hq)⟩
    · exact nomatch hnone.symm.trans ht
  | runs r _ hr =>
    rcases hr.effect with ⟨-, hnone | ⟨phase, hp⟩⟩ | ⟨-, -, -, -, hx⟩
    · exact nomatch hnone.symm.trans ht
    · exact .inr (.inl ⟨r, phase, rfl, Option.some.inj (ht.symm.trans hp)⟩)
    · rw [hx] at ht
      exact .inr (.inl ⟨r, .validating, rfl, (Option.some.inj ht).symm⟩)
  | starts _ a saving _ _ =>
    obtain rfl := Option.some.inj ht
    exact .inr (.inr trivial)
  | rests _ next f _ hp _ =>
    obtain ⟨-, hnone | ⟨task'', hsome, hplain⟩⟩ := hp.effect
    · exact nomatch hnone.symm.trans ht
    · obtain rfl := Option.some.inj (hsome.symm.trans ht)
      exact .inr (.inr hplain)

/-- What a task becomes is usual, and no validation that has still to begin. -/
theorem task_usual (h : TaskTurn w task x) {task' : Task} (ht : x.1.task? = some task') :
    task'.IsUsual ∧ ∀ name, task' ≠ .validateField name := by
  rcases h.becomes ht with ⟨t, question, next, rest, -, rfl⟩ | ⟨r, phase, -, rfl⟩ | hplain
  · exact ⟨trivial, fun _ => Task.noConfusion⟩
  · exact ⟨trivial, fun _ => Task.noConfusion⟩
  · refine ⟨hplain.isUsual, ?_⟩
    rintro name rfl
    exact hplain

/-- Only a run becomes a run, and it keeps its version and its fields. -/
theorem task_run (h : TaskTurn w task x) {r' : Run} (ht : x.1.task? = some (.run r')) :
    ∃ r, task = .run r ∧ r'.version = r.version ∧ r'.batch = r.batch := by
  rcases h.becomes ht with ⟨t, question, next, rest, -, hcheck⟩ | ⟨r, phase, rfl, hrun⟩ | hplain
  · exact Task.noConfusion hcheck
  · obtain rfl := Task.run.inj hrun
    exact ⟨r, rfl, rfl, rfl⟩
  · exact False.elim hplain

/-- Only the turn of a run leaves a run behind. -/
theorem runTurn (h : TaskTurn w task x) {r' : Run} (ht : x.1.task? = some (.run r')) :
    ∃ r, task = .run r ∧ RunTurn (w.entered r) r x := by
  obtain ⟨r, rfl, -⟩ := h.task_run ht
  cases h with
  | checks _ t _ hticket _ => exact absurd hticket (by simp [ticket?])
  | runs _ _ hr => exact ⟨r, rfl, hr⟩
  | starts _ a saving hp _ => exact absurd hp id
  | rests _ next f hp _ _ => exact absurd hp id

/-- A task starts validations only as a run that asks for them, and a run only as a plain task that
saves. -/
theorem child (h : TaskTurn w task x) {child : Task} (hc : child ∈ x.1.children) :
    (∃ r, task = .run r ∧ w.form.autoSave.version = r.version ∧ r.isEarly ∧
        ∃ name ∈ r.batch.dependents, child = .validateField name) ∨
      (task.IsPlain ∧ ∃ a saving, w.form.autoSave.disarm.start? = some (a, saving) ∧
        x.2.form.autoSave = saving ∧ x.1 = .follow a .ending) := by
  cases h with
  | checks _ t _ _ hcheck =>
    rw [hcheck.effect.2.1] at hc
    exact absurd hc (by simp)
  | begins name _ hcheck =>
    rw [hcheck.effect.2.1] at hc
    exact absurd hc (by simp)
  | runs r _ hr =>
    rcases hr.effect with ⟨hnone, -⟩ | ⟨hv, he, -, -, hx⟩
    · rw [hnone] at hc
      exact absurd hc (by simp)
    · rw [hx] at hc
      obtain ⟨name, hname, rfl⟩ := List.mem_map.1 hc
      rw [w.entered_version] at hv
      exact Or.inl ⟨r, rfl, hv, he, name, FieldName.mem_sorted.1 hname, rfl⟩
  | starts _ a saving hp hs => exact Or.inr ⟨hp, a, saving, hs, rfl, rfl⟩
  | rests _ next f _ hp _ =>
    rw [hp.effect.1] at hc
    exact absurd hc (by simp)

theorem child_usual (h : TaskTurn w task x) {child : Task} (hc : child ∈ x.1.children) :
    child.IsUsual ∧ child.ticket? = none := by
  rcases h.child hc with ⟨r, -, -, -, name, -, rfl⟩ | ⟨-, a, saving, -, -, hx⟩
  · exact ⟨trivial, rfl⟩
  · rw [hx] at hc
    obtain rfl := List.mem_singleton.1 hc
    exact ⟨trivial, rfl⟩

/-- Who starts a run and waits for it then only ends. -/
theorem follow (h : TaskTurn w task x) {a : Assignment} {task' : Task}
    (hx : x.1 = .follow a task') : task' = .ending := by
  have hchild : Task.run (.ofAssignment a) ∈ x.1.children := by
    rw [hx]
    exact List.mem_singleton.2 rfl
  rcases h.child hchild with ⟨-, -, -, -, name, -, hname⟩ | ⟨-, a', saving, -, -, hx'⟩
  · exact absurd hname (by simp)
  · exact (Next.follow.inj (hx.symm.trans hx')).2

theorem child_validates (h : TaskTurn w task x) (f : FieldName) :
    x.1.children.countP (validates f) = 0 := by
  refine List.countP_eq_zero.2 (fun child hc => ?_)
  unfold validates
  rw [(h.child_usual hc).2]
  exact Bool.false_ne_true

/-- A task that does not validate leaves the store alone, unless it submits. -/
theorem unchecked (h : TaskTurn w task x) (hticket : task.ticket? = none)
    (hname : ∀ name, task ≠ .validateField name) :
    (∃ submitted, x.2.form.store = { w.form.store with submitted }) ∧
      ∀ task', x.1.task? = some task' → task'.ticket? = none := by
  refine ⟨?_, fun task' ht => ?_⟩
  · cases h with
    | checks _ t _ ht _ => exact nomatch hticket.symm.trans ht
    | begins name _ _ => exact absurd rfl (hname name)
    | runs r _ hr =>
      obtain ⟨n, hn⟩ := w.entered_eq r
      obtain ⟨-, saving, -, -, hf | ⟨-, -, hf⟩⟩ := hr.form
      · exact ⟨w.form.store.submitted, by rw [hf, hn]; rfl⟩
      · exact ⟨_, by rw [hf, hn]; rfl⟩
    | starts _ a saving _ _ => exact ⟨w.form.store.submitted, rfl⟩
    | rests _ next f _ _ _ => exact ⟨w.form.store.submitted, rfl⟩
  · rcases h.becomes ht with ⟨t, question, next, rest, ht' | rfl, -⟩ | ⟨r, phase, -, rfl⟩ | hplain
    · exact nomatch hticket.symm.trans ht'
    · exact absurd rfl (hname t.name)
    · rfl
    · exact hplain.ticket?_eq_none

/-- A turn is one of a validation that has begun, or begins one, or is not of a validation. -/
theorem check_cases (h : TaskTurn w task x) :
    (∃ t, task.ticket? = some t ∧ CheckTurn w t x) ∨
      (∃ name, task = .validateField name ∧
        CheckTurn (w.withStore fun s => (s.begin name (s.value name)).2)
          (w.form.store.begin name (w.form.store.value name)).1 x) ∨
      (task.ticket? = none ∧ ∀ name, task ≠ .validateField name) := by
  cases h with
  | checks _ t _ ht hc => exact Or.inl ⟨t, ht, hc⟩
  | begins name _ hc => exact Or.inr (Or.inl ⟨name, rfl, hc⟩)
  | runs r _ _ => exact Or.inr (Or.inr ⟨rfl, fun name hname => by cases hname⟩)
  | starts _ a saving hp _ =>
    refine Or.inr (Or.inr ⟨hp.ticket?_eq_none, ?_⟩)
    rintro name rfl
    exact hp
  | rests _ next f hp _ _ =>
    refine Or.inr (Or.inr ⟨hp.ticket?_eq_none, ?_⟩)
    rintro name rfl
    exact hp

/-- A turn keeps the count of the validations of a field: a task that begins one is counted, and
one that ends one is not counted any more. -/
theorem counted (h : TaskTurn w task x) (f : FieldName) :
    (x.1.task?.elim 0 fun task => (task.validates f).toNat) + w.form.store.underway f ≤
      x.2.form.store.underway f + (task.validates f).toNat := by
  rcases h.check_cases with ⟨t, ht, hc⟩ | ⟨name, rfl, hc⟩ | ⟨hticket, hname⟩
  · have hv : task.validates f = (t.name == f) := by
      unfold validates
      rw [ht]
      rfl
    rw [hv]
    exact hc.counted f
  · have hle := hc.counted f
    have hb := w.form.store.begin_underway f name (w.form.store.value name)
    have hn : (w.form.store.begin name (w.form.store.value name)).1.name = name := rfl
    have hu : (w.withStore fun s => (s.begin name (s.value name)).2).form.store.underway f =
        (w.form.store.begin name (w.form.store.value name)).2.underway f := rfl
    rw [hn, hu, hb] at hle
    have hzero : (Task.validateField name).validates f = false := rfl
    rw [hzero]
    show _ ≤ _ + 0
    omega
  · obtain ⟨⟨submitted, hstore⟩, htask⟩ := h.unchecked hticket hname
    have hnext : (x.1.task?.elim 0 fun task => (task.validates f).toNat) = 0 := by
      cases ht : x.1.task? with
      | none => rfl
      | some task' =>
        show (task'.validates f).toNat = 0
        unfold validates
        rw [htask task' ht]
        rfl
    rw [hnext, hstore]
    show 0 + w.form.store.underway f ≤ w.form.store.underway f + _
    omega

/-- What is known of a field changes only in the turn of a task that validates it. -/
theorem quiet (h : TaskTurn w task x) {f : FieldName} (hv : task.validates f = false)
    (hn : task ≠ .validateField f) :
    x.2.form.store.underway f = w.form.store.underway f ∧
      x.2.form.store.error? f = w.form.store.error? f := by
  rcases h.check_cases with ⟨t, ht, hc⟩ | ⟨name, rfl, hc⟩ | ⟨hticket, hname⟩
  · have hne : (t.name == f) = false := by
      unfold validates at hv
      rw [ht] at hv
      exact hv
    exact hc.quiet (beq_eq_false_iff_ne.1 hne)
  · have hne : (name == f) = false := by
      rw [beq_eq_false_iff_ne]
      rintro rfl
      exact hn rfl
    have hb := w.form.store.begin_underway f name (w.form.store.value name)
    rw [hne] at hb
    obtain ⟨hunder, herror⟩ := hc.quiet (f := f) (beq_eq_false_iff_ne.1 hne)
    exact ⟨hunder.trans hb, herror⟩
  · obtain ⟨⟨submitted, hstore⟩, -⟩ := h.unchecked hticket hname
    rw [hstore]
    exact ⟨rfl, rfl⟩

/-- Only a run submits, and it submits the values of the form: it has the version of the form then,
and its waits are over. -/
theorem submitted (h : TaskTurn w task x) :
    x.2.form.store.submitted = w.form.store.submitted ∨
      ∃ r, task = .run r ∧ w.form.autoSave.version = r.version ∧ r.MaySubmit (sight w) ∧
        x.2.form.store.submitted = w.form.store.submitted ++ [w.form.store.values] := by
  cases h with
  | checks _ t _ _ hc => exact Or.inl hc.submitted
  | begins name _ hc => exact Or.inl hc.submitted
  | runs r _ hr =>
    obtain ⟨n, hn⟩ := w.entered_eq r
    obtain ⟨-, saving, -, -, hf | ⟨hv, hm, hf⟩⟩ := hr.form
    · exact Or.inl (by rw [hf, hn]; rfl)
    · refine Or.inr ⟨r, rfl, ?_, ?_, ?_⟩
      · rw [w.entered_version] at hv
        exact hv
      · rw [hn] at hm
        exact hm
      · rw [hf, w.entered_store]
        rfl
  | starts _ a saving _ _ => exact Or.inl rfl
  | rests _ next f _ _ _ => exact Or.inl rfl

end TaskTurn

end Task

end LiveForm
