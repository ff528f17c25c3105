import Mathlib
import LiveForm.Proofs.Session.Turns
import LiveForm.Proofs.Session.Live

/-!
# Events

What may happen in a session, one event after the other and in any order: its user changes a field,
calls the saving off or asks for something, whoever stands first in the queue has its turn, what is
due comes to the end of the queue, and time passes. The order of turns is that of the queue.
-/

namespace LiveForm

/-- What may happen in a session. -/
inductive Event where
  /-- A user changes a field. -/
  | change (name : FieldName) (v : Value)
  /-- A user calls the saving off. -/
  | cancel
  /-- A user asks for something, which is done in turn. -/
  | launch (task : Task)
  /-- A user asks for something, which is begun at once. -/
  | ask (task : Task)
  /-- The first in the queue has its turn. -/
  | turn
  /-- What is due comes to the end of the queue. -/
  | expire
  /-- Time passes up to an instant. -/
  | pass (t : Instant)

/-- What the user asks for is plain: to save, or to wait. -/
def Event.IsUsual : Event → Prop
  | .launch task => task.IsPlain
  | .ask task => task.IsPlain
  | _ => True

namespace Session

/-- What comes of an event. -/
def happen (s : Session) : Event → Session
  | .change name v => (s.act (Form.changeField s.world.host name v)).2
  | .cancel => { s with world := s.world.withAutoSave AutoSave.cancel }
  | .launch task => (s.launch task).2
  | .ask task => (s.add task []).2.resume (s.add task []).1 (.ok .nothing)
  | .turn =>
    match s.queue with
    | [] => s
    | t :: rest => { s with queue := rest }.take t
  | .expire => s.expire
  | .pass t => s.passTo t

/-- The store of the form. -/
abbrev store (s : Session) : Store :=
  s.world.form.store

/-- The version of the form's saving. -/
abbrev version (s : Session) : Nat :=
  s.world.form.autoSave.version

/-- What comes of events, one after the other. -/
def after (s : Session) (events : List Event) : Session :=
  events.foldl happen s

@[simp] theorem after_nil (s : Session) : s.after [] = s := rfl

@[simp] theorem after_append (s : Session) (events : List Event) (e : Event) :
    s.after (events ++ [e]) = (s.after events).happen e := by
  rw [after, List.foldl_append]
  rfl

/-- What holds at the start and is kept by every usual event holds after all usual events. -/
theorem after_induction {P : Session → Prop} {s : Session} (hstart : P s)
    (hhappen : ∀ s e, e.IsUsual → P s → P (s.happen e)) {events : List Event}
    (husual : ∀ e ∈ events, e.IsUsual) : P (s.after events) := by
  induction events using List.reverseRecOn with
  | nil => exact hstart
  | append_singleton events e ih =>
    rw [after_append]
    refine hhappen _ e (husual e (by simp)) (ih fun e he => husual e ?_)
    exact List.mem_append_left _ he

/-! ### New sessions -/

/-- A new session has no tasks, and a form with nothing mounted that has been set up. -/
theorem start_setUp {host : Host} {d : Definition} {registry : Registry} {settings : Settings}
    {record defaults : Value} {clock : Option Instant} {s : Session}
    (h : start host d registry settings record defaults clock = .ok s) :
    ∃ form, Form.blank d registry settings record defaults clock = .ok form ∧
      s = { world := (World.runForm { host, form } (Form.setUp host)).2 } := by
  obtain ⟨form, hblank, h⟩ := exists_of_bind_eq_ok h
  obtain ⟨_, _, h⟩ := exists_of_bind_eq_ok h
  exact ⟨form, hblank, (Except.ok.inj h).symm⟩

/-- A session in which nothing has happened: no validation has begun, nothing has changed, and there
are no tasks. -/
structure New (host : Host) (d : Definition) (registry : Registry) (clock : Option Instant)
    (s : Session) : Prop where
  host : s.world.host = host
  definition : s.world.form.definition = d
  registry : s.world.form.registry = registry
  clock : s.world.form.clock = clock
  autoSave : s.world.form.autoSave = {}
  latest : s.store.latest = []
  waiting : s.store.waiting = []
  submitted : s.store.submitted = []
  live : s.live = []
  queue : s.queue = []
  timers : s.timers = []

theorem start_new {host : Host} {d : Definition} {registry : Registry} {settings : Settings}
    {record defaults : Value} {clock : Option Instant} {s : Session}
    (h : start host d registry settings record defaults clock = .ok s) :
    New host d registry clock s := by
  obtain ⟨form, hblank, rfl⟩ := start_setUp h
  have huntried : Form.Untried form (World.runForm { host, form } (Form.setUp host)).2.form :=
    Form.setUp_untried host form []
  obtain ⟨store, debounce, hstore, rfl⟩ := Form.blank_eq hblank
  obtain ⟨values, record', messages, rfl⟩ := Store.ofDefinition_eq hstore
  exact ⟨rfl, huntried.definition, huntried.registry, huntried.clock, huntried.autoSave,
    huntried.latest, huntried.waiting, huntried.submitted, rfl, rfl, rfl⟩

variable {host : Host} {d : Definition} {registry : Registry} {clock : Option Instant} {s : Session}

theorem New.task? (h : New host d registry clock s) (id : Nat) : s.task? id = none := by
  refine task?_eq_none_iff.2 ?_
  rw [h.live]
  rfl

theorem New.task?_ne_some (h : New host d registry clock s) (id : Nat) (t : Task) :
    s.task? id ≠ some t := by
  rw [h.task?]
  exact (Option.some_ne_none t).symm

theorem New.not_follows (h : New host d registry clock s) (owner id : Nat) :
    ¬ s.Follows owner id := by
  rintro ⟨l, hl, -⟩
  rw [h.live] at hl
  exact absurd hl (by simp [Table.get?])

end Session

end LiveForm
