import Mathlib
import LiveForm.Proofs.Form.Operation

/-!
# What a change does to a form

A change of a field writes values, begins a validation of each value that it writes, and takes down
which fields are disabled; to the rest of the form it does nothing but note the change
(`Form.changeField_edited`). A new form has no validations (`Form.setUp_untried`).
-/

namespace LiveForm

namespace Store

/-- Values of fields have been written, each with a validation that waits for its turn, and disabled
fields have been taken down. -/
inductive Edits (isField : FieldName → Prop) (s : Store) : Store → Prop
  | refl : Edits isField s s
  | set {s' : Store} (name : FieldName) (v : Value) (touch : Bool) : Edits isField s s' →
      isField name → Edits isField s ((s'.write name v touch).beginLater name v)
  | disable {s' : Store} (disabled : FieldNames) : Edits isField s s' →
      Edits isField s { s' with disabled }

theorem Edits.trans {isField : FieldName → Prop} {s s' s'' : Store} (h : Edits isField s s')
    (g : Edits isField s' s'') : Edits isField s s'' := by
  induction g with
  | refl => exact h
  | set name v touch _ hname ih => exact .set name v touch ih hname
  | disable disabled _ ih => exact .disable disabled ih

/-- An edit submits nothing. -/
theorem Edits.submitted {isField : FieldName → Prop} {s s' : Store} (h : Edits isField s s') :
    s'.submitted = s.submitted := by
  induction h with
  | refl => rfl
  | set name v touch _ _ ih => exact ih
  | disable disabled _ ih => exact ih

/-- The values of a new store are its defaults, and nothing has happened to it. -/
theorem ofDefinition_eq {d : Definition} {record defaults : Value} {s : Store}
    (h : ofDefinition d record defaults = .ok s) :
    ∃ values record messages, s = { values, defaults := values, record, messages } := by
  obtain ⟨kept, -, h⟩ := exists_of_bind_eq_ok h
  obtain ⟨initial, -, h⟩ := exists_of_bind_eq_ok h
  exact ⟨initial, kept, _, (Except.ok.inj h).symm⟩

end Store

namespace Form

/-- The field with the name is one of the form. -/
def IsField (f : Form) (name : FieldName) : Prop :=
  f.hasField name = true

/-- While time passes the store has been edited. Nothing else of the form has changed. -/
structure Edited (f f' : Form) : Prop where
  definition : f'.definition = f.definition
  registry : f'.registry = f.registry
  graph : f'.graph = f.graph
  clock : f'.clock = f.clock
  autoSave : f'.autoSave = f.autoSave
  store : f.clock.isSome = true → Store.Edits f.IsField f.store f'.store

namespace Edited

variable {α β : Type} {f f' f'' : Form} {log : Log}

theorem refl (f : Form) : Edited f f :=
  ⟨rfl, rfl, rfl, rfl, rfl, fun _ => .refl⟩

theorem isField_iff (h : Edited f f') (name : FieldName) : f'.IsField name ↔ f.IsField name := by
  unfold IsField hasField
  rw [h.definition]

theorem trans (h : Edited f f') (g : Edited f' f'') : Edited f f'' where
  definition := g.definition.trans h.definition
  registry := g.registry.trans h.registry
  graph := g.graph.trans h.graph
  clock := g.clock.trans h.clock
  autoSave := g.autoSave.trans h.autoSave
  store := by
    intro hclock
    have hfields : f'.IsField = f.IsField := funext fun name => propext (h.isField_iff name)
    have hg := g.store (h.clock ▸ hclock)
    rw [hfields] at hg
    exact (h.store hclock).trans hg

/-- An operation edits the form if each of its parts does. -/
theorem bind {op : FormOp α} {next : α → FormOp β} (h : Edited f (op.runOn f log).2.1)
    (hnext : ∀ a f' log', Edited f f' → Edited f' ((next a).runOn f' log').2.1) :
    Edited f ((op >>= next).runOn f log).2.1 := by
  rw [FormOp.runOn_bind]
  revert h
  rcases op.runOn f log with ⟨r, f', log'⟩
  intro h
  cases r with
  | ok a => exact h.trans (hnext a f' log' h)
  | error e => exact h

/-- An operation that looks first edits the form if what it does then does. -/
theorem look_bind {op : Form → Logged α} {next : α → FormOp β}
    (hnext : ∀ a log', Edited f ((next a).runOn f log').2.1) :
    Edited f ((FormOp.look op >>= next).runOn f log).2.1 := by
  rw [FormOp.runOn_bind, FormOp.runOn_look]
  cases (op f log).1 with
  | ok a => exact hnext a _
  | error e => exact refl f

theorem get_bind {next : Form → FormOp β} (hnext : Edited f ((next f).runOn f log).2.1) :
    Edited f ((get >>= next).runOn f log).2.1 := by
  rw [FormOp.runOn_get_bind]
  exact hnext

end Edited

/-! ### Parts of a change -/

theorem setValue_edited {f : Form} {name : FieldName} (h : f.IsField name) (v : Value)
    (touch : Bool) (log : Log) : Edited f ((setValue name v touch true).runOn f log).2.1 := by
  rw [runOn_setValue]
  refine ⟨rfl, rfl, rfl, rfl, rfl, ?_⟩
  intro hclock
  rw [hclock]
  exact .set name v touch .refl h

theorem applySet_edited {f : Form} {name : FieldName} (host : Host) (h : f.IsField name)
    (log : Log) : Edited f ((applySet host name true).runOn f log).2.1 := by
  unfold applySet
  refine Edited.look_bind (fun a log' => ?_)
  split
  · exact .refl f
  · exact .refl f
  · refine Edited.get_bind ?_
    split
    · exact .refl f
    · exact Edited.bind (setValue_edited h _ _ _) (fun _ f' _ _ => .refl f')

theorem applySetOf_edited (f : Form) (name : FieldName) (host : Host) (log : Log) :
    Edited f ((applySetOf host name).runOn f log).2.1 := by
  unfold applySetOf
  refine Edited.get_bind ?_
  split
  · exact applySet_edited host (by assumption) log
  · exact .refl f

theorem applySets_edited (host : Host) (unseen : FieldNames) (queue : List FieldName) (f : Form)
    (log : Log) : Edited f ((applySets host unseen queue).runOn f log).2.1 := by
  induction unseen, queue using applySets.induct generalizing f log with
  | case1 unseen =>
    rw [applySets]
    exact .refl f
  | case2 unseen name rest hmem _ ih =>
    rw [applySets, dif_pos hmem]
    refine Edited.bind (applySetOf_edited f name host log) (fun applied f' log' _ => ?_)
    refine Edited.get_bind ?_
    exact ih applied f' f' log'
  | case3 unseen name rest hmem ih =>
    rw [applySets, dif_neg hmem]
    exact ih f log

theorem refreshDisabled_edited (host : Host) (f : Form) (log : Log) :
    Edited f ((refreshDisabled host).runOn f log).2.1 := by
  unfold refreshDisabled
  refine Edited.look_bind (fun disabled log' => ?_)
  rw [FormOp.runOn_change]
  exact ⟨rfl, rfl, rfl, rfl, rfl, fun _ => .disable disabled .refl⟩

/-- What follows the change of a field: others get the values of their conditions. -/
theorem aftermath_edited (host : Host) (name : FieldName) (f : Form) (log : Log) :
    Edited f ((propagate host name >>= fun _ => refreshDisabled host).runOn f log).2.1 := by
  refine Edited.bind ?_ (fun _ f' log' _ => refreshDisabled_edited host f' log')
  unfold propagate
  exact Edited.get_bind (applySets_edited host _ _ f log)

/-! ### Changes -/

/-- The form right after the change of a field has been written and noted, at an instant. -/
def changed (f : Form) (name : FieldName) (v : Value) (now : Instant) : Form :=
  { f with
    store := (f.store.write name v true).beginLater name v
    autoSave := (f.autoSave.note name (f.graph.affectedBy name)).arm
      (now + microseconds f.debounce) }

theorem saveChange_runOn {f : Form} {now : Instant} (hclock : f.clock = some now)
    (name : FieldName) (v : Value) (log : Log) :
    (saveChange name v).runOn f log = (.ok (), f.changed name v now, log) := by
  have hset : (setValue name v true true).runOn f log =
      (.ok (), { f with store := (f.store.write name v true).beginLater name v }, log) := by
    rw [runOn_setValue, hclock]
    rfl
  rw [saveChange, FormOp.runOn_bind, hset]
  simp only [runOn_markChanged, hclock, changed]

/-- **What a change does to a form that saves itself.** If the form has the field, the change is
written and noted, and then the form is edited. If it has not, nothing happens. -/
theorem changeField_edited (host : Host) {f : Form} {now : Instant} (hclock : f.clock = some now)
    (hauto : f.definition.autoSave = true) (name : FieldName) (v : Value) (log : Log) :
    ((changeField host name v).runOn f log).2.1 = f ∨
      (f.IsField name ∧
        Edited (f.changed name v now) ((changeField host name v).runOn f log).2.1) := by
  unfold changeField
  rw [FormOp.runOn_bind, FormOp.runOn_look]
  unfold field
  cases hfield : Table.get? name f.definition.fields with
  | none => exact Or.inl rfl
  | some field =>
    refine Or.inr ⟨?_, ?_⟩
    · unfold IsField hasField Table.has
      rw [hfield]
      rfl
    · simp only [Logged.ofExcept]
      rw [FormOp.runOn_get_bind]
      simp only [hauto, if_true]
      rw [FormOp.runOn_bind, saveChange_runOn hclock]
      exact aftermath_edited host name _ _

/-! ### New forms -/

/-- A form with nothing mounted has the definition and a new store. -/
theorem blank_eq {d : Definition} {registry : Registry} {settings : Settings}
    {record defaults : Value} {clock : Option Instant} {form : Form}
    (h : blank d registry settings record defaults clock = .ok form) :
    ∃ store debounce, Store.ofDefinition d record defaults = .ok store ∧
      form = { definition := d, registry, settings, store, debounce, clock } := by
  obtain ⟨store, hstore, h⟩ := exists_of_bind_eq_ok h
  obtain ⟨debounce, -, h⟩ := exists_of_bind_eq_ok h
  obtain ⟨_, -, h⟩ := exists_of_bind_eq_ok h
  refine ⟨store, debounce, ?_, (Except.ok.inj h).symm⟩
  cases hnew : Store.ofDefinition d record defaults with
  | error e =>
    rw [hnew] at hstore
    exact nomatch hstore
  | ok store' =>
    rw [hnew] at hstore
    exact congrArg Except.ok (Except.ok.inj hstore)

/-- Only values, marks and the graph may have changed: no validation has begun, and nothing has been
noted or submitted. -/
structure Untried (f f' : Form) : Prop where
  definition : f'.definition = f.definition
  registry : f'.registry = f.registry
  clock : f'.clock = f.clock
  autoSave : f'.autoSave = f.autoSave
  errors : f'.store.errors = f.store.errors
  running : f'.store.running = f.store.running
  latest : f'.store.latest = f.store.latest
  waiting : f'.store.waiting = f.store.waiting
  submitted : f'.store.submitted = f.store.submitted

instance : IsPreorder Form Untried where
  refl _ := ⟨rfl, rfl, rfl, rfl, rfl, rfl, rfl, rfl, rfl⟩
  trans _ _ _ h g :=
    ⟨g.definition.trans h.definition, g.registry.trans h.registry, g.clock.trans h.clock,
      g.autoSave.trans h.autoSave, g.errors.trans h.errors, g.running.trans h.running,
      g.latest.trans h.latest, g.waiting.trans h.waiting, g.submitted.trans h.submitted⟩

/-- Setting a form up begins no validation. -/
theorem setUp_untried (host : Host) : FormOp.Keeps Untried (setUp host) :=
  setUp_keeps host (mount_keeps fun _ _ _ => ⟨rfl, rfl, rfl, rfl, rfl, rfl, rfl, rfl, rfl⟩)
    (fun _ _ _ _ => ⟨rfl, rfl, rfl, rfl, rfl, rfl, rfl, rfl, rfl⟩)
    (fun _ _ _ => ⟨rfl, rfl, rfl, rfl, rfl, rfl, rfl, rfl, rfl⟩)

end Form

end LiveForm
