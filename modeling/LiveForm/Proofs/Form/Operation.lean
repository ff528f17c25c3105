import Mathlib
import LiveForm.Form.Change
import LiveForm.Session.World

/-!
# Operations on forms

How operations on a form run: one equation for each way in which an operation is made. What every
part of an operation keeps, the whole keeps, whether or not it fails on the way (`FormOp.Keeps`).
-/

namespace LiveForm

/-- What comes of two parts comes of the second, after the first has come off well. -/
theorem exists_of_bind_eq_ok {ε α β : Type} {x : Except ε α} {f : α → Except ε β} {b : β}
    (h : x >>= f = .ok b) : ∃ a, x = .ok a ∧ f a = .ok b := by
  cases x with
  | error e => exact absurd h (by simp [bind, Except.bind])
  | ok a => exact ⟨a, rfl, h⟩

namespace FormOp

variable {α β : Type}

theorem runOn_get (f : Form) (log : Log) : runOn get f log = (.ok f, f, log) := rfl

theorem runOn_change (g : Form → Form) (f : Form) (log : Log) :
    runOn (change g) f log = (.ok (), g f, log) := rfl

theorem runOn_look (op : Form → Logged α) (f : Form) (log : Log) :
    runOn (look op) f log = ((op f log).1, f, (op f log).2) := rfl

theorem runOn_pure_ok {a b : α} {f f' : Form} {log log' : Log} :
    runOn (pure a : FormOp α) f log = (.ok b, f', log') ↔ a = b ∧ f = f' ∧ log = log' := by
  have hrun : runOn (pure a : FormOp α) f log = (.ok a, f, log) := rfl
  rw [hrun, Prod.mk.injEq, Prod.mk.injEq, Except.ok.injEq]

theorem runOn_look_ok {op : Form → Logged α} {a : α} {f f' : Form} {log log' : Log} :
    runOn (look op) f log = (.ok a, f', log') ↔
      (op f log).1 = .ok a ∧ f = f' ∧ (op f log).2 = log' := by
  rw [runOn_look, Prod.mk.injEq, Prod.mk.injEq]

/-- What looks at the form first goes on with what it has seen. -/
theorem runOn_get_bind (next : Form → FormOp α) (f : Form) (log : Log) :
    runOn (get >>= next) f log = runOn (next f) f log := rfl

/-- The second part runs where the first has left off, unless the first fails. -/
theorem runOn_bind (op : FormOp α) (next : α → FormOp β) (f : Form) (log : Log) :
    runOn (op >>= next) f log =
      match runOn op f log with
      | (.ok a, f', log') => runOn (next a) f' log'
      | (.error e, f', log') => (.error e, f', log') := by
  simp only [runOn, bind, ExceptT.bind, ExceptT.mk, StateT.bind]
  rcases op f log with ⟨⟨r, f'⟩, log'⟩
  cases r with
  | ok a => rfl
  | error e => rfl

/-- An operation in two parts that returns is one part that returns after the other. -/
theorem runOn_bind_ok {op : FormOp α} {next : α → FormOp β} {f f'' : Form} {log log'' : Log}
    {b : β} : runOn (op >>= next) f log = (.ok b, f'', log'') ↔
      ∃ a f' log', runOn op f log = (.ok a, f', log') ∧
        runOn (next a) f' log' = (.ok b, f'', log'') := by
  rw [runOn_bind]
  rcases runOn op f log with ⟨r, f', log'⟩
  cases r with
  | ok a => simp
  | error e => simp

/-- An operation whose answer is forgotten has one. -/
theorem exists_of_runOn_forget {op : FormOp α} {f f' : Form} {log log' : Log}
    (h : runOn (op >>= fun _ => pure ()) f log = (.ok (), f', log')) :
    ∃ a, runOn op f log = (.ok a, f', log') := by
  obtain ⟨a, f₁, log₁, hop, hreturn⟩ := runOn_bind_ok.1 h
  obtain ⟨-, rfl, rfl⟩ := runOn_pure_ok.1 hreturn
  exact ⟨a, hop⟩

/-- The operation leads from every form to one that is in the relation to it. -/
def Keeps (R : Form → Form → Prop) (op : FormOp α) : Prop :=
  ∀ f log, R f (runOn op f log).2.1

namespace Keeps

variable {R : Form → Form → Prop}

theorem pure [IsPreorder Form R] (a : α) : Keeps R (pure a : FormOp α) :=
  fun f _ => refl_of R f

theorem look [IsPreorder Form R] (op : Form → Logged α) : Keeps R (look op) :=
  fun f _ => refl_of R f

theorem get [IsPreorder Form R] : Keeps R (get : FormOp Form) :=
  fun f _ => refl_of R f

/-- What both parts of an operation keep, the whole keeps. -/
theorem bind [IsPreorder Form R] {op : FormOp α} {next : α → FormOp β} (h : Keeps R op)
    (hnext : ∀ a, Keeps R (next a)) : Keeps R (op >>= next) := by
  intro f log
  have hf := h f log
  rw [runOn_bind]
  revert hf
  rcases runOn op f log with ⟨r, f', log'⟩
  intro hf
  cases r with
  | ok a => exact trans_of R hf (hnext a f' log')
  | error e => exact hf

end Keeps

end FormOp

namespace Form

/-- Writing a value begins a validation of it while time passes, and else does nothing more. -/
theorem runOn_setValue (name : FieldName) (v : Value) (touch validate : Bool) (f : Form)
    (log : Log) :
    (setValue name v touch validate).runOn f log =
      (.ok (),
        { f with store :=
            if validate && f.clock.isSome then (f.store.write name v touch).beginLater name v
            else f.store.write name v touch }, log) := rfl

/-- A change is noted at once; whether a save is scheduled depends on the clock. -/
theorem runOn_markChanged (name : FieldName) (f : Form) (log : Log) :
    (markChanged name).runOn f log =
      match f.clock with
      | none => (.error .noLoop,
          { f with autoSave := f.autoSave.note name (f.graph.affectedBy name) }, log)
      | some now => (.ok (),
          { f with
            autoSave := (f.autoSave.note name (f.graph.affectedBy name)).arm
              (now + microseconds f.debounce) }, log) := by
  rw [markChanged, FormOp.runOn_bind, FormOp.runOn_change]
  simp only [FormOp.runOn_bind, FormOp.runOn_get]
  cases f.clock with
  | none => rfl
  | some now => rfl

/-! ### What operations on forms keep -/

section

open FormOp (Keeps)

variable {R : Form → Form → Prop} [IsPreorder Form R]

theorem mount_keeps
    (hgraph : ∀ g : Form → Graph, Keeps R (FormOp.change fun f => { f with graph := g f }))
    (name : FieldName) : Keeps R (mount name) := by
  unfold mount
  exact (Keeps.look _).bind fun _ => (hgraph _).bind fun _ => (Keeps.look _).bind fun _ => hgraph _

theorem mountAll_keeps (hmount : ∀ name, Keeps R (mount name)) (names : List FieldName) :
    Keeps R (mountAll names) := by
  induction names with
  | nil => exact Keeps.pure ()
  | cons name rest ih =>
    rw [mountAll]
    exact (hmount name).bind fun _ => ih

/-- Giving a field the value of its conditions keeps what writing that value keeps. -/
theorem applySet_keeps (host : Host) {name : FieldName} {validate : Bool}
    (hset : ∀ v, Keeps R (setValue name v false validate)) :
    Keeps R (applySet host name validate) := by
  unfold applySet
  refine (Keeps.look _).bind fun given => ?_
  split
  · exact Keeps.pure _
  · exact Keeps.pure _
  · refine Keeps.get.bind fun f => ?_
    split
    · exact Keeps.pure _
    · exact (hset _).bind fun _ => Keeps.pure _

/-- Giving all fields that depend on a changed one the values of their conditions keeps what writing
a value keeps. -/
theorem propagate_keeps (host : Host) (hset : ∀ name v, Keeps R (setValue name v false true))
    (changed : FieldName) : Keeps R (propagate host changed) := by
  have happlySetOf (name : FieldName) : Keeps R (applySetOf host name) := by
    unfold applySetOf
    refine Keeps.get.bind fun f => ?_
    split
    · exact applySet_keeps host (hset name)
    · exact Keeps.pure _
  have happlySets (unseen : FieldNames) (queue : List FieldName) :
      Keeps R (applySets host unseen queue) := by
    induction unseen, queue using applySets.induct with
    | case1 unseen =>
      rw [applySets]
      exact Keeps.pure _
    | case2 unseen name rest hmem _ ih =>
      rw [applySets, dif_pos hmem]
      exact (happlySetOf name).bind fun applied => Keeps.get.bind fun f => ih applied f
    | case3 unseen name rest hmem ih =>
      rw [applySets, dif_neg hmem]
      exact ih
  unfold propagate
  exact Keeps.get.bind fun f => happlySets _ _

theorem applyInitialSets_keeps (host : Host)
    (hset : ∀ name v, Keeps R (setValue name v false false)) (names : List FieldName) :
    Keeps R (applyInitialSets host names) := by
  induction names with
  | nil => exact Keeps.pure ()
  | cons name rest ih =>
    rw [applyInitialSets]
    exact (applySet_keeps host (hset name)).bind fun _ => ih

theorem refreshDisabled_keeps (host : Host) (hdisabled : ∀ disabled,
      Keeps R (FormOp.change fun f => { f with store := { f.store with disabled } })) :
    Keeps R (refreshDisabled host) := by
  unfold refreshDisabled
  exact (Keeps.look _).bind hdisabled

/-- What follows the change of a field keeps what writing values and taking down who is disabled
keep. -/
theorem aftermath_keeps (host : Host) (hset : ∀ name v, Keeps R (setValue name v false true))
    (hdisabled : ∀ disabled,
      Keeps R (FormOp.change fun f => { f with store := { f.store with disabled } }))
    (name : FieldName) :
    Keeps R (propagate host name >>= fun _ => refreshDisabled host) :=
  (propagate_keeps host hset name).bind fun _ => refreshDisabled_keeps host hdisabled

/-- Setting a form up is mounting its fields, writing the values that conditions give, and taking
down who is disabled. -/
theorem setUp_keeps (host : Host) (hmount : ∀ name, Keeps R (mount name))
    (hset : ∀ name v, Keeps R (setValue name v false false))
    (hdisabled : ∀ disabled,
      Keeps R (FormOp.change fun f => { f with store := { f.store with disabled } })) :
    Keeps R (setUp host) := by
  unfold setUp
  refine Keeps.get.bind fun f => (mountAll_keeps hmount _).bind fun _ => ?_
  exact (applyInitialSets_keeps host hset _).bind fun _ => refreshDisabled_keeps host hdisabled

end

end Form

end LiveForm
