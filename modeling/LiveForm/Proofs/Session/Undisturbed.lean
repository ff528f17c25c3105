import Mathlib
import LiveForm.Proofs.AutoSave.Timer
import LiveForm.Proofs.Session.Dirty

/-!
# What leaves the next save alone

Unless somebody saves at once, what goes on in a session leaves the time of the next save alone and
takes no changed field from those that wait: validations write to the store, and a run that ends can
only give fields back. Nor does it start a run. A task that does not save at once is patient, and
whatever it turns into is patient (`Task.step_patient`), so this holds of whole turns
(`Session.Undisturbed.take`).
-/

namespace LiveForm

/-! ### Forms -/

namespace Form

open FormOp (Keeps)

/-- The present is the same, and so is everything about the next save. -/
structure SameSaving (f f' : Form) : Prop where
  clock : f'.clock = f.clock
  debounce : f'.debounce = f.debounce
  autoSave : f'.autoSave = f.autoSave

instance : IsPreorder Form SameSaving where
  refl _ := ⟨rfl, rfl, rfl⟩
  trans _ _ _ h g :=
    ⟨g.clock.trans h.clock, g.debounce.trans h.debounce, g.autoSave.trans h.autoSave⟩

theorem setValue_sameSaving (name : FieldName) (v : Value) (touch validate : Bool) :
    Keeps SameSaving (setValue name v touch validate) :=
  fun _ _ => ⟨rfl, rfl, rfl⟩

/-- What follows the change of a field has nothing to do with the next save. -/
theorem aftermath_sameSaving (host : Host) (name : FieldName) :
    Keeps SameSaving (propagate host name >>= fun _ => refreshDisabled host) :=
  aftermath_keeps host (fun name v => setValue_sameSaving name v false true)
    (fun _ _ _ => ⟨rfl, rfl, rfl⟩) name

/-- Changes of the field are saved. -/
def saves (f : Form) (name : FieldName) : Bool :=
  f.definition.autoSave && f.hasField name

/-- The form right after a change has been noted, at an instant. -/
def noted (f : Form) (name : FieldName) (now : Instant) : Form :=
  { f with
    autoSave := (f.autoSave.note name (f.graph.affectedBy name)).arm
      (now + microseconds f.debounce) }

/-- **What the change of a field does to the saving**: the change is noted if it is to be saved. -/
theorem changeField_saving (host : Host) {f : Form} {now : Instant} (hclock : f.clock = some now)
    (name : FieldName) (v : Value) (log : Log) :
    SameSaving (if f.saves name then f.noted name now else f)
      ((changeField host name v).runOn f log).2.1 := by
  unfold changeField saves hasField Table.has
  rw [FormOp.runOn_bind, FormOp.runOn_look]
  unfold field
  cases hfield : Table.get? name f.definition.fields with
  | none =>
    rw [Option.isSome_none, Bool.and_false]
    exact refl_of SameSaving f
  | some field =>
    simp only [Logged.ofExcept, Option.isSome_some, Bool.and_true]
    rw [FormOp.runOn_get_bind]
    cases f.definition.autoSave with
    | true =>
      have hnoted : SameSaving (f.noted name now) (f.changed name v now) := ⟨rfl, rfl, rfl⟩
      simp only [if_true]
      rw [FormOp.runOn_bind, saveChange_runOn hclock]
      exact trans_of SameSaving hnoted (aftermath_sameSaving host name _ _)
    | false =>
      simp only [Bool.false_eq_true, if_false]
      exact (setValue_sameSaving name v true true).bind (fun _ => aftermath_sameSaving host name) f
        log

end Form

/-! ### Worlds -/

/-- The present is the same, and so is the time of the next save. Changed fields that waited for it
still wait. -/
structure World.Undisturbed (w w' : World) : Prop where
  clock : w'.form.clock = w.form.clock
  debounce : w'.form.debounce = w.form.debounce
  timer : w'.form.autoSave.timer = w.form.autoSave.timer
  changed : ∀ f ∈ w.form.autoSave.pending.changed, f ∈ w'.form.autoSave.pending.changed

namespace World.Undisturbed

variable {w w' w'' : World}

theorem refl (w : World) : w.Undisturbed w :=
  ⟨rfl, rfl, rfl, fun _ hf => hf⟩

theorem trans (h : w.Undisturbed w') (g : w'.Undisturbed w'') : w.Undisturbed w'' :=
  ⟨g.clock.trans h.clock, g.debounce.trans h.debounce, g.timer.trans h.timer,
    fun f hf => g.changed f (h.changed f hf)⟩

theorem of_sameSaving (h : w.form.SameSaving w'.form) : w.Undisturbed w' := by
  refine ⟨h.clock, h.debounce, ?_, fun f hf => ?_⟩ <;> rw [h.autoSave]
  exact hf

theorem of_store {store : Store} (h : w'.form = { w.form with store }) : w.Undisturbed w' := by
  refine of_sameSaving ⟨?_, ?_, ?_⟩ <;> rw [h]

theorem of_form (h : w'.form = w.form) : w.Undisturbed w' :=
  of_store h

/-- The end of a run sets no time, and may give fields back. -/
theorem leave (w : World) (version : Nat) (outcome : Outcome) :
    w.Undisturbed (w.withAutoSave fun a => a.leave version outcome) where
  clock := rfl
  debounce := rfl
  timer := AutoSave.leave_timer _ _ _
  changed _ hf := (AutoSave.leave_of_pending ⟨hf, List.forall_mem_nil _⟩ version outcome).changed

theorem entered (w : World) (r : Run) : w.Undisturbed (w.entered r) := by
  obtain ⟨n, hn⟩ := w.entered_eq r
  rw [hn]
  exact ⟨rfl, rfl, rfl, fun _ hf => hf⟩

end World.Undisturbed

/-! ### Tasks -/

/-- The task does not save at once. -/
def Task.IsPatient : Task → Prop
  | .flush => False
  | .saveNow => False
  | _ => True

/-- What is done next starts no run, and the tasks that come of it are patient. -/
def Next.IsPatient : Next → Prop
  | .pause _ _ task => task.IsPatient
  | .gather children task => (∀ child ∈ children, child.IsPatient) ∧ task.IsPatient
  | .settle _ task => task.IsPatient
  | .follow _ _ => False
  | .finish _ => True

namespace Task

/-- A turn that leaves the next save alone, now and later. -/
structure SparingTurn (w : World) (x : Next × World) : Prop where
  patient : x.1.IsPatient
  undisturbed : w.Undisturbed x.2

variable {w : World} {x : Next × World}

theorem SparingTurn.of_undisturbed {w' : World} (h : w.Undisturbed w') (hturn : SparingTurn w' x) :
    SparingTurn w x :=
  ⟨hturn.patient, h.trans hturn.undisturbed⟩

theorem CheckTurn.sparing {t : Ticket} (h : CheckTurn w t x) : SparingTurn w x := by
  cases h with
  | asks w' _ _ _ _ hform _ => exact ⟨trivial, .of_form hform⟩
  | ends w' found hform _ =>
    have hends : (conclude w' t found).2.form =
        { w.form with store := w.form.store.finish t found } := by
      rw [← hform]
      rfl
    exact ⟨trivial, .of_store hends⟩

theorem RunTurn.sparing {r : Run} (h : RunTurn w r x) : SparingTurn w x := by
  have hleave (w : World) (o : Outcome) (log : Log) : SparingTurn w (leaveRun w r o log) := by
    have hwrite : w.Undisturbed (w.write log) := .of_form rfl
    exact ⟨trivial, hwrite.trans (.leave (w.write log) r.version o)⟩
  have hsubmit : w.Undisturbed w.submit.2 := .of_store rfl
  cases h with
  | leaves o log => exact hleave w o log
  | settles _ _ _ _ _ => exact ⟨trivial, .refl w⟩
  | confirms _ _ _ _ _ _ => exact ⟨trivial, .refl w⟩
  | asks _ _ _ _ => exact ⟨⟨List.forall_mem_map.2 fun _ _ => trivial, trivial⟩, .refl w⟩
  | submits _ _ _ _ => exact ⟨trivial, hsubmit⟩
  | submitsAndLeaves o log _ _ => exact .of_undisturbed hsubmit (hleave _ o log)

theorem submitIf_sparing (w : World) (passed : Bool) : SparingTurn w (submitIf w passed) := by
  unfold submitIf
  split
  · exact ⟨trivial, .of_form rfl⟩
  · dsimp only
    split <;> exact ⟨trivial, .of_store rfl⟩

theorem gatherFields_patient (names : List FieldName) {task : Task} (h : task.IsPatient) :
    (gatherFields names task).IsPatient :=
  ⟨List.forall_mem_map.2 fun _ _ => trivial, h⟩

/-- **The turn of a patient task leaves the next save alone.** -/
theorem step_patient (w : World) (busy : Kept → Bool) {task : Task} (h : task.IsPatient)
    (answer : Answer) : SparingTurn w (task.step w busy answer) := by
  cases task with
  | started t => exact (examine_turn w t).sparing
  | checking t question next rest =>
    exact (checking_turn w busy t question next rest answer).sparing
  | run r => exact .of_undisturbed (.entered w r) (stepRun_turn w r answer).sparing
  | sleep duration => exact ⟨trivial, .refl w⟩
  | validateField name =>
    have hturn : CheckTurn (w.withStore fun s => (s.begin name (s.value name)).2)
        (w.form.store.begin name (w.form.store.value name)).1
        (step w busy (.validateField name) answer) := examine_turn _ _
    have hbegin : w.Undisturbed (w.withStore fun s => (s.begin name (s.value name)).2) :=
      .of_store rfl
    exact .of_undisturbed hbegin hturn.sparing
  | validate names =>
    unfold step
    dsimp only
    split
    · exact ⟨trivial, .refl w⟩
    · exact ⟨gatherFields_patient names trivial, .refl w⟩
  | submit =>
    unfold step
    dsimp only
    split
    · exact submitIf_sparing w true
    · exact ⟨gatherFields_patient _ trivial, .refl w⟩
  | submitPassed =>
    unfold step
    dsimp only
    split
    · exact ⟨trivial, .refl w⟩
    · exact submitIf_sparing w _
  | flush => exact absurd h id
  | saveNow => exact absurd h id
  | waitIdle =>
    unfold step
    dsimp only
    split
    · exact ⟨trivial, .refl w⟩
    · split <;> exact ⟨trivial, .refl w⟩
  | waitRuns =>
    unfold step
    dsimp only
    split <;> exact ⟨trivial, .refl w⟩
  | ending => exact ⟨trivial, .refl w⟩

end Task

/-! ### Sessions -/

namespace Session

/-- No task under way saves at once, and the runs that are kept in mind are among the tasks that
there have been. -/
structure Patient (s : Session) : Prop where
  tasks : ∀ e ∈ s.live, e.2.task.IsPatient
  runs : ∀ id ∈ s.runs, id < s.count

/-- The next save is left alone, no run joins those that are kept in mind, and who is patient stays
patient. -/
structure Undisturbed (s s' : Session) : Prop where
  world : s.world.Undisturbed s'.world
  count : s.count ≤ s'.count
  runs : ∀ id ∈ s'.runs, id ∈ s.runs
  tasks : (∀ e ∈ s.live, e.2.task.IsPatient) → ∀ e ∈ s'.live, e.2.task.IsPatient

namespace Undisturbed

variable {s s' s'' : Session}

theorem refl (s : Session) : Undisturbed s s :=
  ⟨.refl _, Nat.le_refl _, fun _ hid => hid, id⟩

theorem trans (h : Undisturbed s s') (g : Undisturbed s' s'') : Undisturbed s s'' :=
  ⟨h.world.trans g.world, Nat.le_trans h.count g.count, fun id hid => h.runs id (g.runs id hid),
    fun hs => g.tasks (h.tasks hs)⟩

theorem patient (h : Undisturbed s s') (hs : s.Patient) : s'.Patient :=
  ⟨h.tasks hs.tasks, fun id hid => Nat.lt_of_lt_of_le (hs.runs id (h.runs id hid)) h.count⟩

/-- Another world, in which the next save is the same. -/
theorem withWorld (s : Session) {w : World} (h : s.world.Undisturbed w) :
    Undisturbed s { s with world := w } :=
  ⟨h, Nat.le_refl _, fun _ hid => hid, id⟩

theorem enqueue (s : Session) (t : Turn) : Undisturbed s (s.enqueue t) :=
  ⟨.refl _, Nat.le_refl _, fun _ hid => hid, id⟩

theorem queued (s : Session) (queue : List Turn) : Undisturbed s { s with queue } :=
  ⟨.refl _, Nat.le_refl _, fun _ hid => hid, id⟩

/-- Kept tasks may be forgotten, and validations may join them. -/
theorem withKept (s : Session) {kept : Kept} {f : List Nat → List Nat}
    (h : kept = .runs → ∀ ids, ∀ id ∈ f ids, id ∈ ids) : Undisturbed s (s.withKept kept f) := by
  cases kept with
  | validations => exact ⟨.refl _, Nat.le_refl _, fun _ hid => hid, id⟩
  | runs => exact ⟨.refl _, Nat.le_refl _, h rfl s.runs, id⟩

theorem add (s : Session) {task : Task} (h : task.IsPatient) (listeners : List Listener) :
    Undisturbed s (s.add task listeners).2 where
  world := .refl _
  count := Nat.le_succ _
  runs _ hid := hid
  tasks := Table.forall_put (P := fun l : Live => l.task.IsPatient) h

theorem spawn (s : Session) {task : Task} (h : task.IsPatient) (listeners : List Listener) :
    Undisturbed s (s.spawn task listeners).2 :=
  (add s h listeners).trans (enqueue _ _)

theorem update (s : Session) (id : Nat) {f : Live → Live}
    (h : ∀ l, l.task.IsPatient → (f l).task.IsPatient) : Undisturbed s (s.update id f) := by
  unfold Session.update
  cases hl : Table.get? id s.live with
  | none => exact refl s
  | some l =>
    refine ⟨.refl _, Nat.le_refl _, fun _ hid => hid, fun hs => ?_⟩
    obtain ⟨id', hmem⟩ := Table.exists_mem_of_get? hl
    exact Table.forall_put (P := fun l : Live => l.task.IsPatient) (h l (hs _ hmem)) hs

theorem pause (s : Session) (id duration : Nat) (answer : Answer) :
    Undisturbed s (s.pause id duration answer) := by
  unfold Session.pause
  split
  · exact enqueue s _
  · exact ⟨.refl _, Nat.le_refl _, fun _ hid => hid, fun hs => hs⟩

theorem listen (s : Session) (owner id : Nat) : Undisturbed s (s.listen owner id) := by
  unfold Session.listen
  split
  · exact enqueue s _
  · exact update s id fun _ h => h

theorem finish (s : Session) (id : Nat) (answer : Answer) : Undisturbed s (s.finish id answer) where
  world := .refl _
  count := Nat.le_refl _
  runs _ hid := hid
  tasks hs e he := hs e (List.mem_filter.1 he).1

/-- What is done for each of several leaves the next save alone if each of it does. -/
theorem foldl {α : Type} {f : Session → α → Session} {as : List α}
    (h : ∀ a ∈ as, ∀ s, Undisturbed s (f s a)) (s : Session) : Undisturbed s (as.foldl f s) := by
  induction as generalizing s with
  | nil => exact refl s
  | cons a as ih =>
    obtain ⟨ha, has⟩ := List.forall_mem_cons.1 h
    exact (ha s).trans (ih has _)

theorem become (s : Session) (id : Nat) {task : Task} (h : task.IsPatient) :
    Undisturbed s (s.become id task) :=
  update s id fun _ _ => h

theorem perform (s : Session) (id : Nat) {next : Next} (h : next.IsPatient) :
    Undisturbed s (s.perform id next) := by
  cases next with
  | pause duration answer task => exact (become s id h).trans (pause _ id duration answer)
  | gather children task =>
    have hwaits : Undisturbed s (s.update id fun l => { l with
        task, gathering := some { left := children.length, tolerant := false } }) :=
      update s id fun _ _ => h.2
    exact hwaits.trans (foldl (fun child hchild s => spawn s (h.1 child hchild) _) _)
  | settle kind task =>
    have hwaits : Undisturbed s (s.update id fun l => { l with
        task, gathering := some { left := (s.kept kind).length, tolerant := true } }) :=
      update s id fun _ _ => h
    exact hwaits.trans (foldl (fun child _ s => listen s id child) _)
  | follow assignment task => exact h.elim
  | finish answer => exact finish s id answer

theorem resume (hs : s.Patient) (id : Nat) (answer : Answer) :
    Undisturbed s (s.resume id answer) := by
  cases hl : Table.get? id s.live with
  | none =>
    unfold Session.resume
    rw [hl]
    exact refl s
  | some l =>
    obtain ⟨id', hmem⟩ := Table.exists_mem_of_get? hl
    have hturn := Task.step_patient s.world (fun k => !(s.kept k).isEmpty) (hs.tasks _ hmem) answer
    rw [resume_of_live hl]
    exact (withWorld s hturn.undisturbed).trans (perform _ id hturn.patient)

theorem report (s : Session) (owner : Nat) (answer : Answer) :
    Undisturbed s (s.report owner answer) := by
  have hkeeps (g : Option Gathering) :
      Undisturbed s (s.update owner fun l => { l with gathering := g }) :=
    update s owner fun _ h => h
  unfold Session.report
  split
  · exact refl s
  · split
    · exact (hkeeps none).trans (enqueue _ _)
    · dsimp only
      split
      · exact (hkeeps none).trans (enqueue _ _)
      · exact hkeeps _

/-- **Every turn but the one of the save leaves the next save alone.** -/
theorem take (hs : s.Patient) {t : Turn} (ht : t ≠ .save) : Undisturbed s (s.take t) := by
  cases t with
  | resume id answer => exact resume hs id answer
  | wake id answer => exact enqueue s _
  | forget kept id => exact withKept s fun _ _ _ hid => (List.mem_filter.1 hid).1
  | report owner answer => exact report s owner answer
  | save => exact absurd rfl ht

/-- Validations that wait are put in the queue. -/
theorem takeUp (s : Session) : Undisturbed s s.takeUp := by
  have hclear : s.world.Undisturbed
      (s.world.withStore fun store => { store with waiting := [] }) := .of_store rfl
  refine (withWorld s hclear).trans (foldl (fun t _ s => ?_) _)
  have hstarted : (Task.started t).IsPatient := trivial
  have hnone : Kept.validations = .runs → ∀ ids, ∀ id ∈ ids ++ [s.count], id ∈ ids := nofun
  exact (spawn s hstarted _).trans (withKept _ hnone)

theorem expire (s : Session) : Undisturbed s s.expire :=
  ⟨.refl _, Nat.le_refl _, fun _ hid => hid, id⟩

end Undisturbed

end Session

end LiveForm
