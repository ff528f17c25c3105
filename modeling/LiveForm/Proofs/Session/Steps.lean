import Mathlib
import LiveForm.Proofs.Session.Sound

/-!
# What events come to

An event of a session is one of three things: a task goes on, a change writes to the form and begins
validations, or at most one task joins those under way, while the store is left alone
(`Session.Sound.happen_step`).
-/

namespace LiveForm

namespace Session

/-- Tasks have joined those under way. The store is the same. -/
structure Joined (s : Session) (more : List Task) (s' : Session) : Prop where
  steady : s.world.Steady s'.world
  store : s'.store = s.store
  task : ∀ id t, s'.task? id = some t → s.task? id = some t ∨ t ∈ more
  kept : ∀ id t, s.task? id = some t → s'.task? id = some t

/-- What may join the tasks under way: a plain task, or a run of all that has changed. -/
def MayJoin (s : Session) (t : Task) : Prop :=
  t.IsPlain ∨ ∃ r, t = .run r ∧ r.phase = .created ∧
    ∀ f ∈ r.batch.changed, s.world.form.autoSave.Owes f

/-- What an event comes to. -/
inductive Step (s : Session) : Session → Prop
  | joins {s' : Session} (more : List Task) : Joined s more s' → (∀ t ∈ more, s.MayJoin t) →
      Step s s'
  | changes {s' : Session} (name : FieldName) (v : Value) (w : World) (now : Instant) :
      w.host = s.world.host → s.world.form.IsField name →
      Form.Edited (s.world.form.changed name v now) w.form →
      s' = Session.takeUp { s with world := w } → Step s s'
  | goesOn {s' s₁ : Session} (more : List Task) (id : Nat) (answer : Answer) (task : Task)
      (x : Next × World) : Joined s more s₁ → (∀ t ∈ more, t.IsPlain) → s₁.Sound →
      GoesOn s₁ id answer task x s' → Step s s'

variable {s s' s'' : Session}

namespace Joined

/-- Nothing has happened to the tasks. -/
theorem of_task (hsteady : s.world.Steady s'.world) (hstore : s'.store = s.store)
    (htask : ∀ id, s'.task? id = s.task? id) : Joined s [] s' where
  steady := hsteady
  store := hstore
  task := fun id _ ht => Or.inl (htask id ▸ ht)
  kept := fun id _ ht => (htask id).trans ht

theorem of_shuffled {more : List Turn} (hs : Shuffled s more s') : Joined s [] s' :=
  of_task (.of_form (congrArg World.host hs.world) (congrArg World.form hs.world))
    (congrArg (fun w => w.form.store) hs.world) hs.task

theorem of_spawned {tasks : List Task} {listeners : List Listener} (ho : s.Orderly)
    (hs : Spawned s tasks listeners s') : Joined s tasks s' where
  steady := .of_form (congrArg World.host hs.world) (congrArg World.form hs.world)
  store := congrArg (fun w => w.form.store) hs.world
  task := fun _ _ ht => (hs.task_cases ht).imp_right And.right
  kept := fun _ _ ht => (hs.task?_old (ho.lt_count ht)).trans ht

theorem trans {more : List Task} (h : Joined s [] s') (g : Joined s' more s'') :
    Joined s more s'' where
  steady := h.steady.trans g.steady
  store := g.store.trans h.store
  task := by
    intro id t ht
    rcases g.task id t ht with hold | hnew
    · exact (h.task id t hold).imp_right fun hin => absurd hin (by simp)
    · exact Or.inr hnew
  kept := fun id t ht => g.kept id t (h.kept id t ht)

end Joined

/-- The same store, and another state of saving with no lower version and no more fields that have
changed. -/
theorem joined_withAutoSave (f : AutoSave → AutoSave)
    (hversion : s.version ≤ (f s.world.form.autoSave).version)
    (howes : ∀ name, (f s.world.form.autoSave).Owes name → s.world.form.autoSave.Owes name) :
    Joined s [] { s with world := s.world.withAutoSave f } :=
  .of_task (.of_parts rfl rfl rfl rfl hversion howes) rfl (fun _ => rfl)

/-- When the time of a save comes, a run may join. -/
theorem startRun_joined (h : s.Orderly) :
    ∃ more, Joined s more s.startRun ∧ ∀ t ∈ more, s.MayJoin t := by
  rcases s.startRun_cases with heq | heq | ⟨a, saving, hs, heq⟩
  · rw [heq]
    exact ⟨[], .of_task (.of_form rfl rfl) rfl fun _ => rfl, by simp⟩
  · rw [heq]
    exact ⟨[], joined_withAutoSave AutoSave.disarm (Nat.le_refl _) fun _ hf => hf, by simp⟩
  · have hwithout : Joined s [] { s with world := s.world.withAutoSave fun _ => saving } := by
      refine joined_withAutoSave (fun _ => saving) ?_ (fun f hf => AutoSave.owes_of_start? hs hf)
      obtain ⟨rfl, rfl⟩ := AutoSave.start?_eq hs
      exact Nat.le_succ _
    have hspawned := spawned_kept (s := { s with world := s.world.withAutoSave fun _ => saving })
      h.tasks .runs (.run (.ofAssignment a)) []
    rw [heq]
    refine ⟨_, hwithout.trans (.of_spawned (h.withWorld _) hspawned), fun t ht => ?_⟩
    obtain rfl := List.mem_singleton.1 ht
    refine Or.inr ⟨_, rfl, rfl, fun f hf => ?_⟩
    obtain ⟨rfl, rfl⟩ := AutoSave.start?_eq hs
    exact (AutoSave.mem_collected _).1 hf

/-- **What an event comes to.** -/
theorem Sound.happen_step (h : s.Sound) {e : Event} (he : e.IsUsual) : Step s (s.happen e) := by
  have hnothing : Joined s [] s := .of_task (.of_form rfl rfl) rfl fun _ => rfl
  cases e with
  | change name v =>
    obtain ⟨w, hhost, ⟨hsame, heq⟩ | ⟨now, hfield, hedited, heq⟩⟩ := h.change_cases name v
    · rw [heq]
      exact .joins [] (.of_task (.of_form hhost hsame) (congrArg Form.store hsame) fun _ => rfl)
        (by simp)
    · exact .changes name v w now hhost hfield hedited heq
  | cancel =>
    refine .joins [] (joined_withAutoSave AutoSave.cancel (Nat.le_succ _) fun _ hf => hf) (by simp)
  | launch task =>
    refine .joins [task] (.of_spawned h.orderly (.spawn h.orderly.tasks task [])) ?_
    intro t ht
    obtain rfl := List.mem_singleton.1 ht
    exact Or.inl he
  | ask task =>
    have hspawned : Joined s [task] (s.spawn task []).2 :=
      .of_spawned h.orderly (.spawn h.orderly.tasks task [])
    have hadded : Joined s [task] (s.add task []).2 :=
      ⟨hspawned.steady, hspawned.store, hspawned.task, hspawned.kept⟩
    rcases (h.add he).1.resume_cases s.count (.ok .nothing) with ⟨hnone, -⟩ | ⟨task', x, hgo⟩
    · exact absurd (hnone.symm.trans (s.task?_add_self task [])) (by simp)
    · refine .goesOn [task] _ _ task' x hadded (fun t ht => ?_) (h.add he).1 hgo
      obtain rfl := List.mem_singleton.1 ht
      exact he
  | turn =>
    unfold Session.happen
    cases hq : s.queue with
    | nil => exact .joins [] hnothing (by simp)
    | cons t rest =>
      have hpop : Joined s [] { s with queue := rest } :=
        .of_task (.of_form rfl rfl) rfl fun _ => rfl
      have hshuffled : ∀ {more s'}, Shuffled { s with queue := rest } more s' → Step s s' :=
        fun hs => .joins [] (hpop.trans (.of_shuffled hs)) (by simp)
      cases t with
      | resume id a =>
        rcases (h.pop hq).resume_cases id a with ⟨-, heq⟩ | ⟨task, x, hgo⟩
        · show Step s (Session.resume { s with queue := rest } id a)
          rw [heq]
          exact .joins [] hpop (by simp)
        · exact .goesOn [] id a task x hpop (by simp) (h.pop hq) hgo
      | wake id a => exact hshuffled (.enqueue _ _)
      | forget kept id => exact hshuffled (.withKept _ _ _)
      | report owner a =>
        obtain ⟨more, hs, -⟩ := report_shuffled { s with queue := rest } owner a
        exact hshuffled hs
      | save =>
        obtain ⟨more, hjoined, hmore⟩ := startRun_joined (h.pop hq).orderly
        exact .joins more (hpop.trans hjoined) hmore
  | expire => exact .joins [] (.of_task (.of_form rfl rfl) rfl fun _ => rfl) (by simp)
  | pass t =>
    refine .joins [] (.of_task ?_ rfl fun _ => rfl) (by simp)
    exact ⟨rfl, rfl, rfl, rfl, fun _ => rfl, rfl, rfl, Nat.le_refl _, fun _ hf => hf⟩

/-- No event changes what fields are subscribed to. -/
theorem Sound.happen_graph (h : s.Sound) {e : Event} (he : e.IsUsual) :
    (s.happen e).world.form.graph = s.world.form.graph := by
  have hstep := h.happen_step he
  revert hstep
  generalize s.happen e = s'
  intro hstep
  cases hstep with
  | joins more hj _ => exact hj.steady.graph
  | changes name v w now _ _ hedited heq =>
    have hspawned := spawned_takeUp (s := { s with world := w }) h.orderly.tasks
    rw [heq, hspawned.world]
    exact hedited.graph
  | goesOn more id answer task x hj _ _ hgo =>
    exact hgo.steady.graph.trans hj.steady.graph

end Session

end LiveForm
