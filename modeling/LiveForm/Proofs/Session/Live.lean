import Mathlib
import LiveForm.Proofs.Value.Table
import LiveForm.Session.Basic

/-!
# Tasks under way

What the operations of a session do to its tasks. A task under way is found under its number; new
tasks get the next numbers and stand at the end of the queue (`Session.Spawned`), and a task that
takes its turn goes on as another task, or ends, and may start new ones (`Session.Performed`). That
all numbers in a session are those of tasks that there have been is `Session.Orderly`, which every
turn keeps.
-/

namespace LiveForm

/-- The turn lets a task with a number below the bound go on, or no task. -/
def Turn.Below (n : Nat) : Turn → Prop
  | resume id _ => id < n
  | wake id _ => id < n
  | _ => True

theorem Turn.Below.mono {n m : Nat} {t : Turn} (h : t.Below n) (hle : n ≤ m) : t.Below m := by
  cases t with
  | resume id a => exact Nat.lt_of_lt_of_le h hle
  | wake id a => exact Nat.lt_of_lt_of_le h hle
  | forget kept id => trivial
  | report owner a => trivial
  | save => trivial

namespace Session

/-- The task of a number, if it is under way. -/
def task? (s : Session) (id : Nat) : Option Task :=
  (Table.get? id s.live).map Live.task

theorem task?_of_live {s : Session} {id : Nat} {l : Live} (hl : Table.get? id s.live = some l) :
    s.task? id = some l.task :=
  congrArg (Option.map Live.task) hl

theorem isSome_task?_of_live {s : Session} {id : Nat} {l : Live}
    (hl : Table.get? id s.live = some l) : (s.task? id).isSome :=
  Option.isSome_iff_exists.2 ⟨l.task, task?_of_live hl⟩

/-- Of a task under way more is known than the task. -/
theorem exists_live_of_task? {s : Session} {id : Nat} {t : Task} (ht : s.task? id = some t) :
    ∃ l, Table.get? id s.live = some l ∧ l.task = t :=
  Option.map_eq_some_iff.1 ht

theorem task?_eq_none_iff {s : Session} {id : Nat} :
    s.task? id = none ↔ Table.get? id s.live = none :=
  Option.map_eq_none_iff

/-- A task that has been added is under way. -/
theorem task?_add_self (s : Session) (task : Task) (listeners : List Listener) :
    (s.add task listeners).2.task? s.count = some task := by
  have hlive : Table.get? s.count (s.add task listeners).2.live = some { task, listeners } :=
    Table.get?_put_self s.count _ s.live
  exact task?_of_live hlive

/-- How many tasks under way have a property. -/
def tally (s : Session) (p : Task → Bool) : Nat :=
  Table.tally (fun l : Live => p l.task) s.live

/-- A task under way with a property counts. -/
theorem tally_pos {s : Session} {id : Nat} {t : Task} (ht : s.task? id = some t)
    {p : Task → Bool} (hp : p t = true) : 0 < s.tally p := by
  obtain ⟨l, hl, rfl⟩ := exists_live_of_task? ht
  have hle := Table.tally_drop_le (fun l : Live => p l.task) hl
  rw [hp] at hle
  exact Nat.lt_of_lt_of_le (Nat.succ_pos _) hle

/-- The task listens to the end of another, and goes on as soon as that has ended. -/
def Follows (s : Session) (owner id : Nat) : Prop :=
  ∃ l, Table.get? id s.live = some l ∧ .follower owner ∈ l.listeners

/-- Every number in the session is that of a task that there has been. -/
structure Orderly (s : Session) : Prop where
  tasks : ∀ id, s.count ≤ id → Table.get? id s.live = none
  turns : ∀ t ∈ s.queue, t.Below s.count
  timers : ∀ t ∈ s.timers, t.id < s.count
  followers : ∀ owner id, s.Follows owner id → owner < s.count

/-- What the world is like has nothing to do with the numbers of tasks. -/
theorem Orderly.withWorld {s : Session} (h : s.Orderly) (w : World) :
    Orderly { s with world := w } :=
  ⟨h.tasks, h.turns, h.timers, h.followers⟩

theorem Orderly.lt_count {s : Session} (h : s.Orderly) {id : Nat} {t : Task}
    (ht : s.task? id = some t) : id < s.count := by
  by_contra hle
  rw [task?_eq_none_iff.2 (h.tasks id (by omega))] at ht
  exact absurd ht (by simp)

/-! ### Starting tasks -/

/-- Tasks have been added one after the other, each with the same listeners and at the end of the
queue. -/
structure Spawned (s : Session) (tasks : List Task) (listeners : List Listener) (s' : Session) :
    Prop where
  world : s'.world = s.world
  timers : s'.timers = s.timers
  count : s'.count = s.count + tasks.length
  queue : s'.queue = s.queue ++ (List.range' s.count tasks.length).map fun id =>
    .resume id (.ok .nothing)
  old : ∀ id, id < s.count → Table.get? id s'.live = Table.get? id s.live
  born : ∀ id, s.count ≤ id →
    Table.get? id s'.live = (tasks[id - s.count]?).map fun task => { task, listeners }
  tally : ∀ p, s'.tally p = s.tally p + tasks.countP p

namespace Spawned

variable {s s' s'' : Session} {listeners : List Listener}

theorem nil (h : ∀ id, s.count ≤ id → Table.get? id s.live = none) (listeners : List Listener) :
    Spawned s [] listeners s where
  world := rfl
  timers := rfl
  count := rfl
  queue := by simp
  old := fun _ _ => rfl
  born := fun id hid => by rw [h id hid]; rfl
  tally := fun p => rfl

/-- One task is added. -/
theorem spawn (h : ∀ id, s.count ≤ id → Table.get? id s.live = none) (task : Task)
    (listeners : List Listener) : Spawned s [task] listeners (s.spawn task listeners).2 where
  world := rfl
  timers := rfl
  count := rfl
  queue := rfl
  old := by
    intro id hid
    have hne : (s.count == id) = false := by simpa using (Nat.ne_of_lt hid).symm
    show Table.get? id (Table.put s.count { task, listeners } s.live) = _
    rw [Table.get?_put, hne, if_neg Bool.false_ne_true]
  born := by
    intro id hid
    show Table.get? id (Table.put s.count { task, listeners } s.live) = _
    rw [Table.get?_put]
    by_cases he : s.count = id
    · subst he
      simp
    · have hlt : 0 < id - s.count := by omega
      obtain ⟨n, hn⟩ := Nat.exists_eq_succ_of_ne_zero (Nat.ne_of_gt hlt)
      rw [if_neg (by simpa using he), h id hid, hn]
      rfl
  tally := by
    intro p
    show Table.tally _ (Table.put s.count { task, listeners } s.live) = _
    rw [Table.tally_put_new _ _ (h s.count (Nat.le_refl _))]
    unfold Session.tally
    cases hp : p task <;> simp [hp]

/-- Numbers that have not been given are not in use. -/
theorem unused {tasks : List Task} (h : Spawned s tasks listeners s') :
    ∀ id, s'.count ≤ id → Table.get? id s'.live = none := by
  intro id hid
  rw [h.count] at hid
  rw [h.born id (by omega), List.getElem?_eq_none (by omega)]
  rfl

/-- Tasks are added after others. -/
theorem append {tasks more : List Task} (h : Spawned s tasks listeners s')
    (g : Spawned s' more listeners s'') : Spawned s (tasks ++ more) listeners s'' where
  world := g.world.trans h.world
  timers := g.timers.trans h.timers
  count := by rw [g.count, h.count, List.length_append, Nat.add_assoc]
  queue := by
    rw [g.queue, h.queue, h.count, List.length_append, List.append_assoc, ← List.map_append,
      List.range'_append_1]
  old := by
    intro id hid
    have hcount := h.count
    rw [g.old id (by omega), h.old id hid]
  born := by
    intro id hid
    have hcount := h.count
    by_cases hlt : id < s'.count
    · rw [g.old id hlt, h.born id hid, List.getElem?_append_left (by omega)]
    · rw [g.born id (by omega), List.getElem?_append_right (by omega), hcount, Nat.sub_sub]
  tally := by
    intro p
    rw [g.tally, h.tally, List.countP_append, Nat.add_assoc]

/-- Tasks that were under way are as they were. -/
theorem task?_old {tasks : List Task} (h : Spawned s tasks listeners s') {id : Nat}
    (hid : id < s.count) : s'.task? id = s.task? id :=
  congrArg (Option.map Live.task) (h.old id hid)

/-- The tasks that have been added are under way under the next numbers. -/
theorem task?_born {tasks : List Task} (h : Spawned s tasks listeners s') {id : Nat}
    (hid : s.count ≤ id) : s'.task? id = tasks[id - s.count]? := by
  rw [task?, h.born id hid, Option.map_map]
  exact Option.map_id'

/-- A task of the session afterwards was there before, or has been added. -/
theorem task_cases {tasks : List Task} (h : Spawned s tasks listeners s') {id : Nat} {t : Task}
    (ht : s'.task? id = some t) : s.task? id = some t ∨ (s.count ≤ id ∧ t ∈ tasks) := by
  by_cases hlt : id < s.count
  · exact Or.inl ((h.task?_old hlt).symm.trans ht)
  · have hle : s.count ≤ id := by omega
    exact Or.inr ⟨hle, List.mem_of_getElem? ((h.task?_born hle).symm.trans ht)⟩

end Spawned

/-- The tasks that a task waits for are added in order. -/
theorem spawned_children {s : Session} (h : ∀ id, s.count ≤ id → Table.get? id s.live = none)
    (owner : Nat) (children : List Task) :
    Spawned s children [.gatherer owner]
      (children.foldl (fun s child => (s.spawn child [.gatherer owner]).2) s) := by
  induction children generalizing s with
  | nil => exact .nil h _
  | cons child rest ih =>
    have hone := Spawned.spawn h child [.gatherer owner]
    exact hone.append (ih hone.unused)

/-- Keeping a task in mind does not change what has been added. -/
theorem spawned_withKept {s s' : Session} {tasks : List Task} {listeners : List Listener}
    (h : Spawned s tasks listeners s') (kept : Kept) (f : List Nat → List Nat) :
    Spawned s tasks listeners (s'.withKept kept f) := by
  obtain ⟨hw, ht, hc, hq, ho, hb, hta⟩ := h
  cases kept with
  | validations => exact ⟨hw, ht, hc, hq, ho, hb, hta⟩
  | runs => exact ⟨hw, ht, hc, hq, ho, hb, hta⟩

theorem spawned_kept {s : Session} (h : ∀ id, s.count ≤ id → Table.get? id s.live = none)
    (kept : Kept) (task : Task) (listeners : List Listener) :
    Spawned s [task] (.keeper kept :: listeners) (s.spawnKept kept task listeners) := by
  have hspawned := Spawned.spawn h task (.keeper kept :: listeners)
  exact spawned_withKept hspawned kept (· ++ [(s.spawn task (.keeper kept :: listeners)).1])

theorem spawned_started {s : Session} (h : ∀ id, s.count ≤ id → Table.get? id s.live = none)
    (tickets : List Ticket) :
    Spawned s (tickets.map .started) [.keeper .validations]
      (tickets.foldl (fun s t => s.spawnKept .validations (.started t) []) s) := by
  induction tickets generalizing s with
  | nil => exact .nil h _
  | cons t rest ih =>
    have hone := spawned_kept h .validations (.started t) []
    exact hone.append (ih hone.unused)

/-- The validations that changes have begun are added in order. -/
theorem spawned_takeUp {s : Session} (h : ∀ id, s.count ≤ id → Table.get? id s.live = none) :
    Spawned { s with world := s.world.withStore fun store => { store with waiting := [] } }
      (s.world.form.store.waiting.map .started) [.keeper .validations] s.takeUp :=
  spawned_started (s := { s with world := s.world.withStore fun store =>
    { store with waiting := [] } }) h s.world.form.store.waiting

/-! ### Bookkeeping -/

/-- The same tasks are under way, and turns have come to the end of the queue. -/
structure Shuffled (s : Session) (more : List Turn) (s' : Session) : Prop where
  world : s'.world = s.world
  count : s'.count = s.count
  timers : s'.timers = s.timers
  queue : s'.queue = s.queue ++ more
  task : ∀ id, s'.task? id = s.task? id
  tally : ∀ p, s'.tally p = s.tally p
  follows : ∀ owner id, s'.Follows owner id → s.Follows owner id

namespace Shuffled

variable {s s' s'' : Session}

theorem refl (s : Session) : Shuffled s [] s where
  world := rfl
  count := rfl
  timers := rfl
  queue := (List.append_nil _).symm
  task := fun _ => rfl
  tally := fun _ => rfl
  follows := fun _ _ h => h

theorem trans {more later : List Turn} (h : Shuffled s more s') (g : Shuffled s' later s'') :
    Shuffled s (more ++ later) s'' where
  world := g.world.trans h.world
  count := g.count.trans h.count
  timers := g.timers.trans h.timers
  queue := by rw [g.queue, h.queue, List.append_assoc]
  task := fun id => (g.task id).trans (h.task id)
  tally := fun p => (g.tally p).trans (h.tally p)
  follows := fun owner id hf => h.follows owner id (g.follows owner id hf)

theorem enqueue (s : Session) (t : Turn) : Shuffled s [t] (s.enqueue t) where
  world := rfl
  count := rfl
  timers := rfl
  queue := rfl
  task := fun _ => rfl
  tally := fun _ => rfl
  follows := fun _ _ h => h

theorem withKept (s : Session) (kept : Kept) (f : List Nat → List Nat) :
    Shuffled s [] (s.withKept kept f) := by
  cases kept with
  | validations =>
    exact ⟨rfl, rfl, rfl, (List.append_nil _).symm, fun _ => rfl, fun _ => rfl, fun _ _ h => h⟩
  | runs =>
    exact ⟨rfl, rfl, rfl, (List.append_nil _).symm, fun _ => rfl, fun _ => rfl, fun _ _ h => h⟩

end Shuffled

theorem get?_update (s : Session) (id : Nat) (f : Live → Live) (i : Nat) :
    Table.get? i (s.update id f).live =
      if id == i then (Table.get? i s.live).map f else Table.get? i s.live := by
  unfold update
  cases h : Table.get? id s.live with
  | none =>
    by_cases hi : id == i
    · obtain rfl := eq_of_beq hi
      rw [if_pos hi, h]
      rfl
    · rw [if_neg hi]
  | some l =>
    show Table.get? i (Table.put id (f l) s.live) = _
    rw [Table.get?_put]
    by_cases hi : id == i
    · obtain rfl := eq_of_beq hi
      rw [if_pos hi, if_pos hi, h]
      rfl
    · rw [if_neg hi, if_neg hi]

theorem task?_update (s : Session) (id : Nat) (f : Live → Live) (i : Nat) :
    (s.update id f).task? i =
      if id == i then (Table.get? i s.live).map fun l => (f l).task else s.task? i := by
  rw [task?, get?_update]
  split
  · exact Option.map_map ..
  · rfl

/-- Who follows a task does not change while nobody new listens to it. -/
theorem follows_of_update {s : Session} {id : Nat} {f : Live → Live}
    (hlisten : ∀ l owner, .follower owner ∈ (f l).listeners → .follower owner ∈ l.listeners)
    {owner i : Nat} (h : (s.update id f).Follows owner i) : s.Follows owner i := by
  obtain ⟨l', hl', hmem⟩ := h
  rw [get?_update] at hl'
  split at hl'
  · obtain ⟨l, hl, rfl⟩ := Option.map_eq_some_iff.1 hl'
    exact ⟨l, hl, hlisten l owner hmem⟩
  · exact ⟨l', hl', hmem⟩

theorem tally_update {s : Session} {id : Nat} {l : Live} (h : Table.get? id s.live = some l)
    (f : Live → Live) (p : Task → Bool) :
    (s.update id f).tally p + (p l.task).toNat = s.tally p + (p (f l).task).toNat := by
  unfold update tally
  rw [h]
  exact Table.tally_put_old (fun l : Live => p l.task) (f l) h

/-- Changing what is known of a task, but not the task, is bookkeeping. -/
theorem Shuffled.update (s : Session) (id : Nat) {f : Live → Live}
    (htask : ∀ l, (f l).task = l.task)
    (hlisten : ∀ l owner, .follower owner ∈ (f l).listeners → .follower owner ∈ l.listeners) :
    Shuffled s [] (s.update id f) := by
  cases h : Table.get? id s.live with
  | none =>
    have hs : s.update id f = s := by
      unfold Session.update
      rw [h]
    rw [hs]
    exact .refl s
  | some l =>
    have hput : s.update id f = { s with live := Table.put id (f l) s.live } := by
      unfold Session.update
      rw [h]
    refine ⟨by rw [hput], by rw [hput], by rw [hput], by rw [hput, List.append_nil], ?_, ?_,
      fun _ _ => follows_of_update hlisten⟩
    · intro i
      rw [task?_update]
      simp only [htask]
      exact ite_self _
    · intro p
      have htally := tally_update h f p
      rw [htask] at htally
      omega

/-- A task that listens to another hears of its end in time. -/
theorem listen_shuffled (s : Session) (owner id : Nat) :
    ∃ more, Shuffled s more (s.listen owner id) ∧ ∀ t ∈ more, ∃ a, t = .report owner a := by
  unfold listen
  cases Table.get? id s.ended with
  | some answer =>
    refine ⟨_, .enqueue s _, ?_⟩
    intro t ht
    exact ⟨answer, List.mem_singleton.1 ht⟩
  | none =>
    refine ⟨[], .update s id (fun _ => rfl) ?_, fun t ht => absurd ht (by simp)⟩
    intro l o ho
    simpa using ho

theorem listen_all_shuffled (owner : Nat) (ids : List Nat) (s : Session) :
    ∃ more, Shuffled s more (ids.foldl (fun s id => s.listen owner id) s) ∧
      ∀ t ∈ more, ∃ a, t = .report owner a := by
  induction ids generalizing s with
  | nil => exact ⟨[], .refl s, fun t ht => absurd ht (by simp)⟩
  | cons id rest ih =>
    obtain ⟨more, hs, hmore⟩ := listen_shuffled s owner id
    obtain ⟨later, hl, hlater⟩ := ih (s.listen owner id)
    refine ⟨more ++ later, hs.trans hl, ?_⟩
    intro t ht
    rcases List.mem_append.1 ht with h | h
    · exact hmore t h
    · exact hlater t h

/-- Hearing that a task has ended, another goes on, or goes on waiting. -/
theorem report_shuffled (s : Session) (owner : Nat) (answer : Answer) :
    ∃ more, Shuffled s more (s.report owner answer) ∧
      ∀ t ∈ more, (∃ a, t = .resume owner a) ∧ (s.task? owner).isSome := by
  have hnone : ∀ t ∈ ([] : List Turn), (∃ a, t = .resume owner a) ∧ (s.task? owner).isSome :=
    fun t ht => absurd ht (by simp)
  have hone : ∀ (l : Live) (a : Answer), Table.get? owner s.live = some l →
      ∀ t ∈ [] ++ [Turn.resume owner a],
        (∃ a, t = .resume owner a) ∧ (s.task? owner).isSome := by
    intro l a hl t ht
    exact ⟨⟨a, List.mem_singleton.1 ht⟩, isSome_task?_of_live hl⟩
  unfold report
  cases hl : Table.get? owner s.live with
  | none => exact ⟨[], .refl s, hnone⟩
  | some l =>
    cases hg : l.gathering with
    | none =>
      simp only [Option.bind_some, hg]
      exact ⟨[], .refl s, hnone⟩
    | some g =>
      simp only [Option.bind_some, hg]
      have hupdate : ∀ g', Shuffled s [] (s.update owner fun l => { l with gathering := g' }) :=
        fun g' => .update s owner (fun _ => rfl) (fun _ _ h => h)
      split
      · exact ⟨_, (hupdate none).trans (.enqueue _ _), hone l _ hl⟩
      · split
        · exact ⟨_, (hupdate none).trans (.enqueue _ _), hone l _ hl⟩
        · exact ⟨[], hupdate _, hnone⟩

end Session

/-! ### Turns -/

namespace Next

/-- What the task will be when it goes on, unless it ends. -/
def task? : Next → Option Task
  | .pause _ _ task => some task
  | .gather _ task => some task
  | .settle _ task => some task
  | .follow _ task => some task
  | .finish _ => none

/-- The tasks that are started. -/
def children : Next → List Task
  | .gather children _ => children
  | .follow a _ => [.run (.ofAssignment a)]
  | _ => []

end Next

namespace Session

/-- A task has taken its turn: it is what it says it will be, and its children stand in the queue.
If it waits for them, it does not stand in the queue again itself. -/
structure Performed (s : Session) (id : Nat) (next : Next) (s' : Session) : Prop where
  world : s'.world = s.world
  count : s'.count = s.count + next.children.length
  task : s'.task? id = next.task?
  others : ∀ i, i ≠ id → i < s.count → s'.task? i = s.task? i
  born : ∀ i, s.count ≤ i → s'.task? i = next.children[i - s.count]?
  queue : ∃ more, s'.queue = s.queue ++ more ∧ (∀ t ∈ more, t.Below s'.count) ∧
    (∀ i, s.count ≤ i → i < s'.count → .resume i (.ok .nothing) ∈ more) ∧
    ∀ a, .resume id a ∈ more → ∀ children task, next ≠ .gather children task
  timers : ∀ t ∈ s'.timers, t ∈ s.timers ∨ t.id = id
  follows : ∀ owner i, s'.Follows owner i →
    s.Follows owner i ∨ (owner = id ∧ ∃ a task, next = .follow a task)
  tally : ∀ p task, s.task? id = some task →
    s'.tally p + (p task).toNat ≤
      s.tally p + (next.task?.elim 0 fun task => (p task).toNat) + next.children.countP p

variable {s s' : Session} {id : Nat}

theorem Spawned.follows {tasks : List Task} {listeners : List Listener}
    (h : Spawned s tasks listeners s') {owner i : Nat} (hf : s'.Follows owner i) :
    s.Follows owner i ∨ .follower owner ∈ listeners := by
  obtain ⟨l, hl, hmem⟩ := hf
  by_cases hlt : i < s.count
  · rw [h.old i hlt] at hl
    exact Or.inl ⟨l, hl, hmem⟩
  · rw [h.born i (by omega)] at hl
    obtain ⟨task, -, rfl⟩ := Option.map_eq_some_iff.1 hl
    exact Or.inr hmem

theorem update_eq (s : Session) (id : Nat) (f : Live → Live) :
    ∃ live, s.update id f = { s with live } := by
  unfold update
  cases Table.get? id s.live with
  | none => exact ⟨s.live, rfl⟩
  | some l => exact ⟨Table.put id (f l) s.live, rfl⟩

@[simp] theorem update_world (s : Session) (id : Nat) (f : Live → Live) :
    (s.update id f).world = s.world := by
  obtain ⟨live, h⟩ := s.update_eq id f
  rw [h]

@[simp] theorem update_count (s : Session) (id : Nat) (f : Live → Live) :
    (s.update id f).count = s.count := by
  obtain ⟨live, h⟩ := s.update_eq id f
  rw [h]

@[simp] theorem update_queue (s : Session) (id : Nat) (f : Live → Live) :
    (s.update id f).queue = s.queue := by
  obtain ⟨live, h⟩ := s.update_eq id f
  rw [h]

@[simp] theorem update_timers (s : Session) (id : Nat) (f : Live → Live) :
    (s.update id f).timers = s.timers := by
  obtain ⟨live, h⟩ := s.update_eq id f
  rw [h]

theorem Orderly.update_unused (h : s.Orderly) (id : Nat) (f : Live → Live) :
    ∀ i, (s.update id f).count ≤ i → Table.get? i (s.update id f).live = none := by
  intro i hi
  rw [update_count] at hi
  rw [get?_update, h.tasks i hi]
  exact ite_self none

/-- A task that becomes another, starts its children and does bookkeeping has taken its turn. -/
theorem performed_of_spawned (next : Next) {task : Task} {s₁ : Session} {listeners : List Listener}
    (hid : (s.task? id).isSome) (hlt : id < s.count) (htask : next.task? = some task)
    (f : Live → Live) (hf : ∀ l, (f l).task = task) (hl : ∀ l, (f l).listeners = l.listeners)
    (hs : Spawned (s.update id f) next.children listeners s₁)
    (hlisten : ∀ owner, .follower owner ∈ listeners → owner = id ∧ ∃ a task, next = .follow a task)
    (more : List Turn) (hmore : ∀ t ∈ more, t.Below s.count)
    (hself : ∀ a, .resume id a ∈ more → ∀ children task, next ≠ .gather children task)
    (hs' : Shuffled s₁ more s') : Performed s id next s' := by
  obtain ⟨_, ht⟩ := Option.isSome_iff_exists.1 hid
  obtain ⟨l, hlive, rfl⟩ := exists_live_of_task? ht
  have hcount : s'.count = s.count + next.children.length := by
    rw [hs'.count, hs.count, update_count]
  have hold : ∀ i, i < s.count → s'.task? i = (s.update id f).task? i := by
    intro i hi
    rw [hs'.task, hs.task?_old (by rw [update_count]; exact hi)]
  have hqueue : s'.queue = s.queue ++ ((List.range' s.count next.children.length).map
      (fun i => .resume i (.ok .nothing)) ++ more) := by
    rw [hs'.queue, hs.queue, update_queue, update_count, List.append_assoc]
  refine ⟨?_, hcount, ?_, ?_, ?_, ⟨_, hqueue, ?_, ?_, ?_⟩, ?_, ?_, ?_⟩
  · rw [hs'.world, hs.world, update_world]
  · rw [hold id hlt, htask, task?_update, if_pos (beq_self_eq_true id), hlive]
    exact congrArg some (hf l)
  · intro i hne hi
    rw [hold i hi, task?_update, if_neg (by simpa using hne.symm)]
  · intro i hi
    rw [hs'.task, hs.task?_born (by rw [update_count]; exact hi), update_count]
  · intro t ht
    rcases List.mem_append.1 ht with hnew | hold
    · obtain ⟨i, hi, rfl⟩ := List.mem_map.1 hnew
      rw [hcount]
      exact (List.mem_range'_1.1 hi).2
    · exact (hmore t hold).mono (by omega)
  · intro i hi hi'
    refine List.mem_append_left more (List.mem_map.2 ⟨i, List.mem_range'_1.2 ⟨hi, ?_⟩, rfl⟩)
    omega
  · intro a ha
    rcases List.mem_append.1 ha with hnew | hold
    · obtain ⟨i, hi, he⟩ := List.mem_map.1 hnew
      have hle := (List.mem_range'_1.1 hi).1
      obtain rfl := (Turn.resume.inj he).1
      exact absurd hlt (Nat.not_lt.2 hle)
    · exact hself a hold
  · intro t ht
    rw [hs'.timers, hs.timers, update_timers] at ht
    exact Or.inl ht
  · intro owner i hfollows
    exact (hs.follows (hs'.follows owner i hfollows)).imp
      (follows_of_update fun l _ hmem => hl l ▸ hmem) (hlisten owner)
  · intro p old hold
    obtain rfl : l.task = old := Option.some.inj (ht.symm.trans hold)
    have htally := tally_update hlive f p
    rw [hf] at htally
    rw [hs'.tally, hs.tally, htask]
    show _ ≤ s.tally p + (p task).toNat + _
    omega

theorem mem_insertTimer {t u : Timer} {timers : List Timer} (h : u ∈ insertTimer t timers) :
    u ∈ timers ∨ u = t := by
  induction timers with
  | nil => exact Or.inr (List.mem_singleton.1 h)
  | cons v rest ih =>
    unfold insertTimer at h
    split at h
    · rcases List.mem_cons.1 h with rfl | hrest
      · exact Or.inr rfl
      · exact Or.inl hrest
    · rcases List.mem_cons.1 h with rfl | hrest
      · exact Or.inl (List.mem_cons_self ..)
      · rcases ih hrest with hmem | he
        · exact Or.inl (List.mem_cons_of_mem v hmem)
        · exact Or.inr he

/-- A task may set the time at which it goes on. -/
theorem Performed.timer {next : Next} (h : Performed s id next s') (due : Instant)
    (answer : Answer) :
    Performed s id next { s' with timers := insertTimer ⟨due, id, answer⟩ s'.timers } := by
  obtain ⟨hw, hc, ht, ho, hb, hq, htimers, hf, hta⟩ := h
  refine ⟨hw, hc, ht, ho, hb, hq, ?_, hf, hta⟩
  intro t hmem
  rcases mem_insertTimer hmem with hold | rfl
  · exact htimers t hold
  · exact Or.inr rfl

theorem performed_finish (h : s.Orderly) (id : Nat) (answer : Answer) :
    Performed s id (.finish answer) (s.finish id answer) := by
  have hget : ∀ i, Table.get? i (s.finish id answer).live =
      if id == i then none else Table.get? i s.live := by
    intro i
    exact Table.get?_drop id i s.live
  refine ⟨rfl, rfl, ?_, ?_, ?_, ⟨_, rfl, ?_, ?_, ?_⟩, fun t ht => Or.inl ht, ?_, ?_⟩
  · refine task?_eq_none_iff.2 ?_
    rw [hget, if_pos (beq_self_eq_true id)]
  · intro i hne _
    rw [task?, hget, if_neg (by simpa using hne.symm)]
    rfl
  · intro i hi
    refine task?_eq_none_iff.2 ?_
    rw [hget, h.tasks i hi, ite_self]
  · intro t ht
    obtain ⟨listener, hlistener, rfl⟩ := List.mem_map.1 ht
    cases listener with
    | keeper kept => trivial
    | gatherer owner => trivial
    | follower owner =>
      cases hlive : Table.get? id s.live with
      | none => rw [hlive] at hlistener; exact absurd hlistener (by simp)
      | some l =>
        rw [hlive] at hlistener
        exact h.followers owner id ⟨l, hlive, hlistener⟩
  · intro i hi hi'
    exact absurd hi' (Nat.not_lt.2 hi)
  · exact fun a _ children task hnext => absurd hnext (by simp)
  · rintro owner i ⟨l, hl, hmem⟩
    rw [hget] at hl
    by_cases hi : id == i
    · rw [if_pos hi] at hl
      exact absurd hl (by simp)
    · rw [if_neg hi] at hl
      exact Or.inl ⟨l, hl, hmem⟩
  · intro p old hold
    obtain ⟨l, hl, rfl⟩ := exists_live_of_task? hold
    exact Table.tally_drop_le (fun l : Live => p l.task) hl

/-- **What a task does in its turn.** -/
theorem performed (h : s.Orderly) (hid : (s.task? id).isSome) (next : Next) :
    Performed s id next (s.perform id next) := by
  have hlt : id < s.count := by
    obtain ⟨t, ht⟩ := Option.isSome_iff_exists.1 hid
    exact h.lt_count ht
  have hnobody : ∀ owner, .follower owner ∈ ([] : List Listener) →
      owner = id ∧ ∃ a task, next = .follow a task := fun _ ho => absurd ho (by simp)
  cases next with
  | pause duration answer task =>
    have hbecome : ∀ more s', (∀ t ∈ more, t.Below s.count) →
        Shuffled (s.become id task) more s' → Performed s id (.pause duration answer task) s' :=
      fun more _ hmore hs => performed_of_spawned _ hid hlt rfl (fun l => { l with task })
        (fun l => rfl) (fun l => rfl) (Spawned.nil (h.update_unused id _) []) hnobody more hmore
        (fun _ _ children task hnext => absurd hnext (by simp)) hs
    by_cases hd : duration == 0
    · have hperform : s.perform id (.pause duration answer task) =
          (s.become id task).enqueue (.resume id answer) := if_pos hd
      rw [hperform]
      refine hbecome _ _ ?_ (Shuffled.enqueue _ _)
      intro t ht
      obtain rfl := List.mem_singleton.1 ht
      exact hlt
    · have hperform : s.perform id (.pause duration answer task) =
          { s.become id task with
            timers := insertTimer ⟨(s.become id task).now + duration, id, answer⟩
              (s.become id task).timers } := if_neg hd
      rw [hperform]
      exact (hbecome [] _ (fun t ht => absurd ht (by simp)) (Shuffled.refl _)).timer _ _
  | gather children task =>
    let f : Live → Live := fun l =>
      { l with task, gathering := some { left := children.length, tolerant := false } }
    refine performed_of_spawned _ hid hlt rfl f (fun l => rfl) (fun l => rfl)
      (spawned_children (h.update_unused id f) id children) ?_ [] ?_ ?_ (Shuffled.refl _)
    · intro owner ho
      exact absurd ho (by simp)
    · exact fun t ht => absurd ht (by simp)
    · exact fun a ha => absurd ha (by simp)
  | settle kept task =>
    let f : Live → Live := fun l =>
      { l with task, gathering := some { left := (s.kept kept).length, tolerant := true } }
    obtain ⟨more, hs, hmore⟩ := listen_all_shuffled id (s.kept kept) (s.update id f)
    refine performed_of_spawned _ hid hlt rfl f (fun l => rfl) (fun l => rfl)
      (Spawned.nil (h.update_unused id f) []) hnobody more ?_ ?_ hs
    · intro t ht
      obtain ⟨a, rfl⟩ := hmore t ht
      trivial
    · exact fun _ _ children task hnext => absurd hnext (by simp)
  | follow a task =>
    let f : Live → Live := fun l => { l with task }
    refine performed_of_spawned _ hid hlt rfl f (fun l => rfl) (fun l => rfl)
      (spawned_kept (h.update_unused id f) .runs (.run (.ofAssignment a)) [.follower id]) ?_
      [] ?_ ?_ (Shuffled.refl _)
    · intro owner ho
      have howner : owner = id := by simpa using ho
      exact ⟨howner, a, task, rfl⟩
    · exact fun t ht => absurd ht (by simp)
    · exact fun a ha => absurd ha (by simp)
  | finish answer => exact performed_finish h id answer

/-- A turn keeps the session orderly. -/
theorem Performed.orderly {next : Next} (h : s.Orderly) (hlt : id < s.count)
    (hp : Performed s id next s') : s'.Orderly := by
  have hcount := hp.count
  refine ⟨?_, ?_, ?_, ?_⟩
  · intro i hi
    refine task?_eq_none_iff.1 ?_
    rw [hp.born i (by omega), List.getElem?_eq_none (by omega)]
  · intro t ht
    obtain ⟨more, hq, hmore, -⟩ := hp.queue
    rw [hq] at ht
    rcases List.mem_append.1 ht with hold | hnew
    · exact (h.turns t hold).mono (by omega)
    · exact hmore t hnew
  · intro t ht
    rcases hp.timers t ht with hold | rfl
    · exact Nat.lt_of_lt_of_le (h.timers t hold) (by omega)
    · omega
  · intro owner i hf
    rcases hp.follows owner i hf with hold | ⟨rfl, -⟩
    · exact Nat.lt_of_lt_of_le (h.followers owner i hold) (by omega)
    · omega

/-- Bookkeeping keeps the session orderly, if it lets only tasks go on that there have been. -/
theorem Shuffled.orderly {more : List Turn} (h : s.Orderly) (hs : Shuffled s more s')
    (hmore : ∀ t ∈ more, t.Below s.count) : s'.Orderly := by
  refine ⟨?_, ?_, ?_, ?_⟩
  · intro i hi
    rw [hs.count] at hi
    exact task?_eq_none_iff.1 ((hs.task i).trans (task?_eq_none_iff.2 (h.tasks i hi)))
  · intro t ht
    rw [hs.queue] at ht
    rw [hs.count]
    rcases List.mem_append.1 ht with hold | hnew
    · exact h.turns t hold
    · exact hmore t hnew
  · intro t ht
    rw [hs.timers] at ht
    rw [hs.count]
    exact h.timers t ht
  · intro owner i hf
    rw [hs.count]
    exact h.followers owner i (hs.follows owner i hf)

/-- New tasks keep the session orderly. -/
theorem Spawned.orderly {tasks : List Task} {listeners : List Listener} (h : s.Orderly)
    (hs : Spawned s tasks listeners s')
    (hlisten : ∀ owner, .follower owner ∈ listeners → owner < s.count) : s'.Orderly := by
  have hcount := hs.count
  refine ⟨hs.unused, ?_, ?_, ?_⟩
  · intro t ht
    rw [hs.queue] at ht
    rcases List.mem_append.1 ht with hold | hnew
    · exact (h.turns t hold).mono (by omega)
    · obtain ⟨i, hi, rfl⟩ := List.mem_map.1 hnew
      rw [hcount]
      exact (List.mem_range'_1.1 hi).2
  · intro t ht
    rw [hs.timers] at ht
    exact Nat.lt_of_lt_of_le (h.timers t ht) (by omega)
  · intro owner i hf
    rcases hs.follows hf with hold | hnew
    · exact Nat.lt_of_lt_of_le (h.followers owner i hold) (by omega)
    · exact Nat.lt_of_lt_of_le (hlisten owner hnew) (by omega)

/-- A task of the session afterwards was there before, or is what the task has become, or has been
started. -/
theorem Performed.task_cases {next : Next} (hp : Performed s id next s') {i : Nat} {t : Task}
    (ht : s'.task? i = some t) :
    (i = id ∧ next.task? = some t) ∨ (i ≠ id ∧ i < s.count ∧ s.task? i = some t) ∨
      (s.count ≤ i ∧ i < s'.count ∧ t ∈ next.children) := by
  by_cases hi : i = id
  · subst hi
    rw [hp.task] at ht
    exact Or.inl ⟨rfl, ht⟩
  · by_cases hlt : i < s.count
    · rw [hp.others i hi hlt] at ht
      exact Or.inr (Or.inl ⟨hi, hlt, ht⟩)
    · rw [hp.born i (by omega)] at ht
      have hin := (List.getElem?_eq_some_iff.1 ht).1
      have hcount := hp.count
      exact Or.inr (Or.inr ⟨by omega, by omega, List.mem_of_getElem? ht⟩)

end Session

end LiveForm
