import Mathlib
import LiveForm.Proofs.Session.Live

/-!
# What concerns a task

A task that waits for others learns of their ends one report at a time. What concerns it is little
of the session: the task itself, those that will tell it of their end, and among the turns and
pauses those that are its own or tell it something (`Session.view`). For each operation of a session
one equation says what becomes of this view; most operations leave it as it is.
-/

namespace LiveForm

/-- The listener is a task of the number, which waits for several. -/
def Listener.tells (owner : Nat) : Listener → Bool
  | gatherer o => o == owner
  | _ => false

/-- The task of the number waits for this one and others. -/
def Live.tells (owner : Nat) (l : Live) : Bool :=
  l.listeners.any (Listener.tells owner)

/-- The turn is one of the task of the number, or tells it something. -/
def Turn.concerns (owner : Nat) : Turn → Bool
  | resume id _ => id == owner
  | wake id _ => id == owner
  | report o _ => o == owner
  | _ => false

/-- What concerns a task. -/
structure View where
  /-- The task, if it is under way. -/
  live : Option Live := none
  /-- Those that will tell it of their end. -/
  kids : Table Nat Live := []
  /-- The turns that are its own or tell it something. -/
  turns : List Turn := []
  /-- Its pauses. -/
  timers : List Timer := []

namespace Session

variable {s : Session} {owner : Nat}

/-- What concerns the task of a number. -/
def view (s : Session) (owner : Nat) : View where
  live := Table.get? owner s.live
  kids := s.live.filter fun e => e.2.tells owner
  turns := s.queue.filter (Turn.concerns owner)
  timers := s.timers.filter fun t => t.id == owner

/-- A task under way that will tell another of its end is one of those that concern it. -/
theorem mem_kids {id : Nat} {l : Live} (hl : Table.get? id s.live = some l)
    (htells : l.tells owner = true) : (id, l) ∈ (s.view owner).kids :=
  List.mem_filter.2 ⟨Table.mem_of_get? hl, htells⟩

theorem view_withKept (kept : Kept) (f : List Nat → List Nat) :
    (s.withKept kept f).view owner = s.view owner := by
  cases kept <;> rfl

theorem view_enqueue (t : Turn) : (s.enqueue t).view owner =
    { s.view owner with turns := (s.view owner).turns ++ [t].filter (Turn.concerns owner) } := by
  unfold view enqueue
  rw [List.filter_append]

theorem view_enqueue_of_not (s : Session) {t : Turn} (h : t.concerns owner = false) :
    (s.enqueue t).view owner = s.view owner := by
  rw [view_enqueue, List.filter_singleton, h]
  simp

/-- A turn that does not concern the task is taken from the queue. -/
theorem view_pop_of_not {t : Turn} {rest : List Turn} (hq : s.queue = t :: rest)
    (h : t.concerns owner = false) : view { s with queue := rest } owner = s.view owner := by
  unfold view
  rw [hq, List.filter_cons_of_neg (by simp [h])]

/-- A turn that concerns the task is taken from the queue. -/
theorem turns_pop {t : Turn} {rest : List Turn} (hq : s.queue = t :: rest)
    (h : t.concerns owner = true) :
    (s.view owner).turns = t :: (view { s with queue := rest } owner).turns := by
  unfold view
  rw [hq, List.filter_cons_of_pos h]

/-- What is known of a task is changed, but not who hears of its end. -/
theorem view_update {id : Nat} {l : Live} {f : Live → Live} (hl : Table.get? id s.live = some l)
    (hf : (f l).listeners = l.listeners) : (s.update id f).view owner =
      { s.view owner with
        live := if id == owner then some (f l) else (s.view owner).live
        kids := if l.tells owner then Table.put id (f l) (s.view owner).kids
          else (s.view owner).kids } := by
  have htells : (f l).tells owner = l.tells owner := by
    unfold Live.tells
    rw [hf]
  have hupdate : s.update id f = { s with live := Table.put id (f l) s.live } := by
    unfold update
    rw [hl]
  have hkids : (Table.put id (f l) s.live).filter (fun e => e.2.tells owner) =
      if l.tells owner then Table.put id (f l) (s.view owner).kids else (s.view owner).kids := by
    split
    · next h => exact Table.filter_put_of_pos hl h (htells.trans h)
    · next h =>
      have hfalse : l.tells owner = false := by simpa using h
      exact Table.filter_put_of_neg hl hfalse (htells.trans hfalse)
  rw [hupdate]
  unfold view at hkids ⊢
  rw [hkids, Table.get?_put]

/-- A task is added. -/
theorem view_add (h : Table.get? s.count s.live = none) (task : Task) (listeners : List Listener) :
    (s.add task listeners).2.view owner =
      { s.view owner with
        live := if s.count == owner then some { task, listeners } else (s.view owner).live
        kids := (s.view owner).kids ++ [(s.count, { task, listeners })].filter
          fun e => e.2.tells owner } := by
  have hlive : (s.add task listeners).2.live = Table.put s.count { task, listeners } s.live := rfl
  unfold view
  rw [hlive, Table.get?_put, Table.put_new _ h, List.filter_append]
  rfl

/-- A task is added that does not concern another. -/
theorem view_add_of_not (h : Table.get? s.count s.live = none) {listeners : List Listener}
    (hne : s.count ≠ owner) (hlisteners : listeners.any (Listener.tells owner) = false)
    (task : Task) : (s.add task listeners).2.view owner = s.view owner := by
  rw [view_add h, if_neg (by simpa using hne), List.filter_singleton]
  have htells : Live.tells owner { task, listeners } = false := hlisteners
  simp [htells]

/-- A task is added and put in the queue that does not concern another. -/
theorem view_spawn_of_not (h : Table.get? s.count s.live = none) {listeners : List Listener}
    (hne : s.count ≠ owner) (hlisteners : listeners.any (Listener.tells owner) = false)
    (task : Task) : (s.spawn task listeners).2.view owner = s.view owner := by
  have hturn : Turn.concerns owner (.resume s.count (.ok .nothing)) = false :=
    beq_eq_false_iff_ne.2 hne
  exact (view_enqueue_of_not _ hturn).trans (view_add_of_not h hne hlisteners task)

/-- A task ends. -/
theorem view_finish (id : Nat) (answer : Answer) : (s.finish id answer).view owner =
    { s.view owner with
      live := if id == owner then none else (s.view owner).live
      kids := Table.drop id (s.view owner).kids
      turns := (s.view owner).turns ++
        ((((Table.get? id s.live).map Live.listeners).getD []).map
          (Listener.turn id answer)).filter (Turn.concerns owner) } := by
  unfold view finish
  rw [Table.filter_drop, Table.get?_drop, List.filter_append]

/-- A pause of another task does not concern this one. -/
theorem view_insertTimer (s : Session) {t : Timer} (h : t.id ≠ owner) :
    view { s with timers := insertTimer t s.timers } owner = s.view owner := by
  have hfilter : ∀ timers : List Timer, (insertTimer t timers).filter (fun u => u.id == owner) =
      timers.filter fun u => u.id == owner := by
    intro timers
    have hnot : ¬(t.id == owner) = true := by simpa using h
    induction timers with
    | nil => exact List.filter_cons_of_neg hnot
    | cons u rest ih =>
      unfold insertTimer
      split
      · exact List.filter_cons_of_neg hnot
      · rw [List.filter_cons, List.filter_cons, ih]
  unfold view
  rw [hfilter]

/-- A pause of another task does not concern this one. -/
theorem view_pause_of_ne (s : Session) {id : Nat} (hne : id ≠ owner) (duration : Nat)
    (answer : Answer) : (s.pause id duration answer).view owner = s.view owner := by
  unfold pause
  split
  · exact view_enqueue_of_not s (by simpa [Turn.concerns] using hne)
  · exact view_insertTimer s hne

/-! ### Several tasks -/

/-- New tasks of whose ends a task hears, with their numbers. -/
def heard (owner : Nat) : Nat → List Task → Table Nat Live
  | _, [] => []
  | n, task :: rest => (n, { task, listeners := [.gatherer owner] }) :: heard owner (n + 1) rest

theorem length_heard (n : Nat) (tasks : List Task) :
    (heard owner n tasks).length = tasks.length := by
  induction tasks generalizing n with
  | nil => rfl
  | cons task rest ih => exact congrArg (· + 1) (ih (n + 1))

theorem mem_heard {n : Nat} {tasks : List Task} {task : Task} (h : task ∈ tasks) :
    ∃ e ∈ heard owner n tasks, e.2.task = task := by
  induction tasks generalizing n with
  | nil => exact nomatch h
  | cons first rest ih =>
    rcases List.mem_cons.1 h with rfl | hrest
    · exact ⟨_, List.mem_cons_self, rfl⟩
    · obtain ⟨e, he, htask⟩ := ih (n := n + 1) hrest
      exact ⟨e, List.mem_cons_of_mem _ he, htask⟩

/-- Tasks are added of whose ends a task hears: to this they all are, and to others none. -/
theorem view_children {id : Nat} {children : List Task}
    (h : ∀ i, s.count ≤ i → Table.get? i s.live = none)
    (hout : owner < s.count ∨ s.count + children.length ≤ owner) :
    (children.foldl (fun s child => (s.spawn child [.gatherer id]).2) s).view owner =
      { s.view owner with
        kids := (s.view owner).kids ++ if id = owner then heard id s.count children else [] } := by
  induction children generalizing s with
  | nil => simp [heard]
  | cons child rest ih =>
    have hne : s.count ≠ owner := by
      rw [List.length_cons] at hout
      omega
    have hcount : (s.spawn child [.gatherer id]).2.count = s.count + 1 := rfl
    have hspawned := Spawned.spawn h child [.gatherer id]
    have hout' : owner < s.count + 1 ∨ s.count + 1 + rest.length ≤ owner := by
      rw [List.length_cons] at hout
      omega
    have hone : (s.spawn child [.gatherer id]).2.view owner =
        { s.view owner with
          kids := (s.view owner).kids ++ if id = owner
            then [(s.count, { task := child, listeners := [.gatherer id] })] else [] } := by
      have hturn : Turn.concerns owner (.resume s.count (.ok .nothing)) = false :=
        beq_eq_false_iff_ne.2 hne
      have htells : Live.tells owner { task := child, listeners := [.gatherer id] } =
          (id == owner) := Bool.or_false _
      refine (view_enqueue_of_not _ hturn).trans ?_
      refine (view_add (h s.count (Nat.le_refl _)) child [.gatherer id]).trans ?_
      rw [if_neg (by simpa using hne), List.filter_singleton, htells]
      by_cases hid : id = owner
      · simp [hid]
      · simp [hid, beq_eq_false_iff_ne.2 hid]
    rw [List.foldl_cons, ih hspawned.unused (hcount ▸ hout'), hone, hcount]
    by_cases hid : id = owner
    · simp [hid, heard]
    · simp [hid]

/-- The validations that changes have begun concern nobody. -/
theorem view_takeUp (h : ∀ i, s.count ≤ i → Table.get? i s.live = none)
    (hout : owner < s.count ∨ s.takeUp.count ≤ owner) : s.takeUp.view owner = s.view owner := by
  have hstarted : ∀ (tickets : List Ticket) (s : Session),
      (∀ i, s.count ≤ i → Table.get? i s.live = none) →
      (owner < s.count ∨ s.count + tickets.length ≤ owner) →
      (tickets.foldl (fun s t => s.spawnKept .validations (.started t) []) s).view owner =
        s.view owner := by
    intro tickets
    induction tickets with
    | nil => exact fun _ _ _ => rfl
    | cons t rest ih =>
      intro s h hout
      rw [List.length_cons] at hout
      have hcount : (s.spawnKept .validations (.started t) []).count = s.count + 1 := rfl
      have hspawned := spawned_kept h .validations (.started t) []
      rw [List.foldl_cons, ih _ hspawned.unused (by rw [hcount]; omega)]
      exact (view_withKept .validations _).trans
        (view_spawn_of_not (h s.count (Nat.le_refl _)) (by omega) rfl _)
  have hcount := (spawned_takeUp h).count
  rw [List.length_map] at hcount
  refine (hstarted _ { s with world := s.world.withStore fun store => { store with waiting := [] } }
    h ?_).trans rfl
  rcases hout with hlt | hle
  · exact .inl hlt
  · exact .inr (hcount ▸ hle)

/-- What is due concerns nobody who has no pauses. -/
theorem view_expire (hsave : s.saveDue = false) (h : (s.view owner).timers = []) :
    s.expire.view owner = s.view owner := by
  obtain ⟨due, hdue⟩ : ∃ due, s.timers.takeWhile (fun t => decide (t.due ≤ s.now)) = due := ⟨_, rfl⟩
  have hsplit : due ++ s.timers.drop due.length = s.timers := by
    rw [← hdue]
    exact List.prefix_iff_eq_append.1 (List.takeWhile_prefix _)
  have hexpire : s.expire = { s with
      timers := s.timers.drop due.length
      queue := s.queue ++ due.map fun t => .wake t.id t.answer } := by
    unfold expire
    simp only [hdue, hsave, if_neg Bool.false_ne_true, List.append_nil]
  have hnone : due.filter (fun t => t.id == owner) = [] ∧
      (s.timers.drop due.length).filter (fun t => t.id == owner) = [] := by
    rw [← List.append_eq_nil_iff, ← List.filter_append, hsplit]
    exact h
  have hwakes : (due.map fun t => Turn.wake t.id t.answer).filter (Turn.concerns owner) = [] := by
    rw [List.filter_map]
    exact congrArg _ hnone.1
  have hturns : (s.queue ++ due.map fun t => Turn.wake t.id t.answer).filter (Turn.concerns owner) =
      (s.view owner).turns := by
    rw [List.filter_append, hwakes, List.append_nil]
    rfl
  rw [hexpire]
  unfold view at h ⊢
  exact congrArg₂ (View.mk _ _) hturns (hnone.2.trans h.symm)

end Session

end LiveForm
