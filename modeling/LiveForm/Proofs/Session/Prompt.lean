import Mathlib
import LiveForm.Proofs.Session.Sound

/-!
# Prompt runs

A run goes on for one reason at a time: it stands in the queue, or a pause of it ends at some time,
or it waits for the tasks that it has started. So whenever a run has its turn, nothing else is left that
could let it go on before what it asks for then (`Session.Prompt.happen`).
-/

namespace LiveForm

/-- The turn lets the task of the number go on, at once or later. -/
def Turn.rouses (id : Nat) : Turn → Bool
  | .resume i _ => i == id
  | .wake i _ => i == id
  | _ => false

namespace Session

variable {s s' : Session}

/-- The task waits for others. -/
def gathers (s : Session) (id : Nat) : Bool :=
  ((Table.get? id s.live).bind Live.gathering).isSome

/-- For how many reasons the task may go on. -/
def summons (s : Session) (id : Nat) : Nat :=
  s.queue.countP (Turn.rouses id) + (s.timers.countP fun t => t.id == id) + (s.gathers id).toNat

theorem rouses_eq_false {t : Turn} {n id : Nat} (h : t.Below n) (hid : n ≤ id) :
    t.rouses id = false := by
  cases t with
  | resume i a => exact beq_eq_false_iff_ne.2 (Nat.ne_of_lt (Nat.lt_of_lt_of_le h hid))
  | wake i a => exact beq_eq_false_iff_ne.2 (Nat.ne_of_lt (Nat.lt_of_lt_of_le h hid))
  | forget kept i => rfl
  | report owner a => rfl
  | save => rfl

/-- A task that there has not been goes on for no reason. -/
theorem Orderly.summons_eq_zero (h : s.Orderly) {id : Nat} (hid : s.count ≤ id) :
    s.summons id = 0 := by
  have hqueue : s.queue.countP (Turn.rouses id) = 0 :=
    List.countP_eq_zero.2 fun t ht => by rw [rouses_eq_false (h.turns t ht) hid]; simp
  have htimers : (s.timers.countP fun t => t.id == id) = 0 := by
    refine List.countP_eq_zero.2 fun t ht => ?_
    have hlt := h.timers t ht
    simp only [beq_iff_eq]
    omega
  have hgathers : s.gathers id = false := by
    unfold gathers
    rw [h.tasks id hid]
    rfl
  unfold summons
  rw [hqueue, htimers, hgathers]
  rfl

/-! ### What operations add -/

theorem summons_pop {t : Turn} {rest : List Turn} (hq : s.queue = t :: rest) (id : Nat) :
    summons { s with queue := rest } id + (t.rouses id).toNat = s.summons id := by
  unfold summons
  rw [hq, List.countP_cons]
  show rest.countP _ + _ + (s.gathers id).toNat + _ = _
  cases t.rouses id
  · simp
  · simp only [Bool.toNat_true, if_true]
    omega

theorem summons_enqueue (s : Session) (t : Turn) (id : Nat) :
    (s.enqueue t).summons id = s.summons id + (t.rouses id).toNat := by
  show (s.queue ++ [t]).countP _ + (s.timers.countP fun t => t.id == id) +
    (s.gathers id).toNat = _
  rw [List.countP_append, List.countP_singleton]
  unfold summons
  cases t.rouses id
  · simp
  · simp only [Bool.toNat_true, if_true]
    omega

theorem summons_withKept (s : Session) (kept : Kept) (f : List Nat → List Nat) (id : Nat) :
    (s.withKept kept f).summons id = s.summons id := by
  cases kept <;> rfl

theorem gathers_update (s : Session) (i : Nat) (f : Live → Live) (id : Nat) :
    (s.update i f).gathers id =
      if i == id then (((Table.get? id s.live).map f).bind Live.gathering).isSome
      else s.gathers id := by
  unfold gathers
  rw [get?_update]
  split
  · rfl
  · rfl

theorem summons_update_of_ne (s : Session) {i id : Nat} (f : Live → Live) (h : i ≠ id) :
    (s.update i f).summons id = s.summons id := by
  have hne : (i == id) = false := by simpa using h
  unfold summons
  rw [gathers_update, hne, update_queue, update_timers]
  rfl

/-- What is known of a task is one reason at most. -/
theorem summons_update_le (s : Session) (i : Nat) (f : Live → Live) (id : Nat) :
    (s.update i f).summons id ≤ s.summons id + (i == id).toNat := by
  by_cases h : i = id
  · subst h
    have hle := Bool.toNat_le ((s.update i f).gathers i)
    unfold summons
    rw [update_queue, update_timers, beq_self_eq_true]
    show _ ≤ _ + 1
    omega
  · rw [summons_update_of_ne s f h]
    exact Nat.le_add_right _ _

/-- Changing a task, but not what it waits for. -/
theorem summons_update_same (s : Session) (i : Nat) {f : Live → Live}
    (hf : ∀ l, (f l).gathering = l.gathering) (id : Nat) :
    (s.update i f).summons id = s.summons id := by
  have hg : (s.update i f).gathers id = s.gathers id := by
    rw [gathers_update]
    split
    · unfold gathers
      cases Table.get? id s.live with
      | none => rfl
      | some l => exact congrArg Option.isSome (hf l)
    · rfl
  unfold summons
  rw [hg, update_queue, update_timers]

theorem summons_spawn_of_ne (s : Session) (task : Task) (listeners : List Listener) {id : Nat}
    (h : s.count ≠ id) : (s.spawn task listeners).2.summons id = s.summons id := by
  have hne : (s.count == id) = false := by simpa using h
  have hlive : Table.get? id (s.spawn task listeners).2.live = Table.get? id s.live := by
    show Table.get? id (Table.put s.count _ s.live) = _
    rw [Table.get?_put, hne]
    rfl
  have hg : (s.spawn task listeners).2.gathers id = s.gathers id := by
    unfold gathers
    rw [hlive]
  unfold summons
  rw [hg]
  show (s.queue ++ [Turn.resume s.count (.ok .nothing)]).countP _ + _ + _ = _
  rw [List.countP_append, List.countP_singleton]
  show s.queue.countP _ + (if (s.count == id) = true then 1 else 0) + _ + _ = _
  rw [hne]
  rfl

/-- A new task stands in the queue, once. -/
theorem summons_spawn_self (hzero : s.summons s.count = 0) (task : Task)
    (listeners : List Listener) : (s.spawn task listeners).2.summons s.count = 1 := by
  have hlive : Table.get? s.count (s.spawn task listeners).2.live = some { task, listeners } :=
    Table.get?_put_self ..
  have hg : (s.spawn task listeners).2.gathers s.count = false := by
    unfold gathers
    rw [hlive]
    rfl
  unfold summons at hzero ⊢
  rw [hg]
  show (s.queue ++ [Turn.resume s.count (.ok .nothing)]).countP _ +
    (s.timers.countP fun t => t.id == s.count) + 0 = 1
  rw [List.countP_append, List.countP_singleton]
  have hself : Turn.rouses s.count (.resume s.count (.ok .nothing)) = true :=
    beq_self_eq_true s.count
  rw [hself, if_pos rfl]
  omega

theorem summons_children (s : Session) (owner : Nat) (children : List Task) {id : Nat}
    (h : id < s.count) :
    (children.foldl (fun s child => (s.spawn child [.gatherer owner]).2) s).summons id =
      s.summons id := by
  induction children generalizing s with
  | nil => rfl
  | cons child rest ih =>
    have hlt : id < (s.spawn child [.gatherer owner]).2.count := Nat.lt_succ_of_lt h
    exact (ih _ hlt).trans (summons_spawn_of_ne s child _ (Nat.ne_of_gt h))

theorem summons_spawnKept_of_ne (s : Session) (kept : Kept) (task : Task)
    (listeners : List Listener) {id : Nat} (h : s.count ≠ id) :
    (s.spawnKept kept task listeners).summons id = s.summons id :=
  (summons_withKept _ kept _ id).trans (summons_spawn_of_ne s task _ h)

theorem summons_started (s : Session) (tickets : List Ticket) {id : Nat} (h : id < s.count) :
    (tickets.foldl (fun s t => s.spawnKept .validations (.started t) []) s).summons id =
      s.summons id := by
  induction tickets generalizing s with
  | nil => rfl
  | cons t rest ih =>
    have hlt : id < (s.spawnKept .validations (.started t) []).count := Nat.lt_succ_of_lt h
    exact (ih _ hlt).trans (summons_spawnKept_of_ne s _ _ _ (Nat.ne_of_gt h))

theorem summons_listen (s : Session) (owner child id : Nat) :
    (s.listen owner child).summons id = s.summons id := by
  unfold listen
  split
  · rw [summons_enqueue]
    rfl
  · refine summons_update_same s child ?_ id
    exact fun l => rfl

theorem summons_listen_all (s : Session) (owner : Nat) (ids : List Nat) (id : Nat) :
    (ids.foldl (fun s child => s.listen owner child) s).summons id = s.summons id := by
  induction ids generalizing s with
  | nil => rfl
  | cons child rest ih => exact (ih _).trans (summons_listen s owner child id)

/-- A task that does not wait any more stands in the queue instead. -/
theorem summons_release {g : Gathering} {owner : Nat}
    (hg : (Table.get? owner s.live).bind Live.gathering = some g) (a : Answer) (id : Nat) :
    ((s.update owner fun l => { l with gathering := none }).enqueue (.resume owner a)).summons id =
      s.summons id := by
  rw [summons_enqueue]
  show _ + (owner == id).toNat = _
  by_cases h : owner = id
  · subst h
    have hbefore : s.gathers owner = true := by
      unfold gathers
      rw [hg]
      rfl
    have hafter : (s.update owner fun l => { l with gathering := none }).gathers owner = false := by
      rw [gathers_update, beq_self_eq_true, if_pos rfl]
      cases Table.get? owner s.live with
      | none => rfl
      | some l => rfl
    unfold summons
    rw [update_queue, update_timers, hbefore, hafter, beq_self_eq_true]
    rfl
  · have hne : (owner == id) = false := by simpa using h
    rw [summons_update_of_ne s _ h, hne]
    rfl

/-- Hearing that a task has ended, another goes on waiting or goes on, for that one reason. -/
theorem summons_report (s : Session) (owner : Nat) (a : Answer) (id : Nat) :
    (s.report owner a).summons id = s.summons id := by
  unfold report
  cases hg : (Table.get? owner s.live).bind Live.gathering with
  | none => rfl
  | some g =>
    have hwaits : ∀ g', (s.update owner fun l => { l with gathering := some g' }).summons id =
        s.summons id := by
      intro g'
      by_cases h : owner = id
      · subst h
        have hbefore : s.gathers owner = true := by
          unfold gathers
          rw [hg]
          rfl
        have hafter : (s.update owner fun l => { l with gathering := some g' }).gathers owner =
            true := by
          rw [gathers_update, beq_self_eq_true, if_pos rfl]
          cases hl : Table.get? owner s.live with
          | none => rw [hl] at hg; exact absurd hg (by simp)
          | some l => rfl
        unfold summons
        rw [update_queue, update_timers, hbefore, hafter]
      · exact summons_update_of_ne s _ h
    simp only []
    split
    · exact summons_release hg _ id
    · split
      · exact summons_release hg _ id
      · exact hwaits _

theorem countP_insertTimer (p : Timer → Bool) (t : Timer) (timers : List Timer) :
    (insertTimer t timers).countP p = timers.countP p + (p t).toNat := by
  have hcons : ∀ (u : Timer) (l : List Timer), (u :: l).countP p = l.countP p + (p u).toNat := by
    intro u l
    rw [List.countP_cons]
    cases p u <;> rfl
  induction timers with
  | nil => exact hcons t []
  | cons u rest ih =>
    unfold insertTimer
    split
    · rw [hcons]
    · rw [hcons, hcons, ih]
      omega

/-- A pause adds one reason for which a task goes on. -/
theorem summons_pause (s : Session) (i duration : Nat) (a : Answer) (id : Nat) :
    (s.pause i duration a).summons id = s.summons id + (i == id).toNat := by
  unfold pause
  split
  · exact summons_enqueue s _ id
  · show s.queue.countP _ + (insertTimer ⟨_, i, a⟩ s.timers).countP _ + (s.gathers id).toNat = _
    rw [countP_insertTimer]
    show _ + (_ + (i == id).toNat) + _ = _
    unfold summons
    omega

/-- The end of a task lets only those go on that follow it. -/
theorem summons_finish (s : Session) {i id : Nat} (a : Answer) (hne : i ≠ id)
    (hf : ¬ s.Follows id i) : (s.finish i a).summons id = s.summons id := by
  have hlive : Table.get? id (s.finish i a).live = Table.get? id s.live :=
    (Table.get?_drop i id s.live).trans (if_neg (by simpa using hne))
  have hnone : (((Table.get? i s.live).map Live.listeners).getD []).countP
      (fun l => (l.turn i a).rouses id) = 0 := by
    refine List.countP_eq_zero.2 fun l hl => ?_
    cases l with
    | keeper kept => simp [Listener.turn, Turn.rouses]
    | gatherer owner => simp [Listener.turn, Turn.rouses]
    | follower owner =>
      have howner : owner ≠ id := by
        rintro rfl
        cases hi : Table.get? i s.live with
        | none => rw [hi] at hl; exact absurd hl (by simp)
        | some live => rw [hi] at hl; exact hf ⟨live, hi, hl⟩
      simpa [Listener.turn, Turn.rouses] using howner
  unfold summons gathers
  rw [hlive]
  show (s.queue ++ _).countP _ + s.timers.countP _ + _ = _
  rw [List.countP_append, List.countP_map]
  change _ + List.countP (fun l : Listener => (l.turn i a).rouses id) _ + _ + _ = _
  rw [hnone]
  rfl

/-- A run that a task starts and waits for stands in the queue, once. -/
theorem summons_follow (ho : s.Orderly) (i : Nat) (w : World) (a : Assignment) (task : Task) :
    (perform { s with world := w } i (.follow a task)).summons s.count = 1 := by
  have hbecome : ∀ s : Session, s.summons s.count = 0 →
      (s.become i task).summons (s.become i task).count = 0 := by
    intro s hzero
    unfold become
    rw [update_count, summons_update_same s i ?_ s.count]
    · exact hzero
    · exact fun _ => rfl
  have hcount : (become { s with world := w } i task).count = s.count := update_count _ _ _
  have hself := summons_spawn_self (hbecome { s with world := w }
    (ho.summons_eq_zero (Nat.le_refl _))) (.run (.ofAssignment a)) [.keeper .runs, .follower i]
  rw [hcount] at hself
  exact (summons_withKept _ .runs _ _).trans hself

/-- What a task does in its turn gives it one reason at most to go on, and no reason to others that
do not follow it. -/
theorem summons_perform (s : Session) (i : Nat) (next : Next) {id : Nat} (hid : id < s.count)
    (h : i = id → next.task?.isSome) (hf : i ≠ id → ¬ s.Follows id i) :
    (s.perform i next).summons id ≤ s.summons id + (i == id).toNat := by
  cases next with
  | pause duration a task =>
    show ((s.become i task).pause i duration a).summons id ≤ _
    have hsame : (s.become i task).summons id = s.summons id := by
      refine summons_update_same s i ?_ id
      exact fun _ => rfl
    rw [summons_pause, hsame]
  | gather children task =>
    refine (summons_children _ i children ?_).trans_le (summons_update_le s i _ id)
    rw [update_count]
    exact hid
  | settle kept task =>
    exact (summons_listen_all _ i _ id).trans_le (summons_update_le s i _ id)
  | follow assignment task =>
    have hne : (s.become i task).count ≠ id := by
      unfold become
      rw [update_count]
      exact Nat.ne_of_gt hid
    have hsame : (s.become i task).summons id = s.summons id := by
      refine summons_update_same s i ?_ id
      exact fun _ => rfl
    refine (summons_spawnKept_of_ne _ .runs _ _ hne).trans_le ?_
    rw [hsame]
    exact Nat.le_add_right _ _
  | finish a =>
    by_cases hi : i = id
    · exact absurd (h hi) (by simp [Next.task?])
    · exact (summons_finish s a hi (hf hi)).trans_le (Nat.le_add_right _ _)

/-! ### Prompt sessions -/

/-- Every run goes on for one reason at most, and does not follow any other task. -/
structure Prompt (s : Session) : Prop where
  once : ∀ id r, s.task? id = some (.run r) → s.summons id ≤ 1
  apart : ∀ owner id, s.Follows owner id → ∀ r, s.task? owner ≠ some (.run r)

/-- When a run has its turn, it does not stand in the queue again. -/
theorem Prompt.alone (h : s.Prompt) {id : Nat} {a : Answer} {rest : List Turn}
    (hq : s.queue = .resume id a :: rest) {r : Run} (hr : s.task? id = some (.run r)) :
    ∀ b, .resume id b ∉ rest := by
  intro b hb
  have hle := h.once id r hr
  have hpop := summons_pop hq id
  have hself : Turn.rouses id (.resume id a) = true := beq_self_eq_true id
  have hcount : 0 < rest.countP (Turn.rouses id) :=
    List.countP_pos_iff.2 ⟨_, hb, beq_self_eq_true id⟩
  have hsum : rest.countP (Turn.rouses id) ≤ summons { s with queue := rest } id := by
    unfold summons
    show _ ≤ rest.countP _ + _ + _
    omega
  rw [hself, Bool.toNat_true] at hpop
  omega

/-- Nothing new happens to the tasks under way. -/
theorem Prompt.of_same (h : s.Prompt) (htask : ∀ id, s'.task? id = s.task? id)
    (hsummons : ∀ id, s'.summons id = s.summons id)
    (hfollows : ∀ owner id, s'.Follows owner id → s.Follows owner id) : s'.Prompt where
  once := by
    intro id r hr
    rw [hsummons]
    exact h.once id r (htask id ▸ hr)
  apart := by
    intro owner id hf r hr
    exact h.apart owner id (hfollows owner id hf) r (htask owner ▸ hr)

/-- New tasks that follow nobody, and of which none is a run. -/
theorem Prompt.spawned {tasks : List Task} {listeners : List Listener} (h : s.Prompt)
    (ho : s.Orderly) (hs : Spawned s tasks listeners s')
    (hlisten : ∀ owner, .follower owner ∉ listeners) (hrun : ∀ r, .run r ∉ tasks)
    (hsummons : ∀ id, id < s.count → s'.summons id = s.summons id) : s'.Prompt where
  once := by
    intro id r hr
    rcases hs.task_cases hr with hold | ⟨-, hnew⟩
    · rw [hsummons id (ho.lt_count hold)]
      exact h.once id r hold
    · exact absurd hnew (hrun r)
  apart := by
    intro owner id hf r hr
    rcases hs.follows hf with hold | hnew
    · rcases hs.task_cases hr with hrold | ⟨-, hrnew⟩
      · exact h.apart owner id hold r hrold
      · exact hrun r hrnew
    · exact hlisten owner hnew

/-- A new run stands in the queue, once. -/
theorem Prompt.spawnRun (h : s.Prompt) (ho : s.Orderly) (r : Run) :
    (s.spawnKept .runs (.run r) []).Prompt := by
  have hs := spawned_kept ho.tasks .runs (.run r) []
  have hself : (s.spawnKept .runs (.run r) []).summons s.count = 1 :=
    (summons_withKept _ .runs _ _).trans
      (summons_spawn_self (ho.summons_eq_zero (Nat.le_refl _)) _ _)
  refine ⟨?_, ?_⟩
  · intro id q hq
    rcases hs.task_cases hq with hold | ⟨hid, -⟩
    · rw [summons_spawnKept_of_ne s _ _ _ (Nat.ne_of_gt (ho.lt_count hold))]
      exact h.once id q hold
    · have hlt := (hs.orderly ho (fun owner hl => absurd hl (by simp))).lt_count hq
      rw [hs.count, List.length_singleton] at hlt
      obtain rfl : id = s.count := by omega
      exact Nat.le_of_eq hself
  · intro owner id hf q hq
    rcases hs.follows hf with hold | hnew
    · rcases hs.task_cases hq with hqold | ⟨hid, -⟩
      · exact h.apart owner id hold q hqold
      · exact absurd (ho.followers owner id hold) (Nat.not_lt.2 hid)
    · exact absurd hnew (by simp)

/-! ### Turns and events -/

/-- What holds when a task is about to take its turn: if it is a run, there is no other reason for
which it goes on. -/
structure Freed (s : Session) (id : Nat) : Prop where
  self : ∀ r, s.task? id = some (.run r) → s.summons id = 0
  once : ∀ i r, i ≠ id → s.task? i = some (.run r) → s.summons i ≤ 1
  apart : ∀ owner i, s.Follows owner i → ∀ r, s.task? owner ≠ some (.run r)

theorem Prompt.freed (h : s.Prompt) {id : Nat} {a : Answer} {rest : List Turn}
    (hq : s.queue = .resume id a :: rest) : Freed { s with queue := rest } id := by
  refine ⟨?_, ?_, h.apart⟩
  · intro r hr
    have hle := h.once id r hr
    have hpop := summons_pop hq id
    have hself : Turn.rouses id (.resume id a) = true := beq_self_eq_true id
    rw [hself, Bool.toNat_true] at hpop
    omega
  · intro i r _ hr
    have hle := h.once i r hr
    have hpop := summons_pop hq i
    omega

/-- A task that takes its turn leaves every run prompt. -/
theorem Freed.goesOn {id : Nat} (h : s.Freed id) (ho : s.Orderly) {answer : Answer} {task : Task}
    {x : Next × World} (hgo : GoesOn s id answer task x s') : s'.Prompt := by
  have hp := hgo.performed
  have hturn := hgo.turn
  have hlt := ho.lt_count hgo.live
  have hle : ∀ i, i < s.count → (id = i → x.1.task?.isSome) → (id ≠ i → ¬ s.Follows i id) →
      s'.summons i ≤ s.summons i + (id == i).toNat := by
    intro i hi hself hf
    rw [hgo.perform]
    exact summons_perform _ id x.1 hi hself hf
  refine ⟨?_, ?_⟩
  · intro i r hr
    rcases hp.task_cases hr with ⟨rfl, hself⟩ | ⟨hne, hi, hold⟩ | ⟨hi, -, -⟩
    · obtain ⟨q, rfl, -⟩ := hturn.task_run hself
      have hsummons := hle i hlt (fun _ => by rw [hself]; rfl) (fun hne => absurd rfl hne)
      rw [h.self q hgo.live, beq_self_eq_true] at hsummons
      exact hsummons
    · have hsummons := hle i hi (fun he => absurd he.symm hne)
        (fun _ hf => h.apart i id hf r hold)
      have hfalse : (id == i) = false := by simpa using fun he => hne he.symm
      rw [hfalse] at hsummons
      exact hsummons.trans (h.once i r hne hold)
    · have hgone : ∀ t, s.task? i ≠ some t :=
        fun t ht => absurd (ho.lt_count ht) (Nat.not_lt.2 hi)
      rcases hgo.run_cases hr with ⟨q, hq, -⟩ | ⟨-, -, -, -, hcount, -, a, hx⟩
      · exact absurd hq (hgone _)
      · have ho' : Orderly { s with world := x.2 } := ho.withWorld x.2
        obtain rfl : i = s.count := by
          have hlast := (hp.orderly ho' hlt).lt_count hr
          change s.count ≤ i at hi
          omega
        rw [hgo.perform, hx]
        exact Nat.le_of_eq (summons_follow ho id x.2 a .ending)
  · intro owner i hf r hr
    rcases hp.follows owner i hf with hold | ⟨rfl, a, task', hx⟩
    · rcases hp.task_cases hr with ⟨rfl, hself⟩ | ⟨-, -, hrold⟩ | ⟨hcount, -, -⟩
      · obtain ⟨q, rfl, -⟩ := hturn.task_run hself
        exact h.apart owner i hold q hgo.live
      · exact h.apart owner i hold r hrold
      · exact absurd (ho.followers owner i hold) (Nat.not_lt.2 hcount)
    · have hending := hturn.follow hx
      rw [hp.task, hx, hending] at hr
      exact absurd hr (by simp [Next.task?])

/-- New tasks that follow nobody, and of which none is a run, are started by changes. -/
theorem Prompt.takeUp (h : s.Prompt) (ho : s.Orderly) : s.takeUp.Prompt := by
  have hs := spawned_takeUp ho.tasks
  have h₀ : s.cleared.Prompt := h.of_same (fun _ => rfl) (fun _ => rfl) (fun _ _ hf => hf)
  refine h₀.spawned (ho.withWorld _) hs (by simp) ?_ ?_
  · intro r hr
    obtain ⟨ticket, -, hticket⟩ := List.mem_map.1 hr
    exact absurd hticket (by simp)
  · exact fun id hid => summons_started _ _ hid

theorem Prompt.startRun (h : s.Prompt) (ho : s.Orderly) : s.startRun.Prompt := by
  have hworld : ∀ w, Prompt { s with world := w } :=
    fun w => h.of_same (fun _ => rfl) (fun _ => rfl) (fun _ _ hf => hf)
  unfold Session.startRun
  split
  · exact h
  · simp only []
    split
    · exact hworld _
    · exact Prompt.spawnRun (hworld _) (ho.withWorld _) _

/-- A task that goes on leaves every run prompt. -/
theorem Freed.resume {id : Nat} (h : s.Freed id) (hs : s.Sound) (answer : Answer) :
    (s.resume id answer).Prompt := by
  rcases hs.resume_cases id answer with ⟨hnone, heq⟩ | ⟨task, x, hgo⟩
  · rw [heq]
    refine ⟨fun i r hr => h.once i r ?_ hr, h.apart⟩
    rintro rfl
    exact absurd (hnone.symm.trans hr) (by simp)
  · exact h.goesOn hs.orderly hgo

theorem Prompt.take (h : s.Prompt) (hs : s.Sound) {t : Turn} {rest : List Turn}
    (hq : s.queue = t :: rest) : (Session.take { s with queue := rest } t).Prompt := by
  -- whoever has another turn than a task of its own is left with the same reasons
  have hpop : ∀ s' : Session, (∀ id, s'.task? id = s.task? id) →
      (∀ id, s'.summons id = summons { s with queue := rest } id + (t.rouses id).toNat) →
      (∀ owner id, s'.Follows owner id → s.Follows owner id) → s'.Prompt := by
    intro s' htask hsummons hfollows
    exact h.of_same htask (fun id => (hsummons id).trans (summons_pop hq id)) hfollows
  cases t with
  | resume id a => exact (h.freed hq).resume (hs.pop hq) a
  | wake id a => exact hpop _ (fun _ => rfl) (summons_enqueue _ _) (fun _ _ hf => hf)
  | forget kept id =>
    have hshuffled := Shuffled.withKept { s with queue := rest } kept (·.filter (· != id))
    exact hpop _ hshuffled.task (summons_withKept _ kept _) hshuffled.follows
  | report owner a =>
    obtain ⟨more, hshuffled, -⟩ := report_shuffled { s with queue := rest } owner a
    exact hpop _ hshuffled.task (summons_report _ owner a) hshuffled.follows
  | save =>
    have hsave : Prompt { s with queue := rest } :=
      hpop _ (fun _ => rfl) (fun _ => rfl) (fun _ _ hf => hf)
    exact hsave.startRun (hs.pop hq).orderly

theorem Prompt.expire (h : s.Prompt) : s.expire.Prompt := by
  refine h.of_same (fun _ => rfl) (fun id => ?_) (fun _ _ hf => hf)
  have hdue : ∃ due, s.timers.takeWhile (fun t : Timer => decide (t.due ≤ s.now)) = due := ⟨_, rfl⟩
  obtain ⟨due, hdue⟩ := hdue
  have hsplit : due ++ s.timers.drop due.length = s.timers := by
    rw [← hdue]
    exact List.prefix_iff_eq_append.1 (List.takeWhile_prefix _)
  have htimers : due.countP (fun t : Timer => t.id == id) +
      (s.timers.drop due.length).countP (fun t : Timer => t.id == id) =
      s.timers.countP (fun t : Timer => t.id == id) := by
    rw [← List.countP_append, hsplit]
  have hsave : (if s.saveDue then [Turn.save] else []).countP (Turn.rouses id) = 0 := by
    split <;> rfl
  have hwake : (due.map fun t => Turn.wake t.id t.answer).countP (Turn.rouses id) =
      due.countP (fun t : Timer => t.id == id) := List.countP_map
  have hexpire : s.expire = { s with
      timers := s.timers.drop due.length
      queue := s.queue ++ due.map (fun t => .wake t.id t.answer) ++
        if s.saveDue then [.save] else [] } := by
    rw [← hdue]
    rfl
  rw [hexpire]
  unfold summons
  show (s.queue ++ due.map _ ++ _).countP _ + (s.timers.drop due.length).countP _ +
    (s.gathers id).toNat = _
  rw [List.countP_append, List.countP_append, hsave, hwake]
  omega

/-- **Every event leaves every run prompt.** -/
theorem Prompt.happen (h : s.Prompt) (hs : s.Sound) {e : Event} (he : e.IsUsual) :
    (s.happen e).Prompt := by
  have hworld : ∀ w, Prompt { s with world := w } :=
    fun w => h.of_same (fun _ => rfl) (fun _ => rfl) (fun _ _ hf => hf)
  have hplain : ∀ task : Task, task.IsPlain → ∀ r, Task.run r ∉ [task] := by
    intro task hplain r hr
    obtain rfl := List.mem_singleton.1 hr
    exact hplain
  cases e with
  | change name v =>
    exact (hworld _).takeUp (hs.orderly.withWorld _)
  | cancel => exact hworld _
  | launch task =>
    exact h.spawned hs.orderly (.spawn hs.orderly.tasks task []) (by simp) (hplain task he)
      (fun id hid => summons_spawn_of_ne s task [] (Nat.ne_of_gt hid))
  | ask task =>
    -- the task has its turn without having stood in the queue
    have hspawned : Prompt (s.spawn task []).2 :=
      h.spawned hs.orderly (.spawn hs.orderly.tasks task []) (by simp) (hplain task he)
        (fun id hid => summons_spawn_of_ne s task [] (Nat.ne_of_gt hid))
    have hself : (s.add task []).2.task? s.count = some task := task?_add_self s task []
    have hfreed : Freed (s.add task []).2 s.count := by
      refine ⟨?_, ?_, hspawned.apart⟩
      · intro r hr
        obtain rfl := Option.some.inj (hself.symm.trans hr)
        exact False.elim he
      · intro i r _ hr
        have hqueue := summons_enqueue (s.add task []).2 (.resume s.count (.ok .nothing)) i
        have honce := hspawned.once i r hr
        change (s.spawn task []).2.summons i = _ at hqueue
        omega
    exact hfreed.resume (hs.add he).1 _
  | turn =>
    unfold Session.happen
    cases hq : s.queue with
    | nil => exact h
    | cons t rest => exact h.take hs hq
  | expire => exact h.expire
  | pass t => exact hworld _

/-- A new session has no runs. -/
theorem New.prompt {host : Host} {d : Definition} {registry : Registry} {clock : Option Instant}
    (h : New host d registry clock s) : s.Prompt := by
  refine ⟨fun id r hr => ?_, fun owner id hf => absurd hf (h.not_follows owner id)⟩
  exact absurd hr (h.task?_ne_some id _)

end Session

end LiveForm
