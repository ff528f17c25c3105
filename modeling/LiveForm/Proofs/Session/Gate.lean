import Mathlib
import LiveForm.Proofs.Session.Prompt

/-!
# The gate before a submission

A run submits only if none of its fields has an error or is being validated. It looks at the fields
that changed before it has the others validated, and does not look at them again: that they are
still clear is due to the order of turns. Whatever an older run has begun has its turn before the
run itself has its first, and what has its turn later either belongs to the run, which validates
other fields, or to a change, which makes the run obsolete.

* `Session.Gated`: what the latest run can rely on, which every event keeps.
* `Session.submits_only_clear_fields`: every submission is one of clear fields.
-/

namespace LiveForm

namespace Session

/-- The task is to validate a field, and has not begun. -/
def Fresh (s : Session) (id : Nat) : Prop :=
  ∃ name, s.task? id = some (.validateField name)

/-- The task stands in the queue. -/
def Queued (s : Session) (id : Nat) : Prop :=
  ∃ a, .resume id a ∈ s.queue

/-! ### The order of turns -/

/-- Tasks of a kind all have a turn before the task of a number. -/
def First (fresh : Nat → Prop) (queue : List Turn) (id : Nat) : Prop :=
  ∀ before a rest, queue = before ++ .resume id a :: rest →
    ∀ i, fresh i → ∃ b, .resume i b ∈ before

namespace First

variable {fresh fresh' : Nat → Prop} {t : Turn} {queue : List Turn} {id : Nat}

/-- A task whose turn it is comes after nobody. -/
theorem head {a : Answer} (h : First fresh (.resume id a :: queue) id) : ∀ i, ¬ fresh i := by
  intro i hi
  obtain ⟨b, hb⟩ := h [] a queue rfl i hi
  exact absurd hb (by simp)

/-- A turn that is not one of a task of the kind may be taken. -/
theorem pop (h : First fresh (t :: queue) id)
    (hfresh : ∀ i, fresh' i → fresh i ∧ ∀ b, t ≠ .resume i b) : First fresh' queue id := by
  intro before a rest hq i hi
  obtain ⟨hold, hne⟩ := hfresh i hi
  obtain ⟨b, hb⟩ := h (t :: before) a rest (by rw [hq]; rfl) i hold
  rcases List.mem_cons.1 hb with he | hmem
  · exact absurd he.symm (hne b)
  · exact ⟨b, hmem⟩

/-- New turns come last. -/
theorem append (h : First fresh queue id) (hqueued : ∀ i, fresh i → ∃ b, .resume i b ∈ queue)
    (more : List Turn) : First fresh (queue ++ more) id := by
  intro before a rest hq i hi
  rcases List.append_eq_append_iff.1 hq with ⟨as, rfl, -⟩ | ⟨bs, rfl, hbs⟩
  · obtain ⟨b, hb⟩ := hqueued i hi
    exact ⟨b, List.mem_append_left as hb⟩
  · cases bs with
    | nil =>
      obtain ⟨b, hb⟩ := hqueued i hi
      rw [List.append_nil] at hb
      exact ⟨b, hb⟩
    | cons u bs =>
      obtain ⟨rfl, rfl⟩ := List.cons.inj hbs
      exact h before a bs rfl i hi

/-- A task that does not stand in the queue has no turn before anybody. -/
theorem of_not_queued (h : ∀ a, .resume id a ∉ queue) : First fresh queue id := by
  intro before a rest hq
  exact absurd (hq ▸ List.mem_append_right before (List.mem_cons_self ..)) (h a)

theorem of_append {more : List Turn} (h : First fresh (queue ++ more) id) :
    First fresh queue id := by
  intro before a rest hq
  exact h before a (rest ++ more) (by rw [hq]; simp)

theorem mono (h : First fresh queue id) (hfresh : ∀ i, fresh' i → fresh i) :
    First fresh' queue id :=
  fun before a rest hq i hi => h before a rest hq i (hfresh i hi)

end First

/-! ### What the latest run can rely on -/

/-- No field that changed has an error, and no validation of it is under way or about to begin. -/
def Clear (s : Session) (r : Run) : Prop :=
  ∀ f ∈ r.batch.changed, s.store.error? f = none ∧ s.store.underway f = 0 ∧
    ∀ i, s.task? i ≠ some (.validateField f)

/-- What the latest run can rely on between its turns: before its first, and while those validate
that it has asked, that whoever is to validate has a turn before it; while it waits, that nobody is
about to begin a validation; and once it has asked, that its changed fields are clear. -/
structure Guarded (s : Session) (fresh : Nat → Prop) (id : Nat) (r : Run) : Prop where
  first : r.phase = .created ∨ r.phase = .validating → First fresh s.queue id
  calm : r.isWaiting → ∀ i, ¬ fresh i
  late : r.isLate → s.Clear r

/-- Whoever is to validate stands in the queue, and the latest run can rely on what it has found. -/
structure Gated (s : Session) : Prop where
  sound : s.Sound
  queued : ∀ i, s.Fresh i → s.Queued i
  guard : ∀ id r, s.task? id = some (.run r) → r.version = s.version → s.Guarded s.Fresh id r

/-- What holds when a task is about to take its turn. -/
structure Turning (s : Session) (id : Nat) : Prop where
  sound : s.Sound
  queued : ∀ i, i ≠ id → s.Fresh i → s.Queued i
  alone : ∀ r, s.task? id = some (.run r) → ¬ s.Queued id
  calm : ∀ r, s.task? id = some (.run r) → r.version = s.version → r.phase ≠ .submitting →
    ∀ i, ¬ s.Fresh i
  late : ∀ r, s.task? id = some (.run r) → r.version = s.version → r.isLate → s.Clear r
  guard : ∀ i r, i ≠ id → s.task? i = some (.run r) → r.version = s.version →
    s.Guarded (fun j => s.Fresh j ∧ j ≠ id) i r

/-! ### Taking a turn from the queue -/

/-- A turn in which no task goes on may be taken. -/
theorem Gated.pop {s : Session} (h : s.Gated) {t : Turn} {rest : List Turn}
    (hq : s.queue = t :: rest) (ht : ∀ i b, s.Fresh i → t ≠ .resume i b) :
    Gated { s with queue := rest } := by
  refine ⟨h.sound.pop hq, ?_, ?_⟩
  · intro i hi
    obtain ⟨b, hb⟩ := h.queued i hi
    rw [hq] at hb
    rcases List.mem_cons.1 hb with he | hmem
    · exact absurd he.symm (ht i b hi)
    · exact ⟨b, hmem⟩
  · intro id r hr hv
    have hguard := h.guard id r hr hv
    refine ⟨?_, hguard.calm, hguard.late⟩
    intro hc
    have hfirst := hguard.first hc
    rw [hq] at hfirst
    exact hfirst.pop fun i hi => ⟨hi, fun b => ht i b hi⟩

/-- When the turn of a task is taken, the task is about to go on. -/
theorem Gated.turning {s : Session} (h : s.Gated) (hprompt : s.Prompt) {id : Nat} {a : Answer}
    {rest : List Turn} (hq : s.queue = .resume id a :: rest) :
    Turning { s with queue := rest } id := by
  refine ⟨h.sound.pop hq, ?_, ?_, ?_, ?_, ?_⟩
  · intro i hne hi
    obtain ⟨b, hb⟩ := h.queued i hi
    rw [hq] at hb
    rcases List.mem_cons.1 hb with he | hmem
    · exact absurd (Turn.resume.inj he).1 hne
    · exact ⟨b, hmem⟩
  · rintro r hr ⟨b, hb⟩
    exact hprompt.alone hq hr b hb
  · intro r hr hv hphase
    have hguard := h.guard id r hr hv
    rcases r.first_or_waiting hphase with hfirst | hwaiting
    · have hfirst := hguard.first hfirst
      rw [hq] at hfirst
      exact hfirst.head
    · exact hguard.calm hwaiting
  · intro r hr hv
    exact (h.guard id r hr hv).late
  · intro i r hne hr hv
    have hguard := h.guard i r hr hv
    refine ⟨?_, fun hw j hj => hguard.calm hw j hj.1, hguard.late⟩
    intro hc
    have hfirst := hguard.first hc
    rw [hq] at hfirst
    refine hfirst.pop fun j hj => ⟨hj.1, fun b hb => ?_⟩
    exact hj.2 (Turn.resume.inj hb).1.symm

/-! ### Bookkeeping, new tasks and new worlds -/

/-- A run can rely on the same when turns have come to the end of the queue, if the store is the same
and whoever is to validate was so before. -/
theorem Guarded.append {s s' : Session} (hqueued : ∀ i, s.Fresh i → s.Queued i) {more : List Turn}
    (hqueue : s'.queue = s.queue ++ more) (hstore : s'.store = s.store)
    (hvalidate : ∀ i name, s'.task? i = some (.validateField name) →
      s.task? i = some (.validateField name))
    {id : Nat} {r : Run} (h : s.Guarded s.Fresh id r) : s'.Guarded s'.Fresh id r := by
  have hfresh : ∀ i, s'.Fresh i → s.Fresh i := fun i ⟨name, hname⟩ => ⟨name, hvalidate i name hname⟩
  refine ⟨fun hphase => ?_, fun hw i hi => h.calm hw i (hfresh i hi), fun hlate f hf => ?_⟩
  · rw [hqueue]
    exact ((h.first hphase).append hqueued more).mono hfresh
  · obtain ⟨herror, hunder, hnone⟩ := h.late hlate f hf
    rw [hstore]
    exact ⟨herror, hunder, fun i hi => hnone i (hvalidate i f hi)⟩

/-- Bookkeeping keeps what the latest run can rely on. -/
theorem Gated.shuffled {s s' : Session} (h : s.Gated) {more : List Turn} (hs : Shuffled s more s')
    (hmore : ∀ t ∈ more, t.Below s.count) : s'.Gated := by
  have hvalidate : ∀ i name, s'.task? i = some (.validateField name) →
      s.task? i = some (.validateField name) := fun i name hname => hs.task i ▸ hname
  refine ⟨h.sound.shuffled hs hmore, ?_, ?_⟩
  · rintro i ⟨name, hname⟩
    obtain ⟨b, hb⟩ := h.queued i ⟨name, hvalidate i name hname⟩
    exact ⟨b, hs.queue ▸ List.mem_append_left more hb⟩
  · intro id r hr hver
    rw [Session.version, hs.world] at hver
    have hstore : s'.store = s.store := congrArg (fun w => w.form.store) hs.world
    exact (h.guard id r (hs.task id ▸ hr) hver).append h.queued hs.queue hstore hvalidate

/-- A run that has just started has its first turn after everybody who stands in the queue. -/
theorem guarded_created {s s' : Session} {fresh : Nat → Prop} (ho : s.Orderly) {more : List Turn}
    (hqueue : s'.queue = s.queue ++ more) (hqueued : ∀ i, fresh i → s.Queued i) {id : Nat}
    (hid : s.count ≤ id) {r : Run} (hr : r.phase = .created) : s'.Guarded fresh id r := by
  refine ⟨?_, ?_, ?_⟩
  · intro _
    have hfirst : First fresh s.queue id := First.of_not_queued fun a ha =>
      absurd (ho.turns _ ha) (Nat.not_lt.2 hid)
    rw [hqueue]
    exact hfirst.append hqueued more
  · rintro (⟨d, hd⟩ | ⟨p, d, hd⟩)
    · exact nomatch hr.symm.trans hd
    · exact nomatch hr.symm.trans hd
  · rintro (hd | ⟨p, d, hd⟩)
    · exact nomatch hr.symm.trans hd
    · exact nomatch hr.symm.trans hd

/-- New tasks that are not to validate keep what the latest run can rely on, if they leave the
session sound. -/
theorem Gated.spawned {s s' : Session} (h : s.Gated) (hsound : s'.Sound) {tasks : List Task}
    {listeners : List Listener} (hs : Spawned s tasks listeners s')
    (hfresh : ∀ name, .validateField name ∉ tasks)
    (hrun : ∀ r, .run r ∈ tasks → r.phase = .created) : s'.Gated := by
  have hvalidate : ∀ i name, s'.task? i = some (.validateField name) →
      s.task? i = some (.validateField name) := by
    intro i name hname
    exact (hs.task_cases hname).resolve_right fun hnew => hfresh name hnew.2
  have hqueued : ∀ i, s'.Fresh i → s.Queued i :=
    fun i ⟨name, hname⟩ => h.queued i ⟨name, hvalidate i name hname⟩
  refine ⟨hsound, ?_, ?_⟩
  · intro i hi
    obtain ⟨b, hb⟩ := hqueued i hi
    exact ⟨b, hs.queue ▸ List.mem_append_left _ hb⟩
  · intro id r hr hver
    rw [Session.version, hs.world] at hver
    rcases hs.task_cases hr with hold | ⟨hid, hnew⟩
    · have hstore : s'.store = s.store := congrArg (fun w => w.form.store) hs.world
      exact (h.guard id r hold hver).append h.queued hs.queue hstore hvalidate
    · exact guarded_created h.sound.orderly hs.queue hqueued hid (hrun r hnew)

/-- Another world keeps what the latest run can rely on, if it has a later version, or the same
version and the same errors and counts. -/
theorem Gated.withWorld {s : Session} (h : s.Gated) (w : World)
    (hdef : w.form.definition = s.world.form.definition) (hclock : w.form.clock.isSome = true)
    (hwaiting : w.form.store.waiting = [])
    (hcounted : ∀ f, s.tally (Task.validates f) ≤ w.form.store.underway f)
    (hversion : s.version < w.form.autoSave.version ∨ (s.version = w.form.autoSave.version ∧
      ∀ f, w.form.store.error? f = s.store.error? f ∧
        w.form.store.underway f = s.store.underway f)) :
    Gated { s with world := w } := by
  have hle : s.version ≤ w.form.autoSave.version := by
    rcases hversion with hlt | ⟨heq, -⟩
    · exact Nat.le_of_lt hlt
    · exact Nat.le_of_eq heq
  refine ⟨h.sound.withWorld w hdef hclock hwaiting hcounted hle, h.queued, ?_⟩
  intro id r hr hver
  have hold : r.version ≤ s.version := h.sound.version id r hr
  have hnew : r.version = w.form.autoSave.version := hver
  rcases hversion with hlt | ⟨heq, hstore⟩
  · omega
  · have hguard := h.guard id r hr (hnew.trans heq.symm)
    refine ⟨hguard.first, hguard.calm, fun hlate f hf => ?_⟩
    obtain ⟨herror, hunder⟩ := hstore f
    show w.form.store.error? f = none ∧ w.form.store.underway f = 0 ∧ _
    rw [herror, hunder]
    exact hguard.late hlate f hf

/-! ### Turns of tasks -/

/-- Who is to validate after a turn was to validate before, or has been started by the latest
run. -/
theorem GoesOn.fresh_cases {s s' : Session} {id : Nat} {answer : Answer} {task : Task}
    {x : Next × World} (hgo : GoesOn s id answer task x s') {i : Nat} (hi : s'.Fresh i) :
    (s.Fresh i ∧ i ≠ id) ∨ (s.count ≤ i ∧ i < s'.count ∧ x.1.children ≠ [] ∧
      ∃ r, task = .run r ∧ r.version = s.version) := by
  obtain ⟨name, hname⟩ := hi
  rcases hgo.performed.task_cases hname with ⟨rfl, hself⟩ | ⟨hne, -, hold⟩ | ⟨hi, hi', hchild⟩
  · exact absurd rfl ((hgo.turn.task_usual hself).2 name)
  · exact Or.inl ⟨⟨name, hold⟩, hne⟩
  · rcases hgo.turn.child hchild with ⟨r, hr, hver, -⟩ | ⟨-, a, saving, -, -, hx⟩
    · exact Or.inr ⟨hi, hi', List.ne_nil_of_mem hchild, r, hr, hver.symm⟩
    · rw [hx] at hchild
      exact absurd (List.mem_singleton.1 hchild) (by simp)

namespace Turning

variable {s s' : Session} {id : Nat} {answer : Answer} {task : Task} {x : Next × World}

/-- The run that enters its turn and leaves the form as it is leaves the store. -/
theorem store_of_entered {q : Run} (hgo : GoesOn s id answer (.run q) x s')
    (hform : x.2.form = (s.world.entered q).form) : s'.store = s.store := by
  rw [hgo.store, hform, s.world.entered_store]

/-- The changed fields of the latest run stay clear while it waits. -/
theorem clear_kept (h : s.Turning id) {q r : Run} (hgo : GoesOn s id answer (.run q) x s')
    (hver : s.version = q.version) (hlate : q.isLate) (hnone : x.1.children = [])
    (hform : x.2.form = (s.world.entered q).form) (hbatch : r.batch = q.batch) : s'.Clear r := by
  intro f hf
  rw [hbatch] at hf
  obtain ⟨herror, hunder, hfree⟩ := h.late q hgo.live hver.symm hlate f hf
  rw [store_of_entered hgo hform]
  refine ⟨herror, hunder, fun i hi => ?_⟩
  rcases hgo.performed.task_cases hi with ⟨rfl, hself⟩ | ⟨-, -, hold⟩ | ⟨-, -, hchild⟩
  · exact (hgo.turn.task_usual hself).2 f rfl
  · exact hfree i hold
  · rw [hnone] at hchild
    exact absurd hchild List.not_mem_nil

/-- The changed fields of the latest run are clear when it asks for the validations of others. -/
theorem clear_asked (h : s.Turning id) {q r : Run} (hgo : GoesOn s id answer (.run q) x s')
    (hver : s.version = q.version) (hearly : q.isEarly)
    (hsettled : q.IsSettled (Task.sight (s.world.entered q)))
    (hform : x.2.form = (s.world.entered q).form) (hbatch : r.batch = q.batch) : s'.Clear r := by
  intro f hf
  rw [hbatch] at hf
  have hquiet := hsettled.quiet f (Names.mem_union.2 (Or.inl hf))
  have hvalid := hsettled.valid f hf
  simp only [Task.sight, World.entered_store] at hquiet hvalid
  rw [store_of_entered hgo hform]
  refine ⟨by simpa using hvalid, (Store.isValidating_iff _ f).1 hquiet, fun i hi => ?_⟩
  rcases hgo.performed.task_cases hi with ⟨rfl, hself⟩ | ⟨-, -, hold⟩ | ⟨-, -, hchild⟩
  · exact (hgo.turn.task_usual hself).2 f rfl
  · exact h.calm q hgo.live hver.symm hearly.ne_submitting i ⟨f, hold⟩
  · rcases hgo.turn.child hchild with ⟨r', hr', -, -, name, hname, hval⟩ | ⟨hplain, -⟩
    · obtain rfl := Task.run.inj hr'
      obtain rfl := Task.validateField.inj hval
      exact (Names.mem_minus.1 hname).2 hf
    · exact hplain

/-- The run whose turn it was can rely on what it has found. -/
theorem guard_self (h : s.Turning id) (hgo : GoesOn s id answer task x s') {r : Run}
    (hr : x.1.task? = some (.run r)) : s'.Guarded s'.Fresh id r := by
  have ht := hgo.live
  obtain ⟨q, rfl, hrun⟩ := hgo.turn.runTurn hr
  obtain ⟨hver, hbatch, hcases⟩ := hrun.goes_on hr
  rw [s.world.entered_version] at hver
  have hcalm : q.phase ≠ .submitting → x.1.children = [] → ∀ i, ¬ s'.Fresh i := by
    intro hphase hnone i hi
    rcases hgo.fresh_cases hi with ⟨hold, -⟩ | ⟨-, -, hne, -⟩
    · exact h.calm q ht hver.symm hphase i hold
    · exact hne hnone
  rcases hcases with ⟨he, ⟨d, hphase⟩, hnone, -⟩ | ⟨hl, ⟨p, d, hphase⟩, hnone, hform⟩ |
    ⟨he, hsettled, hphase, hform, hx⟩ | hphase
  · refine ⟨fun hfirst => ?_, fun _ => hcalm he.ne_submitting hnone, fun hlate => ?_⟩
    · simp [hphase] at hfirst
    · simp [Run.isLate, hphase] at hlate
  · refine ⟨fun hfirst => ?_, fun _ => hcalm hl.ne_submitting hnone, fun _ => ?_⟩
    · simp [hphase] at hfirst
    · exact h.clear_kept hgo hver hl hnone hform hbatch
  · refine ⟨fun _ => First.of_not_queued fun a ha => ?_, fun hw => ?_, fun _ => ?_⟩
    · -- it stands in the queue no more: it waits for those that it has asked
      obtain ⟨more, hqueue, -, -, hself⟩ := hgo.performed.queue
      rw [hqueue] at ha
      rcases List.mem_append.1 ha with hold | hnew
      · exact h.alone q ht ⟨a, hold⟩
      · exact hself a hnew _ _ hx
    · simp [Run.isWaiting, hphase] at hw
    · exact h.clear_asked hgo hver he hsettled hform hbatch
  · refine ⟨fun hfirst => ?_, fun hw => ?_, fun hlate => ?_⟩
    · simp [hphase] at hfirst
    · simp [Run.isWaiting, hphase] at hw
    · simp [Run.isLate, hphase] at hlate

/-- The latest run can rely on what it has found in the turns of others. -/
theorem guard_other (h : s.Turning id) (hgo : GoesOn s id answer task x s') {i : Nat}
    (hne : i ≠ id) {r : Run} (hr : s.task? i = some (.run r)) (hver : r.version = s.version) :
    s'.Guarded s'.Fresh i r := by
  have hp := hgo.performed
  have ht := hgo.live
  obtain ⟨hfirst, hcalm, hlate⟩ := h.guard i r hne hr hver
  obtain ⟨more, hqueue, -, -, -⟩ := hp.queue
  -- the latest run has not had its turn, so nobody has started a validation
  have hfresh : ∀ j, s'.Fresh j → s.Fresh j ∧ j ≠ id := by
    intro j hj
    rcases hgo.fresh_cases hj with hold | ⟨-, -, -, q, rfl, hq⟩
    · exact hold
    · exact absurd (h.sound.unique i id r q hr ht (hver.trans hq.symm)) hne
  refine ⟨fun hphase => ?_, fun hw j hj => hcalm hw j (hfresh j hj), fun hl f hf => ?_⟩
  · rw [hqueue]
    exact ((hfirst hphase).append (fun j hj => h.queued j hj.2 hj.1) more).mono hfresh
  · obtain ⟨herror, hunder, hfree⟩ := hlate hl f hf
    have hidle : task.validates f = false := by
      by_contra hv
      have hpos := tally_pos ht (p := Task.validates f) (by simpa using hv)
      have hcount := h.sound.counted f
      omega
    have hstart : task ≠ .validateField f := by
      rintro rfl
      exact hfree id ht
    obtain ⟨hunder', herror'⟩ := hgo.turn.quiet hidle hstart
    refine ⟨?_, ?_, fun j hj => ?_⟩
    · rw [hgo.store]
      exact herror'.trans herror
    · rw [hgo.store]
      exact hunder'.trans hunder
    · obtain ⟨⟨name, hname⟩, hjd⟩ := hfresh j ⟨f, hj⟩
      have hlt := h.sound.orderly.lt_count hname
      rw [hp.others j hjd hlt] at hj
      exact hfree j hj

/-- A task that takes its turn leaves behind what the latest run can rely on. -/
theorem goesOn (h : s.Turning id) (hgo : GoesOn s id answer task x s') : s'.Gated := by
  have hp := hgo.performed
  obtain ⟨more, hqueue, -, hmore, -⟩ := hp.queue
  have hversion : s.version ≤ s'.version := hgo.steady.version
  have hqueued : ∀ i, s.Fresh i ∧ i ≠ id → s.Queued i := fun i hi => h.queued i hi.2 hi.1
  refine ⟨hgo.sound h.sound, ?_, ?_⟩
  · intro i hi
    rcases hgo.fresh_cases hi with hold | ⟨hi, hi', -⟩
    · obtain ⟨b, hb⟩ := hqueued i hold
      exact ⟨b, hqueue ▸ List.mem_append_left more hb⟩
    · exact ⟨_, hqueue ▸ List.mem_append_right s.queue (hmore i hi hi')⟩
  · intro i r hr hver
    rcases hp.task_cases hr with ⟨rfl, hself⟩ | ⟨hne, -, hold⟩ | ⟨hi, -, hchild⟩
    · exact h.guard_self hgo hself
    · have hle := h.sound.version i r hold
      exact h.guard_other hgo hne hold (by omega)
    · have hgone : ∀ t, s.task? i ≠ some t :=
        fun t ht => absurd (h.sound.orderly.lt_count ht) (Nat.not_lt.2 hi)
      rcases hgo.run_cases hr with ⟨q, hq, -⟩ | ⟨-, -, -, hcreated, -, hplain, -⟩
      · exact absurd hq (hgone _)
      · refine guarded_created h.sound.orderly hqueue (fun j hj => ?_) hi hcreated
        rcases hgo.fresh_cases hj with hold | ⟨-, -, -, q, rfl, -⟩
        · exact hqueued j hold
        · exact False.elim hplain

end Turning

/-! ### Events -/

/-- A task that has ended has no turn. -/
theorem Turning.skip {s : Session} {id : Nat} (h : s.Turning id) (hnone : s.task? id = none) :
    s.Gated := by
  have hne : ∀ i t, s.task? i = some t → i ≠ id := by
    rintro i t ht rfl
    exact absurd (hnone.symm.trans ht) (by simp)
  have hfresh : ∀ i, s.Fresh i → s.Fresh i ∧ i ≠ id := by
    rintro i ⟨name, hname⟩
    exact ⟨⟨name, hname⟩, hne i _ hname⟩
  refine ⟨h.sound, fun i hi => h.queued i (hfresh i hi).2 hi, ?_⟩
  intro i r hr hver
  obtain ⟨hfirst, hcalm, hlate⟩ := h.guard i r (hne i _ hr) hr hver
  exact ⟨fun hphase => (hfirst hphase).mono hfresh, fun hw j hj => hcalm hw j (hfresh j hj), hlate⟩

theorem Turning.resume {s : Session} {id : Nat} (h : s.Turning id) (answer : Answer) :
    (s.resume id answer).Gated := by
  rcases h.sound.resume_cases id answer with ⟨hnone, heq⟩ | ⟨task, x, hgo⟩
  · rw [heq]
    exact h.skip hnone
  · exact h.goesOn hgo

/-- Starting a run of what there is to save. -/
theorem Gated.startRun {s : Session} (h : s.Gated) : s.startRun.Gated := by
  rcases s.startRun_cases with heq | heq | ⟨a, saving, hs, heq⟩
  · rw [heq]
    exact h
  · rw [heq]
    exact h.withWorld _ rfl h.sound.clock h.sound.waiting h.sound.counted
      (Or.inr ⟨rfl, fun _ => ⟨rfl, rfl⟩⟩)
  · have hversion : saving.version = s.version + 1 ∧ a.version = saving.version := by
      obtain ⟨rfl, rfl⟩ := AutoSave.start?_eq hs
      exact ⟨rfl, rfl⟩
    rw [heq]
    have hworld := h.withWorld (s.world.withAutoSave fun _ => saving) rfl h.sound.clock
      h.sound.waiting h.sound.counted (Or.inl (Nat.lt_of_succ_le (Nat.le_of_eq hversion.1.symm)))
    have hspawned := spawned_kept hworld.sound.orderly.tasks .runs (.run (.ofAssignment a)) []
    refine hworld.spawned ?_ hspawned (fun name hname => ?_) (fun r hr => ?_)
    · refine hworld.sound.spawned hspawned (fun owner ho => absurd ho (by simp)) ?_
        h.sound.counted ?_
      · intro t ht
        obtain rfl := List.mem_singleton.1 ht
        trivial
      · intro r hr
        obtain rfl := Task.run.inj (List.mem_singleton.1 hr)
        refine ⟨rfl, hversion.2, fun id q hq => ?_⟩
        have hle := h.sound.version id q hq
        show q.version < saving.version
        omega
    · exact absurd (List.mem_singleton.1 hname) (by simp)
    · obtain rfl := Task.run.inj (List.mem_singleton.1 hr)
      rfl

theorem Gated.take {s : Session} (h : s.Gated) (hprompt : s.Prompt) {t : Turn} {rest : List Turn}
    (hq : s.queue = t :: rest) : (take { s with queue := rest } t).Gated := by
  cases t with
  | resume id a => exact (h.turning hprompt hq).resume a
  | wake id a =>
    have hmem : Turn.wake id a ∈ s.queue := by
      rw [hq]
      exact List.mem_cons_self ..
    have hlt : Turn.Below s.count (.wake id a) := h.sound.orderly.turns _ hmem
    refine (h.pop hq (by simp)).shuffled (Shuffled.enqueue _ _) ?_
    intro u hu
    obtain rfl := List.mem_singleton.1 hu
    exact hlt
  | forget kept id =>
    exact (h.pop hq (by simp)).shuffled (Shuffled.withKept _ _ _) (fun u hu => absurd hu (by simp))
  | report owner a =>
    have hpop := h.pop hq (by simp)
    obtain ⟨more, hs, hmore⟩ := report_shuffled { s with queue := rest } owner a
    refine hpop.shuffled hs ?_
    intro u hu
    obtain ⟨⟨b, rfl⟩, hlive⟩ := hmore u hu
    obtain ⟨t, ht⟩ := Option.isSome_iff_exists.1 hlive
    exact hpop.sound.orderly.lt_count ht
  | save => exact (h.pop hq (by simp)).startRun

theorem Gated.expire {s : Session} (h : s.Gated) : s.expire.Gated := by
  obtain ⟨ho, ha, hc, hu, hw, hcount, hv, huniq⟩ := h.sound
  have htimers : ∀ t ∈ s.timers.drop (s.timers.takeWhile (·.due ≤ s.now)).length, t.id < s.count :=
    fun t ht => ho.timers t (List.mem_of_mem_drop ht)
  have hless : Gated { s with
      timers := s.timers.drop (s.timers.takeWhile (·.due ≤ s.now)).length } :=
    ⟨⟨⟨ho.tasks, ho.turns, htimers, ho.followers⟩, ha, hc, hu, hw, hcount, hv, huniq⟩, h.queued,
      fun id r hr hver =>
        ⟨(h.guard id r hr hver).first, (h.guard id r hr hver).calm, (h.guard id r hr hver).late⟩⟩
  have hshuffled : Shuffled { s with
      timers := s.timers.drop (s.timers.takeWhile (·.due ≤ s.now)).length }
      ((s.timers.takeWhile (·.due ≤ s.now)).map (fun t => .wake t.id t.answer) ++
        if s.saveDue then [.save] else []) s.expire :=
    ⟨rfl, rfl, rfl, List.append_assoc .., fun _ => rfl, fun _ => rfl, fun _ _ hf => hf⟩
  refine hless.shuffled hshuffled ?_
  intro t ht
  rcases List.mem_append.1 ht with hwake | hsave
  · obtain ⟨u, hu, rfl⟩ := List.mem_map.1 hwake
    exact ho.timers u ((List.takeWhile_sublist _).subset hu)
  · split at hsave
    · obtain rfl := List.mem_singleton.1 hsave
      trivial
    · exact absurd hsave (by simp)

theorem Gated.change {s : Session} (h : s.Gated) (name : FieldName) (v : Value) :
    (s.happen (.change name v)).Gated := by
  obtain ⟨w, -, ⟨hsame, heq⟩ | ⟨now, -, hedited, heq⟩⟩ := h.sound.change_cases name v
  · have hstore : w.form.store = s.store := congrArg Form.store hsame
    rw [heq]
    refine h.withWorld w (congrArg Form.definition hsame) ?_ (hstore ▸ h.sound.waiting)
      (hstore ▸ h.sound.counted) (Or.inr ⟨?_, fun f => ?_⟩)
    · rw [hsame]
      exact h.sound.clock
    · exact (congrArg (fun f => f.autoSave.version) hsame).symm
    · rw [hstore]
      exact ⟨rfl, rfl⟩
  · have hcleared := h.sound.change_cleared hedited
    have hgated : (cleared { s with world := w }).Gated := by
      refine h.withWorld _ hedited.definition hcleared.clock rfl hcleared.counted (Or.inl ?_)
      show s.version < w.form.autoSave.version
      rw [hedited.autoSave]
      exact Nat.lt_succ_self _
    rw [heq]
    refine hgated.spawned (hcleared.takeUp (h.sound.change_counted hedited))
      (spawned_takeUp h.sound.orderly.tasks) ?_ ?_
    · intro name hname
      obtain ⟨ticket, -, hticket⟩ := List.mem_map.1 hname
      exact absurd hticket (by simp)
    · intro r hr
      obtain ⟨ticket, -, hticket⟩ := List.mem_map.1 hr
      exact absurd hticket (by simp)

/-- A plain task that is begun at once is about to take its turn. -/
theorem Gated.add {s : Session} (h : s.Gated) {task : Task} (hplain : task.IsPlain) :
    Turning (s.add task []).2 (s.add task []).1 ∧ (s.spawn task []).2.Gated := by
  have hspawn := Spawned.spawn h.sound.orderly.tasks task []
  have hgated : (s.spawn task []).2.Gated := by
    refine h.spawned (h.sound.add hplain).2 hspawn ?_ ?_
    · intro name hname
      obtain rfl := List.mem_singleton.1 hname
      exact hplain
    · intro r hr
      obtain rfl := List.mem_singleton.1 hr
      exact False.elim hplain
  have hrun : ∀ r, (s.add task []).2.task? s.count ≠ some (.run r) := by
    intro r hr
    obtain rfl := Option.some.inj ((s.task?_add_self task []).symm.trans hr)
    exact hplain
  refine ⟨⟨(h.sound.add hplain).1, ?_, ?_, ?_, ?_, ?_⟩, hgated⟩
  · intro i hne hi
    obtain ⟨b, hb⟩ := hgated.queued i hi
    rcases List.mem_append.1 hb with hold | hnew
    · exact ⟨b, hold⟩
    · exact absurd (Turn.resume.inj (List.mem_singleton.1 hnew)).1 hne
  · exact fun r hr => absurd hr (hrun r)
  · exact fun r hr => absurd hr (hrun r)
  · exact fun r hr => absurd hr (hrun r)
  · intro i r _ hr hver
    obtain ⟨hfirst, hcalm, hlate⟩ := hgated.guard i r hr hver
    exact ⟨fun hphase => ((hfirst hphase).of_append).mono fun j hj => hj.1,
      fun hw j hj => hcalm hw j hj.1, hlate⟩

/-- **Every event keeps what the latest run can rely on.** -/
theorem Gated.happen {s : Session} (h : s.Gated) (hprompt : s.Prompt) {e : Event} (he : e.IsUsual) :
    (s.happen e).Gated := by
  cases e with
  | change name v => exact h.change name v
  | cancel =>
    exact h.withWorld _ rfl h.sound.clock h.sound.waiting h.sound.counted
      (Or.inl (Nat.lt_succ_self _))
  | launch task => exact (h.add he).2
  | ask task => exact (h.add he).1.resume _
  | turn =>
    unfold Session.happen
    cases hq : s.queue with
    | nil => exact h
    | cons t rest => exact h.take hprompt hq
  | expire => exact h.expire
  | pass t =>
    exact h.withWorld _ rfl rfl h.sound.waiting h.sound.counted (Or.inr ⟨rfl, fun _ => ⟨rfl, rfl⟩⟩)

/-- A new session of a form that saves itself is gated. -/
theorem New.gated {host : Host} {d : Definition} {registry : Registry} {now : Instant} {s : Session}
    (h : New host d registry (some now) s) (hauto : d.autoSave = true) : s.Gated := by
  have hnone := h.task?_ne_some
  refine ⟨h.sound hauto, ?_, fun id r hr => absurd hr (hnone id _)⟩
  rintro i ⟨name, hname⟩
  exact absurd hname (hnone i _)

/-- Whatever happens in a session of a form that saves itself, the latest run can rely on what it
has found, and every run is prompt. -/
theorem gated_after {host : Host} {d : Definition} {registry : Registry} {settings : Settings}
    {record defaults : Value} {now : Instant} {s : Session}
    (h : start host d registry settings record defaults (some now) = .ok s)
    (hauto : d.autoSave = true) {events : List Event} (hevents : ∀ e ∈ events, e.IsUsual) :
    (s.after events).Gated ∧ (s.after events).Prompt := by
  refine after_induction (P := fun s => s.Gated ∧ s.Prompt)
    ⟨(start_new h).gated hauto, (start_new h).prompt⟩ ?_ hevents
  intro s e he hs
  exact ⟨hs.1.happen hs.2 he, hs.2.happen hs.1.sound he⟩

/-! ### A form of two fields -/

namespace Stay

/-- The second value is a later number than the first, if both are numbers. -/
def inOrder : Value → Value → Bool
  | .number (.int a), .number (.int b) => a < b
  | _, _ => true

/-- A host with a check: a departure is later than the arrival. -/
def host : Host where
  callback := fun _ _ => pure .null
  check := fun _ departure values =>
    pure (.bool (inOrder ((Table.get? (.text "arrival") values).getD .null) departure))
  delays := fun _ => []

/-- The form of a stay. It saves itself. -/
def definition (debounce : Float) : Definition where
  fields := [(.text "arrival", { name := .text "arrival" }),
    (.text "departure",
      { name := .text "departure", validator := .check 0, subscribesTo := ["arrival"] })]
  autoSave := true
  debounce := .float debounce

/-- The store of a new form of a stay. -/
def store : Store where
  values := [(.text "arrival", .null), (.text "departure", .null)]
  defaults := [(.text "arrival", .null), (.text "departure", .null)]
  messages := Validation.messagesWith []

/-- A session with a new form of a stay, which waits for a time before it saves. -/
def session (debounce : Float) (wait : Number) : Session where
  world := (World.runForm
    { host
      form :=
        { definition := definition debounce, registry := {}, settings := {}, store
          debounce := wait, clock := some 0 } } (Form.setUp host)).2

/-- A departure is given and validated, then an arrival. The run that saves both is about to
submit. -/
def course : List Event :=
  [.change (.text "departure") (.int 5), .turn, .change (.text "arrival") (.int 10),
    .ask .flush, .turn, .turn, .turn, .turn, .turn, .turn]

theorem start_eq (x : Float) :
    start host (definition x) {} {} .null .null (some 0) = .ok (session x (.float x)) := by
  have hstore : Store.ofDefinition (definition x) .null .null = .ok store := by cbv
  have hblank : Form.blank (definition x) {} {} .null .null (some 0) = .ok
      { definition := definition x, registry := {}, settings := {}, store
        debounce := .float x, clock := some 0 } := by
    unfold Form.blank
    rw [hstore]
    rfl
  have hset : ∀ wait : Number, (World.runForm
      { host
        form :=
          { definition := definition x, registry := {}, settings := {}, store
            debounce := wait, clock := some 0 } } (Form.setUp host)).1 = .ok () := by
    intro wait
    cbv
  unfold start
  rw [hblank]
  simp only [bind, Except.bind]
  rw [hset]
  rfl

theorem course_usual : ∀ e ∈ course, e.IsUsual := by
  intro e he
  fin_cases he <;> trivial

/-- Nothing has been submitted by then, and the next turn submits both values. -/
theorem submitted (x : Float) (wait : Number) :
    ((session x wait).after course).store.submitted = [] ∧
      (((session x wait).after course).happen .turn).store.submitted =
        [[(.text "arrival", .int 10), (.text "departure", .int 5)]] := by
  -- both at once, so that the course is gone through once
  have hall : (fun s : Session => (s.store.submitted, (s.happen .turn).store.submitted))
      ((session x wait).after course) =
        ([], [[(.text "arrival", .int 10), (.text "departure", .int 5)]]) := by
    cbv
  simp only [Prod.mk.injEq] at hall
  exact hall

theorem submits (x : Float) (wait : Number) :
    (((session x wait).after course).happen .turn).store.submitted ≠
      ((session x wait).after course).store.submitted := by
  rw [(submitted x wait).1, (submitted x wait).2]
  exact List.cons_ne_nil _ _

end Stay

/-! ### Submissions -/

/-- Nobody is about to begin a validation when the latest run has its turn, unless it has
submitted. -/
theorem Gated.calm {s : Session} (h : s.Gated) (hprompt : s.Prompt) {id : Nat} {a : Answer}
    {rest : List Turn} (hq : s.queue = .resume id a :: rest) {r : Run}
    (hr : s.task? id = some (.run r)) (hver : s.version = r.version)
    (hphase : r.phase ≠ .submitting) (i : Nat) : ¬ s.Fresh i :=
  (h.turning hprompt hq).calm r hr hver.symm hphase i

/-- Where a run may submit, its fields have no errors and are not being validated. -/
theorem Gated.maySubmit_clear {s : Session} (h : s.Gated) {id : Nat} {r : Run}
    (hr : s.task? id = some (.run r)) (hver : s.version = r.version)
    (hmay : r.MaySubmit (Task.sight s.world)) {f : FieldName}
    (hf : f ∈ r.batch.changed ∨ f ∈ r.batch.affected) :
    s.store.error? f = none ∧ s.store.isValidating f = false := by
  by_cases hchanged : f ∈ r.batch.changed
  · rcases hmay with ⟨-, hsettled, -⟩ | ⟨hlate, -⟩
    · have hvalid := hsettled.valid f hchanged
      refine ⟨by simpa [Task.sight] using hvalid, ?_⟩
      exact hsettled.quiet f (Names.mem_union.2 (Or.inl hchanged))
    · obtain ⟨herror, hunder, -⟩ := (h.guard id r hr hver.symm).late hlate f hchanged
      exact ⟨herror, (Store.isValidating_iff _ f).2 hunder⟩
  · have hdependent : f ∈ r.batch.dependents :=
      Names.mem_minus.2 ⟨hf.resolve_left hchanged, hchanged⟩
    rcases hmay with ⟨-, -, hnone⟩ | ⟨-, hconfirmed⟩
    · rw [hnone] at hdependent
      exact absurd hdependent (by simp)
    · have hvalid := hconfirmed.valid f hdependent
      exact ⟨by simpa [Task.sight] using hvalid, hconfirmed.quiet f hdependent⟩

/-- **A run submits only clear fields.** In a session of a form that saves itself, whatever its user
changes, calls off or asks for, however long validations take and whatever the host answers: what is
submitted are the values of the form, in the turn of a run none of whose fields, changed or
affected, has an error or is being validated. -/
theorem submits_only_clear_fields {host : Host} {d : Definition} {registry : Registry}
    {settings : Settings} {record defaults : Value} {now : Instant} {s : Session}
    (hstart : start host d registry settings record defaults (some now) = .ok s)
    (hauto : d.autoSave = true) {events : List Event} (hevents : ∀ e ∈ events, e.IsUsual)
    {e : Event} (he : e.IsUsual)
    (hsubmits : ((s.after events).happen e).store.submitted ≠ (s.after events).store.submitted) :
    ∃ id a rest r, e = .turn ∧ (s.after events).queue = .resume id a :: rest ∧
      (s.after events).task? id = some (.run r) ∧
      ((s.after events).happen e).store.submitted =
        (s.after events).store.submitted ++ [(s.after events).store.values] ∧
      ∀ f, f ∈ r.batch.changed ∨ f ∈ r.batch.affected →
        (s.after events).store.error? f = none ∧ (s.after events).store.isValidating f = false := by
  obtain ⟨hgated, -⟩ := gated_after hstart hauto hevents
  rcases hgated.sound.happen_submitted he with
    hsame | ⟨id, a, rest, r, hturn, hq, hr, hver, hmay, hsub⟩
  · exact absurd hsame hsubmits
  · exact ⟨id, a, rest, r, hturn, hq, hr, hsub, fun f hf => hgated.maySubmit_clear hr hver hmay hf⟩

/-- A run submits an arrival and a departure, both clear. -/
theorem submits_only_clear_fields_stay :
    start Stay.host (Stay.definition 1000) {} {} .null .null (some 0) =
        .ok (Stay.session 1000 (.float 1000)) ∧
      (Stay.definition 1000).autoSave = true ∧ (∀ e ∈ Stay.course, e.IsUsual) ∧
      ∃ id a rest r,
        ((Stay.session 1000 (.float 1000)).after Stay.course).queue = .resume id a :: rest ∧
        ((Stay.session 1000 (.float 1000)).after Stay.course).task? id = some (.run r) ∧
        ∀ f, f ∈ r.batch.changed ∨ f ∈ r.batch.affected →
          ((Stay.session 1000 (.float 1000)).after Stay.course).store.error? f = none ∧
          ((Stay.session 1000 (.float 1000)).after Stay.course).store.isValidating f = false := by
  have hstart := Stay.start_eq 1000
  have hsubmits := Stay.submits 1000 (.float 1000)
  obtain ⟨id, a, rest, r, -, hq, hr, -, hclear⟩ :=
    submits_only_clear_fields hstart rfl Stay.course_usual (e := .turn) trivial hsubmits
  exact ⟨hstart, rfl, Stay.course_usual, id, a, rest, r, hq, hr, hclear⟩

end Session

end LiveForm
