import Mathlib
import LiveForm.Proofs.Session.Events

/-!
# Sound sessions

In a session of a form that saves itself every validation under way is counted, and runs are told
apart by their versions (`Session.Sound`). Bookkeeping, new tasks, other worlds and turns of tasks
keep this, as long as they leave the counts and the versions right.
-/

namespace LiveForm

namespace Session

variable {s s' : Session}

/-- No validation waits to be taken up, and those under way are counted. No run has a later version
than the form, and no two have the same. -/
structure Sound (s : Session) : Prop where
  orderly : s.Orderly
  auto : s.world.form.definition.autoSave = true
  clock : s.world.form.clock.isSome = true
  usual : ∀ id t, s.task? id = some t → t.IsUsual
  waiting : s.store.waiting = []
  counted : ∀ f, s.tally (Task.validates f) ≤ s.store.underway f
  version : ∀ id r, s.task? id = some (.run r) → r.version ≤ s.version
  unique : ∀ i j q r, s.task? i = some (.run q) → s.task? j = some (.run r) →
    q.version = r.version → i = j

theorem Orderly.pop {s : Session} (h : s.Orderly) {t : Turn} {rest : List Turn}
    (hq : s.queue = t :: rest) : Orderly { s with queue := rest } :=
  ⟨h.tasks, fun u hu => h.turns u (hq ▸ List.mem_cons_of_mem t hu), h.timers, h.followers⟩

theorem Sound.pop {s : Session} (h : s.Sound) {t : Turn} {rest : List Turn}
    (hq : s.queue = t :: rest) : Sound { s with queue := rest } :=
  ⟨h.orderly.pop hq, h.auto, h.clock, h.usual, h.waiting, h.counted, h.version, h.unique⟩

/-! ### Bookkeeping, new tasks and new worlds -/

theorem Sound.shuffled (h : s.Sound) {more : List Turn} (hs : Shuffled s more s')
    (hmore : ∀ t ∈ more, t.Below s.count) : s'.Sound := by
  refine ⟨hs.orderly h.orderly hmore, ?_, ?_, ?_, ?_, ?_, ?_, ?_⟩
  · rw [hs.world]
    exact h.auto
  · rw [hs.world]
    exact h.clock
  · intro id t ht
    exact h.usual id t (hs.task id ▸ ht)
  · rw [store, hs.world]
    exact h.waiting
  · intro f
    rw [hs.tally, store, hs.world]
    exact h.counted f
  · intro id r hr
    rw [Session.version, hs.world]
    exact h.version id r (hs.task id ▸ hr)
  · intro i j q r hq hr
    exact h.unique i j q r (hs.task i ▸ hq) (hs.task j ▸ hr)

/-- New tasks leave a session sound if they leave the counts right. A new run is the latest. -/
theorem Sound.spawned (h : s.Sound) {tasks : List Task} {listeners : List Listener}
    (hs : Spawned s tasks listeners s')
    (hlisten : ∀ owner, .follower owner ∈ listeners → owner < s.count)
    (husual : ∀ t ∈ tasks, t.IsUsual)
    (hcounted : ∀ f, s.tally (Task.validates f) + tasks.countP (Task.validates f) ≤
      s.store.underway f)
    (hrun : ∀ r, .run r ∈ tasks → tasks = [.run r] ∧ r.version = s.version ∧
      ∀ id q, s.task? id = some (.run q) → q.version < s.version) : s'.Sound := by
  have ho := hs.orderly h.orderly hlisten
  refine ⟨ho, ?_, ?_, ?_, ?_, ?_, ?_, ?_⟩
  · rw [hs.world]
    exact h.auto
  · rw [hs.world]
    exact h.clock
  · intro id t ht
    rcases hs.task_cases ht with hold | ⟨-, hnew⟩
    · exact h.usual id t hold
    · exact husual t hnew
  · rw [store, hs.world]
    exact h.waiting
  · intro f
    rw [hs.tally, store, hs.world]
    exact hcounted f
  · intro id r hr
    rw [Session.version, hs.world]
    rcases hs.task_cases hr with hold | ⟨-, hnew⟩
    · exact h.version id r hold
    · exact Nat.le_of_eq (hrun r hnew).2.1
  · intro i j q r hq hr hqr
    rcases hs.task_cases hq with hqold | ⟨hi, hqnew⟩
    · rcases hs.task_cases hr with hrold | ⟨-, hrnew⟩
      · exact h.unique i j q r hqold hrold hqr
      · obtain ⟨-, hver, hless⟩ := hrun r hrnew
        have hlt := hless i q hqold
        omega
    · obtain ⟨htasks, hver, hless⟩ := hrun q hqnew
      rcases hs.task_cases hr with hrold | ⟨hj, hrnew⟩
      · have hlt := hless j r hrold
        omega
      · have hi' := ho.lt_count hq
        have hj' := ho.lt_count hr
        rw [hs.count, htasks, List.length_singleton] at hi' hj'
        omega

/-- Another world leaves a session sound if nothing waits in it, and it counts the validations under
way and has no earlier version. -/
theorem Sound.withWorld (h : s.Sound) (w : World)
    (hdef : w.form.definition = s.world.form.definition) (hclock : w.form.clock.isSome = true)
    (hwaiting : w.form.store.waiting = [])
    (hcounted : ∀ f, s.tally (Task.validates f) ≤ w.form.store.underway f)
    (hversion : s.version ≤ w.form.autoSave.version) : Sound { s with world := w } :=
  ⟨h.orderly.withWorld w, hdef ▸ h.auto, hclock, h.usual, hwaiting, hcounted,
    fun id r hr => Nat.le_trans (h.version id r hr) hversion, h.unique⟩

/-- A plain task may be added that does not stand in the queue. -/
theorem Sound.add (h : s.Sound) {task : Task} (hplain : task.IsPlain) :
    Sound (s.add task []).2 ∧ Sound (s.spawn task []).2 := by
  have hspawned : Sound (s.spawn task []).2 := by
    refine h.spawned (.spawn h.orderly.tasks task []) (fun owner ho => absurd ho (by simp)) ?_ ?_ ?_
    · intro t ht
      obtain rfl := List.mem_singleton.1 ht
      exact hplain.isUsual
    · intro f
      have hv : Task.validates f task = false := by
        unfold Task.validates
        rw [hplain.ticket?_eq_none]
        rfl
      simpa [hv] using h.counted f
    · intro r hr
      obtain rfl := List.mem_singleton.1 hr
      exact False.elim hplain
  refine ⟨?_, hspawned⟩
  obtain ⟨⟨ho, ht, htimers, hf⟩, ha, hc, hu, hwaiting, hcount, hv, huniq⟩ := hspawned
  exact ⟨⟨ho, fun t hmem => ht t (List.mem_append_left _ hmem), htimers, hf⟩, ha, hc, hu, hwaiting,
    hcount, hv, huniq⟩

/-- The world of a session in which validations wait no more. -/
def cleared (s : Session) : Session :=
  { s with world := s.world.withStore fun store => { store with waiting := [] } }

/-- Validations that wait are put in the queue. -/
theorem Sound.takeUp (h : s.cleared.Sound)
    (hcounted : ∀ f, s.tally (Task.validates f) + s.store.waitingOf f ≤ s.store.underway f) :
    s.takeUp.Sound := by
  refine h.spawned (spawned_takeUp h.orderly.tasks) (fun owner ho => absurd ho (by simp)) ?_ ?_ ?_
  · intro t ht
    obtain ⟨ticket, -, rfl⟩ := List.mem_map.1 ht
    trivial
  · intro f
    have hwaiting : (s.store.waiting.map Task.started).countP (Task.validates f) =
        s.store.waitingOf f := List.countP_map
    have hold := hcounted f
    rw [← hwaiting] at hold
    exact hold
  · intro r hr
    obtain ⟨ticket, -, hticket⟩ := List.mem_map.1 hr
    exact absurd hticket (by simp)

/-- What comes of a change: it writes to the form, and what it begins is put in the queue. A change
of what is no field does nothing. -/
theorem Sound.change_cases (h : s.Sound) (name : FieldName) (v : Value) :
    ∃ w : World, w.host = s.world.host ∧
      ((w.form = s.world.form ∧ s.happen (.change name v) = { s with world := w }) ∨
        ∃ now, s.world.form.IsField name ∧ Form.Edited (s.world.form.changed name v now) w.form ∧
          s.happen (.change name v) = Session.takeUp { s with world := w }) := by
  obtain ⟨now, hnow⟩ := Option.isSome_iff_exists.1 h.clock
  refine ⟨(s.world.runForm (Form.changeField s.world.host name v)).2, rfl, ?_⟩
  have hform : (s.world.runForm (Form.changeField s.world.host name v)).2.form =
      ((Form.changeField s.world.host name v).runOn s.world.form s.world.log).2.1 := rfl
  have hhappen : s.happen (.change name v) = Session.takeUp { s with
      world := (s.world.runForm (Form.changeField s.world.host name v)).2 } := rfl
  rw [hhappen]
  rcases Form.changeField_edited s.world.host hnow h.auto name v s.world.log with
    hsame | ⟨hfield, hedited⟩
  · refine Or.inl ⟨hform.trans hsame, ?_⟩
    generalize (s.world.runForm (Form.changeField s.world.host name v)).2 = w at hform ⊢
    have hwaiting : w.form.store.waiting = [] := by
      rw [hform, hsame]
      exact h.waiting
    have hcleared : (w.withStore fun store => { store with waiting := [] }) = w := by
      unfold World.withStore
      rw [← hwaiting]
    unfold Session.takeUp
    show List.foldl _ { s with world := w.withStore fun store => { store with waiting := [] } }
      w.form.store.waiting = _
    rw [hwaiting, hcleared]
    rfl
  · exact Or.inr ⟨now, hfield, hform ▸ hedited, rfl⟩

/-- What a change begins is counted. -/
theorem Sound.change_counted (h : s.Sound) {name : FieldName} {v : Value} {w : World}
    {now : Instant} (hw : Form.Edited (s.world.form.changed name v now) w.form) (f : FieldName) :
    s.tally (Task.validates f) + w.form.store.waitingOf f ≤ w.form.store.underway f := by
  have hold := h.counted f
  have hwaiting : s.store.waitingOf f = 0 := by
    unfold Store.waitingOf
    rw [h.waiting]
    rfl
  have hfirst := (Store.Edits.set name v true .refl trivial :
    Store.Edits (fun _ => True) s.store _).underway f
  have hrest := (hw.store h.clock).underway f
  change w.form.store.underway f + ((s.store.write name v true).beginLater name v).waitingOf f =
    ((s.store.write name v true).beginLater name v).underway f + _ at hrest
  omega

/-- After a change the session is sound before what waits is put in the queue. -/
theorem Sound.change_cleared (h : s.Sound) {name : FieldName} {v : Value} {w : World}
    {now : Instant} (hw : Form.Edited (s.world.form.changed name v now) w.form) :
    (cleared { s with world := w }).Sound := by
  refine h.withWorld (w.withStore fun store => { store with waiting := [] }) hw.definition ?_ rfl
    (fun f => ?_) ?_
  · show w.form.clock.isSome = true
    rw [hw.clock]
    exact h.clock
  · exact Nat.le_trans (Nat.le_add_right _ _) (h.change_counted hw f)
  · show s.version ≤ w.form.autoSave.version
    rw [hw.autoSave]
    exact Nat.le_succ _

/-- What becomes of a session when the time of a save comes: nothing, or there is nothing to save,
or a run starts. -/
theorem startRun_cases (s : Session) :
    s.startRun = s ∨ s.startRun = { s with world := s.world.withAutoSave AutoSave.disarm } ∨
      ∃ a saving, s.world.form.autoSave.disarm.start? = some (a, saving) ∧
        s.startRun = spawnKept { s with world := s.world.withAutoSave fun _ => saving } .runs
          (.run (.ofAssignment a)) [] := by
  unfold Session.startRun
  split
  · exact Or.inl rfl
  · have hsaving : (s.world.withAutoSave AutoSave.disarm).form.autoSave =
        s.world.form.autoSave.disarm := rfl
    simp only [hsaving]
    cases hs : s.world.form.autoSave.disarm.start? with
    | none => exact Or.inr (Or.inl rfl)
    | some found => exact Or.inr (Or.inr ⟨found.1, found.2, rfl, rfl⟩)

/-! ### Turns of tasks -/

/-- A task under way goes on with an answer. -/
theorem resume_of_live {s : Session} {id : Nat} {l : Live} (h : Table.get? id s.live = some l)
    (answer : Answer) :
    s.resume id answer =
      perform { s with
        world := (l.task.step s.world (fun k => !(s.kept k).isEmpty) answer).2 } id
        (l.task.step s.world (fun k => !(s.kept k).isEmpty) answer).1 := by
  unfold resume
  rw [h]

/-- A task goes on in a step of its own, which is one of its turns. -/
structure GoesOn (s : Session) (id : Nat) (answer : Answer) (task : Task) (x : Next × World)
    (s' : Session) : Prop where
  live : s.task? id = some task
  step : ∃ busy, x = task.step s.world busy answer
  turn : Task.TaskTurn s.world task x
  perform : s' = Session.perform { s with world := x.2 } id x.1
  performed : Performed { s with world := x.2 } id x.1 s'

/-- Whoever has a turn is a task under way that goes on, or has ended. -/
theorem Sound.resume_cases {s : Session} (h : s.Sound) (id : Nat) (answer : Answer) :
    (s.task? id = none ∧ s.resume id answer = s) ∨
      ∃ task x, GoesOn s id answer task x (s.resume id answer) := by
  cases hl : Table.get? id s.live with
  | none =>
    refine Or.inl ⟨task?_eq_none_iff.2 hl, ?_⟩
    unfold Session.resume
    rw [hl]
  | some l =>
    have ht : s.task? id = some l.task := task?_of_live hl
    have hturn := Task.step_turn s.world (fun k => !(s.kept k).isEmpty) (h.usual id _ ht) answer
    rw [resume_of_live hl]
    refine Or.inr ⟨l.task, _, ht, ⟨_, rfl⟩, hturn, rfl, ?_⟩
    obtain ⟨ho, -⟩ := h
    generalize l.task.step s.world (fun k => !(s.kept k).isEmpty) answer = x
    have ho' : Orderly { s with world := x.2 } := ho.withWorld x.2
    have hlive : (Session.task? { s with world := x.2 } id).isSome = true := by
      show (s.task? id).isSome = true
      rw [ht]
      rfl
    exact Session.performed ho' hlive x.1

namespace GoesOn

variable {id : Nat} {answer : Answer} {task : Task} {x : Next × World}

/-- The session is in the world that the turn has left. -/
theorem world (hgo : GoesOn s id answer task x s') : s'.world = x.2 :=
  hgo.performed.world

theorem store (hgo : GoesOn s id answer task x s') : s'.store = x.2.form.store :=
  congrArg (fun w => w.form.store) hgo.world

theorem steady (hgo : GoesOn s id answer task x s') : s.world.Steady s'.world :=
  hgo.world ▸ hgo.turn.steady

/-- The other tasks under way are as they were. -/
theorem others (hgo : GoesOn s id answer task x s') (ho : s.Orderly) {i : Nat} {t : Task}
    (hi : s.task? i = some t) (hne : i ≠ id) : s'.task? i = some t :=
  (hgo.performed.others i hne (ho.lt_count hi)).trans hi

/-- A run after a turn has the version of one that was there, or is the one that has just
started. -/
theorem run_cases (hgo : GoesOn s id answer task x s') {i : Nat} {r : Run}
    (hr : s'.task? i = some (.run r)) :
    (∃ q, s.task? i = some (.run q) ∧ r.version = q.version) ∨
      (s.count ≤ i ∧ r.version = s'.version ∧ s.version < s'.version ∧ r.phase = .created ∧
        s'.count = s.count + 1 ∧ task.IsPlain ∧ ∃ a, x.1 = .follow a .ending) := by
  have hp := hgo.performed
  rcases hp.task_cases hr with ⟨rfl, hself⟩ | ⟨-, -, hold⟩ | ⟨hi, -, hchild⟩
  · obtain ⟨q, rfl, hver, -⟩ := hgo.turn.task_run hself
    exact Or.inl ⟨q, hgo.live, hver⟩
  · exact Or.inl ⟨r, hold, rfl⟩
  · rcases hgo.turn.child hchild with ⟨-, -, -, -, name, -, hname⟩ | ⟨hplain, a, saving, hs, hw, hx⟩
    · exact absurd hname (by simp)
    · have hcount := hp.count
      rw [hx] at hchild hcount
      obtain rfl := Task.run.inj (List.mem_singleton.1 hchild)
      obtain ⟨rfl, rfl⟩ := AutoSave.start?_eq hs
      have hversion : s'.version = s.version + 1 := by
        rw [version, hgo.world, hw]
        rfl
      exact Or.inr ⟨hi, hversion.symm, by omega, rfl, hcount, hplain, _, hx⟩

/-- A turn leaves a session sound. -/
theorem sound (hgo : GoesOn s id answer task x s') (h : s.Sound) : s'.Sound := by
  have hp := hgo.performed
  have hturn := hgo.turn
  have hlt : id < s.count := h.orderly.lt_count hgo.live
  have ho' : Orderly { s with world := x.2 } := h.orderly.withWorld x.2
  have ho : s'.Orderly := hp.orderly ho' hlt
  have hversion : s.version ≤ s'.version := hgo.steady.version
  refine ⟨ho, ?_, ?_, ?_, ?_, ?_, ?_, ?_⟩
  · exact hgo.steady.definition ▸ h.auto
  · exact hgo.steady.clock h.clock
  · intro i t hi
    rcases hp.task_cases hi with ⟨rfl, hself⟩ | ⟨-, -, hold⟩ | ⟨-, -, hchild⟩
    · exact (hturn.task_usual hself).1
    · exact h.usual i t hold
    · exact (hturn.child_usual hchild).1
  · exact hgo.steady.waiting.trans h.waiting
  · intro f
    have htally := hp.tally (Task.validates f) task hgo.live
    have hchildren := hturn.child_validates f
    have hcount := hturn.counted f
    have hold := h.counted f
    rw [hchildren] at htally
    rw [hgo.store]
    change s'.tally _ + _ ≤ s.tally _ + _ + 0 at htally
    change _ + s.store.underway f ≤ _ at hcount
    show _ ≤ x.2.form.store.underway f
    omega
  · intro i r hr
    rcases hgo.run_cases hr with ⟨q, hq, hver⟩ | ⟨-, hver, -⟩
    · rw [hver]
      exact Nat.le_trans (h.version i q hq) hversion
    · exact Nat.le_of_eq hver
  · intro i j q r hq hr hqr
    have hi := ho.lt_count hq
    have hj := ho.lt_count hr
    rcases hgo.run_cases hq with ⟨q', hq', hqv⟩ | ⟨hci, hqv, hless, -, hcount, -⟩
    · rcases hgo.run_cases hr with ⟨r', hr', hrv⟩ | ⟨-, hrv, hless, -⟩
      · exact h.unique i j q' r' hq' hr' (by omega)
      · have hle := h.version i q' hq'
        omega
    · rcases hgo.run_cases hr with ⟨r', hr', hrv⟩ | ⟨hcj, -⟩
      · have hle := h.version j r' hr'
        omega
      · omega

end GoesOn

/-! ### Submissions -/

/-- Only a run submits when it goes on, and it submits the values of the form. -/
theorem Sound.resume_submitted (h : s.Sound) (id : Nat) (answer : Answer) :
    (s.resume id answer).store.submitted = s.store.submitted ∨
      ∃ r, s.task? id = some (.run r) ∧ s.version = r.version ∧
        r.MaySubmit (Task.sight s.world) ∧
        (s.resume id answer).store.submitted = s.store.submitted ++ [s.store.values] := by
  rcases h.resume_cases id answer with ⟨-, heq⟩ | ⟨task, x, hgo⟩
  · rw [heq]
    exact Or.inl rfl
  · rw [hgo.store]
    rcases hgo.turn.submitted with hsame | ⟨r, rfl, hver, hmay, hsub⟩
    · exact Or.inl hsame
    · exact Or.inr ⟨r, hgo.live, hver, hmay, hsub⟩

/-- A change submits nothing. -/
theorem Sound.change_submitted (h : s.Sound) (name : FieldName) (v : Value) :
    (s.happen (.change name v)).store.submitted = s.store.submitted := by
  obtain ⟨w, -, ⟨hsame, heq⟩ | ⟨now, -, hedited, heq⟩⟩ := h.change_cases name v
  · rw [heq]
    exact congrArg (fun f => f.store.submitted) hsame
  · have htaken := (spawned_takeUp (s := { s with world := w }) h.orderly.tasks).world
    rw [heq, store, htaken]
    exact (hedited.store h.clock).submitted

/-- Only the turn of a run submits anything. -/
theorem Sound.happen_submitted (h : s.Sound) {e : Event} (he : e.IsUsual) :
    (s.happen e).store.submitted = s.store.submitted ∨
      ∃ id a rest r, e = .turn ∧ s.queue = .resume id a :: rest ∧
        s.task? id = some (.run r) ∧ s.version = r.version ∧ r.MaySubmit (Task.sight s.world) ∧
        (s.happen e).store.submitted = s.store.submitted ++ [s.store.values] := by
  cases e with
  | change name v => exact Or.inl (h.change_submitted name v)
  | cancel => exact Or.inl rfl
  | launch task => exact Or.inl rfl
  | ask task =>
    rcases (h.add he).1.resume_submitted s.count (.ok .nothing) with hsame | ⟨r, hr, -⟩
    · exact Or.inl hsame
    · obtain rfl := Option.some.inj ((s.task?_add_self task []).symm.trans hr)
      exact False.elim he
  | turn =>
    unfold Session.happen
    cases hq : s.queue with
    | nil => exact Or.inl rfl
    | cons t rest =>
      cases t with
      | resume id a =>
        rcases (h.pop hq).resume_submitted id a with hsame | ⟨r, hr, hver, hmay, hsub⟩
        · exact Or.inl hsame
        · exact Or.inr ⟨id, a, rest, r, rfl, rfl, hr, hver, hmay, hsub⟩
      | wake id a => exact Or.inl rfl
      | forget kept id => cases kept <;> exact Or.inl rfl
      | report owner a =>
        obtain ⟨more, hs, -⟩ := report_shuffled { s with queue := rest } owner a
        refine Or.inl ?_
        show (Session.report { s with queue := rest } owner a).world.form.store.submitted = _
        rw [hs.world]
      | save =>
        refine Or.inl ?_
        show (Session.startRun { s with queue := rest }).store.submitted = _
        rcases Session.startRun_cases { s with queue := rest } with heq | heq | ⟨a, saving, -, heq⟩
        · rw [heq]
        · rw [heq]
          rfl
        · rw [heq]
          rfl
  | expire => exact Or.inl rfl
  | pass t => exact Or.inl rfl

/-! ### New sessions -/

theorem New.sound {host : Host} {d : Definition} {registry : Registry} {now : Instant}
    (h : New host d registry (some now) s) (hauto : d.autoSave = true) : s.Sound := by
  have hnone := h.task?_ne_some
  refine ⟨⟨?_, ?_, ?_, ?_⟩, h.definition ▸ hauto, ?_, ?_, h.waiting, ?_, ?_, ?_⟩
  · intro id _
    rw [h.live]
    rfl
  · rw [h.queue]
    exact fun t ht => absurd ht (by simp)
  · rw [h.timers]
    exact fun t ht => absurd ht (by simp)
  · exact fun owner id hf => absurd hf (h.not_follows owner id)
  · rw [h.clock]
    rfl
  · exact fun id t ht => absurd ht (hnone id t)
  · intro f
    unfold tally
    rw [h.live]
    exact Nat.zero_le _
  · exact fun id r hr => absurd hr (hnone id _)
  · exact fun i j q r hq => absurd hq (hnone i _)

end Session

end LiveForm
