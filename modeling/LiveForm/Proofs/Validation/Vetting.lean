import Mathlib
import LiveForm.Proofs.Form.Operation
import LiveForm.Proofs.Validation.Ledger

/-!
# The last validation decides

A vetting is the validation of the fields of a form with any number of validations under way, in any
order of steps: values are given, validations are asked for, and every task goes on whenever it is
told to. Between two steps the host may put all but what is known of validations into any state it
likes. What happens is taken down, the findings as the validators give them.

Every step keeps the ledger (`Vetting.take_keeps`). So whatever the order in which validations end,
the error of a field is in the end what the last of its validations to begin has found
(`Vetting.last_decides`).
-/

namespace LiveForm

open Notice

/-- The task validates fields, or waits for such tasks. -/
def Task.IsVetting : Task → Prop
  | .started _ | .checking _ _ _ _ | .validateField _ | .validate _ | .ending => True
  | _ => False

/-- What is taken down of a task's turn. -/
def Task.notices (w : World) (task : Task) : List Notice :=
  (task.opening? w).toList.map .begins ++
    ((task.worksOn? w).bind fun t => (task.finding? w).map (.ends t)).toList

/-- The store with what another knows of validations and errors. -/
def Store.withAccount (s kept : Store) : Store :=
  { s with
    errors := kept.errors, running := kept.running, latest := kept.latest, begun := kept.begun
    waiting := kept.waiting }

/-- What may come next. -/
inductive Vetting.Cue where
  /-- Somebody gives a field a value. -/
  | set (name : FieldName) (v : Value) (touch validate : Bool)
  /-- Somebody asks for a validation of a field. -/
  | validate (name : FieldName)
  /-- Somebody asks for a validation of several fields. -/
  | trigger (names : List FieldName)
  /-- The task at a place has its turn, with the answer to what it wanted. -/
  | turn (place : Nat) (answer : Answer)
  /-- The host puts all but what is known of validations into another state. -/
  | host (w : World)

/-- A vetting: the form in its host, the tasks under way, and what has happened so far, oldest
first. -/
structure Vetting where
  world : World
  tasks : List Task := []
  past : List Notice := []

namespace Vetting

/-- The store of the form. -/
def store (c : Vetting) : Store :=
  c.world.form.store

/-- The validations under way. -/
def live (c : Vetting) : List Ticket :=
  c.tasks.filterMap Task.ticket?

/-- A vetting at its beginning. -/
def start (w : World) : Vetting where
  world := w

/-- Takes up the validations that have begun with a value. -/
def takeUp (c : Vetting) : Vetting where
  world := c.world.withStore fun s => { s with waiting := [] }
  tasks := c.tasks ++ c.store.waiting.map .started
  past := c.past ++ c.store.waiting.map .begins

/-- A task stands where its turn has left it, or has ended. -/
def settle (c : Vetting) (place : Nat) (task : Task) (x : Next × World) : Vetting where
  world := x.2
  tasks :=
    (match x.1.task? with
      | some next => c.tasks.set place next
      | none => c.tasks.eraseIdx place) ++ x.1.children
  past := c.past ++ task.notices c.world

/-- What comes of a cue. -/
def take (c : Vetting) : Cue → Vetting
  | .set name v touch validate =>
    takeUp { c with world := (c.world.runForm (Form.setValue name v touch validate)).2 }
  | .validate name => { c with tasks := c.tasks ++ [.validateField name] }
  | .trigger names => { c with tasks := c.tasks ++ [.validate names] }
  | .turn place answer =>
    match c.tasks[place]? with
    | some task => c.settle place task (task.step c.world (fun _ => false) answer)
    | none => c
  | .host w => { c with world := w.withStore fun s => s.withAccount c.store }

/-- What comes of cues, one after the other. -/
def after (w : World) (cues : List Cue) : Vetting :=
  cues.foldl take (start w)

/-- The ledger is right, and the tasks are tasks of a vetting. -/
structure Keeps (c : Vetting) : Prop where
  ledger : Ledger c.store c.live c.past
  waiting : c.store.waiting = []
  tasks : ∀ task ∈ c.tasks, task.IsVetting

variable {c : Vetting}

/-! ### Values -/

theorem withAccount_same (s kept : Store) : kept.SameAccount (s.withAccount kept) :=
  ⟨rfl, rfl, rfl, rfl⟩

theorem write_same (s : Store) (name : FieldName) (v : Value) (touch : Bool) :
    s.SameAccount (s.write name v touch) :=
  ⟨rfl, rfl, rfl, rfl⟩

/-- Validations that have begun with a value are taken up. -/
theorem Keeps.takeUp (h : c.Keeps) (w : World)
    (hledger : Ledger w.form.store (c.live ++ w.form.store.waiting)
      (c.past ++ w.form.store.waiting.map .begins)) :
    (takeUp { c with world := w }).Keeps where
  ledger := by
    have hlive : live (Vetting.takeUp { c with world := w }) = c.live ++ w.form.store.waiting := by
      have hstarted : (w.form.store.waiting.map Task.started).filterMap Task.ticket? =
          w.form.store.waiting := by
        rw [List.filterMap_map]
        exact List.filterMap_some
      unfold live Vetting.takeUp
      rw [List.filterMap_append]
      exact congrArg _ hstarted
    rw [hlive]
    exact hledger.congr ⟨rfl, rfl, rfl, rfl⟩ (.refl _)
  waiting := rfl
  tasks := by
    refine List.forall_mem_append.2 ⟨h.tasks, fun task htask => ?_⟩
    obtain ⟨t, -, rfl⟩ := List.mem_map.1 htask
    trivial

/-- A value that is given is validated, if it is to be and there is a loop. -/
theorem Keeps.set (h : c.Keeps) (name : FieldName) (v : Value) (touch validate : Bool) :
    (c.take (.set name v touch validate)).Keeps := by
  have hwritten := h.ledger.congr (write_same c.store name v touch) (.refl _)
  have hwaiting : (c.store.write name v touch).waiting = [] := h.waiting
  have hstore : (c.world.runForm (Form.setValue name v touch validate)).2.form.store =
      if validate && c.world.form.clock.isSome then
        (c.store.write name v touch).beginLater name v
      else c.store.write name v touch := rfl
  refine h.takeUp _ ?_
  rw [hstore]
  split
  · have hlater : ((c.store.write name v touch).beginLater name v).waiting =
        [((c.store.write name v touch).begin name v).1] :=
      congrArg (· ++ [((c.store.write name v touch).begin name v).1]) hwaiting
    rw [hlater]
    exact (hwritten.begins name v).congr ⟨rfl, rfl, rfl, rfl⟩ (.refl _)
  · rw [hwaiting, List.append_nil]
    exact (List.append_nil c.past).symm ▸ hwritten

/-! ### Turns -/

/-- The validations under way beside that of the task at a place. -/
def others (c : Vetting) (place : Nat) : List Ticket :=
  (c.tasks.eraseIdx place).filterMap Task.ticket?

variable {place : Nat} {task : Task} {t : Ticket}

theorem tickets_cons (task : Task) (tasks : List Task) :
    (task :: tasks).filterMap Task.ticket? =
      task.ticket?.toList ++ tasks.filterMap Task.ticket? := by
  rw [List.filterMap_cons]
  cases task.ticket? <;> rfl

theorem live_perm (h : c.tasks[place]? = some task) :
    c.live.Perm (task.ticket?.toList ++ c.others place) := by
  obtain ⟨hplace, rfl⟩ := List.getElem?_eq_some_iff.1 h
  rw [others, ← tickets_cons]
  exact (List.getElem_cons_eraseIdx_perm hplace).symm.filterMap Task.ticket?

theorem settle_live_perm (h : c.tasks[place]? = some task) (x : Next × World) :
    (c.settle place task x).live.Perm ((x.1.task?.bind Task.ticket?).toList ++ c.others place ++
      x.1.children.filterMap Task.ticket?) := by
  obtain ⟨hplace, -⟩ := List.getElem?_eq_some_iff.1 h
  unfold live settle
  rw [List.filterMap_append]
  refine List.Perm.append_right _ ?_
  cases x.1.task? with
  | none => exact .refl _
  | some next =>
    rw [Option.bind_some, others, ← tickets_cons]
    exact (List.set_perm_cons_eraseIdx hplace next).filterMap Task.ticket?

/-- A validation that has its turn has begun. -/
theorem Keeps.opened (h : c.Keeps) (hplace : c.tasks[place]? = some task)
    (hworks : task.worksOn? c.world = some t) :
    Ledger (task.opened c.world).form.store (t :: c.others place)
      (c.past ++ (task.opening? c.world).toList.map .begins) := by
  have hlive := live_perm hplace
  cases task with
  | started u | checking u question next rest =>
    obtain rfl := Option.some.inj hworks
    exact (List.append_nil c.past).symm ▸ h.ledger.congr ⟨rfl, rfl, rfl, rfl⟩ hlive
  | validateField name =>
    obtain rfl := Option.some.inj hworks
    exact (h.ledger.begins name (c.store.value name)).congr ⟨rfl, rfl, rfl, rfl⟩
      ((hlive.append_right _).trans (List.perm_append_singleton _ _))
  | _ => exact nomatch hworks

theorem settle_tasks (h : ∀ task ∈ c.tasks, task.IsVetting) {x : Next × World}
    (hnext : ∀ next, x.1.task? = some next → next.IsVetting)
    (hchildren : ∀ child ∈ x.1.children, child.IsVetting) :
    ∀ task' ∈ (c.settle place task x).tasks, task'.IsVetting := by
  intro task' htask'
  rcases List.mem_append.1 htask' with hold | hchild
  · cases hx : x.1.task? with
    | none =>
      simp only [hx] at hold
      exact h task' (List.mem_of_mem_eraseIdx hold)
    | some next =>
      simp only [hx] at hold
      rcases List.mem_or_eq_of_mem_set hold with hold | rfl
      · exact h task' hold
      · exact hnext task' hx
  · exact hchildren task' hchild

theorem opened_waiting (w : World) (task : Task) :
    (task.opened w).form.store.waiting = w.form.store.waiting := by
  cases task <;> rfl

/-- A turn in which a task works on a validation. -/
theorem Keeps.work (h : c.Keeps) (hplace : c.tasks[place]? = some task)
    (hworks : task.worksOn? c.world = some t) (answer : Answer) :
    (c.settle place task (task.step c.world (fun _ => false) answer)).Keeps := by
  have hopened := h.opened hplace hworks
  have hwaiting := (opened_waiting c.world task).trans h.waiting
  have hnotices : task.notices c.world = (task.opening? c.world).toList.map .begins ++
      ((task.finding? c.world).map (.ends t)).toList := by
    rw [Task.notices, hworks, Option.bind_some]
  have hfinds := Task.step_finds c.world (fun _ => false) answer hworks
  generalize task.step c.world (fun _ => false) answer = x at hfinds
  have hlive := settle_live_perm hplace x
  have hpast : (c.settle place task x).past = c.past ++ task.notices c.world := rfl
  rw [hnotices, ← List.append_assoc] at hpast
  generalize task.finding? c.world = finding at hfinds hpast
  cases hfinds with
  | asks w' duration question next rest hform =>
    have hstore : w'.form.store = (task.opened c.world).form.store := congrArg Form.store hform
    refine ⟨?_, ?_, settle_tasks h.tasks ?_ (List.forall_mem_nil _)⟩
    · have hgoing : Ledger w'.form.store (t :: c.others place)
          (c.past ++ (task.opening? c.world).toList.map .begins) := hstore ▸ hopened
      rw [hpast]
      exact (List.append_nil _).symm ▸ hgoing.congr ⟨rfl, rfl, rfl, rfl⟩
        ((List.append_nil (t :: c.others place)) ▸ hlive.symm)
    · exact (congrArg Store.waiting hstore).trans hwaiting
    · intro task' htask'
      obtain rfl := Option.some.inj htask'
      trivial
  | ends w' found hform =>
    have hstore : (Task.conclude w' t found).2.form.store =
        (task.opened c.world).form.store.finish t found :=
      congrArg (fun form => form.store.finish t found) hform
    refine ⟨?_, ?_, settle_tasks h.tasks nofun (List.forall_mem_nil _)⟩
    · have hended := hopened.ends (.refl _) found
      rw [← hstore] at hended
      rw [hpast]
      exact hended.congr ⟨rfl, rfl, rfl, rfl⟩ ((List.append_nil (c.others place)) ▸ hlive.symm)
    · exact (congrArg Store.waiting hstore).trans ((Store.finish_waiting _ _ _).trans hwaiting)

/-- A task that works on no validation starts validations of fields at most, and ends. -/
theorem step_resting {w : World} (hvetting : task.IsVetting) (hworks : task.worksOn? w = none)
    (answer : Answer) : ∃ next, task.step w (fun _ => false) answer = (next, w) ∧
      (next.task? = none ∨ next.task? = some .ending) ∧
      ∃ names : List FieldName, next.children = names.map .validateField := by
  cases task with
  | validate names =>
    simp only [Task.step]
    split
    · exact ⟨_, rfl, .inl rfl, [], rfl⟩
    · exact ⟨_, rfl, .inr rfl, names, rfl⟩
  | ending => exact ⟨_, rfl, .inl rfl, [], rfl⟩
  | started u | checking u question next rest | validateField name => exact nomatch hworks
  | _ => exact hvetting.elim

/-- A turn in which a task works on no validation leaves the store alone. -/
theorem Keeps.rest (h : c.Keeps) (hplace : c.tasks[place]? = some task)
    (hworks : task.worksOn? c.world = none) (answer : Answer) :
    (c.settle place task (task.step c.world (fun _ => false) answer)).Keeps := by
  obtain ⟨hticket, hopening⟩ := Option.or_eq_none_iff.1 hworks
  obtain ⟨next, hstep, htask, names, hchildren⟩ :=
    step_resting (h.tasks task (List.mem_of_getElem? hplace)) hworks answer
  rw [hstep]
  have hnext : next.task?.bind Task.ticket? = none := by
    rcases htask with htask | htask <;> rw [htask] <;> rfl
  have hstarted : next.children.filterMap Task.ticket? = [] := by
    rw [hchildren, List.filterMap_map]
    exact List.filterMap_none names
  have hlive := live_perm hplace
  have hlive' := settle_live_perm hplace (next, c.world)
  rw [hticket] at hlive
  rw [hnext, hstarted, List.append_nil] at hlive'
  have hnotices : task.notices c.world = [] := by
    rw [Task.notices, hopening, hworks]
    rfl
  refine ⟨?_, h.waiting, settle_tasks h.tasks ?_ ?_⟩
  · have hpast : (c.settle place task (next, c.world)).past = c.past := by
      unfold settle
      rw [hnotices, List.append_nil]
    rw [hpast]
    exact h.ledger.congr ⟨rfl, rfl, rfl, rfl⟩ (hlive.trans hlive'.symm)
  · intro task' htask'
    rcases htask with hnext | hnext
    · exact nomatch hnext.symm.trans htask'
    · obtain rfl := Option.some.inj (hnext.symm.trans htask')
      trivial
  · intro child hchild
    rw [hchildren] at hchild
    obtain ⟨name, -, rfl⟩ := List.mem_map.1 hchild
    trivial

theorem Keeps.turn (h : c.Keeps) (hplace : c.tasks[place]? = some task) (answer : Answer) :
    (c.settle place task (task.step c.world (fun _ => false) answer)).Keeps := by
  cases hworks : task.worksOn? c.world with
  | some t => exact h.work hplace hworks answer
  | none => exact h.rest hplace hworks answer

theorem Keeps.join (h : c.Keeps) {task : Task} (hvetting : task.IsVetting)
    (hticket : task.ticket? = none) : Keeps { c with tasks := c.tasks ++ [task] } where
  ledger := by
    have hlive : live { c with tasks := c.tasks ++ [task] } = c.live := by
      unfold live
      rw [List.filterMap_append, tickets_cons, hticket]
      exact List.append_nil _
    rw [hlive]
    exact h.ledger
  waiting := h.waiting
  tasks := List.forall_mem_append.2 ⟨h.tasks, List.forall_mem_singleton.2 hvetting⟩

/-- **Every step keeps the ledger.** -/
theorem take_keeps (h : c.Keeps) (cue : Cue) : (c.take cue).Keeps := by
  cases cue with
  | set name v touch validate => exact h.set name v touch validate
  | validate name => exact h.join trivial rfl
  | trigger names => exact h.join trivial rfl
  | turn place answer =>
    simp only [take]
    cases hplace : c.tasks[place]? with
    | none => exact h
    | some task => exact h.turn hplace answer
  | host w => exact ⟨h.ledger.congr (withAccount_same _ _) (.refl _), h.waiting, h.tasks⟩

/-! ### The last validation -/

theorem after_keeps {w : World} (hunderway : ∀ f, w.form.store.underway f = 0)
    (hwaiting : w.form.store.waiting = []) (cues : List Cue) : (after w cues).Keeps := by
  induction cues using List.reverseRecOn with
  | nil => exact ⟨.start hunderway, hwaiting, List.forall_mem_nil _⟩
  | append_singleton cues cue ih =>
    rw [after, List.foldl_append]
    exact take_keeps ih cue

/-- A form of one field, whose validator takes the number one and no other value. -/
def single : World where
  host := {
    callback := fun _ _ => pure .null
    check := fun _ v _ => pure (.bool (v.strictEq (.int 1)))
    delays := fun _ => [] }
  form := {
    definition := { fields := [(.text "count", { name := .text "count", validator := .check 0 })] }
    registry := {}
    settings := {}
    store := {}
    debounce := .int 1000
    clock := some 0 }

/-- The field is given one and then two. The second validation ends before the first. -/
def crossing : List Cue :=
  [.set (.text "count") (.int 1) true true, .set (.text "count") (.int 2) true true,
    .turn 1 (.ok .nothing), .turn 0 (.ok .nothing)]

/-- **The last validation of a field decides.** Validations of any fields begin and end in any
order, in a store in which none has begun before. At any time the store counts the validations of a
field that have begun and not ended. Where that count is zero and some validation of the field has
begun, the last to begin has ended, and if validators return a result, then what it has found is the
error of the field. -/
theorem last_decides {w : World} (hunderway : ∀ f, w.form.store.underway f = 0)
    (hwaiting : w.form.store.waiting = []) (cues : List Cue) (f : FieldName)
    (hreturned : ∀ e ∈ endedOf f (after w cues).past, ∃ issue, e.2 = .ok issue) :
    (after w cues).store.underway f + (endedOf f (after w cues).past).length =
        (begunOf f (after w cues).past).length ∧
      ∀ t, (begunOf f (after w cues).past).getLast? = some t →
        (after w cues).store.underway f = 0 →
          ∀ found, (t, found) ∈ endedOf f (after w cues).past ↔
            found = .ok ((after w cues).store.error? f) := by
  have hledger := (after_keeps hunderway hwaiting cues).ledger
  refine ⟨hledger.underway_add_ended f, fun t hlast hnone found => ?_⟩
  obtain ⟨-, hname⟩ := mem_begunOf.1 (List.mem_of_getLast? hlast)
  obtain ⟨last, hended⟩ := hledger.ended_of_last hnone hlast
  obtain ⟨issue, rfl⟩ : ∃ issue, last = .ok issue := hreturned _ (mem_endedOf.2 ⟨hended, hname⟩)
  rw [hledger.decided f t issue hlast hended, mem_endedOf, and_iff_left hname]
  constructor
  · exact fun hfound => hledger.ended_once hfound hended
  · rintro rfl
    exact hended

/-- The first validation passes after the second has failed, and the failure stays. -/
theorem last_decides_crossing : (after single crossing).store.error? (.text "count") =
    some ⟨"invalid", .text "Invalid value"⟩ := by
  have hended : endedOf (.text "count") (after single crossing).past =
      [(⟨.text "count", .int 2, 2⟩, .ok (some ⟨"invalid", .text "Invalid value"⟩)),
        (⟨.text "count", .int 1, 1⟩, .ok none)] := by cbv
  have hlast : (begunOf (.text "count") (after single crossing).past).getLast? =
      some ⟨.text "count", .int 2, 2⟩ := by cbv
  have hnone : (after single crossing).store.underway (.text "count") = 0 := by cbv
  have hreturned : ∀ e ∈ endedOf (.text "count") (after single crossing).past,
      ∃ issue, e.2 = .ok issue := by
    rw [hended]
    simp
  obtain ⟨-, hdecides⟩ := last_decides (fun _ => rfl) rfl crossing (.text "count") hreturned
  have hfound := (hdecides _ hlast hnone (.ok (some ⟨"invalid", .text "Invalid value"⟩))).1
    (hended ▸ List.mem_cons_self)
  exact (Except.ok.inj hfound).symm

end Vetting

end LiveForm
