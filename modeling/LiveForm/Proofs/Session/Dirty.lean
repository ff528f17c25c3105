import Mathlib
import LiveForm.Proofs.Form.Dirty
import LiveForm.Proofs.Session.OnDemand

/-!
# Dirty fields of a session

Whatever happens in a session, from the making of its form on, the values of the form are only
written: by its user, by conditions, or directly. The turns of tasks leave them alone. So at any
time a field is dirty just if its value differs from its default (`dirty_iff_differs`).
-/

namespace LiveForm

/-! ### Turns -/

namespace Task

theorem CheckTurn.same {w : World} {t : Ticket} {x : Next × World} (h : CheckTurn w t x) :
    w.form.store.Same x.2.form.store := by
  obtain ⟨-, -, ⟨hform, -⟩ | ⟨found, hform, -⟩⟩ := h.effect
  · rw [hform]
    exact .refl _
  · rw [hform]
    exact w.form.store.finish_same t found

theorem RunTurn.same {w : World} {r : Run} {x : Next × World} (h : RunTurn w r x) :
    w.form.store.Same x.2.form.store := by
  obtain ⟨-, saving, -, -, hform | ⟨-, -, hform⟩⟩ := h.form
  · rw [hform]
    exact .refl _
  · rw [hform]
    exact ⟨rfl, rfl, rfl⟩

theorem submitIf_same (w : World) (passed : Bool) :
    w.form.store.Same (submitIf w passed).2.form.store := by
  unfold submitIf
  split
  · exact ⟨rfl, rfl, rfl⟩
  · dsimp only
    split <;> exact ⟨rfl, rfl, rfl⟩

theorem TaskTurn.same {w : World} {task : Task} {x : Next × World} (h : TaskTurn w task x) :
    w.form.store.Same x.2.form.store := by
  cases h with
  | checks _ _ _ _ hcheck => exact hcheck.same
  | begins name _ hcheck =>
    exact (w.form.store.begin_same name (w.form.store.value name)).trans hcheck.same
  | runs r _ hrun =>
    have hsame := hrun.same
    rw [w.entered_store] at hsame
    exact hsame
  | starts _ _ _ _ _ => exact .refl _
  | rests _ _ _ _ _ _ => exact .refl _

/-- No turn of any task changes values. -/
theorem step_same (w : World) (busy : Kept → Bool) (task : Task) (answer : Answer) :
    w.form.store.Same (task.step w busy answer).2.form.store := by
  cases task with
  | validate names =>
    unfold step
    dsimp only
    split <;> exact .refl _
  | submit =>
    unfold step
    dsimp only
    split
    · exact submitIf_same w true
    · exact .refl _
  | submitPassed =>
    unfold step
    dsimp only
    split
    · exact .refl _
    · exact submitIf_same w _
  | _ => exact TaskTurn.same (step_turn w busy (by trivial) answer)

end Task

namespace Session

/-! ### Bookkeeping -/

theorem foldl_world {α : Type} {f : Session → α → Session} (h : ∀ s a, (f s a).world = s.world)
    (as : List α) (s : Session) : (as.foldl f s).world = s.world := by
  induction as generalizing s with
  | nil => rfl
  | cons a as ih => exact (ih (f s a)).trans (h s a)

theorem pause_world (s : Session) (id duration : Nat) (answer : Answer) :
    (s.pause id duration answer).world = s.world := by
  unfold pause
  split <;> rfl

theorem listen_world (s : Session) (owner id : Nat) : (s.listen owner id).world = s.world := by
  unfold listen
  split
  · rfl
  · exact update_world _ _ _

theorem spawnKept_world (s : Session) (kept : Kept) (task : Task) (listeners : List Listener) :
    (s.spawnKept kept task listeners).world = s.world := by
  cases kept <;> rfl

theorem perform_world (s : Session) (id : Nat) (next : Next) :
    (s.perform id next).world = s.world := by
  cases next with
  | pause duration answer task => exact (pause_world _ _ _ _).trans (update_world _ _ _)
  | gather children task =>
    exact (foldl_world (f := fun s child => (s.spawn child [.gatherer id]).2) (fun _ _ => rfl)
      children _).trans (update_world _ _ _)
  | settle kept task =>
    exact (foldl_world (fun s child => listen_world s id child) _ _).trans (update_world _ _ _)
  | follow assignment task => exact (spawnKept_world _ _ _ _).trans (update_world _ _ _)
  | finish answer => rfl

theorem takeUp_same (s : Session) : s.store.Same s.takeUp.store := by
  have hworld : s.takeUp.world = s.world.withStore fun store => { store with waiting := [] } :=
    foldl_world (fun s t => spawnKept_world s .validations (.started t) []) _ _
  rw [store, store, hworld]
  exact ⟨rfl, rfl, rfl⟩

theorem resume_same (s : Session) (id : Nat) (answer : Answer) :
    s.store.Same (s.resume id answer).store := by
  unfold resume
  split
  · exact .refl _
  · next l _ =>
    rw [store, store, perform_world]
    exact Task.step_same _ _ _ _

theorem startRun_same (s : Session) : s.store.Same s.startRun.store := by
  rcases s.startRun_cases with heq | heq | ⟨a, saving, -, heq⟩
  · rw [heq]
    exact .refl _
  · rw [heq]
    exact ⟨rfl, rfl, rfl⟩
  · rw [heq, store, store, spawnKept_world]
    exact ⟨rfl, rfl, rfl⟩

theorem take_same (s : Session) (t : Turn) : s.store.Same (s.take t).store := by
  cases t with
  | resume id answer => exact s.resume_same id answer
  | wake id answer => exact .refl _
  | forget kept id => cases kept <;> exact .refl _
  | report owner answer =>
    obtain ⟨more, hs, -⟩ := report_shuffled s owner answer
    show s.world.form.store.Same (s.report owner answer).world.form.store
    rw [hs.world]
    exact .refl _
  | save => exact s.startRun_same

/-! ### Whole sessions -/

/-- What is done to the form at once is done to its store, and the validations that it begins leave
the values alone. -/
theorem act_written {α : Type} (s : Session) {op : FormOp α}
    (hop : FormOp.Keeps Form.Overwrites op) : s.store.Written (s.act op).2.store := by
  have hform : s.store.Written (s.world.runForm op).2.form.store := hop s.world.form s.world.log
  exact hform.then_same (takeUp_same { s with world := (s.world.runForm op).2 })

/-- No event does more to values than to write some. -/
theorem happen_written (s : Session) (e : Event) : s.store.Written (s.happen e).store := by
  cases e with
  | change name v => exact s.act_written (Form.changeField_overwrites s.world.host name v)
  | cancel => exact .same ⟨rfl, rfl, rfl⟩
  | launch task => exact .same ⟨rfl, rfl, rfl⟩
  | ask task => exact .same ((s.add task []).2.resume_same _ _)
  | turn =>
    unfold happen
    cases s.queue with
    | nil => exact .refl _
    | cons t rest => exact .same (take_same { s with queue := rest } t)
  | expire => exact .same ⟨rfl, rfl, rfl⟩
  | pass t => exact .same ⟨rfl, rfl, rfl⟩

/-- What a session comes to when events happen in it and its user also writes values directly. -/
inductive Reaches (s : Session) : Session → Prop
  | refl : Reaches s s
  | happen {t : Session} (e : Event) : Reaches s t → Reaches s (t.happen e)
  | set {t : Session} (name : FieldName) (v : Value) (touch validate : Bool) : Reaches s t →
      Reaches s (t.act (Form.setValue name v touch validate)).2

theorem Reaches.written {s t : Session} (h : s.Reaches t) : s.store.Written t.store := by
  induction h with
  | refl => exact .refl _
  | happen e _ ih => exact ih.trans (happen_written _ e)
  | set name v touch validate _ ih =>
    exact ih.trans (act_written _ (Form.setValue_overwrites name v touch validate))

/-- A new session has written values to a new store of its definition. -/
theorem start_written {host : Host} {d : Definition} {registry : Registry} {settings : Settings}
    {record defaults : Value} {clock : Option Instant} {s : Session}
    (h : start host d registry settings record defaults clock = .ok s) :
    ∃ store, Store.ofDefinition d record defaults = .ok store ∧ store.Written s.store := by
  obtain ⟨form, hblank, rfl⟩ := start_setUp h
  obtain ⟨store, debounce, hstore, rfl⟩ := Form.blank_eq hblank
  have hset := Form.setUp_overwrites host
    { definition := d, registry, settings, store, debounce, clock } []
  exact ⟨store, hstore, hset⟩

/-- **A field is dirty just if its value differs from its default.** This holds of a new store with
regular defaults however values are written to it, and of the store of a session whatever has
happened, for every name, also one of no field. -/
theorem dirty_iff_differs {d : Definition} {record defaults : Value} {store : Store}
    (hstore : Store.ofDefinition d record defaults = .ok store)
    (hregular : ∀ e ∈ store.defaults, e.2.Regular) :
    (∀ s, store.Written s → ∀ a, .text a ∈ s.dirty ↔
        (s.value (.text a)).strictEq (s.default (.text a)) = false) ∧
      ∀ (host : Host) (registry : Registry) (settings : Settings) (clock : Option Instant)
        (s₀ s : Session), start host d registry settings record defaults clock = .ok s₀ →
          s₀.Reaches s → ∀ a, .text a ∈ s.store.dirty ↔
            (s.store.value (.text a)).strictEq (s.store.default (.text a)) = false := by
  have hwritten : ∀ s, store.Written s → ∀ a, s.DirtyExact (.text a) :=
    fun s hs a => hs.dirtyExact (Store.ofDefinition_dirtyExact hstore hregular (.text a))
  refine ⟨hwritten, fun host registry settings clock s₀ s hstart hreach a => ?_⟩
  obtain ⟨store', hstore', hnew⟩ := start_written hstart
  obtain rfl := Except.ok.inj (hstore'.symm.trans hstore)
  exact hwritten s.store (hnew.trans hreach.written) a

/-- Once more is ordered the amount is dirty, and once that has been taken back it is not. -/
theorem dirty_iff_differs_purchase :
    .text "amount" ∈ (Purchase.store.write (.text "amount") (.int 20) true).dirty ∧
      .text "amount" ∉ ((Purchase.store.write (.text "amount") (.int 20) true).write
        (.text "amount") (.int 1) true).dirty ∧
      ∀ s, Purchase.session.Reaches s → ∀ a, .text a ∈ s.store.dirty ↔
        (s.store.value (.text a)).strictEq (s.store.default (.text a)) = false := by
  have hregular : ∀ e ∈ Purchase.store.defaults, e.2.Regular :=
    List.forall_mem_singleton.2 (.number trivial)
  obtain ⟨hstore, hsession⟩ := dirty_iff_differs Purchase.store_eq hregular
  have hmore : Purchase.store.Written (Purchase.store.write (.text "amount") (.int 20) true) :=
    .write _ _ _ (.refl _) (.refl _)
  refine ⟨(hstore _ hmore "amount").2 rfl, ?_, fun s hs => ?_⟩
  · rw [hstore _ (.write _ _ _ hmore (.refl _)) "amount", Bool.not_eq_false]
    rfl
  · exact hsession _ _ _ _ _ s Purchase.start_eq hs

end Session

end LiveForm
