import Mathlib
import LiveForm.Proofs.Session.Sound

/-!
# Rounds

A session lets its tasks take turns in rounds. A round comes to events: what is due comes to the end
of the queue, and then everybody who stands there has a turn, one after the other. This holds as a
turn puts others only at the end of the queue (`Session.take_behind`). So whatever holds after all
usual events holds after everything that a user does and waits for (`Session.Comes.run`).
-/

namespace LiveForm

namespace Session

/-- The session, with turns that stand before all others. -/
def behind (q : List Turn) (s : Session) : Session :=
  { s with queue := q ++ s.queue }

/-! ### Turns look at the queue only to put others at its end -/

section

variable (q : List Turn) (s : Session)

theorem enqueue_behind (t : Turn) : (behind q s).enqueue t = behind q (s.enqueue t) := by
  unfold enqueue behind
  rw [List.append_assoc]

theorem withKept_behind (kept : Kept) (f : List Nat → List Nat) :
    (behind q s).withKept kept f = behind q (s.withKept kept f) := by
  cases kept <;> rfl

theorem update_behind (id : Nat) (f : Live → Live) :
    (behind q s).update id f = behind q (s.update id f) := by
  have hlive : (behind q s).live = s.live := rfl
  unfold update
  rw [hlive]
  cases Table.get? id s.live <;> rfl

theorem spawn_behind (task : Task) (listeners : List Listener) :
    ((behind q s).spawn task listeners).2 = behind q (s.spawn task listeners).2 :=
  enqueue_behind q (s.add task listeners).2 _

theorem spawnKept_behind (kept : Kept) (task : Task) (listeners : List Listener) :
    (behind q s).spawnKept kept task listeners = behind q (s.spawnKept kept task listeners) := by
  have hspawn := spawn_behind q s task (.keeper kept :: listeners)
  unfold spawnKept
  show withKept ((behind q s).spawn task (.keeper kept :: listeners)).2 kept _ = _
  rw [hspawn]
  exact withKept_behind q _ kept _

theorem pause_behind (id duration : Nat) (a : Answer) :
    (behind q s).pause id duration a = behind q (s.pause id duration a) := by
  unfold pause
  by_cases hzero : duration == 0
  · rw [if_pos hzero, if_pos hzero]
    exact enqueue_behind q s _
  · rw [if_neg hzero, if_neg hzero]
    rfl

theorem listen_behind (owner id : Nat) :
    (behind q s).listen owner id = behind q (s.listen owner id) := by
  have hended : (behind q s).ended = s.ended := rfl
  unfold listen
  rw [hended]
  cases Table.get? id s.ended with
  | some a => exact enqueue_behind q s _
  | none => exact update_behind q s id _

theorem listen_all_behind (owner : Nat) (ids : List Nat) :
    ids.foldl (fun s id => s.listen owner id) (behind q s) =
      behind q (ids.foldl (fun s id => s.listen owner id) s) := by
  induction ids generalizing s with
  | nil => rfl
  | cons id rest ih =>
    rw [List.foldl_cons, List.foldl_cons, listen_behind]
    exact ih _

theorem spawn_all_behind (owner : Nat) (children : List Task) :
    children.foldl (fun s child => (s.spawn child [.gatherer owner]).2) (behind q s) =
      behind q (children.foldl (fun s child => (s.spawn child [.gatherer owner]).2) s) := by
  induction children generalizing s with
  | nil => rfl
  | cons child rest ih =>
    rw [List.foldl_cons, List.foldl_cons, spawn_behind]
    exact ih _

theorem finish_behind (id : Nat) (a : Answer) :
    (behind q s).finish id a = behind q (s.finish id a) := by
  have hqueue := List.append_assoc q s.queue
    ((((Table.get? id s.live).map Live.listeners).getD []).map (Listener.turn id a))
  exact congrArg (fun queue =>
    { s with live := Table.drop id s.live, ended := Table.put id a s.ended, queue }) hqueue

theorem perform_behind (id : Nat) (next : Next) :
    (behind q s).perform id next = behind q (s.perform id next) := by
  cases next with
  | pause duration a task =>
    show ((behind q s).become id task).pause id duration a = _
    unfold become
    rw [update_behind]
    exact pause_behind q _ id duration a
  | gather children task =>
    unfold perform
    simp only []
    rw [update_behind]
    exact spawn_all_behind q _ id children
  | settle kept task =>
    have hkept : (behind q s).kept kept = s.kept kept := by cases kept <;> rfl
    unfold perform
    simp only []
    rw [hkept, update_behind]
    exact listen_all_behind q _ id _
  | follow assignment task =>
    show ((behind q s).become id task).spawnKept .runs _ _ = _
    unfold become
    rw [update_behind]
    exact spawnKept_behind q _ .runs _ _
  | finish a => exact finish_behind q s id a

theorem resume_behind (id : Nat) (a : Answer) :
    (behind q s).resume id a = behind q (s.resume id a) := by
  cases hl : Table.get? id s.live with
  | none =>
    have hbehind : Table.get? id (behind q s).live = none := hl
    unfold resume
    rw [hl, hbehind]
  | some l =>
    have hbehind : Table.get? id (behind q s).live = some l := hl
    have hbusy : (fun k => !((behind q s).kept k).isEmpty) = fun k => !(s.kept k).isEmpty := by
      funext k
      cases k <;> rfl
    rw [resume_of_live hl, resume_of_live hbehind, hbusy]
    exact perform_behind q { s with
      world := (l.task.step s.world (fun k => !(s.kept k).isEmpty) a).2 } id _

theorem report_behind (owner : Nat) (a : Answer) :
    (behind q s).report owner a = behind q (s.report owner a) := by
  have hlive : (behind q s).live = s.live := rfl
  unfold report
  rw [hlive]
  cases (Table.get? owner s.live).bind Live.gathering with
  | none => rfl
  | some g =>
    simp only []
    split
    · rw [update_behind]
      exact enqueue_behind q _ _
    · split
      · rw [update_behind]
        exact enqueue_behind q _ _
      · exact update_behind q s owner _

theorem startRun_behind : (behind q s).startRun = behind q s.startRun := by
  have hdue : (behind q s).saveDue = s.saveDue := rfl
  have hworld : (behind q s).world = s.world := rfl
  unfold startRun
  rw [hdue, hworld]
  split
  · rfl
  · simp only []
    split
    · rfl
    · rename_i a saving _
      exact spawnKept_behind q { s with
        world := (s.world.withAutoSave AutoSave.disarm).withAutoSave fun _ => saving } .runs _ []

/-- **A turn puts others only at the end of the queue.** -/
theorem take_behind (t : Turn) : (behind q s).take t = behind q (s.take t) := by
  cases t with
  | resume id a => exact resume_behind q s id a
  | wake id a => exact enqueue_behind q s _
  | forget kept id => exact withKept_behind q s kept _
  | report owner a => exact report_behind q s owner a
  | save => exact startRun_behind q s

end

/-! ### Rounds are turns -/

/-- As many turns as stand before all others. -/
theorem after_turns (q : List Turn) (s : Session) :
    (behind q s).after (List.replicate q.length .turn) = q.foldl take s := by
  induction q generalizing s with
  | nil => rfl
  | cons t rest ih =>
    show ((behind (t :: rest) s).happen .turn).after (List.replicate rest.length .turn) = _
    have hturn : (behind (t :: rest) s).happen .turn = (behind rest s).take t := rfl
    rw [hturn, take_behind, List.foldl_cons]
    exact ih (s.take t)

/-- A round is what is due, and then a turn for everybody who stands in the queue. -/
theorem round_eq (s : Session) :
    s.round = s.after (.expire :: List.replicate s.expire.queue.length .turn) := by
  have hbehind : behind s.expire.queue { s.expire with queue := [] } = s.expire := by
    unfold behind
    rw [List.append_nil]
  have hturns := after_turns s.expire.queue { s.expire with queue := [] }
  rw [hbehind] at hturns
  exact hturns.symm

/-! ### What a user does comes to events -/

/-- A session comes of another by usual events. -/
def Comes (s s' : Session) : Prop :=
  ∃ events, (∀ e ∈ events, Event.IsUsual e) ∧ s' = s.after events

namespace Comes

variable {s s' s'' : Session}

theorem refl (s : Session) : Comes s s :=
  ⟨[], fun e he => absurd he (by simp), rfl⟩

theorem trans (h : Comes s s') (g : Comes s' s'') : Comes s s'' := by
  obtain ⟨events, husual, rfl⟩ := h
  obtain ⟨more, hmore, rfl⟩ := g
  refine ⟨events ++ more, fun e he => ?_, ?_⟩
  · rcases List.mem_append.1 he with hold | hnew
    · exact husual e hold
    · exact hmore e hnew
  · unfold after
    rw [List.foldl_append]

theorem event (s : Session) {e : Event} (he : e.IsUsual) : Comes s (s.happen e) :=
  ⟨[e], fun _ he' => List.mem_singleton.1 he' ▸ he, rfl⟩

theorem round (s : Session) : Comes s s.round := by
  refine ⟨_, fun e he => ?_, s.round_eq⟩
  rcases List.mem_cons.1 he with rfl | hturn
  · trivial
  · obtain rfl := List.eq_of_mem_replicate hturn
    trivial

theorem proceed (s : Session) : Comes s s.proceed := by
  unfold Session.proceed
  split
  · exact round s
  · split
    · exact refl s
    · rename_i t _
      exact (event s (e := .pass t) trivial).trans (round _)

theorem runUntil (stop : Session → Bool) (rounds : Nat) (s : Session) :
    Comes s (s.runUntil stop rounds) := by
  induction rounds generalizing s with
  | zero => exact refl s
  | succ rounds ih =>
    unfold Session.runUntil
    split
    · exact refl s
    · exact (proceed s).trans (ih s.proceed)

theorem await (s : Session) (ids : List Nat) : Comes s (s.await ids).2 :=
  (runUntil (haveEnded ids) enoughRounds s).trans (runUntil isQuiet enoughRounds _)

/-- **What a user asks for and waits for comes to events.** -/
theorem run (s : Session) {task : Task} (h : task.IsPlain) : Comes s (s.run task).2 :=
  (event s (e := .ask task) h).trans (await _ _)

end Comes

end Session

end LiveForm
