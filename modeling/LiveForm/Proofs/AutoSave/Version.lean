import Mathlib
import LiveForm.Proofs.AutoSave.Course

/-!
# Versions

The version of a form's saving counts what makes runs obsolete: changes, cancellations and starts. A
run carries the count at its own start, so it carries the version of the form exactly as long as
nothing of that kind has happened since. A run looks at the version before it asks for validations
and before it submits, and so does both only while it is the latest (`begins_while_undisturbed`).

* `Course.counted_after`: the version is the number of moves so far, and a run is given that number
  at its start.
* `Course.version_eq_iff_undisturbed`: what it means that a run still has the version of the form.
* `Task.asks_or_submits`: what a run has seen when it asks or submits.
-/

namespace LiveForm

namespace Happening

/-- A change, a cancellation or a start: what makes the runs before it obsolete. -/
def isMove : Happening → Bool
  | ended _ _ => false
  | _ => true

end Happening

namespace Course

/-- How often runs have been made obsolete. -/
def moves (past : List Happening) : Nat :=
  past.countP Happening.isMove

theorem moves_append (p q : List Happening) : moves (p ++ q) = moves p + moves q :=
  List.countP_append ..

theorem moves_cons_of_isMove {e : Happening} (h : e.isMove = true) (p : List Happening) :
    moves (e :: p) = moves p + 1 :=
  List.countP_cons_of_pos h

/-- The version, the starts and the runs fit what has happened. -/
structure Counted (c : Course) : Prop where
  version : c.saving.version = moves c.past
  started : ∀ before a since, c.past = before ++ .started a :: since →
    a.version = moves before + 1
  runs : ∀ r ∈ c.runs, .started ⟨r.version, r.batch⟩ ∈ c.past

theorem counted_start (w : World) : Counted (start w) where
  version := rfl
  started := by
    intro before a since h
    exact absurd h (by simp [start])
  runs := by
    intro r hr
    exact absurd hr (by simp [start])

/-- Versions still fit when one more thing has happened, if the version counts it, a start is given
the next version, and a run that was not there has been started by it. -/
theorem Counted.snoc {c c' : Course} (h : Counted c) {e : Happening} (hp : c'.past = c.past ++ [e])
    (hversion : c'.saving.version = c.saving.version + moves [e])
    (hstart : ∀ a, e = .started a → a.version = c.saving.version + 1)
    (hruns : ∀ r ∈ c'.runs, r ∈ c.runs ∨ e = .started ⟨r.version, r.batch⟩) : Counted c' where
  version := by rw [hversion, h.version, hp, moves_append]
  started := by
    intro before a since hsplit
    rw [hp] at hsplit
    rcases snoc_eq_append_cons hsplit with ⟨rfl, ha, -⟩ | ⟨since', -, hp'⟩
    · rw [hstart a ha.symm, h.version]
    · exact h.started before a since' hp'
  runs := by
    intro r hr
    rw [hp]
    rcases hruns r hr with hold | rfl
    · exact List.mem_append_left _ (h.runs r hold)
    · exact List.mem_append_right _ (List.mem_singleton.2 rfl)

/-- A step keeps versions fitting. -/
theorem Counted.step {c c' : Course} (h : Counted c) (hs : Step c c') : Counted c' := by
  cases hs with
  | noted name affected hb hr hp =>
    exact h.snoc hp hb.version (fun a ha => by cases ha) (fun r hmem => .inl (hr ▸ hmem))
  | cancelled hb hr hp =>
    exact h.snoc hp hb.version (fun a ha => by cases ha) (fun r hmem => .inl (hr ▸ hmem))
  | started a ha hb hr hp =>
    subst ha
    refine h.snoc hp hb.version (fun a ha => by cases ha; rfl) (fun r hmem => ?_)
    rw [hr] at hmem
    refine (List.mem_append.1 hmem).imp_right fun hnew => ?_
    obtain rfl := List.mem_singleton.1 hnew
    rfl
  | went hb hr hp =>
    refine ⟨by rw [hb.version, hp]; exact h.version, by rw [hp]; exact h.started, ?_⟩
    intro r' hr'
    obtain ⟨r, hmem, hv, hbatch⟩ := hr r' hr'
    rw [hp, ← hv, ← hbatch]
    exact h.runs r hmem
  | ended r o hmem hb hr hp =>
    refine h.snoc hp ?_ (fun a ha => by cases ha) (fun q hq => ?_)
    · rw [hb.version, AutoSave.leave_version]
      rfl
    · rw [hr] at hq
      exact .inl (List.mem_filter.1 hq).1

/-- The version of a form is that of a start and the moves since. -/
theorem Counted.version_eq {c : Course} (h : Counted c) {before since : List Happening}
    {a : Assignment} (hp : c.past = before ++ .started a :: since) :
    c.saving.version = a.version + moves since := by
  rw [h.version, hp, moves_append, moves_cons_of_isMove rfl, h.started before a since hp]
  omega

theorem counted_after (w : World) (cues : List Cue) : Counted (after w cues) :=
  after_induction (counted_start w) (fun c cue h => h.step (take_step c cue)) cues

/-! ### The latest run -/

/-- Since the run has started, there has been no change, no cancellation and no further start. -/
def Undisturbed (c : Course) (r : Run) : Prop :=
  ∃ before since, c.past = before ++ .started ⟨r.version, r.batch⟩ :: since ∧
    ∀ e ∈ since, e.isMove = false

/-- **A run has the version of the form exactly while it is undisturbed.** -/
theorem version_eq_iff_undisturbed {c : Course} (h : Counted c) {r : Run} (hr : r ∈ c.runs) :
    c.saving.version = r.version ↔ c.Undisturbed r := by
  constructor
  · intro hv
    obtain ⟨before, since, hp⟩ := List.append_of_mem (h.runs r hr)
    have hversion : c.saving.version = r.version + moves since := h.version_eq hp
    have hnone : moves since = 0 := by omega
    refine ⟨before, since, hp, fun e he => ?_⟩
    simpa using List.countP_eq_zero.1 hnone e he
  · rintro ⟨before, since, hp, hnone⟩
    have hzero : moves since = 0 := List.countP_eq_zero.2 (by simpa using hnone)
    rw [h.version_eq hp, hzero, Nat.add_zero]

end Course

namespace Task

/-- The run asks for validations when it goes on with an answer. -/
def Asks (w : World) (r : Run) (answer : Answer) : Prop :=
  ∃ children next, (stepRun w r answer).1 = .gather children next

/-- The run submits values when it goes on with an answer. -/
def Submits (w : World) (r : Run) (answer : Answer) (values : Entries) : Prop :=
  (stepRun w r answer).2.form.store.submitted = w.form.store.submitted ++ [values]

/-- A run that asks or submits has found the version of the form to be its own, and what it submits
are the values of the form. -/
theorem asks_or_submits (w : World) (r : Run) (answer : Answer) :
    (Asks w r answer → w.form.autoSave.version = r.version) ∧
      ((stepRun w r answer).2.form.store.submitted ≠ w.form.store.submitted →
        w.form.autoSave.version = r.version ∧ Submits w r answer w.form.store.values) := by
  have hversion := w.entered_version r
  have hstore := w.entered_store r
  unfold Asks Submits
  have hturn := stepRun_turn w r answer
  revert hturn
  generalize stepRun w r answer = next
  intro hturn
  cases hturn with
  | leaves o log =>
    refine ⟨?_, fun h => absurd (congrArg Store.submitted hstore) h⟩
    rintro ⟨children, next, h⟩
    cases h
  | settles pause a d hv _ =>
    exact ⟨fun _ => hversion ▸ hv, fun h => absurd (congrArg Store.submitted hstore) h⟩
  | confirms pause a p d hv _ =>
    exact ⟨fun _ => hversion ▸ hv, fun h => absurd (congrArg Store.submitted hstore) h⟩
  | asks hv _ _ _ =>
    exact ⟨fun _ => hversion ▸ hv, fun h => absurd (congrArg Store.submitted hstore) h⟩
  | submits pause a hv _ =>
    refine ⟨fun _ => hversion ▸ hv, fun _ => ⟨hversion ▸ hv, ?_⟩⟩
    show (w.entered r).form.store.submitted ++ [(w.entered r).form.store.values] = _
    rw [hstore]
  | submitsAndLeaves o log hv _ =>
    refine ⟨fun _ => hversion ▸ hv, fun _ => ⟨hversion ▸ hv, ?_⟩⟩
    show (w.entered r).form.store.submitted ++ [(w.entered r).form.store.values] = _
    rw [hstore]

end Task

namespace Course

/-- **A run begins a validation or a submission only while it is the latest.** Whatever the order of
changes, cancellations, starts, turns and answers, a run under way that asks for validations or
submits has the version of the form, which is to say that nothing has made it obsolete since its
start; and it submits the values that the form has at that time. -/
theorem begins_while_undisturbed (w : World) (cues : List Cue) (r : Run)
    (hr : r ∈ (after w cues).runs) (answer : Answer) :
    ((after w cues).saving.version = r.version ↔ (after w cues).Undisturbed r) ∧
      (Task.Asks (after w cues).world r answer → (after w cues).saving.version = r.version) ∧
      ((Task.stepRun (after w cues).world r answer).2.form.store.submitted ≠
          (after w cues).world.form.store.submitted →
        (after w cues).saving.version = r.version ∧
          Task.Submits (after w cues).world r answer (after w cues).world.form.store.values) :=
  ⟨version_eq_iff_undisturbed (counted_after w cues) hr,
    Task.asks_or_submits (after w cues).world r answer⟩

/-- A run that saves a change of `a` asks for the validation of `b` in its first turn. -/
theorem begins_while_undisturbed_dependent :
    let c := after World.bare [.mark (.text "a"), .flush]
    let r : Run := { version := 2, batch := ⟨[.text "a"], [.text "b"]⟩ }
    r ∈ c.runs ∧ Task.Asks c.world r (.ok .nothing) ∧ c.saving.version = r.version := by
  intro c r
  have hruns : c.runs = [r] := by cbv
  have hr : r ∈ c.runs := by
    rw [hruns]
    exact List.mem_singleton.2 rfl
  have hturn : (Task.stepRun c.world r (.ok .nothing)).1 =
      .gather [.validateField (.text "b")] (.run { r with phase := .validating }) := by cbv
  have hasks : Task.Asks c.world r (.ok .nothing) := ⟨_, _, hturn⟩
  exact ⟨hr, hasks, (begins_while_undisturbed World.bare _ r hr (.ok .nothing)).2.1 hasks⟩

end Course

end LiveForm
