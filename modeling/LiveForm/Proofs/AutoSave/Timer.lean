import Mathlib
import LiveForm.Proofs.AutoSave.Repeats

/-!
# The time of the next run

A change sets the time of the next run. A start takes that time away, together with everything that
waits, and gives it all to a run. Later the fields of a run wait again only if the run is aborted;
but the latest run is not, and the fields of any other have been taken over by a newer run, or a
change has come after it and has set the time anew. So as long as nothing is called off, changed
fields wait exactly while a time is set (`timer_iff_waits`).

* `AutoSave.Timed`: the invariant. While no time is set, only the latest run holds fields.
* `Task.stepRun_saving`: what a turn of a run does to the saving. Only an obsolete run is aborted.
-/

namespace LiveForm

namespace Run

variable {r : Run} {s : Sight}

/-! ### Who is aborted -/

theorem settle_ne_aborted (h : r.superseded s = false) {move : Move}
    (hmove : ∀ log, move ≠ .finish .aborted log) (names : FieldNames) (deadline : Instant)
    (phase : Phase) (log : Log) :
    r.settle s names deadline phase move ≠ .finish .aborted log := by
  unfold settle
  cases names.any s.validating with
  | true => by_cases hd : deadline ≤ s.now <;> simp [h, hd]
  | false => simpa [h] using hmove log

theorem conclude_ne_aborted (h : r.superseded s = false) (log : Log) :
    r.conclude s ≠ .finish .aborted log := by
  simp [conclude, h]

theorem examine_ne_aborted (h : r.superseded s = false) (log : Log) :
    r.examine s ≠ .finish .aborted log := by
  simp only [examine]
  split
  · simp
  · split
    · exact conclude_ne_aborted h log
    · simp

theorem confirm_ne_aborted (h : r.superseded s = false) (passed : Bool) (log : Log) :
    r.confirm s passed ≠ .finish .aborted log := by
  unfold confirm
  split
  · simp
  · exact conclude_ne_aborted h log

/-- **Only an obsolete run is aborted.** -/
theorem superseded_of_aborted {answer : Except Fault Bool} {log : Log}
    (h : r.resume s answer = .finish .aborted log) : r.superseded s = true := by
  by_contra hs
  have hs : r.superseded s = false := by simpa using hs
  rcases phase_cases r with he | hl | hsub
  · obtain ⟨d, hr⟩ := resume_early he s answer
    exact settle_ne_aborted hs (examine_ne_aborted hs) _ _ _ log (hr ▸ h)
  · rcases hl with hv | ⟨p, d, hc⟩
    · cases answer with
      | error f => simp [resume, hv, fail] at h
      | ok p =>
        simp only [resume, hv, hs, Bool.false_eq_true, if_false] at h
        exact settle_ne_aborted hs (confirm_ne_aborted hs p) _ _ _ log h
    · simp only [resume, hc] at h
      exact settle_ne_aborted hs (confirm_ne_aborted hs p) _ _ _ log h
  · cases answer with
    | error f => simp [resume, hsub, submitted, fail] at h
    | ok p => simp [resume, hsub, submitted] at h

end Run

namespace Task

/-- What a move does to the saving, if the run is obsolete when it is aborted: nothing, or the run
leaves. -/
theorem grant_saving (w : World) (r : Run) {move : Move}
    (hmove : ∀ log, move = .finish .aborted log → w.form.autoSave.version ≠ r.version) :
    (grant w r move).2.form.autoSave = w.form.autoSave ∨
      ∃ o, (o = .aborted → w.form.autoSave.version ≠ r.version) ∧
        (grant w r move).2.form.autoSave = w.form.autoSave.leave r.version o := by
  cases move with
  | pause r' => exact Or.inl rfl
  | validate names r' => exact Or.inl rfl
  | finish o log =>
    refine Or.inr ⟨o, ?_, rfl⟩
    rintro rfl
    exact hmove log rfl
  | submit r' =>
    rcases grant_submit w r r' with ⟨p, a, h⟩ | ⟨o, log, ho, h⟩
    · rw [h]
      exact Or.inl rfl
    · rw [h]
      exact Or.inr ⟨o, fun ha => absurd ha ho, rfl⟩

/-- **What a turn of a run does to the saving.** At its end the run leaves, and if it is aborted the
version of the form has moved on. -/
theorem stepRun_saving (w : World) (r : Run) (answer : Answer) :
    (stepRun w r answer).2.form.autoSave = (w.entered r).form.autoSave ∨
      ∃ o, (o = .aborted → (w.entered r).form.autoSave.version ≠ r.version) ∧
        (stepRun w r answer).2.form.autoSave =
          (w.entered r).form.autoSave.leave r.version o := by
  have hstep : stepRun w r answer = grant (w.entered r) r
      (r.resume (sight (w.entered r)) (answer.map Reply.holds)) := rfl
  rw [hstep]
  refine grant_saving (w.entered r) r ?_
  intro log h
  simpa [Run.superseded, sight] using Run.superseded_of_aborted h

end Task

namespace Batch

/-- Whatever fields a batch is united with, it keeps its own. -/
theorem within_foldl_union (b : Batch) (held : Table Nat Batch) :
    b.Within (held.foldl (fun acc e => acc.union e.2) b) := by
  induction held generalizing b with
  | nil => exact ⟨fun _ hf => hf, fun _ hf => hf⟩
  | cons e rest ih =>
    obtain ⟨hchanged, haffected⟩ := ih (b.union e.2)
    exact ⟨fun f hf => hchanged f (Names.mem_union.2 (Or.inl hf)),
      fun f hf => haffected f (Names.mem_union.2 (Or.inl hf))⟩

end Batch

namespace AutoSave

variable {a : AutoSave}

/-- Where nothing is collected, nothing waits. -/
theorem pending_of_collected (h : a.collected.isEmpty = true) :
    a.pending.changed = [] ∧ a.pending.affected = [] := by
  obtain ⟨hchanged, haffected⟩ := a.pending.within_foldl_union a.held
  simp only [Batch.isEmpty, Bool.and_eq_true, List.isEmpty_iff] at h
  obtain ⟨hc, ha⟩ := h
  refine ⟨List.eq_nil_iff_forall_not_mem.2 fun f hf => ?_,
    List.eq_nil_iff_forall_not_mem.2 fun f hf => ?_⟩
  · exact absurd (hc ▸ hchanged f hf) List.not_mem_nil
  · exact absurd (ha ▸ haffected f hf) List.not_mem_nil

/-- What noting a change leaves waiting is not empty. -/
theorem note_changed_ne_nil (a : AutoSave) (name : FieldName) (affected : FieldNames) :
    (a.note name affected).pending.changed ≠ [] :=
  List.ne_nil_of_mem (a.note_has name affected).changed

/-- The end of a run leaves waiting what waits. -/
theorem leave_changed_ne_nil (h : a.pending.changed ≠ []) (v : Nat) (o : Outcome) :
    (a.leave v o).pending.changed ≠ [] := by
  obtain ⟨f, hf⟩ := List.exists_mem_of_ne_nil _ h
  have hhas : a.pending.Has f [] := ⟨hf, by simp⟩
  exact List.ne_nil_of_mem (leave_of_pending hhas v o).changed

@[simp] theorem leave_timer (a : AutoSave) (v : Nat) (o : Outcome) :
    (a.leave v o).timer = a.timer := by
  unfold leave
  split
  · split <;> rfl
  · rfl

/-- **A time is set exactly while changed fields wait**, and other fields wait only then. While no
time is set, only the latest run holds fields. -/
structure Timed (a : AutoSave) : Prop where
  waits : a.timer.isSome = true ↔ a.pending.changed ≠ []
  affected : a.timer = none → a.pending.affected = []
  held : a.timer = none → ∀ e ∈ a.held, e.1 = a.version

namespace Timed

theorem blank : Timed {} where
  waits := by simp
  affected := fun _ => rfl
  held := fun _ e he => absurd he List.not_mem_nil

/-- With a time that is set, it is enough that changed fields wait. -/
theorem of_timer {due : Instant} (htimer : a.timer = some due) (h : a.pending.changed ≠ []) :
    Timed a where
  waits := by simp [htimer, h]
  affected := fun hn => absurd (htimer.symm.trans hn) (by simp)
  held := fun hn => absurd (htimer.symm.trans hn) (by simp)

/-- A change sets the time. -/
theorem noted (a : AutoSave) (name : FieldName) (affected : FieldNames) (due : Instant) :
    Timed ((a.note name affected).arm due) :=
  of_timer rfl (a.note_changed_ne_nil name affected)

/-- A start that finds nothing to save finds no time set. -/
theorem disarm (h : Timed a) (hcollected : a.collected.isEmpty = true) : Timed a.disarm := by
  obtain ⟨hchanged, haffected⟩ := pending_of_collected hcollected
  have htimer : a.timer = none := by
    by_contra hs
    exact h.waits.1 (Option.isSome_iff_ne_none.2 hs) hchanged
  refine ⟨?_, fun _ => haffected, fun _ => h.held htimer⟩
  simp [AutoSave.disarm, hchanged]

/-- A run that starts takes over all that waits. -/
theorem started (a : AutoSave) :
    Timed { a.disarm with
      version := a.version + 1, pending := {}, held := [(a.version + 1, a.collected)] } where
  waits := by simp [AutoSave.disarm]
  affected := fun _ => rfl
  held := by
    intro _ e he
    rw [List.mem_singleton.1 he]

/-- The end of a run keeps the time right, unless the latest run is aborted. -/
theorem leave (h : Timed a) {v : Nat} {o : Outcome} (ho : o = .aborted → a.version ≠ v) :
    Timed (a.leave v o) := by
  cases htimer : a.timer with
  | some due =>
    have hchanged : a.pending.changed ≠ [] := h.waits.1 (by simp [htimer])
    exact of_timer (by rw [leave_timer, htimer]) (leave_changed_ne_nil hchanged v o)
  | none =>
    -- no other run holds fields that could wait again
    have hpending : (a.leave v o).pending = a.pending := by
      by_cases haborted : o = .aborted
      · exact leave_pending_of_ne (h.held htimer) (ho haborted).symm o
      · exact leave_pending haborted v
    refine ⟨?_, ?_, ?_⟩
    · rw [leave_timer, hpending]
      exact h.waits
    · intro _
      rw [hpending]
      exact h.affected htimer
    · intro _ e he
      rw [leave_held] at he
      rw [leave_version]
      exact h.held htimer e (List.mem_filter.1 he).1

/-- How many runs are under way is no matter. -/
theorem counted (h : Timed a) (n : Nat) : Timed { a with executing := n } :=
  ⟨h.waits, h.affected, h.held⟩

end Timed

end AutoSave

namespace Course

variable {c : Course}

/-- The cue calls nothing off, and if it is a change, time passes for the form. -/
def InTime (c : Course) : Cue → Prop
  | .cancel => False
  | .mark _ | .change _ _ => c.world.form.clock.isSome = true
  | _ => True

/-- Nothing is called off by any of the cues, and time passes at each change. -/
def AllInTime (c : Course) : List Cue → Prop
  | [] => True
  | cue :: rest => c.InTime cue ∧ (c.take cue).AllInTime rest

/-! ### What keeps the time right -/

theorem markChanged_armed {f : Form} (h : f.clock.isSome = true) (log : Log) (name : FieldName) :
    ∃ due, ((Form.markChanged name).runOn f log).2.1.autoSave =
      (f.autoSave.note name (f.graph.affectedBy name)).arm due := by
  obtain ⟨now, hnow⟩ := Option.isSome_iff_exists.1 h
  rw [Form.runOn_markChanged, hnow]
  exact ⟨_, rfl⟩

theorem saveChange_armed {f : Form} (h : f.clock.isSome = true) (log : Log) (name : FieldName)
    (v : Value) : ∃ due, ((Form.saveChange name v).runOn f log).2.1.autoSave =
      (f.autoSave.note name (f.graph.affectedBy name)).arm due := by
  rw [Form.saveChange, FormOp.runOn_bind, Form.runOn_setValue]
  generalize (if (true && f.clock.isSome) = true then (f.store.write name v true).beginLater name v
    else f.store.write name v true) = store
  exact markChanged_armed (f := { f with store }) h log name

theorem timed_launch (h : c.saving.Timed) : c.launch.saving.Timed := by
  unfold launch Task.saveAtOnce
  by_cases hempty : c.saving.collected.isEmpty = true
  · have hstart : (c.world.withAutoSave AutoSave.disarm).form.autoSave.start? = none :=
      if_pos hempty
    simp only [hstart]
    exact h.disarm hempty
  · have hstart : (c.world.withAutoSave AutoSave.disarm).form.autoSave.start? = some _ :=
      if_neg hempty
    simp only [hstart]
    exact .started c.saving

theorem timed_entered (h : c.saving.Timed) (r : Run) :
    (c.world.entered r).form.autoSave.Timed := by
  obtain ⟨n, hn⟩ := c.world.entered_eq r
  rw [hn]
  exact h.counted n

/-- A turn leaves the saving as the task has left it. -/
theorem settle_saving (c : Course) (r : Run) (next : Next × World) :
    (c.settle r next).saving = next.2.form.autoSave := by
  unfold settle
  split <;> rfl

/-- **What one cue keeps.** -/
theorem timed_take (h : c.saving.Timed) (cue : Cue) (hcue : c.InTime cue) :
    (c.take cue).saving.Timed := by
  cases cue with
  | mark name =>
    obtain ⟨due, hdue⟩ := markChanged_armed hcue c.world.log name
    have hsaving : (c.take (.mark name)).saving = _ := hdue
    rw [hsaving]
    exact .noted _ _ _ due
  | change name v =>
    obtain ⟨due, hdue⟩ := saveChange_armed hcue c.world.log name v
    have hsaving : (c.take (.change name v)).saving = _ := hdue
    rw [hsaving]
    exact .noted _ _ _ due
  | cancel => exact absurd hcue id
  | flush => exact timed_launch h
  | fire => exact timed_launch h
  | host w => exact h
  | resume version answer =>
    simp only [take]
    cases c.run? version with
    | none => exact h
    | some r =>
      rw [settle_saving]
      rcases Task.stepRun_saving c.world r answer with hr | ⟨o, ho, hr⟩
      · rw [hr]
        exact timed_entered h r
      · rw [hr]
        exact (timed_entered h r).leave ho
  | crash version =>
    simp only [take]
    cases c.run? version with
    | none => exact h
    | some r =>
      have hfailed : Outcome.failed ≠ .aborted := by decide
      rw [settle_saving]
      exact (timed_entered h r).leave fun ho => absurd ho hfailed

/-- **What cues keep, one after the other.** -/
theorem timed_after {w : World} {cues : List Cue} (hcues : (start w).AllInTime cues) :
    (after w cues).saving.Timed := by
  have hall : ∀ (cues : List Cue) (c : Course), c.saving.Timed → c.AllInTime cues →
      (cues.foldl take c).saving.Timed := by
    intro cues
    induction cues with
    | nil => exact fun c h _ => h
    | cons cue rest ih => exact fun c h hcues => ih _ (timed_take h cue hcues.1) hcues.2
  exact hall cues (start w) .blank hcues

/-- **No change is left without a time at which it is saved.** As long as nothing is called off, and
whatever the order of changes, starts, turns, answers and failures, the time of the next run is set
exactly while changed fields wait, and no other field waits while it is not set. -/
theorem timer_iff_waits (w : World) (cues : List Cue) (hcues : (start w).AllInTime cues) :
    ((after w cues).saving.timer.isSome = true ↔ (after w cues).saving.pending.changed ≠ []) ∧
      ((after w cues).saving.timer = none → (after w cues).saving.pending.affected = []) := by
  have h := timed_after hcues
  exact ⟨h.waits, h.affected⟩

/-- A run that a change has made obsolete gives its fields back while the time is set. -/
theorem timer_iff_waits_aborted :
    let cues : List Cue := [.mark (.text "a"), .flush, .mark (.text "a"), .resume 2 (.ok .nothing)]
    (start World.bare).AllInTime cues ∧
      ((after World.bare cues).saving.timer.isSome = true ↔
        (after World.bare cues).saving.pending.changed ≠ []) ∧
      ((after World.bare cues).saving.timer = none →
        (after World.bare cues).saving.pending.affected = []) := by
  intro cues
  have hcues : (start World.bare).AllInTime cues :=
    ⟨by cbv, trivial, by cbv, trivial, trivial⟩
  exact ⟨hcues, timer_iff_waits World.bare cues hcues⟩

/-- So there is never something to save and nothing that would start it. -/
theorem activity_ne_pending (w : World) (cues : List Cue) (hcues : (start w).AllInTime cues) :
    (after w cues).saving.activity ≠ .pending := by
  have h := timed_after hcues
  unfold AutoSave.activity
  cases htimer : (after w cues).saving.timer with
  | some due => simp
  | none =>
    have hchanged : (after w cues).saving.pending.changed = [] := by
      by_contra hc
      have hset := h.waits.2 hc
      rw [htimer] at hset
      cases hset
    by_cases hexecuting : (after w cues).saving.executing = 0
    · simp [hexecuting, Batch.isEmpty, hchanged, h.affected htimer]
    · simp [hexecuting]

end Course

end LiveForm
