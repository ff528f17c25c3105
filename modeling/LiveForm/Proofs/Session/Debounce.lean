import Mathlib
import LiveForm.Proofs.Session.Rounds
import LiveForm.Proofs.Session.Undisturbed

/-!
# When saves start

A change puts the next save off. So among changes that come one after the other, a save starts a
while after each change that no other has followed by then, and at no other time, and it is given
every field that has changed since the save before (`Session.saves_when_due`). This holds whatever
else goes on in the session and whatever becomes of the saves, as long as nobody saves at once or
calls the saving off, and no change comes just when a save is due.

What happens is told as a list of moments (`Session.Unfolds`). The invariant of a session and its
past (`Session.Debounced`) says that the saves that have started, together with the one whose time
is set, are those that are due (`dues`). Everything but a change, a start and the passing of time
leaves the next save alone (`Session.Undisturbed`), and time that passes by itself stops at the time
of a save (`Session.Unfolds.proceed`).
-/

namespace LiveForm

/-! ### When saves are due -/

/-- When saves are due after changes at the given times: a while after each change that is the last,
or is followed by the next only after that while. -/
def dues (d : Nat) : List Instant → List Instant
  | [] => []
  | [t] => [t + d]
  | t :: u :: rest => if t + d < u then (t + d) :: dues d (u :: rest) else dues d (u :: rest)

/-- A save is due after the last change. Another change puts it off, unless it has started by
then. -/
theorem exists_dues (d : Nat) (ts : List Instant) (u : Instant) :
    ∃ early, dues d (ts ++ [u]) = early ++ [u + d] ∧
      ∀ t, dues d (ts ++ [u] ++ [t]) =
        if u + d < t then early ++ [u + d] ++ [t + d] else early ++ [t + d] := by
  induction ts with
  | nil => exact ⟨[], rfl, fun t => rfl⟩
  | cons v ts ih =>
    obtain ⟨early, hdues, hnext⟩ := ih
    obtain ⟨w, rest, hw⟩ := List.exists_cons_of_ne_nil (List.append_ne_nil_of_right_ne_nil ts
      (List.cons_ne_nil u []))
    have hcons (more : List Instant) : dues d (v :: ts ++ [u] ++ more) =
        if v + d < w then (v + d) :: dues d (ts ++ [u] ++ more)
        else dues d (ts ++ [u] ++ more) := by
      rw [List.cons_append, List.cons_append, hw]
      rfl
    have hself := hcons []
    rw [List.append_nil, List.append_nil, hdues] at hself
    by_cases hlate : v + d < w
    · refine ⟨(v + d) :: early, ?_, fun t => ?_⟩
      · rw [hself, if_pos hlate]
        rfl
      · rw [hcons, hnext, if_pos hlate]
        split <;> rfl
    · refine ⟨early, ?_, fun t => ?_⟩
      · rw [hself, if_neg hlate]
      · rw [hcons, hnext, if_neg hlate]

/-! ### Moments -/

/-- What is of interest for saves. -/
inductive Moment where
  /-- A change of the field has been noted. -/
  | marked (time : Instant) (name : FieldName)
  /-- A run has started that saves the fields. -/
  | started (time : Instant) (batch : Batch)
deriving DecidableEq

namespace Moment

/-- The time of a change. -/
def markTime? : Moment → Option Instant
  | marked time _ => some time
  | started _ _ => none

/-- The time of a start. -/
def startTime? : Moment → Option Instant
  | marked _ _ => none
  | started time _ => some time

/-- The fields that have changed since the last start, with those before. -/
def carry (names : FieldNames) : Moment → FieldNames
  | marked _ name => names ++ [name]
  | started _ _ => []

end Moment

/-- The times of changes. -/
def markTimes (past : List Moment) : List Instant :=
  past.filterMap Moment.markTime?

/-- The times of starts. -/
def startTimes (past : List Moment) : List Instant :=
  past.filterMap Moment.startTime?

/-- The fields that have changed since the last start. -/
def since (past : List Moment) : FieldNames :=
  past.foldl Moment.carry []

/-- Each run that starts is given every field that has changed since the start before. -/
def AllGiven (past : List Moment) : Prop :=
  ∀ before time batch after, past = before ++ .started time batch :: after →
    ∀ name ∈ since before, name ∈ batch.changed

section

variable (past : List Moment) (time : Instant)

theorem markTimes_append (more : List Moment) :
    markTimes (past ++ more) = markTimes past ++ markTimes more :=
  List.filterMap_append

@[simp] theorem markTimes_marked (name : FieldName) :
    markTimes (past ++ [.marked time name]) = markTimes past ++ [time] :=
  List.filterMap_append

@[simp] theorem markTimes_started (batch : Batch) :
    markTimes (past ++ [.started time batch]) = markTimes past :=
  List.filterMap_append.trans (List.append_nil _)

@[simp] theorem startTimes_marked (name : FieldName) :
    startTimes (past ++ [.marked time name]) = startTimes past :=
  List.filterMap_append.trans (List.append_nil _)

@[simp] theorem startTimes_started (batch : Batch) :
    startTimes (past ++ [.started time batch]) = startTimes past ++ [time] :=
  List.filterMap_append

@[simp] theorem since_marked (name : FieldName) :
    since (past ++ [.marked time name]) = since past ++ [name] :=
  List.foldl_append

@[simp] theorem since_started (batch : Batch) : since (past ++ [.started time batch]) = [] :=
  List.foldl_append

end

theorem allGiven_nil : AllGiven [] := by
  intro before time batch after hpast
  exact absurd hpast.symm (List.append_ne_nil_of_right_ne_nil before (List.cons_ne_nil _ _))

/-- With one moment more, it is enough to look at that. -/
theorem AllGiven.snoc {past : List Moment} (h : AllGiven past) {m : Moment}
    (hlast : ∀ time batch, m = .started time batch → ∀ name ∈ since past, name ∈ batch.changed) :
    AllGiven (past ++ [m]) := by
  intro before time batch after heq
  rcases List.eq_nil_or_concat after with rfl | ⟨after, m', rfl⟩
  · obtain ⟨rfl, hm⟩ := List.append_inj' heq rfl
    exact hlast time batch (List.singleton_inj.1 hm)
  · have hsnoc : before ++ .started time batch :: after.concat m' =
        before ++ .started time batch :: after ++ [m'] := by simp
    exact h before time batch after (List.append_inj' (heq.trans hsnoc) rfl).1

/-! ### What goes on -/

/-- Something that goes on in a session. -/
inductive Deed where
  /-- A change of the field is noted. -/
  | mark (name : FieldName)
  /-- Host and form become others, but for the present and the saving. -/
  | alter (w : World)
  /-- Something else happens. -/
  | event (e : Event)

namespace Session

/-- When the next save starts, if no change comes before. -/
abbrev saveTime (s : Session) : Option Instant :=
  s.world.form.autoSave.timer

/-- How long a save waits for further changes. -/
abbrev delay (s : Session) : Nat :=
  Form.microseconds s.world.form.debounce

/-- The changed fields that wait for the next save. -/
abbrev waiting (s : Session) : FieldNames :=
  s.world.form.autoSave.pending.changed

/-- What comes of it. -/
def undergo (s : Session) : Deed → Session
  | .mark name => (s.act (Form.markChanged name)).2
  | .alter w =>
    let form := s.world.form
    { s with
      world := { w with
        form := { w.form with
          clock := form.clock, debounce := form.debounce, autoSave := form.autoSave } } }
  | .event e => s.happen e

/-- Nobody calls the saving off or asks for a save at once, and the time of a save is not slept
through. -/
def Allows (s : Session) : Deed → Prop
  | .event .cancel => False
  | .event (.launch task) => task.IsPatient
  | .event (.ask task) => task.IsPatient
  | .event (.pass t) => ∀ due ∈ s.saveTime, t ≤ due
  | _ => True

theorem allows_pass {s : Session} {t : Instant} (h : s.saveTime.all (t ≤ ·) = true) :
    s.Allows (.event (.pass t)) :=
  fun _ hset => of_decide_eq_true (Option.all_eq_true _ _ |>.1 h _ hset)

/-- The fields of which a change is noted. -/
def marks (s : Session) : Deed → List FieldName
  | .mark name => [name]
  | .event (.change name _) => if s.world.form.saves name then [name] else []
  | _ => []

/-- The batches of the runs that are under way in the second session and have not been there in the
first. -/
def begun (s s' : Session) : List Batch :=
  (s'.runs.filter (s.count ≤ ·)).filterMap fun id =>
    match s'.task? id with
    | some (.run r) => some r.batch
    | _ => none

/-- What there is to tell of a deed. -/
def moments (s : Session) (deed : Deed) : List Moment :=
  (s.marks deed).map (.marked s.now) ++ (s.begun (s.undergo deed)).map (.started s.now)

/-- What a session comes to, with what there is to tell of the way. -/
inductive Unfolds (s : Session) : List Moment → Session → Prop
  | refl : Unfolds s [] s
  | step {past : List Moment} {t : Session} (h : Unfolds s past t) (deed : Deed) : t.Allows deed →
      Unfolds s (past ++ t.moments deed) (t.undergo deed)

/-! ### The invariant -/

/-- **The saves that have started, and the one whose time is set, are those that are due.** A time
is set just until a while after the last change, and a save that starts is given every field that
has changed since the save before. -/
structure Debounced (d : Nat) (past : List Moment) (s : Session) : Prop where
  patient : s.Patient
  clock : s.world.form.clock.isSome = true
  delay : s.delay = d
  due : startTimes past ++ s.saveTime.toList = dues d (markTimes past)
  last : ∀ u ∈ (markTimes past).getLast?,
    (s.saveTime = some (u + d) ∧ s.now ≤ u + d) ∨ (s.saveTime = none ∧ u + d ≤ s.now)
  armed : s.saveTime.isSome = true → since past ≠ []
  waits : ∀ name ∈ since past, name ∈ s.waiting
  given : AllGiven past

variable {d : Nat} {past : List Moment} {s s' : Session}

theorem now_congr (h : s'.world.form.clock = s.world.form.clock) : s'.now = s.now := by
  unfold now World.now
  rw [h]

theorem Patient.filter_eq_nil (hs : s.Patient) {ids : List Nat} (h : ∀ id ∈ ids, id ∈ s.runs) :
    ids.filter (s.count ≤ ·) = [] :=
  List.filter_eq_nil_iff.2 fun id hid => by simpa using hs.runs id (h id hid)

theorem begun_eq_nil (hs : s.Patient) (h : ∀ id ∈ s'.runs, id ∈ s.runs) : s.begun s' = [] := by
  unfold begun
  rw [hs.filter_eq_nil h]
  rfl

/-- A run that joins those under way has begun. -/
theorem begun_spawnKept (hs : s.Patient) (w : World) (r : Run) :
    s.begun (spawnKept { s with world := w } .runs (.run r) []) = [r.batch] := by
  have hnew : (s.runs ++ [s.count]).filter (s.count ≤ ·) = [s.count] := by
    rw [List.filter_append, hs.filter_eq_nil fun _ hid => hid]
    simp
  have htask : (spawnKept { s with world := w } .runs (.run r) []).task? s.count = some (.run r) :=
    task?_add_self { s with world := w } (.run r) _
  show ((s.runs ++ [s.count]).filter (s.count ≤ ·)).filterMap _ = _
  rw [hnew, List.filterMap_cons, htask]
  rfl

theorem Patient.spawnKept (hs : s.Patient) (w : World) (r : Run) :
    (Session.spawnKept { s with world := w } .runs (.run r) []).Patient where
  tasks := by
    have hrun : (Task.run r).IsPatient := trivial
    exact (Undisturbed.spawn { s with world := w } hrun _).tasks hs.tasks
  runs id hid := by
    rcases List.mem_append.1 hid with hold | hnew
    · exact (hs.runs id hold).trans (Nat.lt_succ_self _)
    · exact List.mem_singleton.1 hnew ▸ Nat.lt_succ_self _

theorem startRun_patient (hs : s.Patient) : s.startRun.Patient := by
  rcases s.startRun_cases with heq | heq | ⟨a, saving, -, heq⟩
  · rw [heq]
    exact hs
  · rw [heq]
    exact ⟨hs.tasks, hs.runs⟩
  · rw [heq]
    exact hs.spawnKept _ _

/-- When its time has come, a save does not wait any more. -/
theorem saveTime_startRun (h : s.saveTime = none ∨ s.saveDue = true) :
    s.startRun.saveTime = none := by
  cases hdue : s.saveDue with
  | false =>
    unfold Session.startRun
    rw [hdue]
    exact h.resolve_right (hdue ▸ Bool.false_ne_true)
  | true =>
    unfold Session.startRun
    rw [hdue]
    simp only [Bool.not_true, Bool.false_eq_true, if_false]
    split
    · rfl
    · next a saving hstart =>
      rw [saveTime, spawnKept_world]
      obtain ⟨-, rfl⟩ := AutoSave.start?_eq hstart
      rfl

/-- When its time has come, a save starts if any changed field waits. It is given all that wait. -/
theorem startRun_of_due (hdue : s.saveDue = true) (hwaits : s.waiting ≠ []) :
    ∃ a saving, (∀ name ∈ s.waiting, name ∈ a.batch.changed) ∧
      s.startRun = Session.spawnKept { s with world := s.world.withAutoSave fun _ => saving } .runs
        (.run (.ofAssignment a)) [] := by
  cases hstart : s.world.form.autoSave.disarm.start? with
  | none =>
    have hcollected : s.world.form.autoSave.disarm.collected.isEmpty = true := by
      by_contra hne
      unfold AutoSave.start? at hstart
      rw [if_neg hne] at hstart
      exact nomatch hstart
    exact absurd (AutoSave.pending_of_collected hcollected).1 hwaits
  | some started =>
    obtain ⟨a, saving⟩ := started
    have hrun : s.startRun = Session.spawnKept
        { s with world := s.world.withAutoSave fun _ => saving } .runs
        (.run (.ofAssignment a)) [] := by
      have hworld : (s.world.withAutoSave AutoSave.disarm).form.autoSave.start? =
        some (a, saving) := hstart
      unfold Session.startRun
      rw [hdue]
      simp only [Bool.not_true, Bool.false_eq_true, if_false, hworld]
      rfl
    obtain ⟨rfl, rfl⟩ := AutoSave.start?_eq hstart
    exact ⟨_, _, (s.world.form.autoSave.pending.within_foldl_union _).changed, hrun⟩

namespace Debounced

/-- A session as it is made. -/
theorem start {host : Host} {definition : Definition} {registry : Registry} {settings : Settings}
    {record defaults : Value} {now : Instant}
    (h : Session.start host definition registry settings record defaults (some now) = .ok s) :
    Debounced s.delay [] s := by
  have hnew := start_new h
  obtain ⟨form, hblank, rfl⟩ := start_setUp h
  have htime : saveTime { world := (World.runForm { host, form } (Form.setUp host)).2 } = none :=
    congrArg AutoSave.timer hnew.autoSave
  refine ⟨⟨nofun, nofun⟩, ?_, rfl, ?_, nofun, ?_, nofun, allGiven_nil⟩
  · rw [hnew.clock]
    rfl
  · rw [htime]
    rfl
  · rw [htime]
    exact nofun

/-- What leaves the next save alone. -/
theorem undisturbed (h : Debounced d past s) (hs : Undisturbed s s') : Debounced d past s' where
  patient := hs.patient h.patient
  clock := hs.world.clock.symm ▸ h.clock
  delay := (congrArg Form.microseconds hs.world.debounce).trans h.delay
  due := by
    rw [saveTime, hs.world.timer]
    exact h.due
  last := by
    rw [saveTime, hs.world.timer, now_congr hs.world.clock]
    exact h.last
  armed := by
    rw [saveTime, hs.world.timer]
    exact h.armed
  waits name hname := hs.world.changed name (h.waits name hname)
  given := h.given

/-- Time passes, but not beyond the time that is set. -/
theorem pass (h : Debounced d past s) {t : Instant} (ht : ∀ due ∈ s.saveTime, t ≤ due) :
    Debounced d past (s.passTo t) where
  patient := ⟨h.patient.tasks, h.patient.runs⟩
  clock := rfl
  delay := h.delay
  due := h.due
  last := by
    have hnow : (s.passTo t).now = max s.now t := rfl
    intro u hu
    rcases h.last u hu with ⟨hset, hle⟩ | ⟨hset, hle⟩
    · exact Or.inl ⟨hset, hnow ▸ Nat.max_le.2 ⟨hle, ht _ hset⟩⟩
    · exact Or.inr ⟨hset, hnow ▸ hle.trans (Nat.le_max_left _ _)⟩
  armed := h.armed
  waits := h.waits
  given := h.given

/-- What is due after a change: a save whose time was set is put off, and any other that was due has
started. -/
theorem due_marked (h : Debounced d past s)
    (hgap : ∀ u ∈ (markTimes past).getLast?, s.now ≠ u + d) :
    startTimes past ++ [s.now + d] = dues d (markTimes past ++ [s.now]) := by
  have hdue := h.due
  rcases List.eq_nil_or_concat (markTimes past) with hnone | ⟨ts, u, hlast⟩
  · rw [hnone] at hdue ⊢
    rw [(List.append_eq_nil_iff.1 hdue).1]
    rfl
  · rw [List.concat_eq_append] at hlast
    have hu : u ∈ (markTimes past).getLast? := by simp [hlast]
    obtain ⟨early, hdues, hnext⟩ := exists_dues d ts u
    rw [hlast, hdues] at hdue
    rw [hlast, hnext]
    rcases h.last u hu with ⟨hset, hle⟩ | ⟨hset, hle⟩
    · have hsoon : ¬ u + d < s.now := Nat.not_lt.2 hle
      rw [hset] at hdue
      rw [if_neg hsoon, List.append_cancel_right hdue]
    · have hlate : u + d < s.now := Nat.lt_of_le_of_ne hle (hgap u hu).symm
      rw [hset, Option.toList_none, List.append_nil] at hdue
      rw [if_pos hlate, hdue]

/-- A change sets the time of the next save anew. -/
theorem mark (h : Debounced d past s) {name : FieldName} {w : World}
    (hw : (s.world.form.noted name s.now).SameSaving w.form)
    (hgap : ∀ u ∈ (markTimes past).getLast?, s.now ≠ u + d) :
    Debounced d (past ++ [.marked s.now name]) { s with world := w } := by
  have hnow : now { s with world := w } = s.now := now_congr hw.clock
  have htime : w.form.autoSave.timer = some (s.now + d) := by
    rw [hw.autoSave, ← h.delay]
    rfl
  have hwaits : ∀ f, f ∈ s.waiting ∨ f = name → f ∈ w.form.autoSave.pending.changed := by
    intro f hf
    rw [hw.autoSave]
    exact Names.mem_union.2 (hf.imp_right List.mem_singleton.2)
  refine ⟨⟨h.patient.tasks, h.patient.runs⟩, hw.clock.symm ▸ h.clock,
    (congrArg Form.microseconds hw.debounce).trans h.delay, ?_, ?_, ?_, ?_, ?_⟩
  · rw [saveTime, htime, startTimes_marked, markTimes_marked]
    exact h.due_marked hgap
  · intro u hu
    rw [markTimes_marked, List.getLast?_concat] at hu
    obtain rfl := Option.some.inj hu
    exact Or.inl ⟨htime, hnow ▸ Nat.le_add_right _ _⟩
  · intro _
    rw [since_marked]
    exact List.append_ne_nil_of_right_ne_nil _ (List.cons_ne_nil _ _)
  · intro f hf
    rw [since_marked, List.mem_append, List.mem_singleton] at hf
    exact hwaits f (hf.imp_left (h.waits f))
  · exact h.given.snoc nofun

/-- A time that is set has not gone by, and is that of the save after the last change. -/
theorem saveTime_eq (h : Debounced d past s) {due : Instant} (hset : s.saveTime = some due) :
    ∃ u ∈ (markTimes past).getLast?, due = u + d ∧ s.now ≤ due := by
  cases hlast : (markTimes past).getLast? with
  | none =>
    have hdue := h.due
    rw [List.getLast?_eq_none_iff.1 hlast, hset] at hdue
    exact absurd hdue (List.append_ne_nil_of_right_ne_nil _ (List.cons_ne_nil _ _))
  | some u =>
    refine ⟨u, rfl, ?_⟩
    rcases h.last u hlast with ⟨hset', hle⟩ | ⟨hnone, -⟩
    · obtain rfl := Option.some.inj (hset.symm.trans hset')
      exact ⟨rfl, hle⟩
    · exact absurd (hset.symm.trans hnone) (Option.some_ne_none due)

/-- **A save starts just at the time that is set**, and is given all that waits. -/
theorem startRun (h : Debounced d past s) :
    Debounced d (past ++ (s.begun s.startRun).map (.started s.now)) s.startRun := by
  cases hdue : s.saveDue with
  | false =>
    have hsame : s.startRun = s := by
      unfold Session.startRun
      rw [hdue]
      rfl
    rw [hsame, begun_eq_nil h.patient fun _ hid => hid]
    exact (List.append_nil past).symm ▸ h
  | true =>
    obtain ⟨due, hset, hle⟩ := (Option.any_eq_true _ _).1 hdue
    obtain ⟨u, hu, hnext, hnow⟩ := h.saveTime_eq hset
    obtain rfl : s.now = due := Nat.le_antisymm hnow (of_decide_eq_true hle)
    have hset : s.saveTime = some s.now := hset
    obtain ⟨f, hf⟩ := List.exists_mem_of_ne_nil _ (h.armed (Option.isSome_of_eq_some hset))
    obtain ⟨a, saving, hgiven, hrun⟩ :=
      startRun_of_due hdue (List.ne_nil_of_mem (h.waits f hf))
    have hbegun : s.begun s.startRun = [a.batch] := by
      rw [hrun]
      exact begun_spawnKept h.patient _ _
    have hworld : s.startRun.world = s.world.withAutoSave fun _ => saving := by
      rw [hrun, spawnKept_world]
    have hnone : s.startRun.saveTime = none := saveTime_startRun (Or.inr hdue)
    have hclock : s.startRun.world.form.clock = s.world.form.clock := by
      rw [hworld]
      rfl
    rw [hbegun, List.map_singleton]
    refine ⟨startRun_patient h.patient, hclock.symm ▸ h.clock, ?_, ?_, ?_, ?_, ?_,
      h.given.snoc ?_⟩
    · rw [Session.delay, hworld]
      exact h.delay
    · rw [hnone, startTimes_started, markTimes_started, ← h.due, hset]
      exact List.append_nil _
    · intro v hv
      rw [markTimes_started] at hv
      obtain rfl := Option.mem_unique hu hv
      rw [now_congr hclock]
      exact Or.inr ⟨hnone, hnext.ge⟩
    · rw [hnone]
      exact nofun
    · rw [since_started]
      exact nofun
    · intro time batch hm name hname
      obtain ⟨-, rfl⟩ := Moment.started.inj hm
      exact hgiven name (h.waits name hname)

end Debounced

/-! ### Deeds -/

/-- If no run begins, there are only changes to tell of. -/
theorem moments_eq (hs : s.Patient) {deed : Deed} (h : ∀ id ∈ (s.undergo deed).runs, id ∈ s.runs) :
    s.moments deed = (s.marks deed).map (.marked s.now) := by
  unfold moments
  rw [begun_eq_nil hs h]
  exact List.append_nil _

/-- Something else than a change is done to the form. -/
theorem Undisturbed.act {α : Type} (s : Session) {op : FormOp α}
    (hop : s.world.form.SameSaving (s.world.runForm op).2.form) : Undisturbed s (s.act op).2 :=
  (withWorld s (.of_sameSaving hop)).trans (takeUp _)

namespace Debounced

variable {deed : Deed}

theorem of_undisturbed (h : Debounced d past s) (hmarks : s.marks deed = [])
    (hs : Undisturbed s (s.undergo deed)) :
    Debounced d (past ++ s.moments deed) (s.undergo deed) := by
  rw [moments_eq h.patient hs.runs, hmarks]
  exact (List.append_nil past).symm ▸ h.undisturbed hs

theorem of_act (h : Debounced d past s) {name : FieldName} {op : FormOp Unit}
    (hdeed : s.undergo deed = (s.act op).2) (hmarks : s.marks deed = [name])
    (hop : (s.world.form.noted name s.now).SameSaving (s.world.runForm op).2.form)
    (hgap : s.marks deed ≠ [] → ∀ u ∈ (markTimes past).getLast?, s.now ≠ u + d) :
    Debounced d (past ++ s.moments deed) (s.undergo deed) := by
  have hne : s.marks deed ≠ [] := hmarks ▸ List.cons_ne_nil _ _
  have hruns : ∀ id ∈ (s.undergo deed).runs, id ∈ s.runs := by
    rw [hdeed]
    exact (Undisturbed.takeUp { s with world := (s.world.runForm op).2 }).runs
  rw [moments_eq h.patient hruns, hmarks, hdeed]
  exact (h.mark hop (hgap hne)).undisturbed (.takeUp _)

/-- The first in the queue has its turn. -/
theorem turn (h : Debounced d past s) :
    Debounced d (past ++ s.moments (.event .turn)) (s.undergo (.event .turn)) := by
  have hturn : s.undergo (.event .turn) = s.happen .turn := rfl
  cases hq : s.queue with
  | nil =>
    have hnobody : s.undergo (.event .turn) = s := by
      rw [hturn]
      unfold happen
      rw [hq]
    exact h.of_undisturbed rfl (hnobody.symm ▸ .refl s)
  | cons t rest =>
    have htake : s.undergo (.event .turn) = { s with queue := rest }.take t := by
      rw [hturn]
      unfold happen
      rw [hq]
    have hrest : Undisturbed s { s with queue := rest } := .queued s rest
    cases t with
    | save =>
      have hmoments : s.moments (.event .turn) =
          (begun { s with queue := rest } (Session.startRun { s with queue := rest })).map
            (.started s.now) := by
        unfold moments
        rw [htake]
        rfl
      rw [hmoments, htake]
      exact (h.undisturbed hrest).startRun
    | resume | wake | forget | report =>
      refine h.of_undisturbed rfl ?_
      rw [htake]
      exact hrest.trans (.take (hrest.patient h.patient) nofun)

/-- **What a deed keeps.** -/
theorem undergo (h : Debounced d past s) (hallows : s.Allows deed)
    (hgap : s.marks deed ≠ [] → ∀ u ∈ (markTimes past).getLast?, s.now ≠ u + d) :
    Debounced d (past ++ s.moments deed) (s.undergo deed) := by
  have hclock : s.world.form.clock = some s.now := by
    obtain ⟨now, hnow⟩ := Option.isSome_iff_exists.1 h.clock
    rw [hnow, Session.now, World.now, hnow]
    rfl
  cases deed with
  | mark name =>
    have hform : (s.world.runForm (Form.markChanged name)).2.form =
        ((Form.markChanged name).runOn s.world.form s.world.log).2.1 := rfl
    refine h.of_act rfl rfl ?_ hgap
    rw [hform, Form.runOn_markChanged, hclock]
    exact ⟨hclock.symm, rfl, rfl⟩
  | alter w =>
    exact h.of_undisturbed rfl
      ⟨.of_sameSaving ⟨rfl, rfl, rfl⟩, Nat.le_refl _, fun _ hid => hid, id⟩
  | event e =>
    cases e with
    | change name v =>
      have hop := Form.changeField_saving s.world.host hclock name v s.world.log
      cases hsaves : s.world.form.saves name with
      | true =>
        rw [hsaves, if_pos rfl] at hop
        exact h.of_act rfl (if_pos hsaves) hop hgap
      | false =>
        rw [hsaves, if_neg Bool.false_ne_true] at hop
        exact h.of_undisturbed (if_neg (hsaves ▸ Bool.false_ne_true)) (.act s hop)
    | cancel => exact absurd hallows id
    | launch task => exact h.of_undisturbed rfl (.spawn s hallows [])
    | ask task =>
      have hadd := Undisturbed.add s hallows []
      exact h.of_undisturbed rfl (hadd.trans (.resume (hadd.patient h.patient) _ _))
    | turn => exact h.turn
    | expire => exact h.of_undisturbed rfl (.expire s)
    | pass t =>
      have hruns : ∀ id ∈ (s.undergo (.event (.pass t))).runs, id ∈ s.runs := fun _ hid => hid
      rw [moments_eq h.patient hruns]
      exact (List.append_nil past).symm ▸ h.pass hallows

end Debounced

/-! ### Rounds -/

/-- A save whose turn comes among others does not wait any more after them. -/
theorem saveTime_foldl_take (queue : List Turn) (hs : s.Patient)
    (h : s.saveTime = none ∨ s.saveDue = true ∧ .save ∈ queue) :
    (queue.foldl Session.take s).saveTime = none := by
  induction queue generalizing s with
  | nil => exact h.resolve_right fun hsave => absurd hsave.2 List.not_mem_nil
  | cons t rest ih =>
    rcases eq_or_ne t .save with rfl | hother
    · exact ih (startRun_patient hs) (Or.inl (saveTime_startRun (h.imp_right And.left)))
    · have htake : Undisturbed s (s.take t) := .take hs hother
      have htime : (s.take t).saveTime = s.saveTime := htake.world.timer
      have hdue : (s.take t).saveDue = s.saveDue := by
        show (s.take t).saveTime.any _ = s.saveTime.any _
        rw [htime, now_congr htake.world.clock]
      refine ih (htake.patient hs) ?_
      rw [htime, hdue]
      exact h.imp_right fun hsave =>
        ⟨hsave.1, (List.mem_cons.1 hsave.2).resolve_left hother.symm⟩

/-- **When the time of a save has come, the save starts within a round.** -/
theorem saveTime_round (hs : s.Patient) (hdue : s.saveDue = true) : s.round.saveTime = none := by
  have hlast : .save ∈ s.expire.queue := by
    unfold expire
    rw [hdue]
    exact List.mem_append_right _ (List.mem_singleton.2 rfl)
  have hpatient : Patient { s.expire with queue := [] } := ⟨hs.tasks, hs.runs⟩
  exact saveTime_foldl_take s.expire.queue hpatient (Or.inr ⟨hdue, hlast⟩)

/-! ### What comes of deeds -/

theorem markTimes_moments (s : Session) (deed : Deed) :
    markTimes (s.moments deed) = (s.marks deed).map fun _ => s.now := by
  unfold markTimes moments
  rw [List.filterMap_append, List.filterMap_map, List.filterMap_map]
  have hmarks : (s.marks deed).filterMap (Moment.markTime? ∘ .marked s.now) =
      (s.marks deed).map fun _ => s.now := congrFun List.filterMap_eq_map _
  have hstarts : (s.begun (s.undergo deed)).filterMap (Moment.markTime? ∘ .started s.now) = [] :=
    List.filterMap_eq_nil_iff.2 fun _ _ => rfl
  rw [hmarks, hstarts, List.append_nil]

namespace Unfolds

variable {t : Session}

theorem tell (h : Unfolds s past t) (deed : Deed) (more : List Moment) (hallows : t.Allows deed)
    (hmore : t.moments deed = more) : Unfolds s (past ++ more) (t.undergo deed) :=
  hmore ▸ h.step deed hallows

/-- **What deeds keep, one after the other**, if no change comes just when a save is due. -/
theorem debounced (h : Unfolds s past t) (hs : Debounced d [] s)
    (hgaps : (markTimes past).IsChain fun u v => v ≠ u + d) : Debounced d past t := by
  induction h with
  | refl => exact hs
  | step _ _ hallows ih =>
    rw [markTimes_append, markTimes_moments] at hgaps
    obtain ⟨hpast, -, hjoin⟩ := List.isChain_append.1 hgaps
    refine (ih hpast).undergo hallows fun hne u hu => hjoin u hu _ ?_
    obtain ⟨name, rest, hmarks⟩ := List.exists_cons_of_ne_nil hne
    rw [hmarks]
    rfl

/-- Turns go on without changes. -/
theorem after (h : Unfolds s past t) {events : List Event}
    (hevents : ∀ e ∈ events, e = .expire ∨ e = .turn) :
    ∃ more, markTimes more = [] ∧ Unfolds s (past ++ more) (t.after events) := by
  induction events using List.reverseRecOn with
  | nil => exact ⟨[], rfl, (List.append_nil past).symm ▸ h⟩
  | append_singleton events e ih =>
    obtain ⟨more, hmore, hsaves⟩ := ih fun e he => hevents e (List.mem_append_left _ he)
    have hnone : markTimes ((t.after events).moments (.event e)) = [] := by
      rw [markTimes_moments]
      rcases hevents e (by simp) with rfl | rfl <;> rfl
    have hallows : (t.after events).Allows (.event e) := by
      rcases hevents e (by simp) with rfl | rfl <;> trivial
    refine ⟨more ++ (t.after events).moments (.event e), ?_, ?_⟩
    · rw [markTimes_append, hmore, hnone]
      rfl
    · rw [after_append, ← List.append_assoc]
      exact hsaves.step _ hallows

theorem round (h : Unfolds s past t) :
    ∃ more, markTimes more = [] ∧ Unfolds s (past ++ more) t.round := by
  rw [round_eq]
  refine h.after fun e he => ?_
  exact (List.mem_cons.1 he).imp_right List.eq_of_mem_replicate

/-- **Time that passes by itself stops at the time of a save.** -/
theorem proceed (h : Unfolds s past t) :
    ∃ more, markTimes more = [] ∧ Unfolds s (past ++ more) t.proceed := by
  unfold Session.proceed
  split
  · exact h.round
  · cases hnext : t.nextDue? with
    | none => exact ⟨[], rfl, (List.append_nil past).symm ▸ h⟩
    | some u =>
      have hallows : t.Allows (.event (.pass u)) := by
        intro due hset
        have hset : t.world.form.autoSave.timer = some due := hset
        unfold nextDue? at hnext
        rw [hset] at hnext
        cases htimers : t.timers.head?.map Timer.due with
        | none =>
          rw [htimers] at hnext
          exact (Option.some.inj hnext).ge
        | some a =>
          rw [htimers] at hnext
          exact Option.some.inj hnext ▸ Nat.min_le_right a due
      obtain ⟨more, hmore, hround⟩ := (h.step _ hallows).round
      refine ⟨t.moments (.event (.pass u)) ++ more, ?_, ?_⟩
      · rw [markTimes_append, markTimes_moments, hmore]
        rfl
      · rw [← List.append_assoc]
        exact hround

end Unfolds

/-- **Saves start when they are due.** After whatever has gone on in a session, the saves that have
started, together with the one whose time is set, are those that are due: one a while after each
change that is the last or is followed by the next only later. That time has not gone by, and as
soon as it has come, a round starts the save. Each save is given every field that has changed since
the save before. -/
theorem saves_when_due {host : Host} {definition : Definition} {registry : Registry}
    {settings : Settings} {record defaults : Value} {now : Instant} {s t : Session}
    {past : List Moment}
    (hstart : start host definition registry settings record defaults (some now) = .ok s)
    (h : Unfolds s past t) (hgaps : (markTimes past).IsChain fun u v => v ≠ u + s.delay) :
    startTimes past ++ t.saveTime.toList = dues s.delay (markTimes past) ∧
      (∀ due ∈ t.saveTime, t.now ≤ due) ∧
      (t.saveDue = true → ∃ more, markTimes more = [] ∧ Unfolds s (past ++ more) t.round ∧
        startTimes (past ++ more) = dues s.delay (markTimes past)) ∧
      AllGiven past := by
  have hnew : Debounced s.delay [] s := .start hstart
  have ht := h.debounced hnew hgaps
  refine ⟨ht.due, fun due hset => ?_, fun hdue => ?_, ht.given⟩
  · obtain ⟨-, -, -, hle⟩ := ht.saveTime_eq hset
    exact hle
  · obtain ⟨more, hmore, hround⟩ := h.round
    have hmarks : markTimes (past ++ more) = markTimes past := by
      rw [markTimes_append, hmore, List.append_nil]
    have hafter := (hround.debounced hnew (hmarks.symm ▸ hgaps)).due
    rw [saveTime_round ht.patient hdue, hmarks, Option.toList_none, List.append_nil] at hafter
    exact ⟨more, hmore, hround, hafter⟩

namespace Purchase

/-- The session, with the amount registered. -/
def opened : Session where
  world :=
    { host
      form :=
        { definition, registry := {}, settings := {}, store, debounce := .int 1000
          clock := some 0, graph := { registered := [.text "amount"] } } }

theorem start_opened : start host definition {} {} .null defaults (some 0) = .ok opened := by
  have hopened : session = opened := by cbv
  exact hopened ▸ start_eq

/-- The amount changes three times, and the second time comes soon after the first. -/
def deeds : List Deed :=
  [.mark (.text "amount"), .event (.pass 400000), .mark (.text "amount"), .event (.pass 1400000),
    .event .expire, .event .turn, .event (.pass 3000000), .mark (.text "amount")]

/-- A save starts between the second and the third. -/
def told : List Moment :=
  [.marked 0 (.text "amount"), .marked 400000 (.text "amount"),
    .started 1400000 ⟨[.text "amount"], []⟩, .marked 3000000 (.text "amount")]

theorem saves_told : Unfolds opened told (deeds.foldl undergo opened) := by
  have hfirst := (Unfolds.refl (s := opened)).tell (.mark (.text "amount"))
    [.marked 0 (.text "amount")] trivial (by cbv)
  have hsecond := (hfirst.tell (.event (.pass 400000)) [] (allows_pass (by cbv)) (by cbv)).tell
    (.mark (.text "amount")) [.marked 400000 (.text "amount")] trivial (by cbv)
  have hstart := ((hsecond.tell (.event (.pass 1400000)) [] (allows_pass (by cbv)) (by cbv)).tell
    (.event .expire) [] trivial (by cbv)).tell (.event .turn)
      [.started 1400000 ⟨[.text "amount"], []⟩] trivial (by cbv)
  exact (hstart.tell (.event (.pass 3000000)) [] (allows_pass (by cbv)) (by cbv)).tell
    (.mark (.text "amount")) [.marked 3000000 (.text "amount")] trivial (by cbv)

theorem saveTime_deeds : (deeds.foldl undergo opened).saveTime = some 4000000 := by
  cbv

end Purchase

/-- After three changes one save has started, and the time of another is set. -/
theorem saves_when_due_purchase :
    Unfolds Purchase.opened Purchase.told (Purchase.deeds.foldl undergo Purchase.opened) ∧
      (markTimes Purchase.told).IsChain (fun u v => v ≠ u + Purchase.opened.delay) ∧
      startTimes Purchase.told ++ [4000000] =
        dues Purchase.opened.delay (markTimes Purchase.told) ∧ AllGiven Purchase.told := by
  have hgaps : (markTimes Purchase.told).IsChain fun u v => v ≠ u + Purchase.opened.delay := by
    decide
  obtain ⟨hdue, -, -, hgiven⟩ := saves_when_due Purchase.start_opened Purchase.saves_told hgaps
  rw [Purchase.saveTime_deeds] at hdue
  exact ⟨Purchase.saves_told, hgaps, hdue, hgiven⟩

end Session

end LiveForm
