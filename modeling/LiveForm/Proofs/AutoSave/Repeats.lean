import Mathlib
import LiveForm.Proofs.AutoSave.Supersession

/-!
# Submissions that are repeated

A run that submits is the latest, and all that there is to save is what it holds. Until it has ended
a start takes these fields over, and its run submits them once more. After that there is nothing left
to start a run with. So between two submissions a change has been noted, or a run has started while
the first of the two went on (`change_or_start_between_submissions`).

* `Course.fresh_after`: what the latest run holds, and that nothing waits beside it.
* `Course.Spent`: what is left to be done after a submission, until there is a change.
-/

namespace LiveForm

namespace Task

/-- **What a submission does.** The run has the version of the form; it goes on until the host has
taken the values in, or ends at once. -/
theorem stepRun_of_submits {w : World} {r : Run} {answer : Answer} {values : Entries}
    (h : Submits w r answer values) : w.form.autoSave.version = r.version ∧
      ((∃ pause a, stepRun w r answer =
          (.pause pause a (.run { r with phase := .submitting }), (w.entered r).submit.2)) ∨
        ∃ o log, o ≠ .aborted ∧ stepRun w r answer = leaveRun (w.entered r).submit.2 r o log) := by
  have hstep : stepRun w r answer = grant (w.entered r) r
      (r.resume (sight (w.entered r)) (answer.map Reply.holds)) := rfl
  have hsame : (w.entered r).form.store.submitted ≠ w.form.store.submitted ++ [values] := by
    rw [w.entered_store r]
    simp
  have submission {r' : Run} (hr' : r' = { r with phase := .submitting })
      (hold : r.superseded (sight (w.entered r)) = false)
      (hr : r.resume (sight (w.entered r)) (answer.map Reply.holds) = .submit r') :
      w.form.autoSave.version = r.version ∧
        ((∃ pause a, stepRun w r answer =
            (.pause pause a (.run { r with phase := .submitting }), (w.entered r).submit.2)) ∨
          ∃ o log, o ≠ .aborted ∧
            stepRun w r answer = leaveRun (w.entered r).submit.2 r o log) := by
    refine ⟨by simpa [Run.superseded, sight] using hold, ?_⟩
    rw [hstep, hr, hr']
    exact grant_submit (w.entered r) r _
  unfold Submits at h
  rcases r.resume_cases (sight (w.entered r)) (answer.map Reply.holds) with
    ⟨o, log, hr⟩ | ⟨hs, ⟨_, d, hr⟩ | ⟨_, p, d, hr⟩ | ⟨_, _, _, hr⟩ | ⟨_, _, _, hr⟩ | ⟨_, _, hr⟩⟩
  · rw [hstep, hr] at h
    exact absurd h hsame
  · rw [hstep, hr] at h
    exact absurd h hsame
  · rw [hstep, hr] at h
    exact absurd h hsame
  · rw [hstep, hr] at h
    exact absurd h hsame
  · exact submission rfl hs hr
  · exact submission rfl hs hr

/-- A run that has submitted ends with its next turn, and is not aborted. -/
theorem stepRun_of_submitting {w : World} {r : Run} (h : r.phase = .submitting) (answer : Answer) :
    ∃ o log, o ≠ .aborted ∧ stepRun w r answer = leaveRun (w.entered r) r o log := by
  have hstep : stepRun w r answer = grant (w.entered r) r
      (r.resume (sight (w.entered r)) (answer.map Reply.holds)) := rfl
  rw [hstep]
  simp only [Run.resume, h]
  cases answer with
  | ok reply => exact ⟨.submitted, _, by simp, rfl⟩
  | error f => exact ⟨.failed, _, by simp, rfl⟩

end Task

namespace Course

variable {c c' : Course}

/-! ### The latest run -/

/-- Nothing waits while a run has the version of the form, and the run holds its fields. -/
def Fresh (c : Course) : Prop :=
  ∀ r ∈ c.runs, c.saving.version = r.version →
    c.saving.pending = {} ∧ c.saving.held = [(r.version, r.batch)]

/-- No run that was there has the version after a move. -/
theorem Counted.version_ne (hc : Counted c) {r : Run} (hr : r ∈ c.runs)
    (hmove : c'.saving.version = c.saving.version + 1) : c'.saving.version ≠ r.version := by
  have hle := hc.version_le hr
  omega

theorem Fresh.step (hc : Counted c) (h : Fresh c) (hs : Step c c') : Fresh c' := by
  cases hs with
  | noted name affected hb hr _ =>
    exact fun r hmem hv => absurd hv (hc.version_ne (hr ▸ hmem) hb.version)
  | cancelled hb hr _ =>
    exact fun r hmem hv => absurd hv (hc.version_ne (hr ▸ hmem) hb.version)
  | started a ha hb hr _ =>
    intro r hmem hv
    rw [hr] at hmem
    rcases List.mem_append.1 hmem with hold | hnew
    · subst ha
      exact absurd hv (hc.version_ne hold hb.version)
    · obtain rfl := List.mem_singleton.1 hnew
      exact ⟨hb.pending, hb.held⟩
  | went hb hr _ =>
    intro r' hmem hv
    obtain ⟨r, hr, hversion, hbatch⟩ := hr r' hmem
    rw [hb.version] at hv
    rw [hb.pending, hb.held, ← hversion, ← hbatch]
    exact h r hr (hv.trans hversion.symm)
  | ended r o _ hb hr _ =>
    intro q hq hv
    rw [hr] at hq
    obtain ⟨hq, hne⟩ := List.mem_filter.1 hq
    have hne : q.version ≠ r.version := by simpa using hne
    rw [hb.version, AutoSave.leave_version] at hv
    obtain ⟨hpending, hheld⟩ := h q hq hv
    rw [hb.pending, hb.held]
    refine ⟨?_, AutoSave.leave_held_of_ne hheld hne o⟩
    rw [AutoSave.leave_pending_of_ne (v := q.version) (by simp [hheld]) hne.symm o]
    exact hpending

theorem fresh_after (w : World) (cues : List Cue) : Fresh (after w cues) := by
  have hboth : Counted (after w cues) ∧ Fresh (after w cues) := by
    refine after_induction (P := fun c => Counted c ∧ Fresh c) ⟨counted_start w, ?_⟩
      (fun c cue ⟨hc, h⟩ => ⟨hc.step (take_step c cue), h.step hc (take_step c cue)⟩) cues
    intro r hr
    exact absurd hr (by simp [start])
  exact hboth.2

/-! ### After a submission -/

/-- What has happened stays. -/
theorem Step.past (hs : Step c c') : ∃ later, c'.past = c.past ++ later := by
  cases hs with
  | noted name affected _ _ hp => exact ⟨_, hp⟩
  | cancelled _ _ hp => exact ⟨_, hp⟩
  | started a _ _ _ hp => exact ⟨_, hp⟩
  | went _ _ hp => exact ⟨[], by rw [hp, List.append_nil]⟩
  | ended r o _ _ _ hp => exact ⟨_, hp⟩

/-- A change has been noted, or a run has started before the run of the version has ended. -/
inductive Renewed (v : Nat) (since : List Happening) : Prop
  | marked (name : FieldName) (affected : FieldNames) :
      .marked name affected ∈ since → Renewed v since
  | started (early : List Happening) (a : Assignment) (late : List Happening) :
      since = early ++ .started a :: late → (∀ o, .ended v o ∉ early) → Renewed v since

theorem Renewed.append {v : Nat} {since : List Happening} (h : Renewed v since)
    (later : List Happening) : Renewed v (since ++ later) := by
  cases h with
  | marked name affected hmem => exact .marked name affected (List.mem_append_left later hmem)
  | started early a late hs hv =>
    refine .started early a (late ++ later) ?_ hv
    rw [hs, List.append_assoc, List.cons_append]

/-- A run of the version has submitted, no younger run is under way, and nothing is to be saved but
what that run holds until it ends. -/
structure Spent (v : Nat) (since : List Happening) (c : Course) : Prop where
  runs : ∀ r ∈ c.runs, r.version ≤ v ∧ (r.version = v → r.phase = .submitting)
  version : v ≤ c.saving.version
  pending : c.saving.pending = {}
  held : ∀ e ∈ c.saving.held, e.1 = v
  ended : c.saving.held = [] ∨ ∀ o, .ended v o ∉ since

namespace Spent

variable {v : Nat} {since : List Happening}

/-- Nothing that is left of the runs is a submission. -/
theorem not_submits (h : Spent v since c) {q : Run} (hq : q ∈ c.runs) (answer : Answer)
    (values : Entries) : ¬ Task.Submits c.world q answer values := by
  intro hsub
  obtain ⟨hle, hphase⟩ := h.runs q hq
  have hversion := (Task.stepRun_of_submits hsub).1
  have hv := h.version
  have hlatest : q.version = v := by
    have : c.saving.version = q.version := hversion
    omega
  obtain ⟨o, log, -, hs⟩ := Task.stepRun_of_submitting (hphase hlatest) answer (w := c.world)
  unfold Task.Submits at hsub
  rw [hs] at hsub
  have hsame : (c.world.entered q).form.store.submitted =
      c.world.form.store.submitted ++ [values] := hsub
  rw [c.world.entered_store q] at hsame
  exact absurd hsame (by simp)

theorem of_books (h : Spent v since c) (hb : SameBooks c.saving c'.saving)
    (hruns : c'.runs = c.runs) : Spent v since c' where
  runs := hruns ▸ h.runs
  version := hb.version ▸ h.version
  pending := hb.pending.trans h.pending
  held := by rw [hb.held]; exact h.held
  ended := by rw [hb.held]; exact h.ended

/-- The end of a run leaves nothing to be saved, unless it is the run that has submitted and it is
aborted. -/
theorem leave (h : Spent v since c) {r : Run} {o : Outcome}
    (ho : r.version = v → o ≠ .aborted) (log : Log) :
    Spent v (since ++ [.ended r.version o])
      (c.settle r (Task.leaveRun (c.world.entered r) r o log)) := by
  have hb : SameBooks (c.saving.leave r.version o)
      (c.settle r (Task.leaveRun (c.world.entered r) r o log)).saving :=
    (SameBooks.entered c.world r).leave r.version o
  refine ⟨?_, ?_, ?_, ?_, ?_⟩
  · intro q hq
    exact h.runs q (List.mem_filter.1 hq).1
  · rw [hb.version, AutoSave.leave_version]
    exact h.version
  · rw [hb.pending]
    by_cases hv : r.version = v
    · rw [AutoSave.leave_pending (ho hv)]
      exact h.pending
    · rw [AutoSave.leave_pending_of_ne h.held hv o]
      exact h.pending
  · rw [hb.held, AutoSave.leave_held]
    exact fun e he => h.held e (List.mem_filter.1 he).1
  · rw [hb.held, AutoSave.leave_held]
    by_cases hv : r.version = v
    · left
      refine List.filter_eq_nil_iff.2 fun e he => ?_
      simp [h.held e he, hv]
    · rcases h.ended with hnil | hgoes
      · left
        rw [hnil]
        rfl
      · right
        intro o' hmem
        rcases List.mem_append.1 hmem with hold | hnew
        · exact hgoes o' hold
        · obtain ⟨rfl, -⟩ := Happening.ended.inj (List.mem_singleton.1 hnew)
          exact hv rfl

/-- A turn of a run that is left is its last. -/
theorem turn (h : Spent v since c) {r : Run} (hr : r ∈ c.runs) (answer : Answer) :
    ∃ more, (c.settle r (Task.stepRun c.world r answer)).past = c.past ++ more ∧
      Spent v (since ++ more) (c.settle r (Task.stepRun c.world r answer)) := by
  have hlast : ∃ o log, (r.version = v → o ≠ .aborted) ∧
      Task.stepRun c.world r answer = Task.leaveRun (c.world.entered r) r o log := by
    by_cases hphase : r.phase = .submitting
    · obtain ⟨o, log, ho, hs⟩ := Task.stepRun_of_submitting hphase answer (w := c.world)
      exact ⟨o, log, fun _ => ho, hs⟩
    · obtain ⟨hle, hsubmits⟩ := h.runs r hr
      have hne : r.version ≠ v := fun hv => hphase (hsubmits hv)
      have hold : c.world.form.autoSave.version ≠ r.version := by
        have hv : v ≤ c.world.form.autoSave.version := h.version
        omega
      rcases Task.stepRun_of_superseded hold hphase answer with ⟨log, hs⟩ | ⟨-, log, hs⟩
      · exact ⟨_, log, fun hv => absurd hv hne, hs⟩
      · exact ⟨_, log, fun hv => absurd hv hne, hs⟩
  obtain ⟨o, log, ho, hs⟩ := hlast
  rw [hs]
  exact ⟨[.ended r.version o], rfl, h.leave ho log⟩

/-- A start finds fields to save only while the run that has submitted goes on. -/
theorem launch (h : Spent v since c) : ∃ more, c.launch.past = c.past ++ more ∧
    (Renewed v (since ++ more) ∨ Spent v (since ++ more) c.launch) := by
  rcases c.launch_cases with ⟨-, hl⟩ | ⟨hfilled, world, hl⟩
  · refine ⟨[], by rw [hl, List.append_nil], Or.inr ?_⟩
    rw [hl, List.append_nil]
    exact h.of_books ⟨rfl, rfl, rfl⟩ rfl
  · rw [hl]
    refine ⟨_, rfl, Or.inl (.started since _ [] rfl ?_)⟩
    rcases h.ended with hnil | hgoes
    · have hempty : c.saving.collected = {} := by
        unfold AutoSave.collected
        rw [hnil, h.pending]
        rfl
      rw [hempty] at hfilled
      exact absurd hfilled (by simp [Batch.isEmpty])
    · exact hgoes

/-- **Until there is a change or a start, a cue leaves nothing to be saved.** -/
theorem take (h : Spent v since c) (cue : Cue) : ∃ more, (c.take cue).past = c.past ++ more ∧
    (Renewed v (since ++ more) ∨ Spent v (since ++ more) (c.take cue)) := by
  have stays {c' : Course} (hp : c'.past = c.past) (hs : Spent v since c') :
      ∃ more, c'.past = c.past ++ more ∧
        (Renewed v (since ++ more) ∨ Spent v (since ++ more) c') :=
    ⟨[], by rw [hp, List.append_nil], Or.inr (by rw [List.append_nil]; exact hs)⟩
  have noted (name : FieldName) (op : FormOp Unit) :
      ∃ more, (c.noted name op).past = c.past ++ more ∧
        (Renewed v (since ++ more) ∨ Spent v (since ++ more) (c.noted name op)) :=
    ⟨_, rfl, Or.inl (.marked name _ (List.mem_append_right since (List.mem_singleton.2 rfl)))⟩
  cases cue with
  | mark name => exact noted name _
  | change name value => exact noted name _
  | cancel =>
    refine ⟨[.cancelled], rfl, Or.inr ⟨h.runs, Nat.le_succ_of_le h.version, h.pending, h.held, ?_⟩⟩
    refine h.ended.imp_right fun hgoes o hmem => ?_
    rcases List.mem_append.1 hmem with hold | hnew
    · exact hgoes o hold
    · exact absurd hnew (by simp)
  | flush => exact h.launch
  | fire => exact h.launch
  | host w => exact stays rfl (h.of_books (.refl _) rfl)
  | resume version answer =>
    simp only [Course.take]
    cases hrun : c.run? version with
    | none => exact stays rfl h
    | some r =>
      obtain ⟨more, hp, hs⟩ := h.turn (run?_mem hrun) answer
      exact ⟨more, hp, Or.inr hs⟩
  | crash version =>
    simp only [Course.take]
    cases hrun : c.run? version with
    | none => exact stays rfl h
    | some r => exact ⟨[.ended r.version .failed], rfl, Or.inr (h.leave (fun _ => by simp) _)⟩

/-- Whatever comes after a submission, there has been a change or an early start, or nothing is left
to be saved. -/
theorem run {w : World} {cues : List Cue} (h : Spent v since (after w cues)) (between : List Cue) :
    ∃ more, (after w (cues ++ between)).past = (after w cues).past ++ more ∧
      (Renewed v (since ++ more) ∨ Spent v (since ++ more) (after w (cues ++ between))) := by
  induction between using List.reverseRecOn with
  | nil =>
    rw [List.append_nil]
    exact ⟨[], by rw [List.append_nil], Or.inr (by rw [List.append_nil]; exact h)⟩
  | append_singleton between cue ih =>
    obtain ⟨more, hp, hnow⟩ := ih
    have hstep := (after w (cues ++ between)).take_step cue
    rw [← List.append_assoc, after_append]
    rcases hnow with hrenewed | hspent
    · obtain ⟨new, hnew⟩ := hstep.past
      refine ⟨more ++ new, by rw [hnew, hp, List.append_assoc], Or.inl ?_⟩
      rw [← List.append_assoc]
      exact hrenewed.append new
    · obtain ⟨new, hnew, hnow⟩ := hspent.take cue
      refine ⟨more ++ new, by rw [hnew, hp, List.append_assoc], ?_⟩
      rw [← List.append_assoc]
      exact hnow

end Spent

/-- **When a run submits, nothing else is left to be saved.** -/
theorem spent_of_submits (hc : Counted c) (hd : (c.runs.map Run.version).Nodup) (hf : Fresh c)
    {r : Run} (hr : r ∈ c.runs) {answer : Answer} {values : Entries}
    (hsub : Task.Submits c.world r answer values) :
    ∃ more, (c.take (.resume r.version answer)).past = c.past ++ more ∧
      Spent r.version more (c.take (.resume r.version answer)) := by
  obtain ⟨hversion, hturn⟩ := Task.stepRun_of_submits hsub
  have hlatest : c.saving.version = r.version := hversion
  obtain ⟨hpending, hheld⟩ := hf r hr hlatest
  have holder : ∀ q ∈ c.runs, q.version ≤ r.version := fun q hq => hlatest ▸ hc.version_le hq
  have hb : SameBooks c.saving (c.world.entered r).submit.2.form.autoSave := .entered c.world r
  simp only [take, run?_of_mem hd hr]
  rcases hturn with ⟨pause, a, hs⟩ | ⟨o, log, ho, hs⟩
  · rw [hs]
    refine ⟨[], (List.append_nil _).symm, ?_, ?_, hb.pending.trans hpending, ?_, Or.inr (by simp)⟩
    · intro q' hq'
      obtain ⟨q, hq, rfl⟩ := List.mem_map.1 hq'
      by_cases h : q.version = r.version
      · rw [if_pos (beq_iff_eq.2 h)]
        exact ⟨Nat.le_refl _, fun _ => rfl⟩
      · rw [if_neg (by simpa using h)]
        exact ⟨holder q hq, fun hq => absurd hq h⟩
    · exact Nat.le_of_eq (hb.version.trans hlatest).symm
    · intro e he
      have hmem : e ∈ [(r.version, r.batch)] := (hb.held.trans hheld) ▸ he
      rw [List.mem_singleton.1 hmem]
  · rw [hs]
    have hleft := hb.leave r.version o
    have hnone : (c.saving.leave r.version o).held = [] := by
      rw [AutoSave.leave_held, hheld]
      simp [Table.drop]
    refine ⟨[.ended r.version o], rfl, ?_, ?_, ?_, ?_, Or.inl (hleft.held.trans hnone)⟩
    · intro q hq
      obtain ⟨hq, hne⟩ := List.mem_filter.1 hq
      exact ⟨holder q hq, fun h => absurd h (by simpa using hne)⟩
    · exact Nat.le_of_eq (hleft.version.trans ((c.saving.leave_version _ o).trans hlatest)).symm
    · exact hleft.pending.trans ((AutoSave.leave_pending ho r.version).trans hpending)
    · intro e he
      have hmem : e ∈ ([] : Table Nat Batch) := (hleft.held.trans hnone) ▸ he
      exact absurd hmem (by simp)

/-- **Nothing is submitted twice without a reason.** Between the beginning of a submission and that
of a later one a change has been noted, or a run has started while the run of the first submission
had not ended. -/
theorem change_or_start_between_submissions (w : World) (before between : List Cue) {r q : Run}
    (hr : r ∈ (after w before).runs) {first second : Answer} {values values' : Entries}
    (hfirst : Task.Submits (after w before).world r first values)
    (hq : q ∈ (after w (before ++ [.resume r.version first] ++ between)).runs)
    (hsecond : Task.Submits (after w (before ++ [.resume r.version first] ++ between)).world q
      second values') :
    ∃ since, (after w (before ++ [.resume r.version first] ++ between)).past =
        (after w before).past ++ since ∧ Renewed r.version since := by
  obtain ⟨more, hmore, hspent⟩ := spent_of_submits (counted_after w before) (distinct_after w before)
    (fresh_after w before) hr hfirst
  rw [← after_append] at hmore hspent
  obtain ⟨later, hlater, hrenewed | hspent⟩ := hspent.run between
  · exact ⟨more ++ later, by rw [hlater, hmore, List.append_assoc], hrenewed⟩
  · exact absurd hsecond (hspent.not_submits hq second values')

end Course

/-- A form without dependent fields, in a host that takes its time to take values in. -/
def World.slow : World :=
  { World.bare with
    host := { World.bare.host with reception := fun _ => { takes := some 50 } }
    form := { World.bare.form with graph := {} } }

namespace Course

/-- A run that saves a change of `a`. -/
def changeOfA (version : Nat) : Run where
  version := version
  batch := ⟨[.text "a"], []⟩

/-- A change of `a` is saved at once. -/
def savedOnce : Course :=
  after World.slow [.mark (.text "a"), .flush]

/-- While the change is being submitted somebody saves once more. -/
def savedTwice : Course :=
  after World.slow ([.mark (.text "a"), .flush] ++
    [.resume (changeOfA 2).version (.ok .nothing)] ++ [.flush])

theorem mem_savedOnce : changeOfA 2 ∈ savedOnce.runs := by
  have hruns : savedOnce.runs = [changeOfA 2] := by cbv
  rw [hruns]
  exact List.mem_singleton.2 rfl

theorem submits_savedOnce : Task.Submits savedOnce.world (changeOfA 2) (.ok .nothing) [] := by
  unfold Task.Submits
  cbv

theorem mem_savedTwice : changeOfA 3 ∈ savedTwice.runs := by
  have hruns : savedTwice.runs = [{ changeOfA 2 with phase := .submitting }, changeOfA 3] := by cbv
  rw [hruns]
  exact List.mem_cons_of_mem _ (List.mem_singleton.2 rfl)

theorem submits_savedTwice : Task.Submits savedTwice.world (changeOfA 3) (.ok .nothing) [] := by
  unfold Task.Submits
  cbv

/-- The second save submits the change again: its run has started while the first one went on. -/
theorem change_or_start_between_submissions_flush :
    changeOfA 2 ∈ savedOnce.runs ∧
      Task.Submits savedOnce.world (changeOfA 2) (.ok .nothing) [] ∧
      changeOfA 3 ∈ savedTwice.runs ∧
      Task.Submits savedTwice.world (changeOfA 3) (.ok .nothing) [] ∧
      ∃ since, savedTwice.past = savedOnce.past ++ since ∧ Renewed (changeOfA 2).version since :=
  ⟨mem_savedOnce, submits_savedOnce, mem_savedTwice, submits_savedTwice,
    change_or_start_between_submissions World.slow _ [.flush] mem_savedOnce submits_savedOnce
      mem_savedTwice submits_savedTwice⟩

/-- No change has been noted between these two submissions, though the host takes in all values. -/
theorem not_change_between_submissions :
    ¬ ∀ (w : World) (before between : List Cue) (r q : Run) (first second : Answer)
      (values values' : Entries), (∀ n, (w.host.reception n).answer = .ok ()) →
      r ∈ (after w before).runs → Task.Submits (after w before).world r first values →
      q ∈ (after w (before ++ [.resume r.version first] ++ between)).runs →
      Task.Submits (after w (before ++ [.resume r.version first] ++ between)).world q second values' →
      ∃ since, (after w (before ++ [.resume r.version first] ++ between)).past =
          (after w before).past ++ since ∧ ∃ name affected, .marked name affected ∈ since := by
  intro h
  obtain ⟨since, hpast, name, affected, hmem⟩ := h World.slow _ [.flush] _ _ _ _ _ _
    (fun _ => rfl) mem_savedOnce submits_savedOnce mem_savedTwice submits_savedTwice
  have honce : savedOnce.past =
      [.marked (.text "a") [], .started ⟨2, ⟨[.text "a"], []⟩⟩] := by cbv
  have htwice : savedTwice.past =
      [.marked (.text "a") [], .started ⟨2, ⟨[.text "a"], []⟩⟩,
        .started ⟨3, ⟨[.text "a"], []⟩⟩] := by cbv
  have hsince : savedTwice.past = savedOnce.past ++ since := hpast
  rw [honce, htwice] at hsince
  obtain rfl : [.started ⟨3, ⟨[.text "a"], []⟩⟩] = since := by simpa using hsince
  exact absurd hmem (by simp)

end Course

end LiveForm
