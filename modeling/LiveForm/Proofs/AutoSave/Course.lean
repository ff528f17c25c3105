import Mathlib
import LiveForm.Proofs.AutoSave.Moves
import LiveForm.Proofs.Form.Operation

/-!
# The course of saving

A course is the saving of a form with any number of runs under way, in any order of steps: changes,
cancellations, starts and turns of runs follow one another freely, and between two of them the host
may put everything but the saving into any state it likes. What happens is taken down. A course that
is followed by `Course.after` makes exactly the steps that the form makes itself, in whatever order
the cues give them.

`Course.take_step` says what any cue does to the saving, to the runs and to what has been taken down;
what holds of a course is shown from that alone.
-/

namespace LiveForm

/-- What happens to the saving of a form. -/
inductive Happening where
  /-- A change of a field has been noted, with the fields that depend on it. -/
  | marked (name : FieldName) (affected : FieldNames)
  | cancelled
  /-- A run has started. -/
  | started (a : Assignment)
  /-- A run has ended. -/
  | ended (version : Nat) (outcome : Outcome)

/-- What may come next. -/
inductive Cue where
  | mark (name : FieldName)
  | change (name : FieldName) (v : Value)
  | cancel
  /-- Somebody saves at once. -/
  | flush
  /-- The time of the next save has come. -/
  | fire
  /-- The host puts everything but the saving into another state. -/
  | host (w : World)
  /-- The run of a version goes on, with the answer to what it wanted. -/
  | resume (version : Nat) (answer : Answer)
  /-- Code of the host fails when the run of a version asks it. -/
  | crash (version : Nat)

/-- A course of saving: the form in its host, the runs under way, and what has happened so far,
oldest first. -/
structure Course where
  world : World
  runs : List Run := []
  past : List Happening := []

namespace Course

/-- The saving of the form. -/
def saving (c : Course) : AutoSave :=
  c.world.form.autoSave

/-- A course at its beginning: nothing has been changed or saved. -/
def start (w : World) : Course where
  world := w.withAutoSave fun _ => {}

/-- The run of a version, if it is under way. -/
def run? (c : Course) (version : Nat) : Option Run :=
  c.runs.find? (·.version == version)

/-- Takes down a change that has been noted. -/
def noted (c : Course) (name : FieldName) (op : FormOp Unit) : Course where
  world := (c.world.runForm op).2
  runs := c.runs
  past := c.past ++ [.marked name (c.world.form.graph.affectedBy name)]

/-- Starts a run, if there is anything to save. -/
def launch (c : Course) : Course :=
  match Task.saveAtOnce c.world with
  | (.follow a _, world) =>
    { world, runs := c.runs ++ [.ofAssignment a], past := c.past ++ [.started a] }
  | (_, world) => { c with world }

/-- A run stands where its turn has left it, or has ended. -/
def settle (c : Course) (r : Run) : Next × World → Course
  | (.pause _ _ (.run r'), world) | (.gather _ (.run r'), world) =>
    { c with world, runs := c.runs.map fun q => if q.version == r.version then r' else q }
  | (.finish (.ok (.saved (some o))), world) =>
    { world
      runs := c.runs.filter (·.version != r.version)
      past := c.past ++ [.ended r.version o] }
  | (_, world) => { c with world }

/-- What comes of a cue. -/
def take (c : Course) : Cue → Course
  | .mark name => c.noted name (Form.markChanged name)
  | .change name v => c.noted name (Form.saveChange name v)
  | .cancel =>
    { c with world := c.world.withAutoSave AutoSave.cancel, past := c.past ++ [.cancelled] }
  | .flush | .fire => c.launch
  | .host w => { c with world := w.withAutoSave fun _ => c.saving }
  | .resume version answer =>
    match c.run? version with
    | some r => c.settle r (Task.stepRun c.world r answer)
    | none => c
  | .crash version =>
    match c.run? version with
    | some r => c.settle r (Task.grant (c.world.entered r) r r.fail)
    | none => c

/-- What comes of cues, one after the other. -/
def after (w : World) (cues : List Cue) : Course :=
  cues.foldl take (start w)

@[simp] theorem after_nil (w : World) : after w [] = start w := rfl

@[simp] theorem after_append (w : World) (cues : List Cue) (cue : Cue) :
    after w (cues ++ [cue]) = (after w cues).take cue := by
  rw [after, List.foldl_append]
  rfl

/-- What every start has and every cue keeps holds after all cues. -/
theorem after_induction {P : Course → Prop} {w : World} (hstart : P (start w))
    (htake : ∀ c cue, P c → P (c.take cue)) (cues : List Cue) : P (after w cues) := by
  induction cues using List.reverseRecOn with
  | nil => exact hstart
  | append_singleton cues cue ih =>
    rw [after_append]
    exact htake _ _ ih

end Course

namespace Course

variable {c c' : Course}

/-- The runs of the second course are runs of the first that have gone on. -/
def RunsGoOn (c c' : Course) : Prop :=
  ∀ r' ∈ c'.runs, ∃ r ∈ c.runs, r.version = r'.version ∧ r.batch = r'.batch

theorem RunsGoOn.of_eq (h : c'.runs = c.runs) : RunsGoOn c c' := by
  intro r hr
  exact ⟨r, h ▸ hr, rfl, rfl⟩

/-- **What a cue can do.** -/
inductive Step (c c' : Course) : Prop
  | noted (name : FieldName) (affected : FieldNames) :
      SameBooks (c.saving.note name affected) c'.saving → c'.runs = c.runs →
      c'.past = c.past ++ [.marked name affected] → Step c c'
  | cancelled : SameBooks c.saving.cancel c'.saving → c'.runs = c.runs →
      c'.past = c.past ++ [.cancelled] → Step c c'
  | started (a : Assignment) : a = ⟨c.saving.version + 1, c.saving.collected⟩ →
      SameBooks { version := a.version, held := [(a.version, a.batch)] } c'.saving →
      c'.runs = c.runs ++ [.ofAssignment a] → c'.past = c.past ++ [.started a] → Step c c'
  | went : SameBooks c.saving c'.saving → RunsGoOn c c' → c'.past = c.past → Step c c'
  | ended (r : Run) (o : Outcome) : r ∈ c.runs →
      SameBooks (c.saving.leave r.version o) c'.saving →
      c'.runs = c.runs.filter (·.version != r.version) →
      c'.past = c.past ++ [.ended r.version o] → Step c c'

theorem run?_mem {c : Course} {version : Nat} {r : Run} (h : c.run? version = some r) :
    r ∈ c.runs :=
  List.mem_of_find?_eq_some h

/-- An entry of a lengthened past is an earlier entry, or the last. -/
theorem snoc_eq_append_cons {p before since : List Happening} {e a : Happening}
    (h : p ++ [e] = before ++ a :: since) :
    (before = p ∧ a = e ∧ since = []) ∨
      ∃ since', since = since' ++ [e] ∧ p = before ++ a :: since' := by
  rcases List.append_eq_append_iff.1 h with ⟨as, rfl, he⟩ | ⟨bs, rfl, hs⟩
  · cases as with
    | nil =>
      obtain ⟨rfl, rfl⟩ := List.cons.inj he
      exact Or.inl ⟨by simp, rfl, rfl⟩
    | cons x as => exact absurd (congrArg List.length he) (by simp)
  · cases bs with
    | nil =>
      obtain ⟨rfl, rfl⟩ := List.cons.inj hs
      exact Or.inl ⟨by simp, rfl, rfl⟩
    | cons x bs =>
      obtain ⟨rfl, rfl⟩ := List.cons.inj hs
      exact Or.inr ⟨bs, rfl, rfl⟩

/-! ### Changes -/

/-- Noting a change writes it into the books, whether or not a save can be scheduled. -/
theorem markChanged_books (f : Form) (log : Log) (name : FieldName) :
    SameBooks (f.autoSave.note name (f.graph.affectedBy name))
      ((Form.markChanged name).runOn f log).2.1.autoSave := by
  rw [Form.runOn_markChanged]
  cases f.clock with
  | none => exact .refl _
  | some now => exact ⟨rfl, rfl, rfl⟩

theorem saveChange_books (f : Form) (log : Log) (name : FieldName) (v : Value) :
    SameBooks (f.autoSave.note name (f.graph.affectedBy name))
      ((Form.saveChange name v).runOn f log).2.1.autoSave := by
  rw [Form.saveChange, FormOp.runOn_bind, Form.runOn_setValue]
  generalize (if (true && f.clock.isSome) = true then (f.store.write name v true).beginLater name v
    else f.store.write name v true) = store
  exact markChanged_books { f with store } log name

theorem step_noted (c : Course) (name : FieldName) (op : FormOp Unit)
    (h : SameBooks (c.saving.note name (c.world.form.graph.affectedBy name))
      (op.runOn c.world.form c.world.log).2.1.autoSave) : Step c (c.noted name op) :=
  .noted name _ h rfl rfl

/-! ### Starts -/

theorem step_launch (c : Course) : Step c c.launch := by
  unfold launch Task.saveAtOnce
  have hcollected : (c.world.withAutoSave AutoSave.disarm).form.autoSave.collected =
      c.saving.collected := rfl
  cases hs : (c.world.withAutoSave AutoSave.disarm).form.autoSave.start? with
  | none =>
    simp only [hs]
    exact .went ⟨rfl, rfl, rfl⟩ (RunsGoOn.of_eq rfl) rfl
  | some found =>
    simp only [hs]
    unfold AutoSave.start? at hs
    rw [hcollected] at hs
    split at hs
    · exact absurd hs (by simp)
    · obtain rfl := Option.some.inj hs
      exact .started _ rfl ⟨rfl, rfl, rfl⟩ rfl rfl

/-! ### Turns of runs -/

/-- What becomes of a run that goes on as another with the same fields. -/
theorem step_replace {c : Course} {r r' : Run} {w : World} (hr : r ∈ c.runs)
    (hb : SameBooks c.saving w.form.autoSave) (hv : r'.version = r.version)
    (hbatch : r'.batch = r.batch) :
    Step c { c with
      world := w, runs := c.runs.map fun q => if q.version == r.version then r' else q } := by
  refine .went hb ?_ rfl
  intro q' hq'
  obtain ⟨q, hq, rfl⟩ := List.mem_map.1 hq'
  by_cases h : q.version == r.version
  · rw [if_pos h]
    exact ⟨r, hr, hv.symm, hbatch.symm⟩
  · rw [if_neg h]
    exact ⟨q, hq, rfl, rfl⟩

theorem step_leave {c : Course} {r : Run} {w : World} (hr : r ∈ c.runs)
    (hb : SameBooks c.saving w.form.autoSave) (o : Outcome) (log : Log) :
    Step c (c.settle r (Task.leaveRun w r o log)) :=
  .ended r o hr (hb.leave r.version o) rfl rfl

/-- Whatever a run does in its turn is a step of the course. -/
theorem step_settle {c : Course} {r : Run} (hr : r ∈ c.runs) {next : Next × World}
    (h : Task.RunTurn (c.world.entered r) r next) : Step c (c.settle r next) := by
  have hb : SameBooks c.saving (c.world.entered r).form.autoSave := .entered c.world r
  cases h with
  | leaves o log => exact step_leave hr hb o log
  | settles pause a d _ _ => exact step_replace hr hb rfl rfl
  | confirms pause a p d _ _ => exact step_replace hr hb rfl rfl
  | asks _ _ _ _ => exact step_replace hr hb rfl rfl
  | submits pause a _ _ => exact step_replace hr hb rfl rfl
  | submitsAndLeaves o log _ _ =>
    have hb' : SameBooks c.saving (c.world.entered r).submit.2.form.autoSave := hb
    exact step_leave hr hb' o log

/-- **Every cue makes one of the steps.** -/
theorem take_step (c : Course) (cue : Cue) : Step c (c.take cue) := by
  cases cue with
  | mark name => exact step_noted c name _ (markChanged_books _ _ name)
  | change name v => exact step_noted c name _ (saveChange_books _ _ name v)
  | cancel => exact .cancelled (.refl _) rfl rfl
  | flush => exact step_launch c
  | fire => exact step_launch c
  | host w => exact .went (.refl _) (RunsGoOn.of_eq rfl) rfl
  | resume version answer =>
    simp only [take]
    cases h : c.run? version with
    | none => exact .went (.refl _) (RunsGoOn.of_eq rfl) rfl
    | some r => exact step_settle (run?_mem h) (Task.stepRun_turn c.world r answer)
  | crash version =>
    simp only [take]
    cases h : c.run? version with
    | none => exact .went (.refl _) (RunsGoOn.of_eq rfl) rfl
    | some r => exact step_settle (run?_mem h) (.leaves .failed _)

end Course

/-- A form without fields, in a host without code. A field `b` depends on a field `a`. -/
def World.bare : World where
  host := {
    callback := fun _ _ => pure .null
    check := fun _ _ _ => pure .null
    delays := fun _ => [] }
  form := {
    definition := {}
    registry := {}
    settings := {}
    store := {}
    debounce := .int 1000
    clock := some 0
    graph := Graph.subscribe {} (.text "a") (.text "b") }

end LiveForm
