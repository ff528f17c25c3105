import Mathlib
import LiveForm.Proofs.Form.Edits
import LiveForm.Proofs.Session.Sound
import LiveForm.Proofs.Session.Views
import LiveForm.Proofs.Validation.Finding

/-!
# Forms that do not save themselves

In a form that does not save itself nothing is noted for a save, and no run goes on. The tasks
validate fields, or wait for such validations and then may submit the values (`Task.ManualTurn`).
Who tells another of its end validates a field, and tells that one task only (`Session.Manual`).
-/

namespace LiveForm

namespace Form

/-- What a change does to a form that does not save itself: the form is edited. -/
theorem changeField_edited_unsaved (host : Host) {f : Form} (hauto : f.definition.autoSave = false)
    (name : FieldName) (v : Value) (log : Log) :
    Edited f ((changeField host name v).runOn f log).2.1 := by
  unfold changeField
  rw [FormOp.runOn_bind, FormOp.runOn_look]
  cases hfield : f.field name with
  | error e => exact .refl f
  | ok field =>
    have hname : f.IsField name := by
      unfold Form.field at hfield
      split at hfield
      · next found => simp [IsField, hasField, Table.has, found]
      · exact nomatch hfield
    simp only [Logged.ofExcept]
    refine Edited.get_bind ?_
    rw [hauto, if_neg Bool.false_ne_true]
    exact Edited.bind (setValue_edited hname v true log) fun _ f' log' _ =>
      aftermath_edited host name f' log'

end Form

namespace World

/-- The host and the form are the same but for what the store knows of validations and of what has
been submitted. -/
structure Calm (w w' : World) : Prop where
  host : w'.host = w.host
  definition : w'.form.definition = w.form.definition
  registry : w'.form.registry = w.form.registry
  clock : w'.form.clock = w.form.clock
  autoSave : w'.form.autoSave = w.form.autoSave
  values : w'.form.store.values = w.form.store.values
  waiting : w'.form.store.waiting = w.form.store.waiting

namespace Calm

variable {w w' w'' : World}

theorem of_store {store : Store} (hhost : w'.host = w.host)
    (hform : w'.form = { w.form with store }) (hvalues : store.values = w.form.store.values)
    (hwaiting : store.waiting = w.form.store.waiting) : w.Calm w' := by
  refine ⟨hhost, ?_, ?_, ?_, ?_, ?_, ?_⟩
  all_goals rw [hform]
  · exact hvalues
  · exact hwaiting

theorem of_form (hhost : w'.host = w.host) (hform : w'.form = w.form) : w.Calm w' :=
  .of_store hhost hform rfl rfl

theorem trans (h : w.Calm w') (g : w'.Calm w'') : w.Calm w'' where
  host := g.host.trans h.host
  definition := g.definition.trans h.definition
  registry := g.registry.trans h.registry
  clock := g.clock.trans h.clock
  autoSave := g.autoSave.trans h.autoSave
  values := g.values.trans h.values
  waiting := g.waiting.trans h.waiting

end Calm

/-- The form does not save itself, time passes, and nothing waits to be validated. -/
structure Unsaved (w : World) : Prop where
  auto : w.form.definition.autoSave = false
  clock : w.form.clock.isSome = true
  timer : w.form.autoSave.timer = none
  waiting : w.form.store.waiting = []

theorem Unsaved.calm {w w' : World} (h : w.Unsaved) (hw : w.Calm w') : w'.Unsaved where
  auto := hw.definition ▸ h.auto
  clock := hw.clock ▸ h.clock
  timer := hw.autoSave ▸ h.timer
  waiting := hw.waiting.trans h.waiting

end World

/-! ### Turns -/

namespace Task

/-- What a user asks of a form that does not save itself. -/
def IsAsked : Task → Prop
  | .sleep _ | .validateField _ | .validate _ | .submit => True
  | _ => False

/-- The task validates one field. -/
def IsCheck : Task → Prop
  | .started _ | .checking .. | .validateField _ => True
  | _ => False

/-- A task that goes on in a form that does not save itself. -/
def IsManual : Task → Prop
  | .run _ | .flush | .saveNow | .waitIdle | .waitRuns => False
  | _ => True

theorem IsAsked.isManual {task : Task} (h : task.IsAsked) : task.IsManual := by
  cases task with
  | sleep duration => trivial
  | validateField name => trivial
  | validate names => trivial
  | submit => trivial
  | _ => exact False.elim h

/-- The task ends, or pauses before it does. -/
inductive Last : Next → Prop
  | pause (duration : Nat) (a : Answer) : Last (.pause duration a .ending)
  | finish (a : Answer) : Last (.finish a)

/-- What a task of a form that does not save itself does in its turn: it validates a field, or has
fields validated, or submits the values, or it is about to end. -/
inductive ManualTurn (w : World) (answer : Answer) : Task → Next × World → Prop
  | checks (task : Task) (t : Ticket) (x : Next × World) : task.IsCheck →
      task.worksOn? w = some t → CheckTurn (task.opened w) t x → ManualTurn w answer task x
  | validates (names : List FieldName) : names ≠ [] →
      ManualTurn w answer (.validate names) (gatherFields names .ending, w)
  | submits : w.form.fieldNames ≠ [] →
      ManualTurn w answer .submit (gatherFields w.form.fieldNames .submitPassed, w)
  | submitsAtOnce : w.form.fieldNames = [] → ManualTurn w answer .submit (submitIf w true)
  | submitsPassed (reply : Reply) : answer = .ok reply → reply.holds = true →
      ManualTurn w answer .submitPassed (submitIf w true)
  | rests (task : Task) (next : Next) (w' : World) : ¬task.IsCheck → Last next → w'.host = w.host →
      w'.form = w.form → ManualTurn w answer task (next, w')

variable {w : World} {answer : Answer} {task : Task} {x : Next × World}

/-- A task that validates a field works on a validation. -/
theorem IsCheck.turn (h : task.IsCheck) (w : World) (busy : Kept → Bool) (answer : Answer) :
    ManualTurn w answer task (task.step w busy answer) := by
  have husual : task.IsUsual := by
    cases task with
    | started t => trivial
    | checking t question next rest => trivial
    | validateField name => trivial
    | _ => exact False.elim h
  rcases (step_turn w busy husual answer).check_cases with ⟨t, ht, hcheck⟩ | ⟨name, rfl, hcheck⟩ |
    ⟨hticket, hname⟩
  · refine .checks task t _ h (by simp [worksOn?, ht]) ?_
    cases task with
    | validateField name => exact nomatch ht
    | _ => exact hcheck
  · exact .checks _ _ _ h rfl hcheck
  · cases task with
    | started t => exact nomatch hticket
    | checking t question next rest => exact nomatch hticket
    | validateField name => exact absurd rfl (hname name)
    | _ => exact False.elim h

/-- **Every turn of a task of a form that does not save itself is one of these.** -/
theorem step_manual (w : World) (busy : Kept → Bool) (h : task.IsManual) (answer : Answer) :
    ManualTurn w answer task (task.step w busy answer) := by
  cases task with
  | started t =>
    have hcheck : (started t).IsCheck := trivial
    exact hcheck.turn w busy answer
  | checking t question next rest =>
    have hcheck : (checking t question next rest).IsCheck := trivial
    exact hcheck.turn w busy answer
  | validateField name =>
    have hcheck : (validateField name).IsCheck := trivial
    exact hcheck.turn w busy answer
  | sleep duration => exact .rests _ _ w id (.pause _ _) rfl rfl
  | ending => exact .rests _ _ w id (.finish _) rfl rfl
  | validate names =>
    cases names with
    | nil => exact .rests _ _ w id (.finish _) rfl rfl
    | cons name rest => exact .validates _ (List.cons_ne_nil name rest)
  | submit =>
    cases hnames : w.form.fieldNames with
    | nil =>
      have hstep : step w busy .submit answer = submitIf w true := by
        simp only [step, hnames, List.isEmpty_nil, if_true]
      rw [hstep]
      exact .submitsAtOnce hnames
    | cons name rest =>
      have hne : w.form.fieldNames ≠ [] := hnames ▸ List.cons_ne_nil name rest
      have hstep : step w busy .submit answer =
          (gatherFields w.form.fieldNames .submitPassed, w) := by
        simp only [step, List.isEmpty_iff, if_neg hne]
      rw [hstep]
      exact .submits hne
  | submitPassed =>
    cases answer with
    | error f => exact .rests _ _ w id (.finish _) rfl rfl
    | ok reply =>
      have hstep : step w busy .submitPassed (.ok reply) = submitIf w reply.holds := rfl
      rw [hstep]
      cases hholds : reply.holds with
      | true => exact .submitsPassed reply rfl hholds
      | false => exact .rests _ _ _ id (.finish _) rfl rfl
  | _ => exact False.elim h

/-- Who submits is about to end. The values are taken down. -/
theorem submitIf_last (w : World) : Last (submitIf w true).1 ∧
    (submitIf w true).2 = w.withStore fun s => s.submit s.values := by
  unfold submitIf
  rw [Bool.not_true, if_neg Bool.false_ne_true]
  dsimp only
  split
  · exact ⟨.pause _ _, rfl⟩
  · exact ⟨.finish _, rfl⟩

/-- What the task does next: it waits for an answer, or is about to end, or has fields validated. -/
theorem ManualTurn.next_cases (h : ManualTurn w answer task x) :
    (task.IsCheck ∧
      ((∃ d a task', x.1 = .pause d a task' ∧ task'.IsCheck) ∨ ∃ a, x.1 = .finish a)) ∨
      (¬task.IsCheck ∧ (Last x.1 ∨ ∃ names task', x.1 = gatherFields names task' ∧
        (task' = .ending ∨
          task = .submit ∧ task' = .submitPassed ∧ names = w.form.fieldNames))) := by
  cases h with
  | checks _ t _ hcheck _ hturn =>
    refine .inl ⟨hcheck, ?_⟩
    cases hturn with
    | asks w' duration question next rest _ _ => exact .inl ⟨_, _, _, rfl, trivial⟩
    | ends w' found _ _ => exact .inr ⟨_, rfl⟩
  | validates names _ => exact .inr ⟨id, .inr ⟨_, _, rfl, .inl rfl⟩⟩
  | submits _ => exact .inr ⟨id, .inr ⟨_, _, rfl, .inr ⟨rfl, rfl, rfl⟩⟩⟩
  | submitsAtOnce _ => exact .inr ⟨id, .inl (submitIf_last w).1⟩
  | submitsPassed reply _ _ => exact .inr ⟨id, .inl (submitIf_last w).1⟩
  | rests _ next w' hcheck hlast _ _ => exact .inr ⟨hcheck, .inl hlast⟩

/-- Whoever is started validates a field. -/
theorem ManualTurn.child (h : ManualTurn w answer task x) {child : Task}
    (hchild : child ∈ x.1.children) : ∃ name, child = .validateField name := by
  rcases h.next_cases with ⟨-, ⟨d, a, task', hx, -⟩ | ⟨a, hx⟩⟩ | ⟨-, hlast | ⟨names, task', hx, -⟩⟩
  · rw [hx] at hchild
    exact nomatch hchild
  · rw [hx] at hchild
    exact nomatch hchild
  · generalize x.1 = next at hlast hchild
    cases hlast <;> exact nomatch hchild
  · rw [hx] at hchild
    obtain ⟨name, -, hname⟩ := List.mem_map.1 hchild
    exact ⟨name, hname.symm⟩

/-- A turn leaves the values of the form and what it has been given. -/
theorem ManualTurn.calm (h : ManualTurn w answer task x) : w.Calm x.2 := by
  have hsubmit : w.Calm (submitIf w true).2 := by
    rw [(submitIf_last w).2]
    exact .of_store rfl rfl rfl rfl
  cases h with
  | checks _ t _ _ _ hturn =>
    have hopened : w.Calm (task.opened w) := by
      cases task with
      | validateField name => exact .of_store rfl rfl rfl rfl
      | _ => exact .of_form rfl rfl
    refine hopened.trans ?_
    obtain ⟨hhost, -, ⟨hform, -⟩ | ⟨found, hform, -⟩⟩ := hturn.effect
    · exact .of_form hhost hform
    · exact .of_store hhost hform (Store.finish_values _ t found) (Store.finish_waiting _ t found)
  | validates names _ => exact .of_form rfl rfl
  | submits _ => exact .of_form rfl rfl
  | submitsAtOnce _ => exact hsubmit
  | submitsPassed reply _ _ => exact hsubmit
  | rests _ next w' _ _ hhost hform => exact .of_form hhost hform

/-- Only a task that is there to submit does so, and it submits the values of the form. It has been
told that the fields have passed, or there are no fields. -/
theorem ManualTurn.submitted (h : ManualTurn w answer task x) :
    x.2.form.store.submitted = w.form.store.submitted ∨
      (x.2.form.store.submitted = w.form.store.submitted ++ [w.form.store.values] ∧
        (w.form.fieldNames = [] ∨
          task = .submitPassed ∧ ∃ reply, answer = .ok reply ∧ reply.holds = true)) := by
  have hsubmit : (submitIf w true).2.form.store.submitted =
      w.form.store.submitted ++ [w.form.store.values] := by
    rw [(submitIf_last w).2]
    rfl
  cases h with
  | checks _ t _ _ _ hturn =>
    have hopened : (task.opened w).form.store.submitted = w.form.store.submitted := by
      cases task <;> rfl
    exact .inl (hturn.submitted.trans hopened)
  | validates names _ => exact .inl rfl
  | submits _ => exact .inl rfl
  | submitsAtOnce hnames => exact .inr ⟨hsubmit, .inl hnames⟩
  | submitsPassed reply hanswer hholds => exact .inr ⟨hsubmit, .inr ⟨rfl, reply, hanswer, hholds⟩⟩
  | rests _ next w' _ _ _ hform => exact .inl (by rw [hform])

end Task

/-! ### Sessions -/

/-- The task goes on in a form that does not save itself. If anybody hears of its end, it validates
a field, and it is the form that hears of it or one task that waits for several. -/
structure Live.Manual (l : Live) : Prop where
  task : l.task.IsManual
  heard : l.listeners = [] ∨ (l.task.IsCheck ∧
    ∃ listener, l.listeners = [listener] ∧ ∀ owner, listener ≠ .follower owner)

/-- What may happen in a session of a form that does not save itself: fields are changed, and it is
asked to validate or to submit. -/
def Event.IsManual : Event → Prop
  | .launch task => task.IsAsked
  | .ask task => task.IsAsked
  | _ => True

namespace Session

variable {s s' : Session} {id owner : Nat} {l : Live}

/-- A session of a form that does not save itself. Tasks that there have not been concern nobody. -/
structure Manual (s : Session) : Prop where
  world : s.world.Unsaved
  keys : (Table.keys s.live).Nodup
  lives : ∀ id l, (id, l) ∈ s.live → l.Manual
  fresh : ∀ owner, s.count ≤ owner → s.view owner = {}

namespace Manual

theorem unused (h : s.Manual) : ∀ i, s.count ≤ i → Table.get? i s.live = none :=
  fun i hi => congrArg View.live (h.fresh i hi)

theorem lt_count (h : s.Manual) (hl : Table.get? id s.live = some l) : id < s.count := by
  by_contra hle
  exact nomatch (h.unused id (Nat.le_of_not_lt hle)).symm.trans hl

/-- Who hears of the end of a task is one that there has been. -/
theorem owner_lt (h : s.Manual) (hl : Table.get? id s.live = some l)
    (htells : l.tells owner = true) : owner < s.count := by
  by_contra hle
  have hmem : (id, l) ∈ (s.view owner).kids := mem_kids hl htells
  rw [h.fresh owner (Nat.le_of_not_lt hle)] at hmem
  exact nomatch hmem

theorem withWorld (h : s.Manual) {w : World} (hw : w.Unsaved) : Manual { s with world := w } :=
  ⟨hw, h.keys, h.lives, h.fresh⟩

theorem enqueue (h : s.Manual) {t : Turn}
    (ht : ∀ owner, s.count ≤ owner → t.concerns owner = false) : (s.enqueue t).Manual :=
  ⟨h.world, h.keys, h.lives, fun owner howner =>
    (view_enqueue_of_not s (ht owner howner)).trans (h.fresh owner howner)⟩

/-- A turn is taken from the queue. -/
theorem pop (h : s.Manual) {t : Turn} {rest : List Turn} (hq : s.queue = t :: rest) :
    Manual { s with queue := rest } := by
  refine ⟨h.world, h.keys, h.lives, fun owner howner => ?_⟩
  have hfresh := h.fresh owner howner
  rw [← hfresh]
  refine view_pop_of_not hq ?_
  by_contra hconcerns
  have hturns := turns_pop hq (Bool.eq_true_of_not_eq_false hconcerns)
  rw [hfresh] at hturns
  exact nomatch hturns

/-- The turns in the queue concern tasks that there have been. -/
theorem concerns_lt (h : s.Manual) {t : Turn} {rest : List Turn} (hq : s.queue = t :: rest)
    (ht : t.concerns owner = true) : owner < s.count := by
  by_contra hle
  have hturns := turns_pop hq ht
  rw [h.fresh owner (Nat.le_of_not_lt hle)] at hturns
  exact nomatch hturns

/-- The numbers in a session of a form that does not save itself are those of tasks that there have
been. -/
theorem orderly (hm : s.Manual) : s.Orderly := by
  refine ⟨hm.unused, fun t ht => ?_, fun t ht => ?_, ?_⟩
  · have hold : ∀ i, t.concerns i = true → i < s.count := by
      intro i hi
      by_contra hle
      have hmem : t ∈ (s.view i).turns := List.mem_filter.2 ⟨ht, hi⟩
      rw [hm.fresh i (Nat.le_of_not_lt hle)] at hmem
      exact nomatch hmem
    cases t with
    | resume id a => exact hold id (beq_self_eq_true id)
    | wake id a => exact hold id (beq_self_eq_true id)
    | _ => trivial
  · by_contra hle
    have hmem : t ∈ (s.view t.id).timers := List.mem_filter.2 ⟨ht, beq_self_eq_true t.id⟩
    rw [hm.fresh t.id (Nat.le_of_not_lt hle)] at hmem
    exact nomatch hmem
  · rintro owner id ⟨l, hl, hmem⟩
    rcases (hm.lives id l (Table.mem_of_get? hl)).heard with hnone | ⟨-, listener, hone, hfollower⟩
    · rw [hnone] at hmem
      exact nomatch hmem
    · rw [hone] at hmem
      exact absurd (List.mem_singleton.1 hmem).symm (hfollower owner)

theorem withKept (h : s.Manual) (kept : Kept) (f : List Nat → List Nat) :
    (s.withKept kept f).Manual := by
  cases kept with
  | validations => exact ⟨h.world, h.keys, h.lives, h.fresh⟩
  | runs => exact ⟨h.world, h.keys, h.lives, h.fresh⟩

theorem update (h : s.Manual) (hl : Table.get? id s.live = some l) {f : Live → Live}
    (hf : (f l).listeners = l.listeners) (hmanual : (f l).Manual) : (s.update id f).Manual := by
  have hupdate : s.update id f = { s with live := Table.put id (f l) s.live } := by
    unfold Session.update
    rw [hl]
  refine ⟨?_, ?_, ?_, ?_⟩
  · rw [update_world]
    exact h.world
  · rw [hupdate]
    exact Table.nodup_keys_put h.keys id (f l)
  · intro i l' hmem
    rw [hupdate] at hmem
    rcases Table.mem_put hmem with rfl | hold
    · exact hmanual
    · exact h.lives i l' hold
  · intro owner howner
    rw [update_count] at howner
    have hne : (id == owner) = false :=
      beq_eq_false_iff_ne.2 (Nat.ne_of_lt (Nat.lt_of_lt_of_le (h.lt_count hl) howner))
    have htells : ¬l.tells owner = true :=
      fun htells => absurd (h.owner_lt hl htells) (Nat.not_lt.2 howner)
    rw [view_update hl hf, hne, if_neg Bool.false_ne_true, if_neg htells]
    exact h.fresh owner howner

/-- A task is added, of whose end only the form or tasks that there have been hear. -/
theorem add (h : s.Manual) {task : Task} {listeners : List Listener}
    (hmanual : Live.Manual { task, listeners })
    (hlisteners : ∀ owner, s.count ≤ owner → listeners.any (Listener.tells owner) = false) :
    (s.add task listeners).2.Manual := by
  have hnone := h.unused s.count (Nat.le_refl _)
  refine ⟨h.world, Table.nodup_keys_put h.keys _ _, ?_, ?_⟩
  · intro i l' hmem
    rcases Table.mem_put hmem with rfl | hold
    · exact hmanual
    · exact h.lives i l' hold
  · intro owner howner
    have hle : s.count + 1 ≤ owner := howner
    rw [view_add_of_not hnone (by omega) (hlisteners owner (by omega))]
    exact h.fresh owner (by omega)

theorem spawn (h : s.Manual) {task : Task} {listeners : List Listener}
    (hmanual : Live.Manual { task, listeners })
    (hlisteners : ∀ owner, s.count ≤ owner → listeners.any (Listener.tells owner) = false) :
    (s.spawn task listeners).2.Manual := by
  refine (h.add hmanual hlisteners).enqueue fun owner howner => ?_
  exact beq_eq_false_iff_ne.2 (Nat.ne_of_lt howner)

/-- Tasks are added to validate fields for a task. -/
theorem children (h : s.Manual) (hid : id < s.count) (names : List FieldName) :
    ((names.map Task.validateField).foldl
      (fun s child => (s.spawn child [.gatherer id]).2) s).Manual := by
  induction names generalizing s with
  | nil => exact h
  | cons name rest ih =>
    have hmanual : Live.Manual { task := .validateField name, listeners := [.gatherer id] } :=
      ⟨trivial, .inr ⟨trivial, _, rfl, fun _ => Listener.noConfusion⟩⟩
    have hspawned := h.spawn hmanual fun owner howner => by
      have hne : (id == owner) = false := beq_eq_false_iff_ne.2 (by omega)
      simp [Listener.tells, hne]
    exact ih hspawned (Nat.lt_succ_of_lt hid)

/-- The validations that a change has begun are put in the queue. -/
theorem takeUp (h : s.cleared.Manual) : s.takeUp.Manual := by
  have hstarted : ∀ (tickets : List Ticket) (s : Session), s.Manual →
      (tickets.foldl (fun s t => s.spawnKept .validations (.started t) []) s).Manual := by
    intro tickets
    induction tickets with
    | nil => exact fun _ h => h
    | cons t rest ih =>
      intro s h
      have hmanual : Live.Manual { task := .started t, listeners := [.keeper .validations] } :=
        ⟨trivial, .inr ⟨trivial, _, rfl, fun _ => Listener.noConfusion⟩⟩
      exact ih _ ((h.spawn hmanual fun _ _ => rfl).withKept .validations (· ++ [s.count]))
  exact hstarted _ s.cleared h

theorem pause (h : s.Manual) (hid : id < s.count) (duration : Nat) (answer : Answer) :
    (s.pause id duration answer).Manual := by
  have hview : ∀ owner, s.count ≤ owner → (s.pause id duration answer).view owner = {} := by
    intro owner howner
    rw [view_pause_of_ne s (by omega)]
    exact h.fresh owner howner
  unfold Session.pause at hview ⊢
  split at hview
  · next hzero =>
    rw [if_pos hzero]
    exact ⟨h.world, h.keys, h.lives, hview⟩
  · next hpos =>
    rw [if_neg hpos]
    exact ⟨h.world, h.keys, h.lives, hview⟩

/-- The turns in which a task tells others of its end. -/
theorem turns_finish (h : s.Manual) (hl : Table.get? id s.live = some l) (answer : Answer) :
    ((((Table.get? id s.live).map Live.listeners).getD []).map (Listener.turn id answer)).filter
      (Turn.concerns owner) = if l.tells owner then [.report owner answer] else [] := by
  rw [hl]
  show (l.listeners.map (Listener.turn id answer)).filter (Turn.concerns owner) = _
  unfold Live.tells
  rcases (h.lives id l (Table.mem_of_get? hl)).heard with hnone | ⟨-, listener, hone, hfollower⟩
  · rw [hnone]
    rfl
  · rw [hone]
    cases listener with
    | keeper kept => rfl
    | follower o => exact absurd rfl (hfollower o)
    | gatherer o =>
      show [Turn.report o answer].filter (Turn.concerns owner) =
        if ([Listener.gatherer o].any (Listener.tells owner)) = true then _ else _
      have htells : [Listener.gatherer o].any (Listener.tells owner) = (o == owner) :=
        Bool.or_false _
      rw [htells, List.filter_singleton]
      show (bif o == owner then _ else _) = _
      by_cases ho : o = owner
      · simp [ho]
      · simp [beq_eq_false_iff_ne.2 ho]

theorem finish (h : s.Manual) (hl : Table.get? id s.live = some l) (answer : Answer) :
    (s.finish id answer).Manual := by
  refine ⟨h.world, Table.nodup_keys_drop h.keys id,
    fun i l' hmem => h.lives i l' (List.mem_filter.1 hmem).1, ?_⟩
  intro owner howner
  have htells : ¬l.tells owner = true :=
    fun htells => absurd (h.owner_lt hl htells) (Nat.not_lt.2 howner)
  rw [view_finish, h.turns_finish hl, if_neg htells, h.fresh owner howner]
  simp [Table.drop]

/-- A task that is about to end does so, or pauses. -/
theorem performLast (h : s.Manual) (hl : Table.get? id s.live = some l) {next : Next}
    (hnext : Task.Last next) (hheard : l.listeners = []) : (s.perform id next).Manual := by
  cases hnext with
  | pause duration a =>
    have hbecome := h.update (f := fun l => { l with task := .ending }) hl rfl
      ⟨trivial, .inl hheard⟩
    exact hbecome.pause (by rw [update_count]; exact h.lt_count hl) duration a
  | finish a => exact h.finish hl a

/-- **A task goes on**, as its turn says. -/
theorem perform (h : s.Manual) (hl : Table.get? id s.live = some l) {w : World} {answer : Answer}
    {x : Next × World} (hturn : Task.ManualTurn w answer l.task x) : (s.perform id x.1).Manual := by
  have hlive := h.lives id l (Table.mem_of_get? hl)
  have hid := h.lt_count hl
  rcases hturn.next_cases with ⟨-, ⟨d, a, task', hx, hcheck'⟩ | ⟨a, hx⟩⟩ | ⟨hcheck, hcases⟩
  · have hmanual : Live.Manual { l with task := task' } := by
      refine ⟨?_, ?_⟩
      · cases task' with
        | started t => trivial
        | checking t question next rest => trivial
        | validateField name => trivial
        | _ => exact False.elim hcheck'
      · exact hlive.heard.imp_right fun hone => ⟨hcheck', hone.2⟩
    rw [hx]
    exact (h.update (f := fun l => { l with task := task' }) hl rfl hmanual).pause
      (by rw [update_count]; exact hid) d a
  · rw [hx]
    exact h.finish hl a
  · have hheard : l.listeners = [] := hlive.heard.resolve_right fun hone => hcheck hone.1
    rcases hcases with hlast | ⟨names, task', hx, htask'⟩
    · exact h.performLast hl hlast hheard
    · have hmanual' : task'.IsManual := by
        rcases htask' with rfl | ⟨-, rfl, -⟩
        · trivial
        · trivial
      rw [hx]
      have hbecome := h.update
        (f := fun l => { l with
          task := task'
          gathering := some { left := (names.map Task.validateField).length, tolerant := false } })
        hl rfl ⟨hmanual', .inl hheard⟩
      exact hbecome.children (by rw [update_count]; exact hid) names

/-- Whoever has a turn goes on in a turn of a form that does not save itself, or has ended. -/
theorem resume_cases (h : s.Manual) (id : Nat) (answer : Answer) :
    (Table.get? id s.live = none ∧ s.resume id answer = s) ∨
      ∃ l busy, Table.get? id s.live = some l ∧
        Task.ManualTurn s.world answer l.task (l.task.step s.world busy answer) ∧
        s.resume id answer = Session.perform { s with world := (l.task.step s.world busy answer).2 }
          id (l.task.step s.world busy answer).1 := by
  cases hl : Table.get? id s.live with
  | none =>
    refine .inl ⟨rfl, ?_⟩
    unfold Session.resume
    rw [hl]
  | some l =>
    refine .inr ⟨l, _, rfl, ?_, resume_of_live hl answer⟩
    exact Task.step_manual s.world _ (h.lives id l (Table.mem_of_get? hl)).task answer

theorem resume (h : s.Manual) (id : Nat) (answer : Answer) : (s.resume id answer).Manual := by
  rcases h.resume_cases id answer with ⟨-, heq⟩ | ⟨l, busy, hl, hturn, heq⟩
  · rw [heq]
    exact h
  · have hworld := h.withWorld (h.world.calm hturn.calm)
    rw [heq]
    exact hworld.perform hl hturn

theorem resume_calm (hm : s.Manual) (id : Nat) (answer : Answer) :
    s.world.Calm (s.resume id answer).world := by
  rcases hm.resume_cases id answer with ⟨-, heq⟩ | ⟨l, busy, hl, hturn, heq⟩
  · rw [heq]
    exact .of_form rfl rfl
  · have hm' := hm.withWorld (hm.world.calm hturn.calm)
    rw [heq, (performed hm'.orderly (isSome_task?_of_live hl) _).world]
    exact hturn.calm

theorem report (h : s.Manual) (owner : Nat) (answer : Answer) : (s.report owner answer).Manual := by
  cases hl : Table.get? owner s.live with
  | none =>
    have heq : s.report owner answer = s := by
      unfold Session.report
      rw [hl]
      rfl
    rw [heq]
    exact h
  | some l =>
    have hlive := h.lives owner l (Table.mem_of_get? hl)
    have hid := h.lt_count hl
    have hupdate : ∀ g, (s.update owner fun l => { l with gathering := g }).Manual :=
      fun g => h.update (f := fun l => { l with gathering := g }) hl rfl ⟨hlive.task, hlive.heard⟩
    have hresume : ∀ a, ((s.update owner fun l => { l with gathering := none }).enqueue
        (.resume owner a)).Manual := by
      intro a
      refine (hupdate none).enqueue fun o ho => ?_
      rw [update_count] at ho
      exact beq_eq_false_iff_ne.2 (by omega)
    unfold Session.report
    rw [hl]
    cases hg : l.gathering with
    | none =>
      simp only [Option.bind_some, hg]
      exact h
    | some g =>
      simp only [Option.bind_some, hg]
      split
      · exact hresume _
      · split
        · exact hresume _
        · exact hupdate _

/-! ### What others see of a task -/

theorem unused_update (h : s.Manual) (id : Nat) (g : Live → Live) :
    ∀ i, (s.update id g).count ≤ i → Table.get? i (s.update id g).live = none := by
  intro i hi
  rw [update_count] at hi
  rw [get?_update, h.unused i hi]
  exact ite_self none

/-- Those that tell a task of their end have numbers of their own. -/
theorem keys_kids (h : s.Manual) (owner : Nat) : (Table.keys (s.view owner).kids).Nodup :=
  h.keys.sublist (List.filter_sublist.map _)

/-- Nobody hears of the end of a task that does not validate a field. -/
theorem tells_eq_false (h : s.Manual) (hl : Table.get? id s.live = some l)
    (hcheck : ¬l.task.IsCheck) : l.tells owner = false := by
  unfold Live.tells
  rw [(h.lives id l (Table.mem_of_get? hl)).heard.resolve_right fun hone => hcheck hone.1]
  rfl

theorem tells_of_mem_kids (h : s.Manual) (hl : Table.get? id s.live = some l) {l' : Live}
    (hmem : (id, l') ∈ (s.view owner).kids) : l.tells owner = true := by
  obtain ⟨hlive, htells⟩ := List.mem_filter.1 hmem
  obtain rfl := Table.eq_of_mem h.keys hlive (Table.mem_of_get? hl)
  exact htells

/-- What becomes of a task that does not validate a field does not concern the others. -/
theorem view_update_of_ne (hm : s.Manual) (hl : Table.get? id s.live = some l)
    (hcheck : ¬l.task.IsCheck) (hne : id ≠ owner) {g : Live → Live}
    (hg : (g l).listeners = l.listeners) : (s.update id g).view owner = s.view owner := by
  rw [view_update hl hg, hm.tells_eq_false hl hcheck, if_neg Bool.false_ne_true,
    beq_eq_false_iff_ne.2 hne, if_neg Bool.false_ne_true]

/-- A task that has fields validated hears of their ends, and nobody else does. -/
theorem view_gathers (hm : s.Manual) (hl : Table.get? id s.live = some l)
    (hcheck : ¬l.task.IsCheck) (hout : owner < s.count) (names : List FieldName) (task : Task) :
    (s.perform id (Task.gatherFields names task)).view owner =
      if id = owner then
        ⟨some { l with
            task
            gathering :=
              some { left := (names.map Task.validateField).length, tolerant := false } },
          (s.view owner).kids ++ heard owner s.count (names.map .validateField),
          (s.view owner).turns, (s.view owner).timers⟩
      else s.view owner := by
  let g : Live → Live := fun l =>
    { l with
      task
      gathering := some { left := (names.map Task.validateField).length, tolerant := false } }
  have hperform : s.perform id (Task.gatherFields names task) = (names.map .validateField).foldl
      (fun s child => (s.spawn child [.gatherer id]).2) (s.update id g) := rfl
  rw [hperform, view_children (hm.unused_update id g) (.inl (by rw [update_count]; exact hout))]
  split
  · next hid =>
    subst hid
    rw [view_update hl rfl, hm.tells_eq_false hl hcheck, if_neg Bool.false_ne_true,
      beq_self_eq_true, if_pos rfl, update_count]
  · next hne =>
    rw [hm.view_update_of_ne hl hcheck hne rfl, List.append_nil]

/-! ### Events -/

theorem saveDue (h : s.Manual) : s.saveDue = false := by
  unfold Session.saveDue
  rw [h.world.timer]
  rfl

theorem startRun (h : s.Manual) : s.startRun = s := by
  unfold Session.startRun
  rw [h.saveDue]
  rfl

theorem take (h : s.Manual) {t : Turn} {rest : List Turn} (hq : s.queue = t :: rest) :
    (Session.take { s with queue := rest } t).Manual := by
  have hpop := h.pop hq
  cases t with
  | resume id a => exact hpop.resume id a
  | wake id a =>
    have hid : id < s.count := h.concerns_lt hq (beq_self_eq_true id)
    refine hpop.enqueue fun owner howner => ?_
    exact beq_eq_false_iff_ne.2 (Nat.ne_of_lt (Nat.lt_of_lt_of_le hid howner))
  | forget kept id => exact hpop.withKept kept _
  | report owner a => exact hpop.report owner a
  | save =>
    show (Session.startRun { s with queue := rest }).Manual
    rw [hpop.startRun]
    exact hpop

theorem expire (h : s.Manual) : s.expire.Manual := by
  refine ⟨h.world, h.keys, h.lives, fun owner howner => ?_⟩
  have hfresh := h.fresh owner howner
  rw [view_expire h.saveDue (by rw [hfresh]), hfresh]

/-- After a change nothing but values, marks and validations is different. -/
theorem changed (h : s.Manual) (name : FieldName) (v : Value) :
    Form.Edited s.world.form
      (s.world.runForm (Form.changeField s.world.host name v)).2.form :=
  Form.changeField_edited_unsaved s.world.host h.world.auto name v s.world.log

theorem change (h : s.Manual) (name : FieldName) (v : Value) :
    (s.happen (.change name v)).Manual := by
  have hedited := h.changed name v
  refine takeUp (s := { s with
    world := (s.world.runForm (Form.changeField s.world.host name v)).2 }) (h.withWorld ?_)
  refine ⟨?_, ?_, ?_, rfl⟩
  · exact hedited.definition ▸ h.world.auto
  · exact hedited.clock ▸ h.world.clock
  · exact hedited.autoSave ▸ h.world.timer

/-- A task that is asked for may be added. -/
theorem asked (h : s.Manual) {task : Task} (htask : task.IsAsked) :
    (s.add task []).2.Manual ∧ (s.spawn task []).2.Manual :=
  have hmanual : Live.Manual { task, listeners := [] } := ⟨htask.isManual, .inl rfl⟩
  ⟨h.add hmanual fun _ _ => rfl, h.spawn hmanual fun _ _ => rfl⟩

/-- **Whatever happens, the session stays one of a form that does not save itself.** -/
theorem happen (h : s.Manual) {e : Event} (he : e.IsManual) : (s.happen e).Manual := by
  cases e with
  | change name v => exact h.change name v
  | cancel => exact h.withWorld ⟨h.world.auto, h.world.clock, rfl, h.world.waiting⟩
  | launch task => exact (h.asked he).2
  | ask task => exact (h.asked he).1.resume _ _
  | turn =>
    unfold Session.happen
    cases hq : s.queue with
    | nil => exact h
    | cons t rest => exact h.take hq
  | expire => exact h.expire
  | pass t => exact h.withWorld ⟨h.world.auto, rfl, h.world.timer, h.world.waiting⟩

end Manual

theorem New.manual {host : Host} {d : Definition} {registry : Registry} {now : Instant}
    (h : New host d registry (some now) s) (hauto : d.autoSave = false) : s.Manual := by
  refine ⟨⟨h.definition ▸ hauto, ?_, ?_, h.waiting⟩, ?_, ?_, ?_⟩
  · rw [h.clock]
    rfl
  · rw [h.autoSave]
  · rw [h.live]
    exact List.nodup_nil
  · intro id l hl
    rw [h.live] at hl
    exact nomatch hl
  · intro owner _
    unfold view
    rw [h.live, h.queue, h.timers]
    rfl

end Session

end LiveForm
