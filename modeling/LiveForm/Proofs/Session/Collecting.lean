import Mathlib
import LiveForm.Proofs.Form.Reading
import LiveForm.Proofs.Session.Manual
import LiveForm.Proofs.Validation.Verdict

/-!
# Waiting to submit

Who submits a form on demand has all fields validated first, and waits until all have passed. Each
validation looks at the value that its field has when it begins, and tells the task that waits what
it has found. When that task goes on as after a success, every field had, at some moment while the
task waited, a value that meets its specifications.

* `Session.Waits`: what a task that waits to submit can rely on. As many are left to wait for as
  there are validations under way for it and reports on their way to it; and as long as all that
  ended have passed, each field has passed, or is being validated, or a failure is on its way.
* `Session.Collecting`: every task that waits can rely on this, which every event keeps
  (`Session.Collecting.happen`).
-/

namespace LiveForm

open Validation (Returns runSpec)

/-- Who is given the answer goes on as after a success. -/
def Answer.Holds (a : Answer) : Prop :=
  ∃ reply, a = .ok reply ∧ reply.holds = true

/-- The validators of a form do not depend on what has been logged, always return, and read only the
value of their own field. -/
structure OwnValued (host : Host) (d : Definition) (registry : Registry) : Prop where
  pure : host.IsPure
  returns : ∀ f, Table.has f d.fields = true →
    ∃ specs, Task.specsOf d f = .ok specs ∧ ∀ p ∈ specs, Returns host registry p
  own : ∀ f specs, Table.has f d.fields = true → Task.specsOf d f = .ok specs → ∀ p ∈ specs,
    ∀ value values values', (runSpec registry p value values).outcome host =
      (runSpec registry p value values').outcome host

namespace Session

section

variable (host : Host) (d : Definition) (registry : Registry)

/-- The value meets all specifications of the field, given some values of the form. -/
def FieldMetBy (f : FieldName) (value : Value) : Prop :=
  ∀ specs, Task.specsOf d f = .ok specs →
    ∀ p ∈ specs, Task.MetBy host registry (fun _ => True) value p

variable (seen : Session → Prop) (owner : Nat)

/-- While the task waited to submit, the field had a value that meets its specifications. -/
def Vouched (f : FieldName) : Prop :=
  ∃ s, seen s ∧ s.task? owner = some .submitPassed ∧ FieldMetBy host d registry f (s.store.value f)

/-- The task validates the field for another, which waits to submit: it has still to begin, or it
looks at a value that the field had while the other waited. -/
inductive Works (f : FieldName) : Task → Prop
  | fresh : Works f (.validateField f)
  | begun (s : Session) (specs : List Value) (t : Ticket) (question : Logged Value)
      (next : Except Fault Value → Checking Value) (rest : List Value) : seen s →
      s.task? owner = some .submitPassed → s.store.value f = t.value →
      Task.specsOf d f = .ok specs →
      Task.Examined host registry (fun _ => True) specs (.checking t question next rest) →
      Works f (.checking t question next rest)

/-- The field has passed, or it is being validated, or a failure is on its way. -/
def Covered (v : View) (f : FieldName) : Prop :=
  Vouched host d registry seen owner f ∨
    (∃ e ∈ v.kids, Works host d registry seen owner f e.2.task) ∨
    ∃ a, Turn.report owner a ∈ v.turns ∧ ¬a.Holds

/-- What a task that waits to submit can rely on. -/
structure Waits (v : View) (l : Live) : Prop where
  timers : v.timers = []
  turns : ∀ t ∈ v.turns, (∃ a, t = .report owner a) ∨ ∃ a, t = .resume owner a ∧
    l.gathering = none ∧
      (a.Holds → ∀ f, Table.has f d.fields = true → Vouched host d registry seen owner f)
  gathers : ∀ g, l.gathering = some g → g.tolerant = false ∧
    v.kids.length + v.turns.length ≤ g.left ∧ (g.passed = true →
      ∀ f, Table.has f d.fields = true → Covered host d registry seen owner v f)

/-- A task that is to submit, and has not begun, has one turn, and nobody tells it anything. -/
structure Asked (v : View) : Prop where
  kids : v.kids = []
  turns : ∃ a, v.turns = [.resume owner a]
  timers : v.timers = []

/-- If the task is to submit, it has not begun or can rely on what it waits for. -/
structure Right (v : View) : Prop where
  asked : ∀ l, v.live = some l → l.task = .submit → Asked owner v
  waits : ∀ l, v.live = some l → l.task = .submitPassed → Waits host d registry seen owner v l

/-- What is known of every task that is to submit. -/
structure Collecting (s : Session) : Prop where
  right : ∀ owner, Right host d registry seen owner (s.view owner)
  sameHost : s.world.host = host
  sameDefinition : s.world.form.definition = d
  sameRegistry : s.world.form.registry = registry

/-- Each task that waits to submit has waited in a session that has been seen, in which the fields
had the same values. -/
def Remembered (s : Session) : Prop :=
  ∀ owner, s.task? owner = some .submitPassed →
    ∃ s₀, seen s₀ ∧ s₀.task? owner = some .submitPassed ∧ s₀.store.values = s.store.values

end

variable {host : Host} {d : Definition} {registry : Registry} {seen seen' : Session → Prop}
  {s s' : Session} {id owner : Nat} {l l' : Live} {v : View} {f : FieldName}

/-! ### What is seen later -/

section

variable (hseen : ∀ s, seen s → seen' s)

include hseen

theorem Vouched.mono (h : Vouched host d registry seen owner f) :
    Vouched host d registry seen' owner f := by
  obtain ⟨s, hs, htask, hmet⟩ := h
  exact ⟨s, hseen s hs, htask, hmet⟩

theorem Works.mono {task : Task} (h : Works host d registry seen owner f task) :
    Works host d registry seen' owner f task := by
  cases h with
  | fresh => exact .fresh
  | begun s specs t question next rest hs htask hvalue hspecs hexamined =>
    exact .begun s specs t question next rest (hseen s hs) htask hvalue hspecs hexamined

theorem Covered.mono (h : Covered host d registry seen owner v f) :
    Covered host d registry seen' owner v f := by
  rcases h with hdone | ⟨e, he, hworks⟩ | hfails
  · exact .inl (hdone.mono hseen)
  · exact .inr (.inl ⟨e, he, hworks.mono hseen⟩)
  · exact .inr (.inr hfails)

theorem Right.mono (h : Right host d registry seen owner v) :
    Right host d registry seen' owner v := by
  refine ⟨h.asked, fun l hl htask => ?_⟩
  obtain ⟨htimers, hturns, hgathers⟩ := h.waits l hl htask
  refine ⟨htimers, fun t ht => ?_, fun g hg => ?_⟩
  · refine (hturns t ht).imp_right ?_
    rintro ⟨a, ha, hnone, hall⟩
    exact ⟨a, ha, hnone, fun hholds f hf => (hall hholds f hf).mono hseen⟩
  · obtain ⟨htolerant, hleft, hcovered⟩ := hgathers g hg
    exact ⟨htolerant, hleft, fun hpassed f hf => (hcovered hpassed f hf).mono hseen⟩

theorem Collecting.mono (h : Collecting host d registry seen s) :
    Collecting host d registry seen' s :=
  ⟨fun owner => (h.right owner).mono hseen, h.sameHost, h.sameDefinition, h.sameRegistry⟩

end

/-! ### Those that validate for a task -/

/-- Nothing is said of a task that is not to submit. -/
theorem Right.of_task (h : ∀ l, v.live = some l → l.task ≠ .submit ∧ l.task ≠ .submitPassed) :
    Right host d registry seen owner v :=
  ⟨fun l hl htask => absurd htask (h l hl).1, fun l hl htask => absurd htask (h l hl).2⟩

theorem Waits.right (h : Waits host d registry seen owner v l) (hl : v.live = some l)
    (htask : l.task = .submitPassed) : Right host d registry seen owner v := by
  refine ⟨fun l' hl' htask' => ?_, fun l' hl' _ => ?_⟩
  · obtain rfl := Option.some.inj (hl.symm.trans hl')
    exact nomatch htask.symm.trans htask'
  · obtain rfl := Option.some.inj (hl.symm.trans hl')
    exact h

/-- One of those that validate for a task goes on to do so. -/
theorem Right.kid_goes (h : Right host d registry seen owner v) (hkeys : (Table.keys v.kids).Nodup)
    (hkid : (id, l) ∈ v.kids) (hworks : ∀ f, Table.has f d.fields = true →
      v.live.map Live.task = some .submitPassed → Works host d registry seen owner f l.task →
      Works host d registry seen owner f l'.task) :
    Right host d registry seen owner { v with kids := Table.put id l' v.kids } := by
  refine ⟨fun lo hlo htask => ?_, fun lo hlo htask => ?_⟩
  · have hnone := (h.asked lo hlo htask).kids
    rw [hnone] at hkid
    exact nomatch hkid
  · obtain ⟨htimers, hturns, hgathers⟩ := h.waits lo hlo htask
    refine ⟨htimers, hturns, fun g hg => ?_⟩
    obtain ⟨htolerant, hleft, hcovered⟩ := hgathers g hg
    refine ⟨htolerant, ?_, fun hpassed f hf => ?_⟩
    · show (Table.put id l' v.kids).length + v.turns.length ≤ g.left
      rw [Table.length_put_old (Table.get?_of_mem hkeys hkid)]
      exact hleft
    · rcases hcovered hpassed f hf with hdone | ⟨⟨i, k⟩, he, hkworks⟩ | hfails
      · exact .inl hdone
      · refine .inr (.inl ?_)
        by_cases hi : i = id
        · subst hi
          obtain rfl := Table.eq_of_mem hkeys he hkid
          have hsome : v.live.map Live.task = some .submitPassed := by rw [hlo, ← htask]; rfl
          refine ⟨(i, l'), Table.mem_of_get? (Table.get?_put_self _ _ _), ?_⟩
          exact hworks f hf hsome hkworks
        · exact ⟨(i, k), Table.mem_put_of_ne he hi, hkworks⟩
      · exact .inr (.inr hfails)

/-- One of those that validate for a task ends, and reports. -/
theorem Right.kid_ends (h : Right host d registry seen owner v) (hkeys : (Table.keys v.kids).Nodup)
    (hkid : (id, l) ∈ v.kids) {a : Answer} (hworks : ∀ f, Table.has f d.fields = true →
      v.live.map Live.task = some .submitPassed → Works host d registry seen owner f l.task →
      a.Holds → Vouched host d registry seen owner f) :
    Right host d registry seen owner
      { v with kids := Table.drop id v.kids, turns := v.turns ++ [.report owner a] } := by
  refine ⟨fun lo hlo htask => ?_, fun lo hlo htask => ?_⟩
  · have hnone := (h.asked lo hlo htask).kids
    rw [hnone] at hkid
    exact nomatch hkid
  · obtain ⟨htimers, hturns, hgathers⟩ := h.waits lo hlo htask
    refine ⟨htimers, fun t ht => ?_, fun g hg => ?_⟩
    · rcases List.mem_append.1 ht with hold | hnew
      · exact hturns t hold
      · exact .inl ⟨a, List.mem_singleton.1 hnew⟩
    · obtain ⟨htolerant, hleft, hcovered⟩ := hgathers g hg
      refine ⟨htolerant, ?_, fun hpassed f hf => ?_⟩
      · have hdrop : (Table.drop id v.kids).length < v.kids.length :=
          List.length_filter_lt_length_iff_exists.2 ⟨_, hkid, by simp⟩
        simp only [List.length_append, List.length_singleton]
        omega
      · rcases hcovered hpassed f hf with hdone | ⟨⟨i, k⟩, he, hkworks⟩ | ⟨b, hb, hfails⟩
        · exact .inl hdone
        · by_cases hi : i = id
          · subst hi
            obtain rfl := Table.eq_of_mem hkeys he hkid
            have hsome : v.live.map Live.task = some .submitPassed := by rw [hlo, ← htask]; rfl
            by_cases hholds : a.Holds
            · exact .inl (hworks f hf hsome hkworks hholds)
            · exact .inr (.inr ⟨a, List.mem_append_right _ (List.mem_singleton.2 rfl), hholds⟩)
          · exact .inr (.inl ⟨(i, k), Table.mem_drop_of_ne he hi, hkworks⟩)
        · exact .inr (.inr ⟨b, List.mem_append_left _ hb, hfails⟩)

/-- A validation that works for a task goes on to do so, or it ends, and if it has passed, the field
had a value that meets its specifications. -/
theorem Works.goes (hown : OwnValued host d registry) (hf : Table.has f d.fields = true)
    {w : World} (hhost : w.host = host) (hdefinition : w.form.definition = d)
    (hregistry : w.form.registry = registry) (hs : seen s)
    (hwaits : s.task? owner = some .submitPassed) (hvalues : s.store.values = w.form.store.values)
    {task : Task} (h : Works host d registry seen owner f task) (busy : Kept → Bool)
    (answer : Answer) :
    (∀ duration a task', (task.step w busy answer).1 = .pause duration a task' →
        Works host d registry seen owner f task') ∧
      ∀ a, (task.step w busy answer).1 = .finish a → a.Holds →
        Vouched host d registry seen owner f := by
  -- in both cases the ticket has a value that the field had while the other task waited
  obtain ⟨s₀, specs, w₀, t, hs₀, hwaits₀, hvalue, hspecs, hgoes⟩ :
      ∃ s₀ specs w₀ t, seen s₀ ∧ s₀.task? owner = some .submitPassed ∧
        s₀.store.value f = t.value ∧ Task.specsOf d f = .ok specs ∧
        Task.Goes host registry (fun _ => True) w₀ t specs (task.step w busy answer) := by
    cases h with
    | fresh =>
      obtain ⟨specs, hspecs, hreturns⟩ := hown.returns f hf
      have hvalue : s.store.value f = w.form.store.value f := by
        unfold Store.value
        rw [hvalues]
      let t := (w.form.store.begin f (w.form.store.value f)).1
      exact ⟨s, specs, _, t, hs, hwaits, hvalue, hspecs,
        Task.examine_goes hown.pure hreturns (hdefinition.symm ▸ hspecs) hhost hregistry trivial⟩
    | begun s₀ specs t question next rest hs₀ hwaits₀ hvalue hspecs hexamined =>
      obtain ⟨specs', hspecs', hreturns⟩ := hown.returns f hf
      obtain rfl := Except.ok.inj (hspecs.symm.trans hspecs')
      exact ⟨s₀, specs, w, t, hs₀, hwaits₀, hvalue, hspecs,
        Task.checking_goes hown.pure hreturns hexamined hhost hregistry trivial busy answer⟩
  generalize task.step w busy answer = x at hgoes
  cases hgoes with
  | asks w' duration question next rest hexamined =>
    refine ⟨fun d' a task' heq => ?_, fun a heq => Next.noConfusion heq⟩
    obtain ⟨-, -, rfl⟩ := Next.pause.inj heq
    exact .begun s₀ specs t question next rest hs₀ hwaits₀ hvalue hspecs hexamined
  | passes w' _ hmet =>
    refine ⟨fun d' a task' heq => Next.noConfusion heq, fun a heq _ => ⟨s₀, hs₀, hwaits₀, ?_⟩⟩
    intro specs' hspecs'
    obtain rfl := Except.ok.inj (hspecs.symm.trans hspecs')
    rw [hvalue]
    exact hmet
  | fails w' issue _ =>
    refine ⟨fun d' a task' heq => Next.noConfusion heq, fun a heq hholds => ?_⟩
    obtain rfl := Next.finish.inj heq
    obtain ⟨reply, hreply, hholds⟩ := hholds
    obtain rfl := Except.ok.inj hreply
    exact absurd hholds Bool.false_ne_true

/-! ### A task goes on -/

/-- What is said of the other tasks when one becomes another. What it becomes matters to a task that
hears of its end. -/
theorem Right.update (h : Right host d registry seen owner (s.view owner)) (hm : s.Manual)
    (hl : Table.get? id s.live = some l) (hne : id ≠ owner) {g : Live → Live}
    (hg : (g l).listeners = l.listeners)
    (hworks : l.tells owner = true → ∀ f, Table.has f d.fields = true →
      s.task? owner = some .submitPassed → Works host d registry seen owner f l.task →
      Works host d registry seen owner f (g l).task) :
    Right host d registry seen owner ((s.update id g).view owner) := by
  rw [view_update hl hg, beq_eq_false_iff_ne.2 hne, if_neg Bool.false_ne_true]
  split
  · next htells =>
    exact h.kid_goes (hm.keys_kids owner) (mem_kids hl htells) (hworks htells)
  · exact h

/-- What is said of the other tasks when one ends. -/
theorem Right.finish (h : Right host d registry seen owner (s.view owner)) (hm : s.Manual)
    (hl : Table.get? id s.live = some l) (hne : id ≠ owner) {a : Answer}
    (hworks : ∀ f, Table.has f d.fields = true → s.task? owner = some .submitPassed →
      Works host d registry seen owner f l.task → a.Holds → Vouched host d registry seen owner f) :
    Right host d registry seen owner ((s.finish id a).view owner) := by
  rw [view_finish, hm.turns_finish hl, beq_eq_false_iff_ne.2 hne, if_neg Bool.false_ne_true]
  split
  · next htells =>
    exact h.kid_ends (hm.keys_kids owner) (mem_kids hl htells) hworks
  · next htells =>
    have hdrop : Table.drop id (s.view owner).kids = (s.view owner).kids := by
      refine List.filter_eq_self.2 fun e he => ?_
      have hkey : e.1 ≠ id := by
        rintro rfl
        exact htells (hm.tells_of_mem_kids hl he)
      simpa using hkey
    rw [hdrop, List.append_nil]
    exact h

/-- What is said of the other tasks when one goes on. -/
theorem Right.perform (h : Right host d registry seen owner (s.view owner)) (hm : s.Manual)
    (hl : Table.get? id s.live = some l) (hne : id ≠ owner) {w : World} {answer : Answer}
    {x : Next × World} (hturn : Task.ManualTurn w answer l.task x)
    (hworks : ∀ f, Table.has f d.fields = true → s.task? owner = some .submitPassed →
      Works host d registry seen owner f l.task →
      (∀ duration a task', x.1 = .pause duration a task' →
          Works host d registry seen owner f task') ∧
        ∀ a, x.1 = .finish a → a.Holds → Vouched host d registry seen owner f)
    (hout : owner < s.count) :
    Right host d registry seen owner ((s.perform id x.1).view owner) := by
  have hends : ∀ a, x.1 = .finish a →
      Right host d registry seen owner ((s.finish id a).view owner) :=
    fun a hx => h.finish hm hl hne fun f hf hsome hwork => (hworks f hf hsome hwork).2 a hx
  rcases hturn.next_cases with ⟨-, ⟨duration, a, task', hx, -⟩ | ⟨a, hx⟩⟩ |
    ⟨hcheck, hlast | ⟨names, task', hx, -⟩⟩
  · have hperform : s.perform id x.1 =
        (s.update id fun l => { l with task := task' }).pause id duration a := by rw [hx]; rfl
    rw [hperform, view_pause_of_ne _ hne]
    exact h.update hm hl hne (g := fun l => { l with task := task' }) rfl
      fun _ f hf hsome hwork => (hworks f hf hsome hwork).1 duration a task' hx
  · have hperform : s.perform id x.1 = s.finish id a := by rw [hx]; rfl
    rw [hperform]
    exact hends a hx
  · generalize x.1 = next at hlast hends
    cases hlast with
    | pause duration a =>
      have hperform : s.perform id (.pause duration a .ending) =
          (s.update id fun l => { l with task := .ending }).pause id duration a := rfl
      rw [hperform, view_pause_of_ne _ hne, hm.view_update_of_ne hl hcheck hne rfl]
      exact h
    | finish a => exact hends a rfl
  · rw [hx, hm.view_gathers hl hcheck hout, if_neg hne]
    exact h

theorem mem_fieldNames_of_has {form : Form} (h : form.definition = d)
    (hf : Table.has f d.fields = true) : f ∈ form.fieldNames := by
  refine Form.mem_fieldNames.2 ?_
  unfold Form.IsField Form.hasField
  rw [h]
  exact hf

/-- A task that pauses is found as what it has become. -/
theorem live_pause (hl : Table.get? id s.live = some l) (duration : Nat) (a : Answer)
    (task : Task) : ((s.perform id (.pause duration a task)).view id).live =
      some { l with task } := by
  have hbecome : Table.get? id (s.become id task).live = some { l with task } := by
    unfold become
    rw [get?_update, beq_self_eq_true, if_pos rfl, hl]
    rfl
  rw [← hbecome]
  show Table.get? id ((s.become id task).pause id duration a).live = _
  unfold Session.pause
  split <;> rfl

/-- A task that has just had all fields validated waits for all of them. -/
theorem waits_heard {names : List FieldName}
    (hnames : ∀ f, Table.has f d.fields = true → f ∈ names)
    (hl : l.gathering =
      some { left := (names.map Task.validateField).length, tolerant := false }) (n : Nat) :
    Waits host d registry seen owner
      ⟨some l, heard owner n (names.map .validateField), [], []⟩ l := by
  refine ⟨rfl, fun t ht => absurd ht List.not_mem_nil, fun g hg => ?_⟩
  obtain rfl := Option.some.inj (hl.symm.trans hg)
  refine ⟨rfl, Nat.le_of_eq (length_heard _ _), fun _ f hf => .inr (.inl ?_)⟩
  obtain ⟨e, he, htask⟩ : ∃ e ∈ heard owner n (names.map .validateField),
      e.2.task = .validateField f := mem_heard (List.mem_map.2 ⟨f, hnames f hf, rfl⟩)
  exact ⟨e, he, htask ▸ .fresh⟩

/-- A task that is there to submit, and has nothing to wait for yet, has all fields validated, and
waits for that. Any other task is not to submit when it goes on. -/
theorem Manual.right_self (hm : s.Manual) (hl : Table.get? id s.live = some l)
    (hfreed : l.task = .submit → (s.view id).kids = [] ∧ (s.view id).turns = [] ∧
      (s.view id).timers = [])
    {w : World} (hw : w.form.definition = d) {answer : Answer} {x : Next × World}
    (hturn : Task.ManualTurn w answer l.task x) :
    Right host d registry seen id ((s.perform id x.1).view id) := by
  have hpause : ∀ task' duration a, task' ≠ .submit → task' ≠ .submitPassed →
      Right host d registry seen id ((s.perform id (.pause duration a task')).view id) := by
    intro task' duration a hsubmit hpassed
    refine .of_task fun l' hl' => ?_
    obtain rfl := Option.some.inj ((live_pause hl duration a task').symm.trans hl')
    exact ⟨hsubmit, hpassed⟩
  have hfinish : ∀ a, Right host d registry seen id ((s.finish id a).view id) := by
    intro a
    refine .of_task fun l' hl' => ?_
    have hgone : Table.get? id (s.finish id a).live = none := Table.get?_drop_self id s.live
    exact nomatch hgone.symm.trans hl'
  rcases hturn.next_cases with ⟨-, ⟨duration, a, task', hx, hcheck'⟩ | ⟨a, hx⟩⟩ |
    ⟨hcheck, hlast | ⟨names, task', hx, htask'⟩⟩
  · rw [hx]
    refine hpause task' duration a ?_ ?_
    · rintro rfl
      exact hcheck'
    · rintro rfl
      exact hcheck'
  · rw [hx]
    exact hfinish a
  · generalize x.1 = next at hlast
    cases hlast with
    | pause duration a => exact hpause .ending duration a Task.noConfusion Task.noConfusion
    | finish a => exact hfinish a
  · rw [hx, hm.view_gathers hl hcheck (hm.lt_count hl), if_pos rfl]
    rcases htask' with rfl | ⟨hsubmit, rfl, rfl⟩
    · refine .of_task fun l' hl' => ?_
      obtain rfl := Option.some.inj hl'
      exact ⟨Task.noConfusion, Task.noConfusion⟩
    · obtain ⟨hkids, hturns, htimers⟩ := hfreed hsubmit
      rw [hkids, hturns, htimers, List.nil_append]
      exact (waits_heard (fun f => mem_fieldNames_of_has hw) rfl s.count).right rfl rfl

/-- A task with a new number is not to submit: it validates a field. -/
theorem Manual.right_new (hm : s.Manual) (hl : Table.get? id s.live = some l) {w : World}
    {answer : Answer} {x : Next × World} (hturn : Task.ManualTurn w answer l.task x)
    (hnew : s.count ≤ owner) :
    Right host d registry seen owner ((s.perform id x.1).view owner) := by
  refine .of_task fun l' hl' => ?_
  have hlt := hm.lt_count hl
  rcases (performed hm.orderly (isSome_task?_of_live hl) x.1).task_cases (task?_of_live hl') with
    ⟨rfl, -⟩ | ⟨-, hold, -⟩ | ⟨-, -, hchild⟩
  · exact absurd hlt (Nat.not_lt.2 hnew)
  · exact absurd hold (Nat.not_lt.2 hnew)
  · obtain ⟨name, hname⟩ := hturn.child hchild
    rw [hname]
    exact ⟨Task.noConfusion, Task.noConfusion⟩

/-- **A task takes its turn**: if all others were right, all are right. -/
theorem right_resume (hown : OwnValued host d registry) (hm : s.Manual)
    (hhost : s.world.host = host) (hdefinition : s.world.form.definition = d)
    (hregistry : s.world.form.registry = registry) (hremembered : Remembered seen s)
    (hothers : ∀ owner, owner ≠ id → Right host d registry seen owner (s.view owner))
    (hfreed : ∀ l, Table.get? id s.live = some l → l.task = .submit →
      (s.view id).kids = [] ∧ (s.view id).turns = [] ∧ (s.view id).timers = [])
    (answer : Answer) (owner : Nat) :
    Right host d registry seen owner ((s.resume id answer).view owner) := by
  rcases hm.resume_cases id answer with ⟨hnone, heq⟩ | ⟨l, busy, hl, hturn, heq⟩
  · rw [heq]
    by_cases hid : owner = id
    · subst hid
      exact .of_task fun l hl => nomatch hnone.symm.trans hl
    · exact hothers owner hid
  · have hm' := hm.withWorld (hm.world.calm hturn.calm)
    rw [heq]
    by_cases hid : owner = id
    · subst hid
      exact hm'.right_self hl (hfreed l hl) hdefinition hturn
    · by_cases hlt : owner < s.count
      · refine Right.perform (s := { s with world := (l.task.step s.world busy answer).2 })
          (hothers owner hid) hm' hl (Ne.symm hid) hturn ?_ hlt
        intro f hf hwaits hworks
        obtain ⟨s₀, hs₀, hwaits₀, hvalues₀⟩ := hremembered owner hwaits
        exact hworks.goes hown hf hhost hdefinition hregistry hs₀ hwaits₀ hvalues₀ busy answer
      · exact hm'.right_new hl hturn (Nat.le_of_not_lt hlt)

/-! ### A task hears of an end -/

/-- A task that is told of an end waits for the others, or goes on. -/
theorem report_cases (s : Session) (owner : Nat) (answer : Answer) :
    s.report owner answer = s ∨ ∃ g, s.report owner answer =
        s.update owner (fun l => { l with gathering := g }) ∨
      ∃ a, s.report owner answer =
        (s.update owner fun l => { l with gathering := g }).enqueue (.resume owner a) := by
  unfold report
  split
  · exact .inl rfl
  · split
    · exact .inr ⟨none, .inr ⟨_, rfl⟩⟩
    · dsimp only
      split
      · exact .inr ⟨none, .inr ⟨_, rfl⟩⟩
      · exact .inr ⟨_, .inl rfl⟩

/-- What a task does that is told of an end and does not wait through failures. -/
theorem report_of_gathering {g : Gathering} (hl : Table.get? owner s.live = some l)
    (hg : l.gathering = some g) (hg' : g.tolerant = false) (answer : Answer) :
    s.report owner answer = match answer with
      | .error f =>
        (s.update owner fun l => { l with gathering := none }).enqueue (.resume owner (.error f))
      | .ok reply =>
        if g.left ≤ 1 then
          (s.update owner fun l => { l with gathering := none }).enqueue
            (.resume owner (.ok (.passed (g.passed && reply.holds))))
        else
          s.update owner fun l =>
            { l with
              gathering :=
                some { g with left := g.left - 1, passed := g.passed && reply.holds } } := by
  unfold report
  rw [hl, Option.bind_some, hg]
  cases answer with
  | error f =>
    dsimp only
    rw [hg']
  | ok reply => rfl

/-- What is said of the other tasks when one is told of an end. -/
theorem Right.report_other (h : Right host d registry seen owner (s.view owner)) (hm : s.Manual)
    (hne : id ≠ owner) (answer : Answer) :
    Right host d registry seen owner ((s.report id answer).view owner) := by
  have hbeq : (id == owner) = false := beq_eq_false_iff_ne.2 hne
  have hupdate : ∀ g, Right host d registry seen owner
      ((s.update id fun l => { l with gathering := g }).view owner) := by
    intro g
    cases hl : Table.get? id s.live with
    | none =>
      have hsame : (s.update id fun l => { l with gathering := g }) = s := by
        unfold Session.update
        rw [hl]
      rw [hsame]
      exact h
    | some l =>
      exact h.update hm hl hne rfl fun _ _ _ _ hwork => hwork
  rcases report_cases s id answer with heq | ⟨g, heq | ⟨a, heq⟩⟩
  · rw [heq]
    exact h
  · rw [heq]
    exact hupdate g
  · rw [heq, view_enqueue_of_not _ (t := .resume id a) hbeq]
    exact hupdate g

/-- A task that waits is released when it is told of an end, and may go on as after a success if all
fields have passed. -/
theorem Waits.released {answer : Answer} (h : Waits host d registry seen owner
      { v with turns := .report owner answer :: v.turns } l) {a : Answer}
    (hall : a.Holds → ∀ f, Table.has f d.fields = true → Vouched host d registry seen owner f) :
    Waits host d registry seen owner
      ⟨some { l with gathering := none }, v.kids, v.turns ++ [.resume owner a], v.timers⟩
      { l with gathering := none } := by
  refine ⟨h.timers, fun t ht => ?_, fun g hg => nomatch hg⟩
  rcases List.mem_append.1 ht with ht | ht
  · refine (h.turns t (List.mem_cons_of_mem _ ht)).imp_right ?_
    rintro ⟨b, hb, -, hall⟩
    exact ⟨b, hb, rfl, hall⟩
  · exact .inr ⟨a, List.mem_singleton.1 ht, rfl, hall⟩

/-- When the last of those that a task waits for has passed, and all others have, no field is left
whose validation is under way. -/
theorem Waits.vouched {answer : Answer} (h : Waits host d registry seen owner
      { v with turns := .report owner answer :: v.turns } l) {g : Gathering}
    (hg : l.gathering = some g) (hlast : g.left ≤ 1) (hpassed : g.passed = true)
    (hholds : answer.Holds) (hf : Table.has f d.fields = true) :
    Vouched host d registry seen owner f := by
  obtain ⟨-, hleft, hcovered⟩ := h.gathers g hg
  have hleft : v.kids.length + (v.turns.length + 1) ≤ g.left := hleft
  have hkids : v.kids = [] := List.eq_nil_of_length_eq_zero (by omega)
  have hturns : v.turns = [] := List.eq_nil_of_length_eq_zero (by omega)
  rcases hcovered hpassed f hf with hdone | ⟨e, he, -⟩ | ⟨b, hb, hfails⟩
  · exact hdone
  · exact absurd (hkids ▸ he) List.not_mem_nil
  · have hone : Turn.report owner b ∈ [Turn.report owner answer] := hturns ▸ hb
    obtain rfl := (Turn.report.inj (List.mem_singleton.1 hone)).2
    exact absurd hholds hfails

/-- A task that waits for others beside the one that has ended goes on waiting for them. -/
theorem Waits.one_less {answer : Answer} (h : Waits host d registry seen owner
      { v with turns := .report owner answer :: v.turns } l) {g : Gathering}
    (hg : l.gathering = some g) (hmore : 1 < g.left) {passed : Bool}
    (hpassed : passed = true → g.passed = true ∧ answer.Holds) :
    Waits host d registry seen owner
      ⟨some { l with gathering := some { g with left := g.left - 1, passed } }, v.kids, v.turns,
        v.timers⟩ { l with gathering := some { g with left := g.left - 1, passed } } := by
  obtain ⟨htolerant, hleft, hcovered⟩ := h.gathers g hg
  have hleft : v.kids.length + (v.turns.length + 1) ≤ g.left := hleft
  refine ⟨h.timers, fun t ht => ?_, fun g' hg' => ?_⟩
  · refine (h.turns t (List.mem_cons_of_mem _ ht)).imp_right ?_
    rintro ⟨b, -, hnone, -⟩
    exact nomatch hg.symm.trans hnone
  · obtain rfl := Option.some.inj hg'
    refine ⟨htolerant, ?_, fun hpassed' f hf => ?_⟩
    · show v.kids.length + v.turns.length ≤ g.left - 1
      omega
    · obtain ⟨hold, hholds⟩ := hpassed hpassed'
      rcases hcovered hold f hf with hdone | hworks | ⟨b, hb, hfails⟩
      · exact .inl hdone
      · exact .inr (.inl hworks)
      · refine .inr (.inr ⟨b, (List.mem_cons.1 hb).resolve_left fun heq => ?_, hfails⟩)
        obtain rfl := (Turn.report.inj heq).2
        exact hfails hholds

/-- What is said of a task that waits to submit when it is told of an end: it waits for the others,
or goes on. -/
theorem Waits.report (hm : s.Manual) (hl : Table.get? owner s.live = some l) {answer : Answer}
    (htask : l.task = .submitPassed) (h : Waits host d registry seen owner
      { s.view owner with turns := .report owner answer :: (s.view owner).turns } l) :
    Right host d registry seen owner ((s.report owner answer).view owner) := by
  have hview : ∀ g, (s.update owner fun l => { l with gathering := g }).view owner =
      ⟨some { l with gathering := g }, (s.view owner).kids, (s.view owner).turns,
        (s.view owner).timers⟩ := by
    intro g
    rw [view_update (f := fun l => { l with gathering := g }) hl rfl,
      hm.tells_eq_false hl (by rw [htask]; exact id), if_neg Bool.false_ne_true,
      beq_self_eq_true, if_pos rfl]
  have hgoes : ∀ a : Answer,
      (a.Holds → ∀ f, Table.has f d.fields = true → Vouched host d registry seen owner f) →
      Right host d registry seen owner (((s.update owner fun l => { l with gathering := none }
        ).enqueue (.resume owner a)).view owner) := by
    intro a hall
    have hconcerns : [Turn.resume owner a].filter (Turn.concerns owner) = [.resume owner a] :=
      List.filter_cons_of_pos (beq_self_eq_true owner)
    rw [view_enqueue, hview none, hconcerns]
    exact (h.released hall).right rfl htask
  cases hg : l.gathering with
  | none =>
    have hsame : s.report owner answer = s := by
      unfold Session.report
      rw [hl, Option.bind_some, hg]
    rw [hsame]
    refine Waits.right ⟨h.timers, fun t ht => h.turns t (List.mem_cons_of_mem _ ht), ?_⟩ hl htask
    exact fun g hg' => nomatch hg.symm.trans hg'
  | some g =>
    rw [report_of_gathering hl hg (h.gathers g hg).1]
    cases answer with
    | error e =>
      refine hgoes _ ?_
      rintro ⟨reply, hreply, -⟩
      exact nomatch hreply
    | ok reply =>
      dsimp only
      split
      · next hlast =>
        refine hgoes _ fun hholds f hf => ?_
        obtain ⟨_, hreply, hholds⟩ := hholds
        obtain rfl := Except.ok.inj hreply
        obtain ⟨hpassed, hholds⟩ := Bool.and_eq_true_iff.1 hholds
        exact h.vouched hg hlast hpassed ⟨reply, rfl, hholds⟩ hf
      · next hmore =>
        rw [hview]
        refine (h.one_less hg (Nat.lt_of_not_le hmore) fun hpassed => ?_).right rfl htask
        obtain ⟨hpassed, hholds⟩ := Bool.and_eq_true_iff.1 hpassed
        exact ⟨hpassed, reply, rfl, hholds⟩

/-- What is said of a task when it is told of an end. -/
theorem Right.report_self (hm : s.Manual) {answer : Answer} (h : Right host d registry seen owner
      { s.view owner with turns := .report owner answer :: (s.view owner).turns }) :
    Right host d registry seen owner ((s.report owner answer).view owner) := by
  obtain ⟨more, hshuffled, -⟩ := report_shuffled s owner answer
  have htask : ∀ l', ((s.report owner answer).view owner).live = some l' →
      ∃ l, Table.get? owner s.live = some l ∧ l.task = l'.task := by
    intro l' hl'
    have hsame : (s.report owner answer).task? owner = s.task? owner := hshuffled.task owner
    exact exists_live_of_task? (hsame.symm.trans (task?_of_live hl'))
  refine ⟨fun l' hl' hsubmit => ?_, fun l' hl' hpassed => ?_⟩
  · obtain ⟨l, hl, heq⟩ := htask l' hl'
    obtain ⟨-, ⟨a, ha⟩, -⟩ := h.asked l hl (heq.trans hsubmit)
    exact nomatch (List.cons.inj ha).1
  · obtain ⟨l, hl, heq⟩ := htask l' hl'
    have hwaits := h.waits l hl (heq.trans hpassed)
    exact (hwaits.report hm hl (heq.trans hpassed)).waits l' hl' hpassed

/-- A task whose pause is over is not to submit. -/
theorem Right.of_wake (h : Right host d registry seen owner v) {a : Answer}
    (hwake : .wake owner a ∈ v.turns) (hl : v.live = some l) :
    l.task ≠ .submit ∧ l.task ≠ .submitPassed := by
  constructor
  · intro htask
    obtain ⟨-, ⟨b, hb⟩, -⟩ := h.asked l hl htask
    rw [hb] at hwake
    exact nomatch List.mem_singleton.1 hwake
  · intro htask
    rcases (h.waits l hl htask).turns _ hwake with ⟨b, hb⟩ | ⟨b, hb, -⟩
    · exact nomatch hb
    · exact nomatch hb

/-! ### Turns and events -/

theorem Collecting.calm (h : Collecting host d registry seen s) (hcalm : s.world.Calm s'.world)
    (hright : ∀ owner, Right host d registry seen owner (s'.view owner)) :
    Collecting host d registry seen s' :=
  ⟨hright, hcalm.host.trans h.sameHost, hcalm.definition.trans h.sameDefinition,
    hcalm.registry.trans h.sameRegistry⟩

/-- What is said of those that a turn does not concern. -/
theorem Collecting.pop (h : Collecting host d registry seen s) {t : Turn} {rest : List Turn}
    (hq : s.queue = t :: rest) (howner : t.concerns owner = false) :
    Right host d registry seen owner (view { s with queue := rest } owner) := by
  rw [view_pop_of_not hq howner]
  exact h.right owner

/-- **A turn is taken.** -/
theorem Collecting.take (h : Collecting host d registry seen s) (hown : OwnValued host d registry)
    (hm : s.Manual) (hs : seen s) {t : Turn} {rest : List Turn} (hq : s.queue = t :: rest) :
    Collecting host d registry seen (Session.take { s with queue := rest } t) := by
  have hpop := hm.pop hq
  cases t with
  | resume id a =>
    refine h.calm (hpop.resume_calm id a) (right_resume hown hpop h.sameHost h.sameDefinition
      h.sameRegistry (fun owner howner => ⟨s, hs, howner, rfl⟩) ?_ ?_ a)
    · exact fun owner hne => h.pop hq (beq_eq_false_iff_ne.2 (Ne.symm hne))
    · intro l hl htask
      obtain ⟨hkids, ⟨b, hturns⟩, htimers⟩ := (h.right id).asked l hl htask
      rw [turns_pop hq (beq_self_eq_true id)] at hturns
      exact ⟨hkids, (List.cons.inj hturns).2, htimers⟩
  | wake id a =>
    refine h.calm (.of_form rfl rfl) fun owner => ?_
    by_cases hid : id = owner
    · subst hid
      have hwake : Turn.wake id a ∈ (s.view id).turns := by
        rw [turns_pop hq (beq_self_eq_true id)]
        exact List.mem_cons_self
      exact .of_task fun l hl => (h.right id).of_wake hwake hl
    · have hbeq := beq_eq_false_iff_ne.2 hid
      have hview : (Session.enqueue { s with queue := rest } (.resume id a)).view owner =
          view { s with queue := rest } owner := view_enqueue_of_not _ hbeq
      exact hview ▸ h.pop hq hbeq
  | forget kept id =>
    have hworld : (Session.take { s with queue := rest } (.forget kept id)).world = s.world := by
      cases kept <;> rfl
    refine h.calm
      (.of_form (congrArg World.host hworld) (congrArg World.form hworld)) fun owner => ?_
    have hview : (Session.take { s with queue := rest } (.forget kept id)).view owner =
        view { s with queue := rest } owner := view_withKept kept _
    exact hview ▸ h.pop hq rfl
  | report id a =>
    obtain ⟨more, hshuffled, -⟩ := report_shuffled { s with queue := rest } id a
    have hworld : (Session.report { s with queue := rest } id a).world = s.world :=
      hshuffled.world
    refine h.calm
      (.of_form (congrArg World.host hworld) (congrArg World.form hworld)) fun owner => ?_
    by_cases hid : id = owner
    · subst hid
      have hview : s.view id = { view { s with queue := rest } id with
          turns := .report id a :: (view { s with queue := rest } id).turns } :=
        congrArg (View.mk _ _ · _) (turns_pop hq (beq_self_eq_true id))
      exact Right.report_self hpop (hview ▸ h.right id)
    · exact (h.pop hq (beq_eq_false_iff_ne.2 hid)).report_other hpop hid a
  | save =>
    have hsame : Session.take { s with queue := rest } .save = { s with queue := rest } :=
      hpop.startRun
    rw [hsame]
    exact h.calm (.of_form rfl rfl) fun owner => h.pop hq rfl

/-- A field is changed. Nobody hears of the validations that begin with that. -/
theorem Collecting.change (h : Collecting host d registry seen s) (hm : s.Manual)
    (name : FieldName) (value : Value) :
    Collecting host d registry seen (s.happen (.change name value)) := by
  have hedited := hm.changed name value
  let s₁ : Session :=
    { s with world := (s.world.runForm (Form.changeField s.world.host name value)).2 }
  have hspawned := spawned_takeUp (s := s₁) hm.unused
  have hright : ∀ owner, Right host d registry seen owner (s₁.takeUp.view owner) := by
    intro owner
    by_cases hlt : owner < s.count
    · have hview : s₁.takeUp.view owner = s.view owner :=
        view_takeUp (s := s₁) hm.unused (.inl hlt)
      exact hview ▸ h.right owner
    · -- a task with a new number validates what has been changed
      refine .of_task fun l hl => ?_
      have htask : s₁.takeUp.task? owner = some l.task := task?_of_live hl
      rcases hspawned.task_cases htask with hold | ⟨-, hnew⟩
      · have hno : s.task? owner = none :=
          task?_eq_none_iff.2 (hm.unused owner (Nat.le_of_not_lt hlt))
        exact nomatch hno.symm.trans hold
      · obtain ⟨t, -, ht⟩ := List.mem_map.1 hnew
        rw [← ht]
        exact ⟨Task.noConfusion, Task.noConfusion⟩
  have hworld := hspawned.world
  refine ⟨hright, ?_, ?_, ?_⟩
  · exact (congrArg World.host hworld).trans h.sameHost
  · exact (congrArg (fun w => w.form.definition) hworld).trans
      (hedited.definition.trans h.sameDefinition)
  · exact (congrArg (fun w => w.form.registry) hworld).trans
      (hedited.registry.trans h.sameRegistry)

/-- A task is asked for that is done in turn. If it is to submit, it has its turn, and nobody tells
it anything. -/
theorem Collecting.launch (h : Collecting host d registry seen s) (hm : s.Manual) {task : Task}
    (htask : task.IsAsked) : Collecting host d registry seen (s.happen (.launch task)) := by
  have hnone := hm.unused s.count (Nat.le_refl _)
  refine h.calm (.of_form rfl rfl) fun owner => ?_
  by_cases hid : s.count = owner
  · subst hid
    have hview : (s.happen (.launch task)).view s.count = ⟨some { task, listeners := [] }, [],
        [.resume s.count (.ok .nothing)], []⟩ := by
      show ((s.add task []).2.enqueue (.resume s.count (.ok .nothing))).view s.count = _
      rw [view_enqueue, view_add hnone, hm.fresh s.count (Nat.le_refl _)]
      simp [Turn.concerns, Live.tells]
    rw [hview]
    refine ⟨fun l hl _ => ⟨rfl, ⟨_, rfl⟩, rfl⟩, fun l hl hpassed => ?_⟩
    obtain rfl := Option.some.inj hl
    obtain rfl : task = .submitPassed := hpassed
    exact False.elim htask
  · have hview : (s.happen (.launch task)).view owner = s.view owner :=
      view_spawn_of_not hnone hid rfl task
    exact hview ▸ h.right owner

/-- A task is asked for that is begun at once. -/
theorem Collecting.ask (h : Collecting host d registry seen s) (hown : OwnValued host d registry)
    (hm : s.Manual) (hs : seen s) {task : Task} (htask : task.IsAsked) :
    Collecting host d registry seen (s.happen (.ask task)) := by
  have hnone := hm.unused s.count (Nat.le_refl _)
  have hadded := (hm.asked htask).1
  have hother : ∀ owner, owner ≠ s.count → (s.add task []).2.view owner = s.view owner :=
    fun owner hne => view_add_of_not hnone (Ne.symm hne) rfl task
  refine h.calm (hadded.resume_calm _ _) (right_resume hown hadded h.sameHost h.sameDefinition
    h.sameRegistry ?_ (fun owner hne => hother owner hne ▸ h.right owner) ?_ _)
  · intro owner howner
    by_cases hid : owner = s.count
    · subst hid
      rw [task?_add_self] at howner
      obtain rfl := Option.some.inj howner
      exact False.elim htask
    · have hlive := congrArg View.live (hother owner hid)
      exact ⟨s, hs, (congrArg (Option.map Live.task) hlive).symm.trans howner, rfl⟩
  · intro l _ _
    have hview : (s.add task []).2.view s.count =
        ⟨some { task, listeners := [] }, [], [], []⟩ := by
      rw [view_add hnone, hm.fresh s.count (Nat.le_refl _)]
      simp [Live.tells]
    have hid : (s.add task []).1 = s.count := rfl
    rw [hid, hview]
    exact ⟨rfl, rfl, rfl⟩

/-- What is due has come. Who is to submit has no pauses. -/
theorem Collecting.expire (h : Collecting host d registry seen s) (hm : s.Manual) :
    Collecting host d registry seen s.expire := by
  refine h.calm (.of_form rfl rfl) fun owner => ?_
  have hsame : (s.view owner).timers = [] →
      Right host d registry seen owner (s.expire.view owner) := by
    intro htimers
    rw [view_expire hm.saveDue htimers]
    exact h.right owner
  refine ⟨fun l hl htask => ?_, fun l hl htask => ?_⟩
  · exact (hsame ((h.right owner).asked l hl htask).timers).asked l hl htask
  · exact (hsame ((h.right owner).waits l hl htask).timers).waits l hl htask

/-- **Whatever happens**, it is known of every task that is to submit what it can rely on. -/
theorem Collecting.happen (h : Collecting host d registry seen s) (hown : OwnValued host d registry)
    (hm : s.Manual) (hs : seen s) {e : Event} (he : e.IsManual) :
    Collecting host d registry seen (s.happen e) := by
  cases e with
  | change name value => exact h.change hm name value
  | cancel => exact ⟨h.right, h.sameHost, h.sameDefinition, h.sameRegistry⟩
  | launch task => exact h.launch hm he
  | ask task => exact h.ask hown hm hs he
  | turn =>
    unfold Session.happen
    cases hq : s.queue with
    | nil => exact h
    | cons t rest => exact h.take hown hm hs hq
  | expire => exact h.expire hm
  | pass t => exact ⟨h.right, h.sameHost, h.sameDefinition, h.sameRegistry⟩

end Session

end LiveForm
