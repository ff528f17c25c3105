import Mathlib
import LiveForm.Proofs.Session.Collecting

/-!
# Submitting on demand

A form that does not save itself submits its values when it is asked to and all fields have passed.
Every value that is submitted meets the specifications of its field, unless the field was changed
while the submission waited for others: then its earlier value met them, and the later one is
submitted all the same (`Session.submits_met_or_overtaken`).
-/

namespace LiveForm

open Validation (Meets runSpec)

namespace Session

section

variable (host : Host) (d : Definition) (registry : Registry)

/-- The value meets all specifications of the field, given the values of the form. -/
def FieldMet (f : FieldName) (value : Value) (values : Entries) : Prop :=
  ∀ specs, Task.specsOf d f = .ok specs → ∀ p ∈ specs, Meets host registry p value values

/-- The session has been like that in the course of the events. -/
def Was (s : Session) (events : List Event) (x : Session) : Prop :=
  ∃ es, es <+: events ∧ s.after es = x

/-- While the task waited to submit, the field had a value that meets its specifications. The task
still waits, and now the field has another value. -/
structure Overtaken (s : Session) (events : List Event) (owner : Nat) (f : FieldName)
    (es : List Event) : Prop where
  earlier : es <+: events
  waited : (s.after es).task? owner = some .submitPassed
  waits : (s.after events).task? owner = some .submitPassed
  met : FieldMet host d registry f ((s.after es).store.value f) (s.after es).store.values
  changed : (s.after es).store.value f ≠ (s.after events).store.value f

end

section

variable {host : Host} {d : Definition} {registry : Registry} {seen : Session → Prop}
  {s : Session} {f : FieldName}

/-- What a value has met given some values it meets given any others. -/
theorem FieldMetBy.fieldMet (hown : OwnValued host d registry) (hf : Table.has f d.fields = true)
    {value : Value} (h : FieldMetBy host d registry f value) (values : Entries) :
    FieldMet host d registry f value values := by
  intro specs hspecs p hp
  obtain ⟨values', -, answer, hanswer, hpass⟩ := h specs hspecs p hp
  exact ⟨answer, (hown.own f specs hf hspecs p hp value values values').trans hanswer, hpass⟩

/-! ### Who submits -/

/-- Who submits has been told that all have passed, or there are no fields. -/
theorem Manual.resume_submitted (hm : s.Manual) (id : Nat) (answer : Answer) :
    (s.resume id answer).store.submitted = s.store.submitted ∨
      ((s.resume id answer).store.submitted = s.store.submitted ++ [s.store.values] ∧
        (s.world.form.fieldNames = [] ∨
          s.task? id = some .submitPassed ∧ answer.Holds)) := by
  rcases hm.resume_cases id answer with ⟨-, heq⟩ | ⟨l, busy, hl, hturn, heq⟩
  · rw [heq]
    exact .inl rfl
  · have hm' := hm.withWorld (hm.world.calm hturn.calm)
    have hworld : (s.resume id answer).world = (l.task.step s.world busy answer).2 := by
      rw [heq]
      exact (performed hm'.orderly (isSome_task?_of_live hl) _).world
    unfold Session.store
    rw [hworld, task?_of_live hl]
    exact hturn.submitted.imp_right (And.imp_right (Or.imp_right (And.imp_left (congrArg some))))

/-- Where there are no fields, nothing is said of them. -/
theorem Collecting.not_has_field (h : Collecting host d registry seen s)
    (hnames : s.world.form.fieldNames = []) (f : FieldName) : Table.has f d.fields ≠ true := by
  intro hf
  have hmem := mem_fieldNames_of_has h.sameDefinition hf
  rw [hnames] at hmem
  exact nomatch hmem

/-- A turn that submits lets a task go on that has waited to submit, and all fields have passed
while it waited. -/
theorem Collecting.take_submitted (h : Collecting host d registry seen s) (hm : s.Manual)
    {t : Turn} {rest : List Turn} (hq : s.queue = t :: rest)
    (hsubmits : (Session.take { s with queue := rest } t).store.submitted ≠ s.store.submitted) :
    (Session.take { s with queue := rest } t).store.submitted =
        s.store.submitted ++ [s.store.values] ∧
      ∃ owner, ∀ f, Table.has f d.fields = true →
        s.task? owner = some .submitPassed ∧ Vouched host d registry seen owner f := by
  have hpop := hm.pop hq
  cases t with
  | resume id a =>
    rcases hpop.resume_submitted id a with hsame | ⟨heq, hcases⟩
    · exact absurd hsame hsubmits
    · refine ⟨heq, id, fun f hf => ?_⟩
      rcases hcases with hnames | ⟨htask, hholds⟩
      · exact absurd hf (h.not_has_field hnames f)
      · obtain ⟨l, hl, hltask⟩ := Option.map_eq_some_iff.1 htask
        have hturn : Turn.resume id a ∈ (s.view id).turns := by
          rw [turns_pop hq (beq_self_eq_true id)]
          exact List.mem_cons_self
        rcases ((h.right id).waits l hl hltask).turns _ hturn with ⟨b, hb⟩ | ⟨b, hb, -, hall⟩
        · exact nomatch hb
        · obtain rfl := (Turn.resume.inj hb).2
          exact ⟨htask, hall hholds f hf⟩
  | wake id a => exact absurd rfl hsubmits
  | forget kept id => cases kept <;> exact absurd rfl hsubmits
  | report id a =>
    obtain ⟨more, hshuffled, -⟩ := report_shuffled { s with queue := rest } id a
    exact absurd (congrArg (fun w => w.form.store.submitted) hshuffled.world) hsubmits
  | save =>
    have hsame : Session.take { s with queue := rest } .save = { s with queue := rest } :=
      hpop.startRun
    exact absurd (by rw [hsame]) hsubmits

/-- An event that submits is such a turn, or there are no fields. -/
theorem Collecting.happen_submitted (h : Collecting host d registry seen s) (hm : s.Manual)
    {e : Event} (he : e.IsManual)
    (hsubmits : (s.happen e).store.submitted ≠ s.store.submitted) :
    (s.happen e).store.submitted = s.store.submitted ++ [s.store.values] ∧
      ∃ owner, ∀ f, Table.has f d.fields = true →
        s.task? owner = some .submitPassed ∧ Vouched host d registry seen owner f := by
  cases e with
  | change name v =>
    have hstore := (hm.changed name v).store hm.world.clock
    have hworld := (spawned_takeUp (s := { s with
      world := (s.world.runForm (Form.changeField s.world.host name v)).2 }) hm.unused).world
    refine absurd ?_ hsubmits
    exact (congrArg (fun w => w.form.store.submitted) hworld).trans hstore.submitted
  | cancel => exact absurd rfl hsubmits
  | launch task => exact absurd rfl hsubmits
  | expire => exact absurd rfl hsubmits
  | pass t => exact absurd rfl hsubmits
  | ask task =>
    rcases (hm.asked he).1.resume_submitted s.count (.ok .nothing) with hsame | ⟨heq, hcases⟩
    · exact absurd hsame hsubmits
    · refine ⟨heq, 0, fun f hf => ?_⟩
      rcases hcases with hnames | ⟨htask, -⟩
      · exact absurd hf (h.not_has_field hnames f)
      · -- who is asked to submit has not waited yet
        rw [task?_add_self] at htask
        obtain rfl := Option.some.inj htask
        exact False.elim he
  | turn =>
    unfold Session.happen at hsubmits ⊢
    cases hq : s.queue with
    | nil =>
      rw [hq] at hsubmits
      exact absurd rfl hsubmits
    | cons t rest =>
      rw [hq] at hsubmits
      exact h.take_submitted hm hq hsubmits

/-! ### The course of a session -/

/-- In a new session no task is to submit. -/
theorem New.collecting {clock : Option Instant} (h : New host d registry clock s) :
    Collecting host d registry seen s := by
  refine ⟨fun owner => .of_task fun l hl => ?_, h.host, h.definition, h.registry⟩
  have hnone : Table.get? owner s.live = none := by
    rw [h.live]
    rfl
  exact nomatch hnone.symm.trans hl

theorem collecting_after {now : Instant} (hnew : New host d registry (some now) s)
    (hauto : d.autoSave = false) (hown : OwnValued host d registry) {events : List Event}
    (hevents : ∀ e ∈ events, e.IsManual) :
    (s.after events).Manual ∧ Collecting host d registry (s.Was events) (s.after events) := by
  induction events using List.reverseRecOn with
  | nil => exact ⟨hnew.manual hauto, hnew.collecting⟩
  | append_singleton events e ih =>
    have he := hevents e (by simp)
    obtain ⟨hm, hcollecting⟩ := ih fun e he => hevents e (List.mem_append_left _ he)
    rw [after_append]
    refine ⟨hm.happen he, ?_⟩
    refine (hcollecting.happen hown hm ⟨events, List.prefix_rfl, rfl⟩ he).mono ?_
    rintro x ⟨es, hes, hx⟩
    exact ⟨es, hes.trans (List.prefix_append events [e]), hx⟩

end

/-! ### A form of one field -/

namespace Purchase

/-- The value is small, if it is a number. -/
def small : Value → Bool
  | .number (.int n) => n < 10
  | _ => true

/-- A host with a check that takes its time: a value is small. -/
def host : Host where
  callback := fun _ _ => pure .null
  check := fun _ amount _ => pure (.bool (small amount))
  delays := fun _ => [50000]

/-- The form of a purchase. It does not save itself. -/
def definition : Definition where
  name := .text "order"
  fields := [(.text "amount", { name := .text "amount", validator := .check 0 })]

/-- One piece is ordered if nothing is said. -/
def defaults : Value :=
  .map [(.text "amount", .int 1)]

/-- The store of a new form of a purchase. -/
def store : Store where
  values := [(.text "amount", .int 1)]
  defaults := [(.text "amount", .int 1)]
  messages := Validation.messagesWith []

/-- A session with a new form of a purchase. -/
def session : Session where
  world := (World.runForm
    { host
      form :=
        { definition, registry := {}, settings := {}, store, debounce := .int 1000
          clock := some 0 } } (Form.setUp host)).2

/-- The form is to be submitted. While its only field is checked, more is ordered. The task that
submits has then been told that the field has passed. -/
def course : List Event :=
  [.launch .submit, .turn, .turn, .change (.text "amount") (.int 20), .pass 50000, .expire,
    .turn, .turn, .turn, .turn]

theorem store_eq : Store.ofDefinition definition .null defaults = .ok store := by
  cbv

theorem start_eq : start host definition {} {} .null defaults (some 0) = .ok session := by
  have hblank : Form.blank definition {} {} .null defaults (some 0) = .ok
      { definition, registry := {}, settings := {}, store, debounce := .int 1000
        clock := some 0 } := by
    unfold Form.blank
    rw [store_eq]
    rfl
  have hset : (World.runForm
      { host
        form :=
          { definition, registry := {}, settings := {}, store, debounce := .int 1000
            clock := some 0 } } (Form.setUp host)).1 = .ok () := by
    cbv
  unfold start
  rw [hblank]
  simp only [bind, Except.bind]
  rw [hset]
  rfl

theorem eq_amount {f : FieldName} (hf : Table.has f definition.fields = true) :
    f = .text "amount" := by
  by_contra hne
  have hbeq : (FieldName.text "amount" == f) = false := by simpa using Ne.symm hne
  simp [definition, Table.has, Table.get?, hbeq] at hf

theorem specsOf_amount : Task.specsOf definition (.text "amount") = .ok [.check 0, .null] := rfl

theorem outcome_check (amount : Value) (values : Entries) :
    (runSpec {} (.check 0) amount values).outcome host = .ok (.bool (small amount)) := by
  cbv

theorem outcome_null (value : Value) (values : Entries) :
    (runSpec {} .null value values).outcome host = .ok (.bool true) := by
  cbv

theorem mem_specs {f : FieldName} (hf : Table.has f definition.fields = true) {specs : List Value}
    (h : Task.specsOf definition f = .ok specs) {p : Value} (hp : p ∈ specs) :
    p = .check 0 ∨ p = .null := by
  obtain rfl := eq_amount hf
  rw [specsOf_amount] at h
  obtain rfl := Except.ok.inj h
  simpa using hp

theorem ownValued : OwnValued host definition {} where
  pure := fun _ _ _ _ _ => rfl
  returns := by
    intro f hf
    obtain rfl := eq_amount hf
    refine ⟨_, specsOf_amount, fun p hp value values => ?_⟩
    rcases mem_specs hf specsOf_amount hp with rfl | rfl
    · exact ⟨_, outcome_check value values⟩
    · exact ⟨_, outcome_null value values⟩
  own := by
    intro f specs hf hspecs p hp value values values'
    rcases mem_specs hf hspecs hp with rfl | rfl
    · rw [outcome_check, outcome_check]
    · rw [outcome_null, outcome_null]

theorem course_manual : ∀ e ∈ course, e.IsManual := by
  intro e he
  fin_cases he <;> trivial

/-- The values are submitted that the form has by then. -/
theorem submits :
    (session.after course).store.submitted = [] ∧
      (session.after course).store.value (.text "amount") = .int 20 ∧
      ((session.after course).happen .turn).store.submitted = [[(.text "amount", .int 20)]] := by
  -- all at once, so that the course is gone through once
  have hall : (fun s : Session => (s.store.submitted, s.store.value (.text "amount"),
      (s.happen .turn).store.submitted)) (session.after course) =
        ([], .int 20, [[(.text "amount", .int 20)]]) := by
    cbv
  simp only [Prod.mk.injEq] at hall
  exact hall

theorem submitted_ne : ((session.after course).happen .turn).store.submitted ≠
    (session.after course).store.submitted := by
  rw [submits.1, submits.2.2]
  exact List.cons_ne_nil _ _

/-- What is submitted is not small. -/
theorem unmet : ¬FieldMet host definition {} (.text "amount")
    ((session.after course).store.value (.text "amount")) (session.after course).store.values := by
  intro hmet
  obtain ⟨answer, hanswer, hpass⟩ := hmet _ specsOf_amount (.check 0) (by simp)
  rw [submits.2.1, outcome_check] at hanswer
  obtain rfl := Except.ok.inj hanswer
  exact absurd hpass Bool.false_ne_true

end Purchase

/-! ### Submissions -/


/-- **Who submits on demand submits values that have been validated, as far as they have not been
changed meanwhile.** In a form that does not save itself, whose validators always return and depend
on the value of their field only, let anything happen, and let an event submit. What is submitted
are the values of the form, and each meets the specifications of its field; or the task that submits
has waited since a moment at which the field had another value, which met them. -/
theorem submits_met_or_overtaken {host : Host} {d : Definition} {registry : Registry} {s : Session}
    {settings : Settings} {record defaults : Value} {now : Instant}
    (hstart : start host d registry settings record defaults (some now) = .ok s)
    (hauto : d.autoSave = false) (hown : OwnValued host d registry) {events : List Event}
    (hevents : ∀ e ∈ events, e.IsManual) {e : Event} (he : e.IsManual)
    (hsubmits : ((s.after events).happen e).store.submitted ≠ (s.after events).store.submitted) :
    ((s.after events).happen e).store.submitted =
        (s.after events).store.submitted ++ [(s.after events).store.values] ∧
      ∃ owner, ∀ f, Table.has f d.fields = true →
        FieldMet host d registry f ((s.after events).store.value f) (s.after events).store.values ∨
          ∃ es, Overtaken host d registry s events owner f es := by
  obtain ⟨hm, hcollecting⟩ := collecting_after (start_new hstart) hauto hown hevents
  obtain ⟨hsubmitted, owner, hall⟩ := hcollecting.happen_submitted hm he hsubmits
  refine ⟨hsubmitted, owner, fun f hf => ?_⟩
  obtain ⟨hwaits, x, ⟨es, hes, rfl⟩, hwaited, hmet⟩ := hall f hf
  by_cases hvalue : (s.after es).store.value f = (s.after events).store.value f
  · rw [hvalue] at hmet
    exact .inl (hmet.fieldMet hown hf _)
  · exact .inr ⟨es, hes, hwaited, hwaits, hmet.fieldMet hown hf _, hvalue⟩

/-- More has been ordered while the form was to be submitted. -/
theorem submits_met_or_overtaken_purchase :
    start Purchase.host Purchase.definition {} {} .null Purchase.defaults (some 0) =
        .ok Purchase.session ∧
      Purchase.definition.autoSave = false ∧ OwnValued Purchase.host Purchase.definition {} ∧
      (∀ e ∈ Purchase.course, e.IsManual) ∧
      ((Purchase.session.after Purchase.course).happen .turn).store.submitted =
        [[(.text "amount", .int 20)]] ∧
      ∃ owner es, Overtaken Purchase.host Purchase.definition {} Purchase.session Purchase.course
        owner (.text "amount") es := by
  obtain ⟨-, owner, hall⟩ := submits_met_or_overtaken Purchase.start_eq rfl Purchase.ownValued
    Purchase.course_manual (e := .turn) trivial Purchase.submitted_ne
  obtain ⟨es, hes⟩ := (hall (.text "amount") rfl).resolve_left Purchase.unmet
  exact ⟨Purchase.start_eq, rfl, Purchase.ownValued, Purchase.course_manual, Purchase.submits.2.2,
    owner, es, hes⟩

/-- **A value may be submitted on demand that has not been validated**: not every value that is
submitted meets the specifications of its field. -/
theorem not_submits_met :
    ¬ ∀ (host : Host) (d : Definition) (registry : Registry) (settings : Settings)
      (record defaults : Value) (now : Instant) (s : Session) (events : List Event) (e : Event),
      start host d registry settings record defaults (some now) = .ok s → d.autoSave = false →
      OwnValued host d registry → (∀ e ∈ events, e.IsManual) → e.IsManual →
      ((s.after events).happen e).store.submitted ≠ (s.after events).store.submitted →
      ∀ f, Table.has f d.fields = true →
        FieldMet host d registry f ((s.after events).store.value f)
          (s.after events).store.values := by
  intro hmet
  exact Purchase.unmet (hmet _ _ _ _ _ _ _ _ _ .turn Purchase.start_eq rfl Purchase.ownValued
    Purchase.course_manual trivial Purchase.submitted_ne (.text "amount") rfl)

end Session

end LiveForm
