import Mathlib
import LiveForm.Proofs.Session.Findings
import LiveForm.Proofs.Session.Gate

/-!
# What submitted values meet

A run submits the values of the form when its fields are clear. A field that only depends on what
changed has then been validated by the very values that are submitted, as the latest run has asked
for it and any change since would have made the run obsolete (`Session.Ready`). A field that changed
has been validated since its change, but possibly before a change of a field that it is subscribed
to, and is not validated again.

* `Session.history`: the stores that there have been.
* `Session.submits_met_or_outdated`: what submitted values meet.
-/

namespace LiveForm

open Store (Caught Recorded Seen)
open Validation (Meets)

namespace Session

/-- A validation of the field is about to begin, or the field has been caught up with. -/
def Attended (past : List Store) (s : Session) (f : FieldName) : Prop :=
  (∃ i, s.task? i = some (.validateField f)) ∨ Caught past s.store f

/-- A validation has begun of whatever has changed, and what the latest run has asked to be
validated is attended to. -/
structure Ready (past : List Store) (s : Session) : Prop where
  owed : ∀ f, s.world.form.autoSave.Owes f → Table.get? f s.store.latest ≠ none
  held : ∀ id r, s.task? id = some (.run r) → ∀ f ∈ r.batch.changed,
    Table.get? f s.store.latest ≠ none
  late : ∀ id r, s.task? id = some (.run r) → r.version = s.version → r.isLate →
    ∀ f ∈ r.batch.dependents, Attended past s f

section

variable {host : Host} {d : Definition} {registry : Registry} {past past' : List Store}
  {s s' : Session}

/-! ### Tasks that join, and changes -/

theorem Ready.joined (h : Ready past s) (hs : s.Sound) {more : List Task} (hj : Joined s more s')
    (hmore : ∀ t ∈ more, s.MayJoin t)
    (hcaught : ∀ f, Caught past s.store f → Caught past' s'.store f) : Ready past' s' := by
  refine ⟨?_, ?_, ?_⟩
  · intro f hf
    rw [hj.store]
    exact h.owed f (hj.steady.owes f hf)
  · intro id r hr f hf
    rw [hj.store]
    rcases hj.task id _ hr with hold | hnew
    · exact h.held id r hold f hf
    · rcases hmore _ hnew with hplain | ⟨q, hq, -, howes⟩
      · exact False.elim hplain
      · obtain rfl := Task.run.inj hq
        exact h.owed f (howes f hf)
  · intro id r hr hver hlate f hf
    rcases hj.task id _ hr with hold | hnew
    · have hle := hs.version id r hold
      have hge : s.version ≤ s'.version := hj.steady.version
      rcases h.late id r hold (by omega) hlate f hf with ⟨i, hi⟩ | hdone
      · exact Or.inl ⟨i, hj.kept i _ hi⟩
      · exact Or.inr (hcaught f hdone)
    · rcases hmore _ hnew with hplain | ⟨q, hq, hcreated, -⟩
      · exact False.elim hplain
      · obtain rfl := Task.run.inj hq
        simp [Run.isLate, hcreated] at hlate

/-- With a change a validation of the changed field has begun. -/
theorem Sound.change_begins (hs : s.Sound)
    (htext : ∀ f, s.world.form.IsField f → ∃ a, f = .text a) {name : FieldName} {v : Value}
    {w : World} {now : Instant} (hedited : Form.Edited (s.world.form.changed name v now) w.form) :
    Table.get? name (Session.takeUp { s with world := w }).store.latest ≠ none := by
  have ho : Orderly { s with world := w } := hs.orderly.withWorld w
  rw [takeUp_store ho]
  show Table.get? name w.form.store.latest ≠ none
  have hbegun := (s.store.write name v true).begin_latest name name v
  rw [if_pos (beq_self_eq_true name)] at hbegun
  rcases (hedited.store hs.clock).field_cases htext name with ⟨hsame, -⟩ | ⟨t, -, -, hlast⟩
  · rw [hsame]
    show Table.get? name ((s.store.write name v true).begin name v).2.latest ≠ none
    rw [hbegun]
    exact Option.some_ne_none _
  · rw [hlast]
    exact Option.some_ne_none _

/-- A change begins a validation of the field that it changes, and makes the runs under way
obsolete. -/
theorem Ready.changed (hdep : Dependable host d registry) (h : Ready past s) (hs : s.Sound)
    (hdefinition : s.world.form.definition = d) {name : FieldName} {v : Value} {w : World}
    {now : Instant} (hfield : s.world.form.IsField name)
    (hedited : Form.Edited (s.world.form.changed name v now) w.form) :
    Ready past' (Session.takeUp { s with world := w }) := by
  have hspawned := spawned_takeUp (s := { s with world := w }) hs.orderly.tasks
  have htext := hdep.text hdefinition
  have g := hs.change_grows htext hfield hedited
  have hsaving : (Session.takeUp { s with world := w }).world.form.autoSave =
      (s.world.form.changed name v now).autoSave := by
    rw [hspawned.world]
    exact hedited.autoSave
  have hrun : ∀ id r, (Session.takeUp { s with world := w }).task? id = some (.run r) →
      s.task? id = some (.run r) := by
    intro id r hr
    rcases hspawned.task_cases hr with hold | ⟨-, hnew⟩
    · exact hold
    · obtain ⟨ticket, -, hticket⟩ := List.mem_map.1 hnew
      exact absurd hticket (by simp)
  refine ⟨?_, ?_, ?_⟩
  · intro f hf
    rw [hsaving] at hf
    by_cases hname : f = name
    · subst hname
      exact hs.change_begins htext hedited
    · refine g.latest_ne_none (h.owed f ?_)
      rcases hf with hpending | hheld
      · rcases Names.mem_union.1 hpending with hold | hnew
        · exact Or.inl hold
        · exact absurd (List.mem_singleton.1 hnew) hname
      · exact Or.inr hheld
  · intro id r hr f hf
    exact g.latest_ne_none (h.held id r (hrun id r hr) f hf)
  · intro id r hr hver
    have hle := hs.version id r (hrun id r hr)
    have hnew : (Session.takeUp { s with world := w }).version = s.version + 1 := by
      rw [version, hsaving]
      rfl
    omega

/-! ### Turns -/

/-- A field of which a validation begins in a turn is caught up with. -/
theorem GoesOn.caught (hrecorded : Recorded past s.store) {id : Nat} {answer : Answer}
    {x : Next × World} {f : FieldName} (hgo : GoesOn s id answer (.validateField f) x s') :
    Caught (past ++ [s'.store]) s'.store f := by
  rcases hgo.turn.check_cases with ⟨t, ht, -⟩ | ⟨name, hname, hcheck⟩ | ⟨-, hname⟩
  · exact absurd ht (by simp [Task.ticket?])
  · obtain rfl := Task.validateField.inj hname
    refine hrecorded.caught_of_lt ?_ (Nat.lt_succ_self s.store.begun)
    rw [hgo.store, hcheck.store.2.1]
    show Table.get? f (s.store.begin f (s.store.value f)).2.latest = _
    rw [Store.begin_latest, if_pos (beq_self_eq_true f)]
  · exact absurd rfl (hname f)

/-- A field that is attended to stays so in every turn. -/
theorem Attended.goesOn {f : FieldName} (hf : Attended past s f) (ho : s.Orderly)
    (hrecorded : Recorded past s.store) {id : Nat} {answer : Answer} {task : Task}
    {x : Next × World} (hgo : GoesOn s id answer task x s') : Attended (past ++ [s'.store]) s' f := by
  rcases hf with ⟨i, hi⟩ | hdone
  · by_cases hid : i = id
    · subst hid
      obtain rfl := Option.some.inj (hgo.live.symm.trans hi)
      exact Or.inr (hgo.caught hrecorded)
    · exact Or.inl ⟨i, hgo.others ho hi hid⟩
  · exact Or.inr (hrecorded.caught_grow hgo.grows hgo.steady.values hdone)

/-- When a run asks for validations, they are about to begin. -/
theorem GoesOn.asked {id : Nat} {answer : Answer} {task : Task} {x : Next × World}
    (hgo : GoesOn s id answer task x s') {r : Run}
    (hx : x.1 = .gather ((FieldName.sorted r.batch.dependents).map .validateField) (.run r))
    {f : FieldName} (hf : f ∈ r.batch.dependents) :
    ∃ i, s'.task? i = some (.validateField f) := by
  obtain ⟨k, hk⟩ := List.getElem?_of_mem (FieldName.mem_sorted.2 hf)
  refine ⟨s.count + k, ?_⟩
  rw [hgo.performed.born _ (Nat.le_add_right _ _), hx]
  show ((FieldName.sorted r.batch.dependents).map Task.validateField)[s.count + k - s.count]? = _
  rw [Nat.add_sub_cancel_left, List.getElem?_map, hk]
  rfl

/-- After its own turn what the latest run has asked for is attended to. -/
theorem Ready.attended (h : Ready past s) (ho : s.Orderly) (hrecorded : Recorded past s.store)
    {id : Nat} {answer : Answer} {task : Task} {x : Next × World}
    (hgo : GoesOn s id answer task x s') {r : Run} (hr : x.1.task? = some (.run r)) (hlate : r.isLate) {f : FieldName}
    (hf : f ∈ r.batch.dependents) : Attended (past ++ [s'.store]) s' f := by
  obtain ⟨q, rfl, hrun⟩ := hgo.turn.runTurn hr
  obtain ⟨hver, hbatch, hcases⟩ := hrun.goes_on hr
  rw [s.world.entered_version] at hver
  rcases hcases with ⟨-, ⟨d, hphase⟩, -⟩ | ⟨hl, -⟩ | ⟨-, -, -, -, hx⟩ | hphase
  · simp [Run.isLate, hphase] at hlate
  · rw [hbatch] at hf
    exact (h.late id q hgo.live hver.symm hl f hf).goesOn ho hrecorded hgo
  · rw [← hbatch] at hx
    exact Or.inl (hgo.asked hx hf)
  · simp [Run.isLate, hphase] at hlate

theorem Ready.goesOn (h : Ready past s) (hs : s.Sound) (hrecorded : Recorded past s.store)
    {id : Nat} {answer : Answer} {task : Task} {x : Next × World}
    (hgo : GoesOn s id answer task x s') : Ready (past ++ [s'.store]) s' := by
  have hp := hgo.performed
  refine ⟨?_, ?_, ?_⟩
  · intro f hf
    exact hgo.grows.latest_ne_none (h.owed f (hgo.steady.owes f hf))
  · intro i r hr f hf
    refine hgo.grows.latest_ne_none ?_
    rcases hp.task_cases hr with ⟨rfl, hself⟩ | ⟨-, -, hold⟩ | ⟨-, -, hchild⟩
    · obtain ⟨q, rfl, -, hbatch⟩ := hgo.turn.task_run hself
      exact h.held i q hgo.live f (hbatch ▸ hf)
    · exact h.held i r hold f hf
    · -- a run that has just started is to save what has changed
      rcases hgo.turn.child hchild with ⟨-, -, -, -, name, -, hname⟩ | ⟨-, a, saving, hstart, -, hx⟩
      · exact absurd hname (by simp)
      · rw [hx] at hchild
        obtain rfl := Task.run.inj (List.mem_singleton.1 hchild)
        obtain ⟨rfl, -⟩ := AutoSave.start?_eq hstart
        exact h.owed f ((AutoSave.mem_collected _).1 hf)
  · intro i r hr hver hlate f hf
    have hversion : s.version ≤ s'.version := hgo.steady.version
    rcases hp.task_cases hr with ⟨rfl, hself⟩ | ⟨-, -, hold⟩ | ⟨hi, -, -⟩
    · exact h.attended hs.orderly hrecorded hgo hself hlate hf
    · have hle := hs.version i r hold
      exact (h.late i r hold (by omega) hlate f hf).goesOn hs.orderly hrecorded hgo
    · rcases hgo.run_cases hr with ⟨q, hq, -⟩ | ⟨-, -, -, hcreated, -⟩
      · exact absurd (hs.orderly.lt_count hq) (Nat.not_lt.2 hi)
      · simp [Run.isLate, hcreated] at hlate

/-! ### Events -/

/-- **Every event keeps ready what the latest run has asked for.** -/
theorem Ready.happen (hdep : Dependable host d registry) (h : Ready past s) (hs : s.Sound)
    (hknown : Known host d registry past s) {e : Event} (he : e.IsUsual) :
    Ready (past ++ [(s.happen e).store]) (s.happen e) := by
  have hstep := hs.happen_step he
  revert hstep
  generalize s.happen e = s'
  intro hstep
  cases hstep with
  | joins more hj hmore =>
    refine h.joined hs hj hmore fun f hf => hknown.recorded.caught_grow ?_ ?_ hf
    · rw [hj.store]
      exact .of_same rfl rfl rfl
    · rw [hj.store]
  | changes name v w now hhost hfield hedited heq =>
    rw [heq]
    exact h.changed hdep hs hknown.ofDefinition hfield hedited
  | @goesOn s₁ more id answer task x hj hmore hsound hgo =>
    have hbefore : Ready past s₁ := h.joined hs hj (fun t ht => Or.inl (hmore t ht))
      (fun f hf => hj.store.symm ▸ hf)
    exact hbefore.goesOn hsound (hj.store.symm ▸ hknown.recorded) hgo

/-- In a new session nothing has changed. -/
theorem New.ready {clock : Option Instant} (h : New host d registry clock s) :
    Ready past s := by
  have hnone := h.task?_ne_some
  refine ⟨?_, fun id r hr => absurd hr (hnone id _), fun id r hr => absurd hr (hnone id _)⟩
  intro f hf
  rw [h.autoSave] at hf
  rcases hf with hpending | ⟨e, he, -⟩
  · exact absurd hpending (by simp)
  · exact absurd he (by simp)

/-! ### The stores that there have been -/

/-- The stores that there have been in the course of events. -/
def history (s : Session) (events : List Event) : List Store :=
  events.inits.map fun es => (s.after es).store

theorem history_append (s : Session) (events : List Event) (e : Event) :
    s.history (events ++ [e]) = s.history events ++ [((s.after events).happen e).store] := by
  unfold history
  rw [List.inits_append, List.map_append, ← after_append]
  rfl

/-- A store that there has been is that after the first of the events. -/
theorem seen_history {events : List Event} {f : FieldName} {n : Nat} {values : Entries}
    (h : Seen (s.history events) f n values) :
    ∃ es, es <+: events ∧ Table.get? f (s.after es).store.latest = some n ∧
      (s.after es).store.values = values := by
  obtain ⟨st, hst, hn, hvalues⟩ := h
  obtain ⟨es, hes, rfl⟩ := List.mem_map.1 hst
  exact ⟨es, (List.mem_inits es events).1 hes, hn, hvalues⟩

/-- Whatever happens in a session of a form that saves itself, it is known what the last validations
have found, and what the latest run has asked for is attended to. -/
theorem known_after {settings : Settings} {record defaults : Value} {now : Instant}
    (hstart : start host d registry settings record defaults (some now) = .ok s)
    (hauto : d.autoSave = true) (hdep : Dependable host d registry) {events : List Event}
    (hevents : ∀ e ∈ events, e.IsUsual) :
    Known host d registry (s.history events) (s.after events) ∧
      Ready (s.history events) (s.after events) := by
  induction events using List.reverseRecOn with
  | nil => exact ⟨(start_new hstart).known, (start_new hstart).ready⟩
  | append_singleton events e ih =>
    have hbefore : ∀ e ∈ events, e.IsUsual := fun e he => hevents e (List.mem_append_left _ he)
    have he : e.IsUsual := hevents e (by simp)
    obtain ⟨hknown, hready⟩ := ih hbefore
    obtain ⟨hgated, -⟩ := gated_after hstart hauto hbefore
    rw [history_append, after_append]
    exact ⟨hknown.happen hdep hgated.sound he, hready.happen hdep hgated.sound hknown he⟩

/-! ### Submissions -/

/-- The validators of a field read only the values of the field and of those that it is subscribed
to. -/
def ReadsSubscribed (host : Host) (d : Definition) (registry : Registry) (graph : Graph) : Prop :=
  ∀ f specs, Task.specsOf d f = .ok specs → ∀ p ∈ specs, ∀ value values values',
    (∀ g, g = f ∨ g ∈ graph.subscriptionsOf f →
      Table.get? g.key values = Table.get? g.key values') →
    (Validation.runSpec registry p value values).outcome host =
      (Validation.runSpec registry p value values').outcome host

/-- After the first of the events the value of the field met the specification, and the field has
not been validated again since, but a field that it is subscribed to has changed. -/
structure Outdated (host : Host) (registry : Registry) (s : Session) (events es : List Event)
    (f : FieldName) (p : Value) : Prop where
  first : es <+: events
  last : Table.get? f (s.after es).store.latest = Table.get? f (s.after events).store.latest
  met : Meets host registry p ((s.after events).store.value f) (s.after es).store.values
  subscribed : ∃ g ∈ (s.after events).world.form.graph.subscriptionsOf f,
    Table.get? g.key (s.after es).store.values ≠ Table.get? g.key (s.after events).store.values

/-- Whatever happens, fields stay subscribed to what they are subscribed to at the start. -/
theorem graph_after {settings : Settings} {record defaults : Value} {now : Instant}
    (hstart : start host d registry settings record defaults (some now) = .ok s)
    (hauto : d.autoSave = true) {events : List Event} (hevents : ∀ e ∈ events, e.IsUsual) :
    (s.after events).world.form.graph = s.world.form.graph := by
  induction events using List.reverseRecOn with
  | nil => rfl
  | append_singleton events e ih =>
    have hbefore : ∀ e ∈ events, e.IsUsual := fun e he => hevents e (List.mem_append_left _ he)
    obtain ⟨hgated, -⟩ := gated_after hstart hauto hbefore
    rw [after_append, hgated.sound.happen_graph (hevents e (by simp))]
    exact ih hbefore

/-- A field without an error that is not being validated has met its specifications. -/
theorem Known.allMet (h : Known host d registry past s) (hs : s.Sound) {f : FieldName} {n : Nat}
    (hn : Table.get? f s.store.latest = some n) (herror : s.store.error? f = none)
    (hidle : s.store.isValidating f = false) : AllMet host d registry past s.store f n := by
  rcases h.settled f n hn with ⟨id, task, t, hid, ht, rfl, -⟩ | herr | hmet
  · have hvalidates : task.validates t.name = true := by
      unfold Task.validates
      rw [ht]
      exact beq_self_eq_true t.name
    have hpos := tally_pos hid hvalidates
    have hcount := hs.counted t.name
    have hzero := (Store.isValidating_iff _ _).1 hidle
    omega
  · rw [herror] at herr
    exact absurd herr Bool.false_ne_true
  · exact hmet

/-- Where a run may submit, the fields that only depend on what changed have been caught up with. -/
theorem Ready.caught (h : Ready past s) (hgated : s.Gated) (hprompt : s.Prompt) {id : Nat}
    {a : Answer} {rest : List Turn} (hq : s.queue = .resume id a :: rest) {r : Run}
    (hr : s.task? id = some (.run r)) (hver : s.version = r.version)
    (hmay : r.MaySubmit (Task.sight s.world)) {f : FieldName} (hf : f ∈ r.batch.dependents) :
    Caught past s.store f := by
  rcases hmay with ⟨-, -, hnone⟩ | ⟨hlate, -⟩
  · rw [hnone] at hf
    exact absurd hf (by simp)
  · rcases h.late id r hr hver.symm hlate f hf with ⟨i, hi⟩ | hdone
    · exact absurd ⟨f, hi⟩ (hgated.calm hprompt hq hr hver hlate.ne_submitting i)
    · exact hdone

end

/-! ### A form of two fields -/

namespace Stay

theorem specsOf_eq (x : Float) (f : FieldName) :
    Task.specsOf (definition x) f =
      .ok [if f = .text "departure" then .check 0 else .null, .null] := by
  by_cases harrival : f = .text "arrival"
  · subst harrival
    rfl
  · by_cases hdeparture : f = .text "departure"
    · subst hdeparture
      rfl
    · have hnone : Table.get? f (definition x).fields = none := by
        have ha : (FieldName.text "arrival" == f) = false := by simpa using Ne.symm harrival
        have hb : (FieldName.text "departure" == f) = false := by simpa using Ne.symm hdeparture
        simp [definition, Table.get?, ha, hb]
      rw [if_neg hdeparture]
      unfold Task.specsOf Definition.inputFor
      rw [hnone]
      rfl

/-- A departure is checked against the arrival. -/
theorem outcome_check (departure : Value) (values : Entries) :
    (Validation.runSpec {} (.check 0) departure values).outcome host =
      .ok (.bool (inOrder ((Table.get? (.text "arrival") values).getD .null) departure)) := by
  cbv

theorem outcome_null (value : Value) (values : Entries) :
    (Validation.runSpec {} .null value values).outcome host = .ok (.bool true) := by
  cbv

theorem mem_specs {x : Float} {f : FieldName} {specs : List Value}
    (h : Task.specsOf (definition x) f = .ok specs) {p : Value} (hp : p ∈ specs) :
    (f = .text "departure" ∧ p = .check 0) ∨ p = .null := by
  rw [specsOf_eq] at h
  obtain rfl := Except.ok.inj h
  by_cases hf : f = .text "departure"
  · simpa [hf] using hp
  · exact Or.inr (by simpa [hf] using hp)

theorem dependable (x : Float) : Dependable host (definition x) {} where
  names := by
    intro name hname
    by_contra htext
    have hne : ∀ a, (FieldName.text a == name) = false := by
      intro a
      simpa using fun heq => htext ⟨a, heq.symm⟩
    simp [definition, Table.has, Table.get?, hne] at hname
  pure := by
    intro ref value values log log'
    rfl
  returns := by
    intro name
    refine ⟨_, specsOf_eq x name, fun p hp value values => ?_⟩
    rcases mem_specs (specsOf_eq x name) hp with ⟨-, rfl⟩ | rfl
    · exact ⟨_, outcome_check value values⟩
    · exact ⟨_, outcome_null value values⟩

theorem subscriptionsOf_departure (x : Float) (wait : Number) :
    (session x wait).world.form.graph.subscriptionsOf (.text "departure") = [.text "arrival"] := by
  cbv

theorem readsSubscribed (x : Float) (wait : Number) :
    ReadsSubscribed host (definition x) {} (session x wait).world.form.graph := by
  intro f specs hspecs p hp value values values' hagree
  rcases mem_specs hspecs hp with ⟨rfl, rfl⟩ | rfl
  · have harrival := hagree (.text "arrival")
      (Or.inr (by rw [subscriptionsOf_departure]; exact List.mem_singleton.2 rfl))
    rw [outcome_check, outcome_check]
    exact congrArg (fun o => Except.ok (Value.bool (inOrder (Option.getD o .null) value))) harrival
  · rw [outcome_null, outcome_null]

/-- The run that is about to submit saves both fields. -/
theorem after_course (x : Float) (wait : Number) :
    ((session x wait).after course).store.values =
        [(.text "arrival", .int 10), (.text "departure", .int 5)] ∧
      ((session x wait).after course).queue.head? = some (.resume 3 (.ok .nothing)) ∧
      ((session x wait).after course).task? 3 = some (.run
        { version := 3
          batch := ⟨[.text "departure", .text "arrival"], [.text "departure"]⟩ }) := by
  -- all at once, so that the course is gone through once
  have hall : (fun s : Session => (s.store.values, s.queue.head?, s.task? 3))
      ((session x wait).after course) =
        ([(.text "arrival", .int 10), (.text "departure", .int 5)],
          some (.resume 3 (.ok .nothing)),
          some (.run
            { version := 3
              batch := ⟨[.text "departure", .text "arrival"], [.text "departure"]⟩ })) := by
    cbv
  simp only [Prod.mk.injEq] at hall
  exact hall

/-- The departure was checked before the arrival was given, and is not checked again. -/
theorem unmet (x : Float) (wait : Number) :
    ¬ Meets host {} (.check 0) (((session x wait).after course).store.value (.text "departure"))
      ((session x wait).after course).store.values := by
  have hvalues := (after_course x wait).1
  rintro ⟨answer, hanswer, hpass⟩
  unfold Store.value at hanswer
  rw [hvalues, outcome_check] at hanswer
  obtain rfl := Except.ok.inj hanswer
  exact absurd hpass Bool.false_ne_true

/-- The run that has its turn saves the departure because it changed. -/
theorem departure_changed {x : Float} {wait : Number} {id : Nat} {a : Answer} {rest : List Turn}
    {r : Run}
    (hq : ((session x wait).after course).queue = .resume id a :: rest)
    (hr : ((session x wait).after course).task? id = some (.run r)) :
    .text "departure" ∈ r.batch.changed := by
  obtain ⟨-, hhead, hrun⟩ := after_course x wait
  rw [hq] at hhead
  obtain ⟨rfl, -⟩ := Turn.resume.inj (Option.some.inj hhead)
  obtain rfl := Task.run.inj (Option.some.inj (hr.symm.trans hrun))
  simp

end Stay

/-! ### What submitted values meet -/

/-- **What submitted values meet.** In a session of a form that saves itself, in which validators
always return and read only the values of the field and of those that it is subscribed to: whatever
its user changes, calls off or asks for, and however long validations take, the values that a run
submits meet every specification of every field of the run, changed or affected, unless the field
itself changed and what it is subscribed to has changed since its last validation, by which it met
the specification. -/
theorem submits_met_or_outdated {host : Host} {d : Definition} {registry : Registry}
    {settings : Settings} {record defaults : Value} {now : Instant} {s : Session}
    (hstart : start host d registry settings record defaults (some now) = .ok s)
    (hauto : d.autoSave = true) (hdep : Dependable host d registry)
    (hreads : ReadsSubscribed host d registry s.world.form.graph) {events : List Event}
    (hevents : ∀ e ∈ events, e.IsUsual) {e : Event} (he : e.IsUsual)
    (hsubmits : ((s.after events).happen e).store.submitted ≠ (s.after events).store.submitted) :
    ∃ id a rest r, e = .turn ∧ (s.after events).queue = .resume id a :: rest ∧
      (s.after events).task? id = some (.run r) ∧
      ((s.after events).happen e).store.submitted =
        (s.after events).store.submitted ++ [(s.after events).store.values] ∧
      ∀ f, f ∈ r.batch.changed ∨ f ∈ r.batch.affected →
        ∀ specs, Task.specsOf d f = .ok specs → ∀ p ∈ specs,
          Meets host registry p ((s.after events).store.value f) (s.after events).store.values ∨
            (f ∈ r.batch.changed ∧ ∃ es, Outdated host registry s events es f p) := by
  obtain ⟨hgated, hprompt⟩ := gated_after hstart hauto hevents
  obtain ⟨hknown, hready⟩ := known_after hstart hauto hdep hevents
  rw [← graph_after hstart hauto hevents] at hreads
  rcases hgated.sound.happen_submitted he with
    hsame | ⟨id, a, rest, r, hturn, hq, hr, hver, hmay, hsub⟩
  · exact absurd hsame hsubmits
  refine ⟨id, a, rest, r, hturn, hq, hr, hsub, fun f hf specs hspecs p hp => ?_⟩
  obtain ⟨herror, hidle⟩ := hgated.maySubmit_clear hr hver hmay hf
  by_cases hchanged : f ∈ r.batch.changed
  · obtain ⟨n, hn⟩ := Option.ne_none_iff_exists'.1 (hready.held id r hr f hchanged)
    obtain ⟨values, hseen, hmeets⟩ := hknown.allMet hgated.sound hn herror hidle specs hspecs p hp
    have hown := hknown.recorded.own f n values hn hseen
    obtain ⟨es, hes, hlast, rfl⟩ := seen_history hseen
    by_cases hagree : ∀ g ∈ (s.after events).world.form.graph.subscriptionsOf f,
        Table.get? g.key (s.after es).store.values = Table.get? g.key (s.after events).store.values
    · -- nothing that the validators read has changed
      refine Or.inl ?_
      obtain ⟨answer, hanswer, hpass⟩ := hmeets
      refine ⟨answer, ?_, hpass⟩
      rw [← hanswer]
      refine (hreads f specs hspecs p hp _ _ _ ?_).symm
      rintro g (rfl | hg)
      · exact hown
      · exact hagree g hg
    · simp only [not_forall] at hagree
      obtain ⟨g, hg, hne⟩ := hagree
      exact Or.inr ⟨hchanged, es, hes, hlast.trans hn.symm, hmeets, g, hg, hne⟩
  · have hdependent := Names.mem_minus.2 ⟨hf.resolve_left hchanged, hchanged⟩
    obtain ⟨n, hn, hall⟩ := hready.caught hgated hprompt hq hr hver hmay hdependent
    obtain ⟨values, hseen, hmeets⟩ := hknown.allMet hgated.sound hn herror hidle specs hspecs p hp
    rw [hall values hseen] at hmeets
    exact Or.inl hmeets

/-- The departure has been checked by the values before the arrival was given. -/
theorem submits_met_or_outdated_stay :
    start Stay.host (Stay.definition 1000) {} {} .null .null (some 0) =
        .ok (Stay.session 1000 (.float 1000)) ∧
      Dependable Stay.host (Stay.definition 1000) {} ∧
      ReadsSubscribed Stay.host (Stay.definition 1000) {}
        (Stay.session 1000 (.float 1000)).world.form.graph ∧
      ∃ es, Outdated Stay.host {} (Stay.session 1000 (.float 1000)) Stay.course es
        (.text "departure") (.check 0) := by
  have hstart := Stay.start_eq 1000
  have hdep := Stay.dependable 1000
  have hreads := Stay.readsSubscribed 1000 (.float 1000)
  have hsubmits := Stay.submits 1000 (.float 1000)
  obtain ⟨id, a, rest, r, -, hq, hr, -, hmeets⟩ :=
    submits_met_or_outdated hstart rfl hdep hreads Stay.course_usual (e := .turn) trivial hsubmits
  refine ⟨hstart, hdep, hreads, ?_⟩
  have hchanged := Stay.departure_changed hq hr
  rcases hmeets (.text "departure") (Or.inl hchanged) _ (Stay.specsOf_eq 1000 _) (.check 0)
    (by simp) with hmet | ⟨-, houtdated⟩
  · exact absurd hmet (Stay.unmet 1000 (.float 1000))
  · exact houtdated

/-- A run submits a departure before the arrival: the departure changed, and no longer meets its
specification. -/
theorem submits_unmet_stay :
    start Stay.host (Stay.definition 1000) {} {} .null .null (some 0) =
        .ok (Stay.session 1000 (.float 1000)) ∧
      (Stay.definition 1000).autoSave = true ∧
      Dependable Stay.host (Stay.definition 1000) {} ∧
      ReadsSubscribed Stay.host (Stay.definition 1000) {}
        (Stay.session 1000 (.float 1000)).world.form.graph ∧
      (∀ e ∈ Stay.course, e.IsUsual) ∧
      ∃ a rest r,
        ((Stay.session 1000 (.float 1000)).after Stay.course).queue = .resume 3 a :: rest ∧
        ((Stay.session 1000 (.float 1000)).after Stay.course).task? 3 = some (.run r) ∧
        (((Stay.session 1000 (.float 1000)).after Stay.course).happen .turn).store.submitted =
          [((Stay.session 1000 (.float 1000)).after Stay.course).store.values] ∧
        .text "departure" ∈ r.batch.changed ∧
        ∃ specs, Task.specsOf (Stay.definition 1000) (.text "departure") = .ok specs ∧
          .check 0 ∈ specs ∧
          ¬ Meets Stay.host {} (.check 0)
            (((Stay.session 1000 (.float 1000)).after Stay.course).store.value (.text "departure"))
            ((Stay.session 1000 (.float 1000)).after Stay.course).store.values := by
  obtain ⟨hvalues, hhead, hrun⟩ := Stay.after_course 1000 (.float 1000)
  obtain ⟨rest, hq⟩ := List.head?_eq_some_iff.1 hhead
  refine ⟨Stay.start_eq 1000, rfl, Stay.dependable 1000, Stay.readsSubscribed 1000 (.float 1000),
    Stay.course_usual, _, rest, _, hq, hrun, ?_, by simp, _, Stay.specsOf_eq 1000 _, by simp,
    Stay.unmet 1000 (.float 1000)⟩
  rw [(Stay.submitted _ _).2, hvalues]

end Session

end LiveForm
