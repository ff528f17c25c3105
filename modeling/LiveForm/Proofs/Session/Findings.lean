import Mathlib
import LiveForm.Proofs.Form.Record
import LiveForm.Proofs.Session.Steps
import LiveForm.Proofs.Validation.Verdict

/-!
# What validations find

The last validation of a field is under way, or it has left an error behind, or the value of the
field meets all its specifications, each by values that the form has had since the validation began
(`Session.Known`). Every event keeps this (`Session.Known.happen`), if validators always return and
answer alike to alike questions.
-/

namespace LiveForm

open Store (Seen Recorded)
open LiveForm.Task (Examined Goes MetBy)

/-- A validation that has begun begins no other and writes no values. -/
theorem Task.CheckTurn.store {w : World} {t : Ticket} {x : Next × World} (h : CheckTurn w t x) :
    x.2.form.store.begun = w.form.store.begun ∧ x.2.form.store.latest = w.form.store.latest ∧
      x.2.form.store.values = w.form.store.values := by
  obtain ⟨-, -, ⟨hf, -⟩ | ⟨found, hf, -⟩⟩ := h.effect
  · rw [hf]
    exact ⟨rfl, rfl, rfl⟩
  · rw [hf]
    exact ⟨Store.finish_begun _ t found, Store.finish_latest _ t found,
      Store.finish_values _ t found⟩

/-- A validation that has begun leaves alone what others have found. -/
theorem Task.CheckTurn.error? {w : World} {t : Ticket} {x : Next × World} (h : CheckTurn w t x)
    {f : FieldName} {n : Nat} (hn : Table.get? f w.form.store.latest = some n)
    (hother : ¬(f = t.name ∧ n = t.number)) :
    x.2.form.store.error? f = w.form.store.error? f := by
  obtain ⟨-, -, ⟨hf, -⟩ | ⟨found, hf, -⟩⟩ := h.effect
  · rw [hf]
  · rw [hf]
    by_cases hname : t.name = f
    · refine Store.finish_error?_of_stale _ f t found fun hlast => hother ⟨hname.symm, ?_⟩
      rw [hname, hn] at hlast
      exact Option.some.inj hlast
    · exact Store.finish_error?_of_ne _ f t found hname

/-- Fields have texts as names. Their validators always return, and those that are code of the host
answer alike to alike questions. -/
structure Dependable (host : Host) (d : Definition) (registry : Registry) : Prop where
  names : ∀ name, Table.has name d.fields = true → ∃ a, name = .text a
  pure : host.IsPure
  returns : ∀ name, ∃ specs, Task.specsOf d name = .ok specs ∧
    ∀ p ∈ specs, Validation.Returns host registry p

/-- The fields of a form have texts as names. -/
theorem Dependable.text {host : Host} {d : Definition} {registry : Registry}
    (hdep : Dependable host d registry) {form : Form} (hform : form.definition = d) (f : FieldName)
    (hf : form.IsField f) : ∃ a, f = .text a := by
  unfold Form.IsField Form.hasField at hf
  rw [hform] at hf
  exact hdep.names f hf

namespace Session

section

variable (host : Host) (d : Definition) (registry : Registry)

/-- What holds of a validation under way: its number has been given, and while it is the last of its
field, it looks at the value of the field, and its progress is that of its specifications. -/
structure Upheld (past : List Store) (st : Store) (task : Task) (t : Ticket) : Prop where
  given : t.number ≤ st.begun
  value : Table.get? t.name st.latest = some t.number → t.value = st.value t.name
  examined : Table.get? t.name st.latest = some t.number →
    ∀ specs, Task.specsOf d t.name = .ok specs →
      Examined host registry (Seen past t.name t.number) specs task

/-- The value of the field meets all its specifications, each by values that there have been while
the validation of the number was the last of the field. -/
def AllMet (past : List Store) (st : Store) (f : FieldName) (n : Nat) : Prop :=
  ∀ specs, Task.specsOf d f = .ok specs →
    ∀ p ∈ specs, MetBy host registry (Seen past f n) (st.value f) p

/-- The validation of the number is under way. -/
def Working (s : Session) (f : FieldName) (n : Nat) : Prop :=
  ∃ id task t, s.task? id = some task ∧ task.ticket? = some t ∧ t.name = f ∧ t.number = n

/-- What is known of the last validation of a field. -/
def Settled (past : List Store) (s : Session) (f : FieldName) (n : Nat) : Prop :=
  s.Working f n ∨ (s.store.error? f).isSome = true ∨ AllMet host d registry past s.store f n

/-- The validations of a session of the form are upheld, and it is known what the last one of every
field has found. -/
structure Known (past : List Store) (s : Session) : Prop where
  inHost : s.world.host = host
  ofDefinition : s.world.form.definition = d
  ofRegistry : s.world.form.registry = registry
  recorded : Recorded past s.store
  upheld : ∀ id task t, s.task? id = some task → task.ticket? = some t →
    Upheld host d registry past s.store task t
  settled : ∀ f n, Table.get? f s.store.latest = some n → Settled host d registry past s f n

end

variable {host : Host} {d : Definition} {registry : Registry} {past past' : List Store}
  {s s' : Session}

theorem value_of_get? {st st' : Store} {f : FieldName}
    (h : Table.get? f.key st'.values = Table.get? f.key st.values) : st'.value f = st.value f :=
  congrArg (fun o => Option.getD o Value.null) h

theorem Upheld.later {st st' : Store} {task : Task} {t : Ticket}
    (h : Upheld host d registry past st task t) (g : st.Grows st')
    (hseen : ∀ f n values, Seen past f n values → Seen past' f n values) :
    Upheld host d registry past' st' task t := by
  have hsame : Table.get? t.name st'.latest = some t.number →
      Table.get? t.name st.latest = some t.number ∧ st'.value t.name = st.value t.name := by
    intro hlast
    rcases g.field t.name with ⟨hlatest, hvalue⟩ | ⟨n, hn, hlt, -⟩
    · exact ⟨hlatest ▸ hlast, value_of_get? hvalue⟩
    · obtain rfl := Option.some.inj (hn.symm.trans hlast)
      exact absurd h.given (Nat.not_le.2 hlt)
  refine ⟨Nat.le_trans h.given g.begun, fun hlast => ?_, fun hlast specs hspecs => ?_⟩
  · obtain ⟨hold, hvalue⟩ := hsame hlast
    rw [hvalue]
    exact h.value hold
  · obtain ⟨hold, -⟩ := hsame hlast
    exact (h.examined hold specs hspecs).mono fun values => hseen t.name t.number values

/-- What is known of validations stays known, if each that there is afterwards is upheld, and each
last one is settled or as it was. -/
theorem Known.step (h : Known host d registry past s) (hsetting : s'.world.host = s.world.host ∧
      s'.world.form.definition = s.world.form.definition ∧
      s'.world.form.registry = s.world.form.registry)
    (g : s.store.Grows s'.store) (hrecorded : Recorded past' s'.store)
    (hseen : ∀ f n values, Seen past f n values → Seen past' f n values)
    (hupheld : ∀ id task t, s'.task? id = some task → task.ticket? = some t →
      s.task? id = some task ∨ Upheld host d registry past' s'.store task t)
    (hsettled : ∀ f n, Table.get? f s'.store.latest = some n →
      (Table.get? f s.store.latest = some n ∧ (s.Working f n → s'.Working f n) ∧
        s'.store.error? f = s.store.error? f) ∨ Settled host d registry past' s' f n) :
    Known host d registry past' s' := by
  refine ⟨hsetting.1.trans h.inHost, hsetting.2.1.trans h.ofDefinition,
    hsetting.2.2.trans h.ofRegistry, hrecorded, ?_, ?_⟩
  · intro id task t hid ht
    rcases hupheld id task t hid ht with hold | hnew
    · exact (h.upheld id task t hold ht).later g hseen
    · exact hnew
  · intro f n hn
    rcases hsettled f n hn with ⟨hold, hworking, herror⟩ | hnew
    · rcases h.settled f n hold with hwork | herr | hmet
      · exact Or.inl (hworking hwork)
      · exact Or.inr (Or.inl (herror ▸ herr))
      · refine Or.inr (Or.inr fun specs hspecs p hp => ?_)
        have hvalue : s'.store.value f = s.store.value f := by
          rcases g.field f with ⟨-, hvalue⟩ | ⟨m, hm, hlt, -⟩
          · exact value_of_get? hvalue
          · obtain rfl := Option.some.inj (hm.symm.trans hn)
            exact absurd (h.recorded.latest_le hold) (Nat.not_le.2 hlt)
        rw [hvalue]
        exact (hmet specs hspecs p hp).mono fun values => hseen f n values
    · exact hnew

/-! ### Tasks that join, and changes -/

/-- Tasks that join validate nothing. -/
theorem Known.joined (h : Known host d registry past s) {more : List Task} (hj : Joined s more s')
    (hmore : ∀ t ∈ more, t.ticket? = none) (hrecorded : Recorded past' s'.store)
    (hseen : ∀ f n values, Seen past f n values → Seen past' f n values) :
    Known host d registry past' s' := by
  have g : s.store.Grows s'.store := by
    rw [hj.store]
    exact .of_same rfl rfl rfl
  refine h.step hj.steady.setting g hrecorded hseen ?_ ?_
  · intro id task t hid ht
    rcases hj.task id task hid with hold | hnew
    · exact Or.inl hold
    · exact absurd ((hmore task hnew).symm.trans ht) (by simp)
  · intro f n hn
    rw [hj.store] at hn
    refine Or.inl ⟨hn, ?_, by rw [hj.store]⟩
    rintro ⟨id, task, t, hid, ht⟩
    exact ⟨id, task, t, hj.kept id task hid, ht⟩

/-- All that a change writes are edits of the store. -/
theorem Sound.change_edits (hs : s.Sound) {name : FieldName} {v : Value} {w : World} {now : Instant}
    (hfield : s.world.form.IsField name)
    (hedited : Form.Edited (s.world.form.changed name v now) w.form) :
    s.store.Edits s.world.form.IsField w.form.store := by
  have hrest := hedited.store hs.clock
  have hisField : (s.world.form.changed name v now).IsField = s.world.form.IsField := rfl
  rw [hisField] at hrest
  exact (Store.Edits.set name v true .refl hfield).trans hrest

theorem takeUp_store (ho : s.Orderly) : s.takeUp.store = { s.store with waiting := [] } :=
  congrArg (fun w => w.form.store) (spawned_takeUp ho.tasks).world

/-- With a change the store grows. -/
theorem Sound.change_grows (hs : s.Sound)
    (htext : ∀ f, s.world.form.IsField f → ∃ a, f = .text a) {name : FieldName} {v : Value}
    {w : World} {now : Instant} (hfield : s.world.form.IsField name)
    (hedited : Form.Edited (s.world.form.changed name v now) w.form) :
    s.store.Grows (Session.takeUp { s with world := w }).store := by
  have ho : Orderly { s with world := w } := hs.orderly.withWorld w
  rw [takeUp_store ho]
  exact ((hs.change_edits hfield hedited).grows htext hs.waiting).trans (.of_same rfl rfl rfl)

/-- Each value that a change writes is validated. -/
theorem Known.changed (hdep : Dependable host d registry) (h : Known host d registry past s)
    (hs : s.Sound) {name : FieldName} {v : Value} {w : World} {now : Instant}
    (hhost : w.host = s.world.host) (hfield : s.world.form.IsField name)
    (hedited : Form.Edited (s.world.form.changed name v now) w.form) :
    Known host d registry (past ++ [(Session.takeUp { s with world := w }).store])
      (Session.takeUp { s with world := w }) := by
  have hspawned := spawned_takeUp (s := { s with world := w }) hs.orderly.tasks
  have htext := hdep.text h.ofDefinition
  have hedits := hs.change_edits hfield hedited
  have g := hs.change_grows htext hfield hedited
  have hworld : (Session.takeUp { s with world := w }).world =
      w.withStore fun store => { store with waiting := [] } := hspawned.world
  have hstore : (Session.takeUp { s with world := w }).store =
      { w.form.store with waiting := [] } := congrArg (fun w => w.form.store) hworld
  obtain ⟨-, hwaiting⟩ := hedits.waiting_cases htext
  refine h.step ⟨?_, ?_, ?_⟩ g (h.recorded.grow g) (fun f n values hseen => hseen.later _) ?_ ?_
  · rw [hworld]
    exact hhost
  · rw [hworld]
    exact hedited.definition
  · rw [hworld]
    exact hedited.registry
  · intro id task t hid ht
    rcases hspawned.task_cases hid with hold | ⟨-, hnew⟩
    · exact Or.inl hold
    · obtain ⟨t', ht', rfl⟩ := List.mem_map.1 hnew
      obtain rfl := Option.some.inj ht
      rw [hstore]
      rcases hwaiting t' ht' with hold | ⟨-, hle, hvalue⟩
      · rw [hs.waiting] at hold
        exact absurd hold (by simp)
      · exact Or.inr ⟨hle, hvalue, fun _ _ _ => trivial⟩
  · intro f n hn
    rw [hstore] at hn ⊢
    rcases hedits.field_cases htext f with ⟨hlatest, -⟩ | ⟨t, ht, hname, hlatest⟩
    · refine Or.inl ⟨hlatest ▸ hn, ?_, hedits.error? f⟩
      rintro ⟨id, task, t, hid, ht⟩
      exact ⟨id, task, t, (hspawned.task?_old (hs.orderly.lt_count hid)).trans hid, ht⟩
    · refine Or.inr (Or.inl ?_)
      obtain rfl := Option.some.inj (hlatest.symm.trans hn)
      obtain ⟨i, hi⟩ := List.getElem?_of_mem ht
      refine ⟨s.count + i, .started t, t, ?_, rfl, hname, rfl⟩
      rw [hspawned.task?_born (Nat.le_add_right _ _)]
      show (w.form.store.waiting.map Task.started)[s.count + i - s.count]? = _
      rw [Nat.add_sub_cancel_left, List.getElem?_map, hi]
      rfl

/-! ### Turns of validations -/

/-- In every turn the store grows. -/
theorem GoesOn.grows {id : Nat} {answer : Answer} {task : Task} {x : Next × World}
    (hgo : GoesOn s id answer task x s') : s.store.Grows s'.store := by
  rw [hgo.store]
  rcases hgo.turn.check_cases with ⟨t, -, hcheck⟩ | ⟨name, -, hcheck⟩ | ⟨hticket, hname⟩
  · obtain ⟨hbegun, hlatest, hvalues⟩ := hcheck.store
    exact .of_same hbegun hlatest hvalues
  · obtain ⟨hbegun, hlatest, hvalues⟩ := hcheck.store
    exact (s.store.begin_grows name (s.store.value name)).trans (.of_same hbegun hlatest hvalues)
  · obtain ⟨⟨submitted, hform⟩, -⟩ := hgo.turn.unchecked hticket hname
    rw [hform]
    exact .of_same rfl rfl rfl

/-- The store in which a validation has its turn: one that has begun has it in the store as it is,
one that begins, in the store in which it has begun. -/
structure Opened (st : Store) (t : Ticket) (st₀ : Store) : Prop where
  error : ∀ f, st₀.error? f = st.error? f
  given : t.number ≤ st₀.begun
  value : Table.get? t.name st₀.latest = some t.number → t.value = st₀.value t.name
  other : ∀ f n, Table.get? f st₀.latest = some n →
    Table.get? f st.latest = some n ∨ (f = t.name ∧ n = t.number)

theorem Upheld.opened {st : Store} {task : Task} {t : Ticket}
    (h : Upheld host d registry past st task t) : Opened st t st where
  error := fun _ => rfl
  given := h.given
  value := h.value
  other := fun _ _ hn => Or.inl hn

theorem opened_begin (st : Store) (name : FieldName) :
    Opened st (st.begin name (st.value name)).1 (st.begin name (st.value name)).2 where
  error := fun _ => rfl
  given := Nat.le_refl _
  value := fun _ => rfl
  other := by
    intro f n hn
    rw [Store.begin_latest] at hn
    by_cases hf : name == f
    · rw [if_pos hf] at hn
      exact Or.inr ⟨(eq_of_beq hf).symm, (Option.some.inj hn).symm⟩
    · rw [if_neg hf] at hn
      exact Or.inl hn

/-- A validation stays under way in the turn of any other task. -/
theorem GoesOn.working (ho : s.Orderly) {id : Nat} {answer : Answer} {task : Task}
    {x : Next × World} (hgo : GoesOn s id answer task x s') {f : FieldName} {n : Nat}
    (hother : ∀ t, task.ticket? = some t → ¬(f = t.name ∧ n = t.number))
    (hworking : s.Working f n) : s'.Working f n := by
  obtain ⟨i, task', t, hi, ht, hname, hnumber⟩ := hworking
  have hne : i ≠ id := by
    rintro rfl
    obtain rfl := Option.some.inj (hgo.live.symm.trans hi)
    exact hother t ht ⟨hname.symm, hnumber.symm⟩
  exact ⟨i, task', t, hgo.others ho hi hne, ht, hname, hnumber⟩

/-- What the last validation of a field has found after its turn. -/
theorem GoesOn.settled {id : Nat} {answer : Answer} {task : Task} {x : Next × World}
    (hgo : GoesOn s id answer task x s') {t : Ticket} {w₀ : World} {specs : List Value}
    (hspecs : Task.specsOf d t.name = .ok specs) (hvalue : t.value = s'.store.value t.name)
    (hlast : Table.get? t.name w₀.form.store.latest = some t.number)
    (hgoes : Goes host registry (Seen past t.name t.number) w₀ t specs x) :
    Settled host d registry past s' t.name t.number := by
  cases hgoes with
  | asks w' duration question next rest _ =>
    exact Or.inl ⟨id, _, t, hgo.performed.task, rfl, rfl, rfl⟩
  | passes w' _ hmet =>
    refine Or.inr (Or.inr fun specs' hspecs' p hp => ?_)
    obtain rfl := Except.ok.inj (hspecs.symm.trans hspecs')
    exact hvalue ▸ hmet p hp
  | fails w' issue hform =>
    refine Or.inr (Or.inl ?_)
    have herror : s'.store.error? t.name = some issue := by
      rw [hgo.store]
      refine Store.finish_error?_of_latest _ t _ ?_
      rw [hform]
      exact hlast
    rw [herror]
    rfl

/-- A turn of a validation, in the store in which it has it. -/
theorem Known.validated (hdep : Dependable host d registry) (h : Known host d registry past s)
    (ho : s.Orderly) {id : Nat} {answer : Answer} {task : Task} {x : Next × World}
    (hgo : GoesOn s id answer task x s') {t : Ticket} {w₀ : World}
    (hopened : Opened s.store t w₀.form.store) (hcheck : Task.CheckTurn w₀ t x)
    (hticket : ∀ t', task.ticket? = some t' → t' = t)
    (hgoes : Table.get? t.name w₀.form.store.latest = some t.number →
      ∀ specs, Task.specsOf d t.name = .ok specs →
        Goes host registry (Seen (past ++ [s'.store]) t.name t.number) w₀ t specs x) :
    Known host d registry (past ++ [s'.store]) s' := by
  obtain ⟨-, hchildren, heffect⟩ := hcheck.effect
  obtain ⟨hbegun, hlatest, hvalues⟩ := hcheck.store
  rw [← hgo.store] at hbegun hlatest hvalues
  have hvalue : s'.store.value t.name = w₀.form.store.value t.name :=
    value_of_get? (by rw [hvalues])
  refine h.step hgo.steady.setting hgo.grows (h.recorded.grow hgo.grows)
    (fun f n values hseen => hseen.later _) ?_ ?_
  · intro i task' t' hi ht'
    rcases hgo.performed.task_cases hi with ⟨rfl, hself⟩ | ⟨-, -, hold⟩ | ⟨-, -, hchild⟩
    · -- the validation itself goes on
      obtain ⟨question, next, rest, rfl⟩ : ∃ question next rest,
          task' = .checking t question next rest := by
        rcases heffect with ⟨-, question, next, rest, hq⟩ | ⟨-, -, hnone⟩
        · exact ⟨question, next, rest, Option.some.inj (hself.symm.trans hq)⟩
        · exact absurd (hnone.symm.trans hself) (by simp)
      obtain rfl := Option.some.inj ht'
      refine Or.inr ⟨hbegun ▸ hopened.given, fun hlast => ?_, fun hlast specs hspecs => ?_⟩
      · rw [hlatest] at hlast
        rw [hvalue]
        exact hopened.value hlast
      · rw [hlatest] at hlast
        exact (hgoes hlast specs hspecs).examined hself
    · exact Or.inl hold
    · rw [hchildren] at hchild
      exact absurd hchild (by simp)
  · intro f n hn
    have hn₀ : Table.get? f w₀.form.store.latest = some n := hlatest ▸ hn
    by_cases hself : f = t.name ∧ n = t.number
    · -- what the last validation of its field has found
      obtain ⟨rfl, rfl⟩ := hself
      obtain ⟨specs, hspecs, -⟩ := hdep.returns t.name
      exact Or.inr (hgo.settled hspecs ((hopened.value hn₀).trans hvalue.symm) hn₀
        (hgoes hn₀ specs hspecs))
    · -- other validations are as they were
      refine Or.inl ⟨(hopened.other f n hn₀).resolve_right hself, ?_, ?_⟩
      · exact hgo.working ho fun t' ht' => hticket t' ht' ▸ hself
      · rw [hgo.store, ← hopened.error f]
        exact hcheck.error? hn₀ hself

/-- What is known of validations stays known in the turn of a task. -/
theorem Known.goesOn (hdep : Dependable host d registry) (h : Known host d registry past s)
    (ho : s.Orderly) {id : Nat} {answer : Answer} {task : Task} {x : Next × World}
    (hgo : GoesOn s id answer task x s') : Known host d registry (past ++ [s'.store]) s' := by
  rcases hgo.turn.check_cases with ⟨t, ht, hcheck⟩ | ⟨name, rfl, hcheck⟩ | ⟨hticket, hname⟩
  · have hupheld := h.upheld id task t hgo.live ht
    refine h.validated hdep ho hgo hupheld.opened hcheck ?_ ?_
    · intro t' ht'
      exact Option.some.inj (ht'.symm.trans ht)
    · intro hlast specs hspecs
      obtain ⟨specs', hspecs', hreturns⟩ := hdep.returns t.name
      obtain rfl := Except.ok.inj (hspecs'.symm.trans hspecs)
      have hseen : Seen (past ++ [s'.store]) t.name t.number s.world.form.store.values :=
        Seen.later ⟨s.store, h.recorded.now, hlast, rfl⟩ _
      have hexamined := (hupheld.examined hlast specs' hspecs).mono
        fun values hv => Seen.later hv s'.store
      obtain ⟨busy, rfl⟩ := hgo.step
      cases task with
      | started t' =>
        obtain rfl := Option.some.inj ht
        exact Task.examine_goes hdep.pure hreturns (h.ofDefinition.symm ▸ hspecs) h.inHost
          h.ofRegistry hseen
      | checking t' question next rest =>
        obtain rfl := Option.some.inj ht
        exact Task.checking_goes hdep.pure hreturns hexamined h.inHost h.ofRegistry hseen busy
          answer
      | _ => exact absurd ht (by simp [Task.ticket?])
  · have hlatest : ∀ f, Table.get? f s'.store.latest =
        Table.get? f (s.store.begin name (s.store.value name)).2.latest := by
      intro f
      rw [hgo.store]
      exact congrArg (Table.get? f) hcheck.store.2.1
    refine h.validated hdep ho hgo (opened_begin s.store name) hcheck ?_ ?_
    · intro t' ht'
      exact absurd ht' (by simp [Task.ticket?])
    · intro hlast specs hspecs
      obtain ⟨specs', hspecs', hreturns⟩ := hdep.returns name
      obtain rfl := Except.ok.inj (hspecs'.symm.trans hspecs)
      obtain ⟨busy, rfl⟩ := hgo.step
      refine Task.examine_goes hdep.pure hreturns (h.ofDefinition.symm ▸ hspecs) h.inHost
        h.ofRegistry ?_
      exact Store.seen_append.2 (Or.inr ⟨(hlatest name).trans hlast, hgo.steady.values⟩)
  · obtain ⟨⟨submitted, hform⟩, htask⟩ := hgo.turn.unchecked hticket hname
    have hsame : s'.store = { s.store with submitted } := hgo.store.trans hform
    refine h.step hgo.steady.setting hgo.grows (h.recorded.grow hgo.grows)
      (fun f n values hseen => hseen.later _) ?_ ?_
    · intro i task' t hi ht
      rcases hgo.performed.task_cases hi with ⟨rfl, hself⟩ | ⟨-, -, hold⟩ | ⟨-, -, hchild⟩
      · exact absurd ((htask task' hself).symm.trans ht) (by simp)
      · exact Or.inl hold
      · exact absurd ((hgo.turn.child_usual hchild).2.symm.trans ht) (by simp)
    · intro f n hn
      rw [hsame] at hn ⊢
      exact Or.inl ⟨hn, hgo.working ho (by simp [hticket]), rfl⟩

/-! ### Events -/

/-- **Every event leaves it known what the last validations have found.** -/
theorem Known.happen (hdep : Dependable host d registry) (h : Known host d registry past s)
    (hs : s.Sound) {e : Event} (he : e.IsUsual) :
    Known host d registry (past ++ [(s.happen e).store]) (s.happen e) := by
  have hstep := hs.happen_step he
  revert hstep
  generalize s.happen e = s'
  intro hstep
  cases hstep with
  | joins more hj hmore =>
    have g : s.store.Grows s'.store := by
      rw [hj.store]
      exact .of_same rfl rfl rfl
    refine h.joined hj (fun t ht => ?_) (h.recorded.grow g) (fun f n values hseen => hseen.later _)
    rcases hmore t ht with hplain | ⟨r, rfl, -⟩
    · exact hplain.ticket?_eq_none
    · rfl
  | changes name v w now hhost hfield hedited heq =>
    rw [heq]
    exact h.changed hdep hs hhost hfield hedited
  | goesOn more id answer task x hj hmore hsound hgo =>
    have hbefore := h.joined hj (fun t ht => (hmore t ht).ticket?_eq_none)
      (hj.store.symm ▸ h.recorded) (fun f n values hseen => hseen)
    exact hbefore.goesOn hdep hsound.orderly hgo

/-- In a new session nothing has been found. -/
theorem New.known {clock : Option Instant} (h : New host d registry clock s) :
    Known host d registry [s.store] s := by
  have hlatest : ∀ f n, Table.get? f s.store.latest ≠ some n := by
    intro f n hn
    rw [h.latest] at hn
    exact absurd hn (by simp [Table.get?])
  have hseen : ∀ f n values, ¬ Seen [s.store] f n values := by
    rintro f n values ⟨st, hst, hn, -⟩
    obtain rfl := List.mem_singleton.1 hst
    exact hlatest f n hn
  refine ⟨h.host, h.definition, h.registry, ⟨List.mem_singleton.2 rfl, ?_, ?_⟩, ?_, ?_⟩
  · exact fun f n values hv => absurd hv (hseen f n values)
  · exact fun f n values hn => absurd hn (hlatest f n)
  · exact fun id task t hid => absurd hid (h.task?_ne_some id task)
  · exact fun f n hn => absurd hn (hlatest f n)

end Session

end LiveForm
