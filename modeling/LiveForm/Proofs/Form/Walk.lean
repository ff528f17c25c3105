import Mathlib
import LiveForm.Proofs.Form.Given

/-!
# The walk through the fields that a change reaches

A change is passed on by a walk, breadth first, to fields whose conditions may give them values. Here
the walk tells where it has been (`tour`); else it is the same (`applySets_eq_tour`). Whoever
subscribes to a field that is given a value is visited once, before or after that, and a field
that is visited after everything that it reads is settled when the walk ends (`Toured`).
-/

namespace LiveForm

namespace Form

variable {host : Host} {f f' f'' : Form} {name : FieldName} {v : Value} {log log' : Log}

/-- A field to which a walk has come, and whether it was given a value there. -/
structure Visit where
  name : FieldName
  given : Bool
deriving DecidableEq

/-- The walk through a queue of fields, which tells where it has been, in order. -/
def tour (host : Host) (unseen : FieldNames) (queue : List FieldName) : FormOp (List Visit) :=
  match queue with
  | [] => return []
  | name :: rest =>
    if h : name ∈ unseen then
      have := Names.length_remove_lt h
      do
        let given ← applySetOf host name
        let graph := (← get).graph
        let subscribers := if given then FieldName.sorted (graph.subscribersOf name) else []
        let later ← tour host (Names.remove name unseen) (rest ++ subscribers)
        return ⟨name, given⟩ :: later
    else tour host unseen rest
termination_by (unseen.length, queue.length)

/-- The walk from the subscribers of a changed field. -/
def tourFrom (host : Host) (changed : FieldName) : FormOp (List Visit) := do
  let graph := (← get).graph
  tour host (Names.remove changed (Table.keys graph.subscriptions))
    (FieldName.sorted (graph.subscribersOf changed))

/-- A user changes a field. The answer is where the change has been passed on. -/
def changeTold (host : Host) (name : FieldName) (v : Value) : FormOp (List Visit) := do
  let _ ← FormOp.look fun f => Logged.ofExcept (f.field name)
  if (← get).definition.autoSave then saveChange name v else setValue name v true true
  let visits ← tourFrom host name
  refreshDisabled host
  return visits

/-! ### The walk and its tale -/

theorem applySets_eq_tour (host : Host) (unseen : FieldNames) (queue : List FieldName) :
    applySets host unseen queue = tour host unseen queue >>= fun _ => pure () := by
  induction unseen, queue using applySets.induct with
  | case1 unseen => rw [applySets, tour, pure_bind]
  | case2 unseen name rest hmem _ ih =>
    rw [applySets, tour, dif_pos hmem, dif_pos hmem]
    simp only [bind_assoc, pure_bind]
    simp only [dite_eq_ite] at ih
    exact bind_congr fun applied => bind_congr fun g => ih applied g
  | case3 unseen name rest hmem ih => rw [applySets, tour, dif_neg hmem, dif_neg hmem, ih]

theorem propagate_eq_tourFrom (host : Host) (changed : FieldName) :
    propagate host changed = tourFrom host changed >>= fun _ => pure () := by
  rw [propagate, tourFrom]
  simp only [applySets_eq_tour, bind_assoc]

/-- A change does what it does when it is told where it has been passed on. -/
theorem changeField_eq_changeTold (host : Host) (name : FieldName) (v : Value) :
    changeField host name v = changeTold host name v >>= fun _ => pure () := by
  rw [changeField, changeTold, bind_assoc]
  refine bind_congr fun _ => ?_
  rw [bind_assoc]
  refine bind_congr fun g => ?_
  split <;> simp only [propagate_eq_tourFrom, bind_assoc, pure_bind, bind_pure_unit]

/-- A change that returns can tell where it has been passed on. -/
theorem changeField_returned
    (h : (changeField host name v).runOn f log = (.ok (), f', log')) :
    ∃ visits, (changeTold host name v).runOn f log = (.ok visits, f', log') := by
  rw [changeField_eq_changeTold] at h
  exact FormOp.exists_of_runOn_forget h

/-- The form right after a change has been written, and noted for the next save if the form saves
itself. -/
inductive Entered (f : Form) (name : FieldName) (v : Value) : Form → Prop
  | saved {now : Instant} : f.definition.autoSave = true → f.clock = some now →
      Entered f name v (f.changed name v now)
  | unsaved : f.definition.autoSave = false → Entered f name v (f.written name v true true)

theorem Entered.noted (h : Entered f name v f') : Noted f f' name v := by
  cases h with
  | saved _ hclock => exact ⟨rfl, rfl, by simp [changed, written, hclock]⟩
  | unsaved _ => exact ⟨rfl, rfl, rfl⟩

/-- A change that returns has been entered, then passed on, and then it has been taken down who is
disabled. -/
theorem changeTold_entered {visits : List Visit}
    (h : (changeTold host name v).runOn f log = (.ok visits, f', log')) :
    f.IsField name ∧ ∃ f₁ f₂ log₂, Entered f name v f₁ ∧
      (tourFrom host name).runOn f₁ log = (.ok visits, f₂, log₂) ∧
      (refreshDisabled host).runOn f₂ log₂ = (.ok (), f', log') := by
  rw [changeTold, FormOp.runOn_bind_ok] at h
  obtain ⟨field, f₀, log₀, hlook, h⟩ := h
  obtain ⟨hfield, rfl, rfl⟩ : f.field name = .ok field ∧ f₀ = f ∧ log₀ = log := by
    obtain ⟨hfield, rfl, rfl⟩ := FormOp.runOn_look_ok.1 hlook
    exact ⟨hfield, rfl, rfl⟩
  rw [FormOp.runOn_get_bind] at h
  have passed (write : FormOp Unit) (f₁ : Form) (hentered : Entered f₀ name v f₁)
      (hwrite : write.runOn f₀ log₀ = (.ok (), f₁, log₀))
      (h : (write >>= fun _ => tourFrom host name >>= fun visits =>
        refreshDisabled host >>= fun _ => pure visits).runOn f₀ log₀ = (.ok visits, f', log')) :
      ∃ f₁ f₂ log₂, Entered f₀ name v f₁ ∧
        (tourFrom host name).runOn f₁ log₀ = (.ok visits, f₂, log₂) ∧
        (refreshDisabled host).runOn f₂ log₂ = (.ok (), f', log') := by
    rw [FormOp.runOn_bind, hwrite, FormOp.runOn_bind_ok] at h
    obtain ⟨visits', f₂, log₂, htour, h⟩ := h
    rw [FormOp.runOn_bind_ok] at h
    obtain ⟨_, f₃, log₃, hrefresh, hreturn⟩ := h
    obtain ⟨rfl, rfl, rfl⟩ := FormOp.runOn_pure_ok.1 hreturn
    exact ⟨f₁, f₂, log₂, hentered, htour, hrefresh⟩
  refine ⟨isField_of_field hfield, ?_⟩
  split at h
  · next hauto =>
    cases hclock : f₀.clock with
    | none =>
      rw [FormOp.runOn_bind, saveChange, FormOp.runOn_bind, setValue_written] at h
      dsimp only at h
      rw [runOn_markChanged, show (f₀.written name v true true).clock = none from hclock] at h
      cases congrArg Prod.fst h
    | some now =>
      exact passed (saveChange name v) (f₀.changed name v now) (.saved hauto hclock)
        (saveChange_runOn hclock name v log₀) h
  · next hauto =>
    exact passed (setValue name v true true) (f₀.written name v true true)
      (.unsaved (Bool.eq_false_iff.2 hauto)) rfl h

/-- A change that returns has been written, then passed on, and then it has been taken down who is
disabled. -/
theorem changeTold_returned {visits : List Visit}
    (h : (changeTold host name v).runOn f log = (.ok visits, f', log')) :
    f.IsField name ∧ ∃ f₁ f₂ log₂, Noted f f₁ name v ∧
      (tourFrom host name).runOn f₁ log = (.ok visits, f₂, log₂) ∧
      (refreshDisabled host).runOn f₂ log₂ = (.ok (), f', log') := by
  obtain ⟨hfield, f₁, f₂, log₂, hentered, htour, hrefresh⟩ := changeTold_entered h
  exact ⟨hfield, f₁, f₂, log₂, hentered.noted, htour, hrefresh⟩

/-- A walk that comes to a field that it has not seen visits it, and goes on to those that subscribe
to it, if it has been given a value. -/
theorem tour_visits {unseen : FieldNames} {rest : List FieldName} {visits : List Visit}
    (hmem : name ∈ unseen)
    (h : (tour host unseen (name :: rest)).runOn f log = (.ok visits, f', log')) :
    ∃ given f₁ log₁ later, (applySetOf host name).runOn f log = (.ok given, f₁, log₁) ∧
      (tour host (Names.remove name unseen) (rest ++
        if given then FieldName.sorted (f₁.graph.subscribersOf name) else [])).runOn f₁ log₁ =
          (.ok later, f', log') ∧
      visits = ⟨name, given⟩ :: later := by
  rw [tour, dif_pos hmem, FormOp.runOn_bind_ok] at h
  obtain ⟨given, f₁, log₁, happly, h⟩ := h
  rw [FormOp.runOn_get_bind, FormOp.runOn_bind_ok] at h
  obtain ⟨later, f₂, log₂, htour, hreturn⟩ := h
  obtain ⟨rfl, rfl, rfl⟩ := FormOp.runOn_pure_ok.1 hreturn
  exact ⟨given, f₁, log₁, later, happly, htour, rfl⟩

/-! ### One visit -/

/-- What a visit does. The field may have been given a value, and then it is at rest as long as its
conditions do not read it. Nothing else has changed. -/
structure Visited (host : Host) (f : Form) (name : FieldName) (given : Bool) (f' : Form) : Prop where
  definition : f'.definition = f.definition
  graph : f'.graph = f.graph
  disabled : f'.store.disabled = f.store.disabled
  record : f'.store.record = f.store.record
  codeFree : f'.CodeFree
  value : f.TextNames → ∀ m, (m = name → given = false) → f'.store.value m = f.store.value m
  alike : ∀ a, (.text a = name → given = false) → f.store.Alike f'.store (.text a)
  atRest : f.TextNames → f.IsField name → f.ConditionsClear name →
    (∀ n, f.ConditionsRead name n → .text n ≠ name) → AtRest host f' name

theorem Visited.left (hf : f.CodeFree) (h : f.IsField name → Settled host f name) :
    Visited host f name false f where
  definition := rfl
  graph := rfl
  disabled := rfl
  record := rfl
  codeFree := hf
  value _ _ _ := rfl
  alike _ _ := .refl _ _
  atRest _ hfield _ _ := .inl (h hfield)

/-- A field whose conditions do not read it holds what they have given it. -/
theorem Visited.written (hf : f.CodeFree) (hfield : f.IsField name)
    (hset : (effectiveSet host f name).runNew.1 = .ok (some v)) (hv : v.CodeFree)
    (validate : Bool) : Visited host f name true (f.written name v false validate) where
  definition := rfl
  graph := rfl
  disabled := written_disabled false validate
  record := written_record false validate
  codeFree := hf.written false validate hv
  value hnames m hm :=
    written_value_of_ne false validate (hnames name hfield) fun h => nomatch hm h.symm
  alike a ha := written_alike false validate fun h => nomatch ha h.symm
  atRest hnames _ hclear hself := by
    have hsame : SameReads f (f.written name v false validate) name :=
      ⟨rfl, written_record false validate,
        fun n hn => written_alike false validate (hself n hn).symm⟩
    have heq := effectiveSet_eq host hsame hclear hf (hf.written false validate hv)
    refine .inr ?_
    unfold Holds
    rw [← heq, hset, written_value false validate (hnames name hfield)]

theorem applySet_visited (hf : f.CodeFree) (hfield : f.IsField name) {validate given : Bool}
    (h : (applySet host name validate).runOn f log = (.ok given, f', log')) :
    Visited host f name given f' := by
  rcases applySet_returned hf h with ⟨rfl, rfl, hsettled⟩ | ⟨rfl, v, hset, hv, rfl⟩
  · exact .left hf fun _ => hsettled
  · exact .written hf hfield hset hv validate

theorem applySetOf_visited (hf : f.CodeFree) {given : Bool}
    (h : (applySetOf host name).runOn f log = (.ok given, f', log')) :
    Visited host f name given f' := by
  rw [applySetOf, FormOp.runOn_get_bind] at h
  split at h
  · next hfield => exact applySet_visited hf hfield h
  · next hno =>
    obtain ⟨rfl, rfl, -⟩ := FormOp.runOn_pure_ok.1 h
    exact .left hf fun hfield => absurd hfield hno

/-! ### The whole walk -/

/-- On a walk the second field was given a value after the walk had come to the first. -/
def GivenAfter (visits : List Visit) (x m : FieldName) : Prop :=
  ∃ given, [⟨x, given⟩, ⟨m, true⟩].Sublist visits

/-- A field that is not given a value later was given one in this visit, or not at all. -/
private theorem given_of_not_mem_cons {visits : List Visit} {m : FieldName} {given : Bool}
    (hm : ⟨m, true⟩ ∉ (⟨name, given⟩ :: visits : List Visit)) (hname : m = name) :
    given = false := by
  subst hname
  simpa using List.ne_of_not_mem_cons hm

section

variable {f₁ : Form} {later : List Visit} {given : Bool}

theorem Visited.value_cons (h : Visited host f name given f₁) (hnames : f.TextNames)
    (hlater : ∀ m, ⟨m, true⟩ ∉ later → f'.store.value m = f₁.store.value m) {m : FieldName}
    (hm : ⟨m, true⟩ ∉ (⟨name, given⟩ :: later : List Visit)) :
    f'.store.value m = f.store.value m :=
  (hlater m (List.not_mem_of_not_mem_cons hm)).trans (h.value hnames m (given_of_not_mem_cons hm))

theorem Visited.alike_cons (h : Visited host f name given f₁)
    (hlater : ∀ a, ⟨.text a, true⟩ ∉ later → f₁.store.Alike f'.store (.text a)) {a : String}
    (ha : ⟨.text a, true⟩ ∉ (⟨name, given⟩ :: later : List Visit)) :
    f.store.Alike f'.store (.text a) :=
  (h.alike a (given_of_not_mem_cons ha)).trans (hlater a (List.not_mem_of_not_mem_cons ha))

/-- A field that has just been visited stays at rest unless it, or what its conditions read, is given
a value later. -/
theorem Visited.atRest_later (h : Visited host f name given f₁) (hnames : f.TextNames)
    (hdefinition : f'.definition = f₁.definition) (hrecord : f'.store.record = f₁.store.record)
    (hcode : f'.CodeFree) (hvalue : f'.store.value name = f₁.store.value name)
    (halike : ∀ a, ⟨.text a, true⟩ ∉ later → f₁.store.Alike f'.store (.text a))
    (hfield : f.IsField name) (hclear : f.ConditionsClear name)
    (hreads : ∀ n, f.ConditionsRead name n → .text n ≠ name ∧
      ¬GivenAfter (⟨name, given⟩ :: later) name (.text n)) : AtRest host f' name := by
  have hrest := h.atRest hnames hfield hclear fun n hn => (hreads n hn).1
  have hsame : SameReads f₁ f' name := by
    refine ⟨hdefinition, hrecord, fun n hn => halike n fun hgiven => ?_⟩
    refine (hreads n ((conditionsRead_iff h.definition).1 hn)).2 ⟨given, ?_⟩
    exact (List.singleton_sublist.2 hgiven).cons_cons _
  exact hrest.of_sameReads hsame (hclear.congr h.definition) h.codeFree hcode hvalue

/-- A field that is visited later is at rest in the end if it is so from the form that this visit has
left. -/
theorem Visited.atRest_cons (h : Visited host f name given f₁) {w : Visit}
    (hlater : f₁.IsField w.name → f₁.ConditionsClear w.name →
      (∀ n, f₁.ConditionsRead w.name n →
        .text n ≠ w.name ∧ ¬GivenAfter later w.name (.text n)) → AtRest host f' w.name)
    (hfield : f.IsField w.name) (hclear : f.ConditionsClear w.name)
    (hreads : ∀ n, f.ConditionsRead w.name n → .text n ≠ w.name ∧
      ¬GivenAfter (⟨name, given⟩ :: later) w.name (.text n)) : AtRest host f' w.name := by
  refine hlater ((isField_iff h.definition _).2 hfield) (hclear.congr h.definition) fun n hn => ?_
  obtain ⟨hself, hnot⟩ := hreads n ((conditionsRead_iff h.definition).1 hn)
  exact ⟨hself, fun ⟨given, hsub⟩ => hnot ⟨given, hsub.cons _⟩⟩

end

/-- What a walk does. It comes to fields that have not been seen: to those in the queue, and to those
that subscribe to a field that is given a value. Only fields that are given a value change, and a
field is at rest in the end if nothing that its conditions read has been given a value after it. -/
structure Toured (host : Host) (unseen : FieldNames) (queue : List FieldName) (f : Form)
    (visits : List Visit) (f' : Form) : Prop where
  definition : f'.definition = f.definition
  graph : f'.graph = f.graph
  disabled : f'.store.disabled = f.store.disabled
  record : f'.store.record = f.store.record
  codeFree : f'.CodeFree
  within : ∀ w ∈ visits, w.name ∈ unseen
  queued : ∀ n ∈ queue, n ∈ unseen → ∃ w ∈ visits, w.name = n
  followed : ∀ m, ⟨m, true⟩ ∈ visits → ∀ s ∈ f.graph.subscribersOf m, s ∈ unseen →
    ∃ w ∈ visits, w.name = s
  value : f.TextNames → ∀ m, ⟨m, true⟩ ∉ visits → f'.store.value m = f.store.value m
  alike : ∀ a, ⟨.text a, true⟩ ∉ visits → f.store.Alike f'.store (.text a)
  atRest : f.TextNames → ∀ w ∈ visits, f.IsField w.name → f.ConditionsClear w.name →
    (∀ n, f.ConditionsRead w.name n → .text n ≠ w.name ∧ ¬GivenAfter visits w.name (.text n)) →
      AtRest host f' w.name

namespace Toured

variable {unseen : FieldNames} {rest : List FieldName} {visits later : List Visit} {given : Bool}

theorem done (hf : f.CodeFree) : Toured host unseen [] f [] f where
  definition := rfl
  graph := rfl
  disabled := rfl
  record := rfl
  codeFree := hf
  within := List.forall_mem_nil _
  queued := List.forall_mem_nil _
  followed _ hm := nomatch hm
  value _ _ _ := rfl
  alike _ _ := .refl _ _
  atRest _ := List.forall_mem_nil _

/-- A field that has been seen is passed over. -/
theorem skip (hn : name ∉ unseen) (h : Toured host unseen rest f visits f') :
    Toured host unseen (name :: rest) f visits f' where
  definition := h.definition
  graph := h.graph
  disabled := h.disabled
  record := h.record
  codeFree := h.codeFree
  within := h.within
  queued n hqueue hunseen := by
    rcases List.mem_cons.1 hqueue with rfl | hrest
    · exact absurd hunseen hn
    · exact h.queued n hrest hunseen
  followed := h.followed
  value := h.value
  alike := h.alike
  atRest := h.atRest

/-- A visit and the walk that goes on from it. -/
theorem visit {f₁ : Form} (hn : name ∈ unseen) (hvisit : Visited host f name given f₁)
    (h : Toured host (Names.remove name unseen)
      (rest ++ if given then FieldName.sorted (f₁.graph.subscribersOf name) else []) f₁ later f') :
    Toured host unseen (name :: rest) f (⟨name, given⟩ :: later) f' where
  definition := h.definition.trans hvisit.definition
  graph := h.graph.trans hvisit.graph
  disabled := h.disabled.trans hvisit.disabled
  record := h.record.trans hvisit.record
  codeFree := h.codeFree
  within := List.forall_mem_cons.2 ⟨hn, fun w hw => (Names.mem_remove.1 (h.within w hw)).1⟩
  queued n hqueue hunseen := by
    by_cases hname : n = name
    · exact ⟨_, List.mem_cons_self, hname.symm⟩
    · have hrest := (List.mem_cons.1 hqueue).resolve_left hname
      obtain ⟨w, hw, hwn⟩ := h.queued n (List.mem_append_left _ hrest)
        (Names.mem_remove.2 ⟨hunseen, hname⟩)
      exact ⟨w, List.mem_cons_of_mem _ hw, hwn⟩
  followed m hm s hs hunseen := by
    by_cases hname : s = name
    · exact ⟨_, List.mem_cons_self, hname.symm⟩
    · have hunseen' := Names.mem_remove.2 ⟨hunseen, hname⟩
      have hlater : ∃ w ∈ later, w.name = s := by
        rcases List.mem_cons.1 hm with hhead | hlater
        · obtain ⟨rfl, rfl⟩ : m = name ∧ true = given := by simpa using hhead
          refine h.queued s (List.mem_append_right _ ?_) hunseen'
          rw [if_pos rfl, FieldName.mem_sorted, hvisit.graph]
          exact hs
        · exact h.followed m hlater s (hvisit.graph ▸ hs) hunseen'
      obtain ⟨w, hw, hws⟩ := hlater
      exact ⟨w, List.mem_cons_of_mem _ hw, hws⟩
  value hnames m hm := hvisit.value_cons hnames (h.value (hnames.congr hvisit.definition)) hm
  alike a ha := hvisit.alike_cons h.alike ha
  atRest hnames w hw hfield hclear hreads := by
    have hnames₁ := hnames.congr hvisit.definition
    rcases List.mem_cons.1 hw with rfl | hw
    · -- the walk does not come back to the field
      have hvalue : f'.store.value name = f₁.store.value name :=
        h.value hnames₁ name fun hin => (Names.mem_remove.1 (h.within _ hin)).2 rfl
      exact hvisit.atRest_later hnames h.definition h.record h.codeFree hvalue h.alike hfield hclear
        hreads
    · exact hvisit.atRest_cons (h.atRest hnames₁ w hw) hfield hclear hreads

end Toured

/-- A walk that returns does what walks do. -/
theorem tour_toured {unseen : FieldNames} {queue : List FieldName} {visits : List Visit}
    (hf : f.CodeFree)
    (h : (tour host unseen queue).runOn f log = (.ok visits, f', log')) :
    Toured host unseen queue f visits f' := by
  -- along the walk itself: what is visited first may write, so the form and the log vary
  induction unseen, queue using tour.induct generalizing f log visits with
  | case1 unseen =>
    rw [tour] at h
    obtain ⟨rfl, rfl, -⟩ := FormOp.runOn_pure_ok.1 h
    exact .done hf
  | case2 unseen name rest hmem _ ih =>
    obtain ⟨given, f₁, log₁, later, happly, htour, rfl⟩ := tour_visits hmem h
    have hvisit := applySetOf_visited hf happly
    simp only [dite_eq_ite] at ih
    exact .visit hmem hvisit (ih given f₁ hvisit.codeFree htour)
  | case3 unseen name rest hmem ih =>
    rw [tour, dif_neg hmem] at h
    exact .skip hmem (ih hf h)

theorem tourFrom_toured {visits : List Visit} (hf : f.CodeFree)
    (h : (tourFrom host name).runOn f log = (.ok visits, f', log')) :
    Toured host (Names.remove name (Table.keys f.graph.subscriptions))
      (FieldName.sorted (f.graph.subscribersOf name)) f visits f' := by
  rw [tourFrom, FormOp.runOn_get_bind] at h
  exact tour_toured hf h

end Form

end LiveForm
