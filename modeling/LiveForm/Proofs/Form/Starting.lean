import Mathlib
import LiveForm.Proofs.Form.Wiring

/-!
# What is settled in a new form

A new form mounts its fields and then goes through them once, in the order in which they are
declared, to give each the value of its conditions. Nobody comes back to a field when one that it
reads is given a value later (`Chain`). Here the pass tells whom it has given a value (`toldSets`).
A field that reads nothing that is given one after its own turn is settled in the new form
(`settled_after_setUp`), and so is one that is declared after all that it reads
(`atRest_of_declared`).
-/

namespace LiveForm

namespace Form

variable {host : Host} {f f' : Form} {log log' : Log}

/-! ### A pass that tells whom it has given a value -/

/-- Gives fields the values of their conditions, in order, and tells which of them was given one. -/
def toldSets (host : Host) : List FieldName → FormOp (List Visit)
  | [] => return []
  | name :: rest => do
    let given ← applySet host name false
    let later ← toldSets host rest
    return ⟨name, given⟩ :: later

/-- Sets up a form. The answer is which fields were given a value. -/
def setUpTold (host : Host) : FormOp (List Visit) := do
  let names := (← get).fieldNames
  mountAll names
  let visits ← toldSets host names
  refreshDisabled host
  return visits

theorem applyInitialSets_eq_toldSets (host : Host) (names : List FieldName) :
    applyInitialSets host names = toldSets host names >>= fun _ => pure () := by
  induction names with
  | nil => rw [applyInitialSets, toldSets, pure_bind]
  | cons name rest ih =>
    rw [applyInitialSets, toldSets, ih]
    simp only [bind_assoc, pure_bind]

/-- Setting a form up does what it does when it tells of it. -/
theorem setUp_eq_setUpTold (host : Host) :
    setUp host = setUpTold host >>= fun _ => pure () := by
  rw [setUp, setUpTold]
  simp only [applyInitialSets_eq_toldSets, bind_assoc, pure_bind, bind_pure_unit]

/-- A form that can be set up can tell of it. -/
theorem setUp_told (h : (setUp host).runOn f log = (.ok (), f', log')) :
    ∃ visits, (setUpTold host).runOn f log = (.ok visits, f', log') := by
  rw [setUp_eq_setUpTold] at h
  exact FormOp.exists_of_runOn_forget h

/-- First the fields are mounted, then they are given values, and then it is taken down who is
disabled. -/
theorem setUpTold_returned {visits : List Visit}
    (h : (setUpTold host).runOn f log = (.ok visits, f', log')) :
    ∃ f₀ log₀ f₁ log₁, Rewired f f₀ ∧
      (toldSets host f.fieldNames).runOn f₀ log₀ = (.ok visits, f₁, log₁) ∧
      (refreshDisabled host).runOn f₁ log₁ = (.ok (), f', log') := by
  rw [setUpTold, FormOp.runOn_get_bind, FormOp.runOn_bind_ok] at h
  obtain ⟨_, f₀, log₀, hmount, h⟩ := h
  rw [FormOp.runOn_bind_ok] at h
  obtain ⟨visits', f₁, log₁, htold, h⟩ := h
  rw [FormOp.runOn_bind_ok] at h
  obtain ⟨_, f₂, log₂, hrefresh, hreturn⟩ := h
  obtain ⟨rfl, rfl, rfl⟩ := FormOp.runOn_pure_ok.1 hreturn
  have hmounted : Rewired f f₀ := by
    have hkeeps := mountAll_keeps mount_rewired f.fieldNames f log
    rwa [hmount] at hkeeps
  exact ⟨f₀, log₀, f₁, log₁, hmounted, htold, hrefresh⟩

/-! ### What the pass does -/

/-- What the pass does. It comes to each field in turn. Only fields that are given a value change, and
a field is at rest in the end if nothing that its conditions read has been given a value after it. -/
structure Passed (host : Host) (names : List FieldName) (f : Form) (visits : List Visit) (f' : Form) :
    Prop where
  definition : f'.definition = f.definition
  disabled : f'.store.disabled = f.store.disabled
  record : f'.store.record = f.store.record
  codeFree : f'.CodeFree
  names : visits.map Visit.name = names
  value : f.TextNames → ∀ m, ⟨m, true⟩ ∉ visits → f'.store.value m = f.store.value m
  alike : ∀ a, ⟨.text a, true⟩ ∉ visits → f.store.Alike f'.store (.text a)
  atRest : f.TextNames → ∀ w ∈ visits, f.IsField w.name → f.ConditionsClear w.name →
    (∀ n, f.ConditionsRead w.name n → .text n ≠ w.name ∧ ¬GivenAfter visits w.name (.text n)) →
      AtRest host f' w.name

namespace Passed

variable {name : FieldName} {rest : List FieldName} {later : List Visit} {given : Bool}

theorem done (hf : f.CodeFree) : Passed host [] f [] f where
  definition := rfl
  disabled := rfl
  record := rfl
  codeFree := hf
  names := rfl
  value _ _ _ := rfl
  alike _ _ := .refl _ _
  atRest _ := List.forall_mem_nil _

/-- A visit and the rest of the pass. -/
theorem visit {f₁ : Form} (hvisit : Visited host f name given f₁)
    (h : Passed host rest f₁ later f') :
    Passed host (name :: rest) f (⟨name, given⟩ :: later) f' where
  definition := h.definition.trans hvisit.definition
  disabled := h.disabled.trans hvisit.disabled
  record := h.record.trans hvisit.record
  codeFree := h.codeFree
  names := by rw [List.map_cons, h.names]
  value hnames m hm := hvisit.value_cons hnames (h.value (hnames.congr hvisit.definition)) hm
  alike a ha := hvisit.alike_cons h.alike ha
  atRest hnames w hw hfield hclear hreads := by
    have hnames₁ := hnames.congr hvisit.definition
    rcases List.mem_cons.1 hw with rfl | hw
    · by_cases hagain : ⟨name, true⟩ ∈ later
      · -- the pass comes back to the field
        exact hvisit.atRest_cons (h.atRest hnames₁ ⟨name, true⟩ hagain) hfield hclear hreads
      · exact hvisit.atRest_later hnames h.definition h.record h.codeFree
          (h.value hnames₁ name hagain) h.alike hfield hclear hreads
    · exact hvisit.atRest_cons (h.atRest hnames₁ w hw) hfield hclear hreads

end Passed

/-- A pass that returns does what passes do. -/
theorem toldSets_passed {names : List FieldName} {visits : List Visit} (hf : f.CodeFree)
    (hfields : ∀ name ∈ names, f.IsField name)
    (h : (toldSets host names).runOn f log = (.ok visits, f', log')) :
    Passed host names f visits f' := by
  induction names generalizing f log visits with
  | nil =>
    obtain ⟨rfl, rfl, -⟩ := FormOp.runOn_pure_ok.1 h
    exact .done hf
  | cons name rest ih =>
    rw [toldSets, FormOp.runOn_bind_ok] at h
    obtain ⟨given, f₁, log₁, happly, h⟩ := h
    rw [FormOp.runOn_bind_ok] at h
    obtain ⟨later, f₂, log₂, htold, hreturn⟩ := h
    obtain ⟨rfl, rfl, rfl⟩ := FormOp.runOn_pure_ok.1 hreturn
    obtain ⟨hname, hrest⟩ := List.forall_mem_cons.1 hfields
    have hvisit := applySet_visited hf hname happly
    exact .visit hvisit (ih hvisit.codeFree
      (fun n hn => (isField_iff hvisit.definition n).2 (hrest n hn)) htold)

/-! ### New forms -/

section

variable {d : Definition} {registry : Registry} {settings : Settings} {record defaults : Value}
  {clock : Option Instant} {blank : Form}

/-- A field of a new form is at rest if nothing that its conditions read was given a value after it,
and nothing of that is disabled. -/
theorem setUp_atRest (hblank : Form.blank d registry settings record defaults clock = .ok blank)
    (hcode : blank.CodeFree) (hnames : blank.TextNames) {visits : List Visit}
    (h : (setUpTold host).runOn blank log = (.ok visits, f, log')) :
    f.definition = blank.definition ∧ visits.map Visit.name = f.fieldNames ∧
      ∀ x, f.IsField x → f.ConditionsClear x →
        (∀ n, f.ConditionsRead x n → FieldName.text n ≠ x ∧ ¬GivenAfter visits x (.text n) ∧
          .text n ∉ f.store.disabled) → AtRest host f x := by
  obtain ⟨f₀, log₀, f₁, log₁, hmounted, htold, hrefresh⟩ := setUpTold_returned h
  have hf₀ : f₀.CodeFree := ⟨hmounted.definition ▸ hcode.definition, hmounted.store ▸ hcode.store⟩
  have hfields : ∀ name ∈ blank.fieldNames, f₀.IsField name := fun name hname =>
    (isField_iff hmounted.definition name).2 (mem_fieldNames.1 hname)
  have hpassed := toldSets_passed hf₀ hfields htold
  obtain ⟨disabled, -, rfl⟩ := refreshDisabled_returned hrefresh
  have hdefinition : f₁.definition = blank.definition :=
    hpassed.definition.trans hmounted.definition
  have hsameNames : visits.map Visit.name = f₁.fieldNames := by
    rw [hpassed.names, fieldNames, fieldNames, hdefinition]
  refine ⟨hdefinition, hsameNames, fun x hx hclear hreads => ?_⟩
  -- in a blank form nobody is disabled, so the marks that count are those that are there in the end
  have hnone : f₁.store.disabled = [] := by
    rw [hpassed.disabled, hmounted.store, (blank_empty hblank).2]
  obtain ⟨w, hw, rfl⟩ := List.mem_map.1 (hsameNames ▸ mem_fieldNames.2 hx)
  have hclear : f₁.ConditionsClear w.name := ⟨hclear.own, hclear.groups⟩
  have hrest : AtRest host f₁ w.name := by
    refine hpassed.atRest (hnames.congr hmounted.definition) w hw
      ((isField_iff hpassed.definition _).1 hx) (hclear.congr hpassed.definition.symm)
      fun n hn => ?_
    obtain ⟨hself, hafter, -⟩ := hreads n ((conditionsRead_iff hpassed.definition).2 hn)
    exact ⟨hself, hafter⟩
  have hsame : SameReads f₁ { f₁ with store := { f₁.store with disabled } } w.name := by
    refine ⟨rfl, rfl, fun n hn => Store.disable_alike f₁.store ?_⟩
    rw [hnone]
    exact iff_of_false (hreads n hn).2.2 List.not_mem_nil
  exact hrest.of_sameReads hsame hclear hpassed.codeFree
    ⟨hpassed.codeFree.definition, hpassed.codeFree.store.disable disabled⟩ rfl

/-- Nothing that is not declared after a field is given a value after it. -/
theorem not_givenAfter_of_declared {visits : List Visit} {x m : FieldName}
    (h : ¬[x, m].Sublist (visits.map Visit.name)) : ¬GivenAfter visits x m :=
  fun ⟨_, hsub⟩ => h (hsub.map Visit.name)

/-- In a new form a field is at rest if nothing that its conditions read is declared after it, and
nothing of that is disabled. -/
theorem atRest_of_declared
    (hblank : Form.blank d registry settings record defaults clock = .ok blank)
    (hcode : blank.CodeFree) (hnames : blank.TextNames)
    (h : (setUp host).runOn blank log = (.ok (), f, log')) {x : FieldName} (hx : f.IsField x)
    (hclear : f.ConditionsClear x)
    (hreads : ∀ n, f.ConditionsRead x n → FieldName.text n ≠ x ∧
      ¬[x, .text n].Sublist f.fieldNames ∧ .text n ∉ f.store.disabled) : AtRest host f x := by
  obtain ⟨visits, htold⟩ := setUp_told h
  obtain ⟨-, hvisits, hrest⟩ := setUp_atRest hblank hcode hnames htold
  refine hrest x hx hclear fun n hn => ?_
  obtain ⟨hself, hlater, hdisabled⟩ := hreads n hn
  exact ⟨hself, not_givenAfter_of_declared (hvisits ▸ hlater), hdisabled⟩

end

/-! ### A form that declares its fields before what they read -/

namespace Chain

/-- The field `a` gets a value from `b`. -/
def last : Field where
  name := .text "a"
  conditions := [
    { when := .field "b", matcher := { is := some (.int 1) }, set := some (.int 1) }]

/-- The field `b` gets a value from `c`. -/
def middle : Field where
  name := .text "b"
  conditions := [
    { when := .field "c", matcher := { is := some (.int 1) }, set := some (.int 1) }]

def definition : Definition where
  name := .text "chain"
  fields := [(.text "a", last), (.text "b", middle), (.text "c", { name := .text "c" })]

def store : Store where
  values := [(.text "a", .null), (.text "b", .null), (.text "c", .int 1)]
  defaults := [(.text "a", .null), (.text "b", .null), (.text "c", .int 1)]
  record := [(.text "c", .int 1)]
  messages := Validation.messagesWith []

/-- The form with nothing mounted. -/
def start : Form where
  definition := definition
  registry := {}
  settings := {}
  store := store
  debounce := .int 1000
  clock := none

def graph : Graph where
  subscribers := [(.text "b", [.text "a"]), (.text "c", [.text "b"])]
  subscriptions := [(.text "a", [.text "b"]), (.text "b", [.text "c"])]
  registered := [.text "a", .text "b", .text "c"]

/-- The new form. -/
def fresh : Form :=
  { start with
    graph
    store :=
      { store with
        values := [(.text "a", .null), (.text "b", .int 1), (.text "c", .int 1)]
        dirty := [.text "b"] } }

theorem blank_start : Form.blank definition {} {} (.map [(.text "c", .int 1)]) .null none =
    .ok start := by
  have hstore : Store.ofDefinition definition (.map [(.text "c", .int 1)]) .null = .ok store := by
    cbv
  unfold Form.blank
  rw [hstore]
  rfl

theorem start_codeFree : start.CodeFree where
  definition := by
    constructor <;>
      simp [start, definition, last, middle, Entries.CodeFree, Value.CodeFree.null,
        Value.CodeFree.number, Value.int, Rule.CodeFree.of_plain]
  store := by
    constructor <;> simp [start, store, Entries.CodeFree, Value.CodeFree.null,
      Value.CodeFree.number, Value.int]

theorem isField_cases {x : FieldName} (h : start.IsField x) :
    x = .text "a" ∨ x = .text "b" ∨ x = .text "c" := by
  have hmem : x ∈ [FieldName.text "a", .text "b", .text "c"] := mem_fieldNames.2 h
  simpa using hmem

theorem textNames : start.TextNames := by
  intro x hx
  rcases isField_cases hx with rfl | rfl | rfl <;> exact ⟨_, rfl⟩

theorem told : (setUpTold Billing.host).runOn start [] =
    (.ok [⟨.text "a", false⟩, ⟨.text "b", true⟩, ⟨.text "c", false⟩], fresh, []) := by
  cbv

theorem setUp_start : (setUp Billing.host).runOn start [] = (.ok (), fresh, []) := by
  rw [setUp_eq_setUpTold, FormOp.runOn_bind, told]
  rfl

theorem field_middle : fresh.field (.text "b") = .ok middle := rfl

theorem middle_clear : fresh.ConditionsClear (.text "b") :=
  .of_ungrouped field_middle rfl (List.forall_mem_singleton.2 (.of_plain rfl rfl))

theorem middle_reads {n : String} (h : fresh.ConditionsRead (.text "b") n) : n = "c" :=
  List.mem_singleton.1 (h.own field_middle rfl)

theorem graph_acyclic : graph.Acyclic :=
  Graph.acyclic_of_rank
    (fun n => if n = .text "c" then 0 else if n = .text "b" then 1 else 2) (by decide)

end Chain

/-- **What is settled in a new form.** Let a form without code be set up from a blank one. It goes
through its fields once, in the order of their declaration. A field is settled then, or holds the
very value that its conditions give it, if its conditions are clear and do not read the field
itself, if nothing that they read was given a value after it, and if nothing that they read is
disabled. -/
theorem settled_after_setUp {d : Definition} {registry : Registry} {settings : Settings}
    {record defaults : Value} {clock : Option Instant} {blank : Form}
    (hblank : Form.blank d registry settings record defaults clock = .ok blank)
    (hcode : blank.CodeFree) (hnames : blank.TextNames)
    (h : (setUp host).runOn blank log = (.ok (), f, log')) :
    ∃ visits, (setUpTold host).runOn blank log = (.ok visits, f, log') ∧
      visits.map Visit.name = f.fieldNames ∧
      ∀ x, f.IsField x → f.ConditionsClear x →
        (∀ n, f.ConditionsRead x n → FieldName.text n ≠ x ∧ ¬GivenAfter visits x (.text n) ∧
          .text n ∉ f.store.disabled) →
        Settled host f x ∨ Holds host f x := by
  obtain ⟨visits, htold⟩ := setUp_told h
  obtain ⟨-, hvisits, hrest⟩ := setUp_atRest hblank hcode hnames htold
  exact ⟨visits, htold, hvisits, hrest⟩

/-- The field `b`, which reads `c` alone, is settled in the new form. -/
theorem settled_after_setUp_chain :
    Form.blank Chain.definition {} {} (.map [(.text "c", .int 1)]) .null none = .ok Chain.start ∧
      Chain.start.CodeFree ∧ Chain.start.TextNames ∧
      (setUp Billing.host).runOn Chain.start [] = (.ok (), Chain.fresh, []) ∧
      (effectiveSet Billing.host Chain.fresh (.text "b")).runNew.1 = .ok (some (.int 1)) ∧
      (Settled Billing.host Chain.fresh (.text "b") ∨
        Holds Billing.host Chain.fresh (.text "b")) := by
  obtain ⟨visits, htold, -, hall⟩ := settled_after_setUp Chain.blank_start Chain.start_codeFree
    Chain.textNames Chain.setUp_start
  have hvisits : [⟨.text "a", false⟩, ⟨.text "b", true⟩, ⟨.text "c", false⟩] = visits :=
    Except.ok.inj (congrArg Prod.fst (Chain.told.symm.trans htold))
  refine ⟨Chain.blank_start, Chain.start_codeFree, Chain.textNames, Chain.setUp_start, rfl,
    hall _ rfl Chain.middle_clear fun n hn => ?_⟩
  obtain rfl := Chain.middle_reads hn
  refine ⟨by decide, ?_, by decide⟩
  rw [← hvisits]
  rintro ⟨given, hsub⟩
  exact absurd (hsub.subset (List.mem_cons_of_mem _ List.mem_cons_self)) (by decide)

/-- Though nobody depends on itself, `a` does not get its value from `b` in the new form: its turn comes
before `b` has one, and not again. -/
theorem not_settled_after_setUp : ¬∀ (host : Host) (d : Definition) (registry : Registry)
    (settings : Settings) (record defaults : Value) (clock : Option Instant) (blank f : Form)
    (log log' : Log), Form.blank d registry settings record defaults clock = .ok blank →
      blank.CodeFree → blank.TextNames → (setUp host).runOn blank log = (.ok (), f, log') →
      f.graph.Acyclic → ∀ x, f.IsField x → Settled host f x := by
  intro h
  obtain ⟨given, hset, hall⟩ := h Billing.host Chain.definition {} {} (.map [(.text "c", .int 1)])
    .null none Chain.start Chain.fresh [] [] Chain.blank_start Chain.start_codeFree Chain.textNames
    Chain.setUp_start Chain.graph_acyclic (.text "a") rfl
  have hgiven : (effectiveSet Billing.host Chain.fresh (.text "a")).runNew.1 =
      .ok (some (.int 1)) := rfl
  have hsome : some (Value.int 1) = given := Except.ok.inj (hgiven.symm.trans hset)
  have hequal := hall (.int 1) hsome.symm nofun
  exact absurd hequal (by decide)

end Form

end LiveForm
