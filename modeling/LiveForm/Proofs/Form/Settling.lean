import Mathlib
import LiveForm.Proofs.Form.Wiring

/-!
# What is settled after a change

A form in which everything is settled is changed. The walk gives values to the fields that depend on
the change, but it comes to each once: a field that it comes to before it gives a value to one that
the field reads is not looked at again (`Order`). All others are settled again, unless the marks of
disabled fields that they read change in the end (`settled_after_change`).
-/

namespace LiveForm

namespace Form

variable {host : Host} {f f' : Form} {name : FieldName} {v : Value} {log log' : Log}

/-- A subscriber to which the walk from a change does not come reads nothing that is given a value
on the walk, and does not read the change. -/
theorem not_read_of_not_visited {visits : List Visit} (hwired : f.Wired)
    (ht : Toured host (Names.remove name (Table.keys f.graph.subscriptions))
      (FieldName.sorted (f.graph.subscribersOf name)) f visits f') {x t : FieldName}
    (hx : x ∈ f.graph.subscribersOf t) (hne : x ≠ name) (hvisit : ¬∃ w ∈ visits, w.name = x)
    {n : String} (hn : f.ConditionsRead x n) (hself : FieldName.text n ≠ x) :
    FieldName.text n ≠ name ∧ ⟨.text n, true⟩ ∉ visits := by
  have hsub := hwired.mem_subscribersOf hx hn hself
  have hunseen : x ∈ Names.remove name (Table.keys f.graph.subscriptions) :=
    Names.mem_remove.2 ⟨Graph.mem_keys_of_mem ((hwired.sound _ _).1 hsub), hne⟩
  refine ⟨fun hname => hvisit ?_, fun hgiven => hvisit ?_⟩
  · exact ht.queued x (FieldName.mem_sorted.2 (hname ▸ hsub)) hunseen
  · exact ht.followed _ hgiven x hsub hunseen

/-! ### A form in which the walk comes to a field too early -/

namespace Order

/-- The field `m` gets its value from `z`, but from `a` first. -/
def early : Field where
  name := .text "m"
  conditions := [
    { when := .field "a", matcher := { is := some (.int 5) }, set := some (.int 0) },
    { when := .field "z", matcher := { is := some (.int 1) }, set := some (.int 2) }]

/-- The field `z` gets its value from `a`. -/
def late : Field where
  name := .text "z"
  conditions := [
    { when := .field "a", matcher := { is := some (.int 1) }, set := some (.int 1) }]

def definition : Definition where
  name := .text "order"
  fields := [(.text "a", { name := .text "a" }), (.text "m", early), (.text "z", late)]

def store : Store where
  values := [(.text "a", .null), (.text "m", .null), (.text "z", .null)]
  defaults := [(.text "a", .null), (.text "m", .null), (.text "z", .null)]
  messages := Validation.messagesWith []

/-- The form with nothing mounted. -/
def start : Form where
  definition := definition
  registry := {}
  settings := {}
  store := store
  debounce := .int 1000
  clock := none

def graph : Graph where
  subscribers := [(.text "a", [.text "m", .text "z"]), (.text "z", [.text "m"])]
  subscriptions := [(.text "m", [.text "a", .text "z"]), (.text "z", [.text "a"])]
  registered := [.text "a", .text "m", .text "z"]

/-- The new form. -/
def fresh : Form :=
  { start with graph }

/-- The form in which `a` has been changed. -/
def moved : Form :=
  { fresh with
    store :=
      { store with
        values := [(.text "a", .int 1), (.text "m", .null), (.text "z", .int 1)]
        touched := [.text "a"]
        dirty := [.text "a", .text "z"] } }

theorem blank_start : Form.blank definition {} {} .null .null none = .ok start := by
  have hstore : Store.ofDefinition definition .null .null = .ok store := by cbv
  unfold Form.blank
  rw [hstore]
  rfl

theorem start_codeFree : start.CodeFree where
  definition := by
    constructor <;>
      simp [start, definition, early, late, Entries.CodeFree, Value.CodeFree.null,
        Value.CodeFree.number, Value.int, Rule.CodeFree.of_plain]
  store := by
    constructor <;> simp [start, store, Entries.CodeFree, Value.CodeFree.null]

theorem fresh_made : Made Billing.host [] fresh :=
  .new blank_start start_codeFree (show (setUp Billing.host).runOn start [] = _ from rfl)

theorem told : (changeTold Billing.host (.text "a") (.int 1)).runOn fresh [] =
    (.ok [⟨.text "m", false⟩, ⟨.text "z", true⟩], moved, []) := by
  cbv

theorem changed : (changeField Billing.host (.text "a") (.int 1)).runOn fresh [] =
    (.ok (), moved, []) := by
  rw [changeField_eq_changeTold, FormOp.runOn_bind, told]
  rfl

theorem isField_cases {x : FieldName} (h : fresh.IsField x) :
    x = .text "a" ∨ x = .text "m" ∨ x = .text "z" := by
  have hmem : x ∈ [FieldName.text "a", .text "m", .text "z"] := mem_fieldNames.2 h
  simpa using hmem

theorem textNames : fresh.TextNames := by
  intro x hx
  rcases isField_cases hx with rfl | rfl | rfl <;> exact ⟨_, rfl⟩

theorem settled (x : FieldName) (hx : fresh.IsField x) : Settled Billing.host fresh x := by
  have hnone : (effectiveSet Billing.host fresh x).runNew.1 = .ok none := by
    rcases isField_cases hx with rfl | rfl | rfl <;> rfl
  exact ⟨none, hnone, fun v hv => nomatch hv⟩

theorem affected : graph.affectedBy (.text "a") = [.text "m", .text "z"] := by
  cbv

theorem field_late : fresh.field (.text "z") = .ok late := rfl

theorem late_clear : fresh.ConditionsClear (.text "z") :=
  .of_ungrouped field_late rfl (List.forall_mem_singleton.2 (.of_plain rfl rfl))

theorem late_reads {n : String} (h : fresh.ConditionsRead (.text "z") n) : n = "a" :=
  List.mem_singleton.1 (h.own field_late rfl)

theorem graph_acyclic : graph.Acyclic :=
  Graph.acyclic_of_rank
    (fun n => if n = .text "a" then 0 else if n = .text "z" then 1 else 2) (by decide)

end Order

/-- **What is settled after a change.** Let every field of a form without code be settled, and let a
change return. Then a field that is affected by it is settled again, or holds the very value that its
conditions give it, if its conditions are clear and do not read the field itself, if nothing that
they read was given a value after the walk had come to the field, and if the mark of no disabled
field that they read has changed. -/
theorem settled_after_change (hwired : f.Wired) (hnames : f.TextNames) (hf : f.CodeFree)
    (hv : v.CodeFree) (hsettled : ∀ x, f.IsField x → Settled host f x)
    (h : (changeField host name v).runOn f log = (.ok (), f', log')) :
    ∃ visits, (changeTold host name v).runOn f log = (.ok visits, f', log') ∧
      ∀ x ∈ f.graph.affectedBy name, f.ConditionsClear x →
        (∀ n, f.ConditionsRead x n → FieldName.text n ≠ x ∧ ¬GivenAfter visits x (.text n) ∧
          (.text n ∈ f'.store.disabled ↔ .text n ∈ f.store.disabled)) →
        Settled host f' x ∨ Holds host f' x := by
  obtain ⟨visits, htold⟩ := changeField_returned h
  refine ⟨visits, htold, fun x hx hclear hreads => ?_⟩
  obtain ⟨hfield, f₁, f₂, log₂, hnoted, htour, hrefresh⟩ := changeTold_returned htold
  have hf₁ := hf.noted hnoted hv
  have hwired₁ := hwired.of_same hnoted.definition hnoted.graph
  have ht := tourFrom_toured hf₁ htour
  obtain ⟨hne, t, hsub⟩ := Graph.mem_affectedBy hx
  have hsub₁ : x ∈ f₁.graph.subscribersOf t := hnoted.graph ▸ hsub
  have hdefinition := ht.definition.trans hnoted.definition
  have hrest : AtRest host f₂ x := by
    by_cases hvisit : ∃ w ∈ visits, w.name = x
    · obtain ⟨w, hw, rfl⟩ := hvisit
      refine ht.atRest (hnames.congr hnoted.definition) w hw (hwired₁.isField hsub₁)
        (hclear.congr hnoted.definition) fun n hn => ?_
      have hn := hreads n ((conditionsRead_iff hnoted.definition).1 hn)
      exact ⟨hn.1, hn.2.1⟩
    · -- neither the field nor anything that it reads has changed
      have hsame : SameReads f f₂ x := by
        refine ⟨hdefinition, ?_, fun n hn => ?_⟩
        · rw [ht.record, hnoted.store, written_record]
        · obtain ⟨hname, hgiven⟩ := not_read_of_not_visited hwired₁ ht hsub₁ hne hvisit
            ((conditionsRead_iff hnoted.definition).2 hn) (hreads n hn).1
          refine Store.Alike.trans ?_ (ht.alike n hgiven)
          rw [hnoted.store]
          exact written_alike true true hname.symm
      have hvalue : f₂.store.value x = f.store.value x := by
        rw [ht.value (hnames.congr hnoted.definition) x fun hin => hvisit ⟨_, hin, rfl⟩,
          hnoted.store, written_value_of_ne true true (hnames name hfield) hne.symm]
      exact (AtRest.congr (effectiveSet_eq host hsame hclear hf ht.codeFree) hvalue
        (.inl (hsettled x (hwired.isField hsub))))
  -- what is left is the pass over the disabled fields, which writes marks only
  obtain ⟨disabled, -, rfl⟩ := refreshDisabled_returned hrefresh
  have hmarks : f₂.store.disabled = f.store.disabled := by
    rw [ht.disabled, hnoted.store, written_disabled]
  have hsame : SameReads f₂ { f₂ with store := { f₂.store with disabled } } x := by
    refine ⟨rfl, rfl, fun n hn => Store.disable_alike f₂.store ?_⟩
    rw [hmarks]
    exact (hreads n ((conditionsRead_iff hdefinition).1 hn)).2.2
  exact hrest.congr (effectiveSet_eq host hsame (hclear.congr hdefinition) ht.codeFree
    ⟨ht.codeFree.definition, ht.codeFree.store.disable disabled⟩) rfl

/-- The field `z`, which reads nothing that the walk gives a value, is settled when `a` has been
changed. -/
theorem settled_after_change_order :
    Order.fresh.Wired ∧ Order.fresh.TextNames ∧ Order.fresh.CodeFree ∧
      (Value.int 1).CodeFree ∧ (∀ x, Order.fresh.IsField x → Settled Billing.host Order.fresh x) ∧
      (changeField Billing.host (.text "a") (.int 1)).runOn Order.fresh [] =
        (.ok (), Order.moved, []) ∧
      .text "z" ∈ Order.fresh.graph.affectedBy (.text "a") ∧
      (Settled Billing.host Order.moved (.text "z") ∨
        Holds Billing.host Order.moved (.text "z")) := by
  obtain ⟨hwired, hcode⟩ := Order.fresh_made.kept
  have hv : (Value.int 1).CodeFree := .number _
  have hz : FieldName.text "z" ∈ Order.fresh.graph.affectedBy (.text "a") := by
    rw [show Order.fresh.graph.affectedBy (.text "a") = _ from Order.affected]
    decide
  obtain ⟨visits, htold, hall⟩ := settled_after_change hwired Order.textNames hcode hv
    Order.settled Order.changed
  have hvisits : [⟨.text "m", false⟩, ⟨.text "z", true⟩] = visits :=
    Except.ok.inj (congrArg Prod.fst (Order.told.symm.trans htold))
  refine ⟨hwired, Order.textNames, hcode, hv, Order.settled, Order.changed, hz,
    hall _ hz Order.late_clear fun n hn => ?_⟩
  obtain rfl := Order.late_reads hn
  refine ⟨by decide, ?_, by decide⟩
  rw [← hvisits]
  rintro ⟨given, hsub⟩
  exact absurd (hsub.subset (List.mem_cons_of_mem _ List.mem_cons_self)) (by decide)

/-- Though nobody depends on itself, `m` does not get its value from `z` when `a` is changed: the walk
comes to it before `z` has one, and not again. -/
theorem not_settled_after_change : ¬∀ (host : Host) (old : FieldNames) (f f' : Form)
    (name : FieldName) (v : Value) (log log' : Log), Made host old f → f.TextNames →
      f.graph.Acyclic → v.CodeFree → (∀ x, f.IsField x → Settled host f x) →
      (changeField host name v).runOn f log = (.ok (), f', log') →
        ∀ x ∈ f.graph.affectedBy name, Settled host f' x := by
  intro h
  have hm : FieldName.text "m" ∈ Order.fresh.graph.affectedBy (.text "a") := by
    rw [show Order.fresh.graph.affectedBy (.text "a") = _ from Order.affected]
    decide
  obtain ⟨given, hset, hall⟩ := h Billing.host [] Order.fresh Order.moved (.text "a") (.int 1) [] []
    Order.fresh_made Order.textNames Order.graph_acyclic (.number _) Order.settled Order.changed
    _ hm
  have hgiven : (effectiveSet Billing.host Order.moved (.text "m")).runNew.1 =
      .ok (some (.int 2)) := rfl
  have hsome : some (Value.int 2) = given := Except.ok.inj (hgiven.symm.trans hset)
  have hequal := hall (.int 2) hsome.symm nofun
  exact absurd hequal (by decide)

end Form

end LiveForm
