import Mathlib
import LiveForm.Form.View
import LiveForm.Proofs.Form.Operation
import LiveForm.Proofs.Rule.Scene
import LiveForm.Proofs.Value.Table

/-!
# What the views of a field depend on

A field subscribes to the fields that it reads. **These are all that it depends on**
(`sameViews_of_alike`): a form without code, whose sources are clear, tells the same of the field
over any two stores that know the same of the field and of those to which it subscribes.
-/

namespace LiveForm

open Formula

/-- Two stores know the same of a field, and whether there is such a field. -/
structure Store.Alike (s t : Store) (name : FieldName) : Prop where
  value : Table.get? name.key s.values = Table.get? name.key t.values
  error : s.error? name = t.error? name
  touched : s.touched.contains name = t.touched.contains name
  dirty : s.dirty.contains name = t.dirty.contains name
  validating : s.validating.contains name = t.validating.contains name
  disabled : s.disabled.contains name = t.disabled.contains name

/-- No code of the host stands in the store. -/
structure Store.CodeFree (s : Store) : Prop where
  values : Entries.CodeFree s.values
  defaults : Entries.CodeFree s.defaults
  record : Entries.CodeFree s.record
  errors : ∀ e ∈ s.errors, e.2.message.CodeFree

/-- No code of the host stands in what the definition says of its fields. -/
structure Definition.CodeFree (d : Definition) : Prop where
  inputs : ∀ e ∈ d.inputs, Entries.CodeFree e.2.props
  props : ∀ e ∈ d.fields, Entries.CodeFree e.2.props
  selectProps : ∀ e ∈ d.fields, e.2.selectProps.CodeFree
  conditions : ∀ e ∈ d.fields, ∀ r ∈ e.2.conditions, r.CodeFree
  groups : ∀ e ∈ d.groups, ∀ r ∈ e.2.conditions, r.CodeFree

namespace Store

theorem get?_errors (s : Store) (a : String) :
    Table.get? (.text a) s.snapshot.errors = (s.error? (.text a)).map Issue.toValue := by
  have found : ∀ errors : Table FieldName Issue,
      Table.get? (Key.text a) (errors.map fun e => (e.1.key, e.2.toValue)) =
        (Table.get? (FieldName.text a) errors).map Issue.toValue := by
    intro errors
    induction errors with
    | nil => rfl
    | cons e rest ih =>
      rw [List.map_cons, Table.get?, Table.get?, ih]
      by_cases hkey : (e.1.key == Key.text a) = true
      · have hname : e.1 = FieldName.text a := congrArg FieldName.mk (Key.eq_text hkey)
        rw [if_pos hkey, if_pos (beq_iff_eq.2 hname)]
        rfl
      · have hname : ¬(e.1 == FieldName.text a) = true := by
          intro hname
          rw [eq_of_beq hname] at hkey
          exact hkey (by simp [FieldName.text, Key.same, BEq.beq])
        rw [if_neg hkey, if_neg hname]
  exact found s.errors

variable {s t : Store}

theorem Alike.snapshot {a : String} (h : s.Alike t (.text a)) :
    s.snapshot.Alike t.snapshot (.text a) where
  value := h.value
  error := by rw [get?_errors, get?_errors, h.error]
  touched := h.touched
  dirty := h.dirty
  validating := h.validating
  disabled := h.disabled

theorem CodeFree.snapshot (h : s.CodeFree) : s.snapshot.CodeFree where
  values := h.values
  defaults := h.defaults
  record := h.record
  errors := by
    intro e' he'
    obtain ⟨e, he, rfl⟩ := List.mem_map.1 he'
    exact .issue (h.errors e he)

end Store

namespace Definition

variable {d : Definition}

theorem chainFrom_mem {groups : Table Key Group} {start : Key} {unseen : Names Key}
    {current : GroupRef} {found chain : List Group}
    (hfound : ∀ g ∈ found, ∃ k, (k, g) ∈ groups)
    (h : chainFrom groups start unseen current found = .ok chain) :
    ∀ g ∈ chain, ∃ k, (k, g) ∈ groups := by
  fun_induction chainFrom groups start unseen current found with
  | case1 => exact Except.ok.inj h ▸ hfound
  | case2 | case3 | case5 => exact nomatch h
  | case4 unseen found name g hg _ _ ih =>
    exact ih (List.forall_mem_cons.2 ⟨Table.exists_mem_of_get? hg, hfound⟩) h

/-- The groups around a group are groups of the definition. -/
theorem chain_mem {group : GroupRef} {chain : List Group} (h : d.chain group = .ok chain) :
    ∀ g ∈ chain, ∃ k, (k, g) ∈ d.groups := by
  unfold Definition.chain at h
  split at h
  · obtain rfl := Except.ok.inj h
    exact List.forall_mem_nil _
  · cases h
  · exact chainFrom_mem (List.forall_mem_nil _) h

end Definition

namespace Form

/-! ### Code that is left is none -/

mutual

theorem invokeAll_eq (host : Host) (s : Snapshot) : ∀ {v : Value}, v.CodeFree →
    invokeAll host s v = return v
  | .list items, h => by
    have hitems : ∀ v ∈ items, v.CodeFree := by
      cases h with
      | list hitems => exact hitems
    rw [invokeAll, invokeItems_eq host s hitems, pure_bind]
  | .map entries, h => by
    have hentries : ∀ e ∈ entries, e.2.CodeFree := by
      cases h with
      | map hentries => exact hentries
    rw [invokeAll, invokeEntries_eq host s hentries, pure_bind]
  | .null, h | .bool _, h | .number _, h | .text _, h | .field _ _ _, h | .issue _ _, h
  | .unset, h => by
    rw [invokeAll]
    · exact invoke_eq host s h
    all_goals simp
  | .callback _, h | .check _, h => nomatch h

theorem invokeItems_eq (host : Host) (s : Snapshot) : ∀ {items : List Value},
    (∀ v ∈ items, v.CodeFree) → invokeItems host s items = return items
  | [], _ => rfl
  | v :: rest, h => by
    obtain ⟨hv, hrest⟩ := List.forall_mem_cons.1 h
    rw [invokeItems, invokeAll_eq host s hv, pure_bind, invokeItems_eq host s hrest, pure_bind]

theorem invokeEntries_eq (host : Host) (s : Snapshot) : ∀ {entries : List (Key × Value)},
    (∀ e ∈ entries, e.2.CodeFree) → invokeEntries host s entries = return entries
  | [], _ => rfl
  | (k, v) :: rest, h => by
    obtain ⟨hv, hrest⟩ := List.forall_mem_cons.1 h
    rw [invokeEntries, invokeAll_eq host s hv, pure_bind, invokeEntries_eq host s hrest, pure_bind]

end

/-! ### Two stores of a form -/

/-- The sources of a field's computed properties and of its conditions, and those of the conditions
of the groups around it, are clear. -/
structure ReadsClearly (f : Form) (name : FieldName) : Prop where
  selectProps : ∀ field, f.field name = .ok field →
    ∀ source ∈ field.selectProps.sources, IsClear source
  conditions : ∀ field, f.field name = .ok field → ∀ r ∈ field.conditions, r.IsClear
  groups : ∀ field chain, f.field name = .ok field → f.definition.chain field.group = .ok chain →
    ∀ g ∈ chain, ∀ r ∈ g.conditions, r.IsClear

theorem mem_fields {f : Form} {name : FieldName} {field : Field} (h : f.field name = .ok field) :
    (name, field) ∈ f.definition.fields := by
  unfold Form.field at h
  split at h
  · next found hfound =>
    obtain rfl := Except.ok.inj h
    exact Table.mem_of_get? hfound
  · exact nomatch h

/-- A field and those to which it subscribes are all the fields that it reads. -/
theorem mem_subscriptions {f : Form} {name : FieldName} {subs : FieldNames}
    (h : f.subscriptionsFor name = .ok subs) : ∃ field chain, f.field name = .ok field ∧
      f.definition.chain field.group = .ok chain ∧
      ∀ n, (n ∈ descriptorReads field.selectProps ∨ n ∈ Rule.allDependencies field.conditions ∨
        ∃ g ∈ chain, n ∈ Rule.allDependencies g.conditions) → FieldName.text n ∈ name :: subs := by
  unfold subscriptionsFor at h
  obtain ⟨field, hfield, h⟩ := exists_of_bind_eq_ok h
  obtain ⟨reads, hreads, h⟩ := exists_of_bind_eq_ok h
  unfold readsOf at hreads
  obtain ⟨chain, hchain, hreads⟩ := exists_of_bind_eq_ok hreads
  obtain rfl := Except.ok.inj hreads
  obtain rfl := Except.ok.inj h
  refine ⟨field, chain, hfield, hchain, fun n hn => ?_⟩
  by_cases hname : FieldName.text n = name
  · exact hname ▸ List.mem_cons_self
  · refine List.mem_cons_of_mem _ (Names.mem_remove.2 ⟨Names.mem_ofList.2 ?_, hname⟩)
    refine List.mem_map_of_mem ?_
    simp only [List.mem_append, List.mem_flatMap]
    rcases hn with hn | hn | ⟨g, hg, hn⟩
    · exact .inl (.inl (.inr hn))
    · exact .inl (.inr hn)
    · exact .inr ⟨g, hg, .inl hn⟩

/-! ### The views of a field -/

/-- All that can be told of a field without changing the form is the same in two forms. -/
structure SameViews (host : Host) (f g : Form) (name : FieldName) : Prop where
  effect : fieldEffect host f name = fieldEffect host g name
  group : ∀ field, f.field name = .ok field →
    groupState host f field.group = groupState host g field.group
  set : effectiveSet host f name = effectiveSet host g name
  disabled : isDisabled host f name = isDisabled host g name
  visible : isVisible host f name = isVisible host g name
  props : propsOf host f name = propsOf host g name

theorem inputFor_codeFree {d : Definition} (h : d.CodeFree) {name : FieldName} {input : InputType}
    (hinput : Fault.ofShape (d.inputFor name) = .ok input) : Entries.CodeFree input.props := by
  unfold Definition.inputFor at hinput
  cases htype : (((Table.get? name d.fields).map Field.type).getD (.text "textField")).asKey with
  | error e => simp [htype, Fault.ofShape, Except.mapError, bind, Except.bind] at hinput
  | ok key =>
    simp only [htype, Fault.ofShape, Except.mapError, bind, Except.bind, pure, Except.pure,
      Except.ok.injEq] at hinput
    rw [← hinput]
    cases hfound : key.bind fun k => Table.get? k d.inputs with
    | none => exact List.forall_mem_nil _
    | some found =>
      obtain ⟨k, -, hk⟩ := Option.bind_eq_some_iff.1 hfound
      obtain ⟨k', hk'⟩ := Table.exists_mem_of_get? hk
      exact h.inputs _ hk'

section

variable (host : Host) {f : Form} {t : Store} {name : FieldName} {field : Field}

/-- What is told of a field is told of its effect, of the state of its group and of its
properties. -/
theorem sameViews_of_eq (hfield : f.field name = .ok field)
    (heffect : fieldEffect host f name = fieldEffect host { f with store := t } name)
    (hgroup : groupState host f field.group = groupState host { f with store := t } field.group)
    (hprops : propsOf host f name = propsOf host { f with store := t } name) :
    SameViews host f { f with store := t } name := by
  have hfield' : ({ f with store := t } : Form).field name = .ok field := hfield
  refine ⟨heffect, fun field' h => ?_, ?_, ?_, ?_, hprops⟩
  · obtain rfl := Except.ok.inj (hfield.symm.trans h)
    exact hgroup
  · simp only [effectiveSet, heffect, hfield, hfield', Logged.ofExcept_bind, hgroup]
  · simp only [isDisabled, heffect, hfield, hfield', Logged.ofExcept_bind, hgroup]
  · simp only [isVisible, heffect, hfield, hfield', Logged.ofExcept_bind, hgroup]

theorem fieldEffect_eq (hfield : f.field name = .ok field)
    (heffect : effectOf host f.snapshot [(.text "name", name.toValue)] field.conditions =
      effectOf host t.snapshot [(.text "name", name.toValue)] field.conditions) :
    fieldEffect host f name = fieldEffect host { f with store := t } name := by
  have hfield' : ({ f with store := t } : Form).field name = .ok field := hfield
  simp only [fieldEffect, hfield, hfield', Logged.ofExcept_bind]
  exact heffect

theorem groupState_eq {chain : List Group} (hchain : f.definition.chain field.group = .ok chain)
    (heffect : ∀ g ∈ chain, effectOf host f.snapshot [] g.conditions =
      effectOf host t.snapshot [] g.conditions) :
    groupState host f field.group = groupState host { f with store := t } field.group := by
  simp only [groupState, hchain, Logged.ofExcept_bind]
  refine foldlM_congr (fun g hg s => ?_) ({} : GroupState)
  rw [heffect g hg]
  rfl

/-- Clear properties without code are computed alike over two stores that know the same of the
fields that the properties read. -/
theorem propsOf_eq (hfield : f.field name = .ok field) (hdefinition : f.definition.CodeFree)
    (hclear : ∀ source ∈ field.selectProps.sources, IsClear source) (hs : f.store.CodeFree)
    (hrecord : f.store.record = t.record) (hdefaults : f.store.defaults = t.defaults)
    (h : ∀ n ∈ descriptorReads field.selectProps, f.snapshot.Alike t.snapshot (.text n)) :
    propsOf host f name = propsOf host { f with store := t } name := by
  have hfield' : ({ f with store := t } : Form).field name = .ok field := hfield
  unfold propsOf
  rw [hfield, hfield', Logged.ofExcept_bind, Logged.ofExcept_bind]
  cases hinput : Fault.ofShape (f.definition.inputFor name) with
  | error e => rw [Logged.ofExcept_error_bind, Logged.ofExcept_error_bind]
  | ok input =>
    rw [Logged.ofExcept_bind, Logged.ofExcept_bind]
    split
    · rfl
    · have hmem := mem_fields hfield
      have hprops := Table.forall_putAll (inputFor_codeFree hdefinition hinput)
        (hdefinition.props _ hmem)
      have hgives := evaluateDescriptor_codeFree (Context.ofField_codeFree hs.snapshot name hprops)
        (hdefinition.selectProps _ hmem)
      have hcontexts : evaluateDescriptor (Context.ofField f.snapshot name
            (Table.putAll input.props field.props)) field.selectProps =
          evaluateDescriptor (Context.ofField t.snapshot name
            (Table.putAll input.props field.props)) field.selectProps :=
        evaluateDescriptor_ofField hclear hrecord hdefaults h name _
      refine (Logged.bind_congr hgives fun v hv => ?_).trans (congrArg (· >>= _) hcontexts)
      rw [invokeAll_eq host f.snapshot hv, ← invokeAll_eq host t.snapshot hv]
      rfl

end

/-! ### A form with a subscription through a group -/

namespace Billing

/-- A host without code. -/
def host : Host where
  callback := fun _ _ => pure .null
  check := fun _ _ _ => pure .null
  delays := fun _ => []

/-- The group reads `paid` in a condition. -/
def money : Group where
  name := .text "money"
  conditions := [{ selectWhen := .text "paid", visible := some false }]

/-- The field `total` reads `amount` in a property and in a condition. -/
def total : Field where
  name := .text "total"
  selectProps := .ofNames [("max", .text "amount + 1")]
  conditions := [{ selectWhen := .text "amount > 3", disabled := some true }]
  group := .named (.text "money")

def definition : Definition where
  fields := [(.text "amount", { name := .text "amount" }), (.text "paid", { name := .text "paid" }),
    (.text "note", { name := .text "note" }), (.text "total", total)]
  groups := [(.text "money", money)]

/-- The store in which a note has been taken. -/
def store (note : String) : Store where
  values := [(.text "amount", .int 5), (.text "note", .text note)]

def form : Form where
  definition := definition
  registry := {}
  settings := {}
  store := store "draft"
  debounce := .int 0
  clock := none

/-- A formula that names one of the two fields is clear. -/
theorem clear {source : String} {e : Expr} (hparse : parse source = .ok e)
    (h : e.names = ["amount"] ∨ e.names = ["paid"]) : IsClear source := by
  refine isClear_of_parse hparse ?_
  unfold PlainEdges
  rcases h with h | h <;> rw [h] <;> decide

theorem max_clear : IsClear "amount + 1" :=
  clear (e := .binary .add (.name "amount") (.literal (.int 1))) (by cbv) (.inl rfl)

theorem disabled_clear : IsClear "amount > 3" :=
  clear (e := .binary .gt (.name "amount") (.literal (.int 3))) (by cbv) (.inl rfl)

theorem paid_clear : IsClear "paid" :=
  clear (e := .name "paid") (by cbv) (.inr rfl)

theorem field_total {field : Field} (h : form.field (.text "total") = .ok field) :
    field = total :=
  (Except.ok.inj h).symm

theorem reads_clearly : form.ReadsClearly (.text "total") where
  selectProps field hfield := by
    rw [field_total hfield]
    intro source hsource
    obtain rfl : source = "amount + 1" := List.mem_singleton.1 hsource
    exact max_clear
  conditions field hfield := by
    rw [field_total hfield]
    intro r hr
    obtain rfl := List.mem_singleton.1 hr
    intro source hsource
    obtain rfl : source = "amount > 3" := List.mem_singleton.1 hsource
    exact disabled_clear
  groups field chain hfield hchain := by
    rw [field_total hfield, show form.definition.chain total.group = .ok [money] by cbv] at hchain
    obtain rfl := Except.ok.inj hchain
    intro g hg r hr
    obtain rfl := List.mem_singleton.1 hg
    obtain rfl := List.mem_singleton.1 hr
    intro source hsource
    obtain rfl : source = "paid" := List.mem_singleton.1 hsource
    exact paid_clear

theorem rule_codeFree {source : String} {disabled visible : Option Bool} :
    Rule.CodeFree { selectWhen := .text source, disabled, visible } where
  selectWhen := .text source
  selectSet := .null
  set _ h := nomatch h

theorem definition_codeFree : definition.CodeFree where
  inputs := List.forall_mem_nil _
  props := by simp [definition, total, Entries.CodeFree]
  selectProps := by
    have htotal : total.selectProps.CodeFree :=
      .map (List.forall_mem_singleton.2 (.text "amount + 1"))
    simpa [definition, Value.CodeFree.null] using htotal
  conditions := by simp [definition, total, rule_codeFree]
  groups := by simp [definition, money, rule_codeFree]

theorem store_codeFree (note : String) : (store note).CodeFree where
  values := List.forall_mem_cons.2 ⟨.number _, List.forall_mem_singleton.2 (.text note)⟩
  defaults := List.forall_mem_nil _
  record := List.forall_mem_nil _
  errors := List.forall_mem_nil _

end Billing

/-- **A field depends on nothing but itself and the fields to which it subscribes.** A form without
code, in which the sources that the field reads are clear, tells the same of the field over two
stores with the same record and defaults, if they know the same of these fields. -/
theorem sameViews_of_alike (host : Host) {f : Form} {t : Store} {name : FieldName}
    {subs : FieldNames} (hsubs : f.subscriptionsFor name = .ok subs) (hclear : f.ReadsClearly name)
    (hdefinition : f.definition.CodeFree) (hs : f.store.CodeFree) (ht : t.CodeFree)
    (hrecord : t.record = f.store.record) (hdefaults : t.defaults = f.store.defaults)
    (h : ∀ m ∈ name :: subs, f.store.Alike t m) :
    SameViews host f { f with store := t } name := by
  obtain ⟨field, chain, hfield, hchain, hreads⟩ := mem_subscriptions hsubs
  have hmem := mem_fields hfield
  have alike {n : String} (hn : FieldName.text n ∈ name :: subs) :
      f.snapshot.Alike t.snapshot (.text n) := (h _ hn).snapshot
  have hname : Entries.CodeFree [(.text "name", name.toValue)] :=
    List.forall_mem_singleton.2 (.ofKey name.key)
  refine sameViews_of_eq host hfield (fieldEffect_eq host hfield ?_) (groupState_eq host hchain ?_)
    ?_
  · exact effectOf_eq_of_alike host (hdefinition.conditions _ hmem) (hclear.conditions field hfield)
      hs.snapshot ht.snapshot hname hrecord.symm fun n hn => alike (hreads n (.inr (.inl hn)))
  · intro g hg
    obtain ⟨k, hk⟩ := Definition.chain_mem hchain g hg
    exact effectOf_eq_of_alike host (hdefinition.groups _ hk)
      (hclear.groups field chain hfield hchain g hg) hs.snapshot ht.snapshot
      (List.forall_mem_nil _) hrecord.symm fun n hn => alike (hreads n (.inr (.inr ⟨g, hg, hn⟩)))
  · exact propsOf_eq host hfield hdefinition (hclear.selectProps field hfield) hs hrecord.symm
      hdefaults.symm fun n hn => alike (hreads n (.inl hn))

/-- Another note changes nothing of the total. -/
theorem sameViews_total_other_note : SameViews Billing.host Billing.form
    { Billing.form with store := Billing.store "final" } (.text "total") := by
  have hsubs : Billing.form.subscriptionsFor (.text "total") =
      .ok [.text "amount", .text "paid"] := by cbv
  refine sameViews_of_alike Billing.host hsubs Billing.reads_clearly Billing.definition_codeFree
    (Billing.store_codeFree "draft") (Billing.store_codeFree "final") rfl rfl ?_
  simp only [List.forall_mem_cons]
  refine ⟨?_, ?_, ?_, List.forall_mem_nil _⟩ <;> constructor <;> rfl

end Form

end LiveForm
