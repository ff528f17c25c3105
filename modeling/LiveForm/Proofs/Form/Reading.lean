import Mathlib
import LiveForm.Proofs.Form.Edits
import LiveForm.Proofs.Form.Steady
import LiveForm.Proofs.Form.Views

/-!
# What the conditions of a field read

The conditions of a field and of the groups around it say which value the field is given and whether
it is disabled. Both depend on nothing but the fields that these conditions read: on two forms of
one definition whose stores know the same of these fields, the answers are the same
(`effectiveSet_eq`, `isDisabled_eq`). Writing one field leaves all that is known of the others.
-/

namespace LiveForm

open Formula

namespace Rule

variable {r : Rule}

/-- A rule without formulas holds no code but in the value that it gives. -/
theorem CodeFree.of_plain (hwhen : r.selectWhen = .null) (hset : r.selectSet = .null)
    (h : ∀ v, r.set = some v → v.CodeFree) : r.CodeFree :=
  ⟨hwhen ▸ .null, hset ▸ .null, h⟩

/-- A rule without formulas is clear. -/
theorem IsClear.of_plain (hwhen : r.selectWhen = .null) (hset : r.selectSet = .null) :
    r.IsClear := by
  unfold IsClear
  rw [hwhen, hset]
  exact List.forall_mem_nil _

end Rule

namespace Form

/-- No code of the host stands in the definition of the form or in its store. -/
structure CodeFree (f : Form) : Prop where
  definition : f.definition.CodeFree
  store : f.store.CodeFree

/-- All fields have texts as their names. -/
def TextNames (f : Form) : Prop :=
  ∀ name, f.IsField name → ∃ a, name = .text a

/-- The conditions of the field, or those of a group around it, depend on the other name. -/
def ConditionsRead (f : Form) (name : FieldName) (n : String) : Prop :=
  ∃ field, f.field name = .ok field ∧ (n ∈ Rule.allDependencies field.conditions ∨
    ∃ chain, f.definition.chain field.group = .ok chain ∧
      ∃ g ∈ chain, n ∈ Rule.allDependencies g.conditions)

/-- The sources of the field's conditions, and those of the conditions of the groups around it, are
clear. -/
structure ConditionsClear (f : Form) (name : FieldName) : Prop where
  own : ∀ field, f.field name = .ok field → ∀ r ∈ field.conditions, r.IsClear
  groups : ∀ field chain, f.field name = .ok field → f.definition.chain field.group = .ok chain →
    ∀ g ∈ chain, ∀ r ∈ g.conditions, r.IsClear

variable {host : Host} {f g : Form} {name : FieldName}

/-- A field subscribes to the fields that its conditions read, itself left out. -/
theorem ConditionsRead.mem_subscriptions {n : String} (h : f.ConditionsRead name n)
    {subs : FieldNames} (hsubs : f.subscriptionsFor name = .ok subs)
    (hne : FieldName.text n ≠ name) : FieldName.text n ∈ subs := by
  obtain ⟨field, chain, hfield, hchain, hreads⟩ := Form.mem_subscriptions hsubs
  obtain ⟨field', hfield', hn⟩ := h
  obtain rfl := Except.ok.inj (hfield.symm.trans hfield')
  have hmem : FieldName.text n ∈ name :: subs := by
    refine hreads n (.inr ?_)
    rcases hn with hown | ⟨chain', hchain', hgroup⟩
    · exact .inl hown
    · obtain rfl := Except.ok.inj (hchain.symm.trans hchain')
      exact .inr hgroup
  exact (List.mem_cons.1 hmem).resolve_left hne

/-! ### Fields without a group -/

section

variable {field : Field} (hfield : f.field name = .ok field) (hgroup : field.group = .none)

include hfield hgroup

/-- Without a group only the conditions of the field itself have to be clear. -/
theorem ConditionsClear.of_ungrouped (h : ∀ r ∈ field.conditions, r.IsClear) :
    f.ConditionsClear name where
  own field' hfield' := by
    obtain rfl := Except.ok.inj (hfield.symm.trans hfield')
    exact h
  groups field' chain hfield' hchain := by
    obtain rfl := Except.ok.inj (hfield.symm.trans hfield')
    rw [hgroup] at hchain
    obtain rfl : [] = chain := Except.ok.inj hchain
    exact List.forall_mem_nil _

/-- Without a group only the conditions of the field itself read anything. -/
theorem ConditionsRead.own {n : String} (h : f.ConditionsRead name n) :
    n ∈ Rule.allDependencies field.conditions := by
  obtain ⟨field', hfield', hn⟩ := h
  obtain rfl := Except.ok.inj (hfield.symm.trans hfield')
  rcases hn with hn | ⟨chain, hchain, g, hg, -⟩
  · exact hn
  · rw [hgroup] at hchain
    obtain rfl : [] = chain := Except.ok.inj hchain
    exact nomatch hg

end

/-! ### Code-free conditions -/

section

variable (host) (hf : f.CodeFree)

include hf

/-- The conditions of a field have the effect that they have without the host. -/
theorem fieldEffect_evaluateAll {field : Field} (hfield : f.field name = .ok field) :
    fieldEffect host f name = Rule.evaluateAll
      (Scene.ofSnapshot f.snapshot [(.text "name", name.toValue)]) field.conditions := by
  simp only [fieldEffect, hfield, Logged.ofExcept_bind]
  exact effectOf_eq host (hf.definition.conditions _ (mem_fields hfield)) hf.store.snapshot
    (List.forall_mem_singleton.2 (.ofKey name.key))

/-- The conditions of the groups around a group have the effects that they have without the host. -/
theorem groupState_evaluateAll (group : GroupRef) {chain : List Group}
    (hchain : f.definition.chain group = .ok chain) :
    groupState host f group = chain.foldlM (fun s g => do
      return s.add (← Rule.evaluateAll (Scene.ofSnapshot f.snapshot []) g.conditions)) {} := by
  simp only [groupState, hchain, Logged.ofExcept_bind]
  refine foldlM_congr (fun g hg s => ?_) ({} : GroupState)
  obtain ⟨k, hk⟩ := Definition.chain_mem hchain g hg
  have heffect : effectOf host f.snapshot [] g.conditions =
      Rule.evaluateAll (Scene.ofSnapshot f.snapshot []) g.conditions :=
    effectOf_eq host (hf.definition.groups _ hk) hf.store.snapshot (List.forall_mem_nil _)
  rw [heffect]

theorem fieldEffect_steady (name : FieldName) : (fieldEffect host f name).Steady := by
  cases hfield : f.field name with
  | error e =>
    simp only [fieldEffect, hfield, Logged.ofExcept_error_bind]
    exact .ofExcept _
  | ok field =>
    rw [fieldEffect_evaluateAll host hf hfield]
    exact Rule.evaluateAll_steady _ _

theorem groupState_steady (group : GroupRef) : (groupState host f group).Steady := by
  cases hchain : f.definition.chain group with
  | error e =>
    simp only [groupState, hchain, Logged.ofExcept_error_bind]
    exact .ofExcept _
  | ok chain =>
    rw [groupState_evaluateAll host hf group hchain]
    refine .foldlM (fun s g => ?_) chain _
    exact (Rule.evaluateAll_steady _ g.conditions).bind fun _ => .pure _

theorem effectiveSet_steady (name : FieldName) : (effectiveSet host f name).Steady := by
  unfold effectiveSet
  refine (fieldEffect_steady host hf name).bind fun own => ?_
  split
  · exact .pure _
  · exact (Logged.Steady.ofExcept _).bind fun field =>
      (groupState_steady host hf field.group).bind fun _ => .pure _

theorem isDisabled_steady (name : FieldName) : (isDisabled host f name).Steady := by
  unfold isDisabled
  refine (Logged.Steady.ofExcept _).bind fun field => ?_
  split
  · exact .pure _
  · refine (fieldEffect_steady host hf name).bind fun own => ?_
    split
    · exact .pure _
    · exact (groupState_steady host hf field.group).bind fun _ => .pure _

theorem fieldEffect_codeFree (name : FieldName) :
    (fieldEffect host f name).Gives fun e => e.setValue.CodeFree := by
  cases hfield : f.field name with
  | error e =>
    simp only [fieldEffect, hfield, Logged.ofExcept_error_bind]
    exact fun log => LiveForm.Gives.error e
  | ok field =>
    rw [fieldEffect_evaluateAll host hf hfield]
    exact Rule.evaluateAll_codeFree (hf.definition.conditions _ (mem_fields hfield)) hf.store.snapshot
      (List.forall_mem_singleton.2 (.ofKey name.key))

theorem groupState_codeFree (group : GroupRef) :
    (groupState host f group).Gives fun s => s.setValue.CodeFree := by
  cases hchain : f.definition.chain group with
  | error e =>
    simp only [groupState, hchain, Logged.ofExcept_error_bind]
    exact fun log => LiveForm.Gives.error e
  | ok chain =>
    rw [groupState_evaluateAll host hf group hchain]
    refine .foldlM (fun g hg s hstate => ?_) .null
    obtain ⟨k, hk⟩ := Definition.chain_mem hchain g hg
    have heffect := Rule.evaluateAll_codeFree (hf.definition.groups _ hk) hf.store.snapshot
      (List.forall_mem_nil _)
    refine heffect.bind fun e he => .pure ?_
    unfold GroupState.add
    dsimp only
    split
    · exact he
    · exact hstate

/-- The value that conditions give holds no code. -/
theorem effectiveSet_codeFree (name : FieldName) :
    (effectiveSet host f name).Gives fun given => ∀ v, given = some v → v.CodeFree := by
  unfold effectiveSet
  refine (fieldEffect_codeFree host hf name).bind fun own hown => ?_
  split
  · exact .pure fun v hv => Option.some.inj hv ▸ hown
  · refine Logged.Gives.after fun field => ?_
    refine (groupState_codeFree host hf field.group).bind fun s hstate => .pure ?_
    intro v hv
    split at hv
    · exact Option.some.inj hv ▸ hstate
    · exact nomatch hv

end

/-! ### Forms that know the same of what is read -/

/-- Two forms of one definition know the same of the fields that the conditions of a field read. -/
structure SameReads (f g : Form) (name : FieldName) : Prop where
  definition : g.definition = f.definition
  record : g.store.record = f.store.record
  reads : ∀ n, f.ConditionsRead name n → f.store.Alike g.store (.text n)

theorem field_eq (h : g.definition = f.definition) (name : FieldName) :
    g.field name = f.field name := by
  simp only [field, noField, h]

theorem subscriptionsFor_eq (h : g.definition = f.definition) (name : FieldName) :
    g.subscriptionsFor name = f.subscriptionsFor name := by
  simp only [subscriptionsFor, readsOf, field_eq h, h]

theorem isField_iff (h : g.definition = f.definition) (name : FieldName) :
    g.IsField name ↔ f.IsField name := by
  simp only [IsField, hasField, h]

theorem TextNames.congr (h : g.definition = f.definition) (hnames : f.TextNames) : g.TextNames :=
  fun n hn => hnames n ((isField_iff h n).1 hn)

theorem mem_fieldNames {x : FieldName} : x ∈ f.fieldNames ↔ f.IsField x := by
  have hany := Table.any_keys x f.definition.fields
  unfold IsField hasField Table.has
  rw [← hany, List.any_eq_true]
  simp [fieldNames]

theorem isField_of_field {field : Field} (h : f.field name = .ok field) : f.IsField name := by
  unfold Form.field at h
  split at h
  · next found => simp [IsField, hasField, Table.has, found]
  · exact nomatch h

theorem conditionsRead_iff (h : g.definition = f.definition) {n : String} :
    g.ConditionsRead name n ↔ f.ConditionsRead name n := by
  simp only [ConditionsRead, field_eq h, h]

theorem ConditionsClear.congr (h : g.definition = f.definition) (hclear : f.ConditionsClear name) :
    g.ConditionsClear name where
  own field hfield := hclear.own field ((field_eq h name).symm.trans hfield)
  groups field chain hfield hchain :=
    hclear.groups field chain ((field_eq h name).symm.trans hfield) (h ▸ hchain)

section

variable (host) (hsame : SameReads f g name) (hclear : f.ConditionsClear name) (hf : f.CodeFree)
  (hg : g.CodeFree)

include hsame hclear hf hg

theorem fieldEffect_eq_of_sameReads : fieldEffect host f name = fieldEffect host g name := by
  have hfields := field_eq hsame.definition name
  cases hfield : f.field name with
  | error e => simp only [fieldEffect, hfields, hfield, Logged.ofExcept_error_bind]
  | ok field =>
    rw [fieldEffect_evaluateAll host hf hfield,
      fieldEffect_evaluateAll host hg (hfields.trans hfield)]
    exact Rule.evaluateAll_eq (hclear.own field hfield) hsame.record.symm
      (fun n hn => (hsame.reads n ⟨field, hfield, .inl hn⟩).snapshot) _

theorem groupState_eq_of_sameReads {field : Field} (hfield : f.field name = .ok field) :
    groupState host f field.group = groupState host g field.group := by
  have hchains : g.definition.chain field.group = f.definition.chain field.group := by
    rw [hsame.definition]
  cases hchain : f.definition.chain field.group with
  | error e => simp only [groupState, hchains, hchain, Logged.ofExcept_error_bind]
  | ok chain =>
    rw [groupState_evaluateAll host hf _ hchain,
      groupState_evaluateAll host hg _ (hchains.trans hchain)]
    refine foldlM_congr (fun g' hg' s => ?_) ({} : GroupState)
    have heffect : Rule.evaluateAll (Scene.ofSnapshot f.snapshot []) g'.conditions =
        Rule.evaluateAll (Scene.ofSnapshot g.snapshot []) g'.conditions :=
      Rule.evaluateAll_eq (hclear.groups field chain hfield hchain g' hg') hsame.record.symm
        (fun n hn =>
          (hsame.reads n ⟨field, hfield, .inr ⟨chain, hchain, g', hg', hn⟩⟩).snapshot) _
    rw [heffect]

/-- The value that clear conditions give depends on the fields that they read. -/
theorem effectiveSet_eq : effectiveSet host f name = effectiveSet host g name := by
  have hfields := field_eq hsame.definition name
  have heffect := fieldEffect_eq_of_sameReads host hsame hclear hf hg
  cases hfield : f.field name with
  | error e => simp only [effectiveSet, heffect, hfields, hfield, Logged.ofExcept_error_bind]
  | ok field =>
    have hgroup := groupState_eq_of_sameReads host hsame hclear hf hg hfield
    simp only [effectiveSet, heffect, hfields, hfield, Logged.ofExcept_bind, hgroup]

/-- Whether clear conditions disable a field depends on the fields that they read. -/
theorem isDisabled_eq : isDisabled host f name = isDisabled host g name := by
  have hfields := field_eq hsame.definition name
  have heffect := fieldEffect_eq_of_sameReads host hsame hclear hf hg
  cases hfield : f.field name with
  | error e => simp only [isDisabled, hfields, hfield, Logged.ofExcept_error_bind]
  | ok field =>
    have hgroup := groupState_eq_of_sameReads host hsame hclear hf hg hfield
    simp only [isDisabled, heffect, hfields, hfield, Logged.ofExcept_bind, hgroup]

end

end Form

/-! ### What writing leaves alone -/

namespace Store

variable {s s' s'' : Store} {name m : FieldName}

theorem Alike.refl (s : Store) (name : FieldName) : s.Alike s name :=
  ⟨rfl, rfl, rfl, rfl, rfl, rfl⟩

theorem Alike.trans (h : s.Alike s' name) (g : s'.Alike s'' name) : s.Alike s'' name :=
  ⟨h.value.trans g.value, h.error.trans g.error, h.touched.trans g.touched,
    h.dirty.trans g.dirty, h.validating.trans g.validating, h.disabled.trans g.disabled⟩

theorem contains_add_of_ne {n m : FieldName} (h : n ≠ m) (s : FieldNames) :
    (Names.add n s).contains m = s.contains m := by
  rw [Bool.eq_iff_iff, List.contains_iff_mem, List.contains_iff_mem, Names.mem_add]
  exact ⟨fun hm => hm.resolve_right fun he => h he.symm, .inl⟩

theorem contains_remove_of_ne {n m : FieldName} (h : n ≠ m) (s : FieldNames) :
    (Names.remove n s).contains m = s.contains m := by
  rw [Bool.eq_iff_iff, List.contains_iff_mem, List.contains_iff_mem, Names.mem_remove]
  exact ⟨And.left, fun hm => ⟨hm, fun he => h he.symm⟩⟩

/-- Writing a field leaves what is known of a field with another text as its name. -/
theorem write_alike {a : String} (h : name ≠ .text a) (s : Store) (v : Value) (touch : Bool) :
    s.Alike (s.write name v touch) (.text a) where
  value := by
    have hkey : ¬(name.key == Key.text a) = true := fun hkey =>
      h (congrArg FieldName.mk (Key.eq_text hkey))
    have hput := Table.get?_text_put a name.key v s.values
    rw [if_neg hkey] at hput
    exact hput.symm
  error := rfl
  touched := by
    unfold write
    dsimp only
    split
    · exact (contains_add_of_ne h _).symm
    · rfl
  dirty := by
    unfold write
    dsimp only
    split
    · exact (contains_remove_of_ne h _).symm
    · exact (contains_add_of_ne h _).symm
  validating := rfl
  disabled := rfl

/-- The fields of which a validation is under way stand in the table with a number that counts. -/
theorem mem_validating : m ∈ s.validating ↔ ∃ n, (m, n) ∈ s.running ∧ 0 < n := by
  simp [validating]

theorem mem_put_of_ne (h : name ≠ m) (n k : Nat) (t : Table FieldName Nat) :
    (m, n) ∈ Table.put name k t ↔ (m, n) ∈ t := by
  induction t with
  | nil => simp [Table.put, h.symm]
  | cons e rest ih =>
    obtain ⟨m', n'⟩ := e
    rw [Table.put]
    split
    · next hname =>
      obtain rfl := eq_of_beq hname
      simp [h.symm]
    · rw [List.mem_cons, List.mem_cons, ih]

/-- A validation that begins leaves what is known of other fields. -/
theorem beginLater_alike (h : name ≠ m) (s : Store) (v : Value) :
    s.Alike (s.beginLater name v) m where
  value := rfl
  error := rfl
  touched := rfl
  dirty := rfl
  validating := by
    rw [Bool.eq_iff_iff, List.contains_iff_mem, List.contains_iff_mem, mem_validating,
      mem_validating]
    exact exists_congr fun n => and_congr_left fun _ => (mem_put_of_ne h n _ s.running).symm
  disabled := rfl

/-- Whoever is disabled, what is known of a field is the same but for its own mark. -/
theorem disable_alike {disabled : FieldNames} (s : Store)
    (h : m ∈ disabled ↔ m ∈ s.disabled) : s.Alike { s with disabled } m where
  value := rfl
  error := rfl
  touched := rfl
  dirty := rfl
  validating := rfl
  disabled := by rw [Bool.eq_iff_iff, List.contains_iff_mem, List.contains_iff_mem, h]

theorem CodeFree.write (h : s.CodeFree) (name : FieldName) {v : Value} (hv : v.CodeFree)
    (touch : Bool) : (s.write name v touch).CodeFree where
  values := Table.forall_put (P := Value.CodeFree) hv h.values
  defaults := h.defaults
  record := h.record
  errors := h.errors

theorem CodeFree.beginLater (h : s.CodeFree) (name : FieldName) (v : Value) :
    (s.beginLater name v).CodeFree :=
  ⟨h.values, h.defaults, h.record, h.errors⟩

theorem CodeFree.disable (h : s.CodeFree) (disabled : FieldNames) :
    ({ s with disabled } : Store).CodeFree :=
  ⟨h.values, h.defaults, h.record, h.errors⟩

end Store

end LiveForm
