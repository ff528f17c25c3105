import Mathlib
import LiveForm.Proofs.Form.Reading
import LiveForm.Proofs.Form.Record

/-!
# Giving a field the value of its conditions

A field is settled if its conditions give it no value, or nothing, or the value that it has. A field
that is to be given its value is either settled and left alone, or the value is written
(`applySet_returned`).
-/

namespace LiveForm

namespace Form

variable {host : Host} {f f' : Form} {name : FieldName} {v : Value} {log log' : Log}

/-- The conditions of the field give it no value, or nothing, or one that its value equals. -/
def Settled (host : Host) (f : Form) (name : FieldName) : Prop :=
  ∃ given, (effectiveSet host f name).runNew.1 = .ok given ∧
    ∀ v, given = some v → v ≠ .null → (f.store.value name).strictEq v = true

/-- The field has the very value that its conditions give it. -/
def Holds (host : Host) (f : Form) (name : FieldName) : Prop :=
  (effectiveSet host f name).runNew.1 = .ok (some (f.store.value name))

/-- A value that equals itself settles the field that has it. -/
theorem Holds.settled (h : Holds host f name)
    (hself : (f.store.value name).strictEq (f.store.value name) = true) : Settled host f name :=
  ⟨_, h, fun _ hv _ => Option.some.inj hv ▸ hself⟩

/-- The field is settled, or it has the very value that its conditions give it. The two differ for
a value that does not equal itself. -/
def AtRest (host : Host) (f : Form) (name : FieldName) : Prop :=
  Settled host f name ∨ Holds host f name

/-- Where the conditions give a field the same and its value is the same, it rests as it did. -/
theorem AtRest.congr (hset : effectiveSet host f name = effectiveSet host f' name)
    (hvalue : f'.store.value name = f.store.value name) (h : AtRest host f name) :
    AtRest host f' name := by
  unfold AtRest Settled Holds
  rw [hvalue, ← hset]
  exact h

/-- A field rests as it did where neither its value nor anything that its conditions read is
different. -/
theorem AtRest.of_sameReads (hsame : SameReads f f' name) (hclear : f.ConditionsClear name)
    (hf : f.CodeFree) (hf' : f'.CodeFree) (hvalue : f'.store.value name = f.store.value name)
    (h : AtRest host f name) : AtRest host f' name :=
  h.congr (effectiveSet_eq host hsame hclear hf hf') hvalue

/-! ### Writing -/

/-- The form once a value has been written, with a validation of it begun if that is wanted. -/
def written (f : Form) (name : FieldName) (v : Value) (touch validate : Bool) : Form :=
  { f with store :=
      if validate && f.clock.isSome then (f.store.write name v touch).beginLater name v
      else f.store.write name v touch }

section

variable (touch validate : Bool)

theorem setValue_written : (setValue name v touch validate).runOn f log =
    (.ok (), f.written name v touch validate, log) :=
  rfl

@[simp] theorem written_definition : (f.written name v touch validate).definition = f.definition :=
  rfl

@[simp] theorem written_graph : (f.written name v touch validate).graph = f.graph :=
  rfl

@[simp] theorem written_disabled :
    (f.written name v touch validate).store.disabled = f.store.disabled := by
  unfold written
  dsimp only
  split <;> rfl

@[simp] theorem written_record :
    (f.written name v touch validate).store.record = f.store.record := by
  unfold written
  dsimp only
  split <;> rfl

theorem written_value (hname : ∃ a, name = .text a) :
    (f.written name v touch validate).store.value name = v := by
  have hwrite := Store.value_write (s := f.store) hname v touch
  unfold written
  dsimp only
  split <;> exact hwrite

/-- Writing a field leaves the values of the others. -/
theorem written_value_of_ne {m : FieldName} (hname : ∃ a, name = .text a) (hne : name ≠ m) :
    (f.written name v touch validate).store.value m = f.store.value m := by
  have hget := Store.get?_write_of_ne (s := f.store) hname hne v touch
  have hvalue : (f.store.write name v touch).value m = f.store.value m :=
    congrArg (fun o => o.getD Value.null) hget
  unfold written
  dsimp only
  split <;> exact hvalue

/-- Writing a field leaves what is known of the others. -/
theorem written_alike {a : String} (h : name ≠ .text a) :
    f.store.Alike (f.written name v touch validate).store (.text a) := by
  have hwrite := Store.write_alike h f.store v touch
  unfold written
  dsimp only
  split
  · exact hwrite.trans (Store.beginLater_alike h _ v)
  · exact hwrite

theorem CodeFree.written (hf : f.CodeFree) (hv : v.CodeFree) :
    (f.written name v touch validate).CodeFree where
  definition := hf.definition
  store := by
    have hwrite := hf.store.write name hv touch
    unfold Form.written
    dsimp only
    split
    · exact hwrite.beginLater name v
    · exact hwrite

end

/-! ### Giving -/

/-- Giving a field the value of its conditions leaves it alone, if they give it none or one that it
has, and else writes the value. -/
theorem applySet_cases {validate given : Bool}
    (h : (applySet host name validate).runOn f log = (.ok given, f', log')) :
    ∃ found, (effectiveSet host f name log).1 = .ok found ∧
      ((given = false ∧ f' = f ∧
          ∀ v, found = some v → v ≠ .null → (f.store.value name).strictEq v = true) ∨
        (given = true ∧ ∃ v, found = some v ∧ f' = f.written name v false validate)) := by
  rw [applySet, FormOp.runOn_bind_ok] at h
  obtain ⟨found, f₁, log₁, hlook, h⟩ := h
  obtain ⟨hset, rfl, rfl⟩ := FormOp.runOn_look_ok.1 hlook
  refine ⟨found, hset, ?_⟩
  split at h
  · obtain ⟨rfl, rfl, -⟩ := FormOp.runOn_pure_ok.1 h
    exact .inl ⟨rfl, rfl, fun v hv => nomatch hv⟩
  · obtain ⟨rfl, rfl, -⟩ := FormOp.runOn_pure_ok.1 h
    exact .inl ⟨rfl, rfl, fun v hv hnull => absurd (Option.some.inj hv).symm hnull⟩
  · next v _ =>
    rw [FormOp.runOn_get_bind] at h
    split at h
    · next heq =>
      obtain ⟨rfl, rfl, -⟩ := FormOp.runOn_pure_ok.1 h
      exact .inl ⟨rfl, rfl, fun w hw _ => Option.some.inj hw ▸ heq⟩
    · rw [FormOp.runOn_bind, setValue_written] at h
      obtain ⟨rfl, rfl, -⟩ := FormOp.runOn_pure_ok.1 h
      exact .inr ⟨rfl, v, rfl, rfl⟩

/-- What comes of giving a field the value of its conditions: it is settled and left alone, or it is
given the value. -/
theorem applySet_returned (hf : f.CodeFree) {validate given : Bool}
    (h : (applySet host name validate).runOn f log = (.ok given, f', log')) :
    (given = false ∧ f' = f ∧ Settled host f name) ∨
      (given = true ∧ ∃ v, (effectiveSet host f name).runNew.1 = .ok (some v) ∧ v.CodeFree ∧
        f' = f.written name v false validate) := by
  obtain ⟨found, hset, hcases⟩ := applySet_cases h
  have hfound := (effectiveSet_steady host hf name log).symm.trans hset
  rcases hcases with ⟨hgiven, hform, hequal⟩ | ⟨hgiven, v, rfl, hform⟩
  · exact .inl ⟨hgiven, hform, found, hfound, hequal⟩
  · exact .inr ⟨hgiven, v, hfound, effectiveSet_codeFree host hf name log (some v) hset v rfl, hform⟩

/-! ### Changes -/

/-- One form is another in which a change has been written, and perhaps noted for the next save. -/
structure Noted (f f' : Form) (name : FieldName) (v : Value) : Prop where
  definition : f'.definition = f.definition
  graph : f'.graph = f.graph
  store : f'.store = (f.written name v true true).store

theorem CodeFree.noted {f₁ : Form} (h : Noted f f₁ name v) (hf : f.CodeFree) (hv : v.CodeFree) :
    f₁.CodeFree where
  definition := h.definition ▸ hf.definition
  store := h.store ▸ (hf.written true true hv).store

/-- Who is disabled is taken down, and nothing else is done. -/
theorem refreshDisabled_returned
    (h : (refreshDisabled host).runOn f log = (.ok (), f', log')) :
    ∃ disabled, (disabledAmong host f f.fieldNames log).1 = .ok disabled ∧
      f' = { f with store := { f.store with disabled } } := by
  rw [refreshDisabled, FormOp.runOn_bind_ok] at h
  obtain ⟨disabled, f₁, log₁, hlook, h⟩ := h
  obtain ⟨hfound, rfl, rfl⟩ := FormOp.runOn_look_ok.1 hlook
  rw [FormOp.runOn_change] at h
  simp only [Prod.mk.injEq, true_and] at h
  exact ⟨disabled, hfound, h.1.symm⟩

end Form

end LiveForm
