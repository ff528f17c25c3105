import Mathlib
import LiveForm.Proofs.Form.Operation
import LiveForm.Proofs.Form.Record
import LiveForm.Proofs.Value.Equality

/-!
# Dirty fields

A field is dirty just if its value differs from its default: writing a value sets the mark by this
comparison, and nothing else touches values, defaults or marks (`Store.Written.dirtyExact`). All
that is done to a form writes values in this way or leaves them alone: changes, the values that
conditions give, and setting a form up (`Form.changeField_overwrites`, `Form.setUp_overwrites`).
-/

namespace LiveForm

namespace Store

/-! ### Written stores -/

/-- Another store with the same values, the same defaults and the same dirty fields. -/
structure Same (s t : Store) : Prop where
  values : t.values = s.values
  defaults : t.defaults = s.defaults
  dirty : t.dirty = s.dirty

theorem Same.refl (s : Store) : s.Same s :=
  ⟨rfl, rfl, rfl⟩

theorem Same.trans {s t u : Store} (h : s.Same t) (g : t.Same u) : s.Same u :=
  ⟨g.values.trans h.values, g.defaults.trans h.defaults, g.dirty.trans h.dirty⟩

/-- Values have been written, one after the other. -/
inductive Written (s : Store) : Store → Prop
  | same {t : Store} : s.Same t → Written s t
  | write {t u : Store} (name : FieldName) (v : Value) (touch : Bool) : Written s t →
      (t.write name v touch).Same u → Written s u

namespace Written

variable {s t u : Store}

theorem refl (s : Store) : s.Written s :=
  .same (.refl s)

theorem then_same (h : s.Written t) (g : t.Same u) : s.Written u := by
  cases h with
  | same h => exact .same (h.trans g)
  | write name v touch h hu => exact .write name v touch h (hu.trans g)

theorem trans (h : s.Written t) (g : t.Written u) : s.Written u := by
  induction g with
  | same g => exact h.then_same g
  | write name v touch _ hu ih => exact .write name v touch ih hu

end Written

/-! ### Exact marks -/

/-- The field is dirty just if its value differs from its default. -/
def DirtyExact (s : Store) (f : FieldName) : Prop :=
  f ∈ s.dirty ↔ (s.value f).strictEq (s.default f) = false

theorem DirtyExact.of_same {s t : Store} {f : FieldName} (h : s.DirtyExact f) (hst : s.Same t) :
    t.DirtyExact f := by
  unfold DirtyExact value default
  rw [hst.dirty, hst.values, hst.defaults]
  exact h

/-- Writing keeps the mark of a text exact: if it is the one that is written, the mark is set by the
comparison, and any other keeps its value and its mark. -/
theorem DirtyExact.write {s : Store} {a : String} (h : s.DirtyExact (.text a)) (name : FieldName)
    (v : Value) (touch : Bool) : (s.write name v touch).DirtyExact (.text a) := by
  have hdefault : (s.write name v touch).default (.text a) = s.default (.text a) := rfl
  have hdirty : (s.write name v touch).dirty =
      if v.strictEq (s.default name) then Names.remove name s.dirty
      else Names.add name s.dirty := rfl
  unfold DirtyExact
  rw [hdefault, hdirty]
  by_cases hname : name = .text a
  · subst hname
    rw [value_write ⟨a, rfl⟩]
    cases v.strictEq (s.default (.text a)) <;> simp
  · have hkey : ¬ (name.key == .text a) = true := by
      intro hkey
      obtain ⟨k⟩ := name
      exact hname (congrArg FieldName.mk (Key.eq_text hkey))
    have hvalue : (s.write name v touch).value (.text a) = s.value (.text a) := by
      show (Table.get? (.text a) (Table.put name.key v s.values)).getD .null = _
      rw [Table.get?_text_put, if_neg hkey]
      rfl
    have hother : FieldName.text a ≠ name := fun he => hname he.symm
    have hmark : FieldName.text a ∈ (if v.strictEq (s.default name) then Names.remove name s.dirty
        else Names.add name s.dirty) ↔ FieldName.text a ∈ s.dirty := by
      split <;> simp [hother]
    rw [hvalue, hmark]
    exact h

/-- **However values are written, the marks stay exact.** -/
theorem Written.dirtyExact {s t : Store} {a : String} (h : s.Written t)
    (hs : s.DirtyExact (.text a)) : t.DirtyExact (.text a) := by
  induction h with
  | same g => exact hs.of_same g
  | write name v touch _ hu ih => exact (ih.write name v touch).of_same hu

/-- In a new store nothing is dirty, and what is regular does not differ from itself. -/
theorem ofDefinition_dirtyExact {d : Definition} {record defaults : Value} {s : Store}
    (h : ofDefinition d record defaults = .ok s) (hdefaults : ∀ e ∈ s.defaults, e.2.Regular)
    (f : FieldName) : s.DirtyExact f := by
  obtain ⟨values, record', messages, rfl⟩ := ofDefinition_eq h
  have hregular : Value.Regular ((Table.get? f.key values).getD .null) := by
    cases hfound : Table.get? f.key values with
    | none => exact .null
    | some v =>
      obtain ⟨k, hk⟩ := Table.exists_mem_of_get? hfound
      exact hdefaults _ hk
  unfold DirtyExact value default
  rw [hregular.strictEq_self]
  simp

/-! ### What writes no value -/

theorem begin_same (s : Store) (name : FieldName) (v : Value) : s.Same (s.begin name v).2 :=
  ⟨rfl, rfl, rfl⟩

theorem beginLater_same (s : Store) (name : FieldName) (v : Value) :
    s.Same (s.beginLater name v) :=
  ⟨rfl, rfl, rfl⟩

theorem finish_same (s : Store) (t : Ticket) (found : Except Fault (Option Issue)) :
    s.Same (s.finish t found) := by
  obtain ⟨errors, hfinish⟩ := s.finish_cases t found
  rw [hfinish]
  exact ⟨rfl, rfl, rfl⟩

end Store

namespace Form

open FormOp (Keeps)

/-! ### Operations -/

/-- To the values of the form nothing has been done but that some have been written. -/
def Overwrites (f f' : Form) : Prop :=
  f.store.Written f'.store

instance : IsPreorder Form Overwrites where
  refl f := .refl f.store
  trans _ _ _ h g := Store.Written.trans h g

theorem change_overwrites {g : Form → Form} (h : ∀ f : Form, f.store.Same (g f).store) :
    Keeps Overwrites (FormOp.change g) :=
  fun f _ => .same (h f)

theorem setValue_overwrites (name : FieldName) (v : Value) (touch validate : Bool) :
    Keeps Overwrites (setValue name v touch validate) := by
  intro f log
  rw [runOn_setValue]
  refine .write name v touch (.refl f.store) ?_
  dsimp only
  split
  · exact (f.store.write name v touch).beginLater_same name v
  · exact .refl _

theorem markChanged_overwrites (name : FieldName) : Keeps Overwrites (markChanged name) := by
  intro f log
  rw [runOn_markChanged]
  split <;> exact .refl f.store

theorem saveChange_overwrites (name : FieldName) (v : Value) :
    Keeps Overwrites (saveChange name v) := by
  unfold saveChange
  exact (setValue_overwrites name v true true).bind fun _ => markChanged_overwrites name

theorem disable_overwrites (disabled : FieldNames) : Keeps Overwrites
    (FormOp.change fun f => { f with store := { f.store with disabled } }) :=
  change_overwrites fun _ => ⟨rfl, rfl, rfl⟩

/-- A change of a field writes its value and those that conditions give, whether or not it comes to
its end. -/
theorem changeField_overwrites (host : Host) (name : FieldName) (v : Value) :
    Keeps Overwrites (changeField host name v) := by
  have haftermath : Keeps Overwrites (propagate host name >>= fun _ => refreshDisabled host) :=
    aftermath_keeps host (fun name v => setValue_overwrites name v false true) disable_overwrites name
  unfold changeField
  refine (Keeps.look _).bind fun _ => Keeps.get.bind fun f => ?_
  split
  · exact (saveChange_overwrites name v).bind fun _ => haftermath
  · exact (setValue_overwrites name v true true).bind fun _ => haftermath

/-- Setting a form up writes the values that conditions give at the start. -/
theorem setUp_overwrites (host : Host) : Keeps Overwrites (setUp host) :=
  setUp_keeps host (mount_keeps fun _ => change_overwrites fun _ => .refl _)
    (fun name v => setValue_overwrites name v false false) disable_overwrites

end Form

end LiveForm
