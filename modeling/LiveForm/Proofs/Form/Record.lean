import Mathlib
import LiveForm.Proofs.Form.Validations
import LiveForm.Proofs.Value.Keys

/-!
# The stores that there have been

The last validation of a field is younger than the last change of the field. So while a validation is
the last of its field, it looks at the value that the field has, and the values of other fields by
which it judges are those of some store since it began (`Store.Seen`).

* `Store.Grows`: what every event does to the last validations and to the values.
* `Store.Recorded`: what the stores that there have been have to do with the present one.
-/

namespace LiveForm

namespace Store

/-! ### Growing stores -/

/-- One store comes after another: every field has the value and the last validation that it had, or
a validation of it has begun. -/
structure Grows (s s' : Store) : Prop where
  begun : s.begun ≤ s'.begun
  field : ∀ f, (Table.get? f s'.latest = Table.get? f s.latest ∧
      Table.get? f.key s'.values = Table.get? f.key s.values) ∨
    ∃ n, Table.get? f s'.latest = some n ∧ s.begun < n ∧ n ≤ s'.begun

variable {s s' s'' : Store}

theorem Grows.of_same (hbegun : s'.begun = s.begun) (hlatest : s'.latest = s.latest)
    (hvalues : s'.values = s.values) : s.Grows s' :=
  ⟨Nat.le_of_eq hbegun.symm, fun f => Or.inl ⟨by rw [hlatest], by rw [hvalues]⟩⟩

theorem Grows.trans (h : s.Grows s') (g : s'.Grows s'') : s.Grows s'' := by
  refine ⟨Nat.le_trans h.begun g.begun, fun f => ?_⟩
  rcases g.field f with ⟨hlatest, hvalue⟩ | ⟨n, hn, hlt, hle⟩
  · rcases h.field f with ⟨hlatest', hvalue'⟩ | ⟨n, hn, hlt, hle⟩
    · exact Or.inl ⟨hlatest.trans hlatest', hvalue.trans hvalue'⟩
    · exact Or.inr ⟨n, hlatest.trans hn, hlt, Nat.le_trans hle g.begun⟩
  · exact Or.inr ⟨n, hn, Nat.lt_of_le_of_lt h.begun hlt, hle⟩

/-- A field of which a validation has begun keeps a last validation. -/
theorem Grows.latest_ne_none (h : s.Grows s') {f : FieldName} (hf : Table.get? f s.latest ≠ none) :
    Table.get? f s'.latest ≠ none := by
  rcases h.field f with ⟨hlatest, -⟩ | ⟨n, hn, -, -⟩
  · rw [hlatest]
    exact hf
  · rw [hn]
    exact Option.some_ne_none n

theorem begin_grows (s : Store) (name : FieldName) (v : Value) : s.Grows (s.begin name v).2 := by
  refine ⟨Nat.le_succ _, fun f => ?_⟩
  rw [begin_latest]
  by_cases hname : name == f
  · rw [if_pos hname]
    exact Or.inr ⟨s.begun + 1, rfl, Nat.lt_succ_self _, Nat.le_refl _⟩
  · rw [if_neg hname]
    exact Or.inl ⟨rfl, rfl⟩

/-! ### Changes -/

/-- The value of a field that is written is the value. -/
theorem value_write {name : FieldName} (hname : ∃ a, name = .text a) (v : Value) (touch : Bool) :
    (s.write name v touch).value name = v := by
  obtain ⟨a, rfl⟩ := hname
  show (Table.get? (.text a) (Table.put (.text a) v s.values)).getD .null = v
  have hself : (Key.text a == Key.text a) = true := beq_self_eq_true a
  rw [Entries.get?_put_text, if_pos hself]
  rfl

/-- Other fields keep their values. -/
theorem get?_write_of_ne {name f : FieldName} (hname : ∃ a, name = .text a) (hne : name ≠ f)
    (v : Value) (touch : Bool) :
    Table.get? f.key (s.write name v touch).values = Table.get? f.key s.values := by
  obtain ⟨a, rfl⟩ := hname
  show Table.get? f.key (Table.put (.text a) v s.values) = _
  rw [Entries.get?_put_text, if_neg]
  intro hkey
  have hf : f.key = .text a := Key.text_eq hkey
  obtain ⟨k⟩ := f
  exact hne (congrArg FieldName.mk hf.symm)

namespace Edits

variable {isField : FieldName → Prop}

/-- A field that has been written waits to be validated, and its last validation is the one that
waits; other fields are as they were. -/
theorem field_cases (h : Edits isField s s') (htext : ∀ name, isField name → ∃ a, name = .text a)
    (f : FieldName) :
    (Table.get? f s'.latest = Table.get? f s.latest ∧
        Table.get? f.key s'.values = Table.get? f.key s.values) ∨
      ∃ t ∈ s'.waiting, t.name = f ∧ Table.get? f s'.latest = some t.number := by
  induction h with
  | refl => exact Or.inl ⟨rfl, rfl⟩
  | @set s' name v touch _ hname ih =>
    have hlatest := (s'.write name v touch).begin_latest f name v
    by_cases hf : name == f
    · obtain rfl := eq_of_beq hf
      rw [if_pos hf] at hlatest
      refine Or.inr ⟨((s'.write name v touch).begin name v).1, ?_, rfl, hlatest⟩
      exact List.mem_append_right _ (List.mem_singleton.2 rfl)
    · rw [if_neg hf] at hlatest
      rcases ih with ⟨hold, hvalue⟩ | ⟨t, ht, hname', hold⟩
      · exact Or.inl ⟨hlatest.trans hold,
          (get?_write_of_ne (htext name hname) (by simpa using hf) v touch).trans hvalue⟩
      · exact Or.inr ⟨t, List.mem_append_left _ ht, hname', hlatest.trans hold⟩
  | disable disabled _ ih => exact ih

/-- A validation that waits has been waiting, or is a new one, which looks at the value that its
field has, if it is the last of the field. -/
theorem waiting_cases (h : Edits isField s s')
    (htext : ∀ name, isField name → ∃ a, name = .text a) :
    s.begun ≤ s'.begun ∧ ∀ t ∈ s'.waiting, t ∈ s.waiting ∨
      (s.begun < t.number ∧ t.number ≤ s'.begun ∧
        (Table.get? t.name s'.latest = some t.number → t.value = s'.value t.name)) := by
  induction h with
  | refl => exact ⟨Nat.le_refl _, fun t ht => Or.inl ht⟩
  | @set s' name v touch _ hname ih =>
    obtain ⟨hbegun, ih⟩ := ih
    refine ⟨Nat.le_succ_of_le hbegun, fun t ht => ?_⟩
    have hlatest := (s'.write name v touch).begin_latest t.name name v
    rcases List.mem_append.1 ht with hold | hnew
    · rcases ih t hold with hin | ⟨hlt, hle, hvalue⟩
      · exact Or.inl hin
      · refine Or.inr ⟨hlt, Nat.le_succ_of_le hle, fun hlast => ?_⟩
        have hlast' := hlatest.symm.trans hlast
        by_cases hf : name == t.name
        · rw [if_pos hf] at hlast'
          have hnumber : s'.begun + 1 = t.number := Option.some.inj hlast'
          omega
        · rw [if_neg hf] at hlast'
          have hsame := get?_write_of_ne (s := s') (htext name hname)
            (show name ≠ t.name by simpa using hf) v touch
          rw [hvalue hlast']
          unfold Store.value
          exact congrArg (fun o => o.getD Value.null) hsame.symm
    · obtain rfl := List.mem_singleton.1 hnew
      refine Or.inr ⟨Nat.lt_succ_of_le hbegun, Nat.le_refl _, fun _ => ?_⟩
      exact (value_write (htext name hname) v touch).symm
  | disable disabled _ ih => exact ih

/-- An edit makes the store grow, if nothing has been waiting. -/
theorem grows (h : Edits isField s s') (htext : ∀ name, isField name → ∃ a, name = .text a)
    (hwaiting : s.waiting = []) : s.Grows s' := by
  obtain ⟨hbegun, hnew⟩ := h.waiting_cases htext
  refine ⟨hbegun, fun f => ?_⟩
  rcases h.field_cases htext f with hsame | ⟨t, ht, -, hlatest⟩
  · exact Or.inl hsame
  · rcases hnew t ht with hold | ⟨hlt, hle, -⟩
    · rw [hwaiting] at hold
      exact absurd hold (by simp)
    · exact Or.inr ⟨t.number, hlatest, hlt, hle⟩

/-- An edit leaves the errors alone. -/
theorem error? (h : Edits isField s s') (f : FieldName) : s'.error? f = s.error? f := by
  induction h with
  | refl => rfl
  | set name v touch _ _ ih => exact ih
  | disable disabled _ ih => exact ih

end Edits

/-! ### Stores that there have been -/

/-- Among the stores that there have been there is one with these values, in which the validation of
the number was the last of the field. -/
def Seen (past : List Store) (f : FieldName) (n : Nat) (values : Entries) : Prop :=
  ∃ s ∈ past, Table.get? f s.latest = some n ∧ s.values = values

theorem seen_append {past : List Store} {f : FieldName} {n : Nat} {values : Entries} :
    Seen (past ++ [s]) f n values ↔
      Seen past f n values ∨ (Table.get? f s.latest = some n ∧ s.values = values) := by
  constructor
  · rintro ⟨st, hst, h⟩
    rcases List.mem_append.1 hst with hold | hnew
    · exact Or.inl ⟨st, hold, h⟩
    · obtain rfl := List.mem_singleton.1 hnew
      exact Or.inr h
  · rintro (⟨st, hst, h⟩ | h)
    · exact ⟨st, List.mem_append_left _ hst, h⟩
    · exact ⟨s, List.mem_append_right _ (List.mem_singleton.2 rfl), h⟩

theorem Seen.later {past : List Store} {f : FieldName} {n : Nat} {values : Entries}
    (h : Seen past f n values) (s : Store) : Seen (past ++ [s]) f n values :=
  seen_append.2 (Or.inl h)

/-- The present store is one of those that there have been. No validation has a number that has not
been given, and while a validation is the last of its field, the field keeps its value. -/
structure Recorded (past : List Store) (s : Store) : Prop where
  now : s ∈ past
  bound : ∀ f n values, Seen past f n values → n ≤ s.begun
  own : ∀ f n values, Table.get? f s.latest = some n → Seen past f n values →
    Table.get? f.key values = Table.get? f.key s.values

/-- Since its last validation began, the values have been those of the present. -/
def Caught (past : List Store) (s : Store) (f : FieldName) : Prop :=
  ∃ n, Table.get? f s.latest = some n ∧ ∀ values, Seen past f n values → values = s.values

namespace Recorded

variable {past : List Store}

theorem latest_le (h : Recorded past s) {f : FieldName} {n : Nat}
    (hn : Table.get? f s.latest = some n) : n ≤ s.begun :=
  h.bound f n s.values ⟨s, h.now, hn, rfl⟩

/-- A store that grows is recorded. -/
theorem grow (h : Recorded past s) (g : s.Grows s') : Recorded (past ++ [s']) s' := by
  refine ⟨List.mem_append_right past (List.mem_singleton.2 rfl), ?_, ?_⟩
  · intro f n values hseen
    rcases seen_append.1 hseen with hold | ⟨hn, -⟩
    · exact Nat.le_trans (h.bound f n values hold) g.begun
    · rcases g.field f with ⟨hlatest, -⟩ | ⟨m, hm, -, hle⟩
      · exact Nat.le_trans (h.latest_le (hlatest.symm.trans hn)) g.begun
      · obtain rfl := Option.some.inj (hm.symm.trans hn)
        exact hle
  · intro f n values hn hseen
    rcases seen_append.1 hseen with hold | ⟨-, rfl⟩
    · rcases g.field f with ⟨hlatest, hvalue⟩ | ⟨m, hm, hlt, -⟩
      · exact (h.own f n values (hlatest.symm.trans hn) hold).trans hvalue.symm
      · obtain rfl := Option.some.inj (hm.symm.trans hn)
        exact absurd (h.bound f m values hold) (Nat.not_le.2 hlt)
    · rfl

/-- A field whose validation begins has been caught up with. -/
theorem caught_of_lt (h : Recorded past s) {f : FieldName} {n : Nat}
    (hn : Table.get? f s'.latest = some n) (hlt : s.begun < n) : Caught (past ++ [s']) s' f := by
  refine ⟨n, hn, fun values hseen => ?_⟩
  rcases seen_append.1 hseen with hold | ⟨-, rfl⟩
  · exact absurd (h.bound f n values hold) (Nat.not_le.2 hlt)
  · rfl

/-- While the values stay the same, a field stays caught up with. -/
theorem caught_grow (h : Recorded past s) (g : s.Grows s') (hvalues : s'.values = s.values)
    {f : FieldName} (hf : Caught past s f) : Caught (past ++ [s']) s' f := by
  obtain ⟨n, hn, hall⟩ := hf
  rcases g.field f with ⟨hlatest, -⟩ | ⟨m, hm, hlt, -⟩
  · refine ⟨n, hlatest.trans hn, fun values hseen => ?_⟩
    rcases seen_append.1 hseen with hold | ⟨-, rfl⟩
    · exact (hall values hold).trans hvalues.symm
    · rfl
  · exact h.caught_of_lt hm hlt

end Recorded

end Store

end LiveForm
