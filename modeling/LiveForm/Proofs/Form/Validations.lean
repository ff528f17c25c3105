import Mathlib
import LiveForm.Proofs.Form.Edits
import LiveForm.Proofs.Value.Table

/-!
# Validations of a store

How the beginning and the end of a validation change what the store knows about each field: how many
validations of it are under way, what its error is, and which of its validations is the last.
-/

namespace LiveForm

namespace Store

variable (s : Store) (f : FieldName)

/-- How many validations of the field are under way. -/
def underway : Nat :=
  (Table.get? f s.running).getD 0

/-- How many validations of the field wait for their turn. -/
def waitingOf : Nat :=
  s.waiting.countP fun t => t.name == f

theorem isValidating_iff : s.isValidating f = false ↔ s.underway f = 0 := by
  unfold isValidating underway
  cases Table.get? f s.running with
  | none => simp
  | some n => simp

/-! ### Beginnings -/

section

variable (name : FieldName) (v : Value)

theorem begin_underway :
    (s.begin name v).2.underway f = s.underway f + (name == f).toNat := by
  show (Table.get? f (Table.put name ((Table.get? name s.running).getD 0 + 1) s.running)).getD 0 = _
  rw [Table.get?_put]
  cases h : name == f with
  | true =>
    obtain rfl := eq_of_beq h
    rfl
  | false => rfl

theorem begin_latest :
    Table.get? f (s.begin name v).2.latest =
      if name == f then some (s.begun + 1) else Table.get? f s.latest :=
  Table.get?_put name f (s.begun + 1) s.latest

@[simp] theorem write_underway (touch : Bool) :
    (s.write name v touch).underway f = s.underway f := rfl

theorem beginLater_waitingOf :
    (s.beginLater name v).waitingOf f = s.waitingOf f + (name == f).toNat := by
  show (s.waiting ++ [(s.begin name v).1]).countP _ = _
  rw [List.countP_append, List.countP_singleton]
  show _ = s.waiting.countP _ + _
  cases h : name == f with
  | true => simp [begin, h]
  | false => simp [begin, h]

theorem beginLater_underway :
    (s.beginLater name v).underway f = s.underway f + (name == f).toNat :=
  s.begin_underway f name v

end

/-- Every edit that begins a validation lets it wait. -/
theorem Edits.underway {isField : FieldName → Prop} {s s' : Store} (h : Edits isField s s')
    (f : FieldName) : s'.underway f + s.waitingOf f = s.underway f + s'.waitingOf f := by
  induction h with
  | refl => rfl
  | @set s' name v touch _ _ ih =>
    have hu := (s'.write name v touch).beginLater_underway f name v
    have hw := (s'.write name v touch).beginLater_waitingOf f name v
    have hwrite : (s'.write name v touch).waitingOf f = s'.waitingOf f := rfl
    rw [write_underway] at hu
    omega
  | disable disabled _ ih => exact ih

/-! ### Ends -/

section

variable (t : Ticket) (found : Except Fault (Option Issue))

theorem finish_cases : ∃ errors, s.finish t found =
    { s with
      running := Table.put t.name ((Table.get? t.name s.running).getD 0 - 1) s.running
      errors } := by
  unfold finish
  cases found with
  | error e => exact ⟨s.errors, rfl⟩
  | ok issue =>
    by_cases hl : (Table.get? t.name s.latest != some t.number) = true
    · exact ⟨s.errors, by simp only [if_pos hl]⟩
    · cases issue with
      | none => exact ⟨Table.drop t.name s.errors, by simp only [if_neg hl]⟩
      | some i => exact ⟨Table.put t.name i s.errors, by simp only [if_neg hl]⟩

theorem finish_underway :
    (s.finish t found).underway f = s.underway f - (t.name == f).toNat := by
  obtain ⟨errors, h⟩ := s.finish_cases t found
  unfold underway
  rw [h, Table.get?_put]
  cases hn : t.name == f with
  | true =>
    obtain rfl := eq_of_beq hn
    rfl
  | false => rfl

@[simp] theorem finish_waiting : (s.finish t found).waiting = s.waiting := by
  obtain ⟨errors, h⟩ := s.finish_cases t found
  rw [h]

@[simp] theorem finish_values : (s.finish t found).values = s.values := by
  obtain ⟨errors, h⟩ := s.finish_cases t found
  rw [h]

@[simp] theorem finish_latest : (s.finish t found).latest = s.latest := by
  obtain ⟨errors, h⟩ := s.finish_cases t found
  rw [h]

@[simp] theorem finish_begun : (s.finish t found).begun = s.begun := by
  obtain ⟨errors, h⟩ := s.finish_cases t found
  rw [h]

@[simp] theorem finish_submitted : (s.finish t found).submitted = s.submitted := by
  obtain ⟨errors, h⟩ := s.finish_cases t found
  rw [h]

/-- The last validation of a field decides about the field's error. -/
theorem finish_error?_of_latest (issue : Option Issue)
    (h : Table.get? t.name s.latest = some t.number) :
    (s.finish t (.ok issue)).error? t.name = issue := by
  have hl : (Table.get? t.name s.latest != some t.number) = false := by
    rw [h]
    simp
  unfold finish error?
  cases issue with
  | none => simp [hl]
  | some i => simp [hl, Table.get?_put_self]

/-- A validation that is not the last of its field leaves the errors alone. -/
theorem finish_error?_of_stale (h : Table.get? t.name s.latest ≠ some t.number) :
    (s.finish t found).error? f = s.error? f := by
  have hl : (Table.get? t.name s.latest != some t.number) = true := by simpa using h
  unfold finish
  cases found with
  | error e => rfl
  | ok issue => simp only [if_pos hl]; rfl

/-- The end of a validation leaves the errors of other fields alone. -/
theorem finish_error?_of_ne (h : t.name ≠ f) : (s.finish t found).error? f = s.error? f := by
  by_cases hl : Table.get? t.name s.latest = some t.number
  · have hl' : (Table.get? t.name s.latest != some t.number) = false := by
      rw [hl]
      simp
    have hne : (t.name == f) = false := by simpa using h
    unfold finish error?
    cases found with
    | error e => rfl
    | ok issue =>
      cases issue with
      | none => simp [hl', Table.get?_drop_of_ne hne]
      | some i => simp [hl', Table.get?_put_of_ne hne]
  · exact s.finish_error?_of_stale f t found hl

end

end Store

end LiveForm
