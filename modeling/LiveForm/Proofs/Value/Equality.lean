import Mathlib
import LiveForm.Value.Compare

/-!
# Values that equal themselves

The float that stands for no number does not equal itself. A value in which it does not stand,
however deep, and whose maps have distinct keys does (`Value.Regular.strictEq_self`), also behind
wrappings.
-/

namespace LiveForm

/-! ### Numbers -/

namespace Number

/-- It is not the float that stands for no number. -/
def IsProper : Number → Prop
  | int _ => True
  | float x => x.isNaN = false

theorem unpacked_compare_self {u : Float.Model.UnpackedFloat} (h : u.isNaN = false) :
    u.compare u = some .eq := by
  cases u with
  | notANumber => exact nomatch h
  | infinity s => cases s <;> rfl
  | zero s => rfl
  | finite s m e hm => cases s <;> simp [Float.Model.UnpackedFloat.compare]

theorem IsProper.eqv_self {n : Number} (h : n.IsProper) : n.eqv n = true := by
  cases n with
  | int a => simp [eqv, compare?]
  | float x =>
    have hcompare : x.toModel.unpack.compare x.toModel.unpack = some .eq := unpacked_compare_self h
    have hlt : ¬ x < x := by
      intro hlt
      have hlt' : (x.toModel.unpack.compare x.toModel.unpack == some .lt) = true :=
        of_decide_eq_true hlt
      rw [hcompare] at hlt'
      exact nomatch hlt'
    have heq : (x == x) = true := by
      have heq' : (x == x) = (x.toModel.unpack.compare x.toModel.unpack == some .eq) := rfl
      rw [heq', hcompare]
      rfl
    simp [eqv, compare?, hlt, heq]

end Number

/-! ### Maps -/

/-- The key is not the float that stands for no number. -/
def Key.IsProper : Key → Prop
  | number n => n.IsProper
  | _ => True

theorem Key.IsProper.beq_self {k : Key} (h : k.IsProper) : (k == k) = true := by
  cases k with
  | null => rfl
  | bool b => exact Number.IsProper.eqv_self (n := .int (if b then 1 else 0)) trivial
  | number n => exact Number.IsProper.eqv_self h
  | text s => exact beq_self_eq_true s

/-- The entries are those of a map: their keys are distinct, and each equals itself. -/
structure Entries.Keyed (es : Entries) : Prop where
  proper : ∀ e ∈ es, e.1.IsProper
  distinct : es.Pairwise fun a b => (a.1 == b.1) = false

/-- Each value of a map is found under its key. -/
theorem Entries.Keyed.get?_of_mem {es : Entries} (h : es.Keyed) {e : Key × Value} (he : e ∈ es) :
    Table.get? e.1 es = some e.2 := by
  obtain ⟨hproper, hdistinct⟩ := h
  induction es with
  | nil => exact nomatch he
  | cons e' rest ih =>
    obtain ⟨hhead, hrest⟩ := List.pairwise_cons.1 hdistinct
    rw [Table.get?]
    rcases List.mem_cons.1 he with rfl | he
    · rw [if_pos (hproper e List.mem_cons_self).beq_self]
    · rw [if_neg (by simp [hhead e he])]
      exact ih he (fun e he => hproper e (List.mem_cons_of_mem _ he)) hrest

/-! ### Values -/

namespace Value

/-- Every number in the value is proper, and its maps have distinct keys. -/
inductive Regular : Value → Prop
  | null : Regular .null
  | bool (b : Bool) : Regular (.bool b)
  | number {n : Number} : n.IsProper → Regular (.number n)
  | text (s : String) : Regular (.text s)
  | list {items : List Value} : (∀ v ∈ items, Regular v) → Regular (.list items)
  | map {entries : List (Key × Value)} : Entries.Keyed entries → (∀ e ∈ entries, Regular e.2) →
      Regular (.map entries)
  | field {value : Value} {marks : Marks} {error : Value} : Regular value → Regular error →
      Regular (.field value marks error)
  | issue {type : String} {message : Value} : Regular message → Regular (.issue type message)
  | unset : Regular .unset
  | callback (ref : Nat) : Regular (.callback ref)
  | check (ref : Nat) : Regular (.check ref)

mutual

theorem Regular.same_self : ∀ {v : Value}, v.Regular → v.same v = true
  | .null, _ => rfl
  | .bool b, _ => Number.IsProper.eqv_self (n := .int (if b then 1 else 0)) trivial
  | .number n, h => by
    have hn : n.IsProper := by cases h; assumption
    exact hn.eqv_self
  | .text s, _ => by simp [same, name?]
  | .list items, h => by
    have hitems : ∀ v ∈ items, v.Regular := by cases h; assumption
    rw [same]
    exact sameItems_self hitems
  | .map entries, h => by
    have hentries : Entries.Keyed entries ∧ ∀ e ∈ entries, e.2.Regular := by
      cases h
      exact ⟨by assumption, by assumption⟩
    rw [same]
    simp only [beq_self_eq_true, Bool.true_and]
    exact sameEntries_self hentries.2 fun e he => hentries.1.get?_of_mem he
  | .field value marks error, h => by
    have hparts : value.Regular ∧ error.Regular := by
      cases h
      exact ⟨by assumption, by assumption⟩
    rw [same]
    simp [hparts.1.same_self, hparts.2.same_self]
  | .issue type message, h => by
    have hmessage : message.Regular := by cases h; assumption
    rw [same]
    simp [hmessage.same_self]
  | .unset, _ => rfl
  | .callback ref, _ => beq_self_eq_true ref
  | .check ref, _ => beq_self_eq_true ref

theorem sameItems_self : ∀ {items : List Value}, (∀ v ∈ items, v.Regular) →
    sameItems items items = true
  | [], _ => rfl
  | v :: rest, h => by
    obtain ⟨hv, hrest⟩ := List.forall_mem_cons.1 h
    rw [sameItems]
    simp [hv.same_self, sameItems_self hrest]

theorem sameEntries_self {other : Entries} : ∀ {entries : List (Key × Value)},
    (∀ e ∈ entries, e.2.Regular) → (∀ e ∈ entries, Table.get? e.1 other = some e.2) →
      sameEntries entries other = true
  | [], _, _ => rfl
  | (k, v) :: rest, h, hfound => by
    obtain ⟨hv, hrest⟩ := List.forall_mem_cons.1 h
    obtain ⟨hk, hfound⟩ := List.forall_mem_cons.1 hfound
    rw [sameEntries, hk]
    simp [hv.same_self, sameEntries_self hrest hfound]

end

/-- What stands on the right is compared without its wrappings. -/
theorem strictEq_bare : ∀ v w : Value, v.strictEq w.bare = v.strictEq w
  | .field value marks error, w => by rw [strictEq, strictEq, strictEq_bare value w]
  | .null, w | .bool _, w | .number _, w | .text _, w | .list _, w | .map _, w | .issue _ _, w
  | .unset, w | .callback _, w | .check _, w => by
    rw [strictEq, strictEq, bare_bare]

mutual

/-- **A regular value equals itself.** -/
theorem Regular.strictEq_self : ∀ {v : Value}, v.Regular → v.strictEq v = true
  | .null, _ => rfl
  | .bool b, _ => beq_self_eq_true b
  | .number n, h => by
    have hn : n.IsProper := by cases h; assumption
    exact hn.eqv_self
  | .text s, _ => by simp [strictEq, bare, name?]
  | .list items, h => by
    have hitems : ∀ v ∈ items, v.Regular := by cases h; assumption
    rw [strictEq]
    exact strictEqItems_self hitems
  | .map entries, h => by
    have hentries : Entries.Keyed entries ∧ ∀ e ∈ entries, e.2.Regular := by
      cases h
      exact ⟨by assumption, by assumption⟩
    rw [strictEq]
    simp only [bare, beq_self_eq_true, Bool.true_and]
    exact strictEqEntries_self hentries.2 fun e he => hentries.1.get?_of_mem he
  | .field value marks error, h => by
    have hvalue : value.Regular := by cases h; assumption
    rw [strictEq, ← strictEq_bare, bare_field, strictEq_bare]
    exact hvalue.strictEq_self
  | .issue type message, h => by
    rw [strictEq]
    exact h.same_self
  | .unset, _ => rfl
  | .callback ref, _ => beq_self_eq_true ref
  | .check ref, _ => beq_self_eq_true ref

theorem strictEqItems_self : ∀ {items : List Value}, (∀ v ∈ items, v.Regular) →
    strictEqItems items items = true
  | [], _ => rfl
  | v :: rest, h => by
    obtain ⟨hv, hrest⟩ := List.forall_mem_cons.1 h
    rw [strictEqItems]
    simp [hv.strictEq_self, strictEqItems_self hrest]

theorem strictEqEntries_self {other : Entries} : ∀ {entries : List (Key × Value)},
    (∀ e ∈ entries, e.2.Regular) → (∀ e ∈ entries, Table.get? e.1 other = some e.2) →
      strictEqEntries entries other = true
  | [], _, _ => rfl
  | (k, v) :: rest, h, hfound => by
    obtain ⟨hv, hrest⟩ := List.forall_mem_cons.1 h
    obtain ⟨hk, hfound⟩ := List.forall_mem_cons.1 hfound
    rw [strictEqEntries, hk]
    simp [hv.strictEq_self, strictEqEntries_self hrest hfound]

end

end Value

end LiveForm
