import Mathlib
import LiveForm.Proofs.Value.Keys
import LiveForm.Value.Property

/-!
# Values without code

A value is free of code if no callback and no check stands in it, at any depth. Nothing that is read
from such a value holds any code either.
-/

namespace LiveForm

/-- No code of the host stands in the value. -/
inductive Value.CodeFree : Value → Prop
  | null : CodeFree .null
  | bool (b : Bool) : CodeFree (.bool b)
  | number (n : Number) : CodeFree (.number n)
  | text (s : String) : CodeFree (.text s)
  | unset : CodeFree .unset
  | list {items : List Value} : (∀ v ∈ items, CodeFree v) → CodeFree (.list items)
  | map {entries : List (Key × Value)} : (∀ e ∈ entries, CodeFree e.2) → CodeFree (.map entries)
  | field {value : Value} {marks : Marks} {error : Value} : CodeFree value → CodeFree error →
      CodeFree (.field value marks error)
  | issue {type : String} {message : Value} : CodeFree message → CodeFree (.issue type message)

/-- No code of the host stands in the values of the map. -/
def Entries.CodeFree (es : Entries) : Prop :=
  ∀ e ∈ es, e.2.CodeFree

namespace Value.CodeFree

variable {v w : Value}

theorem isCode (h : v.CodeFree) : v.isCode = false := by
  cases h <;> rfl

theorem ofKey (k : Key) : (Value.ofKey k).CodeFree := by
  cases k with
  | null => exact .null
  | bool b => exact .bool b
  | number n => exact .number n
  | text s => exact .text s

theorem bare (h : v.CodeFree) : v.bare.CodeFree := by
  induction h with
  | field _ _ ih _ => exact ih
  | null => exact .null
  | bool b => exact .bool b
  | number n => exact .number n
  | text s => exact .text s
  | unset => exact .unset
  | list h _ => exact .list h
  | map h _ => exact .map h
  | issue h _ => exact .issue h

theorem getD (o : Option Value) (h : ∀ v, o = some v → v.CodeFree) : (o.getD .null).CodeFree := by
  cases o with
  | none => exact .null
  | some v => exact h v rfl

theorem mark {value : Value} {marks : Marks} {error : Value} {name : String}
    (hvalue : value.CodeFree) (herror : error.CodeFree)
    (h : mark? value marks error name = some w) : w.CodeFree := by
  unfold mark? at h
  split at h <;> first | contradiction | (obtain rfl := Option.some.inj h)
  · exact hvalue
  · exact .bool _
  · exact .bool _
  · exact .bool _
  · exact herror
  · exact .bool _
  · exact .bool _

theorem partOfWhole (n : Int) (name : String) : (partOfWhole n name).CodeFree := by
  unfold Value.partOfWhole
  split <;> first | exact .number _ | exact .null

theorem part (h : v.CodeFree) (name : String) : (part v name).CodeFree := by
  unfold Value.part
  split
  · exact partOfWhole _ _
  · exact partOfWhole _ _
  · exact .number _
  · exact .number _
  · exact .text _
  · cases h with
    | issue h => exact h
  · exact .null

theorem elementAt {α : Type} {items : List α} {key : Value} {found : Option α} {a : α}
    (h : Value.elementAt items key = .ok found) (ha : found = some a) : a ∈ items := by
  unfold Value.elementAt at h
  cases hi : key.index? with
  | error e => simp [hi, bind, Except.bind] at h
  | ok position =>
    cases position with
    | none =>
      obtain rfl : none = found := by simpa [hi, bind, Except.bind, pure, Except.pure] using h
      exact absurd ha (by simp)
    | some i =>
      simp only [hi, bind, Except.bind, pure, Except.pure, Except.ok.injEq] at h
      split_ifs at h
      · rw [← h] at ha
        exact absurd ha (by simp)
      · exact List.mem_of_getElem? (h.trans ha)

/-- What is made of an element, or of none, holds no code if neither does. -/
theorem ofElement {α : Type} {items : List α} {key : Value}
    {make : Option α → Except NumberError Value}
    (hw : Value.elementAt items key >>= make = .ok w)
    (hnone : make none = .ok w → w.CodeFree)
    (hsome : ∀ a ∈ items, make (some a) = .ok w → w.CodeFree) : w.CodeFree := by
  cases hfound : Value.elementAt items key with
  | error e =>
    rw [hfound] at hw
    exact nomatch hw
  | ok found =>
    rw [hfound] at hw
    cases found with
    | none => exact hnone hw
    | some a => exact hsome a (elementAt hfound rfl) hw

/-- A property of what is neither a collection nor a field is one of its parts. -/
theorem ofPart (hv : v.CodeFree) {key : Value}
    (hpart : v.property key = .ok ((key.name?.map (Value.part v)).getD .null))
    (hw : v.property key = .ok w) : w.CodeFree := by
  obtain rfl := Except.ok.inj (hpart.symm.trans hw)
  refine getD _ fun u hu => ?_
  obtain ⟨name, -, rfl⟩ := Option.map_eq_some_iff.1 hu
  exact hv.part name

/-- A property of a value without code holds none. -/
theorem property (h : v.CodeFree) {key : Value} (hw : v.property key = .ok w) : w.CodeFree := by
  induction h with
  | @field value marks error hvalue herror ih _ =>
    rw [Value.property] at hw
    split at hw
    · next found hfound =>
      obtain rfl := Except.ok.inj hw
      obtain ⟨name, -, hmark⟩ := Option.bind_eq_some_iff.1 hfound
      exact mark hvalue herror hmark
    · exact ih hw
  | null =>
    obtain rfl := Except.ok.inj hw
    exact .null
  | @map entries hentries =>
    rw [Value.property] at hw
    split at hw <;> obtain rfl := Except.ok.inj hw
    · refine getD _ fun v hv => ?_
      obtain ⟨k, hk⟩ := Table.exists_mem_of_get? hv
      exact hentries _ hk
    · exact .null
  | @list items hitems =>
    rw [Value.property] at hw
    split_ifs at hw
    · obtain rfl := Except.ok.inj hw
      exact .number _
    · exact ofElement hw (fun h => Except.ok.inj h ▸ .null)
        (fun v hv h => Except.ok.inj h ▸ hitems v hv)
  | text s =>
    rw [Value.property] at hw
    split_ifs at hw
    · obtain rfl := Except.ok.inj hw
      exact .number _
    · exact ofElement hw (fun h => Except.ok.inj h ▸ .null)
        (fun c _ h => Except.ok.inj h ▸ .text _)
  | bool b => exact ofPart (.bool b) (by cases key <;> rfl) hw
  | number n => exact ofPart (.number n) (by cases key <;> rfl) hw
  | unset => exact ofPart .unset (by cases key <;> rfl) hw
  | issue h _ => exact ofPart (.issue h) (by cases key <;> rfl) hw

/-- Taking off all wrapping leaves a value without code. -/
theorem stripped (h : v.CodeFree) : v.stripped.CodeFree := by
  have items {vs : List Value} (hvs : ∀ v ∈ vs, v.stripped.CodeFree) :
      ∀ v ∈ strippedItems vs, v.CodeFree := by
    induction vs with
    | nil => exact List.forall_mem_nil _
    | cons v vs ih =>
      obtain ⟨hv, hvs⟩ := List.forall_mem_cons.1 hvs
      exact List.forall_mem_cons.2 ⟨hv, ih hvs⟩
  have entries {es : List (Key × Value)} (hes : ∀ e ∈ es, e.2.stripped.CodeFree) :
      ∀ e ∈ strippedEntries es, e.2.CodeFree := by
    induction es with
    | nil => exact List.forall_mem_nil _
    | cons e es ih =>
      obtain ⟨he, hes⟩ := List.forall_mem_cons.1 hes
      exact List.forall_mem_cons.2 ⟨he, ih hes⟩
  induction h with
  | null => exact .null
  | bool b => exact .bool b
  | number n => exact .number n
  | text s => exact .text s
  | unset => exact .unset
  | list _ ih => exact .list (items ih)
  | map _ ih => exact .map (entries ih)
  | field _ _ ih _ => exact ih
  | issue h _ => exact .issue h

end Value.CodeFree

end LiveForm
