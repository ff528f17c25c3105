import Mathlib
import LiveForm.Value.FieldName

/-!
# Texts as keys

Keys are compared by what they stand for, so that equality of keys is coarser than identity. A text
equals itself alone. So under a text a map behaves like a table of texts, whatever else is in it.
Under any other key, what is written under a key that it does not meet changes nothing
(`Table.get?_put_of_not_meets`).
-/

namespace LiveForm

/-- A key that equals a text is the text. -/
theorem Key.eq_text {a : String} {k : Key} (h : (k == .text a) = true) : k = .text a := by
  cases k with
  | text b =>
    have hb : (b == a) = true := h
    rw [eq_of_beq hb]
  | null => exact absurd h Bool.false_ne_true
  | bool b => exact absurd h Bool.false_ne_true
  | number n => exact absurd h Bool.false_ne_true

/-- A text that equals a key is the key. -/
theorem Key.text_eq {a : String} {k : Key} (h : (Key.text a == k) = true) : k = .text a := by
  cases k with
  | text b =>
    have hb : (a == b) = true := h
    rw [eq_of_beq hb]
  | null => exact absurd h Bool.false_ne_true
  | bool b => exact absurd h Bool.false_ne_true
  | number n => exact absurd h Bool.false_ne_true

/-- Texts are told apart as keys just as they are as texts. -/
theorem Key.text_beq_text (a b : String) : (Key.text a == Key.text b) = decide (b = a) := by
  rw [Bool.eq_iff_iff, decide_eq_true_iff]
  exact ⟨fun h => (Key.text.inj (Key.eq_text h)).symm, fun h => by simp [h, Key.same, BEq.beq]⟩

/-- What is written under the one key may be found under the other: it is stored under the key itself or
under one that equals it, and there the other key finds it. -/
def Key.Meets (k j : Key) : Prop :=
  ∃ stored : Key, (stored = k ∨ (stored == k) = true) ∧ (stored == j) = true

/-- Only the text itself meets a text. -/
theorem Key.Meets.eq_text {k : Key} {a : String} (h : k.Meets (.text a)) : k = .text a := by
  obtain ⟨stored, hk, ha⟩ := h
  obtain rfl := Key.eq_text ha
  rcases hk with rfl | hk
  · rfl
  · exact Key.text_eq hk

/-- Writing under a text writes nothing else. -/
theorem Entries.get?_put_text (a : String) (k : Key) (v : Value) (es : Entries) :
    Table.get? k (Table.put (.text a) v es) =
      if Key.text a == k then some v else Table.get? k es := by
  induction es with
  | nil => rfl
  | cons e rest ih =>
    obtain ⟨k', v'⟩ := e
    rw [Table.put]
    by_cases hk : k' == .text a
    · obtain rfl := Key.eq_text hk
      rw [if_pos hk, Table.get?, Table.get?]
      by_cases ha : Key.text a == k
      · rw [if_pos ha, if_pos ha]
      · rw [if_neg ha, if_neg ha, if_neg ha]
    · rw [if_neg hk, Table.get?, Table.get?, ih]
      by_cases hk' : k' == k
      · rw [if_pos hk', if_pos hk']
        have ha : ¬ (Key.text a == k) = true := by
          intro ha
          obtain rfl := Key.text_eq ha
          exact hk hk'
        rw [if_neg ha]
      · rw [if_neg hk', if_neg hk']

namespace Table

variable {ν μ : Type}

/-- What is written under a key changes nothing under keys that it does not meet. -/
theorem get?_put_of_not_meets {k j : Key} (h : ¬ k.Meets j) (v : ν) (t : Table Key ν) :
    get? j (put k v t) = get? j t := by
  induction t with
  | nil =>
    have hkj : ¬ (k == j) = true := fun hkj => h ⟨k, Or.inl rfl, hkj⟩
    exact if_neg hkj
  | cons e rest ih =>
    obtain ⟨k', v'⟩ := e
    rw [put]
    by_cases hk : k' == k
    · have hj : ¬ (k' == j) = true := fun hj => h ⟨k', Or.inr hk, hj⟩
      rw [if_pos hk, get?, get?, if_neg hj, if_neg hj]
    · rw [if_neg hk, get?, get?, ih]

/-- Writing under any key, seen from a text. -/
theorem get?_text_put (a : String) (k : Key) (v : ν) (t : Table Key ν) :
    get? (.text a) (put k v t) = if k == .text a then some v else get? (.text a) t := by
  induction t with
  | nil => rfl
  | cons e rest ih =>
    obtain ⟨k', v'⟩ := e
    rw [put]
    by_cases hk : k' == k
    · rw [if_pos hk, get?, get?]
      by_cases ha : k' == .text a
      · obtain rfl := Key.eq_text ha
        obtain rfl := Key.text_eq hk
        rw [if_pos ha, if_pos ha]
      · rw [if_neg ha, if_neg ha, if_neg]
        intro hka
        obtain rfl := Key.eq_text hka
        exact ha hk
    · rw [if_neg hk, get?, get?, ih]
      by_cases ha : k' == .text a
      · rw [if_pos ha, if_pos ha, if_neg]
        intro hka
        obtain rfl := Key.eq_text hka
        exact hk ha
      · rw [if_neg ha, if_neg ha]

/-- What a function of keys is under a text, once it has been written out for some keys. -/
theorem get?_text_putAll_map (a : String) (g : Key → ν) (ks : List Key) (t : Table Key ν) :
    get? (.text a) (putAll t (ks.map fun k => (k, g k))) =
      if ks.any (· == .text a) then some (g (.text a)) else get? (.text a) t := by
  induction ks generalizing t with
  | nil => rfl
  | cons k ks ih =>
    have hcons : putAll t ((k :: ks).map fun k => (k, g k)) =
        putAll (put k (g k) t) (ks.map fun k => (k, g k)) := rfl
    rw [hcons, ih, get?_text_put, List.any_cons]
    by_cases hk : k == .text a
    · obtain rfl := Key.eq_text hk
      simp [hk]
    · simp [hk]

theorem get?_text_ofList_map (a : String) (g : Key → ν) (ks : List Key) :
    get? (.text a) (ofList (ks.map fun k => (k, g k))) =
      if ks.any (· == .text a) then some (g (.text a)) else none :=
  get?_text_putAll_map a g ks []

theorem any_keys {κ : Type} [BEq κ] (k : κ) (t : Table κ ν) :
    (keys t).any (· == k) = (get? k t).isSome := by
  induction t with
  | nil => rfl
  | cons e rest ih =>
    obtain ⟨k', v⟩ := e
    have hkeys : keys ((k', v) :: rest) = k' :: keys rest := rfl
    rw [hkeys, List.any_cons, get?, ih]
    by_cases hk : k' == k <;> simp [hk]

theorem get?_map {κ : Type} [BEq κ] (k : κ) (g : ν → μ) (t : Table κ ν) :
    get? k (t.map fun e => (e.1, g e.2)) = (get? k t).map g := by
  induction t with
  | nil => rfl
  | cons e rest ih =>
    rw [List.map_cons, get?, get?, ih]
    by_cases hk : e.1 == k <;> simp [hk]

/-- What holds of every value of a table and of a new one holds of every value once the new one is
written. -/
theorem forall_put {κ : Type} [BEq κ] {P : ν → Prop} {k : κ} {v : ν} {t : Table κ ν} (hv : P v)
    (ht : ∀ e ∈ t, P e.2) : ∀ e ∈ put k v t, P e.2 := by
  induction t with
  | nil => simpa [put] using hv
  | cons e rest ih =>
    obtain ⟨k', v'⟩ := e
    obtain ⟨hv', hrest⟩ := List.forall_mem_cons.1 ht
    rw [put]
    split_ifs
    · exact List.forall_mem_cons.2 ⟨hv, hrest⟩
    · exact List.forall_mem_cons.2 ⟨hv', ih hrest⟩

theorem forall_putAll {κ : Type} [BEq κ] {P : ν → Prop} {t es : Table κ ν}
    (ht : ∀ e ∈ t, P e.2) (hes : ∀ e ∈ es, P e.2) : ∀ e ∈ putAll t es, P e.2 := by
  induction es generalizing t with
  | nil => exact ht
  | cons e es ih =>
    obtain ⟨he, hes⟩ := List.forall_mem_cons.1 hes
    exact ih (forall_put he ht) hes

theorem forall_ofList {κ : Type} [BEq κ] {P : ν → Prop} {es : Table κ ν}
    (hes : ∀ e ∈ es, P e.2) : ∀ e ∈ ofList es, P e.2 :=
  forall_putAll (List.forall_mem_nil _) hes

/-- What is found in a table is one of its values. -/
theorem exists_mem_of_get? {κ : Type} [BEq κ] {k : κ} {v : ν} {t : Table κ ν}
    (h : get? k t = some v) : ∃ k', (k', v) ∈ t := by
  induction t with
  | nil => exact absurd h (by simp [get?])
  | cons e rest ih =>
    obtain ⟨k', v'⟩ := e
    rw [get?] at h
    split_ifs at h
    · obtain rfl := Option.some.inj h
      exact ⟨k', List.mem_cons_self⟩
    · obtain ⟨k'', hk''⟩ := ih h
      exact ⟨k'', List.mem_cons_of_mem _ hk''⟩

end Table

end LiveForm
