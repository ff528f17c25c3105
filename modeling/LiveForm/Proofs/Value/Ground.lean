import Mathlib
import LiveForm.Proofs.Value.Equality
import LiveForm.Proofs.Value.Table

/-!
# Equality of ground values

A ground value is nothing, a flag, a whole number, a text, or a list or a map of ground values,
wrapped or not at any depth; the keys of a map are texts. What is strictly equal to a ground value is
read off its kind: behind the wrappings stands the same flag, number or text, a list that is equal
place by place, or a map of the same size that is equal key by key. So strict equality is an
equivalence of ground values (`Ground.strictEq_self`, `Ground.strictEq_symm`,
`Ground.strictEq_trans`). For maps symmetry is a matter of counting: keys without duplicates that
all stand in a map of the same size are all of its keys. Loose equality is wider
(`Ground.looseEq_of_strictEq`) and symmetric too (`Ground.looseEq_comm`).
-/

namespace LiveForm

namespace Entries

theorem get?_ofNames (name : String) (t : Table String Value) :
    Table.get? (Key.text name) (ofNames t) = Table.get? name t := by
  induction t with
  | nil => rfl
  | cons e rest ih =>
    have hkey : (Key.text e.1 == Key.text name) = (e.1 == name) := rfl
    rw [ofNames, List.map_cons, Table.get?, Table.get?, hkey]
    split
    · rfl
    · exact ih

end Entries

namespace Value

/-! ### What is equal to a value of a kind -/

theorem bare_strictEq : ∀ v w : Value, v.bare.strictEq w = v.strictEq w
  | .field value _ _, w => by rw [bare_field, strictEq, bare_strictEq value w]
  | .null, _ | .bool _, _ | .number _, _ | .text _, _ | .list _, _ | .map _, _ | .issue _ _, _
  | .unset, _ | .callback _, _ | .check _, _ => rfl

theorem looseEq_bare (v w : Value) : v.bare.looseEq w.bare = v.looseEq w := by
  rw [looseEq, looseEq, bare_bare, bare_bare]

section

variable {w : Value}

theorem null_strictEq : null.strictEq w = true ↔ w.bare = .null := by
  rw [strictEq]
  cases w.bare <;> simp [isNull]

theorem bool_strictEq {b : Bool} : (bool b).strictEq w = true ↔ w.bare = .bool b := by
  rw [strictEq]
  cases w.bare with
  | bool b' => simpa using eq_comm
  | _ => simp

theorem number_strictEq {m : Number} :
    (number m).strictEq w = true ↔ ∃ n, w.bare = .number n ∧ m.eqv n = true := by
  rw [strictEq]
  cases w.bare <;> simp

theorem text_strictEq {s : String} : (text s).strictEq w = true ↔ w.bare = .text s := by
  rw [strictEq]
  cases w.bare <;> simp [name?]

theorem strictEqItems_iff : ∀ {items others : List Value},
    strictEqItems items others = true ↔
      List.Forall₂ (fun v w => v.strictEq w = true) items others
  | [], [] => by simp [strictEqItems]
  | [], _ :: _ => by simp [strictEqItems]
  | _ :: _, [] => by simp [strictEqItems]
  | v :: vs, w :: ws => by
    rw [strictEqItems, Bool.and_eq_true, List.forall₂_cons, strictEqItems_iff]

theorem list_strictEq {items : List Value} :
    (list items).strictEq w = true ↔
      ∃ others, w.bare = .list others ∧
        List.Forall₂ (fun v w => v.strictEq w = true) items others := by
  rw [strictEq]
  cases w.bare <;> simp [strictEqItems_iff]

/-- Two tables have the same size, and each value of the first has an equal one under its name in the
second. -/
structure SameByName (t u : Table String Value) : Prop where
  size : t.length = u.length
  values : ∀ e ∈ t, ∃ w, Table.get? e.1 u = some w ∧ e.2.strictEq w = true

theorem strictEqEntries_ofNames {u : Table String Value} : ∀ {t : Table String Value},
    strictEqEntries (Entries.ofNames t) (Entries.ofNames u) = true ↔
      ∀ e ∈ t, ∃ w, Table.get? e.1 u = some w ∧ e.2.strictEq w = true
  | [] => by simp [Entries.ofNames, strictEqEntries]
  | e :: rest => by
    have ih := strictEqEntries_ofNames (u := u) (t := rest)
    rw [List.forall_mem_cons, ← ih]
    show strictEqEntries ((Key.text e.1, e.2) :: Entries.ofNames rest) (Entries.ofNames u) = true ↔ _
    rw [strictEqEntries, Entries.get?_ofNames]
    cases Table.get? e.1 u <;> simp

theorem map_strictEq {t u : Table String Value} (hw : w.bare = .map (Entries.ofNames u)) :
    (map (Entries.ofNames t)).strictEq w = true ↔ SameByName t u := by
  have hsize : ((Entries.ofNames t).length == (Entries.ofNames u).length) = true ↔
      t.length = u.length := by
    simp [Entries.ofNames]
  rw [strictEq, hw, Bool.and_eq_true, hsize, strictEqEntries_ofNames]
  exact ⟨fun h => ⟨h.1, h.2⟩, fun h => ⟨h.size, h.values⟩⟩

/-- Names without duplicates that all stand in a table of the same size are all of its names. -/
theorem SameByName.symm {t u : Table String Value} (h : SameByName t u)
    (ht : (Table.keys t).Nodup) (hu : (Table.keys u).Nodup)
    (hsymm : ∀ e ∈ t, ∀ e' ∈ u, e.2.strictEq e'.2 = true → e'.2.strictEq e.2 = true) :
    SameByName u t := by
  have hsubset : Table.keys t ⊆ Table.keys u := by
    intro k hk
    obtain ⟨e, he, rfl⟩ := List.mem_map.1 hk
    obtain ⟨w, hw, -⟩ := h.values e he
    exact List.mem_map.2 ⟨(e.1, w), Table.mem_of_get? hw, rfl⟩
  have hback : Table.keys u ⊆ Table.keys t :=
    ((List.subperm_of_subset ht hsubset).perm_of_length_le
      (by simp only [Table.keys, List.length_map, h.size, le_refl])).symm.subset
  refine ⟨h.size.symm, fun e' he' => ?_⟩
  obtain ⟨e, he, hname⟩ := List.mem_map.1 (hback (List.mem_map.2 ⟨e', he', rfl⟩))
  obtain ⟨w, hw, heq⟩ := h.values e he
  have hw' : e'.2 = w := by
    rw [hname, Table.get?_of_mem hu he'] at hw
    exact Option.some.inj hw
  exact ⟨e.2, hname ▸ Table.get?_of_mem ht he, hsymm e he e' he' (hw' ▸ heq)⟩

theorem SameByName.trans {t u s : Table String Value} (h : SameByName t u) (h' : SameByName u s)
    (htrans : ∀ e ∈ t, ∀ e' ∈ u, ∀ e'' ∈ s, e.2.strictEq e'.2 = true →
      e'.2.strictEq e''.2 = true → e.2.strictEq e''.2 = true) :
    SameByName t s := by
  refine ⟨h.size.trans h'.size, fun e he => ?_⟩
  obtain ⟨w, hw, heq⟩ := h.values e he
  obtain ⟨x, hx, heq'⟩ := h'.values (e.1, w) (Table.mem_of_get? hw)
  exact ⟨x, hx, htrans e he _ (Table.mem_of_get? hw) _ (Table.mem_of_get? hx) heq heq'⟩

end

/-! ### Ground values -/

/-- Nothing, flags, whole numbers, texts, lists, and maps from texts; wrapped or not. -/
inductive Ground : Value → Prop
  | null : Ground .null
  | bool (b : Bool) : Ground (.bool b)
  | int (n : Int) : Ground (.int n)
  | text (s : String) : Ground (.text s)
  | list {items : List Value} : (∀ v ∈ items, Ground v) → Ground (.list items)
  | map {t : Table String Value} : (Table.keys t).Nodup → (∀ e ∈ t, Ground e.2) →
      Ground (.map (Entries.ofNames t))
  | field {value : Value} (marks : Marks) (error : Value) : Ground value →
      Ground (.field value marks error)

namespace Ground

variable {v w x : Value}

theorem bare (h : v.Ground) : v.bare.Ground := by
  induction h with
  | null => exact .null
  | bool b => exact .bool b
  | int n => exact .int n
  | text s => exact .text s
  | list hitems => exact .list hitems
  | map hkeys hvalues => exact .map hkeys hvalues
  | field marks error _ ih => exact ih

theorem items {items : List Value} (h : v.Ground) (hv : v.bare = .list items) :
    ∀ w ∈ items, w.Ground := by
  have hlist := hv ▸ h.bare
  cases hlist with
  | list hitems => exact hitems

theorem int_strictEq {n : Int} (h : w.Ground) :
    (Value.int n).strictEq w = true ↔ w.bare = .int n := by
  rw [number_strictEq]
  constructor
  · rintro ⟨m, hw, hm⟩
    have hnumber := hw ▸ h.bare
    cases hnumber with
    | int k =>
      have hnk : n = k := by simpa [Number.eqv, Number.compare?] using hm
      rw [hw, hnk]
  · intro hw
    exact ⟨.int n, hw, Number.IsProper.eqv_self trivial⟩

/-- What equals a map of names is a map of names that is the same by name. -/
theorem of_map_strictEq {t : Table String Value} (h : w.Ground)
    (heq : (Value.map (Entries.ofNames t)).strictEq w = true) :
    ∃ u, (Table.keys u).Nodup ∧ (∀ e ∈ u, e.2.Ground) ∧ w.bare = .map (Entries.ofNames u) ∧
      SameByName t u := by
  cases hw : w.bare with
  | map entries =>
    have hmap := hw ▸ h.bare
    cases hmap with
    | map hkeys hvalues => exact ⟨_, hkeys, hvalues, rfl, (Value.map_strictEq hw).1 heq⟩
  | _ =>
    rw [strictEq, hw] at heq
    exact nomatch heq

/-! ### An equivalence -/

protected theorem strictEq_self (h : v.Ground) : v.strictEq v = true := by
  induction h with
  | null => exact null_strictEq.2 rfl
  | bool b => exact bool_strictEq.2 rfl
  | int n => exact (int_strictEq (.int n)).2 rfl
  | text s => exact text_strictEq.2 rfl
  | @list items _ ih => exact list_strictEq.2 ⟨items, rfl, List.forall₂_same.2 ih⟩
  | @map t hkeys _ ih =>
    exact (Value.map_strictEq rfl).2 ⟨rfl, fun e he => ⟨e.2, Table.get?_of_mem hkeys he, ih e he⟩⟩
  | field marks error _ ih =>
    rw [strictEq, ← strictEq_bare, bare_field, strictEq_bare]
    exact ih

theorem strictEq_symm (hv : v.Ground) (hw : w.Ground) (h : v.strictEq w = true) :
    w.strictEq v = true := by
  induction hv generalizing w with
  | null =>
    rw [← bare_strictEq, null_strictEq.1 h]
    rfl
  | bool b =>
    rw [← bare_strictEq, bool_strictEq.1 h]
    exact bool_strictEq.2 rfl
  | int n =>
    rw [← bare_strictEq, (int_strictEq hw).1 h]
    exact (int_strictEq (.int n)).2 rfl
  | text s =>
    rw [← bare_strictEq, text_strictEq.1 h]
    exact text_strictEq.2 rfl
  | @list items _ ih =>
    obtain ⟨others, hothers, hall⟩ := list_strictEq.1 h
    have hback : List.Forall₂ (fun v w => v.strictEq w = true) others items :=
      List.forall₂_iff_get.2 ⟨hall.length_eq.symm, fun i hi hi' =>
        ih _ (List.get_mem ..) (hw.items hothers _ (List.get_mem ..)) (hall.get hi' hi)⟩
    rw [← bare_strictEq, hothers]
    exact list_strictEq.2 ⟨items, rfl, hback⟩
  | @map t ht _ ih =>
    obtain ⟨u, hu, hground, hbare, hsame⟩ := hw.of_map_strictEq h
    rw [← bare_strictEq, hbare]
    exact (Value.map_strictEq rfl).2
      (hsame.symm ht hu fun e he e' he' heq => ih e he (hground e' he') heq)
  | field marks error _ ih =>
    rw [strictEq] at h
    rw [← strictEq_bare, bare_field, strictEq_bare]
    exact ih hw h

theorem strictEq_comm (hv : v.Ground) (hw : w.Ground) : v.strictEq w = w.strictEq v :=
  Bool.eq_iff_iff.2 ⟨hv.strictEq_symm hw, hw.strictEq_symm hv⟩

theorem strictEq_trans (hv : v.Ground) (hw : w.Ground) (hx : x.Ground)
    (h : v.strictEq w = true) (h' : w.strictEq x = true) : v.strictEq x = true := by
  induction hv generalizing w x with
  | null =>
    rw [← bare_strictEq, null_strictEq.1 h] at h'
    exact h'
  | bool b =>
    rw [← bare_strictEq, bool_strictEq.1 h] at h'
    exact h'
  | int n =>
    rw [← bare_strictEq, (int_strictEq hw).1 h] at h'
    exact h'
  | text s =>
    rw [← bare_strictEq, text_strictEq.1 h] at h'
    exact h'
  | @list items _ ih =>
    obtain ⟨others, hothers, hall⟩ := list_strictEq.1 h
    rw [← bare_strictEq, hothers] at h'
    obtain ⟨thirds, hthirds, hall'⟩ := list_strictEq.1 h'
    refine list_strictEq.2 ⟨thirds, hthirds, List.forall₂_iff_get.2
      ⟨hall.length_eq.trans hall'.length_eq, fun i hi hi' => ?_⟩⟩
    have hi'' : i < others.length := hall.length_eq ▸ hi
    exact ih _ (List.get_mem ..) (hw.items hothers _ (List.get_mem ..))
      (hx.items hthirds _ (List.get_mem ..)) (hall.get hi hi'') (hall'.get hi'' hi')
  | @map t _ _ ih =>
    obtain ⟨u, -, hground, hbare, hsame⟩ := hw.of_map_strictEq h
    rw [← bare_strictEq, hbare] at h'
    obtain ⟨s, -, hground', hbare', hsame'⟩ := hx.of_map_strictEq h'
    exact (Value.map_strictEq hbare').2 (hsame.trans hsame' fun e he e' he' e'' he'' heq heq' =>
      ih e he (hground e' he') (hground' e'' he'') heq heq')
  | field marks error _ ih =>
    rw [strictEq] at h ⊢
    exact ih hw hx h h'

/-! ### Loose equality -/

/-- What stands behind the wrappings is never a wrapping. -/
theorem bare_cases (h : v.Ground) :
    v.bare = .null ∨ (∃ b, v.bare = .bool b) ∨ (∃ n, v.bare = .int n) ∨ (∃ s, v.bare = .text s) ∨
      (∃ items, v.bare = .list items) ∨ ∃ entries, v.bare = .map entries := by
  induction h with
  | null => exact .inl rfl
  | bool b => exact .inr (.inl ⟨b, rfl⟩)
  | int n => exact .inr (.inr (.inl ⟨n, rfl⟩))
  | text s => exact .inr (.inr (.inr (.inl ⟨s, rfl⟩)))
  | list _ => exact .inr (.inr (.inr (.inr (.inl ⟨_, rfl⟩))))
  | map _ _ => exact .inr (.inr (.inr (.inr (.inr ⟨_, rfl⟩))))
  | field marks error _ ih => exact ih

theorem flagAsNumber (h : v.Ground) : v.flagAsNumber.Ground := by
  cases h with
  | bool b => exact .int _
  | null => exact .null
  | int n => exact .int n
  | text s => exact .text s
  | list hitems => exact .list hitems
  | map hkeys hvalues => exact .map hkeys hvalues
  | field marks error hvalue => exact .field marks error hvalue

/-- Strictly equal values are loosely equal. -/
theorem looseEq_of_strictEq (hv : v.Ground) (hw : w.Ground) (h : v.strictEq w = true) :
    v.looseEq w = true := by
  rw [← bare_strictEq] at h
  rw [← looseEq_bare]
  rcases hv.bare_cases with hv' | ⟨b, hv'⟩ | ⟨n, hv'⟩ | ⟨s, hv'⟩ | ⟨items, hv'⟩ | ⟨entries, hv'⟩ <;>
    rw [hv'] at h ⊢
  · rw [null_strictEq.1 h]
    rfl
  · rw [bool_strictEq.1 h]
    exact (Ground.int _).strictEq_self
  · rw [(int_strictEq hw).1 h]
    exact (Ground.int n).strictEq_self
  · rw [text_strictEq.1 h]
    exact (Ground.text s).strictEq_self
  · obtain ⟨others, hothers, -⟩ := list_strictEq.1 h
    rw [← strictEq_bare, hothers] at h
    rw [hothers]
    exact h
  · cases hw' : w.bare with
    | map others => rwa [← strictEq_bare, hw'] at h
    | _ =>
      rw [strictEq, hw'] at h
      exact nomatch h

theorem looseEq_comm (hv : v.Ground) (hw : w.Ground) : v.looseEq w = w.looseEq v := by
  rw [← looseEq_bare v w, ← looseEq_bare w v]
  have hcomm := hv.bare.flagAsNumber.strictEq_comm hw.bare.flagAsNumber
  rcases hv.bare_cases with hv' | ⟨b, hv'⟩ | ⟨n, hv'⟩ | ⟨s, hv'⟩ | ⟨items, hv'⟩ | ⟨es, hv'⟩ <;>
  rcases hw.bare_cases with hw' | ⟨c, hw'⟩ | ⟨m, hw'⟩ | ⟨s', hw'⟩ | ⟨items', hw'⟩ | ⟨es', hw'⟩ <;>
  rw [hv', hw'] at hcomm ⊢ <;>
  first | rfl | exact hcomm

end Ground

end Value

end LiveForm
