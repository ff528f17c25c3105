import Mathlib
import LiveForm.Value.Table

/-!
# Finding and counting in tables

What writing and dropping a key does to the value found under any key, to the keys, to the entries
that pass a test, and to the number of values with a property.
-/

namespace LiveForm

namespace Table

variable {κ ν : Type} [BEq κ] [LawfulBEq κ]

theorem get?_put (k j : κ) (v : ν) (t : Table κ ν) :
    get? j (put k v t) = if k == j then some v else get? j t := by
  cases h : k == j with
  | true =>
    obtain rfl := eq_of_beq h
    rw [get?_put_self, if_pos rfl]
  | false => rw [get?_put_of_ne h, if_neg Bool.false_ne_true]

theorem get?_drop (k j : κ) (t : Table κ ν) :
    get? j (drop k t) = if k == j then none else get? j t := by
  cases h : k == j with
  | true =>
    obtain rfl := eq_of_beq h
    rw [get?_drop_self, if_pos rfl]
  | false => rw [get?_drop_of_ne h, if_neg Bool.false_ne_true]

/-- A key that is found stands behind entries with other keys. -/
theorem exists_split_of_get? {k : κ} {v : ν} {t : Table κ ν} (h : get? k t = some v) :
    ∃ before after, t = before ++ (k, v) :: after ∧ k ∉ keys before := by
  induction t with
  | nil => exact nomatch h
  | cons e rest ih =>
    obtain ⟨k', v'⟩ := e
    rw [get?] at h
    by_cases hk : k' == k
    · rw [if_pos hk] at h
      obtain rfl := eq_of_beq hk
      obtain rfl := Option.some.inj h
      exact ⟨[], rest, rfl, List.not_mem_nil⟩
    · rw [if_neg hk] at h
      obtain ⟨before, after, rfl, hbefore⟩ := ih h
      have hne : k ≠ k' := fun heq => hk (beq_iff_eq.2 heq.symm)
      exact ⟨(k', v') :: before, after, rfl, List.not_mem_cons_of_ne_of_not_mem hne hbefore⟩

/-- Writing to a key that is there changes its entry and no other. -/
theorem put_split {k : κ} {before : Table κ ν} (h : k ∉ keys before) (u v : ν)
    (after : Table κ ν) : put k v (before ++ (k, u) :: after) = before ++ (k, v) :: after := by
  induction before with
  | nil => rw [List.nil_append, put, if_pos (beq_self_eq_true k), List.nil_append]
  | cons e rest ih =>
    obtain ⟨k', v'⟩ := e
    have hk : ¬(k' == k) = true := fun hk => List.ne_of_not_mem_cons h (beq_iff_eq.1 hk).symm
    rw [List.cons_append, put, if_neg hk, ih (List.not_mem_of_not_mem_cons h), List.cons_append]

/-- What is found under a key stands in the table with it. -/
theorem mem_of_get? {k : κ} {v : ν} {t : Table κ ν} (h : get? k t = some v) : (k, v) ∈ t := by
  obtain ⟨before, after, rfl, -⟩ := exists_split_of_get? h
  exact List.mem_append_right _ List.mem_cons_self

/-! ### Keys -/

omit [LawfulBEq κ] in
/-- After writing, an entry is the one that has been written, or an earlier one. -/
theorem mem_put {k j : κ} {v u : ν} {t : Table κ ν} (h : (j, u) ∈ put k v t) :
    u = v ∨ (j, u) ∈ t := by
  induction t with
  | nil => exact Or.inl (Prod.mk.inj (List.mem_singleton.1 h)).2
  | cons e rest ih =>
    obtain ⟨k', v'⟩ := e
    rw [put] at h
    by_cases hk : k' == k
    · rw [if_pos hk] at h
      rcases List.mem_cons.1 h with he | hrest
      · exact Or.inl (Prod.mk.inj he).2
      · exact Or.inr (List.mem_cons_of_mem _ hrest)
    · rw [if_neg hk] at h
      rcases List.mem_cons.1 h with he | hrest
      · exact Or.inr (he ▸ List.mem_cons_self)
      · exact (ih hrest).imp_right (List.mem_cons_of_mem _)

omit [LawfulBEq κ] in
theorem mem_keys_put {k j : κ} {v : ν} {t : Table κ ν} (h : j ∈ keys (put k v t)) :
    j = k ∨ j ∈ keys t := by
  induction t with
  | nil => exact Or.inl (List.mem_singleton.1 h)
  | cons e rest ih =>
    obtain ⟨k', v'⟩ := e
    rw [put] at h
    by_cases hk : k' == k
    · rw [if_pos hk] at h
      exact Or.inr h
    · rw [if_neg hk] at h
      rcases List.mem_cons.1 h with he | hrest
      · exact Or.inr (he ▸ List.mem_cons_self)
      · exact (ih hrest).imp_right (List.mem_cons_of_mem _)

/-- Writing keeps the keys apart. -/
theorem nodup_keys_put {t : Table κ ν} (h : (keys t).Nodup) (k : κ) (v : ν) :
    (keys (put k v t)).Nodup := by
  induction t with
  | nil => exact List.nodup_singleton k
  | cons e rest ih =>
    obtain ⟨k', v'⟩ := e
    obtain ⟨hnew, hrest⟩ := List.nodup_cons.1 h
    rw [put]
    by_cases hk : k' == k
    · rw [if_pos hk]
      exact h
    · rw [if_neg hk]
      refine List.nodup_cons.2 ⟨fun hmem => ?_, ih hrest⟩
      rcases mem_keys_put hmem with he | hold
      · exact hk (beq_iff_eq.2 he)
      · exact hnew hold

omit [LawfulBEq κ] in
/-- Dropping keeps the keys apart. -/
theorem nodup_keys_drop {t : Table κ ν} (h : (keys t).Nodup) (k : κ) :
    (keys (drop k t)).Nodup :=
  h.sublist (List.filter_sublist.map _)

/-- Where keys are apart, an entry is what is found under its key. -/
theorem get?_of_mem {k : κ} {v : ν} {t : Table κ ν} (h : (keys t).Nodup) (he : (k, v) ∈ t) :
    get? k t = some v := by
  induction t with
  | nil => exact absurd he List.not_mem_nil
  | cons e rest ih =>
    obtain ⟨k', v'⟩ := e
    obtain ⟨hnew, hrest⟩ := List.nodup_cons.1 h
    rw [get?]
    rcases List.mem_cons.1 he with heq | hmem
    · obtain ⟨rfl, rfl⟩ := Prod.mk.inj heq
      rw [if_pos (beq_self_eq_true k)]
    · have hne : ¬(k' == k) = true := by
        intro hk
        rw [beq_iff_eq.1 hk] at hnew
        exact hnew (List.mem_map.2 ⟨_, hmem, rfl⟩)
      rw [if_neg hne]
      exact ih hrest hmem

/-- Where keys are apart, a key has one entry. -/
theorem eq_of_mem {k : κ} {u v : ν} {t : Table κ ν} (h : (keys t).Nodup) (hu : (k, u) ∈ t)
    (hv : (k, v) ∈ t) : u = v :=
  Option.some.inj ((get?_of_mem h hu).symm.trans (get?_of_mem h hv))

/-! ### Entries -/

section

variable {p : κ × ν → Bool} {k : κ} {u v : ν} {t : Table κ ν}

omit [LawfulBEq κ] in
/-- A new key comes last. -/
theorem put_new (v : ν) (h : get? k t = none) : put k v t = t ++ [(k, v)] := by
  induction t with
  | nil => rfl
  | cons e rest ih =>
    obtain ⟨k', v'⟩ := e
    rw [get?] at h
    by_cases hk : k' == k
    · rw [if_pos hk] at h
      exact absurd h (Option.some_ne_none _)
    · rw [if_neg hk] at h
      rw [put, if_neg hk, ih h]
      rfl

/-- Writing to an entry that is kept, and stays so, is writing to what is kept. -/
theorem filter_put_of_pos (h : get? k t = some u) (hu : p (k, u) = true) (hv : p (k, v) = true) :
    (put k v t).filter p = put k v (t.filter p) := by
  obtain ⟨before, after, rfl, hbefore⟩ := exists_split_of_get? h
  have hkept : k ∉ keys (before.filter p) := fun hk =>
    hbefore ((List.filter_sublist.map Prod.fst).subset hk)
  rw [put_split hbefore, List.filter_append, List.filter_append, List.filter_cons_of_pos hv,
    List.filter_cons_of_pos hu, put_split hkept]

/-- Writing to an entry that is not kept, and stays so, changes nothing of what is kept. -/
theorem filter_put_of_neg (h : get? k t = some u) (hu : p (k, u) = false) (hv : p (k, v) = false) :
    (put k v t).filter p = t.filter p := by
  obtain ⟨before, after, rfl, hbefore⟩ := exists_split_of_get? h
  rw [put_split hbefore, List.filter_append, List.filter_append,
    List.filter_cons_of_neg (by simp [hv]), List.filter_cons_of_neg (by simp [hu])]

omit [LawfulBEq κ] in
theorem filter_drop (p : κ × ν → Bool) (k : κ) (t : Table κ ν) :
    (drop k t).filter p = drop k (t.filter p) := by
  unfold drop
  rw [List.filter_comm]

theorem mem_put_of_ne {j : κ} {w : ν} (he : (j, w) ∈ t) (hne : j ≠ k) : (j, w) ∈ put k v t := by
  induction t with
  | nil => exact nomatch he
  | cons e rest ih =>
    obtain ⟨k', v'⟩ := e
    rw [put]
    rcases List.mem_cons.1 he with heq | hrest
    · obtain ⟨rfl, rfl⟩ := Prod.mk.inj heq
      rw [if_neg (by simpa using hne)]
      exact List.mem_cons_self
    · split
      · exact List.mem_cons_of_mem _ hrest
      · exact List.mem_cons_of_mem _ (ih hrest)

theorem mem_drop_of_ne {j : κ} {w : ν} (he : (j, w) ∈ t) (hne : j ≠ k) : (j, w) ∈ drop k t :=
  List.mem_filter.2 ⟨he, by simpa using hne⟩

theorem length_put_old (h : get? k t = some u) : (put k v t).length = t.length := by
  obtain ⟨before, after, rfl, hbefore⟩ := exists_split_of_get? h
  rw [put_split hbefore, List.length_append, List.length_append, List.length_cons,
    List.length_cons]

end

/-! ### Counting -/

/-- How many values have a property. -/
def tally (p : ν → Bool) (t : Table κ ν) : Nat :=
  t.countP fun e => p e.2

variable (p : ν → Bool)

omit [BEq κ] [LawfulBEq κ] in
theorem tally_cons (k : κ) (v : ν) (t : Table κ ν) :
    tally p ((k, v) :: t) = tally p t + (p v).toNat := by
  unfold tally
  rw [List.countP_cons]
  cases p v <;> rfl

omit [BEq κ] [LawfulBEq κ] in
theorem tally_append (t t' : Table κ ν) : tally p (t ++ t') = tally p t + tally p t' :=
  List.countP_append

omit [LawfulBEq κ] in
theorem tally_put_new {k : κ} (v : ν) {t : Table κ ν} (h : get? k t = none) :
    tally p (put k v t) = tally p t + (p v).toNat := by
  rw [put_new v h, tally_append, tally_cons]
  exact congrArg (tally p t + ·) (Nat.zero_add _)

theorem tally_put_old {k : κ} (v : ν) {u : ν} {t : Table κ ν} (h : get? k t = some u) :
    tally p (put k v t) + (p u).toNat = tally p t + (p v).toNat := by
  obtain ⟨before, after, rfl, hbefore⟩ := exists_split_of_get? h
  rw [put_split hbefore, tally_append, tally_append, tally_cons, tally_cons]
  omega

theorem tally_drop_le {k : κ} {u : ν} {t : Table κ ν} (h : get? k t = some u) :
    tally p (drop k t) + (p u).toNat ≤ tally p t := by
  obtain ⟨before, after, rfl, -⟩ := exists_split_of_get? h
  have hbefore : tally p (drop k before) ≤ tally p before := List.filter_sublist.countP_le
  have hafter : tally p (drop k after) ≤ tally p after := List.filter_sublist.countP_le
  have hdrop : drop k (before ++ (k, u) :: after) = drop k before ++ drop k after := by
    rw [drop, List.filter_append, List.filter_cons_of_neg (by simp)]
    rfl
  rw [hdrop, tally_append, tally_append, tally_cons]
  omega

end Table

end LiveForm
