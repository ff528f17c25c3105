/-!
# Sets of names

A set of names is a list without repetitions. Its order is never shown: what leaves the library is
sorted first.
-/

namespace LiveForm

/-- A set of names. -/
abbrev Names (ν : Type) := List ν

namespace Names

variable {ν : Type} [BEq ν]

/-- The set with one more name. -/
def add (n : ν) (s : Names ν) : Names ν :=
  if s.contains n then s else s ++ [n]

/-- The set without a name. -/
def remove (n : ν) (s : Names ν) : Names ν :=
  s.filter (· != n)

/-- Every name of either set. -/
def union (s t : Names ν) : Names ν :=
  t.foldl (fun acc n => add n acc) s

/-- The set of a list: each name once, where it first stands. -/
def ofList (l : List ν) : Names ν :=
  union [] l

/-- The names of the first set that are not in the second. -/
def minus (s t : Names ν) : Names ν :=
  s.filter fun n => !t.contains n

/-- Texts in ascending order. -/
def sorted (s : Names String) : List String :=
  s.mergeSort fun a b => decide (a ≤ b)

variable [LawfulBEq ν]

@[simp] theorem mem_add {n m : ν} {s : Names ν} : m ∈ add n s ↔ m ∈ s ∨ m = n := by
  by_cases h : n ∈ s
  · simp only [add, List.contains_iff_mem, h, if_true]
    exact ⟨Or.inl, fun hm => hm.elim id fun e => e ▸ h⟩
  · simp [add, h]

@[simp] theorem mem_remove {n m : ν} {s : Names ν} : m ∈ remove n s ↔ m ∈ s ∧ m ≠ n := by
  simp [remove]

/-- A set that holds a name gets smaller without it. -/
theorem length_remove_lt {n : ν} {s : Names ν} (h : n ∈ s) : (remove n s).length < s.length :=
  List.length_filter_lt_length_iff_exists.2 ⟨n, h, by simp⟩

@[simp] theorem mem_union {m : ν} {s t : Names ν} : m ∈ union s t ↔ m ∈ s ∨ m ∈ t := by
  unfold union
  induction t generalizing s with
  | nil => simp
  | cons n rest ih => simp [ih, or_assoc]

@[simp] theorem mem_ofList {m : ν} {l : List ν} : m ∈ ofList l ↔ m ∈ l := by
  simp [ofList]

@[simp] theorem mem_minus {m : ν} {s t : Names ν} : m ∈ minus s t ↔ m ∈ s ∧ m ∉ t := by
  simp [minus]

@[simp] theorem mem_sorted {m : String} {s : Names String} : m ∈ sorted s ↔ m ∈ s := by
  simp [sorted]

end Names

end LiveForm
