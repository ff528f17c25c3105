/-!
# Ordered tables

A table is a list of keys with their values, each key once, in the order in which the keys came.
Writing to a key that is there changes its value and leaves its place and its spelling alone.
-/

namespace LiveForm

/-- Keys with their values, in order. -/
abbrev Table (κ ν : Type) := List (κ × ν)

namespace Table

variable {κ ν : Type}

/-- The value under a key. -/
def get? [BEq κ] (k : κ) : Table κ ν → Option ν
  | [] => none
  | (k', v) :: rest => if k' == k then some v else get? k rest

/-- A key of the table. -/
def has [BEq κ] (k : κ) (t : Table κ ν) : Bool :=
  (get? k t).isSome

/-- Writes a value under a key: in its place if the key is there, at the end if it is not. -/
def put [BEq κ] (k : κ) (v : ν) : Table κ ν → Table κ ν
  | [] => [(k, v)]
  | (k', v') :: rest => if k' == k then (k', v) :: rest else (k', v') :: put k v rest

/-- The table without a key. -/
def drop [BEq κ] (k : κ) (t : Table κ ν) : Table κ ν :=
  t.filter fun e => !(e.1 == k)

/-- The keys, in order. -/
def keys (t : Table κ ν) : List κ :=
  t.map Prod.fst

/-- Writes every entry of a list, in order. -/
def putAll [BEq κ] (t : Table κ ν) (es : List (κ × ν)) : Table κ ν :=
  es.foldl (fun acc e => put e.1 e.2 acc) t

/-- The table of a list of entries: of two entries with one key the first gives the place and the
last the value. -/
def ofList [BEq κ] (es : List (κ × ν)) : Table κ ν :=
  putAll [] es

theorem get?_put_self [BEq κ] [LawfulBEq κ] (k : κ) (v : ν) :
    ∀ t : Table κ ν, get? k (put k v t) = some v
  | [] => by simp [put, get?]
  | (k', v') :: rest => by
    by_cases h : k' == k
    · simp [put, get?, h]
    · simp [put, get?, h, get?_put_self k v rest]

theorem get?_put_of_ne [BEq κ] [LawfulBEq κ] {k j : κ} (h : (k == j) = false) (v : ν) :
    ∀ t : Table κ ν, get? j (put k v t) = get? j t
  | [] => by simp [put, get?, h]
  | (k', v') :: rest => by
    by_cases hk : k' == k
    · have : k' = k := by simpa using hk
      subst this
      simp [put, get?, h]
    · simp [put, get?, hk, get?_put_of_ne h v rest]

@[simp] theorem get?_drop_self [BEq κ] [LawfulBEq κ] (k : κ) (t : Table κ ν) :
    get? k (drop k t) = none := by
  induction t with
  | nil => rfl
  | cons e rest ih =>
    by_cases h : e.1 == k
    · simpa [drop, h] using ih
    · simpa [drop, h, get?] using ih

theorem get?_drop_of_ne [BEq κ] [LawfulBEq κ] {k j : κ} (h : (k == j) = false) (t : Table κ ν) :
    get? j (drop k t) = get? j t := by
  induction t with
  | nil => rfl
  | cons e rest ih =>
    by_cases hk : e.1 == k
    · have he : e.1 = k := by simpa using hk
      simpa [drop, he, get?, h] using ih
    · by_cases hj : e.1 == j
      · simp [drop, hk, hj, get?]
      · simpa [drop, hk, hj, get?] using ih

end Table

end LiveForm
