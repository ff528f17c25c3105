import Mathlib
import LiveForm.Formula.Eval
import LiveForm.Proofs.Value.Ground

/-!
# Laws of equality and order

Turning a comparison around changes nothing: `a < b` and `b > a`, and `a <= b` and `b >= a`, have
the same answer, or both fail (`eval_converse`). This holds of all values, since each way of
comparing two of them, by text or by number, turns around (`compareOfLessAndEq_swap`,
`Number.compare?_swap`), and which way is taken does not depend on the sides. Together with the laws
of equality this is `equality_and_order`.
-/

namespace LiveForm

/-! ### Numbers and texts -/

namespace Number

open Float.Model in
theorem unpacked_compare_swap (u v : UnpackedFloat) :
    v.compare u = (u.compare v).map Ordering.swap := by
  have hmagnitude (e e' : Int) (m m' : Nat) :
      (compare e' e).then (compare m' m) = ((compare e e').then (compare m m')).swap := by
    rw [Ordering.swap_then, ← Std.OrientedCmp.eq_swap, ← Std.OrientedCmp.eq_swap]
  cases u with
  | notANumber => cases v <;> rfl
  | infinity s =>
    cases v with
    | notANumber => cases s <;> rfl
    | infinity s' | zero s' | finite s' m' e' h' => cases s <;> cases s' <;> rfl
  | zero s =>
    cases v with
    | notANumber => rfl
    | infinity s' | zero s' | finite s' m' e' h' => cases s <;> cases s' <;> rfl
  | finite s m e h =>
    cases v with
    | notANumber => rfl
    | infinity s' | zero s' => cases s <;> cases s' <;> rfl
    | finite s' m' e' h' =>
      cases s <;> cases s'
      · exact congrArg some (congrArg Ordering.swap (hmagnitude ..))
      · rfl
      · rfl
      · exact congrArg some (hmagnitude ..)

/-- Floating numbers are compared as they are unpacked. -/
theorem compare?_float (x y : Float) :
    compare? (.float x) (.float y) = x.toModel.unpack.compare y.toModel.unpack := by
  have hlt (x y : Float) : x < y ↔ x.toModel.unpack.compare y.toModel.unpack = some .lt :=
    ⟨fun h => beq_iff_eq.1 (of_decide_eq_true h : _ = true), fun h => decide_eq_true (beq_iff_eq.2 h : _ = true)⟩
  have heq : (x == y) = (x.toModel.unpack.compare y.toModel.unpack == some .eq) := rfl
  rw [compare?, heq]
  simp only [hlt]
  rw [unpacked_compare_swap x.toModel.unpack y.toModel.unpack]
  rcases x.toModel.unpack.compare y.toModel.unpack with _ | _ | _ | _ <;> rfl

theorem compare?_swap (m n : Number) : n.compare? m = (m.compare? n).map Ordering.swap := by
  cases m with
  | int a =>
    cases n with
    | int b => exact congrArg some Std.OrientedCmp.eq_swap
    | float y => rfl
  | float x =>
    cases n with
    | int b =>
      have hswap : Ordering.swap ∘ Ordering.swap = id := funext fun _ => Ordering.swap_swap
      rw [compare?, compare?, Option.map_map, hswap, Option.map_id_fun, id]
    | float y => rw [compare?_float, compare?_float, unpacked_compare_swap]

end Number

theorem compareOfLessAndEq_swap (s t : String) :
    compareOfLessAndEq t s = (compareOfLessAndEq s t).swap := by
  rw [← cmp_eq_compareOfLessAndEq, ← cmp_eq_compareOfLessAndEq, cmp_swap]

namespace Formula

/-! ### Comparisons -/

/-- The relation between the same two sides, read from the other one. -/
def Relation.converse : Relation → Relation
  | lt => gt
  | le => ge
  | gt => lt
  | ge => le

theorem Relation.converse_holds (rel : Relation) (o : Ordering) :
    rel.converse.holds o.swap = rel.holds o := by
  cases rel <;> cases o <;> rfl

/-- Two answers to one question: the same flag, or no answer from either. -/
inductive SameAnswer : Except Fault Value → Except Fault Value → Prop
  | flag (b : Bool) : SameAnswer (.ok (.bool b)) (.ok (.bool b))
  | failed (e e' : EvalError) : SameAnswer (.error (.eval e)) (.error (.eval e'))

/-- Two values, compared by the numbers they stand for. -/
def compareCounts (rel : Relation) (l r : Value) : Except Fault Value :=
  match comparand? l r, comparand? r l with
  | some (some m), some (some n) => .ok (.bool ((m.compare? n).any rel.holds))
  | some _, some _ => .ok (.bool false)
  | _, _ => failEval (.incomparable l.kindName r.kindName)

theorem compareCounts_converse (rel : Relation) (l r : Value) :
    SameAnswer (compareCounts rel l r) (compareCounts rel.converse r l) := by
  unfold compareCounts
  rcases comparand? l r with _ | _ | m <;> rcases comparand? r l with _ | _ | n
  case some.some.some.some =>
    have hany : (n.compare? m).any rel.converse.holds = (m.compare? n).any rel.holds := by
      rw [Number.compare?_swap m n]
      cases m.compare? n with
      | none => rfl
      | some o => exact rel.converse_holds o
    simp only [hany]
    exact .flag _
  all_goals first | exact .flag _ | exact .failed _ _

theorem compare_null_right (rel : Relation) (l : Value) : compare rel l .null = .ok (.bool false) := by
  cases l <;> rfl

/-- All but nothing and two texts are compared by number. -/
theorem compare_eq_compareCounts {l r : Value} (rel : Relation) (hl : l ≠ .null) (hr : r ≠ .null)
    (htexts : ¬∃ s t, l = .text s ∧ r = .text t) : compare rel l r = compareCounts rel l r := by
  rw [compare.eq_def]
  split
  · exact absurd rfl hl
  · exact absurd rfl hr
  · exact absurd ⟨_, _, rfl, rfl⟩ htexts
  · rfl

/-- A comparison and its converse have the same answer. -/
theorem compare_converse (rel : Relation) (l r : Value) :
    SameAnswer (compare rel l r) (compare rel.converse r l) := by
  by_cases hl : l = .null
  · rw [hl, compare_null_right]
    exact .flag false
  by_cases hr : r = .null
  · rw [hr, compare_null_right]
    exact .flag false
  by_cases htexts : ∃ s t, l = .text s ∧ r = .text t
  · obtain ⟨s, t, rfl, rfl⟩ := htexts
    rw [compare, compare, compareOfLessAndEq_swap s t, Relation.converse_holds]
    exact .flag _
  · have htexts' : ¬∃ s t, r = .text s ∧ l = .text t := fun ⟨s, t, hs, ht⟩ => htexts ⟨t, s, ht, hs⟩
    rw [compare_eq_compareCounts rel hl hr htexts,
      compare_eq_compareCounts rel.converse hr hl htexts']
    exact compareCounts_converse rel l r

/-! ### In formulas -/

/-- A relation as an operator. -/
def Relation.op : Relation → BinaryOp
  | lt => .lt
  | le => .le
  | gt => .gt
  | ge => .ge

theorem binaryOp_relation (rel : Relation) (l r : Value) :
    binaryOp rel.op l r = compare rel l r := by
  cases rel <;> rfl

/-- A formula that compares two others, and the one that compares them the other way round. -/
theorem eval_converse {ctx : Context} {e₁ e₂ : Expr} {l r : Value} (h₁ : eval ctx e₁ = .ok l)
    (h₂ : eval ctx e₂ = .ok r) (rel : Relation) :
    SameAnswer (eval ctx (.binary rel.op e₁ e₂)) (eval ctx (.binary rel.converse.op e₂ e₁)) := by
  rw [eval_binary h₁ h₂, eval_binary h₂ h₁, binaryOp_relation, binaryOp_relation]
  exact compare_converse rel l.bare r.bare

/-- **Equality and order.** On ground values strict equality is an equivalence, loose equality is
symmetric and wider, and a comparison may be turned around. -/
theorem equality_and_order {u v w : Value} (hu : u.Ground) (hv : v.Ground) (hw : w.Ground) :
    u.strictEq u = true ∧
    (u.strictEq v = true → v.strictEq u = true) ∧
    (u.strictEq v = true → v.strictEq w = true → u.strictEq w = true) ∧
    (u.strictEq v = true → u.looseEq v = true) ∧
    u.looseEq v = v.looseEq u ∧
    ∀ (ctx : Context) (e₁ e₂ : Expr), eval ctx e₁ = .ok u → eval ctx e₂ = .ok v →
      SameAnswer (eval ctx (.binary .lt e₁ e₂)) (eval ctx (.binary .gt e₂ e₁)) ∧
      SameAnswer (eval ctx (.binary .le e₁ e₂)) (eval ctx (.binary .ge e₂ e₁)) :=
  ⟨hu.strictEq_self, hu.strictEq_symm hv, hu.strictEq_trans hv hw, hu.looseEq_of_strictEq hv,
    hu.looseEq_comm hv, fun _ _ _ h₁ h₂ => ⟨eval_converse h₁ h₂ .lt, eval_converse h₁ h₂ .le⟩⟩

/-- A field that holds a row of two, the row itself, and the row with a field in it. -/
theorem equality_and_order_row :
    let held : Value := .field (.list [.int 2, .text "x"]) { touched := true } .null
    let row : Value := .list [.int 2, .text "x"]
    let mixed : Value := .list [.field (.int 2) {} (.text "stale"), .text "x"]
    let ctx : Context := [(.text "held", held), (.text "row", row)]
    held.Ground ∧ row.Ground ∧ mixed.Ground ∧ row.strictEq held = true ∧
      held.strictEq mixed = true ∧ held.looseEq row = true ∧
      SameAnswer (eval ctx (.binary .lt (.name "held") (.name "row")))
        (eval ctx (.binary .gt (.name "row") (.name "held"))) := by
  intro held row mixed ctx
  have htwo : (Value.int 2).Ground := .int 2
  have hrow : row.Ground := .list (by simpa using ⟨htwo, .text "x"⟩)
  have hheld : held.Ground := .field _ _ hrow
  have hmixed : mixed.Ground := .list (by simpa using ⟨.field _ _ htwo, .text "x"⟩)
  obtain ⟨-, hsymm, htrans, hloose, -, horder⟩ := equality_and_order hheld hrow hmixed
  have heq : held.strictEq row = true := by decide
  exact ⟨hheld, hrow, hmixed, hsymm heq, htrans heq (by decide), hloose heq,
    (horder ctx (.name "held") (.name "row") rfl rfl).1⟩

end Formula

end LiveForm
