import Mathlib
import LiveForm.Proofs.Formula.Code
import LiveForm.Rule.Effect

/-!
# Rules in parts

Rules that are evaluated in one go add to one effect after the other (`Rule.act`); effects that come
from several sources are merged (`Effect.merge`). The two are different computations with one law: a
rule does to an effect what it does to none, merged behind that effect (`Definite.act_eq_merge`).
So it does not matter into which parts a list of rules is cut (`evaluate_in_parts`), nor in which
groups effects are merged (`mergeAll_flatten`).

* `Effect.Settled`: an axis that nobody spoke of holds nothing. Whatever is merged from scratch is
  settled, and behind a settled effect merging is associative.
* `Effect.Definite`: the flags say exactly which axes hold something. Rules give definite effects.
-/

namespace LiveForm

namespace Effect

/-! ### Merging in groups -/

theorem merge_empty (e : Effect) : e.merge {} = e := by
  simp [Effect.merge]

/-- An axis of which nobody spoke holds nothing. -/
structure Settled (e : Effect) : Prop where
  disabled : e.hasDisabled = false → e.disabled = none
  visible : e.hasVisible = false → e.visible = none

theorem settled_empty : Settled {} where
  disabled _ := rfl
  visible _ := rfl

theorem Settled.merge {e : Effect} (h : e.Settled) (next : Effect) : (e.merge next).Settled where
  disabled hd := by
    obtain ⟨he, hnext⟩ := Bool.or_eq_false_iff.1 hd
    simp [Effect.merge, hnext, h.disabled he]
  visible hv := by
    obtain ⟨he, hnext⟩ := Bool.or_eq_false_iff.1 hv
    simp [Effect.merge, hnext, h.visible he]

theorem settled_mergeAll (es : List Effect) : (mergeAll es).Settled := by
  have folded (e : Effect) (h : e.Settled) : (es.foldl merge e).Settled := by
    induction es generalizing e with
    | nil => exact h
    | cons next es ih => exact ih _ (h.merge next)
  exact folded {} settled_empty

/-- Behind a settled effect it does not matter what is merged first. Behind any other one it does:
a value on an axis of which the effect does not speak would come to count. -/
theorem Settled.merge_merge {m : Effect} (h : m.Settled) (e next : Effect) :
    (e.merge m).merge next = e.merge (m.merge next) := by
  obtain ⟨hdisabled, hvisible⟩ := h
  have off : ((e.merge m).merge next).disabled = (e.merge (m.merge next)).disabled := by
    cases hm : m.hasDisabled with
    | false => cases hn : next.hasDisabled <;> simp [Effect.merge, flag, hm, hn, hdisabled hm]
    | true => cases hn : next.hasDisabled <;> simp [Effect.merge, flag, hm, hn, Bool.or_assoc]
  have shown : ((e.merge m).merge next).visible = (e.merge (m.merge next)).visible := by
    cases hm : m.hasVisible with
    | false =>
      cases hn : next.hasVisible <;> cases he : e.visible <;>
        simp [Effect.merge, hm, hn, he, hvisible hm]
    | true =>
      cases hn : next.hasVisible <;> cases he : e.visible <;> cases hv : m.visible <;>
        simp [Effect.merge, hm, hn, he, hv, Bool.and_assoc]
  have given : ((e.merge m).merge next).setValue = (e.merge (m.merge next)).setValue := by
    cases hm : m.hasSet <;> cases hn : next.hasSet <;> simp [Effect.merge, hm, hn]
  simp only [Effect.merge, Bool.or_assoc] at off shown given ⊢
  rw [off, shown, given]

/-- Merging a row of effects behind one is merging what the row comes to behind it. -/
theorem foldl_merge (e : Effect) (es : List Effect) : es.foldl merge e = e.merge (mergeAll es) := by
  induction es using List.reverseRecOn with
  | nil => exact (merge_empty e).symm
  | append_singleton es next ih =>
    rw [mergeAll, List.foldl_append, List.foldl_append, ih]
    exact (settled_mergeAll es).merge_merge e next

/-- Effects may be merged in any groups of neighbours. -/
theorem mergeAll_flatten (ess : List (List Effect)) :
    mergeAll ess.flatten = mergeAll (ess.map mergeAll) := by
  have folded (e : Effect) : ess.flatten.foldl merge e = (ess.map mergeAll).foldl merge e := by
    induction ess generalizing e with
    | nil => rfl
    | cons es ess ih =>
      rw [List.flatten_cons, List.foldl_append, List.map_cons, List.foldl_cons, foldl_merge e es]
      exact ih _
  exact folded {}

/-! ### Definite effects -/

/-- The flags of the effect say exactly which axes hold something. -/
structure Definite (e : Effect) : Prop where
  disabled : e.hasDisabled = e.disabled.isSome
  visible : e.hasVisible = e.visible.isSome

theorem definite_empty : Definite {} where
  disabled := rfl
  visible := rfl

theorem Definite.settled {e : Effect} (h : e.Definite) : e.Settled where
  disabled hd := by simpa [h.disabled] using hd
  visible hv := by simpa [h.visible] using hv

theorem Definite.merge {e next : Effect} (h : e.Definite) (hnext : next.Definite) :
    (e.merge next).Definite where
  disabled := by cases hd : next.hasDisabled <;> simp [Effect.merge, hd, h.disabled]
  visible := by
    have hv := hnext.visible
    cases hn : next.visible <;> cases he : e.visible <;>
      simp_all [Effect.merge, h.visible]

theorem Definite.act {e : Effect} (h : e.Definite) (r : Rule) (newValue : Option Value) :
    (r.act e newValue).Definite where
  disabled := by cases hr : r.disabled <;> simp [Rule.act, hr, h.disabled]
  visible := by cases hr : r.visible <;> simp [Rule.act, hr, h.visible]

/-- What a rule does to an effect is what it does to none, merged behind the effect. -/
theorem Definite.act_eq_merge {e : Effect} (h : e.Definite) (r : Rule) (newValue : Option Value) :
    r.act e newValue = e.merge (r.act {} newValue) := by
  have hvisible := h.visible
  cases hd : r.disabled <;> cases hv : r.visible <;> cases newValue <;>
    cases he : e.visible <;> simp_all [Rule.act, Effect.merge, flag]

end Effect

namespace Rule

open Effect (Definite mergeAll)

/-! ### Evaluating in parts -/

/-- A step of an evaluation that adds to an effect what it would give alone. -/
structure Adds {α : Type} (step : Effect → α → Logged Effect) : Prop where
  definite : ∀ e, e.Definite → ∀ a, (step e a).Gives Definite
  eq_merge : ∀ e, e.Definite → ∀ a,
    step e a = do return e.merge (← step {} a)

namespace Adds

variable {α : Type} {step : Effect → α → Logged Effect}

theorem foldlM_definite (h : Adds step) (as : List α) {e : Effect} (he : e.Definite) :
    (as.foldlM step e).Gives Definite := by
  induction as generalizing e with
  | nil => exact .pure he
  | cons a as ih =>
    rw [List.foldlM_cons]
    exact (h.definite e he a).bind fun e' he' => ih he'

/-- A run of steps adds to an effect what it would give alone. -/
theorem foldlM_eq_merge (h : Adds step) (as : List α) {e : Effect} (he : e.Definite) :
    as.foldlM step e = do return e.merge (← as.foldlM step {}) := by
  induction as generalizing e with
  | nil =>
    rw [List.foldlM_nil, List.foldlM_nil, pure_bind, Effect.merge_empty]
  | cons a as ih =>
    have hfirst := h.definite {} Effect.definite_empty a
    calc (a :: as).foldlM step e
        = (do let x ← step {} a; as.foldlM step (e.merge x)) := by
          rw [List.foldlM_cons, h.eq_merge e he a]
          simp only [bind_assoc, pure_bind]
      _ = do let x ← step {} a; return e.merge (← as.foldlM step x) := by
          refine Logged.bind_congr hfirst fun x hx => ?_
          rw [ih (he.merge hx), ih hx]
          simp only [bind_assoc, pure_bind, hx.settled.merge_merge]
      _ = do return e.merge (← (a :: as).foldlM step {}) := by
          rw [List.foldlM_cons, bind_assoc]

/-- Steps may be taken in any groups of neighbours, each group from scratch. -/
theorem foldlM_flatten (h : Adds step) (ass : List (List α)) :
    ass.flatten.foldlM step {} = do return mergeAll (← ass.mapM (·.foldlM step {})) := by
  have folded (e : Effect) (he : e.Definite) : ass.flatten.foldlM step e = do
      return (← ass.mapM (·.foldlM step {})).foldl Effect.merge e := by
    induction ass generalizing e with
    | nil => rw [List.flatten_nil, List.foldlM_nil, List.mapM_nil, pure_bind, List.foldl_nil]
    | cons as ass ih =>
      have hfirst := h.foldlM_definite as Effect.definite_empty
      calc (as :: ass).flatten.foldlM step e
          = (do let x ← as.foldlM step {}; ass.flatten.foldlM step (e.merge x)) := by
            rw [List.flatten_cons, List.foldlM_append, h.foldlM_eq_merge as he]
            simp only [bind_assoc, pure_bind]
        _ = do
            let x ← as.foldlM step {}
            return (← ass.mapM (·.foldlM step {})).foldl Effect.merge (e.merge x) :=
          Logged.bind_congr hfirst fun x hx => ih (e.merge x) (he.merge hx)
        _ = do return (← (as :: ass).mapM (·.foldlM step {})).foldl Effect.merge e := by
            rw [List.mapM_cons]
            simp only [bind_assoc, pure_bind, List.foldl_cons]
  exact folded {} Effect.definite_empty

end Adds

/-- Adding a rule to an effect adds what the rule would give alone. -/
theorem addEffect_adds (scene : Scene) : Adds (addEffect scene) where
  definite e he r := by
    unfold addEffect
    split
    · exact .pure he
    · refine Logged.Gives.after fun matched => ?_
      cases matched with
      | false => exact .pure he
      | true =>
        exact Logged.Gives.after fun given => .pure (he.act r given)
  eq_merge e he r := by
    unfold addEffect
    split
    · rw [pure_bind, Effect.merge_empty]
    · rw [bind_assoc]
      congr 1
      funext matched
      cases matched with
      | false => simp [Effect.merge_empty]
      | true => simp [← he.act_eq_merge r]

/-- Reading a rule and adding it to an effect adds what the rule would give alone. -/
theorem addDescribed_adds (scene : Scene) :
    Adds fun sum v => do addEffect scene sum (← Logged.ofExcept (ofValue v)) where
  definite e he v :=
    Logged.Gives.after fun r => (addEffect_adds scene).definite e he r
  eq_merge e he v := by
    rw [bind_assoc]
    congr 1
    funext r
    exact (addEffect_adds scene).eq_merge e he r

/-- **It does not matter into which parts rules are cut.** The rules of all parts together have the
effect that the effects of the parts come to when they are merged, with the same log and the same
failure, whether the rules are given as they are or are read one by one; and effects of any origin
may be merged in any groups of neighbours. -/
theorem evaluate_in_parts :
    (∀ (scene : Scene) (parts : List (List Rule)), evaluateAll scene parts.flatten = do
      return mergeAll (← parts.mapM (evaluateAll scene))) ∧
    (∀ (scene : Scene) (parts : List (List Value)), evaluateDescribed scene parts.flatten = do
      return mergeAll (← parts.mapM (evaluateDescribed scene))) ∧
    ∀ ess : List (List Effect), mergeAll ess.flatten = mergeAll (ess.map mergeAll) :=
  ⟨fun scene => (addEffect_adds scene).foldlM_flatten,
    fun scene => (addDescribed_adds scene).foldlM_flatten, Effect.mergeAll_flatten⟩

end Rule

end LiveForm
