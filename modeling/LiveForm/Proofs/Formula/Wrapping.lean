import Mathlib
import LiveForm.Formula.Eval
import LiveForm.Proofs.Formula.Nodes
import LiveForm.Proofs.Value.Keys

/-!
# Formulas see through wrappings

A context shows a field's value wrapped in the field's marks and its error. A formula that asks for
no mark cannot tell a wrapped value from a bare one: in the two contexts it fails with the same
fault, or gives values that are the same once they are unwrapped (`wrapping_transparent`).

What a node gives may still be wrapped, and differently so in the two contexts. So what is carried
through a tree is `Alike`, and every operator has to unwrap before it looks.
-/

namespace LiveForm

namespace Value

/-- The names that a wrapped field answers to itself. -/
def markNames : List String :=
  ["value", "isTouched", "isDirty", "isValidating", "error", "invalid", "disabled"]

theorem mark?_eq_none {name : String} (h : name ∉ markNames) (value : Value) (marks : Marks)
    (error : Value) : mark? value marks error name = none := by
  unfold mark?
  split
  case h_8 => rfl
  all_goals exact absurd (by decide) h

/-- The key is the name of no mark. -/
def SparesMarks (key : Value) : Prop :=
  ∀ name, key.name? = some name → name ∉ markNames

/-- Under a key that is the name of no mark stands what the value behind the wrapping has there. -/
theorem property_bare {key : Value} (h : key.SparesMarks) :
    ∀ v : Value, v.bare.property key = v.property key
  | .null | .bool _ | .number _ | .text _ | .list _ | .map _ | .issue _ _ | .unset | .callback _
  | .check _ => rfl
  | .field value marks error => by
    have hmark : key.name?.bind (mark? value marks error) = none :=
      Option.bind_eq_none_iff.2 fun name hname => mark?_eq_none (h name hname) _ _ _
    rw [bare_field, property_bare h value, property, hmark]

theorem truthy_bare (v : Value) : v.bare.truthy = v.truthy := by
  rw [truthy, truthy, bare_bare]

theorem stripped_bare : ∀ v : Value, v.bare.stripped = v.stripped
  | .null | .bool _ | .number _ | .text _ | .list _ | .map _ | .issue _ _ | .unset | .callback _
  | .check _ => rfl
  | .field value marks error => by rw [bare_field, stripped_bare value, stripped]

end Value

/-- A node that asks for no mark of a field: the member that it asks for is none, and between its
brackets stands a literal that is none. -/
def Expr.SparesMarks : Expr → Prop
  | .member _ m => m ∉ Value.markNames
  | .index _ i => ∃ v, i = .literal v ∧ v.bare.SparesMarks
  | _ => True

/-- The first context holds under every name what the second holds, as it is or wrapped. -/
def Context.Wraps (c d : Context) : Prop :=
  ∀ n, (Entries.at? c n).map Value.bare = Entries.at? d n

theorem Context.Wraps.at0 {c d : Context} (h : c.Wraps d) (n : String) :
    (Entries.at0 c n).bare = (Entries.at0 d n).bare := by
  rw [Entries.at0, Entries.at0, ← h n]
  cases Entries.at? c n with
  | none => rfl
  | some v => exact (Value.bare_bare v).symm

namespace Formula

/-- Two computations fail alike, or give values that are the same once they are unwrapped. -/
def Alike (r s : Except Fault Value) : Prop :=
  r.map Value.bare = s.map Value.bare

namespace Alike

variable {α : Type} {r s : Except Fault Value}

theorem refl (r : Except Fault Value) : Alike r r :=
  rfl

theorem ok {v w : Value} (h : v.bare = w.bare) : Alike (.ok v) (.ok w) :=
  congrArg Except.ok h

theorem elim (h : Alike r s) :
    (∃ f, r = .error f ∧ s = .error f) ∨ ∃ v w, r = .ok v ∧ s = .ok w ∧ v.bare = w.bare := by
  cases r with
  | error f =>
    cases s with
    | error g => exact .inl ⟨f, rfl, congrArg _ (Except.error.inj h).symm⟩
    | ok w => exact nomatch h
  | ok v =>
    cases s with
    | error g => exact nomatch h
    | ok w => exact .inr ⟨v, w, rfl, rfl, Except.ok.inj h⟩

/-- What only looks at unwrapped values goes on from alike computations in the same way. -/
theorem bind_eq (h : Alike r s) {f g : Value → Except Fault α}
    (hfg : ∀ v w, v.bare = w.bare → f v = g w) : (r >>= f) = (s >>= g) := by
  obtain ⟨e, rfl, rfl⟩ | ⟨v, w, rfl, rfl, hvw⟩ := h.elim
  · rfl
  · exact hfg v w hvw

theorem bind (h : Alike r s) {f g : Value → Except Fault Value}
    (hfg : ∀ v w, v.bare = w.bare → Alike (f v) (g w)) : Alike (r >>= f) (s >>= g) := by
  obtain ⟨e, rfl, rfl⟩ | ⟨v, w, rfl, rfl, hvw⟩ := h.elim
  · rfl
  · exact hfg v w hvw

theorem of_eq (h : r = s) : Alike r s :=
  h ▸ refl r

end Alike

theorem property_alike {key v w : Value} (hkey : key.SparesMarks) (hvw : v.bare = w.bare) :
    Alike (Fault.ofNumber (v.property key)) (Fault.ofNumber (w.property key)) :=
  .of_eq (by rw [← Value.property_bare hkey v, hvw, Value.property_bare hkey w])

mutual

/-- A formula that asks for no mark is evaluated alike, whether the context wraps values or not. -/
theorem eval_alike {c d : Context} (h : c.Wraps d) :
    ∀ {e : Expr}, (∀ node ∈ e.nodes, node.SparesMarks) → Alike (eval c e) (eval d e)
  | .literal v, _ => .refl _
  | .name n, _ => .ok (h.at0 n)
  | .member object name, he => by
    obtain ⟨hname, hobject⟩ := List.forall_mem_cons.1 he
    have hkey : (Value.text name).SparesMarks := by
      rintro _ ⟨⟩
      exact hname
    rw [eval, eval]
    exact (eval_alike h hobject).bind fun v w hvw => property_alike hkey hvw
  | .index object i, he => by
    obtain ⟨⟨key, rfl, hkey⟩, hnodes⟩ := List.forall_mem_cons.1 he
    obtain ⟨hobject, -⟩ := List.forall_mem_append.1 hnodes
    rw [eval, eval]
    exact (eval_alike h hobject).bind fun v w hvw => property_alike hkey hvw
  | .binary op left right, he => by
    obtain ⟨hleft, hright⟩ := List.forall_mem_append.1 (List.forall_mem_cons.1 he).2
    rw [eval, eval]
    refine .of_eq ((eval_alike h hleft).bind_eq fun l l' hl => ?_)
    refine (eval_alike h hright).bind_eq fun r r' hr => ?_
    rw [hl, hr]
  | .logical op left right, he => by
    obtain ⟨hleft, hright⟩ := List.forall_mem_append.1 (List.forall_mem_cons.1 he).2
    rw [eval, eval]
    refine .of_eq ((eval_alike h hleft).bind_eq fun l l' hl => ?_)
    dsimp only
    rw [hl]
    cases decides? op l'.bare with
    | error f => rfl
    | ok decided =>
      cases decided with
      | true => rfl
      | false =>
        exact (eval_alike h hright).bind_eq fun r r' hr => congrArg Except.ok hr
  | .unary op operand, he => by
    have hoperand := (List.forall_mem_cons.1 he).2
    rw [eval, eval]
    refine .of_eq ((eval_alike h hoperand).bind_eq fun v w hvw => ?_)
    rw [hvw]
  | .conditional test consequent alternate, he => by
    obtain ⟨htest, hbranches⟩ := List.forall_mem_append.1 (List.forall_mem_cons.1 he).2
    obtain ⟨hconsequent, halternate⟩ := List.forall_mem_append.1 hbranches
    rw [eval, eval]
    refine (eval_alike h htest).bind fun t t' ht => ?_
    rw [← Value.truthy_bare t, ht, Value.truthy_bare t']
    split
    · exact eval_alike h hconsequent
    · exact eval_alike h halternate
  | .array items, he => by
    rw [eval, eval, evalElements_eq h (List.forall_mem_cons.1 he).2]
    exact .refl _
  | .sequence body, he => by
    rw [eval, eval]
    exact evalSequence_alike h (List.forall_mem_cons.1 he).2 rfl
  | .call _ _, _ => .refl _
  | .foreign _, _ => .refl _

/-- The elements of an array are unwrapped, so that they are the same. -/
theorem evalElements_eq {c d : Context} (h : c.Wraps d) :
    ∀ {items : List (Option Expr)},
      (∀ node ∈ Expr.nodesElements items, node.SparesMarks) →
        evalElements c items = evalElements d items
  | [], _ => by rw [evalElements, evalElements]
  | none :: rest, hitems => by
    have hrest : ∀ node ∈ Expr.nodesElements rest, node.SparesMarks := hitems
    rw [evalElements, evalElements, evalElements_eq h hrest]
  | some e :: rest, hitems => by
    obtain ⟨he, hrest⟩ := List.forall_mem_append.1 hitems
    rw [evalElements, evalElements, evalElements_eq h hrest]
    refine (eval_alike h he).bind_eq fun v w hvw => ?_
    rw [hvw]

/-- Of a sequence comes the last value, which nothing has unwrapped. -/
theorem evalSequence_alike {c d : Context} (h : c.Wraps d) :
    ∀ {body : List Expr}, (∀ node ∈ Expr.nodesAll body, node.SparesMarks) →
      ∀ {v w : Value}, v.bare = w.bare → Alike (evalSequence c v body) (evalSequence d w body)
  | [], _, v, w, hvw => by
    rw [evalSequence, evalSequence]
    exact .ok hvw
  | e :: rest, hbody, v, w, _ => by
    obtain ⟨he, hrest⟩ := List.forall_mem_append.1 hbody
    rw [evalSequence, evalSequence]
    exact (eval_alike h he).bind fun v' w' hvw' => evalSequence_alike h hrest hvw'

end

/-- What is given in the end is unwrapped, so that alike computations have one answer. -/
theorem evaluate_eq_of_alike {source : String} {c d : Context}
    (h : ∀ e, parse source = .ok e → Alike (eval c e) (eval d e)) :
    evaluate source c = evaluate source d := by
  unfold evaluate
  cases hparse : parse source with
  | error e => rfl
  | ok e =>
    obtain ⟨f, hc, hd⟩ | ⟨v, w, hc, hd, hvw⟩ := (h e hparse).elim
    · simp only [answer, hc, hd]
    · simp only [answer, hc, hd]
      rw [← Value.stripped_bare v, hvw, Value.stripped_bare w]

/-- **Wrappings are transparent.** Of two contexts with the same names let the first hold what the
second holds, as it is or wrapped, however often. A tree that asks for no mark fails in both with
the same fault, or gives values that are the same once they are unwrapped; a source of such a tree
has one answer, and leaves one log. -/
theorem wrapping_transparent {c d : Context} (h : c.Wraps d) :
    (∀ e : Expr, (∀ node ∈ e.nodes, node.SparesMarks) →
      (eval c e).map Value.bare = (eval d e).map Value.bare) ∧
    ∀ source : String,
      (∀ e, parse source = .ok e → ∀ node ∈ e.nodes, node.SparesMarks) →
        evaluate source c = evaluate source d :=
  ⟨fun _ he => eval_alike h he, fun _ hsource =>
    evaluate_eq_of_alike fun e hparse => eval_alike h (hsource e hparse)⟩

/-- A context with one field, whose value is wrapped twice. -/
def wrappedCount : Context :=
  [(.text "count", .field (.field (.int 3) {} .null) { touched := true } (.text "late"))]

theorem wrappedCount_wraps : wrappedCount.Wraps [(.text "count", .int 3)] := by
  intro n
  by_cases hn : "count" = n
  · subst hn
    rfl
  · have hkey : (Key.text "count" == Key.text n) = false :=
      Bool.eq_false_iff.2 fun h => hn (Key.text.inj (Key.text_eq h)).symm
    simp only [wrappedCount, Entries.at?, Table.get?, hkey]
    rfl

/-- In an array a sum over the wrapped field and the field itself, which no operator unwraps. -/
theorem wrapping_transparent_count :
    wrappedCount.Wraps [(.text "count", .int 3)] ∧
    (eval wrappedCount (.name "count")).map Value.bare = .ok (.int 3) ∧
    evaluate "[count + 1, count]" wrappedCount =
      evaluate "[count + 1, count]" [(.text "count", .int 3)] := by
  have hparse : parse "[count + 1, count]" = .ok (.array
      [some (.binary .add (.name "count") (.literal (.int 1))), some (.name "count")]) := by cbv
  obtain ⟨htrees, hsources⟩ := wrapping_transparent wrappedCount_wraps
  refine ⟨wrappedCount_wraps, htrees (.name "count") (by simp [Expr.nodes, Expr.SparesMarks]),
    hsources _ fun e he => ?_⟩
  obtain rfl := Except.ok.inj (hparse.symm.trans he)
  simp [Expr.nodes, Expr.nodesElements, Expr.SparesMarks]

end Formula

end LiveForm
