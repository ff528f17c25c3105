import Mathlib
import LiveForm.Proofs.AutoSave.Course
import LiveForm.Proofs.Form.Steady

/-!
# Triggers by formula and by callback

A formula as the trigger of a rule is evaluated where the rules are; a callback is called before,
and its rule is then kept as one that always applies, or left out. Both ways the rules have the same
effect if the callback evaluates the formula, as long as the formula speaks neither of the extra
properties nor of the defaults (`fieldEffect_trigger`). The context of the rules shows no defaults,
so a formula that speaks of them has another value there (`not_fieldEffect_trigger_defaults`).

* `Context.at0_build_of_ne`: what contexts with other properties and defaults have in common.
* `Form.effectOf_agree`: the two ways, if the formula has a value.
* `Form.evaluate_returns_of_expression`, `Form.evaluate_returns_of_callback`: without one, both
  fail.
-/

namespace LiveForm

/-! ### What the two contexts have in common -/

/-- Contexts that differ in the extra properties, and it may be in the defaults, hold the same under
every other name. -/
theorem Context.at0_build_of_ne {n : String} (hprops : n ≠ "props") {defaults defaults' : Entries}
    (hdefaults : n ≠ "defaultValues" ∨ defaults = defaults')
    (values record props props' : Entries) (standings : Table Key Standing) :
    Entries.at0 (build values record props standings defaults) n =
      Entries.at0 (build values record props' standings defaults') n := by
  rcases hdefaults with hdefaults | rfl
  · simp only [Entries.at0, Entries.at?, build, Table.putAll, List.foldl_cons, List.foldl_nil,
      Table.get?_text_put, Key.text_beq_text, hprops, hdefaults, decide_false, Bool.false_eq_true,
      if_false]
  · simp only [Entries.at0, Entries.at?, build, Table.putAll, List.foldl_cons, List.foldl_nil,
      Table.get?_text_put, Key.text_beq_text, hprops, decide_false, Bool.false_eq_true, if_false]

namespace Formula

/-- Two contexts give a source the same value if they agree on the names of its tree; a source
without a tree has the same value in all. -/
theorem evaluate_eq_of_agreeOn {e : String} {c d : Context}
    (h : ∀ tree, parse e = .ok tree → Context.AgreeOn tree.names c d) :
    evaluate e c = evaluate e d := by
  cases hparse : parse e with
  | error err => simp only [evaluate, hparse, answer]
  | ok tree => exact evaluate_congr hparse (h tree hparse)

/-- The source speaks neither of the extra properties nor of the defaults. -/
def IsPlain (e : String) : Prop :=
  ∀ tree, parse e = .ok tree → "props" ∉ tree.names ∧ "defaultValues" ∉ tree.names

/-- A plain source has the same value in the context of the rules and in that of the form. -/
theorem evaluate_eq_of_plain {e : String} (h : IsPlain e) (s : Snapshot) (props : Entries) :
    evaluate e (Scene.ofSnapshot s props).context = evaluate e (Context.ofSnapshot s []) := by
  refine evaluate_eq_of_agreeOn fun tree htree n hn => ?_
  obtain ⟨hprops, hdefaults⟩ := h tree htree
  simp only [Scene.ofSnapshot, Context.ofSnapshot]
  exact Context.at0_build_of_ne (fun he => hprops (he ▸ hn))
    (.inl fun he => hdefaults (he ▸ hn)) ..

end Formula

/-- The callbacks of the host answer the same, whatever is in the log. -/
def Host.IsSteady (host : Host) : Prop :=
  ∀ ref s, (host.callback ref s).Steady

namespace Rule

/-- The rule with a formula as its trigger. -/
def byExpression (r : Rule) (e : String) : Rule :=
  { r with selectWhen := .text e }

/-- The rule with a callback as its trigger. -/
def byCallback (r : Rule) (ref : Nat) : Rule :=
  { r with selectWhen := .callback ref }

/-- The rule as one that always applies. -/
def unconditional (r : Rule) : Rule :=
  { r with selectWhen := .bool true, matcher := { r.matcher with is := none, truthy := none } }

variable {r : Rule}

/-- Without fields that trigger it, a rule is matched by its computed trigger. -/
theorem isMatched_of_not_given (h : r.when.isGiven = false) (scene : Scene) :
    r.isMatched scene = r.selectHolds scene := by
  unfold isMatched
  cases hwhen : r.when with
  | none => rfl
  | field name =>
    rw [hwhen] at h
    have hname : name.isEmpty = true := by simpa [When.isGiven] using h
    simp [hname]
  | fields matchers =>
    rw [hwhen] at h
    have hmatchers : matchers.isEmpty = true := by simpa [When.isGiven] using h
    simp [hmatchers]

theorem hasTrigger_of_selectWhen (h : r.selectWhen.isNull = false) : r.hasTrigger = true := by
  simp [hasTrigger, h]

/-- What a rule does when its computed trigger has a value. -/
def actOn (scene : Scene) (sum : Effect) (r : Rule) (v : Value) : Logged Effect := do
  if r.triggerHolds v then return r.act sum (← r.newValue? scene) else return sum

theorem actOn_steady (scene : Scene) (sum : Effect) (r : Rule) (v : Value) :
    (r.actOn scene sum v).Steady := by
  unfold actOn
  split
  · exact (newValue?_steady scene r).bind fun _ => .pure _
  · exact .pure _

/-- What a rule does whose trigger is a formula. -/
theorem addEffect_byExpression (h : r.when.isGiven = false) (e : String) (scene : Scene)
    (sum : Effect) :
    addEffect scene sum (r.byExpression e) =
      Formula.evaluate e scene.context >>= r.actOn scene sum := by
  have hselect : (r.byExpression e).selectHolds scene = (do
      return r.triggerHolds (← Formula.evaluate e scene.context)) := by
    have hdescriptor : Formula.evaluateDescriptor scene.context (.text e) =
        Formula.evaluate e scene.context := by rw [Formula.evaluateDescriptor]
    simp only [selectHolds, byExpression, Value.isNull, Value.isCode, Bool.or_self,
      Bool.false_eq_true, if_false, hdescriptor]
    rfl
  have htrigger : (r.byExpression e).hasTrigger = true := hasTrigger_of_selectWhen rfl
  rw [addEffect, htrigger, isMatched_of_not_given (r := r.byExpression e) h scene, hselect]
  simp only [Bool.not_true, Bool.false_eq_true, if_false, bind_assoc, pure_bind]
  rfl

/-- What a rule does that always applies. -/
theorem addEffect_unconditional (h : r.when.isGiven = false) (scene : Scene) (sum : Effect) :
    addEffect scene sum r.unconditional = (do return r.act sum (← r.newValue? scene)) := by
  have hselect : r.unconditional.selectHolds scene = pure true := by
    have hdescriptor : Formula.evaluateDescriptor scene.context (.bool true) =
        pure (.bool true) := by rw [Formula.evaluateDescriptor] <;> simp
    simp only [selectHolds, unconditional, Value.isNull, Value.isCode, Bool.or_self,
      Bool.false_eq_true, if_false, hdescriptor, pure_bind]
    rfl
  have htrigger : r.unconditional.hasTrigger = true := hasTrigger_of_selectWhen rfl
  rw [addEffect, htrigger, isMatched_of_not_given (r := r.unconditional) h scene, hselect]
  simp only [Bool.not_true, Bool.false_eq_true, if_false, if_true, pure_bind]
  rfl

end Rule

namespace Form

open Logged (Agree)

variable {host : Host} {s : Snapshot} {r : Rule} {e : String} {ref : Nat}

/-! ### Steady callbacks -/

theorem invoke_steady (h : host.IsSteady) (s : Snapshot) (v : Value) :
    (invoke host s v).Steady := by
  unfold invoke
  split
  · exact h _ s
  · exact .throw _
  · exact .pure _

theorem resolveTrigger_steady (h : host.IsSteady) (s : Snapshot) (r : Rule) :
    (resolveTrigger host s r).Steady := by
  unfold resolveTrigger
  split
  · refine (invoke_steady h s _).bind fun v => ?_
    split
    · exact .pure _
    · exact .pure _
  · exact .pure _

theorem resolveTriggers_steady (h : host.IsSteady) (s : Snapshot) :
    ∀ rules : List Rule, (resolveTriggers host s rules).Steady
  | [] => .pure _
  | r :: rest => (resolveTrigger_steady h s r).bind fun _ =>
    (resolveTriggers_steady h s rest).bind fun _ => .pure _

/-! ### One rule among others -/

/-- The effect of rules whose triggers have been resolved. -/
def effectOfResolved (host : Host) (s : Snapshot) (props : Entries) (rules : List Rule) :
    Logged Effect := do
  let effect ← Rule.evaluateAll (Scene.ofSnapshot s props) rules
  return { effect with setValue := ← invoke host s effect.setValue }

theorem resolveTriggers_append (host : Host) (s : Snapshot) (before after : List Rule) :
    resolveTriggers host s (before ++ after) = (do
      let first ← resolveTriggers host s before
      let rest ← resolveTriggers host s after
      return first ++ rest) := by
  induction before with
  | nil => simp [resolveTriggers]
  | cons r before ih =>
    simp only [resolveTriggers, ih, bind_assoc, pure_bind, List.append_assoc, List.cons_append]

/-- The effect of rules, with one of them apart. -/
theorem effectOf_append_cons (host : Host) (s : Snapshot) (props : Entries)
    (before : List Rule) (r : Rule) (after : List Rule) :
    effectOf host s props (before ++ r :: after) = (do
      let first ← resolveTriggers host s before
      let own ← resolveTrigger host s r
      let rest ← resolveTriggers host s after
      effectOfResolved host s props (first ++ (own.toList ++ rest))) := by
  simp only [effectOf, effectOfResolved, resolveTriggers_append, resolveTriggers, bind_assoc,
    pure_bind]

theorem resolveTrigger_byExpression (host : Host) (s : Snapshot) (r : Rule) (e : String) :
    resolveTrigger host s (r.byExpression e) = pure (some (r.byExpression e)) := rfl

theorem resolveTrigger_byCallback (host : Host) (s : Snapshot) (r : Rule) (ref : Nat) :
    resolveTrigger host s (r.byCallback ref) = (do
      if r.triggerHolds (← host.callback ref s) then return some r.unconditional
      else return none) := rfl

/-- What the rule comes to when its callback has answered. -/
def resolvedTo (r : Rule) (v : Value) : Option Rule :=
  if r.triggerHolds v then some r.unconditional else none

/-- What is kept of a rule does what the rule does. -/
theorem foldlM_resolvedTo (hwhen : r.when.isGiven = false) (scene : Scene) (sum : Effect)
    (v : Value) :
    (resolvedTo r v).toList.foldlM (Rule.addEffect scene) sum = r.actOn scene sum v := by
  unfold resolvedTo Rule.actOn
  split
  · rw [Option.toList_some, List.foldlM_cons, Rule.addEffect_unconditional hwhen]
    simp only [List.foldlM_nil, bind_pure]
  · rfl

/-- Once the formula has a value, its rule among others does what is done by its rule as it is kept
or left out. -/
theorem evaluateAll_agree (hwhen : r.when.isGiven = false) {scene : Scene} {v : Value}
    (hv : (Formula.evaluate e scene.context).runNew.1 = .ok v) (before after : List Rule) :
    Agree (Rule.evaluateAll scene (before ++ ((some (r.byExpression e)).toList ++ after)))
      (Rule.evaluateAll scene (before ++ ((resolvedTo r v).toList ++ after))) := by
  have hfold (rules : List Rule) (sum : Effect) :
      (rules.foldlM (Rule.addEffect scene) sum : Logged Effect).Steady :=
    .foldlM (Rule.addEffect_steady scene) rules sum
  have hown (sum : Effect) :
      Agree ((some (r.byExpression e)).toList.foldlM (Rule.addEffect scene) sum)
        ((resolvedTo r v).toList.foldlM (Rule.addEffect scene) sum) := by
    have hvalue : Agree (Formula.evaluate e scene.context >>= r.actOn scene sum)
        (pure v >>= r.actOn scene sum) :=
      ((Formula.evaluate_steady e _).agree_pure hv).bind fun w =>
        (r.actOn_steady scene sum w).agree
    rw [pure_bind, ← foldlM_resolvedTo hwhen, ← Rule.addEffect_byExpression hwhen] at hvalue
    rw [Option.toList_some, List.foldlM_cons]
    simpa only [List.foldlM_nil, bind_pure] using hvalue
  simp only [Rule.evaluateAll, List.foldlM_append]
  exact (hfold before {}).agree.bind fun sum => (hown sum).bind fun sum' => (hfold after sum').agree

theorem effectOfResolved_agree (hhost : host.IsSteady) {props : Entries} {rules rules' : List Rule}
    (h : Agree (Rule.evaluateAll (Scene.ofSnapshot s props) rules)
      (Rule.evaluateAll (Scene.ofSnapshot s props) rules')) :
    Agree (effectOfResolved host s props rules) (effectOfResolved host s props rules') :=
  h.bind fun effect => ((invoke_steady hhost s effect.setValue).bind fun _ => .pure _).agree

section

variable (hhost : host.IsSteady) (hwhen : r.when.isGiven = false)
  (href : host.callback ref s = Formula.evaluate e (Context.ofSnapshot s []))
  (he : Formula.IsPlain e)

include hhost hwhen href he

/-- **Once the formula has a value, the two ways to trigger a rule have the same effect.** -/
theorem effectOf_agree {v : Value}
    (hv : (Formula.evaluate e (Context.ofSnapshot s [])).runNew.1 = .ok v) (props : Entries)
    (before after : List Rule) :
    Agree (effectOf host s props (before ++ r.byExpression e :: after))
      (effectOf host s props (before ++ r.byCallback ref :: after)) := by
  have hscene : (Formula.evaluate e (Scene.ofSnapshot s props).context).runNew.1 = .ok v := by
    rw [Formula.evaluate_eq_of_plain he]
    exact hv
  have hcallback : Agree (resolveTrigger host s (r.byCallback ref)) (pure (resolvedTo r v)) := by
    refine (resolveTrigger_steady hhost s _).agree_pure ?_
    rw [resolveTrigger_byCallback, href]
    have hvalue : Agree (Formula.evaluate e (Context.ofSnapshot s []) >>= fun w =>
        (pure (resolvedTo r w) : Logged (Option Rule)))
          (pure v >>= fun w => pure (resolvedTo r w)) :=
      ((Formula.evaluate_steady e _).agree_pure hv).bind fun w => (Logged.Steady.pure _).agree
    have hpure : (fun w => if r.triggerHolds w = true then return some r.unconditional
        else return none : Value → Logged (Option Rule)) = fun w => pure (resolvedTo r w) := by
      funext w
      unfold resolvedTo
      split <;> rfl
    rw [hpure]
    exact hvalue [] []
  rw [effectOf_append_cons, effectOf_append_cons, resolveTrigger_byExpression]
  refine (resolveTriggers_steady hhost s before).agree.bind fun first => ?_
  rw [pure_bind]
  intro log log'
  -- the callback answers alike to what the rule is resolved to
  have hresolved := hcallback.bind (k := fun own => do
      let rest ← resolveTriggers host s after
      effectOfResolved host s props (first ++ (own.toList ++ rest))) fun own =>
    ((resolveTriggers_steady hhost s after).agree.bind fun rest =>
      effectOfResolved_agree hhost (Rule.evaluateAll_steady _ _).agree)
  rw [pure_bind] at hresolved
  have hrules : Agree (do
        let rest ← resolveTriggers host s after
        effectOfResolved host s props (first ++ ((some (r.byExpression e)).toList ++ rest)))
      (do
        let rest ← resolveTriggers host s after
        effectOfResolved host s props (first ++ ((resolvedTo r v).toList ++ rest))) :=
    (resolveTriggers_steady hhost s after).agree.bind fun rest =>
      effectOfResolved_agree hhost (evaluateAll_agree hwhen hscene first rest)
  exact (hrules log []).trans (hresolved log' []).symm

omit hhost href in
/-- Rules one of which is triggered by a formula have an effect only if the formula has a value. -/
theorem evaluate_returns_of_expression {props : Entries} {before after : List Rule} {log : Log}
    {out : Effect}
    (h : (effectOf host s props (before ++ r.byExpression e :: after) log).1 = .ok out) :
    ∃ v, (Formula.evaluate e (Context.ofSnapshot s [])).runNew.1 = .ok v := by
  rw [effectOf_append_cons, resolveTrigger_byExpression] at h
  obtain ⟨first, -, _, h⟩ := Logged.bind_ok h
  rw [pure_bind] at h
  obtain ⟨rest, -, _, h⟩ := Logged.bind_ok h
  obtain ⟨effect, h, -⟩ := Logged.bind_ok h
  simp only [Rule.evaluateAll, List.foldlM_append] at h
  obtain ⟨sum, -, _, h⟩ := Logged.bind_ok h
  obtain ⟨sum', h, -⟩ := Logged.bind_ok h
  rw [Option.toList_some, List.foldlM_cons] at h
  obtain ⟨sum'', h, -⟩ := Logged.bind_ok h
  rw [Rule.addEffect_byExpression hwhen] at h
  obtain ⟨v, hv, -⟩ := Logged.bind_ok h
  refine ⟨v, ?_⟩
  rw [← Formula.evaluate_eq_of_plain he s props, ← hv]
  exact (Formula.evaluate_steady e _ _).symm

omit hhost hwhen he in
/-- Rules one of which is triggered by a callback have an effect only if the callback answers. -/
theorem evaluate_returns_of_callback {props : Entries} {before after : List Rule} {log : Log}
    {out : Effect}
    (h : (effectOf host s props (before ++ r.byCallback ref :: after) log).1 = .ok out) :
    ∃ v, (Formula.evaluate e (Context.ofSnapshot s [])).runNew.1 = .ok v := by
  rw [effectOf_append_cons] at h
  obtain ⟨first, -, _, h⟩ := Logged.bind_ok h
  obtain ⟨own, h, -⟩ := Logged.bind_ok h
  rw [resolveTrigger_byCallback, href] at h
  obtain ⟨v, hv, -⟩ := Logged.bind_ok h
  refine ⟨v, ?_⟩
  rw [← hv]
  exact (Formula.evaluate_steady e _ _).symm

/-- The two ways to trigger a rule have the same effect, or both fail. -/
theorem effectOf_toOption_eq (props : Entries) (before after : List Rule) (log : Log) :
    (effectOf host s props (before ++ r.byExpression e :: after) log).1.toOption =
      (effectOf host s props (before ++ r.byCallback ref :: after) log).1.toOption := by
  by_cases hv : ∃ v, (Formula.evaluate e (Context.ofSnapshot s [])).runNew.1 = .ok v
  · obtain ⟨v, hv⟩ := hv
    rw [effectOf_agree hhost hwhen href he hv props before after log log]
  · have hexpression :
        (effectOf host s props (before ++ r.byExpression e :: after) log).1.toOption = none := by
      cases hout : (effectOf host s props (before ++ r.byExpression e :: after) log).1 with
      | ok out => exact absurd (evaluate_returns_of_expression hwhen he hout) hv
      | error f => rfl
    have hcallback :
        (effectOf host s props (before ++ r.byCallback ref :: after) log).1.toOption = none := by
      cases hout : (effectOf host s props (before ++ r.byCallback ref :: after) log).1 with
      | ok out => exact absurd (evaluate_returns_of_callback href hout) hv
      | error f => rfl
    rw [hexpression, hcallback]

end

/-! ### Forms -/

/-- The form in which a field has these conditions. -/
def withConditions (f : Form) (name : FieldName) (field : Field) (rules : List Rule) : Form :=
  { f with definition := { f.definition with
      fields := Table.put name { field with conditions := rules } f.definition.fields } }

/-- What the conditions of the field do. -/
theorem fieldEffect_withConditions (host : Host) (f : Form) (name : FieldName) (field : Field)
    (rules : List Rule) :
    fieldEffect host (f.withConditions name field rules) name =
      effectOf host f.snapshot [(.text "name", name.toValue)] rules := by
  have hfield : (f.withConditions name field rules).field name =
      .ok { field with conditions := rules } := by
    unfold Form.field withConditions
    rw [Table.get?_put_self]
  have hlook : (Logged.ofExcept (.ok { field with conditions := rules }) : Logged Field) =
      pure { field with conditions := rules } := rfl
  rw [fieldEffect, hfield, hlook, pure_bind]
  rfl

/-- **A trigger means the same as a formula and as a callback.** Take a form in any state and a
field one of whose conditions names no field that triggers it. Whether its trigger is a formula that
speaks neither of the extra properties nor of the defaults, or the callback that evaluates this
formula in the form, the conditions of the field have the same effect, or have none both times; and
they fail alike or not at all if the formula has a value. -/
theorem fieldEffect_trigger (f : Form) {host : Host} (hhost : host.IsSteady) (name : FieldName)
    (field : Field) (before after : List Rule) {r : Rule} (hwhen : r.when.isGiven = false)
    {e : String} (he : Formula.IsPlain e) {ref : Nat}
    (href : ∀ s, host.callback ref s = Formula.evaluate e (Context.ofSnapshot s [])) (log : Log) :
    let expression :=
      fieldEffect host (f.withConditions name field (before ++ r.byExpression e :: after)) name
    let callback :=
      fieldEffect host (f.withConditions name field (before ++ r.byCallback ref :: after)) name
    (expression log).1.toOption = (callback log).1.toOption ∧
      ∀ v, (Formula.evaluate e (Context.ofSnapshot f.snapshot [])).runNew.1 = .ok v →
        (expression log).1 = (callback log).1 := by
  intro expression callback
  simp only [expression, callback, fieldEffect_withConditions]
  exact ⟨effectOf_toOption_eq hhost hwhen (href f.snapshot) he _ before after log,
    fun v hv => effectOf_agree hhost hwhen (href f.snapshot) he hv _ before after log log⟩

/-! ### A form with defaults -/

/-- A host whose only callback evaluates a formula in the form. -/
def evaluator (e : String) : Host :=
  { World.bare.host with callback := fun _ s => Formula.evaluate e (Context.ofSnapshot s []) }

theorem evaluator_isSteady (e : String) : (evaluator e).IsSteady :=
  fun _ _ => Formula.evaluate_steady e _

/-- A form whose field `a` has a value, and had it at the start. -/
def oneField : Form :=
  { World.bare.form with
    store := { values := [(.text "a", .bool true)], defaults := [(.text "a", .bool true)] } }

/-- The rule disables its field. -/
def disabling : Rule :=
  { disabled := some true }

/-- The form beside whose field a field `b` has one condition. -/
def oneCondition (r : Rule) : Form :=
  oneField.withConditions (.text "b") { name := .text "b" } ([] ++ r :: [])

/-- Here `b` is disabled while `a` holds. -/
theorem fieldEffect_trigger_disabling :
    let expression :=
      fieldEffect (evaluator "a") (oneCondition (disabling.byExpression "a")) (.text "b")
    let callback := fieldEffect (evaluator "a") (oneCondition (disabling.byCallback 0)) (.text "b")
    (expression []).1.toOption = (callback []).1.toOption ∧
      (expression []).1 = (callback []).1 := by
  have hparse : Formula.parse "a" = .ok (.name "a") := by cbv
  have hplain : Formula.IsPlain "a" := by
    intro tree htree
    rw [hparse] at htree
    cases htree
    simp [Expr.names]
  have hlook : Entries.at0 (Context.ofSnapshot oneField.snapshot []) "a" =
      .field (.bool true) {} .null := by
    rw [Context.ofSnapshot, Entries.at0, Context.at?_build _ _ _ _ _ _ (by decide)]
    rfl
  have hvalue : (Formula.evaluate "a" (Context.ofSnapshot oneField.snapshot [])).runNew.1 =
      .ok (.bool true) := by
    simp only [Formula.evaluate, hparse, Formula.answer, Formula.eval, hlook]
    rfl
  have hcallback (s : Snapshot) :
      (evaluator "a").callback 0 s = Formula.evaluate "a" (Context.ofSnapshot s []) := rfl
  obtain ⟨hsame, hequal⟩ := fieldEffect_trigger oneField (evaluator_isSteady "a") (.text "b")
    { name := .text "b" } [] [] (r := disabling) rfl hplain hcallback []
  exact ⟨hsame, hequal _ hvalue⟩

theorem parse_defaults :
    Formula.parse "defaultValues.a" = .ok (.member (.name "defaultValues") "a") := by
  cbv

/-- The formula looks a field up in the defaults of its context. -/
theorem evaluate_defaults (values record props : Entries) (standings : Table Key Standing)
    (defaults : Entries) :
    Formula.evaluate "defaultValues.a" (.build values record props standings defaults) =
      pure (Entries.at0 defaults "a").stripped := by
  have hdefaults : Entries.at0 (Context.build values record props standings defaults)
      "defaultValues" = .map defaults := by
    rw [Entries.at0, Context.at?_build _ _ _ _ _ _ (by decide), if_pos rfl, Option.getD_some]
  have hvalue : Formula.eval (.build values record props standings defaults)
      (.member (.name "defaultValues") "a") = .ok (Entries.at0 defaults "a") := by
    simp only [Formula.eval, hdefaults]
    rfl
  simp only [Formula.evaluate, parse_defaults, Formula.answer, hvalue]

/-- The context of the rules has no defaults. -/
theorem fieldEffect_defaults_expression :
    (fieldEffect (evaluator "defaultValues.a")
      (oneCondition (disabling.byExpression "defaultValues.a")) (.text "b") []).1 = .ok {} := by
  rw [oneCondition, fieldEffect_withConditions, effectOf_append_cons, resolveTrigger_byExpression]
  simp only [resolveTriggers, pure_bind, effectOfResolved, Rule.evaluateAll, Option.toList_some,
    List.nil_append, List.append_nil, List.foldlM_cons, List.foldlM_nil, bind_pure,
    Rule.addEffect_byExpression (r := disabling) rfl, Scene.ofSnapshot, evaluate_defaults]
  rfl

theorem fieldEffect_defaults_callback :
    (fieldEffect (evaluator "defaultValues.a") (oneCondition (disabling.byCallback 0))
      (.text "b") []).1 = .ok { disabled := some true, hasDisabled := true } := by
  have hcallback : (evaluator "defaultValues.a").callback 0 oneField.snapshot =
      pure (.bool true) := evaluate_defaults ..
  rw [oneCondition, fieldEffect_withConditions, effectOf_append_cons, resolveTrigger_byCallback,
    hcallback]
  simp only [resolveTriggers, pure_bind]
  rfl

/-- A formula that speaks of the defaults means something else than its callback. -/
theorem not_fieldEffect_trigger_defaults :
    ¬ ∀ (f : Form) (host : Host) (name : FieldName) (field : Field) (before after : List Rule)
      (r : Rule) (e : String) (ref : Nat) (log : Log), host.IsSteady → r.when.isGiven = false →
      (∀ tree, Formula.parse e = .ok tree → "props" ∉ tree.names) →
      (∀ s, host.callback ref s = Formula.evaluate e (Context.ofSnapshot s [])) →
      (fieldEffect host (f.withConditions name field (before ++ r.byExpression e :: after))
          name log).1.toOption =
        (fieldEffect host (f.withConditions name field (before ++ r.byCallback ref :: after))
          name log).1.toOption := by
  intro h
  have hprops : ∀ tree, Formula.parse "defaultValues.a" = .ok tree → "props" ∉ tree.names := by
    intro tree htree
    rw [parse_defaults] at htree
    cases htree
    simp [Expr.names]
  have hsame : (fieldEffect (evaluator "defaultValues.a")
        (oneCondition (disabling.byExpression "defaultValues.a")) (.text "b") []).1.toOption =
      (fieldEffect (evaluator "defaultValues.a") (oneCondition (disabling.byCallback 0))
        (.text "b") []).1.toOption :=
    h oneField _ (.text "b") { name := .text "b" } [] [] disabling "defaultValues.a" 0 []
      (evaluator_isSteady _) rfl hprops fun _ => rfl
  rw [fieldEffect_defaults_expression, fieldEffect_defaults_callback] at hsame
  exact absurd (congrArg Effect.hasDisabled (Option.some.inj hsame)) (by simp)

end Form

end LiveForm
