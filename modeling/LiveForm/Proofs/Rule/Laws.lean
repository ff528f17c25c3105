import Mathlib
import LiveForm.Proofs.Form.Steady
import LiveForm.Proofs.Rule.Merge

/-!
# What rules come to

Rules are merged one after the other, but what they come to can be said at once (`merge_laws`): of the
rules that have a trigger and match, those that disable are joined by *or*, those that show by *and*,
and of those that give a value the last one decides (`SumsTo`). So the order matters for the value
only, and a rule that does not match might as well not be there.
-/

namespace LiveForm.Rule

section

variable {scene : Scene} {r : Rule} {rules rules' M : List Rule} {sum e : Effect}
  {given : Option Value} {log : Log}

/-! ### Rules that apply -/

/-- The rule has a trigger and matches. -/
def applies (scene : Scene) (r : Rule) : Bool :=
  r.hasTrigger &&
    match (r.isMatched scene).runNew.1 with
    | .ok matched => matched
    | .error _ => false

/-- The rules that have a trigger and match, in order. -/
def matching (scene : Scene) (rules : List Rule) : List Rule :=
  rules.filter (applies scene)

/-- The rule fails neither when its trigger is looked at nor when its value is computed. -/
structure Answers (scene : Scene) (r : Rule) : Prop where
  matched : r.hasTrigger = true → ∃ b, (r.isMatched scene).runNew.1 = .ok b
  given : applies scene r = true → r.hasSet = true → ∃ v, (r.givenValue scene).runNew.1 = .ok v

/-- The value that a rule grants: its own, or a computed one without what is known of its field. Code
of the host is handed on. -/
inductive Grants (scene : Scene) (r : Rule) : Value → Prop
  | own {v : Value} : r.set = some v → Grants scene r v
  | code : r.set = none → r.selectSet.isCode = true → Grants scene r r.selectSet
  | computed {v : Value} : r.set = none → r.selectSet.isCode = false →
      (Formula.evaluateDescriptor scene.context r.selectSet).runNew.1 = .ok v →
      Grants scene r v.bare

theorem grants_of_givenValue {v : Value} (h : (r.givenValue scene).runNew.1 = .ok v) :
    Grants scene r v := by
  unfold givenValue at h
  split at h
  · next w hset =>
    obtain rfl : w = v := Except.ok.inj h
    exact .own hset
  · next hset =>
    split at h
    · next hcode =>
      rw [← Except.ok.inj h]
      exact .code hset hcode
    · next hcode =>
      obtain ⟨w, hw, log', hbare⟩ := Logged.bind_ok h
      rw [← Except.ok.inj hbare]
      exact .computed hset (Bool.eq_false_iff.2 hcode) hw

theorem applies_of_matched {b : Bool} (htrigger : r.hasTrigger = true)
    (h : (r.isMatched scene).runNew.1 = .ok b) : applies scene r = b := by
  rw [applies, htrigger, h, Bool.true_and]

/-! ### Adding one rule -/

/-- A new value is there if the rule gives one, and it is that one. -/
theorem newValue?_cases (h : (r.newValue? scene).runNew.1 = .ok given) :
    (r.hasSet = false ∧ given = none) ∨
      (r.hasSet = true ∧ ∃ v, (r.givenValue scene).runNew.1 = .ok v ∧ given = some v) := by
  unfold newValue? at h
  split at h
  · next hset =>
    obtain ⟨v, hv, log', hreturn⟩ := Logged.bind_ok h
    exact .inr ⟨hset, v, hv, (Except.ok.inj hreturn).symm⟩
  · next hset => exact .inl ⟨Bool.eq_false_iff.2 hset, (Except.ok.inj h).symm⟩

theorem newValue?_returns (h : r.hasSet = true → ∃ v, (r.givenValue scene).runNew.1 = .ok v) :
    ∃ given, (r.newValue? scene).runNew.1 = .ok given := by
  unfold newValue?
  split
  · next hset =>
    obtain ⟨v, hv⟩ := h hset
    refine ⟨some v, ?_⟩
    have hanswer := (givenValue_steady scene r).bind_answer
      (fun v => .pure (some v)) []
    exact hanswer.trans (by rw [hv]; rfl)
  · exact ⟨none, rfl⟩

/-- What adding a rule to an effect answers, said without a log. -/
theorem addEffect_answer (sum : Effect) (r : Rule) (log : Log) :
    (addEffect scene sum r log).1 =
      if r.hasTrigger then
        (r.isMatched scene).runNew.1 >>= fun matched =>
          if matched then (r.newValue? scene).runNew.1 >>= fun given => .ok (r.act sum given)
          else .ok sum
      else .ok sum := by
  unfold addEffect
  cases r.hasTrigger with
  | false => rfl
  | true =>
    have hadd (matched : Bool) : Logged.Steady (do
        if matched then return r.act sum (← r.newValue? scene) else return sum) := by
      cases matched with
      | false => exact .pure sum
      | true => exact (newValue?_steady scene r).bind fun _ => .pure _
    refine ((isMatched_steady scene r).bind_answer hadd log).trans ?_
    refine congrArg _ (funext fun matched => ?_)
    cases matched with
    | false => rfl
    | true => exact (newValue?_steady scene r).bind_answer (fun _ => .pure _) []

/-- A rule is added to an effect if it applies, and else nothing is. -/
theorem addEffect_cases (h : (addEffect scene sum r log).1 = .ok e) :
    (applies scene r = false ∧ e = sum) ∨
      (applies scene r = true ∧
        ∃ given, (r.newValue? scene).runNew.1 = .ok given ∧ e = r.act sum given) := by
  rw [addEffect_answer] at h
  cases htrigger : r.hasTrigger with
  | false =>
    rw [htrigger] at h
    exact .inl ⟨by rw [applies, htrigger, Bool.false_and], (Except.ok.inj h).symm⟩
  | true =>
    rw [htrigger, if_pos rfl] at h
    cases hmatched : (r.isMatched scene).runNew.1 with
    | error fault => simp [hmatched, bind, Except.bind] at h
    | ok matched =>
      have happlies := applies_of_matched htrigger hmatched
      cases matched with
      | false =>
        rw [hmatched] at h
        exact .inl ⟨happlies, (Except.ok.inj h).symm⟩
      | true =>
        cases hgiven : (r.newValue? scene).runNew.1 with
        | error fault => simp [hmatched, hgiven, bind, Except.bind] at h
        | ok given =>
          rw [hmatched, hgiven] at h
          exact .inr ⟨happlies, given, rfl, (Except.ok.inj h).symm⟩

/-- Adding a rule to an effect fails exactly if the rule does. -/
theorem addEffect_returns : (∃ e, (addEffect scene sum r log).1 = .ok e) ↔ Answers scene r := by
  rw [addEffect_answer]
  constructor
  · rintro ⟨e, h⟩
    refine ⟨fun htrigger => ?_, fun happlies hset => ?_⟩
    · rw [htrigger, if_pos rfl] at h
      cases hmatched : (r.isMatched scene).runNew.1 with
      | error fault => simp [hmatched, bind, Except.bind] at h
      | ok matched => exact ⟨matched, rfl⟩
    · rw [← addEffect_answer sum r []] at h
      rcases addEffect_cases h with ⟨hnot, -⟩ | ⟨-, given, hgiven, -⟩
      · exact absurd (happlies.symm.trans hnot) (by decide)
      · rcases newValue?_cases hgiven with ⟨hnone, -⟩ | ⟨-, v, hv, -⟩
        · exact absurd (hset.symm.trans hnone) (by decide)
        · exact ⟨v, hv⟩
  · intro h
    split
    · next htrigger =>
      obtain ⟨matched, hmatched⟩ := h.matched htrigger
      rw [hmatched]
      cases matched with
      | false => exact ⟨sum, rfl⟩
      | true =>
        obtain ⟨given, hgiven⟩ :=
          newValue?_returns (h.given (applies_of_matched htrigger hmatched))
        rw [hgiven]
        exact ⟨r.act sum given, rfl⟩
    · exact ⟨sum, rfl⟩

/-! ### What rules come to -/

/-- What rules come to that all have a trigger and match: the effect has an axis if one of them speaks
of it, any of them disables, all that speak of being visible must show, and the last one that gives a
value decides the value. -/
structure SumsTo (scene : Scene) (M : List Rule) (e : Effect) : Prop where
  hasDisabled : e.hasDisabled = true ↔ ∃ r ∈ M, r.disabled.isSome = true
  disabled : e.disabled =
    if e.hasDisabled then some ((M.filterMap Rule.disabled).any id) else none
  hasVisible : e.hasVisible = true ↔ ∃ r ∈ M, r.visible.isSome = true
  visible : e.visible = if e.hasVisible then some ((M.filterMap Rule.visible).all id) else none
  hasSet : e.hasSet = true ↔ ∃ r ∈ M, r.hasSet = true
  unset : e.hasSet = false → e.setValue = .null
  setValue : ∀ r, (M.filter Rule.hasSet).getLast? = some r → Grants scene r e.setValue

theorem sumsTo_nil : SumsTo scene [] {} where
  hasDisabled := by simp
  disabled := rfl
  hasVisible := by simp
  visible := rfl
  hasSet := by simp
  unset _ := rfl
  setValue _ hr := nomatch hr

theorem exists_mem_snoc {p : Rule → Prop} :
    (∃ q ∈ M ++ [r], p q) ↔ (∃ q ∈ M, p q) ∨ p r := by
  simp only [List.mem_append, List.mem_singleton, or_and_right, exists_or, exists_eq_left]

/-- On an axis of which no rule speaks there is nothing to join. -/
theorem filterMap_eq_nil {axis : Rule → Option Bool} (h : ¬∃ q ∈ M, (axis q).isSome = true) :
    M.filterMap axis = [] :=
  List.filterMap_eq_nil_iff.2 fun q hq =>
    Option.not_isSome_iff_eq_none.1 fun hsome => h ⟨q, hq, hsome⟩

/-- A rule that applies adds its part to what the rules before it come to. -/
theorem SumsTo.snoc (h : SumsTo scene M sum) (hgiven : (r.newValue? scene).runNew.1 = .ok given) :
    SumsTo scene (M ++ [r]) (r.act sum given) where
  hasDisabled := by
    show (sum.hasDisabled || r.disabled.isSome) = true ↔ _
    rw [exists_mem_snoc, ← h.hasDisabled, Bool.or_eq_true]
  disabled := by
    cases hr : r.disabled with
    | none => simp [act, hr, h.disabled]
    | some d =>
      cases hsum : sum.hasDisabled with
      | true => simp [act, hr, h.disabled, hsum, Effect.flag]
      | false =>
        have hnil : M.filterMap Rule.disabled = [] :=
          filterMap_eq_nil fun hex => absurd (h.hasDisabled.2 hex) (by simp [hsum])
        simp [act, hr, h.disabled, hsum, Effect.flag, hnil]
  hasVisible := by
    show (sum.hasVisible || r.visible.isSome) = true ↔ _
    rw [exists_mem_snoc, ← h.hasVisible, Bool.or_eq_true]
  visible := by
    cases hr : r.visible with
    | none => simp [act, hr, h.visible]
    | some d =>
      cases hsum : sum.hasVisible with
      | true => simp [act, hr, h.visible, hsum, Effect.flag]
      | false =>
        have hnil : M.filterMap Rule.visible = [] :=
          filterMap_eq_nil fun hex => absurd (h.hasVisible.2 hex) (by simp [hsum])
        simp [act, hr, hsum, hnil]
  hasSet := by
    rw [exists_mem_snoc, ← h.hasSet]
    rcases newValue?_cases hgiven with ⟨hset, rfl⟩ | ⟨hset, v, -, rfl⟩ <;> simp [act, hset]
  unset hno := by
    obtain ⟨hsum, hnone⟩ := Bool.or_eq_false_iff.1 hno
    obtain rfl := Option.isSome_eq_false_iff.1 hnone |> Option.isNone_iff_eq_none.1
    exact h.unset hsum
  setValue q hq := by
    rw [List.filter_append] at hq
    rcases newValue?_cases hgiven with ⟨hset, rfl⟩ | ⟨hset, v, hv, rfl⟩
    · rw [List.filter_cons_of_neg (by simp [hset]), List.filter_nil, List.append_nil] at hq
      exact h.setValue q hq
    · rw [List.filter_cons_of_pos hset, List.filter_nil, List.getLast?_concat] at hq
      obtain rfl := Option.some.inj hq
      exact grants_of_givenValue hv

/-! ### Evaluating rules -/

theorem evaluateAll_snoc (scene : Scene) (rules : List Rule) (r : Rule) :
    evaluateAll scene (rules ++ [r]) = evaluateAll scene rules >>= fun sum =>
      addEffect scene sum r := by
  rw [evaluateAll, List.foldlM_append]
  refine bind_congr fun sum => ?_
  rw [List.foldlM_cons]
  exact bind_pure _

theorem evaluateAll_snoc_ok :
    (evaluateAll scene (rules ++ [r]) log).1 = .ok e ↔
      ∃ sum, (evaluateAll scene rules []).1 = .ok sum ∧ (addEffect scene sum r []).1 = .ok e := by
  have hanswer := (evaluateAll_steady scene rules).bind_answer
    (fun sum => addEffect_steady scene sum r) log
  rw [evaluateAll_snoc, hanswer]
  show ((evaluateAll scene rules []).1 >>= fun sum => (addEffect scene sum r []).1) = .ok e ↔ _
  cases (evaluateAll scene rules []).1 with
  | error fault => simp [bind, Except.bind]
  | ok sum => simp [bind, Except.bind]

/-- Evaluating rules fails exactly if one of them does. -/
theorem evaluateAll_returns (log : Log) :
    (∃ e, (evaluateAll scene rules log).1 = .ok e) ↔ ∀ r ∈ rules, Answers scene r := by
  induction rules using List.reverseRecOn generalizing log with
  | nil => exact iff_of_true ⟨{}, rfl⟩ (List.forall_mem_nil _)
  | append_singleton rules r ih =>
    rw [List.forall_mem_append, List.forall_mem_singleton, ← ih []]
    constructor
    · rintro ⟨e, he⟩
      obtain ⟨sum, hsum, hadd⟩ := evaluateAll_snoc_ok.1 he
      exact ⟨⟨sum, hsum⟩, addEffect_returns.1 ⟨e, hadd⟩⟩
    · rintro ⟨⟨sum, hsum⟩, hr⟩
      obtain ⟨e, he⟩ := addEffect_returns.2 hr
      exact ⟨e, evaluateAll_snoc_ok.2 ⟨sum, hsum, he⟩⟩

/-- What rules are evaluated to is what those of them come to that apply, and these alone are
evaluated to the same. -/
theorem evaluateAll_sumsTo (h : (evaluateAll scene rules log).1 = .ok e) :
    SumsTo scene (matching scene rules) e ∧
      (evaluateAll scene (matching scene rules) []).1 = .ok e := by
  induction rules using List.reverseRecOn generalizing e log with
  | nil => exact ⟨Except.ok.inj h ▸ sumsTo_nil, h⟩
  | append_singleton rules r ih =>
    obtain ⟨sum, hsum, hadd⟩ := evaluateAll_snoc_ok.1 h
    obtain ⟨hsums, halone⟩ := ih hsum
    have hsplit : matching scene (rules ++ [r]) =
        matching scene rules ++ [r].filter (applies scene) := List.filter_append ..
    rw [hsplit]
    rcases addEffect_cases hadd with ⟨hnot, rfl⟩ | ⟨happlies, given, hgiven, rfl⟩
    · rw [List.filter_cons_of_neg (by simp [hnot]), List.filter_nil, List.append_nil]
      exact ⟨hsums, halone⟩
    · rw [List.filter_cons_of_pos happlies, List.filter_nil]
      exact ⟨hsums.snoc hgiven, evaluateAll_snoc_ok.2 ⟨sum, halone, hadd⟩⟩

/-- Rules that are read one by one are evaluated as if they had been read at once. -/
theorem evaluateDescribed_eq {described : List Value} (h : ofValues described = .ok rules) :
    evaluateDescribed scene described = evaluateAll scene rules := by
  have folded (sum : Effect) :
      described.foldlM (fun sum v => do addEffect scene sum (← Logged.ofExcept (ofValue v))) sum =
        rules.foldlM (addEffect scene) sum := by
    induction described generalizing rules sum with
    | nil =>
      obtain rfl := Except.ok.inj h
      rfl
    | cons v described ih =>
      rw [ofValues] at h
      cases hv : ofValue v with
      | error fault => simp [hv, bind, Except.bind] at h
      | ok r =>
        cases hrest : ofValues described with
        | error fault => simp [hv, hrest, bind, Except.bind] at h
        | ok later =>
          rw [hv, hrest] at h
          obtain rfl : r :: later = rules := Except.ok.inj h
          rw [List.foldlM_cons, List.foldlM_cons, hv]
          exact bind_congr fun sum => ih hrest sum
  exact folded {}

/-! ### Order -/

/-- Rules that apply in another order come to the same but for the value. -/
theorem SumsTo.perm {M' : List Rule} {e' : Effect} (h : SumsTo scene M e)
    (h' : SumsTo scene M' e') (hperm : M.Perm M') :
    (e'.hasDisabled = e.hasDisabled ∧ e'.disabled = e.disabled) ∧
      (e'.hasVisible = e.hasVisible ∧ e'.visible = e.visible) ∧ e'.hasSet = e.hasSet := by
  have hex (p : Rule → Prop) : (∃ q ∈ M', p q) ↔ ∃ q ∈ M, p q :=
    exists_congr fun q => and_congr_left' hperm.symm.mem_iff
  have hdisabled : e'.hasDisabled = e.hasDisabled := by
    rw [Bool.eq_iff_iff, h'.hasDisabled, h.hasDisabled, hex]
  have hvisible : e'.hasVisible = e.hasVisible := by
    rw [Bool.eq_iff_iff, h'.hasVisible, h.hasVisible, hex]
  refine ⟨⟨hdisabled, ?_⟩, ⟨hvisible, ?_⟩, ?_⟩
  · rw [h'.disabled, h.disabled, hdisabled, (hperm.filterMap Rule.disabled).any_eq]
  · rw [h'.visible, h.visible, hvisible, (hperm.filterMap Rule.visible).all_eq]
  · rw [Bool.eq_iff_iff, h'.hasSet, h.hasSet, hex]

/-! ### The laws -/

/-- **What rules come to.** Rules are evaluated without failure exactly if none of them fails, and
then to what those of them come to that have a trigger and match (`SumsTo`); to evaluate only these
gives the same. In any other order the rules are evaluated too, and to the same but for the value.
Rules that are read one by one are no exception. -/
theorem merge_laws (scene : Scene) (rules : List Rule) (log : Log) :
    ((∃ e, (evaluateAll scene rules log).1 = .ok e) ↔ ∀ r ∈ rules, Answers scene r) ∧
      (∀ e, (evaluateAll scene rules log).1 = .ok e →
        SumsTo scene (matching scene rules) e ∧
          (evaluateAll scene (matching scene rules) []).1 = .ok e ∧
          ∀ rules', rules.Perm rules' → ∃ e', (evaluateAll scene rules' []).1 = .ok e' ∧
            (e'.hasDisabled = e.hasDisabled ∧ e'.disabled = e.disabled) ∧
              (e'.hasVisible = e.hasVisible ∧ e'.visible = e.visible) ∧ e'.hasSet = e.hasSet) ∧
      ∀ described, ofValues described = .ok rules →
        evaluateDescribed scene described = evaluateAll scene rules := by
  refine ⟨evaluateAll_returns log, fun e he => ?_, fun described => evaluateDescribed_eq⟩
  obtain ⟨hsums, halone⟩ := evaluateAll_sumsTo he
  refine ⟨hsums, halone, fun rules' hperm => ?_⟩
  have hanswers := (evaluateAll_returns log).1 ⟨e, he⟩
  have hanswers' : ∀ r ∈ rules', Answers scene r :=
    fun r hr => hanswers r (hperm.mem_iff.2 hr)
  obtain ⟨e', he'⟩ := (evaluateAll_returns []).2 hanswers'
  exact ⟨e', he', hsums.perm (evaluateAll_sumsTo he').1 (hperm.filter _)⟩

end

namespace Fees

def scene : Scene := Scene.ofSnapshot { values := [(.text "amount", .int 5)] } []

/-- The first two rules apply, the third has no trigger, and the last one does not match. -/
def rules : List Rule :=
  [{ when := .field "amount", disabled := some true, set := some (.int 1) },
    { selectWhen := .text "amount > 3", disabled := some false, visible := some true,
      selectSet := .text "amount + 1" },
    { visible := some false },
    { when := .field "other", visible := some false, set := some .null }]

def effect : Effect where
  disabled := some true
  visible := some true
  setValue := .int 6
  hasDisabled := true
  hasVisible := true
  hasSet := true

theorem evaluated : (evaluateAll scene rules []).1 = .ok effect := by
  cbv

end Fees

/-- Rules for a fee, in their order and in the opposite one. -/
theorem merge_laws_fees : (evaluateAll Fees.scene Fees.rules []).1 = .ok Fees.effect ∧
    SumsTo Fees.scene (matching Fees.scene Fees.rules) Fees.effect ∧
    Fees.rules.Perm Fees.rules.reverse ∧
    ∃ e', (evaluateAll Fees.scene Fees.rules.reverse []).1 = .ok e' ∧ e'.disabled = some true ∧
      e'.visible = some true := by
  obtain ⟨hsums, -, hperm⟩ := (merge_laws Fees.scene Fees.rules []).2.1 _ Fees.evaluated
  have hreverse := (List.reverse_perm Fees.rules).symm
  obtain ⟨e', he', ⟨-, hdisabled⟩, ⟨-, hvisible⟩, -⟩ := hperm _ hreverse
  exact ⟨Fees.evaluated, hsums, hreverse, e', he', hdisabled, hvisible⟩

end LiveForm.Rule
