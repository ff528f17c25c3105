import Mathlib
import LiveForm.Form.Condition
import LiveForm.Proofs.Formula.Code
import LiveForm.Proofs.Formula.Descriptors

/-!
# What the effect of rules depends on

In two snapshots that know the same of the fields on which some rules depend, the rules have the
same effect (`effectOf_eq_of_alike`), if their sources are clear and no code takes part.
-/

namespace LiveForm

open Formula

/-- No code of the host stands in the places of the rule that are evaluated or given. -/
structure Rule.CodeFree (r : Rule) : Prop where
  selectWhen : r.selectWhen.CodeFree
  selectSet : r.selectSet.CodeFree
  set : ∀ v, r.set = some v → v.CodeFree

/-- The sources of the rule are clear. -/
def Rule.IsClear (r : Rule) : Prop :=
  ∀ source ∈ r.selectWhen.sources ++ r.selectSet.sources, Formula.IsClear source

/-- Steps that do the same to every state make the same run. -/
theorem foldlM_congr {m : Type → Type} [Monad m] {α σ : Type} {f g : σ → α → m σ} {as : List α}
    (h : ∀ a ∈ as, ∀ s, f s a = g s a) (s : σ) : as.foldlM f s = as.foldlM g s := by
  induction as generalizing s with
  | nil => rfl
  | cons a as ih =>
    rw [List.foldlM_cons, List.foldlM_cons, h a List.mem_cons_self]
    exact congrArg _ (funext fun s => ih (fun b hb => h b (List.mem_cons_of_mem _ hb)) s)

namespace Rule

variable {s t : Snapshot} {r : Rule}

/-! ### The fields that a rule depends on -/

theorem mem_dependencies_field {name : String} (hwhen : r.when = .field name)
    (hname : name.isEmpty = false) : name ∈ r.dependencies := by
  simp [dependencies, hwhen, hname]

theorem mem_dependencies_fields {matchers : Table String Matcher}
    (hwhen : r.when = .fields matchers) {e : String × Matcher} (he : e ∈ matchers) :
    e.1 ∈ r.dependencies := by
  have hkey : e.1 ∈ Table.keys matchers := List.mem_map_of_mem he
  simp [dependencies, hwhen, hkey]

theorem mem_dependencies_selectWhen {n : String} (h : n ∈ descriptorReads r.selectWhen) :
    n ∈ r.dependencies := by
  simp [dependencies, h]

theorem mem_dependencies_selectSet {n : String} (h : n ∈ descriptorReads r.selectSet) :
    n ∈ r.dependencies := by
  simp [dependencies, h]

/-! ### One rule -/

theorem holdsIn_eq (m : Matcher) {name : String} (h : s.Alike t (.text name)) (props : Entries) :
    m.holdsIn (Scene.ofSnapshot s props) name = m.holdsIn (Scene.ofSnapshot t props) name := by
  have hvalue : Entries.at0 s.values name = Entries.at0 t.values name := by
    rw [Entries.at0, Entries.at0, Entries.at?, Entries.at?, h.value]
  have hstanding := h.get?_standings
  simp only [Matcher.holdsIn, Scene.ofSnapshot, hvalue, hstanding]

theorem selectHolds_eq (hclear : r.IsClear) (hrecord : s.record = t.record)
    (h : ∀ n ∈ r.dependencies, s.Alike t (.text n)) (props : Entries) :
    r.selectHolds (Scene.ofSnapshot s props) = r.selectHolds (Scene.ofSnapshot t props) := by
  have heval := evaluateDescriptor_of_clear (List.forall_mem_append.1 hclear).1 hrecord
    (fun n hn => h n (mem_dependencies_selectWhen hn)) props []
  simp only [selectHolds, Scene.ofSnapshot, heval]

theorem isMatched_eq (hclear : r.IsClear) (hrecord : s.record = t.record)
    (h : ∀ n ∈ r.dependencies, s.Alike t (.text n)) (props : Entries) :
    r.isMatched (Scene.ofSnapshot s props) = r.isMatched (Scene.ofSnapshot t props) := by
  have hselect := selectHolds_eq hclear hrecord h props
  unfold isMatched
  cases hwhen : r.when with
  | none => exact hselect
  | field name =>
    cases hname : name.isEmpty with
    | true => simpa [hname] using hselect
    | false =>
      have hholds := holdsIn_eq r.matcher (h name (mem_dependencies_field hwhen hname)) props
      simp only [hname, hholds, hselect]
  | fields matchers =>
    have hall : matchers.all (fun e => e.2.holdsIn (Scene.ofSnapshot s props) e.1) =
        matchers.all fun e => e.2.holdsIn (Scene.ofSnapshot t props) e.1 := by
      rw [Bool.eq_iff_iff, List.all_eq_true, List.all_eq_true]
      refine forall₂_congr fun e he => ?_
      rw [holdsIn_eq e.2 (h e.1 (mem_dependencies_fields hwhen he)) props]
    simp only [hselect, hall]

theorem givenValue_eq (hclear : r.IsClear) (hrecord : s.record = t.record)
    (h : ∀ n ∈ r.dependencies, s.Alike t (.text n)) (props : Entries) :
    r.givenValue (Scene.ofSnapshot s props) = r.givenValue (Scene.ofSnapshot t props) := by
  have heval := evaluateDescriptor_of_clear (List.forall_mem_append.1 hclear).2 hrecord
    (fun n hn => h n (mem_dependencies_selectSet hn)) props []
  simp only [givenValue, Scene.ofSnapshot, heval]

theorem addEffect_eq (hclear : r.IsClear) (hrecord : s.record = t.record)
    (h : ∀ n ∈ r.dependencies, s.Alike t (.text n)) (props : Entries) (sum : Effect) :
    addEffect (Scene.ofSnapshot s props) sum r = addEffect (Scene.ofSnapshot t props) sum r := by
  simp only [addEffect, newValue?, isMatched_eq hclear hrecord h props,
    givenValue_eq hclear hrecord h props]

/-- Clear rules have the same effect in two snapshots that know the same of the fields that the
rules depend on. -/
theorem evaluateAll_eq {rules : List Rule} (hclear : ∀ r ∈ rules, r.IsClear)
    (hrecord : s.record = t.record)
    (h : ∀ n ∈ allDependencies rules, s.Alike t (.text n)) (props : Entries) :
    evaluateAll (Scene.ofSnapshot s props) rules = evaluateAll (Scene.ofSnapshot t props) rules :=
  foldlM_congr (fun r hr sum => addEffect_eq (hclear r hr) hrecord (fun n hn => h n <| by
    rw [allDependencies, Names.mem_ofList]
    exact List.mem_flatMap.2 ⟨r, hr, hn⟩) props sum) {}

/-! ### No code is given -/

theorem scene_codeFree (hs : s.CodeFree) {props : Entries} (hprops : props.CodeFree) (n : String) :
    (Entries.at0 (Scene.ofSnapshot s props).context n).CodeFree :=
  Context.build_codeFree hs.values hs.record hprops hs.standings (List.forall_mem_nil _) n

theorem givenValue_codeFree (hr : r.CodeFree) (hs : s.CodeFree) {props : Entries}
    (hprops : props.CodeFree) :
    (r.givenValue (Scene.ofSnapshot s props)).Gives Value.CodeFree := by
  unfold givenValue
  split
  · next v hv => exact .pure (hr.set v hv)
  · rw [hr.selectSet.isCode]
    exact (evaluateDescriptor_codeFree (scene_codeFree hs hprops) hr.selectSet).bind
      fun v hv => .pure hv.bare

/-- The value in an effect comes from before, or from the rule that gives it. -/
theorem addEffect_gives {P : Value → Prop} {scene : Scene} (hgiven : (r.givenValue scene).Gives P)
    {sum : Effect} (hsum : P sum.setValue) :
    (addEffect scene sum r).Gives fun e => P e.setValue := by
  have hnew : (r.newValue? scene).Gives fun given => ∀ v, given = some v → P v := by
    unfold newValue?
    split
    · exact hgiven.bind fun v hv => .pure fun w hw => Option.some.inj hw ▸ hv
    · exact .pure fun v hv => nomatch hv
  unfold addEffect
  split
  · exact .pure hsum
  · refine Logged.Gives.after fun matched => ?_
    cases matched with
    | false => exact .pure hsum
    | true =>
      refine hnew.bind fun given hgiven => .pure ?_
      cases given with
      | none => exact hsum
      | some v => exact hgiven v rfl

theorem evaluateAll_codeFree {rules : List Rule} (hrules : ∀ r ∈ rules, r.CodeFree)
    (hs : s.CodeFree) {props : Entries} (hprops : props.CodeFree) :
    (evaluateAll (Scene.ofSnapshot s props) rules).Gives fun e => e.setValue.CodeFree :=
  .foldlM (fun r hr _ hsum => addEffect_gives (givenValue_codeFree (hrules r hr) hs hprops) hsum) .null

end Rule

namespace Form

variable {s t : Snapshot}

/-! ### Effects -/

theorem invoke_eq (host : Host) (s : Snapshot) {v : Value} (h : v.CodeFree) :
    invoke host s v = return v := by
  cases h <;> rfl

theorem resolveTriggers_eq (host : Host) (s : Snapshot) {rules : List Rule}
    (h : ∀ r ∈ rules, r.CodeFree) : resolveTriggers host s rules = return rules := by
  induction rules with
  | nil => rfl
  | cons r rules ih =>
    obtain ⟨hr, hrules⟩ := List.forall_mem_cons.1 h
    rw [resolveTriggers, resolveTrigger, hr.selectWhen.isCode, ih hrules]
    rfl

/-- Rules without code have the effect that they have without the host. -/
theorem effectOf_eq (host : Host) {props : Entries} {rules : List Rule}
    (hrules : ∀ r ∈ rules, r.CodeFree) (hs : s.CodeFree) (hprops : props.CodeFree) :
    effectOf host s props rules = Rule.evaluateAll (Scene.ofSnapshot s props) rules := by
  rw [effectOf, resolveTriggers_eq host s hrules, pure_bind]
  calc (do
        let effect ← Rule.evaluateAll (Scene.ofSnapshot s props) rules
        return { effect with setValue := ← invoke host s effect.setValue })
      = (Rule.evaluateAll (Scene.ofSnapshot s props) rules >>= pure) :=
        Logged.bind_congr (Rule.evaluateAll_codeFree hrules hs hprops) fun effect heffect => by
          rw [invoke_eq host s heffect, pure_bind]
    _ = Rule.evaluateAll (Scene.ofSnapshot s props) rules := bind_pure _

/-- Clear rules without code have the same effect in two snapshots that know the same of the fields
that the rules depend on. -/
theorem effectOf_eq_of_alike (host : Host) {props : Entries} {rules : List Rule}
    (hrules : ∀ r ∈ rules, r.CodeFree) (hclear : ∀ r ∈ rules, r.IsClear) (hs : s.CodeFree)
    (ht : t.CodeFree) (hprops : props.CodeFree) (hrecord : s.record = t.record)
    (h : ∀ n ∈ Rule.allDependencies rules, s.Alike t (.text n)) :
    effectOf host s props rules = effectOf host t props rules := by
  rw [effectOf_eq host hrules hs hprops, effectOf_eq host hrules ht hprops,
    Rule.evaluateAll_eq hclear hrecord h props]

end Form

end LiveForm
