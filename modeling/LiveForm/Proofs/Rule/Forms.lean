import Mathlib
import LiveForm.Proofs.Formula.Contexts
import LiveForm.Proofs.Formula.Spelling
import LiveForm.Proofs.Formula.Wrapping
import LiveForm.Rule.Effect

/-!
# Three forms of one trigger

That a rule is triggered by one field can be said in three forms: `when` with the field's name and
the matchers beside it, `when` with a map from the name to the matchers, and `selectWhen` with the
name as a formula and the matchers beside it. They agree (`trigger_forms_agree`), the third as long
as the matchers look at the value alone and the formula shows the field's value.

The first two check the value as it is stored, the third a value that a formula has computed, which
is stripped of its wrappings. Neither truth nor equality can tell these apart (`truthy_stripped`,
`stripped_strictEq`).
-/

namespace LiveForm

/-! ### Stripped values -/

namespace Value

theorem strippedItems_isEmpty (items : List Value) :
    (strippedItems items).isEmpty = items.isEmpty := by
  cases items <;> rfl

theorem strippedEntries_length (entries : List (Key × Value)) :
    (strippedEntries entries).length = entries.length := by
  induction entries with
  | nil => rfl
  | cons e rest ih => rw [strippedEntries, List.length_cons, List.length_cons, ih]

theorem truthy_stripped : ∀ v : Value, v.stripped.truthy = v.truthy
  | .field value marks error => by
    rw [stripped, truthy_stripped value, ← truthy_bare, ← truthy_bare (field value marks error),
      bare_field]
  | .list items => by
    show (!(strippedItems items).isEmpty) = !items.isEmpty
    rw [strippedItems_isEmpty]
  | .map entries => by
    show (!(strippedEntries entries).isEmpty) = !entries.isEmpty
    cases entries <;> rfl
  | .null | .bool _ | .number _ | .text _ | .issue _ _ | .unset | .callback _ | .check _ => rfl

mutual

theorem stripped_strictEq : ∀ v w : Value, v.stripped.strictEq w = v.strictEq w
  | .field value marks error, w => by rw [stripped, strictEq, stripped_strictEq value w]
  | .list items, w => by
    rw [stripped, strictEq, strictEq]
    cases w.bare with
    | list others => exact strippedItems_strictEq items others
    | _ => rfl
  | .map entries, w => by
    rw [stripped, strictEq, strictEq]
    cases w.bare with
    | map others =>
      simp only [strippedEntries_length, strippedEntries_strictEq entries others]
    | _ => rfl
  | .null, _ | .bool _, _ | .number _, _ | .text _, _ | .issue _ _, _ | .unset, _ | .callback _, _
  | .check _, _ => rfl

theorem strippedItems_strictEq : ∀ items others : List Value,
    strictEqItems (strippedItems items) others = strictEqItems items others
  | [], _ => rfl
  | v :: items, [] => rfl
  | v :: items, w :: others => by
    rw [strippedItems, strictEqItems, strictEqItems, stripped_strictEq v w,
      strippedItems_strictEq items others]

theorem strippedEntries_strictEq : ∀ (entries : List (Key × Value)) (others : Entries),
    strictEqEntries (strippedEntries entries) others = strictEqEntries entries others
  | [], _ => rfl
  | (k, v) :: rest, others => by
    rw [strippedEntries, strictEqEntries, strictEqEntries]
    cases Table.get? k others with
    | some w => simp only [stripped_strictEq v w, strippedEntries_strictEq rest others]
    | none => rfl

end

end Value

/-! ### Names as formulas -/

namespace Formula

/-- A name on its own is read as the name. -/
theorem parse_name {f : String} (hname : IsName f) (hword : wordLexeme f = .name f) :
    parse f = .ok (.name f) := by
  have hspells : List.Forall₂ Spells [Lexeme.name f] [f] := .cons (hword ▸ .word hname) .nil
  exact (Printable.name hname hword).parse_row hspells

/-- A name has the value of what the context shows under it, without wrappings. -/
theorem evaluate_name {f : String} (hname : IsName f) (hword : wordLexeme f = .name f)
    (ctx : Context) : evaluate f ctx = return (Entries.at0 ctx f).stripped := by
  rw [evaluate, parse_name hname hword]
  rfl

end Formula

/-! ### What a scene shows -/

namespace Scene

variable {values record props : Value} {standings : Table Key Standing} {scene : Scene}

/-- A scene has its standings as they are given, and a context of its values. -/
theorem ofValues_build (h : ofValues values record props standings = .ok scene) :
    scene.standings = standings ∧ ∃ (record props defaults : Entries),
      scene.context = Context.build scene.values record props standings defaults := by
  simp only [ofValues, Context.ofValues] at h
  cases hvalues : Context.fieldValues values standings with
  | error e =>
    rw [hvalues] at h
    exact nomatch h
  | ok shown =>
    rw [hvalues] at h
    cases hrecord : record.toEntriesOrNone with
    | error e =>
      rw [hrecord] at h
      exact nomatch h
    | ok shownRecord =>
      cases hprops : props.toEntriesOrNone with
      | error e =>
        rw [hrecord, hprops] at h
        exact nomatch h
      | ok shownProps =>
        rw [hrecord, hprops] at h
        obtain rfl := Except.ok.inj h
        exact ⟨rfl, shownRecord, shownProps, _, rfl⟩

/-- The context of a scene shows a field's value as it is stored, if there is one or nothing is
known of the field. -/
theorem ofValues_bare (h : ofValues values record props standings = .ok scene) {f : String}
    (hf : f ∉ qualifiedNames)
    (hknown : (Table.get? (.text f) scene.values).isSome ∨
      Table.get? (.text f) standings = none) :
    (Entries.at0 scene.context f).bare = (Entries.at0 scene.values f).bare := by
  obtain ⟨-, record, props, defaults, hcontext⟩ := ofValues_build h
  have hown : f ∉ Context.storeNames ∧ f ≠ "defaultValues" ∧ f ≠ "props" ∧ f ≠ "record" := by
    simp only [qualifiedNames, Context.storeNames, List.mem_cons, List.not_mem_nil, or_false,
      not_or] at hf ⊢
    tauto
  obtain ⟨hstore, hdefaults, hprops, hrecord⟩ := hown
  rw [hcontext, Entries.at0, Entries.at0, Context.at?_build _ _ _ _ _ _ hstore, if_neg hdefaults,
    if_neg hprops, if_neg hrecord, Context.get?_fields, Entries.at?]
  cases hvalue : Table.get? (Key.text f) scene.values with
  | some v =>
    rw [Option.isSome_some, Bool.true_or, if_pos rfl, Context.standing, hvalue]
    rfl
  | none =>
    have hstanding : Table.get? (.text f) standings = none := by simpa [hvalue] using hknown
    rw [hstanding]
    rfl

end Scene

/-! ### Reading the forms -/

/-- The entries all stand under some of the names. -/
def Entries.Within (names : List String) (m : Entries) : Prop :=
  ∀ e ∈ m, ∃ k ∈ names, e.1 = .text k

namespace Entries

variable {m : Entries} {names : List String}

theorem at?_cons_of_ne {k key : String} (h : k ≠ key) (v : Value) (m : Entries) :
    at? ((Key.text k, v) :: m) key = at? m key := by
  rw [at?, at?, Table.get?, Key.text_beq_text, if_neg (by simpa using h.symm)]

theorem at?_cons_self (key : String) (v : Value) (m : Entries) :
    at? ((Key.text key, v) :: m) key = some v := by
  rw [at?, Table.get?, Key.text_beq_text, if_pos (by simp)]

theorem at0_cons_self (key : String) (v : Value) (m : Entries) :
    at0 ((Key.text key, v) :: m) key = v := by
  rw [at0, at?_cons_self, Option.getD_some]

theorem Within.at?_eq_none (h : m.Within names) {key : String} (hkey : key ∉ names) :
    m.at? key = none := by
  induction m with
  | nil => rfl
  | cons e rest ih =>
    obtain ⟨⟨k, hk, he⟩, hrest⟩ := List.forall_mem_cons.1 h
    obtain ⟨k', v⟩ := e
    obtain rfl : k' = .text k := he
    rw [at?_cons_of_ne (by rintro rfl; exact hkey hk)]
    exact ih hrest

theorem Within.at0_eq_null (h : m.Within names) {key : String} (hkey : key ∉ names) :
    m.at0 key = .null := by
  rw [at0, h.at?_eq_none hkey]
  rfl

theorem at0_cons_of_ne {k key : String} (h : k ≠ key) (v : Value) (m : Entries) :
    at0 ((Key.text k, v) :: m) key = at0 m key := by
  rw [at0, at0, at?_cons_of_ne h]

end Entries

namespace Rule

variable {m : Entries}

/-- An entry under another key says nothing to a matcher. -/
theorem readMatcher_cons {k : String} (hk : k ∉ matcherKeys) (v : Value) (m : Entries) :
    readMatcher (.map ((.text k, v) :: m)) = readMatcher (.map m) := by
  simp only [matcherKeys, List.mem_cons, List.not_mem_nil, or_false, not_or] at hk
  obtain ⟨his, htruthy, hisTruthy, hvalid, hdisabled⟩ := hk
  simp only [readMatcher, given?, flagAt, List.findSome?_cons, List.findSome?_nil,
    Entries.at?_cons_of_ne his, Entries.at0_cons_of_ne htruthy, Entries.at0_cons_of_ne hisTruthy,
    Entries.at0_cons_of_ne hvalid, Entries.at0_cons_of_ne hdisabled]

theorem isRuleKey_text {k : String} (hk : k ∈ ruleKeys) : isRuleKey (.text k) = true :=
  List.contains_iff_mem.2 hk

/-- A rule that has only a trigger and matchers. -/
theorem ofValue_within {es : Entries} (hes : es.Within ("when" :: "selectWhen" :: matcherKeys))
    {whenOf : When} (hwhen : readWhen (es.at0 "when") = .ok whenOf) :
    ofValue (.map es) = .ok
      { when := whenOf, selectWhen := es.at0 "selectWhen", matcher := readMatcher (.map es) } := by
  have hunknown : (Table.keys es).filter (fun k => !isRuleKey k) = [] := by
    refine List.filter_eq_nil_iff.2 fun key hkey => ?_
    obtain ⟨e, he, rfl⟩ := List.mem_map.1 hkey
    obtain ⟨k, hk, hek⟩ := hes e he
    have hrule : k ∈ ruleKeys := by
      simp only [matcherKeys, ruleKeys, List.mem_cons, List.mem_append, List.not_mem_nil,
        or_false] at hk ⊢
      tauto
    simp [hek, isRuleKey_text hrule]
  have hdisabled : es.at0 "disabled" = .null := hes.at0_eq_null (by decide)
  have hvisible : es.at0 "visible" = .null := hes.at0_eq_null (by decide)
  have hset : es.at? "set" = none := hes.at?_eq_none (by decide)
  have hselectSet : es.at0 "selectSet" = .null := hes.at0_eq_null (by decide)
  have hsubscribes : es.at0 "subscribesTo" = .null := hes.at0_eq_null (by decide)
  simp only [ofValue, hunknown, hwhen, flagAt, List.findSome?_cons, List.findSome?_nil, given?,
    hdisabled, hvisible, hset, hselectSet, hsubscribes]
  rfl

/-- Matchers beside a trigger that is said under one key. -/
theorem ofValue_cons {k : String} (hk : k ∈ ["when", "selectWhen"]) (v : Value)
    (hm : m.Within matcherKeys) {whenOf : When}
    (hwhen : readWhen (Entries.at0 ((.text k, v) :: m) "when") = .ok whenOf) :
    ofValue (.map ((.text k, v) :: m)) = .ok
      { when := whenOf
        selectWhen := Entries.at0 ((.text k, v) :: m) "selectWhen"
        matcher := readMatcher (.map m) } := by
  have hes : Entries.Within ("when" :: "selectWhen" :: matcherKeys) ((.text k, v) :: m) := by
    refine List.forall_mem_cons.2 ⟨⟨k, ?_, rfl⟩, fun e he => ?_⟩
    · exact List.mem_append_left matcherKeys hk
    · obtain ⟨key, hkey, hekey⟩ := hm e he
      exact ⟨key, List.mem_append_right ["when", "selectWhen"] hkey, hekey⟩
  have hplain : k ∉ matcherKeys := by
    simp only [List.mem_cons, List.not_mem_nil, or_false] at hk
    rcases hk with rfl | rfl <;> decide
  rw [ofValue_within hes hwhen, readMatcher_cons hplain]

/-- Matchers beside the name of a field. -/
theorem ofValue_field (f : String) (hm : m.Within matcherKeys) :
    ofValue (.map ((.text "when", .text f) :: m)) =
      .ok { when := .field f, matcher := readMatcher (.map m) } := by
  have hselect : Entries.at0 ((.text "when", .text f) :: m) "selectWhen" = .null := by
    rw [Entries.at0_cons_of_ne (by decide)]
    exact hm.at0_eq_null (by decide)
  have hwhen : readWhen (Entries.at0 ((.text "when", .text f) :: m) "when") = .ok (.field f) := by
    rw [Entries.at0_cons_self]
    rfl
  rw [ofValue_cons (by decide) (.text f) hm hwhen, hselect]

/-- Matchers in a map from the name of a field. -/
theorem ofValue_fields (f : String) (m : Entries) :
    ofValue (.map [(.text "when", .map [(.text f, .map m)])]) =
      .ok { when := .fields [(f, readMatcher (.map m))] } :=
  ofValue_cons (m := []) (by decide) _ (List.forall_mem_nil _) rfl

/-- Matchers beside a formula. -/
theorem ofValue_formula (f : String) (hm : m.Within matcherKeys) :
    ofValue (.map ((.text "selectWhen", .text f) :: m)) =
      .ok { selectWhen := .text f, matcher := readMatcher (.map m) } := by
  have hwhen : readWhen (Entries.at0 ((.text "selectWhen", .text f) :: m) "when") = .ok .none := by
    rw [Entries.at0_cons_of_ne (by decide), hm.at0_eq_null (by decide)]
    rfl
  rw [ofValue_cons (by decide) (.text f) hm hwhen, Entries.at0_cons_self]

/-- Matchers that look at the value alone ask nothing of the field's standing. -/
theorem readMatcher_valid (hm : m.Within ["is", "truthy", "isTruthy"]) :
    (readMatcher (.map m)).valid = none ∧ (readMatcher (.map m)).disabled = none := by
  have hvalid : m.at0 "isValid" = .null := hm.at0_eq_null (by decide)
  have hdisabled : m.at0 "isDisabled" = .null := hm.at0_eq_null (by decide)
  simp only [readMatcher, flagAt, List.findSome?_cons, List.findSome?_nil, hvalid, hdisabled,
    and_self]

end Rule

/-! ### Checking the value -/

namespace Matcher

theorem holdsOfValue_stripped (m : Matcher) (v : Value) :
    m.holdsOfValue v.stripped = m.holdsOfValue v := by
  simp only [holdsOfValue, Value.stripped_strictEq, Value.truthy_stripped]

end Matcher

namespace Rule

open Formula

/-- The checks that a computed trigger must pass are those on the field. -/
theorem triggerHolds_stripped {r : Rule} (hvalid : r.matcher.valid = none)
    (hdisabled : r.matcher.disabled = none) (v : Value) (standing : Option Standing) :
    r.triggerHolds v.stripped = r.matcher.holds v standing := by
  rw [triggerHolds, Matcher.holds, Matcher.isEmpty, hvalid, hdisabled, Value.truthy_stripped,
    Matcher.holdsOfValue_stripped]
  simp only [Option.isNone_none, Bool.and_true, Option.all_none]

/-- **Three forms of one trigger.** The name of a field with matchers beside it, a map from the name
to the matchers, and the name as a formula with matchers beside it that look at the value alone. -/
theorem trigger_forms_agree {values record props : Value} {standings : Table Key Standing}
    {scene : Scene} (hscene : Scene.ofValues values record props standings = .ok scene)
    (f : String) {m : Entries} (hm : m.Within matcherKeys) :
    ∃ (byName byMap byFormula : Rule) (b : Bool),
      ofValue (.map ((.text "when", .text f) :: m)) = .ok byName ∧
      ofValue (.map [(.text "when", .map [(.text f, .map m)])]) = .ok byMap ∧
      ofValue (.map ((.text "selectWhen", .text f) :: m)) = .ok byFormula ∧
      byMap.isMatched scene = pure b ∧
      (f ≠ "" → byName.isMatched scene = pure b) ∧
      (m.Within ["is", "truthy", "isTruthy"] → IsName f → wordLexeme f = .name f →
        f ∉ qualifiedNames →
        ((Table.get? (.text f) scene.values).isSome ∨ Table.get? (.text f) standings = none) →
        byFormula.isMatched scene = pure b) := by
  let matcher := readMatcher (.map m)
  refine ⟨_, _, _, matcher.holdsIn scene f, ofValue_field f hm, ofValue_fields f m,
    ofValue_formula f hm, ?_, fun hf => ?_, fun honly hname hword hown hknown => ?_⟩
  · simp only [isMatched, List.isEmpty_cons, Bool.false_eq_true, if_false, List.all_cons,
      List.all_nil, Bool.and_true, matcher]
  · have hempty : f.isEmpty = false := by simpa using hf
    simp only [isMatched, hempty, Bool.false_eq_true, if_false, matcher]
  · obtain ⟨hvalid, hdisabled⟩ := readMatcher_valid honly
    have hbare := Scene.ofValues_bare hscene hown hknown
    have hstripped : (Entries.at0 scene.context f).stripped =
        (Entries.at0 scene.values f).stripped := by
      rw [← Value.stripped_bare, hbare, Value.stripped_bare]
    show selectHolds _ scene = _
    rw [selectHolds, if_neg (by simp [Value.isNull, Value.isCode]), evaluateDescriptor,
      evaluate_name hname hword, pure_bind, hstripped]
    exact congrArg pure (triggerHolds_stripped hvalid hdisabled _ _)

/-- A field that holds a wrapped text in a list, and a matcher for that list. -/
theorem trigger_forms_agree_kind :
    ∃ (scene : Scene) (byName byMap byFormula : Rule) (b : Bool),
      Scene.ofValues
        (.map [(.text "kind", .list [.field (.text "new") { touched := true } .null])])
        .null .null [(.text "kind", { value := .text "old" })] = .ok scene ∧
      ofValue (.map [(.text "when", .text "kind"), (.text "is", .list [.text "new"])]) =
        .ok byName ∧
      ofValue (.map [(.text "when", .map
        [(.text "kind", .map [(.text "is", .list [.text "new"])])])]) = .ok byMap ∧
      ofValue (.map [(.text "selectWhen", .text "kind"), (.text "is", .list [.text "new"])]) =
        .ok byFormula ∧
      byName.isMatched scene = pure b ∧ byMap.isMatched scene = pure b ∧
      byFormula.isMatched scene = pure b := by
  obtain ⟨scene, hscene, hvalue⟩ : ∃ scene, Scene.ofValues
      (.map [(.text "kind", .list [.field (.text "new") { touched := true } .null])])
      .null .null [(.text "kind", { value := .text "old" })] = .ok scene ∧
      (Table.get? (.text "kind") scene.values).isSome = true := ⟨_, rfl, rfl⟩
  have honly : Entries.Within ["is", "truthy", "isTruthy"]
      [(.text "is", .list [.text "new"])] := by
    simp [Entries.Within]
  have hm : Entries.Within matcherKeys [(.text "is", .list [.text "new"])] := by
    simp [Entries.Within, matcherKeys]
  have hname : IsName "kind" := ⟨'k', ['i', 'n', 'd'], rfl, by decide, by simp; decide⟩
  obtain ⟨byName, byMap, byFormula, b, hbyName, hbyMap, hbyFormula, hmap, hfield, hformula⟩ :=
    trigger_forms_agree hscene "kind" hm
  exact ⟨scene, byName, byMap, byFormula, b, hscene, hbyName, hbyMap, hbyFormula,
    hfield (by decide), hmap, hformula honly hname rfl (by decide) (.inl hvalue)⟩

end Rule

end LiveForm
