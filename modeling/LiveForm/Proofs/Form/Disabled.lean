import Mathlib
import LiveForm.Proofs.Form.Wiring

/-!
# Who is disabled

It is taken down in one pass over the fields who is disabled, and throughout that pass conditions
that ask whether a field is disabled are answered by what has been taken down before. So what is
taken down is true of the form as it would be with the old marks (`disabled_one_pass_behind`), and
it is true of the form as it is for each field that reads no mark that the pass has changed. Behind
a mark that the pass has changed it can be false (`Lock`).
-/

namespace LiveForm

namespace Form

variable {host : Host} {f f' : Form} {log log' : Log}

/-- The form as it would be with other marks. -/
def marking (f : Form) (disabled : FieldNames) : Form :=
  { f with store := { f.store with disabled } }

/-- The disabled ones among some fields are those that are disabled. -/
theorem mem_disabledAmong (hf : f.CodeFree) {names : List FieldName} {disabled : FieldNames}
    (h : (disabledAmong host f names log).1 = .ok disabled) (x : FieldName) :
    x ∈ disabled ↔ x ∈ names ∧ (isDisabled host f x).runNew.1 = .ok true := by
  induction names generalizing log disabled with
  | nil =>
    obtain rfl := Except.ok.inj h
    simp
  | cons name rest ih =>
    rw [disabledAmong] at h
    obtain ⟨marked, hmarked, log₁, h⟩ := Logged.bind_ok h
    obtain ⟨others, hothers, log₂, h⟩ := Logged.bind_ok h
    rw [isDisabled_steady host hf name log] at hmarked
    have ih := ih hothers
    have hdisabled : disabled = if marked then name :: others else others :=
      (Except.ok.inj h).symm
    subst hdisabled
    cases marked with
    | true =>
      rw [if_pos rfl, List.mem_cons, List.mem_cons, ih]
      constructor
      · rintro (rfl | ⟨hx, htrue⟩)
        · exact ⟨.inl rfl, hmarked⟩
        · exact ⟨.inr hx, htrue⟩
      · rintro ⟨rfl | hx, htrue⟩
        · exact .inl rfl
        · exact .inr ⟨hx, htrue⟩
    | false =>
      rw [if_neg Bool.false_ne_true, List.mem_cons, ih]
      refine ⟨fun ⟨hx, htrue⟩ => ⟨.inr hx, htrue⟩, ?_⟩
      rintro ⟨rfl | hx, htrue⟩
      · exact nomatch hmarked.symm.trans htrue
      · exact ⟨hx, htrue⟩

/-- Who is taken down as disabled is disabled by the old marks. -/
theorem mem_refreshed (hf : f.CodeFree)
    (h : (refreshDisabled host).runOn f log = (.ok (), f', log')) (x : FieldName) :
    x ∈ f'.store.disabled ↔
      f'.IsField x ∧ (isDisabled host (f'.marking f.store.disabled) x).runNew.1 = .ok true := by
  obtain ⟨disabled, hfound, rfl⟩ := refreshDisabled_returned h
  have hmem := mem_disabledAmong hf hfound x
  rw [mem_fieldNames] at hmem
  exact hmem

/-- Other marks do not matter to a field that reads none that is different. -/
theorem isDisabled_marking (hf : f.CodeFree) {x : FieldName} (hclear : f.ConditionsClear x)
    {disabled : FieldNames}
    (h : ∀ n, f.ConditionsRead x n → (.text n ∈ disabled ↔ .text n ∈ f.store.disabled)) :
    isDisabled host (f.marking disabled) x = isDisabled host f x := by
  have hsame : SameReads f (f.marking disabled) x :=
    ⟨rfl, rfl, fun n hn => Store.disable_alike f.store (h n hn)⟩
  exact (isDisabled_eq host hsame hclear hf
    ⟨hf.definition, hf.store.disable disabled⟩).symm

/-! ### A form in which one field locks the next -/

namespace Lock

/-- The field `b` is disabled while `a` holds. -/
def second : Field where
  name := .text "b"
  conditions := [{ when := .field "a", disabled := some true }]

/-- The field `c` is disabled while `b` is. -/
def third : Field where
  name := .text "c"
  conditions := [{
    when := .field "b", matcher := { disabled := some true }, disabled := some true }]

def definition : Definition where
  name := .text "lock"
  fields := [(.text "a", { name := .text "a" }), (.text "b", second), (.text "c", third)]

def store : Store where
  values := [(.text "a", .null), (.text "b", .null), (.text "c", .null)]
  defaults := [(.text "a", .null), (.text "b", .null), (.text "c", .null)]
  messages := Validation.messagesWith []

/-- The form with nothing mounted. -/
def start : Form where
  definition := definition
  registry := {}
  settings := {}
  store := store
  debounce := .int 1000
  clock := none

def graph : Graph where
  subscribers := [(.text "a", [.text "b"]), (.text "b", [.text "c"])]
  subscriptions := [(.text "b", [.text "a"]), (.text "c", [.text "b"])]
  registered := [.text "a", .text "b", .text "c"]

/-- The new form. -/
def opened : Form :=
  { start with graph }

/-- The form in which `a` has been set. -/
def shut : Form :=
  { opened with
    store :=
      { store with
        values := [(.text "a", .bool true), (.text "b", .null), (.text "c", .null)]
        touched := [.text "a"]
        dirty := [.text "a"]
        disabled := [.text "b"] } }

theorem blank_start : Form.blank definition {} {} .null .null none = .ok start := by
  have hstore : Store.ofDefinition definition .null .null = .ok store := by cbv
  unfold Form.blank
  rw [hstore]
  rfl

theorem start_codeFree : start.CodeFree where
  definition := by
    constructor <;>
      simp [start, definition, second, third, Entries.CodeFree, Value.CodeFree.null,
        Rule.CodeFree.of_plain]
  store := by
    constructor <;> simp [start, store, Entries.CodeFree, Value.CodeFree.null]

theorem shut_made : Made Billing.host [] shut := by
  have hsetUp : (setUp Billing.host).runOn start [] = (.ok (), opened, []) := rfl
  have hchange : (changeField Billing.host (.text "a") (.bool true)).runOn opened [] =
      (.ok (), shut, []) := by cbv
  exact .change (.new blank_start start_codeFree hsetUp) (.bool true) hchange

theorem field_second : shut.field (.text "b") = .ok second := rfl

theorem second_clear : shut.ConditionsClear (.text "b") :=
  .of_ungrouped field_second rfl (List.forall_mem_singleton.2 (.of_plain rfl rfl))

theorem second_reads {n : String} (h : shut.ConditionsRead (.text "b") n) : n = "a" :=
  List.mem_singleton.1 (h.own field_second rfl)

theorem graph_acyclic : graph.Acyclic :=
  Graph.acyclic_of_rank
    (fun n => if n = .text "a" then 0 else if n = .text "b" then 1 else 2) (by decide)

end Lock

/-- **What is taken down about who is disabled is one pass behind.** In a form that has been set up
and changed, exactly the fields that are disabled by the marks before the last pass are marked. So a
field is marked exactly if it is disabled, provided that its conditions are clear and read no mark
that the last pass has changed. -/
theorem disabled_one_pass_behind {old : FieldNames} (h : Made host old f) (x : FieldName) :
    (x ∈ f.store.disabled ↔
        f.IsField x ∧ (isDisabled host (f.marking old) x).runNew.1 = .ok true) ∧
      (f.ConditionsClear x →
        (∀ n, f.ConditionsRead x n → (.text n ∈ old ↔ .text n ∈ f.store.disabled)) →
          (x ∈ f.store.disabled ↔ f.IsField x ∧ (isDisabled host f x).runNew.1 = .ok true)) := by
  obtain ⟨f₁, log₁, log', -, hcode, rfl, hrefresh⟩ := h.refreshed
  have hmarked := mem_refreshed hcode hrefresh x
  refine ⟨hmarked, fun hclear hreads => ?_⟩
  rw [hmarked, isDisabled_marking h.kept.2 hclear hreads]

/-- The mark of `b`, which reads no mark that has changed, is right. -/
theorem disabled_one_pass_behind_lock :
    Made Billing.host [] Lock.shut ∧ Lock.shut.ConditionsClear (.text "b") ∧
      (∀ n, Lock.shut.ConditionsRead (.text "b") n →
        (.text n ∈ ([] : FieldNames) ↔ .text n ∈ Lock.shut.store.disabled)) ∧
      (.text "b" ∈ Lock.shut.store.disabled ↔ Lock.shut.IsField (.text "b") ∧
        (isDisabled Billing.host Lock.shut (.text "b")).runNew.1 = .ok true) := by
  have hreads : ∀ n, Lock.shut.ConditionsRead (.text "b") n →
      (.text n ∈ ([] : FieldNames) ↔ .text n ∈ Lock.shut.store.disabled) := by
    intro n hn
    obtain rfl := Lock.second_reads hn
    decide
  exact ⟨Lock.shut_made, Lock.second_clear, hreads,
    (disabled_one_pass_behind Lock.shut_made (.text "b")).2 Lock.second_clear hreads⟩

/-- Though nobody depends on itself, `c` is not marked when `b` comes to be disabled, but it is
disabled. -/
theorem not_disabled_exact : ¬∀ (host : Host) (old : FieldNames) (f : Form), Made host old f →
    f.graph.Acyclic → ∀ x, x ∈ f.store.disabled ↔
      f.IsField x ∧ (isDisabled host f x).runNew.1 = .ok true := by
  intro h
  have hdisabled : (isDisabled Billing.host Lock.shut (.text "c")).runNew.1 = .ok true := rfl
  have hmarked := (h Billing.host [] Lock.shut Lock.shut_made Lock.graph_acyclic (.text "c")).2
    ⟨rfl, hdisabled⟩
  exact absurd hmarked (by decide)

end Form

end LiveForm
