import Mathlib
import LiveForm.Proofs.Formula.Contexts
import LiveForm.Proofs.Formula.Reads

/-!
# What descriptors depend on

A descriptor is a value with sources in it, and it is evaluated by evaluating these. A source is
clear if every field that its evaluation looks up is one that it reads; what a clear source is
evaluated to in the context of a snapshot depends on these fields alone (`evaluate_eq_of_clear`).
-/

namespace LiveForm

namespace Value

mutual

/-- The sources in a descriptor. -/
def sources : Value → List String
  | .text source => [source]
  | .list items => sourcesItems items
  | .map entries => sourcesEntries entries
  | _ => []

/-- The sources in the items of a list. -/
def sourcesItems : List Value → List String
  | [] => []
  | v :: rest => v.sources ++ sourcesItems rest

/-- The sources in the values of a map. -/
def sourcesEntries : List (Key × Value) → List String
  | [] => []
  | (_, v) :: rest => v.sources ++ sourcesEntries rest

end

end Value

namespace Formula

open Context (storeNames)

mutual

/-- A descriptor reads what its sources read. -/
theorem readsWithin_eq : ∀ v : Value, readsWithin v = v.sources.flatMap reads
  | .text source => by rw [readsWithin, Value.sources, List.flatMap_singleton]
  | .list items => by rw [readsWithin, Value.sources, readsWithinItems_eq items]
  | .map entries => by rw [readsWithin, Value.sources, readsWithinEntries_eq entries]
  | .null | .bool _ | .number _ | .field _ _ _ | .issue _ _ | .unset | .callback _ | .check _ => rfl

theorem readsWithinItems_eq : ∀ items : List Value,
    readsWithinItems items = (Value.sourcesItems items).flatMap reads
  | [] => rfl
  | v :: rest => by
    rw [readsWithinItems, Value.sourcesItems, List.flatMap_append, readsWithin_eq v,
      readsWithinItems_eq rest]

theorem readsWithinEntries_eq : ∀ entries : List (Key × Value),
    readsWithinEntries entries = (Value.sourcesEntries entries).flatMap reads
  | [] => rfl
  | (_, v) :: rest => by
    rw [readsWithinEntries, Value.sourcesEntries, List.flatMap_append, readsWithin_eq v,
      readsWithinEntries_eq rest]

end

theorem mem_descriptorReads {v : Value} {source n : String} (hsource : source ∈ v.sources)
    (hn : n ∈ reads source) : n ∈ descriptorReads v := by
  rw [descriptorReads, Names.mem_ofList, readsWithin_eq]
  exact List.mem_flatMap.2 ⟨source, hsource, hn⟩

mutual

/-- What a descriptor is evaluated to depends on what its sources are evaluated to. -/
theorem evaluateDescriptor_congr {c d : Context} : ∀ {v : Value},
    (∀ source ∈ v.sources, evaluate source c = evaluate source d) →
      evaluateDescriptor c v = evaluateDescriptor d v
  | .text source, h => by
    rw [evaluateDescriptor, evaluateDescriptor, h source List.mem_cons_self]
  | .list items, h => by
    rw [Value.sources] at h
    rw [evaluateDescriptor, evaluateDescriptor, evaluateItems_congr h]
  | .map entries, h => by
    rw [Value.sources] at h
    rw [evaluateDescriptor, evaluateDescriptor, evaluateEntries_congr h]
  | .null, _ | .bool _, _ | .number _, _ | .field _ _ _, _ | .issue _ _, _ | .unset, _
  | .callback _, _ | .check _, _ => by
    rw [evaluateDescriptor, evaluateDescriptor] <;> simp

theorem evaluateItems_congr {c d : Context} : ∀ {items : List Value},
    (∀ source ∈ Value.sourcesItems items, evaluate source c = evaluate source d) →
      evaluateItems c items = evaluateItems d items
  | [], _ => by rw [evaluateItems, evaluateItems]
  | v :: rest, h => by
    obtain ⟨hv, hrest⟩ := List.forall_mem_append.1 h
    rw [evaluateItems, evaluateItems, evaluateDescriptor_congr hv, evaluateItems_congr hrest]

theorem evaluateEntries_congr {c d : Context} : ∀ {entries : List (Key × Value)},
    (∀ source ∈ Value.sourcesEntries entries, evaluate source c = evaluate source d) →
      evaluateEntries c entries = evaluateEntries d entries
  | [], _ => by rw [evaluateEntries, evaluateEntries]
  | (k, v) :: rest, h => by
    obtain ⟨hv, hrest⟩ := List.forall_mem_append.1 h
    rw [evaluateEntries, evaluateEntries, evaluateDescriptor_congr hv, evaluateEntries_congr hrest]

end

/-! ### Clear sources -/

/-- If the source is a formula, its names, which are words of the source, have no dollar sign at
their edges, and they are neither reserved nor among the context's names for the store. -/
def IsClear (source : String) : Prop :=
  ∀ e, parse source = .ok e → ∀ n ∈ e.names,
    PlainEdges n ∧ n ∉ storeNames ∧ n ∉ reservedNames

theorem isClear_of_parse {source : String} {e : Expr} (hparse : parse source = .ok e)
    (h : ∀ n ∈ e.names, PlainEdges n ∧ n ∉ storeNames ∧ n ∉ reservedNames) :
    IsClear source :=
  fun _ he => Except.ok.inj (hparse.symm.trans he) ▸ h

/-- What a clear source is evaluated to depends on the fields that it reads, beside the names that
the context has of its own. -/
theorem evaluate_eq_of_clear {source : String} (h : IsClear source) {c d : Context}
    (hagree : ∀ n, n ∉ storeNames → (n ∉ qualifiedNames → n ∈ reads source) →
      Entries.at0 c n = Entries.at0 d n) : evaluate source c = evaluate source d := by
  cases hparse : parse source with
  | error e => simp only [evaluate, hparse, answer]
  | ok e =>
    refine evaluate_congr hparse fun n hn => ?_
    obtain ⟨hedges, hstore, hreserved⟩ := h e hparse n hn
    refine hagree n hstore fun hown => mem_reads hparse hn hedges (fun hkey => ?_) hown
    obtain ⟨-, -, -, -, -, -, -, hname, -⟩ := exists_word_of_mem_names hparse hn
    exact hreserved (mem_reservedNames hkey hname)

/-- In the contexts of two snapshots a descriptor of clear sources is evaluated alike, if they know
the same of the fields that it reads. -/
theorem evaluateDescriptor_of_clear {v : Value} (hclear : ∀ source ∈ v.sources, IsClear source)
    {s t : Snapshot} (hrecord : s.record = t.record)
    (h : ∀ n ∈ descriptorReads v, s.Alike t (.text n)) (props defaults : Entries) :
    evaluateDescriptor (Context.build s.values s.record props s.standings defaults) v =
      evaluateDescriptor (Context.build t.values t.record props t.standings defaults) v :=
  evaluateDescriptor_congr fun source hsource =>
    evaluate_eq_of_clear (hclear source hsource) fun _ hstore hreads =>
      Context.build_agree hstore hrecord
        (fun hown => h _ (mem_descriptorReads hsource (hreads hown))) props defaults

theorem evaluateDescriptor_ofField {v : Value} (hclear : ∀ source ∈ v.sources, IsClear source)
    {s t : Snapshot} (hrecord : s.record = t.record) (hdefaults : s.defaults = t.defaults)
    (h : ∀ n ∈ descriptorReads v, s.Alike t (.text n)) (name : FieldName) (props : Entries) :
    evaluateDescriptor (Context.ofField s name props) v =
      evaluateDescriptor (Context.ofField t name props) v := by
  rw [Context.ofField, Context.ofField, Context.ofSnapshot, Context.ofSnapshot, hdefaults]
  exact evaluateDescriptor_of_clear hclear hrecord h _ _

end Formula

end LiveForm
