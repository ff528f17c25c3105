import Mathlib
import LiveForm.Formula.Context
import LiveForm.Proofs.Formula.Names
import LiveForm.Proofs.Value.Code

/-!
# What a context holds

Under a name that is none of its own a context shows a field, and what it shows of the field is told
by the snapshot's entries about that field alone (`Context.build_agree`). A context of things
without code is free of code.
-/

namespace LiveForm

/-- Two snapshots know the same of what stands under a key. -/
structure Snapshot.Alike (s t : Snapshot) (k : Key) : Prop where
  value : Table.get? k s.values = Table.get? k t.values
  error : Table.get? k s.errors = Table.get? k t.errors
  touched : s.touched.contains ⟨k⟩ = t.touched.contains ⟨k⟩
  dirty : s.dirty.contains ⟨k⟩ = t.dirty.contains ⟨k⟩
  validating : s.validating.contains ⟨k⟩ = t.validating.contains ⟨k⟩
  disabled : s.disabled.contains ⟨k⟩ = t.disabled.contains ⟨k⟩

/-- No code of the host stands in the snapshot. -/
structure Snapshot.CodeFree (s : Snapshot) : Prop where
  values : Entries.CodeFree s.values
  defaults : Entries.CodeFree s.defaults
  record : Entries.CodeFree s.record
  errors : Entries.CodeFree s.errors

/-- No code of the host stands in the standing of a field. -/
def Standing.CodeFree (s : Standing) : Prop :=
  s.value.CodeFree ∧ s.error.CodeFree

theorem Entries.CodeFree.get? {es : Entries} (h : es.CodeFree) (k : Key) :
    ((Table.get? k es).getD .null).CodeFree := by
  refine Value.CodeFree.getD _ fun v hv => ?_
  obtain ⟨k', hk'⟩ := Table.exists_mem_of_get? hv
  exact h _ hk'

/-! ### Standings -/

theorem any_key_eq_contains (a : String) (names : FieldNames) :
    (names.map FieldName.key).any (· == .text a) = names.contains ⟨.text a⟩ := by
  rw [Bool.eq_iff_iff, List.any_map, List.any_eq_true, List.contains_iff_mem]
  constructor
  · rintro ⟨n, hn, hkey⟩
    obtain rfl : n = ⟨.text a⟩ := congrArg FieldName.mk (Key.eq_text hkey)
    exact hn
  · intro hn
    exact ⟨_, hn, by simp [Key.same, BEq.beq]⟩

namespace Snapshot

variable {s t : Snapshot}

/-- A snapshot has a standing of a field that has a value or an error or is disabled. -/
theorem get?_standings (s : Snapshot) (a : String) :
    Table.get? (.text a) s.standings =
      if (Table.get? (.text a) s.values).isSome || (Table.get? (.text a) s.errors).isSome ||
          s.disabled.contains ⟨.text a⟩ then
        some (s.standing (.text a))
      else none := by
  rw [standings, Table.get?_text_ofList_map, List.any_append, List.any_append, Table.any_keys,
    Table.any_keys, any_key_eq_contains]

theorem Alike.standing {k : Key} (h : s.Alike t k) : s.standing k = t.standing k := by
  rw [Snapshot.standing, Snapshot.standing, h.value, h.error, h.touched, h.dirty, h.validating,
    h.disabled]

theorem Alike.get?_standings {a : String} (h : s.Alike t (.text a)) :
    Table.get? (.text a) s.standings = Table.get? (.text a) t.standings := by
  rw [Snapshot.get?_standings, Snapshot.get?_standings, h.standing, h.value, h.error, h.disabled]

theorem CodeFree.standings (h : s.CodeFree) : ∀ e ∈ s.standings, e.2.CodeFree := by
  refine Table.forall_ofList (P := Standing.CodeFree) fun e he => ?_
  obtain ⟨k, -, rfl⟩ := List.mem_map.1 he
  exact ⟨h.values.get? k, h.errors.get? k⟩

end Snapshot

/-! ### Contexts -/

namespace Context

/-- The names of the context that tell of the store beside the record and the defaults. -/
def storeNames : List String :=
  ["fields", "errors", "touchedFields", "dirtyFields"]

theorem get?_fields (values : Entries) (standings : Table Key Standing) (a : String) :
    Table.get? (.text a) (fields values standings) =
      if (Table.get? (.text a) values).isSome || (Table.get? (.text a) standings).isSome then
        some (standing values standings (.text a))
      else none := by
  rw [fields, Table.get?_text_ofList_map, List.any_append, Table.any_keys, Table.any_keys]

/-- What a context holds under a name: one of its own seven things, or a field. -/
theorem at?_build (values record props : Entries) (standings : Table Key Standing)
    (defaults : Entries) (n : String) (hn : n ∉ storeNames) :
    Entries.at? (build values record props standings defaults) n =
      if n = "defaultValues" then some (.map defaults)
      else if n = "props" then some (.map props)
      else if n = "record" then some (.map record)
      else (Table.get? (.text n) (fields values standings)).map Standing.toValue := by
  simp only [storeNames, List.mem_cons, List.not_mem_nil, or_false, not_or] at hn
  obtain ⟨hfields, herrors, htouched, hdirty⟩ := hn
  rw [Entries.at?, build]
  simp only [Table.putAll, List.foldl_cons, List.foldl_nil, Table.get?_text_put,
    Key.text_beq_text, hfields, herrors, htouched, hdirty, decide_false, Bool.false_eq_true,
    if_false, decide_eq_true_eq, Table.get?_map]

/-- Contexts of alike snapshots hold the same under a name. -/
theorem build_agree {s t : Snapshot} {n : String} (hn : n ∉ storeNames)
    (hrecord : s.record = t.record) (h : n ∉ qualifiedNames → s.Alike t (.text n))
    (props defaults : Entries) :
    Entries.at0 (build s.values s.record props s.standings defaults) n =
      Entries.at0 (build t.values t.record props t.standings defaults) n := by
  rw [Entries.at0, Entries.at0, at?_build _ _ _ _ _ _ hn, at?_build _ _ _ _ _ _ hn, hrecord]
  by_cases hown : n ∈ qualifiedNames
  · have hcases : n = "record" ∨ n = "defaultValues" ∨ n = "props" := by
      simp only [qualifiedNames, storeNames, List.mem_cons, List.not_mem_nil, or_false,
        not_or] at hown hn
      tauto
    rcases hcases with rfl | rfl | rfl <;> rfl
  · have halike := h hown
    rw [get?_fields, get?_fields, halike.get?_standings, halike.value, standing, standing,
      halike.get?_standings, halike.value]

theorem fields_codeFree {values : Entries} {standings : Table Key Standing}
    (hvalues : values.CodeFree) (hstandings : ∀ e ∈ standings, e.2.CodeFree) :
    ∀ e ∈ fields values standings, e.2.CodeFree := by
  refine Table.forall_ofList (P := Standing.CodeFree) fun e he => ?_
  obtain ⟨k, -, rfl⟩ := List.mem_map.1 he
  have hknown : Standing.CodeFree ((Table.get? k standings).getD {}) := by
    cases hk : Table.get? k standings with
    | none => exact ⟨.null, .null⟩
    | some known =>
      obtain ⟨k', hk'⟩ := Table.exists_mem_of_get? hk
      exact hstandings _ hk'
  refine ⟨?_, hknown.2⟩
  have hvalue := hvalues.get? k
  dsimp only [standing]
  cases hk : Table.get? k values with
  | none => exact hknown.1
  | some v => simpa [hk] using hvalue

/-- A context of things without code is free of code. -/
theorem build_codeFree {values record props defaults : Entries} {standings : Table Key Standing}
    (hvalues : values.CodeFree) (hrecord : record.CodeFree) (hprops : props.CodeFree)
    (hstandings : ∀ e ∈ standings, e.2.CodeFree) (hdefaults : defaults.CodeFree) (n : String) :
    (Entries.at0 (build values record props standings defaults) n).CodeFree := by
  have hshown := fields_codeFree hvalues hstandings
  have hwrapped : Entries.CodeFree
      ((fields values standings).map fun e => (e.1, e.2.toValue)) := by
    intro e' he'
    obtain ⟨e, he, rfl⟩ := List.mem_map.1 he'
    exact .field (hshown e he).1 (hshown e he).2
  have hmarked (p : Standing → Bool) : Value.CodeFree
      (.map (((fields values standings).filter fun e => p e.2).map fun e =>
        (e.1, .bool true))) := by
    refine .map fun e he => ?_
    obtain ⟨e, -, rfl⟩ := List.mem_map.1 he
    exact .bool true
  have herrors : Value.CodeFree
      (.map (((fields values standings).filter fun e => e.2.invalid).map
        fun e => (e.1, e.2.error))) := by
    refine .map fun e' he' => ?_
    obtain ⟨e, he, rfl⟩ := List.mem_map.1 he'
    exact (hshown e (List.mem_filter.1 he).1).2
  have hbuild : Entries.CodeFree (build values record props standings defaults) := by
    refine Table.forall_putAll (P := Value.CodeFree) hwrapped ?_
    simp only [List.forall_mem_cons]
    exact ⟨.map hwrapped, .map hrecord, .map hprops, herrors, hmarked fun s => s.marks.touched,
      hmarked fun s => s.marks.dirty, .map hdefaults, List.forall_mem_nil _⟩
  exact hbuild.get? _

theorem ofField_codeFree {s : Snapshot} (hs : s.CodeFree) (name : FieldName) {props : Entries}
    (hprops : props.CodeFree) (n : String) : (Entries.at0 (ofField s name props) n).CodeFree :=
  build_codeFree hs.values hs.record
    (Table.forall_put (P := Value.CodeFree) (.ofKey name.key) hprops) hs.standings hs.defaults n

end Context

end LiveForm
