import Mathlib
import LiveForm.Proofs.Graph.Edges

/-!
# The graph as a relation

What operations on the graph do can be said of a plain set of edges, pairs of a target and a
subscriber. The graph keeps that set in two tables, and whatever the operations have been, each
table tells of these edges and of no others (`refines_relation`).

* `Graph.Tidy`: how the sets of a table are kept, so that a table is determined by its edges.
* `Graph.Op`: the operations, with what each does to the graph and to the edges.
* `Graph.Refines`: the two tables tell of the edges of a relation.
-/

namespace LiveForm

namespace Names

variable {s : FieldNames}

theorem nodup_add (h : s.Nodup) (n : FieldName) : (add n s).Nodup := by
  unfold add
  split
  · exact h
  · next hn =>
    refine List.nodup_append.2 ⟨h, List.nodup_singleton n, fun m hm k hk he => hn ?_⟩
    rw [← List.mem_singleton.1 hk, ← he]
    exact List.contains_iff_mem.2 hm

theorem nodup_remove (h : s.Nodup) (n : FieldName) : (remove n s).Nodup :=
  h.filter _

theorem add_ne_nil (n : FieldName) (s : FieldNames) : add n s ≠ [] :=
  List.ne_nil_of_mem (mem_add.2 (Or.inr rfl))

end Names

namespace FieldName

/-- The name is a text. -/
def IsText (n : FieldName) : Prop :=
  ∃ s, n = .text s

/-- The names are texts, each once, in ascending order. -/
def Ascending (names : List FieldName) : Prop :=
  ∃ texts : List String, names = texts.map .text ∧ texts.Pairwise (· < ·)

/-- Texts that are sorted as names are sorted as texts. -/
theorem sorted_map_text (texts : List String) :
    sorted (texts.map text) = (texts.mergeSort fun s t => decide (s ≤ t)).map text := by
  unfold sorted
  exact (List.map_mergeSort (f := text) fun s _ t _ => rfl).symm

/-- **Sorting puts distinct texts in ascending order.** -/
theorem ascending_sorted {names : FieldNames} (htexts : ∀ n ∈ names, n.IsText)
    (hnodup : names.Nodup) : Ascending (sorted names) := by
  obtain ⟨texts, rfl⟩ : ∃ texts : List String, names = texts.map text := by
    choose! spell hspell using htexts
    refine ⟨names.map spell, ?_⟩
    rw [List.map_map]
    exact (List.map_id names).symm.trans (List.map_congr_left hspell)
  refine ⟨_, sorted_map_text texts, ?_⟩
  have hle : (texts.mergeSort fun s t => decide (s ≤ t)).Pairwise fun s t => decide (s ≤ t) :=
    List.pairwise_mergeSort (by simpa using fun a b c => le_trans) (by simpa using le_total) texts
  have hne := (List.mergeSort_perm texts fun s t => decide (s ≤ t)).nodup_iff.2
    (List.Nodup.of_map text hnodup)
  exact hle.imp₂ (fun s t h hne => lt_of_le_of_ne (by simpa using h) hne) hne

end FieldName

namespace Graph

variable {g : Graph} {sets : Table FieldName FieldNames} {s t x : FieldName}

/-! ### Tables of sets -/

/-- Each key stands once, and under it a set without repetitions that is not empty. -/
structure Tidy (sets : Table FieldName FieldNames) : Prop where
  keys : (Table.keys sets).Nodup
  sets : ∀ e ∈ sets, e.2 ≠ [] ∧ e.2.Nodup

namespace Tidy

theorem empty : Tidy [] where
  keys := List.nodup_nil
  sets := fun _ he => absurd he List.not_mem_nil

/-- The set under a key is that of the entry. -/
theorem under_eq (h : Tidy sets) {e : FieldName × FieldNames} (he : e ∈ sets) :
    under e.1 sets = e.2 := by
  unfold under
  rw [Table.get?_of_mem h.keys he]
  rfl

theorem nodup_under (h : Tidy sets) (key : FieldName) : (under key sets).Nodup := by
  unfold under
  cases hfound : Table.get? key sets with
  | none => exact List.nodup_nil
  | some names => exact (h.sets _ (Table.mem_of_get? hfound)).2

/-- A name stands in the set of an entry exactly if it stands under the key. -/
theorem mem_entry_iff (h : Tidy sets) {key name : FieldName} :
    (∃ names, (key, names) ∈ sets ∧ name ∈ names) ↔ name ∈ under key sets := by
  constructor
  · rintro ⟨names, he, hname⟩
    rw [h.under_eq he]
    exact hname
  · intro hname
    unfold under at hname
    cases hfound : Table.get? key sets with
    | none =>
      rw [hfound] at hname
      exact absurd hname List.not_mem_nil
    | some names =>
      rw [hfound] at hname
      exact ⟨names, Table.mem_of_get? hfound, hname⟩

/-- The keys are those under which a name stands. -/
theorem mem_keys_iff (h : Tidy sets) {key : FieldName} :
    key ∈ Table.keys sets ↔ ∃ name, name ∈ under key sets := by
  constructor
  · intro hkey
    obtain ⟨e, he, rfl⟩ := List.mem_map.1 hkey
    rw [h.under_eq he]
    exact List.exists_mem_of_ne_nil _ (h.sets e he).1
  · rintro ⟨name, hname⟩
    obtain ⟨names, he, -⟩ := h.mem_entry_iff.2 hname
    exact List.mem_map.2 ⟨_, he, rfl⟩

/-- Writing a set that is not empty keeps a table tidy. -/
theorem put (h : Tidy sets) (key : FieldName) {names : FieldNames} (hne : names ≠ [])
    (hnodup : names.Nodup) : Tidy (Table.put key names sets) where
  keys := Table.nodup_keys_put h.keys key names
  sets := by
    intro e he
    rcases Table.mem_put he with heq | hold
    · rw [heq]
      exact ⟨hne, hnodup⟩
    · exact h.sets e hold

theorem addUnder (h : Tidy sets) (key name : FieldName) : Tidy (addUnder key name sets) :=
  h.put key (Names.add_ne_nil name _) (Names.nodup_add (h.nodup_under key) name)

theorem removeUnder (h : Tidy sets) (key name : FieldName) : Tidy (removeUnder key name sets) := by
  unfold Graph.removeUnder
  cases hfound : Table.get? key sets with
  | none => exact h
  | some names =>
    dsimp only
    split
    · exact ⟨Table.nodup_keys_drop h.keys key, fun e he => h.sets e (List.mem_filter.1 he).1⟩
    · next hne =>
      refine h.put key (by simpa using hne) (Names.nodup_remove ?_ name)
      exact (h.sets _ (Table.mem_of_get? hfound)).2

end Tidy

/-! ### Operations -/

/-- An operation on the graph. -/
inductive Op where
  | register (name : FieldName)
  | unregister (name : FieldName)
  | subscribe (target subscriber : FieldName)
  | unsubscribe (target subscriber : FieldName)
  | setSubscriptions (subscriber : FieldName) (targets : List FieldName)

/-- Edges, each as its target and its subscriber. -/
abbrev Relation := Set (FieldName × FieldName)

namespace Op

/-- What an operation does to the graph. -/
def run (g : Graph) : Op → Graph
  | register name => g.register name
  | unregister name => g.unregister name
  | subscribe target subscriber => g.subscribe target subscriber
  | unsubscribe target subscriber => g.unsubscribe target subscriber
  | setSubscriptions subscriber targets => g.setSubscriptions subscriber targets

/-- What an operation does to the edges. -/
def edit (R : Relation) : Op → Relation
  | register _ => R
  | unregister name => {e | e ∈ R ∧ e.2 ≠ name}
  | subscribe target subscriber => if target = subscriber then R else insert (target, subscriber) R
  | unsubscribe target subscriber => R \ {(target, subscriber)}
  | setSubscriptions subscriber targets =>
    {e | if e.2 = subscriber then e.1 ∈ targets ∧ e.1 ≠ subscriber else e ∈ R}

/-- The names of which an operation tells. -/
def names : Op → List FieldName
  | register name | unregister name => [name]
  | subscribe target subscriber | unsubscribe target subscriber => [target, subscriber]
  | setSubscriptions subscriber targets => subscriber :: targets

end Op

/-- The graph that operations build from nothing. -/
def built (ops : List Op) : Graph :=
  ops.foldl Op.run {}

/-- The edges that operations build from nothing. -/
def relation (ops : List Op) : Relation :=
  ops.foldl Op.edit ∅

/-! ### What one operation keeps -/

/-- The graph has exactly the edges of a relation. -/
def Has (g : Graph) (R : Relation) : Prop :=
  ∀ t s, t ∈ g.subscriptionsOf s ↔ (t, s) ∈ R

theorem Has.run {R : Relation} (h : g.Has R) (op : Op) : (op.run g).Has (op.edit R) := by
  intro x y
  cases op with
  | register name => exact h x y
  | unregister name =>
    change x ∈ (g.unregister name).subscriptionsOf y ↔ _
    rw [mem_subscriptionsOf_unregister, h x y]
    rfl
  | subscribe t s =>
    change x ∈ (g.subscribe t s).subscriptionsOf y ↔ _
    rw [mem_subscriptionsOf_subscribe, h x y]
    unfold Op.edit
    by_cases hts : t = s
    · simp [hts]
    · simp only [hts, if_false, Set.mem_insert_iff, Prod.mk.injEq, ne_eq, not_false_eq_true,
        and_true]
      tauto
  | unsubscribe t s =>
    change x ∈ (g.unsubscribe t s).subscriptionsOf y ↔ _
    rw [mem_subscriptionsOf_unsubscribe, h x y]
    simp only [Op.edit, Set.mem_sdiff, Set.mem_singleton_iff, Prod.mk.injEq]
    tauto
  | setSubscriptions s targets =>
    change x ∈ (g.setSubscriptions s targets).subscriptionsOf y ↔ _
    rw [mem_subscriptionsOf_setSubscriptions, h x y]
    rfl

theorem Sound.run (h : g.Sound) (op : Op) : (op.run g).Sound := by
  cases op with
  | register name => exact h.register name
  | unregister name => exact h.unregister name
  | subscribe t s => exact h.subscribe t s
  | unsubscribe t s => exact h.unsubscribe t s
  | setSubscriptions s targets => exact h.setSubscriptions s targets

/-- Both tables of the graph are tidy. -/
structure Neat (g : Graph) : Prop where
  subscribers : Tidy g.subscribers
  subscriptions : Tidy g.subscriptions

namespace Neat

theorem subscribe (h : g.Neat) (t s : FieldName) : (g.subscribe t s).Neat := by
  unfold Graph.subscribe
  split
  · exact h
  · exact ⟨h.subscribers.addUnder t s, h.subscriptions.addUnder s t⟩

theorem unsubscribe (h : g.Neat) (t s : FieldName) : (g.unsubscribe t s).Neat :=
  ⟨h.subscribers.removeUnder t s, h.subscriptions.removeUnder s t⟩

theorem unsubscribes (h : g.Neat) (s : FieldName) (targets : List FieldName) :
    (targets.foldl (fun acc t => acc.unsubscribe t s) g).Neat :=
  List.foldlRecOn targets _ h fun _ hacc t _ => unsubscribe hacc t s

theorem run (h : g.Neat) (op : Op) : (op.run g).Neat := by
  cases op with
  | register name => exact ⟨h.subscribers, h.subscriptions⟩
  | unregister name =>
    have hless : ({ g with registered := Names.remove name g.registered } : Graph).Neat :=
      ⟨h.subscribers, h.subscriptions⟩
    exact hless.unsubscribes name _
  | subscribe t s => exact h.subscribe t s
  | unsubscribe t s => exact h.unsubscribe t s
  | setSubscriptions s targets =>
    exact List.foldlRecOn _ _ (h.unsubscribes s _) fun _ hacc t _ => subscribe hacc t s

end Neat

/-- An operation leaves an edge that was there, or makes one between two fields that it names. -/
theorem edge_cases {R : Relation} {op : Op} {e : FieldName × FieldName} (he : e ∈ op.edit R) :
    e ∈ R ∨ (e.1 ≠ e.2 ∧ e.1 ∈ op.names ∧ e.2 ∈ op.names) := by
  cases op with
  | register name => exact Or.inl he
  | unregister name => exact Or.inl he.1
  | subscribe t s =>
    simp only [Op.edit] at he
    by_cases hts : t = s
    · rw [if_pos hts] at he
      exact Or.inl he
    · rw [if_neg hts] at he
      rcases he with rfl | hold
      · exact Or.inr ⟨hts, by simp [Op.names], by simp [Op.names]⟩
      · exact Or.inl hold
  | unsubscribe t s => exact Or.inl he.1
  | setSubscriptions s targets =>
    have hset : if e.2 = s then e.1 ∈ targets ∧ e.1 ≠ s else e ∈ R := he
    by_cases hs : e.2 = s
    · rw [if_pos hs] at hset
      exact Or.inr ⟨hs ▸ hset.2, by simp [Op.names, hset.1], by simp [Op.names, hs]⟩
    · rw [if_neg hs] at hset
      exact Or.inl hset

theorem loopless_edit {R : Relation} (h : ∀ n, (n, n) ∉ R) (op : Op) (n : FieldName) :
    (n, n) ∉ op.edit R := by
  intro hn
  rcases edge_cases hn with hold | ⟨hne, -, -⟩
  · exact h n hold
  · exact hne rfl

theorem texts_edit {R : Relation} (h : ∀ e ∈ R, e.1.IsText ∧ e.2.IsText) {op : Op}
    (hop : ∀ n ∈ op.names, n.IsText) : ∀ e ∈ op.edit R, e.1.IsText ∧ e.2.IsText := by
  intro e he
  rcases edge_cases he with hold | ⟨-, ht, hs⟩
  · exact h e hold
  · exact ⟨hop _ ht, hop _ hs⟩

/-! ### What any number of operations keep -/

theorem built_snoc (ops : List Op) (op : Op) : built (ops ++ [op]) = op.run (built ops) :=
  List.foldl_concat ..

theorem relation_snoc (ops : List Op) (op : Op) : relation (ops ++ [op]) = op.edit (relation ops) :=
  List.foldl_concat ..

/-- Two tables tell of the edges of a relation, and of no others. -/
structure Refines (g : Graph) (R : Relation) : Prop where
  /-- The subscribers of a target, and the targets of a subscriber, are those of the edges. -/
  subscribersOf : ∀ t, {s | s ∈ g.subscribersOf t} = {s | (t, s) ∈ R}
  subscriptionsOf : ∀ s, {t | t ∈ g.subscriptionsOf s} = {t | (t, s) ∈ R}
  /-- In each table every key stands once, and under it a set that is not empty. -/
  neat : g.Neat
  /-- One table has an entry with a target and a subscriber exactly if the other has one. -/
  inverse : ∀ t s, (∃ names, (t, names) ∈ g.subscribers ∧ s ∈ names) ↔
    ∃ names, (s, names) ∈ g.subscriptions ∧ t ∈ names
  /-- No entry leads from a field to itself. -/
  loopless : (∀ e ∈ g.subscribers, e.1 ∉ e.2) ∧ ∀ e ∈ g.subscriptions, e.1 ∉ e.2

/-- Rows show the edges of a relation: for each target one row, with its subscribers. -/
structure Shows (rows : List (FieldName × List FieldName)) (R : Relation) : Prop where
  targets : ∀ t, t ∈ rows.map Prod.fst ↔ ∃ s, (t, s) ∈ R
  subscribers : ∀ row ∈ rows, ∀ s, s ∈ row.2 ↔ (row.1, s) ∈ R
  once : (rows.map Prod.fst).Nodup ∧ ∀ row ∈ rows, row.2.Nodup

/-- The targets of rows, and the subscribers in each row, are in ascending order. -/
structure InOrder (rows : List (FieldName × List FieldName)) : Prop where
  targets : FieldName.Ascending (rows.map Prod.fst)
  subscribers : ∀ row ∈ rows, FieldName.Ascending row.2

theorem edges_targets (g : Graph) :
    g.edges.map Prod.fst = FieldName.sorted (Table.keys g.subscribers) := by
  unfold edges
  rw [List.map_map]
  exact List.map_id _

/-- Tables that tell of the same edges, and are neat, refine the relation. -/
theorem refines_of_has {R : Relation} (hsound : g.Sound) (hneat : g.Neat) (hhas : g.Has R)
    (hloopless : ∀ n, (n, n) ∉ R) : g.Refines R where
  subscribersOf := fun t => Set.ext fun s => (hsound s t).trans (hhas t s)
  subscriptionsOf := fun s => Set.ext fun t => hhas t s
  neat := hneat
  inverse := fun t s =>
    hneat.subscribers.mem_entry_iff.trans
      ((hsound s t).trans hneat.subscriptions.mem_entry_iff.symm)
  loopless := by
    constructor
    · intro e he hmem
      rw [← hneat.subscribers.under_eq he] at hmem
      exact hloopless e.1 ((hhas e.1 e.1).1 ((hsound e.1 e.1).1 hmem))
    · intro e he hmem
      rw [← hneat.subscriptions.under_eq he] at hmem
      exact hloopless e.1 ((hhas e.1 e.1).1 hmem)

theorem mem_edges {row : FieldName × List FieldName} (h : row ∈ g.edges) :
    row.2 = FieldName.sorted (g.subscribersOf row.1) := by
  obtain ⟨t, -, rfl⟩ := List.mem_map.1 h
  rfl

/-- What is shown of a graph is what it has. -/
theorem Refines.shows {R : Relation} (h : g.Refines R) : Shows g.edges R where
  targets := by
    intro t
    rw [edges_targets, FieldName.mem_sorted, h.neat.subscribers.mem_keys_iff]
    exact exists_congr fun s => Set.ext_iff.1 (h.subscribersOf t) s
  subscribers := by
    intro row hrow s
    rw [mem_edges hrow, FieldName.mem_sorted]
    exact Set.ext_iff.1 (h.subscribersOf row.1) s
  once := by
    constructor
    · rw [edges_targets]
      exact (List.mergeSort_perm _ _).nodup_iff.2 h.neat.subscribers.keys
    · intro row hrow
      rw [mem_edges hrow]
      exact (List.mergeSort_perm _ _).nodup_iff.2 (h.neat.subscribers.nodup_under row.1)

theorem Refines.inOrder {R : Relation} (h : g.Refines R)
    (htexts : ∀ e ∈ R, e.1.IsText ∧ e.2.IsText) : InOrder g.edges where
  targets := by
    rw [edges_targets]
    refine FieldName.ascending_sorted (fun t ht => ?_) h.neat.subscribers.keys
    obtain ⟨s, hs⟩ := h.neat.subscribers.mem_keys_iff.1 ht
    exact (htexts (t, s) ((Set.ext_iff.1 (h.subscribersOf t) s).1 hs)).1
  subscribers := by
    intro row hrow
    rw [mem_edges hrow]
    refine FieldName.ascending_sorted (fun s hs => ?_) (h.neat.subscribers.nodup_under row.1)
    exact (htexts (row.1, s) ((Set.ext_iff.1 (h.subscribersOf row.1) s).1 hs)).2

/-- **The graph refines its relation.** Whatever operations have built a graph, its two tables tell
of the edges that the same operations leave in a plain set, and of no others: they are inverse to
each other, no set in them is empty and no field stands beside itself. What is shown of the graph
are its targets, each with its subscribers; and if all names are texts, they are shown in ascending
order. -/
theorem refines_relation (ops : List Op) :
    (built ops).Refines (relation ops) ∧ Shows (built ops).edges (relation ops) ∧
      ((∀ op ∈ ops, ∀ n ∈ op.names, n.IsText) → InOrder (built ops).edges) := by
  have hkept : (built ops).Sound ∧ (built ops).Neat ∧ (built ops).Has (relation ops) ∧
      ∀ n, (n, n) ∉ relation ops := by
    induction ops using List.reverseRecOn with
    | nil =>
      refine ⟨sound_empty, ⟨Tidy.empty, Tidy.empty⟩, fun t s => ?_, fun n => Set.notMem_empty _⟩
      exact iff_of_false List.not_mem_nil (Set.notMem_empty _)
    | append_singleton ops op ih =>
      obtain ⟨hsound, hneat, hhas, hloopless⟩ := ih
      rw [built_snoc, relation_snoc]
      exact ⟨hsound.run op, hneat.run op, hhas.run op, loopless_edit hloopless op⟩
  have htexts (h : ∀ op ∈ ops, ∀ n ∈ op.names, n.IsText) :
      ∀ e ∈ relation ops, e.1.IsText ∧ e.2.IsText :=
    List.foldlRecOn (motive := fun R => ∀ e ∈ R, e.1.IsText ∧ e.2.IsText) ops Op.edit
      (fun e he => absurd he (Set.notMem_empty e)) fun _ hR op hop => texts_edit hR (h op hop)
  obtain ⟨hsound, hneat, hhas, hloopless⟩ := hkept
  have hrefines := refines_of_has hsound hneat hhas hloopless
  exact ⟨hrefines, hrefines.shows, fun h => hrefines.inOrder (htexts h)⟩

/-- A subscriber that changes its targets, beside one that leaves. -/
theorem refines_relation_changed :
    let ops : List Op := [.subscribe (.text "b") (.text "c"), .subscribe (.text "a") (.text "c"),
      .subscribe (.text "a") (.text "b"), .unregister (.text "b"),
      .setSubscriptions (.text "c") [.text "a", .text "c", .text "d"]]
    (∀ op ∈ ops, ∀ n ∈ op.names, n.IsText) ∧ InOrder (built ops).edges ∧
      (built ops).edges = [(.text "a", [.text "c"]), (.text "d", [.text "c"])] := by
  intro ops
  have htexts : ∀ op ∈ ops, ∀ n ∈ op.names, n.IsText := by
    simp [ops, Op.names, FieldName.IsText]
  exact ⟨htexts, (refines_relation ops).2.2 htexts, by cbv⟩

end Graph

end LiveForm
