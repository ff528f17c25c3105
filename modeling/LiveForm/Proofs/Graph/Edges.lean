import Mathlib
import LiveForm.Graph
import LiveForm.Proofs.Value.Table

/-!
# The edges of the graph

The graph keeps each edge twice: with its target, and with its subscriber. A graph is sound if the
two tell of the same edges, and every operation keeps it so. Whoever is affected by a field is
another one that subscribes to something (`mem_affectedBy`).
-/

namespace LiveForm

namespace Graph

variable {g : Graph} {s t x y : FieldName}

/-! ### Sets under keys -/

/-- The set of names under a key. -/
def under (key : FieldName) (sets : Table FieldName FieldNames) : FieldNames :=
  (Table.get? key sets).getD []

theorem mem_under_addUnder {key name : FieldName} {sets : Table FieldName FieldNames} :
    x ∈ under y (addUnder key name sets) ↔ x ∈ under y sets ∨ (y = key ∧ x = name) := by
  unfold under addUnder
  rw [Table.get?_put]
  by_cases hkey : key = y
  · subst hkey
    rw [if_pos (beq_self_eq_true key), Option.getD_some, Names.mem_add]
    simp
  · rw [if_neg (by simpa using hkey)]
    exact ⟨.inl, fun hx => hx.resolve_right fun h => hkey h.1.symm⟩

theorem mem_under_removeUnder {key name : FieldName} {sets : Table FieldName FieldNames} :
    x ∈ under y (removeUnder key name sets) ↔ x ∈ under y sets ∧ ¬(y = key ∧ x = name) := by
  unfold removeUnder
  cases hfound : Table.get? key sets with
  | none =>
    refine ⟨fun hx => ⟨hx, fun ⟨hy, _⟩ => ?_⟩, And.left⟩
    rw [hy, under, hfound] at hx
    exact absurd hx (by simp)
  | some names =>
    have hput (sets' : Table FieldName FieldNames)
        (hkey : under key sets' = Names.remove name names)
        (hother : ∀ y, y ≠ key → under y sets' = under y sets) :
        x ∈ under y sets' ↔ x ∈ under y sets ∧ ¬(y = key ∧ x = name) := by
      by_cases hy : y = key
      · subst hy
        rw [hkey, under, hfound, Option.getD_some, Names.mem_remove]
        simp
      · rw [hother y hy]
        simp [hy]
    have hne {y : FieldName} (hy : y ≠ key) : (key == y) = false := by
      simpa using fun h : key = y => hy h.symm
    dsimp only
    split
    · next hempty =>
      refine hput _ ?_ fun y hy => ?_
      · rw [under, Table.get?_drop_self, List.isEmpty_iff.1 hempty]
        rfl
      · rw [under, under, Table.get?_drop_of_ne (hne hy)]
    · refine hput _ ?_ fun y hy => ?_
      · rw [under, Table.get?_put_self, Option.getD_some]
      · rw [under, under, Table.get?_put_of_ne (hne hy)]

/-! ### Subscribing -/

theorem mem_subscriptionsOf_subscribe : x ∈ (g.subscribe t s).subscriptionsOf y ↔
    x ∈ g.subscriptionsOf y ∨ (y = s ∧ x = t ∧ t ≠ s) := by
  unfold subscribe
  split
  · next h =>
    have h : t = s := by simpa using h
    simp [h]
  · next h =>
    have h : t ≠ s := by simpa using h
    change x ∈ under y (addUnder s t g.subscriptions) ↔ x ∈ under y g.subscriptions ∨ _
    simp [mem_under_addUnder, h]

theorem mem_subscribersOf_subscribe : x ∈ (g.subscribe t s).subscribersOf y ↔
    x ∈ g.subscribersOf y ∨ (y = t ∧ x = s ∧ t ≠ s) := by
  unfold subscribe
  split
  · next h =>
    have h : t = s := by simpa using h
    simp [h]
  · next h =>
    have h : t ≠ s := by simpa using h
    change x ∈ under y (addUnder t s g.subscribers) ↔ x ∈ under y g.subscribers ∨ _
    simp [mem_under_addUnder, h]

theorem mem_subscriptionsOf_unsubscribe : x ∈ (g.unsubscribe t s).subscriptionsOf y ↔
    x ∈ g.subscriptionsOf y ∧ ¬(y = s ∧ x = t) :=
  mem_under_removeUnder

theorem mem_subscribersOf_unsubscribe : x ∈ (g.unsubscribe t s).subscribersOf y ↔
    x ∈ g.subscribersOf y ∧ ¬(y = t ∧ x = s) :=
  mem_under_removeUnder

theorem mem_subscriptionsOf_unsubscribes (targets : List FieldName) :
    x ∈ (targets.foldl (fun acc t => acc.unsubscribe t s) g).subscriptionsOf y ↔
      x ∈ g.subscriptionsOf y ∧ ¬(y = s ∧ x ∈ targets) := by
  induction targets generalizing g with
  | nil => simp
  | cons t targets ih =>
    rw [List.foldl_cons, ih, mem_subscriptionsOf_unsubscribe, List.mem_cons]
    tauto

theorem mem_subscriptionsOf_subscribes (targets : List FieldName) :
    x ∈ (targets.foldl (fun acc t => acc.subscribe t s) g).subscriptionsOf y ↔
      x ∈ g.subscriptionsOf y ∨ (y = s ∧ x ∈ targets ∧ x ≠ s) := by
  induction targets generalizing g with
  | nil => simp
  | cons t targets ih =>
    rw [List.foldl_cons, ih, mem_subscriptionsOf_subscribe, List.mem_cons]
    constructor
    · rintro ((hx | ⟨hy, rfl, hne⟩) | ⟨hy, hx, hne⟩)
      · exact .inl hx
      · exact .inr ⟨hy, .inl rfl, hne⟩
      · exact .inr ⟨hy, .inr hx, hne⟩
    · rintro (hx | ⟨hy, rfl | hx, hne⟩)
      · exact .inl (.inl hx)
      · exact .inl (.inr ⟨hy, rfl, hne⟩)
      · exact .inr ⟨hy, hx, hne⟩

/-- A subscriber that is given targets has these, itself left out. The others keep theirs. -/
theorem mem_subscriptionsOf_setSubscriptions {targets : List FieldName} :
    x ∈ (g.setSubscriptions s targets).subscriptionsOf y ↔
      if y = s then x ∈ targets ∧ x ≠ s else x ∈ g.subscriptionsOf y := by
  unfold setSubscriptions
  dsimp only
  rw [mem_subscriptionsOf_subscribes, mem_subscriptionsOf_unsubscribes]
  by_cases hy : y = s
  · subst hy
    simp only [Names.mem_minus, Names.mem_remove, Names.mem_ofList, if_true, true_and]
    tauto
  · simp [hy]

theorem mem_subscriptionsOf_unregister : x ∈ (g.unregister s).subscriptionsOf y ↔
    x ∈ g.subscriptionsOf y ∧ y ≠ s := by
  unfold unregister
  rw [mem_subscriptionsOf_unsubscribes]
  have hsame : ({ g with registered := Names.remove s g.registered } : Graph).subscriptionsOf y =
      g.subscriptionsOf y := rfl
  rw [hsame]
  constructor
  · rintro ⟨hx, hnot⟩
    exact ⟨hx, fun hy => hnot ⟨hy, hy ▸ hx⟩⟩
  · rintro ⟨hx, hy⟩
    exact ⟨hx, fun h => hy h.1⟩

/-! ### Sound graphs -/

/-- The subscribers of the targets and the targets of the subscribers are the same edges. -/
def Sound (g : Graph) : Prop :=
  ∀ s t, s ∈ g.subscribersOf t ↔ t ∈ g.subscriptionsOf s

theorem sound_empty : Sound {} := by
  intro s t
  simp [subscribersOf, subscriptionsOf, Table.get?]

namespace Sound

theorem register (h : g.Sound) (name : FieldName) : (g.register name).Sound :=
  h

theorem subscribe (h : g.Sound) (t s : FieldName) : (g.subscribe t s).Sound := by
  intro x y
  rw [mem_subscribersOf_subscribe, mem_subscriptionsOf_subscribe, h x y]
  tauto

theorem unsubscribe (h : g.Sound) (t s : FieldName) : (g.unsubscribe t s).Sound := by
  intro x y
  rw [mem_subscribersOf_unsubscribe, mem_subscriptionsOf_unsubscribe, h x y]
  tauto

theorem foldl {step : Graph → FieldName → Graph} (hstep : ∀ g t, g.Sound → (step g t).Sound)
    (h : g.Sound) (targets : List FieldName) : (targets.foldl step g).Sound := by
  induction targets generalizing g with
  | nil => exact h
  | cons t targets ih => exact ih (hstep g t h)

theorem setSubscriptions (h : g.Sound) (s : FieldName) (targets : List FieldName) :
    (g.setSubscriptions s targets).Sound :=
  foldl (fun _ t hg => hg.subscribe t s) (foldl (fun _ t hg => hg.unsubscribe t s) h _) _

theorem unregister (h : g.Sound) (s : FieldName) : (g.unregister s).Sound :=
  foldl (fun _ t hg => hg.unsubscribe t s)
    (show ({ g with registered := Names.remove s g.registered } : Graph).Sound from h) _

end Sound

/-- Who subscribes to something has a key among the subscriptions. -/
theorem mem_keys_of_mem (h : t ∈ g.subscriptionsOf s) : s ∈ Table.keys g.subscriptions := by
  unfold subscriptionsOf at h
  cases hfound : Table.get? s g.subscriptions with
  | none =>
    rw [hfound] at h
    exact absurd h (by simp)
  | some targets => exact List.mem_map_of_mem (Table.mem_of_get? hfound)

/-! ### Who is affected -/

theorem mem_spread {unseen : FieldNames} {queue : List FieldName} (h : x ∈ g.spread unseen queue) :
    x ∈ unseen ∧ (x ∈ queue ∨ ∃ t, x ∈ g.subscribersOf t) := by
  induction unseen, queue using spread.induct (g := g) with
  | case1 unseen =>
    rw [spread] at h
    exact nomatch h
  | case2 unseen n rest hn _ ih =>
    rw [spread, dif_pos hn, List.mem_cons] at h
    rcases h with rfl | h
    · exact ⟨hn, .inl List.mem_cons_self⟩
    · obtain ⟨hx, hqueue⟩ := ih h
      refine ⟨(Names.mem_remove.1 hx).1, ?_⟩
      rcases hqueue with hqueue | hsub
      · rcases List.mem_append.1 hqueue with hrest | hsub
        · exact .inl (List.mem_cons_of_mem _ hrest)
        · exact .inr ⟨n, hsub⟩
      · exact .inr hsub
  | case3 unseen n rest hn ih =>
    rw [spread, dif_neg hn] at h
    obtain ⟨hx, hqueue⟩ := ih h
    exact ⟨hx, hqueue.imp (List.mem_cons_of_mem _) id⟩

/-- Whoever is affected by a field is another one that subscribes to something. -/
theorem mem_affectedBy {name : FieldName} (h : x ∈ g.affectedBy name) :
    x ≠ name ∧ ∃ t, x ∈ g.subscribersOf t := by
  obtain ⟨hx, hqueue⟩ := mem_spread h
  exact ⟨(Names.mem_remove.1 hx).2, hqueue.elim (fun h => ⟨name, h⟩) id⟩

/-! ### Graphs without cycles -/

/-- No field depends on itself, directly or through others. -/
def Acyclic (g : Graph) : Prop :=
  ∀ x, ¬Relation.TransGen (fun s t => t ∈ g.subscriptionsOf s) x x

/-- A graph whose edges all lead down in some ranking has no cycles. -/
theorem acyclic_of_rank (rank : FieldName → Nat)
    (h : ∀ e ∈ g.subscriptions, ∀ t ∈ e.2, rank t < rank e.1) : g.Acyclic := by
  have edge {s t : FieldName} (ht : t ∈ g.subscriptionsOf s) : rank t < rank s := by
    unfold subscriptionsOf at ht
    cases hfound : Table.get? s g.subscriptions with
    | none =>
      rw [hfound] at ht
      exact absurd ht (by simp)
    | some targets =>
      rw [hfound] at ht
      exact h _ (Table.mem_of_get? hfound) t ht
  have down {s t : FieldName} (hst : Relation.TransGen (fun s t => t ∈ g.subscriptionsOf s) s t) :
      rank t < rank s := by
    induction hst with
    | single hedge => exact edge hedge
    | tail _ hedge ih => exact (edge hedge).trans ih
  exact fun x hx => Nat.lt_irrefl _ (down hx)

end Graph

end LiveForm
