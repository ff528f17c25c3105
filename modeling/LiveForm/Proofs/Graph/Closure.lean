import Mathlib
import LiveForm.Proofs.Graph.Relation

/-!
# Who is affected by a change

Going through the subscribers of a field, and theirs in turn, finds exactly the fields that can be
reached along edges, whatever the shape of the graph (`Graph.affectedBy_exact`). What carries the
proof is that the fields that are found are closed under edges to fields that had not been seen
(`mem_spread_of_edge`). No edge is gone along twice, so that the work is bounded by the number of
edges (`Graph.Spreads`).
-/

namespace LiveForm

namespace Graph

variable {g : Graph} {x y name : FieldName} {unseen : FieldNames} {queue : List FieldName}

/-- The second field subscribes to the first. -/
def Leads (g : Graph) (t s : FieldName) : Prop :=
  s ∈ g.subscribersOf t

/-! ### What is found -/

theorem mem_unseen_of_mem_spread (h : x ∈ g.spread unseen queue) : x ∈ unseen :=
  (mem_spread h).1

/-- Whatever is found is reached from somebody in the queue. -/
theorem reaches_of_mem_spread (h : x ∈ g.spread unseen queue) :
    ∃ n ∈ queue, Relation.ReflTransGen g.Leads n x := by
  induction unseen, queue using spread.induct (g := g) with
  | case1 unseen =>
    rw [spread] at h
    exact absurd h List.not_mem_nil
  | case2 unseen n rest hn _ ih =>
    rw [spread, dif_pos hn, List.mem_cons] at h
    rcases h with rfl | h
    · exact ⟨x, List.mem_cons_self, .refl⟩
    · obtain ⟨m, hm, hreach⟩ := ih h
      rcases List.mem_append.1 hm with hrest | hsub
      · exact ⟨m, List.mem_cons_of_mem n hrest, hreach⟩
      · exact ⟨n, List.mem_cons_self, .head hsub hreach⟩
  | case3 unseen n rest hn ih =>
    rw [spread, dif_neg hn] at h
    obtain ⟨m, hm, hreach⟩ := ih h
    exact ⟨m, List.mem_cons_of_mem n hm, hreach⟩

/-- Whoever stands in the queue and has not been seen is found. -/
theorem mem_spread_of_queued (hx : x ∈ unseen) (hqueue : x ∈ queue) :
    x ∈ g.spread unseen queue := by
  induction unseen, queue using spread.induct (g := g) with
  | case1 unseen => exact absurd hqueue List.not_mem_nil
  | case2 unseen n rest hn _ ih =>
    rw [spread, dif_pos hn]
    by_cases hxn : x = n
    · exact hxn ▸ List.mem_cons_self
    · have hrest := (List.mem_cons.1 hqueue).resolve_left hxn
      exact List.mem_cons_of_mem n
        (ih (Names.mem_remove.2 ⟨hx, hxn⟩) (List.mem_append_left _ hrest))
  | case3 unseen n rest hn ih =>
    rw [spread, dif_neg hn]
    exact ih hx ((List.mem_cons.1 hqueue).resolve_left fun he => hn (he ▸ hx))

/-- **What is found is closed**: who subscribes to a field that is found, and had not been seen, is
found too. -/
theorem mem_spread_of_edge (hx : x ∈ g.spread unseen queue) (hedge : g.Leads x y)
    (hy : y ∈ unseen) : y ∈ g.spread unseen queue := by
  induction unseen, queue using spread.induct (g := g) with
  | case1 unseen =>
    rw [spread] at hx
    exact absurd hx List.not_mem_nil
  | case2 unseen n rest hn _ ih =>
    rw [spread, dif_pos hn] at hx ⊢
    by_cases hyn : y = n
    · exact hyn ▸ List.mem_cons_self
    · have hleft := Names.mem_remove.2 ⟨hy, hyn⟩
      refine List.mem_cons_of_mem n ?_
      rcases List.mem_cons.1 hx with rfl | hlater
      · exact mem_spread_of_queued hleft (List.mem_append_right rest hedge)
      · exact ih hlater hleft
  | case3 unseen n rest hn ih =>
    rw [spread, dif_neg hn] at hx ⊢
    exact ih hx hy

/-- Each field is found once. -/
theorem nodup_spread (unseen : FieldNames) (queue : List FieldName) :
    (g.spread unseen queue).Nodup := by
  induction unseen, queue using spread.induct (g := g) with
  | case1 unseen =>
    rw [spread]
    exact List.nodup_nil
  | case2 unseen n rest hn _ ih =>
    rw [spread, dif_pos hn]
    exact List.nodup_cons.2 ⟨fun h => (Names.mem_remove.1 (mem_unseen_of_mem_spread h)).2 rfl, ih⟩
  | case3 unseen n rest hn ih =>
    rw [spread, dif_neg hn]
    exact ih

/-- Other fields that subscribe to anything have not been seen at the start. -/
theorem Sound.mem_unseen (h : g.Sound) (hedge : g.Leads x y) (hy : y ≠ name) :
    y ∈ Names.remove name (Table.keys g.subscriptions) :=
  Names.mem_remove.2 ⟨mem_keys_of_mem ((h y x).1 hedge), hy⟩

/-- Who is affected by a field is who can be reached from it, the field itself left out. -/
theorem Sound.mem_affectedBy_iff (h : g.Sound) :
    x ∈ g.affectedBy name ↔ x ≠ name ∧ Relation.TransGen g.Leads name x := by
  constructor
  · intro hx
    obtain ⟨n, hn, hreach⟩ := reaches_of_mem_spread hx
    exact ⟨(mem_affectedBy hx).1, .head' hn hreach⟩
  · rintro ⟨hne, hreach⟩
    -- a path may come back to the field itself, and then starts anew
    have hfound : x = name ∨ x ∈ g.affectedBy name := by
      clear hne
      induction hreach with
      | @single y hedge =>
        refine or_iff_not_imp_left.2 fun hy => ?_
        exact mem_spread_of_queued (h.mem_unseen hedge hy) hedge
      | @tail y z _ hedge ih =>
        refine or_iff_not_imp_left.2 fun hz => ?_
        rcases ih with rfl | hy
        · exact mem_spread_of_queued (h.mem_unseen hedge hz) hedge
        · exact mem_spread_of_edge hy hedge (h.mem_unseen hedge hz)
    exact hfound.resolve_left hne

/-! ### How long it takes -/

/-- Going through a queue ends after a number of passes, each of which takes the first out of the
queue, and has found these fields. -/
inductive Spreads (g : Graph) : Nat → FieldNames → List FieldName → FieldNames → Prop
  | done (unseen : FieldNames) : Spreads g 0 unseen [] []
  | skip {k : Nat} {unseen : FieldNames} {n : FieldName} {rest : List FieldName}
      {found : FieldNames} : n ∉ unseen → Spreads g k unseen rest found →
      Spreads g (k + 1) unseen (n :: rest) found
  | visit {k : Nat} {unseen : FieldNames} {n : FieldName} {rest : List FieldName}
      {found : FieldNames} : n ∈ unseen →
      Spreads g k (Names.remove n unseen) (rest ++ g.subscribersOf n) found →
      Spreads g (k + 1) unseen (n :: rest) (n :: found)

/-- How many edges lead away from some fields. -/
def outgoing (g : Graph) (names : FieldNames) : Nat :=
  (names.map fun n => (g.subscribersOf n).length).sum

/-- How many edges there are. -/
def size (g : Graph) : Nat :=
  (g.subscribers.map fun e => e.2.length).sum

theorem outgoing_remove {n : FieldName} {names : FieldNames} (h : n ∈ names) :
    g.outgoing (Names.remove n names) + (g.subscribersOf n).length ≤ g.outgoing names := by
  induction names with
  | nil => exact nomatch h
  | cons m rest ih =>
    have hcons : g.outgoing (m :: rest) = (g.subscribersOf m).length + g.outgoing rest :=
      List.sum_cons
    by_cases hm : m = n
    · subst hm
      have hremove : Names.remove m (m :: rest) = Names.remove m rest :=
        List.filter_cons_of_neg (by simp)
      have hless : g.outgoing (Names.remove m rest) ≤ g.outgoing rest :=
        (List.filter_sublist.map _).sum_le_sum fun _ _ => Nat.zero_le _
      rw [hremove, hcons]
      omega
    · have hremove : Names.remove n (m :: rest) = m :: Names.remove n rest :=
        List.filter_cons_of_pos (by simpa using hm)
      have hstep : g.outgoing (m :: Names.remove n rest) =
          (g.subscribersOf m).length + g.outgoing (Names.remove n rest) := List.sum_cons
      have hrest := ih ((List.mem_cons.1 h).resolve_left (Ne.symm hm))
      rw [hremove, hstep, hcons]
      omega

/-- Going through a queue takes a pass for each who stands in it, and for each edge that leads away
from a field that has not been seen. -/
theorem spreads_spread (unseen : FieldNames) (queue : List FieldName) :
    ∃ k ≤ queue.length + g.outgoing unseen, g.Spreads k unseen queue (g.spread unseen queue) := by
  induction unseen, queue using spread.induct (g := g) with
  | case1 unseen =>
    rw [spread]
    exact ⟨0, Nat.zero_le _, .done unseen⟩
  | case2 unseen n rest hn _ ih =>
    obtain ⟨k, hk, hspreads⟩ := ih
    have hless := outgoing_remove (g := g) hn
    rw [spread, dif_pos hn]
    refine ⟨k + 1, ?_, .visit hn hspreads⟩
    rw [List.length_append] at hk
    rw [List.length_cons]
    omega
  | case3 unseen n rest hn ih =>
    obtain ⟨k, hk, hspreads⟩ := ih
    rw [spread, dif_neg hn]
    refine ⟨k + 1, ?_, .skip hn hspreads⟩
    rw [List.length_cons]
    omega

theorem sum_under_le (sets : Table FieldName FieldNames) {names : FieldNames} (h : names.Nodup) :
    (names.map fun n => (under n sets).length).sum ≤ (sets.map fun e => e.2.length).sum := by
  induction sets generalizing names with
  | nil => simp [under, Table.get?]
  | cons e rest ih =>
    obtain ⟨k, set⟩ := e
    have hother {n : FieldName} (hn : n ≠ k) : under n ((k, set) :: rest) = under n rest := by
      rw [under, Table.get?, if_neg (by simpa using hn.symm), under]
    have hall {names : FieldNames} (hk : k ∉ names) :
        (names.map fun n => (under n ((k, set) :: rest)).length) =
          names.map fun n => (under n rest).length :=
      List.map_congr_left fun n hn => by rw [hother fun he => hk (he ▸ hn)]
    rw [List.map_cons, List.sum_cons]
    by_cases hk : k ∈ names
    · have hself : under k ((k, set) :: rest) = set := by simp [under, Table.get?]
      have hperm := (List.perm_cons_erase hk).map fun n => (under n ((k, set) :: rest)).length
      rw [hperm.sum_eq, List.map_cons, List.sum_cons, hself, hall h.not_mem_erase]
      exact Nat.add_le_add_left (ih (h.erase k)) _
    · rw [hall hk]
      exact (ih h).trans (Nat.le_add_left _ _)

/-- Distinct fields have no more outgoing edges than there are. -/
theorem outgoing_le_size (g : Graph) {names : FieldNames} (h : names.Nodup) :
    g.outgoing names ≤ g.size :=
  sum_under_le g.subscribers h

/-- Finding who is affected by a field takes no more passes than there are edges. -/
theorem spreads_affectedBy (h : g.Neat) (name : FieldName) :
    ∃ k ≤ g.size, g.Spreads k (Names.remove name (Table.keys g.subscriptions))
      (g.subscribersOf name) (g.affectedBy name) := by
  obtain ⟨k, hk, hspreads⟩ := spreads_spread (g := g)
    (Names.remove name (Table.keys g.subscriptions)) (g.subscribersOf name)
  have hnodup : (name :: Names.remove name (Table.keys g.subscriptions)).Nodup :=
    List.nodup_cons.2 ⟨fun hmem => (Names.mem_remove.1 hmem).2 rfl,
      Names.nodup_remove h.subscriptions.keys name⟩
  have hcons : g.outgoing (name :: Names.remove name (Table.keys g.subscriptions)) =
      (g.subscribersOf name).length + g.outgoing (Names.remove name (Table.keys g.subscriptions)) :=
    List.sum_cons
  exact ⟨k, hk.trans (hcons ▸ g.outgoing_le_size hnodup), hspreads⟩

/-! ### Graphs that have been built -/

theorem sound_built (ops : List Op) : (built ops).Sound :=
  List.foldlRecOn ops Op.run sound_empty fun _ h op _ => h.run op

theorem neat_built (ops : List Op) : (built ops).Neat :=
  List.foldlRecOn ops Op.run ⟨Tidy.empty, Tidy.empty⟩ fun _ h op _ => h.run op

theorem has_built (ops : List Op) : (built ops).Has (relation ops) := by
  induction ops using List.reverseRecOn with
  | nil => exact fun t s => iff_of_false List.not_mem_nil (Set.notMem_empty _)
  | append_singleton ops op ih =>
    rw [built_snoc, relation_snoc]
    exact ih.run op

/-- **Who is affected by a field.** Whatever operations have built a graph, with cycles or without:
going through the subscribers of a field and theirs in turn ends, after no more passes than the graph
has edges, and finds each once exactly those other fields that can be reached from the field along
one edge or more. -/
theorem affectedBy_exact (ops : List Op) (name : FieldName) :
    (∃ k ≤ (built ops).size,
      (built ops).Spreads k (Names.remove name (Table.keys (built ops).subscriptions))
        ((built ops).subscribersOf name) ((built ops).affectedBy name)) ∧
      ((built ops).affectedBy name).Nodup ∧
      ∀ x, x ∈ (built ops).affectedBy name ↔
        x ≠ name ∧ Relation.TransGen (fun t s => (t, s) ∈ relation ops) name x := by
  have hedges : (built ops).Leads = fun t s => (t, s) ∈ relation ops := by
    funext t s
    exact propext ((sound_built ops s t).trans (has_built ops t s))
  refine ⟨spreads_affectedBy (neat_built ops) name, nodup_spread _ _, fun x => ?_⟩
  rw [(sound_built ops).mem_affectedBy_iff, hedges]

/-- Going round in a cycle finds everybody but the field itself. -/
example : (built [.subscribe (.text "a") (.text "b"), .subscribe (.text "b") (.text "c"),
    .subscribe (.text "c") (.text "a")]).affectedBy (.text "a") = [.text "b", .text "c"] := by cbv

end Graph

end LiveForm
