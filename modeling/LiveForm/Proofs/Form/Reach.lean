import Mathlib
import LiveForm.Proofs.Form.Walk
import LiveForm.Proofs.Graph.Closure

/-!
# How far a change reaches

A change is written, and the walk that passes it on gives values to other fields. Whatever the
conditions say, the walk follows the graph (`Graph.Walks`): it ends, comes to a field at most once,
and comes only to fields that are affected by the change. A field to which a value is given is written
once, without being touched, and nothing else is written (`Form.change_contained`).
-/

namespace LiveForm

open Form (Visit)

/-! ### Walks along the graph -/

namespace Graph

variable {g : Graph} {k : Nat} {unseen : FieldNames} {queue : List FieldName} {visits : List Visit}

/-- A walk through a queue ends after a number of passes, each of which takes the first out of the
queue, and has made these visits. Where a value is given, the subscribers of the field are queued. -/
inductive Walks (g : Graph) : Nat → FieldNames → List FieldName → List Visit → Prop
  | done (unseen : FieldNames) : Walks g 0 unseen [] []
  | skip {k : Nat} {unseen : FieldNames} {n : FieldName} {rest : List FieldName}
      {visits : List Visit} : n ∉ unseen → Walks g k unseen rest visits →
      Walks g (k + 1) unseen (n :: rest) visits
  | visit {k : Nat} {unseen : FieldNames} {n : FieldName} {rest : List FieldName} {given : Bool}
      {later : List Visit} : n ∈ unseen →
      Walks g k (Names.remove n unseen)
        (rest ++ if given then FieldName.sorted (g.subscribersOf n) else []) later →
      Walks g (k + 1) unseen (n :: rest) (⟨n, given⟩ :: later)

namespace Walks

theorem mem_unseen (h : g.Walks k unseen queue visits) : ∀ w ∈ visits, w.name ∈ unseen := by
  induction h with
  | done => exact List.forall_mem_nil _
  | skip _ _ ih => exact ih
  | visit hn _ ih => exact List.forall_mem_cons.2 ⟨hn, fun w hw => (Names.mem_remove.1 (ih w hw)).1⟩

/-- No field is visited twice. -/
theorem nodup (h : g.Walks k unseen queue visits) : (visits.map Visit.name).Nodup := by
  induction h with
  | done => exact List.nodup_nil
  | skip _ _ ih => exact ih
  | @visit _ _ n _ _ _ _ hlater ih =>
    rw [List.map_cons]
    refine List.nodup_cons.2 ⟨fun hmem => ?_, ih⟩
    obtain ⟨w, hw, hname⟩ := List.mem_map.1 hmem
    exact (Names.mem_remove.1 (hlater.mem_unseen w hw)).2 hname

/-- A walk stays inside every set that holds its queue and is closed under edges to fields that have
not been seen. -/
theorem mem_of_closed (h : g.Walks k unseen queue visits) {S : Set FieldName}
    (hqueue : ∀ n ∈ queue, n ∈ unseen → n ∈ S)
    (hclosed : ∀ t ∈ S, ∀ s, g.Leads t s → s ∈ unseen → s ∈ S) : ∀ w ∈ visits, w.name ∈ S := by
  induction h with
  | done => exact List.forall_mem_nil _
  | skip _ _ ih => exact ih (fun n hn => hqueue n (List.mem_cons_of_mem _ hn)) hclosed
  | @visit _ unseen n rest given _ hn _ ih =>
    have hin : n ∈ S := hqueue n List.mem_cons_self hn
    have hless {m : FieldName} (hm : m ∈ Names.remove n unseen) : m ∈ unseen :=
      (Names.mem_remove.1 hm).1
    refine List.forall_mem_cons.2 ⟨hin, ih (fun m hm hunseen => ?_) fun t ht s hs hunseen =>
      hclosed t ht s hs (hless hunseen)⟩
    rcases List.mem_append.1 hm with hrest | hnew
    · exact hqueue m (List.mem_cons_of_mem _ hrest) (hless hunseen)
    · cases given with
      | false => exact absurd hnew List.not_mem_nil
      | true => exact hclosed n hin m (FieldName.mem_sorted.1 hnew) (hless hunseen)

/-- A walk from the subscribers of a field comes only to fields that are affected by it. -/
theorem mem_affectedBy {name : FieldName}
    (h : g.Walks k (Names.remove name (Table.keys g.subscriptions))
      (FieldName.sorted (g.subscribersOf name)) visits) :
    ∀ w ∈ visits, w.name ∈ g.affectedBy name :=
  h.mem_of_closed (S := {n | n ∈ g.affectedBy name})
    (fun _ hn hunseen => mem_spread_of_queued hunseen (FieldName.mem_sorted.1 hn))
    fun _ ht _ hedge hunseen => mem_spread_of_edge ht hedge hunseen

end Walks

end Graph

namespace Form

variable {host : Host} {f f' f'' : Form} {name : FieldName} {v : Value} {log log' : Log}

/-! ### Giving values to several fields -/

/-- The form once values have been given to fields, one after the other. -/
def givenAll (f : Form) (gifts : List (FieldName × Value)) : Form :=
  gifts.foldl (fun f gift => f.written gift.1 gift.2 false true) f

/-- The fields that were given a value on a walk, in order. -/
def givenNames (visits : List Visit) : List FieldName :=
  (visits.filter Visit.given).map Visit.name

/-- The values of some fields have been written, by nobody's touch. The rest of the form, the marks
of other fields and their values are what they were. -/
structure Frame (names : List FieldName) (f f' : Form) : Prop where
  definition : f'.definition = f.definition
  graph : f'.graph = f.graph
  autoSave : f'.autoSave = f.autoSave
  touched : f'.store.touched = f.store.touched
  dirty : ∀ m, m ∉ names → (m ∈ f'.store.dirty ↔ m ∈ f.store.dirty)
  values : ∀ k : Key, (∀ n ∈ names, ¬ n.key.Meets k) →
    Table.get? k f'.store.values = Table.get? k f.store.values

theorem Frame.refl (names : List FieldName) (f : Form) : Frame names f f :=
  ⟨rfl, rfl, rfl, rfl, fun _ _ => .rfl, fun _ _ => rfl⟩

theorem Frame.trans {names later : List FieldName} (h : Frame names f f')
    (g : Frame later f' f'') : Frame (names ++ later) f f'' where
  definition := g.definition.trans h.definition
  graph := g.graph.trans h.graph
  autoSave := g.autoSave.trans h.autoSave
  touched := g.touched.trans h.touched
  dirty m hm := (g.dirty m fun hin => hm (List.mem_append_right _ hin)).trans
    (h.dirty m fun hin => hm (List.mem_append_left _ hin))
  values k hk := (g.values k fun n hn => hk n (List.mem_append_right _ hn)).trans
    (h.values k fun n hn => hk n (List.mem_append_left _ hn))

section

variable (f : Form) (name : FieldName) (v : Value) (touch validate : Bool)

/-- Writing a value writes the values, the touched and the dirty ones as the store does. -/
theorem written_store : (f.written name v touch validate).store.values =
      (f.store.write name v touch).values ∧
    (f.written name v touch validate).store.touched = (f.store.write name v touch).touched ∧
    (f.written name v touch validate).store.dirty = (f.store.write name v touch).dirty := by
  unfold written
  dsimp only
  split <;> exact ⟨rfl, rfl, rfl⟩

theorem written_dirty {m : FieldName} (hm : m ≠ name) :
    m ∈ (f.written name v touch validate).store.dirty ↔ m ∈ f.store.dirty := by
  rw [(written_store f name v touch validate).2.2]
  unfold Store.write
  dsimp only
  split
  · rw [Names.mem_remove]
    exact and_iff_left hm
  · rw [Names.mem_add]
    exact or_iff_left hm

theorem written_values {k : Key} (hk : ¬ name.key.Meets k) :
    Table.get? k (f.written name v touch validate).store.values =
      Table.get? k f.store.values := by
  rw [(written_store f name v touch validate).1]
  exact Table.get?_put_of_not_meets hk v f.store.values

theorem mem_written_touched {m : FieldName} :
    m ∈ (f.written name v true validate).store.touched ↔ m ∈ f.store.touched ∨ m = name := by
  rw [(written_store f name v true validate).2.1]
  exact Names.mem_add

end

theorem written_frame (f : Form) (name : FieldName) (v : Value) (validate : Bool) :
    Frame [name] f (f.written name v false validate) where
  definition := rfl
  graph := rfl
  autoSave := rfl
  touched := (written_store f name v false validate).2.1
  dirty _ hm := written_dirty f name v false validate (List.ne_of_not_mem_cons hm)
  values _ hk := written_values f name v false validate (hk name List.mem_cons_self)

theorem givenAll_frame (f : Form) (gifts : List (FieldName × Value)) :
    Frame (gifts.map Prod.fst) f (f.givenAll gifts) := by
  induction gifts generalizing f with
  | nil => exact .refl _ f
  | cons gift gifts ih => exact (written_frame f gift.1 gift.2 true).trans (ih _)

/-! ### The walk follows the graph -/

/-- Coming to a field gives it a value or leaves everything as it is. -/
theorem applySetOf_given {given : Bool}
    (h : (applySetOf host name).runOn f log = (.ok given, f', log')) :
    (given = false ∧ f' = f) ∨ (given = true ∧ ∃ v, f' = f.written name v false true) := by
  rw [applySetOf, FormOp.runOn_get_bind] at h
  split at h
  · obtain ⟨-, -, ⟨hgiven, hform, -⟩ | ⟨hgiven, v, -, hform⟩⟩ := applySet_cases h
    · exact .inl ⟨hgiven, hform⟩
    · exact .inr ⟨hgiven, v, hform⟩
  · obtain ⟨rfl, rfl, -⟩ := FormOp.runOn_pure_ok.1 h
    exact .inl ⟨rfl, rfl⟩

/-- **The walk ends, and writes what it tells.** It takes no more passes than there are names in the
queue and edges that lead away from fields that have not been seen. -/
theorem tour_walks {unseen : FieldNames} {queue : List FieldName} {visits : List Visit}
    (h : (tour host unseen queue).runOn f log = (.ok visits, f', log')) :
    (∃ k ≤ queue.length + f.graph.outgoing unseen, f.graph.Walks k unseen queue visits) ∧
      ∃ gifts, gifts.map Prod.fst = givenNames visits ∧ f' = f.givenAll gifts := by
  induction unseen, queue using tour.induct generalizing f log visits with
  | case1 unseen =>
    rw [tour] at h
    obtain ⟨rfl, rfl, -⟩ := FormOp.runOn_pure_ok.1 h
    exact ⟨⟨0, Nat.zero_le _, .done unseen⟩, [], rfl, rfl⟩
  | case2 unseen name rest hmem _ ih =>
    obtain ⟨given, f₁, log₁, later, happly, htour, rfl⟩ := tour_visits hmem h
    simp only [dite_eq_ite] at ih
    obtain ⟨⟨k, hk, hwalks⟩, gifts, hgifts, rfl⟩ := ih given f₁ htour
    have hless := Graph.outgoing_remove (g := f.graph) hmem
    have hsorted : (FieldName.sorted (f.graph.subscribersOf name)).length =
        (f.graph.subscribersOf name).length := List.length_mergeSort _
    rw [List.length_append] at hk
    rw [List.length_cons]
    rcases applySetOf_given happly with ⟨rfl, rfl⟩ | ⟨rfl, v, rfl⟩
    · refine ⟨⟨k + 1, ?_, .visit hmem hwalks⟩, gifts, hgifts, rfl⟩
      simp only [Bool.false_eq_true, if_false, List.length_nil] at hk
      omega
    · refine ⟨⟨k + 1, ?_, .visit hmem hwalks⟩, (name, v) :: gifts, ?_, rfl⟩
      · simp only [if_true, written_graph] at hk
        omega
      · rw [List.map_cons, hgifts]
        rfl
  | case3 unseen name rest hmem ih =>
    rw [tour, dif_neg hmem] at h
    obtain ⟨⟨k, hk, hwalks⟩, hgifts⟩ := ih h
    refine ⟨⟨k + 1, ?_, .skip hmem hwalks⟩, hgifts⟩
    rw [List.length_cons]
    omega

/-! ### Entering a change -/

/-- A change that has been entered has touched its field, and only there can the marks and the values
differ. -/
theorem Entered.same {f₁ : Form} (h : Entered f name v f₁) :
    f₁.graph = f.graph ∧ (∀ m, m ∈ f₁.store.touched ↔ m ∈ f.store.touched ∨ m = name) ∧
      (∀ m, m ≠ name → (m ∈ f₁.store.dirty ↔ m ∈ f.store.dirty)) ∧
      ∀ k : Key, ¬ name.key.Meets k →
        Table.get? k f₁.store.values = Table.get? k f.store.values := by
  refine ⟨h.noted.graph, ?_⟩
  rw [h.noted.store]
  exact ⟨fun m => mem_written_touched f name v true, fun m hm => written_dirty f name v true true hm,
    fun k hk => written_values f name v true true hk⟩

/-- A form that saves itself notes a change together with the fields that it affects. -/
theorem Entered.pending {f₁ : Form} (h : Entered f name v f₁) (hauto : f.definition.autoSave = true)
    {m : FieldName} (hm : m = name ∨ m ∈ f.graph.affectedBy name) :
    m ∈ f₁.autoSave.pending.changed ∨ m ∈ f₁.autoSave.pending.affected := by
  cases h with
  | saved _ _ =>
    rcases hm with rfl | hm
    · exact .inl (Names.mem_union.2 (.inr List.mem_cons_self))
    · exact .inr (Names.mem_union.2 (.inr hm))
  | unsaved hno => exact absurd (hauto.symm.trans hno) (by decide)

/-! ### What a change comes to -/

/-- What a change that has made these visits comes to. -/
structure Contained (f : Form) (name : FieldName) (v : Value) (visits : List Visit) (f' : Form) :
    Prop where
  /-- The walk ends, after no more passes than there are edges to go along. -/
  ends : ∃ k ≤ (f.graph.subscribersOf name).length +
      f.graph.outgoing (Names.remove name (Table.keys f.graph.subscriptions)),
    f.graph.Walks k (Names.remove name (Table.keys f.graph.subscriptions))
      (FieldName.sorted (f.graph.subscribersOf name)) visits
  /-- It comes to no field twice, and not to the one that was changed. -/
  once : (name :: visits.map Visit.name).Nodup
  within : ∀ w ∈ visits, w.name ∈ f.graph.affectedBy name
  /-- The change is written, then one value for each field that the walk gives one, and in the end it
  is taken down who is disabled. Nothing else is done. -/
  stored : ∃ f₁ gifts disabled, Entered f name v f₁ ∧ gifts.map Prod.fst = givenNames visits ∧
    f' = { f₁.givenAll gifts with store := { (f₁.givenAll gifts).store with disabled } }
  /-- A value has changed only where the field or an affected one is stored. -/
  changed : ∀ k : Key, Table.get? k f'.store.values ≠ Table.get? k f.store.values →
    ∃ n : FieldName, (n = name ∨ n ∈ f.graph.affectedBy name) ∧ n.key.Meets k
  touched : ∀ m, m ∈ f'.store.touched ↔ m ∈ f.store.touched ∨ m = name
  dirty : ∀ m, ¬(m ∈ f'.store.dirty ↔ m ∈ f.store.dirty) →
    m = name ∨ m ∈ f.graph.affectedBy name
  pending : f.definition.autoSave = true → ∀ m, m = name ∨ m ∈ f.graph.affectedBy name →
    m ∈ f'.autoSave.pending.changed ∨ m ∈ f'.autoSave.pending.affected

/-- A value under a text has changed only if the text names the field itself or an affected one. -/
theorem Contained.changed_text {visits : List Visit} (h : Contained f name v visits f') {a : String}
    (ha : Table.get? (.text a) f'.store.values ≠ Table.get? (.text a) f.store.values) :
    .text a = name ∨ .text a ∈ f.graph.affectedBy name := by
  obtain ⟨⟨key⟩, hn, hmeets⟩ := h.changed (.text a) ha
  have hkey : key = .text a := hmeets.eq_text
  subst hkey
  exact hn

/-- **A change stays within the fields that it affects.** Let a change of a form return, with cycles
in its graph or without. Then the walk that passes the change on ends, comes once to each field to
which it comes, and comes to affected fields only. What is written is the change and one value for
each field that is given one; so nobody's value and no mark of being dirty changes but for the field
itself and the affected ones, no other field is touched, and all of these wait to be saved if the
form saves itself. -/
theorem change_contained (h : (changeField host name v).runOn f log = (.ok (), f', log')) :
    ∃ visits, (changeTold host name v).runOn f log = (.ok visits, f', log') ∧
      Contained f name v visits f' := by
  obtain ⟨visits, htold⟩ := changeField_returned h
  obtain ⟨-, f₁, f₂, log₂, hentered, htour, hrefresh⟩ := changeTold_entered htold
  obtain ⟨hgraph, htouched, hdirty, hvalues⟩ := hentered.same
  rw [tourFrom, FormOp.runOn_get_bind] at htour
  obtain ⟨⟨k, hk, hwalks⟩, gifts, hgifts, rfl⟩ := tour_walks htour
  obtain ⟨disabled, -, rfl⟩ := refreshDisabled_returned hrefresh
  rw [hgraph] at hwalks hk
  rw [show (FieldName.sorted (f.graph.subscribersOf name)).length =
    (f.graph.subscribersOf name).length from List.length_mergeSort _] at hk
  have hwithin := hwalks.mem_affectedBy
  have hframe := givenAll_frame f₁ gifts
  -- a field that is neither the changed one nor affected has not been given a value
  have hgiven {m : FieldName} (hm : m ∉ f.graph.affectedBy name) : m ∉ gifts.map Prod.fst := by
    rw [hgifts]
    intro hin
    obtain ⟨w, hw, rfl⟩ := List.mem_map.1 hin
    exact hm (hwithin w (List.mem_filter.1 hw).1)
  refine ⟨visits, htold, ⟨k, hk, hwalks⟩, ?_, hwithin, ⟨f₁, gifts, disabled, hentered, hgifts, rfl⟩,
    fun k' ha => ?_, fun m => ?_, fun m hm => ?_, fun hauto m hm => ?_⟩
  · refine List.nodup_cons.2 ⟨fun hin => ?_, hwalks.nodup⟩
    obtain ⟨w, hw, hname⟩ := List.mem_map.1 hin
    exact (Names.mem_remove.1 (hwalks.mem_unseen w hw)).2 hname
  · by_contra hno
    have hmeets {n : FieldName} (hn : n = name ∨ n ∈ f.graph.affectedBy name) :
        ¬ n.key.Meets k' := fun hmeets => hno ⟨n, hn, hmeets⟩
    refine ha ((hframe.values k' fun n hn => ?_).trans (hvalues k' (hmeets (.inl rfl))))
    by_cases haffected : n ∈ f.graph.affectedBy name
    · exact hmeets (.inr haffected)
    · exact absurd hn (hgiven haffected)
  · show m ∈ (f₁.givenAll gifts).store.touched ↔ _
    rw [hframe.touched]
    exact htouched m
  · by_contra hno
    rw [not_or] at hno
    exact hm ((hframe.dirty m (hgiven hno.2)).trans (hdirty m hno.1))
  · show m ∈ (f₁.givenAll gifts).autoSave.pending.changed ∨ _
    rw [hframe.autoSave]
    exact hentered.pending hauto hm

/-! ### A ring of fields -/

namespace Ring

/-- A field that takes over from another one, in which there is a one. -/
def follower (name source : String) (v : Value) : Field where
  name := .text name
  conditions := [
    { when := .field source, matcher := { is := some (.int 1) }, set := some v }]

def definition : Definition where
  name := .text "ring"
  autoSave := true
  fields := [(.text "a", follower "a" "c" (.int 2)), (.text "b", follower "b" "a" (.int 1)),
    (.text "c", follower "c" "b" (.int 1)), (.text "d", { name := .text "d" })]

def store : Store where
  values := [(.text "a", .null), (.text "b", .null), (.text "c", .null), (.text "d", .null)]
  defaults := [(.text "a", .null), (.text "b", .null), (.text "c", .null), (.text "d", .null)]

/-- A form that saves itself, in which the changes of three fields go round. -/
def form : Form where
  definition := definition
  registry := {}
  settings := {}
  store := store
  debounce := .int 1000
  graph := {
    subscribers := [(.text "c", [.text "a"]), (.text "a", [.text "b"]), (.text "b", [.text "c"])]
    subscriptions := [(.text "a", [.text "c"]), (.text "b", [.text "a"]), (.text "c", [.text "b"])]
    registered := [.text "a", .text "b", .text "c", .text "d"] }
  clock := some 0

/-- The form in which `a` has been changed. The change has come round to `a` itself, which keeps its
value. -/
def turned : Form :=
  { form with
    store :=
      { store with
        values := [(.text "a", .int 1), (.text "b", .int 1), (.text "c", .int 1),
          (.text "d", .null)]
        touched := [.text "a"]
        dirty := [.text "a", .text "b", .text "c"]
        running := [(.text "a", 1), (.text "b", 1), (.text "c", 1)]
        latest := [(.text "a", 1), (.text "b", 2), (.text "c", 3)]
        begun := 3
        waiting := [⟨.text "a", .int 1, 1⟩, ⟨.text "b", .int 1, 2⟩, ⟨.text "c", .int 1, 3⟩] }
    autoSave :=
      { version := 1
        pending := ⟨[.text "a"], [.text "b", .text "c"]⟩
        timer := some 1000000 } }

theorem told : (changeTold Billing.host (.text "a") (.int 1)).runOn form [] =
    (.ok [⟨.text "b", true⟩, ⟨.text "c", true⟩], turned, []) := by
  cbv

theorem changed : (changeField Billing.host (.text "a") (.int 1)).runOn form [] =
    (.ok (), turned, []) := by
  rw [changeField_eq_changeTold, FormOp.runOn_bind, told]
  rfl

end Ring

/-- A change that goes round in a ring gives each of the other fields a value, and ends. -/
theorem change_contained_ring :
    (changeField Billing.host (.text "a") (.int 1)).runOn Ring.form [] = (.ok (), Ring.turned, []) ∧
      Contained Ring.form (.text "a") (.int 1) [⟨.text "b", true⟩, ⟨.text "c", true⟩]
        Ring.turned := by
  refine ⟨Ring.changed, ?_⟩
  obtain ⟨visits, htold, hcontained⟩ := change_contained Ring.changed
  have hvisits : [⟨.text "b", true⟩, ⟨.text "c", true⟩] = visits :=
    Except.ok.inj (congrArg Prod.fst (Ring.told.symm.trans htold))
  exact hvisits ▸ hcontained

end Form

end LiveForm
