import Mathlib
import LiveForm.Proofs.Form.Disabled
import LiveForm.Proofs.Form.Edits
import LiveForm.Proofs.Graph.Relation

/-!
# What is mounted

Once a form has been set up, its fields can be taken out of it and put back in any order. All the
while its graph has an edge from each mounted field to each field that it reads, and no others
(`Form.graph_mirrors_mounted`). Mounting and unmounting are operations on the graph whose edges are
known, so that only the edges of one subscriber change; and each mounted field has the edges that
its definition gives it, so that it does not matter what has been mounted before.
-/

namespace LiveForm

namespace Graph

variable {g : Graph}

/-! ### Who is registered -/

theorem registered_subscribe (t s : FieldName) : (g.subscribe t s).registered = g.registered := by
  unfold subscribe
  split
  · rfl
  · rfl

theorem registered_unsubscribe (t s : FieldName) :
    (g.unsubscribe t s).registered = g.registered := rfl

theorem registered_foldl {step : Graph → FieldName → Graph}
    (hstep : ∀ (g : Graph) t, (step g t).registered = g.registered) (targets : List FieldName) :
    (targets.foldl step g).registered = g.registered := by
  induction targets generalizing g with
  | nil => rfl
  | cons t targets ih => exact ih.trans (hstep g t)

theorem registered_setSubscriptions (s : FieldName) (targets : List FieldName) :
    (g.setSubscriptions s targets).registered = g.registered :=
  (registered_foldl (fun _ t => registered_subscribe t s) _).trans
    (registered_foldl (fun _ t => registered_unsubscribe t s) _)

theorem registered_unregister (s : FieldName) :
    (g.unregister s).registered = Names.remove s g.registered :=
  registered_foldl (fun _ t => registered_unsubscribe t s) _

end Graph

namespace Form

variable {host : Host} {f f' : Form} {name x : FieldName} {subs : FieldNames}
  {mounted : Set FieldName} {log log' : Log}

/-! ### Mounting and unmounting -/

/-- A field is mounted or unmounted. -/
inductive Fitting where
  | mount (name : FieldName)
  | unmount (name : FieldName)

namespace Fitting

/-- The field. -/
def field : Fitting → FieldName
  | mount name | unmount name => name

/-- The operation on the form. -/
def op : Fitting → FormOp Unit
  | mount name => Form.mount name
  | unmount name => Form.unmount name

/-- Which fields are mounted afterwards. A field that the form does not have is not mounted. -/
def update (f : Form) (mounted : Set FieldName) : Fitting → Set FieldName
  | mount name => {n | n ∈ mounted ∨ n = name ∧ f.IsField n}
  | unmount name => {n | n ∈ mounted ∧ n ≠ name}

end Fitting

/-- The form and the log after fields have been mounted and unmounted in turn, whether or not some
of these operations fail. -/
def fitted (f : Form) (log : Log) (fittings : List Fitting) : Form × Log :=
  fittings.foldl (fun s fitting => (fitting.op.runOn s.1 s.2).2) (f, log)

/-- The fields that are mounted after some have been mounted and unmounted in a form that had all
its fields mounted. -/
def mountedAfter (f : Form) (fittings : List Fitting) : Set FieldName :=
  fittings.foldl (Fitting.update f) {n | f.IsField n}

theorem fitted_snoc (fittings : List Fitting) (fitting : Fitting) :
    f.fitted log (fittings ++ [fitting]) =
      (fitting.op.runOn (f.fitted log fittings).1 (f.fitted log fittings).2).2 :=
  List.foldl_concat ..

theorem mountedAfter_snoc (fittings : List Fitting) (fitting : Fitting) :
    f.mountedAfter (fittings ++ [fitting]) = fitting.update f (f.mountedAfter fittings) :=
  List.foldl_concat ..

/-- The form with a field mounted that depends on some others. -/
def attached (f : Form) (name : FieldName) (subs : FieldNames) : Form :=
  { f with graph := (f.graph.register name).setSubscriptions name subs }

/-- The form with a field taken out of its graph. -/
def detached (f : Form) (name : FieldName) : Form :=
  { f with graph := f.graph.unregister name }

/-- What a form knows of the subscriptions of a field, it knows of a field that it has. -/
theorem field_of_subscriptionsFor (h : f.subscriptionsFor name = .ok subs) :
    ∃ field, f.field name = .ok field := by
  obtain ⟨field, -, hfield, -, -⟩ := mem_subscriptions h
  exact ⟨field, hfield⟩

/-- A field whose subscriptions are known is mounted with them. -/
theorem mount_runOn (h : f.subscriptionsFor name = .ok subs) :
    (mount name).runOn f log = (.ok (), f.attached name subs, log) := by
  obtain ⟨field, hfield⟩ := field_of_subscriptionsFor h
  have hsame : ({ f with graph := f.graph.register name } : Form).subscriptionsFor name = .ok subs :=
    (subscriptionsFor_eq rfl name).trans h
  rw [mount, FormOp.runOn_bind, FormOp.runOn_look, hfield]
  simp only [Logged.ofExcept]
  rw [FormOp.runOn_bind, FormOp.runOn_change]
  dsimp only
  rw [FormOp.runOn_bind, FormOp.runOn_look, hsame]
  rfl

/-- The subscriptions of a field that is mounted without a fault are known. -/
theorem subscriptionsFor_of_mount (h : (mount name).runOn f log = (.ok (), f', log')) :
    ∃ subs, f.subscriptionsFor name = .ok subs := by
  rw [mount, FormOp.runOn_bind_ok] at h
  obtain ⟨field, f₁, log₁, hfield, h⟩ := h
  obtain ⟨-, rfl, rfl⟩ := FormOp.runOn_look_ok.1 hfield
  rw [FormOp.runOn_bind, FormOp.runOn_change] at h
  dsimp only at h
  rw [FormOp.runOn_bind_ok] at h
  obtain ⟨subs, f₂, log₂, hlook, -⟩ := h
  refine ⟨subs, (subscriptionsFor_eq rfl name).symm.trans (congrArg Prod.fst hlook)⟩

/-- A field that the form does not have is refused. -/
theorem mount_undefined (h : ¬f.IsField name) (log : Log) :
    (mount name).runOn f log = (.error (f.noField name), f, log) := by
  have hfield : f.field name = .error (f.noField name) := by
    unfold field
    cases hfound : Table.get? name f.definition.fields with
    | none => rfl
    | some field => exact absurd (by simp [IsField, hasField, Table.has, hfound]) h
  rw [mount, FormOp.runOn_bind, FormOp.runOn_look, hfield]
  rfl

/-! ### The graph of what is mounted -/

/-- The edges from mounted fields to the fields that they read. -/
def wiring (f : Form) (mounted : Set FieldName) : Graph.Relation :=
  {e | e.2 ∈ mounted ∧ ∃ subs, f.subscriptionsFor e.2 = .ok subs ∧ e.1 ∈ subs}

theorem loopless_wiring (mounted : Set FieldName) (n : FieldName) : (n, n) ∉ f.wiring mounted := by
  rintro ⟨-, subs, hsubs, hmem⟩
  exact ne_of_mem_subscriptionsFor hsubs hmem rfl

theorem wiring_congr (h : f'.definition = f.definition) (mounted : Set FieldName) :
    f'.wiring mounted = f.wiring mounted := by
  simp only [wiring, subscriptionsFor_eq h]

/-- The graph has the edges of the mounted fields, in two neat tables, and tells who is mounted. -/
structure Mounted (f : Form) (mounted : Set FieldName) : Prop where
  sound : f.graph.Sound
  neat : f.graph.Neat
  has : f.graph.Has (f.wiring mounted)
  registered : ∀ n, n ∈ f.graph.registered ↔ n ∈ mounted

namespace Mounted

theorem empty (h : f.graph = {}) : f.Mounted ∅ where
  sound := h ▸ Graph.sound_empty
  neat := h ▸ ⟨.empty, .empty⟩
  has := by
    intro t s
    rw [h]
    exact iff_of_false List.not_mem_nil fun he => he.1
  registered := by
    intro n
    rw [h]
    exact iff_of_false List.not_mem_nil id

theorem of_same (h : f.Mounted mounted) (hdefinition : f'.definition = f.definition)
    (hgraph : f'.graph = f.graph) : f'.Mounted mounted where
  sound := hgraph ▸ h.sound
  neat := hgraph ▸ h.neat
  has := by
    rw [hgraph, wiring_congr hdefinition]
    exact h.has
  registered := hgraph ▸ h.registered

/-- Mounting a field makes its edges, whatever edges it had. -/
theorem attached (h : f.Mounted mounted) (hsubs : f.subscriptionsFor name = .ok subs) :
    (f.attached name subs).Mounted {n | n ∈ mounted ∨ n = name} where
  sound := (h.sound.run (.register name)).run (.setSubscriptions name subs)
  neat := (h.neat.run (.register name)).run (.setSubscriptions name subs)
  has := by
    intro t s
    refine (((h.has.run (.register name)).run (.setSubscriptions name subs)) t s).trans ?_
    rw [wiring_congr (show (f.attached name subs).definition = f.definition from rfl)]
    change (if s = name then t ∈ subs ∧ t ≠ name else (t, s) ∈ f.wiring mounted) ↔ _
    by_cases hs : s = name
    · subst hs
      rw [if_pos rfl]
      constructor
      · rintro ⟨ht, -⟩
        exact ⟨.inr rfl, subs, hsubs, ht⟩
      · rintro ⟨-, subs', hsubs', ht⟩
        obtain rfl := Except.ok.inj (hsubs.symm.trans hsubs')
        exact ⟨ht, ne_of_mem_subscriptionsFor hsubs ht⟩
    · rw [if_neg hs]
      exact and_congr_left fun _ => ⟨.inl, fun hmem => hmem.resolve_right hs⟩
  registered := by
    intro n
    have hregistered : (f.attached name subs).graph.registered = Names.add name f.graph.registered :=
      Graph.registered_setSubscriptions name subs
    rw [hregistered, Names.mem_add, h.registered n]
    rfl

/-- Unmounting a field ends its edges, and leaves those that lead to it. -/
theorem detached (h : f.Mounted mounted) (name : FieldName) :
    (f.detached name).Mounted {n | n ∈ mounted ∧ n ≠ name} where
  sound := h.sound.run (.unregister name)
  neat := h.neat.run (.unregister name)
  has := by
    intro t s
    refine ((h.has.run (.unregister name)) t s).trans ?_
    rw [wiring_congr (show (f.detached name).definition = f.definition from rfl)]
    exact and_right_comm
  registered := by
    intro n
    have hregistered : (f.detached name).graph.registered = Names.remove name f.graph.registered :=
      Graph.registered_unregister name
    rw [hregistered, Names.mem_remove, h.registered n]
    rfl

theorem refines (h : f.Mounted mounted) : f.graph.Refines (f.wiring mounted) :=
  Graph.refines_of_has h.sound h.neat h.has (loopless_wiring mounted)

open Classical in
/-- The fields that are not used are those that are not mounted. -/
theorem unusedFields (h : f.Mounted mounted) :
    f.unusedFields = f.fieldNames.filter fun n => n ∉ mounted := by
  refine List.filter_congr fun n _ => ?_
  rw [Bool.eq_iff_iff, decide_eq_true_iff, Bool.not_eq_true', ← Bool.not_eq_true, ← h.registered n]
  exact not_congr List.contains_iff_mem

end Mounted

/-! ### Forms that have been set up -/

/-- It is known of each field of the form what it subscribes to. -/
def Readable (f : Form) : Prop :=
  ∀ n, f.IsField n → ∃ subs, f.subscriptionsFor n = .ok subs

theorem Readable.of_same (h : f.Readable) (hdefinition : f'.definition = f.definition) :
    f'.Readable := by
  intro n hn
  rw [subscriptionsFor_eq hdefinition]
  exact h n ((isField_iff hdefinition n).1 hn)

theorem mountAll_returned {names : List FieldName} (h : f.Mounted mounted)
    (hmount : (mountAll names).runOn f log = (.ok (), f', log')) :
    f'.definition = f.definition ∧ f'.Mounted {n | n ∈ mounted ∨ n ∈ names} ∧
      ∀ n ∈ names, ∃ subs, f.subscriptionsFor n = .ok subs := by
  induction names generalizing f mounted log with
  | nil =>
    obtain ⟨-, rfl, rfl⟩ := FormOp.runOn_pure_ok.1 hmount
    refine ⟨rfl, ?_, List.forall_mem_nil _⟩
    simpa only [List.not_mem_nil, or_false, Set.ofPred_mem_eq] using h
  | cons name rest ih =>
    rw [mountAll, FormOp.runOn_bind_ok] at hmount
    obtain ⟨_, f₁, log₁, hfirst, hrest⟩ := hmount
    obtain ⟨subs, hsubs⟩ := subscriptionsFor_of_mount hfirst
    rw [mount_runOn hsubs] at hfirst
    obtain ⟨rfl, rfl⟩ : f.attached name subs = f₁ ∧ log = log₁ := by simpa using hfirst
    obtain ⟨hdefinition, hmounted, hknown⟩ := ih (h.attached hsubs) hrest
    refine ⟨hdefinition, ?_, ?_⟩
    · simpa only [Set.mem_ofPred_eq, or_assoc, List.mem_cons] using hmounted
    · exact List.forall_mem_cons.2 ⟨⟨subs, hsubs⟩, hknown⟩

/-- The definition and the graph are the same. -/
structure Unmoved (f f' : Form) : Prop where
  definition : f'.definition = f.definition
  graph : f'.graph = f.graph

instance : IsPreorder Form Unmoved where
  refl _ := ⟨rfl, rfl⟩
  trans _ _ _ h g := ⟨g.definition.trans h.definition, g.graph.trans h.graph⟩

/-- In a form that has been set up all fields are mounted. -/
theorem setUp_mounted (hempty : f.graph = {})
    (h : (setUp host).runOn f log = (.ok (), f', log')) :
    f'.definition = f.definition ∧ f'.Readable ∧ f'.Mounted {n | f'.IsField n} := by
  rw [setUp, FormOp.runOn_get_bind, FormOp.runOn_bind_ok] at h
  obtain ⟨_, f₁, log₁, hmount, h⟩ := h
  obtain ⟨hdefinition, hmounted, hknown⟩ := mountAll_returned (.empty hempty) hmount
  have hrest : Unmoved f₁ f' := by
    have hsets : FormOp.Keeps Unmoved (applyInitialSets host f.fieldNames) :=
      applyInitialSets_keeps host (fun _ _ _ _ => ⟨rfl, rfl⟩) _
    have hkeeps := (hsets.bind fun _ =>
      refreshDisabled_keeps host fun _ _ _ => ⟨rfl, rfl⟩) f₁ log₁
    rwa [h] at hkeeps
  have hall : f'.definition = f.definition := hrest.definition.trans hdefinition
  have hreadable : f.Readable := fun n hn => hknown n (mem_fieldNames.2 hn)
  have hfields : {n | n ∈ (∅ : Set FieldName) ∨ n ∈ f.fieldNames} = {n | f'.IsField n} := by
    ext n
    simp [mem_fieldNames, isField_iff hall]
  exact ⟨hall, hreadable.of_same hall, hfields ▸ hmounted.of_same hrest.definition hrest.graph⟩

/-! ### What mounting and unmounting keep -/

/-- Mounting or unmounting one field keeps the graph as it has to be. -/
theorem Mounted.run (h : f.Mounted mounted) (hreadable : f.Readable) (fitting : Fitting)
    (log : Log) : (fitting.op.runOn f log).2.1.definition = f.definition ∧
      (fitting.op.runOn f log).2.1.Mounted (fitting.update f mounted) := by
  cases fitting with
  | unmount name => exact ⟨rfl, h.detached name⟩
  | mount name =>
    by_cases hfield : f.IsField name
    · obtain ⟨subs, hsubs⟩ := hreadable name hfield
      have hupdate : (Fitting.mount name).update f mounted = {n | n ∈ mounted ∨ n = name} :=
        Set.ext fun n => or_congr_right (and_iff_left_of_imp fun hn => hn ▸ hfield)
      rw [hupdate, Fitting.op, mount_runOn hsubs]
      exact ⟨rfl, h.attached hsubs⟩
    · have hupdate : (Fitting.mount name).update f mounted = mounted :=
        Set.ext fun n => or_iff_left fun hn => hfield (hn.1 ▸ hn.2)
      rw [hupdate, Fitting.op, mount_undefined hfield log]
      exact ⟨rfl, h⟩

theorem Fitting.update_congr (h : f'.definition = f.definition) (fitting : Fitting)
    (mounted : Set FieldName) : fitting.update f' mounted = fitting.update f mounted := by
  cases fitting with
  | mount name => simp only [update, isField_iff h]
  | unmount name => rfl

/-- Mounting and unmounting fields in turn keeps the graph as it has to be. -/
theorem Mounted.fitted (h : f.Mounted {n | f.IsField n}) (hreadable : f.Readable) (log : Log)
    (fittings : List Fitting) : (f.fitted log fittings).1.definition = f.definition ∧
      (f.fitted log fittings).1.Mounted (f.mountedAfter fittings) := by
  induction fittings using List.reverseRecOn with
  | nil => exact ⟨rfl, h⟩
  | append_singleton fittings fitting ih =>
    obtain ⟨hdefinition, hmounted⟩ := ih
    have hstep := hmounted.run (hreadable.of_same hdefinition) fitting (f.fitted log fittings).2
    rw [fitted_snoc, mountedAfter_snoc, ← Fitting.update_congr hdefinition]
    exact ⟨hstep.1.trans hdefinition, hstep.2⟩

/-! ### The main theorem -/

theorem Fitting.mem_update (fitting : Fitting) (h : x ≠ fitting.field) :
    x ∈ fitting.update f mounted ↔ x ∈ mounted := by
  cases fitting with
  | mount name => exact or_iff_left fun hx => h hx.1
  | unmount name => exact and_iff_left h

/-- Mounting or unmounting a field leaves the targets of other fields. -/
theorem Mounted.others (h : f.Mounted mounted) (hreadable : f.Readable) (fitting : Fitting)
    (log : Log) {t : FieldName} (hx : x ≠ fitting.field) :
    t ∈ (fitting.op.runOn f log).2.1.graph.subscriptionsOf x ↔ t ∈ f.graph.subscriptionsOf x := by
  obtain ⟨hdefinition, hmounted⟩ := h.run hreadable fitting log
  rw [hmounted.has t x, h.has t x, wiring_congr hdefinition]
  exact and_congr_left fun _ => fitting.mem_update hx

/-- A field that is unmounted and mounted again has its edges back. -/
theorem Mounted.restored (h : f.Mounted mounted) (hreadable : f.Readable) (hfield : f.IsField name)
    (hname : name ∈ mounted) (log : Log) (t s : FieldName) :
    t ∈ (f.fitted log [.unmount name, .mount name]).1.graph.subscriptionsOf s ↔
      t ∈ f.graph.subscriptionsOf s := by
  have hagain := (h.detached name).run (hreadable.of_same rfl) (.mount name) log
  have hsame : (Fitting.mount name).update (f.detached name) {n | n ∈ mounted ∧ n ≠ name} =
      mounted := by
    ext n
    constructor
    · rintro (hn | ⟨rfl, -⟩)
      · exact hn.1
      · exact hname
    · intro hn
      by_cases hne : n = name
      · exact .inr ⟨hne, hne ▸ hfield⟩
      · exact .inl ⟨hn, hne⟩
  rw [hsame] at hagain
  obtain ⟨hdefinition, hmounted⟩ := hagain
  have hwiring : (f.detached name).wiring mounted = f.wiring mounted := wiring_congr rfl mounted
  refine (hmounted.has t s).trans ?_
  rw [h.has t s, wiring_congr hdefinition, hwiring]

open Classical in
/-- The graph of a form tells of the fields that are mounted in it, and it goes on to do so. -/
structure Mirrors (f : Form) (mounted : Set FieldName) : Prop where
  /-- The edges are those from mounted fields to the fields that they read. -/
  refines : f.graph.Refines (f.wiring mounted)
  /-- These edges are shown. -/
  shows : Graph.Shows f.graph.edges (f.wiring mounted)
  unused : f.unusedFields = f.fieldNames.filter fun n => n ∉ mounted
  /-- A field that the form has can be mounted. -/
  accepted : ∀ name log, f.IsField name → ∃ f', (mount name).runOn f log = (.ok (), f', log)
  /-- A field that the form does not have cannot be mounted, and to try it changes nothing. -/
  refused : ∀ name log, ¬f.IsField name →
    (mount name).runOn f log = (.error (f.noField name), f, log)
  /-- Whatever is done to one field, the edges of the others stay. -/
  others : ∀ (fitting : Fitting) (log : Log) (x t : FieldName), x ≠ fitting.field →
    (t ∈ (fitting.op.runOn f log).2.1.graph.subscriptionsOf x ↔ t ∈ f.graph.subscriptionsOf x)
  /-- When a mounted field is unmounted and mounted again, all edges are as they were. -/
  restored : ∀ name ∈ mounted, ∀ (log : Log) (t s : FieldName),
    t ∈ (f.fitted log [.unmount name, .mount name]).1.graph.subscriptionsOf s ↔
      t ∈ f.graph.subscriptionsOf s

theorem Mounted.mirrors (h : f.Mounted mounted) (hreadable : f.Readable)
    (hfields : ∀ n ∈ mounted, f.IsField n) : f.Mirrors mounted where
  refines := h.refines
  shows := h.refines.shows
  unused := h.unusedFields
  accepted name log hname := by
    obtain ⟨subs, hsubs⟩ := hreadable name hname
    exact ⟨_, mount_runOn hsubs⟩
  refused name log hname := mount_undefined hname log
  others fitting log x t hx := h.others hreadable fitting log hx
  restored name hname log t s := h.restored hreadable (hfields name hname) hname log t s

theorem isField_of_mountedAfter (fittings : List Fitting) (h : x ∈ f.mountedAfter fittings) :
    f.IsField x := by
  induction fittings using List.reverseRecOn with
  | nil => exact h
  | append_singleton fittings fitting ih =>
    rw [mountedAfter_snoc] at h
    cases fitting with
    | mount name => exact h.elim ih And.right
    | unmount name => exact ih h.1

/-- **The graph mirrors what is mounted.** When a form has been made and set up, all its fields are
mounted. From then on, whatever is mounted and unmounted in whatever order, the edges of its graph
are those from mounted fields to the fields that they read, the unused fields are those that are not
mounted, and a field that is taken out and put back has all its edges again, while those of other
fields stay as they are. -/
theorem graph_mirrors_mounted {d : Definition} {registry : Registry} {settings : Settings}
    {record defaults : Value} {clock : Option Instant} {blank : Form}
    (hblank : Form.blank d registry settings record defaults clock = .ok blank)
    (hsetUp : (setUp host).runOn blank log = (.ok (), f, log')) (fittings : List Fitting) :
    (f.fitted log' fittings).1.definition = f.definition ∧
      (f.fitted log' fittings).1.Mirrors (f.mountedAfter fittings) := by
  obtain ⟨-, hreadable, hmounted⟩ := setUp_mounted (blank_empty hblank).1 hsetUp
  obtain ⟨hdefinition, hkept⟩ := hmounted.fitted hreadable log' fittings
  exact ⟨hdefinition, hkept.mirrors (hreadable.of_same hdefinition) fun n hn =>
    (isField_iff hdefinition n).2 (isField_of_mountedAfter fittings hn)⟩

/-- In the form in which `b` reads `a` and `c` reads `b`, `b` is taken out; `x` is no field. -/
theorem graph_mirrors_mounted_lock :
    Form.blank Lock.definition {} {} .null .null none = .ok Lock.start ∧
      (setUp Billing.host).runOn Lock.start [] = (.ok (), Lock.opened, []) ∧
      (Lock.opened.fitted [] [.unmount (.text "b"), .mount (.text "x")]).1.Mirrors
        (Lock.opened.mountedAfter [.unmount (.text "b"), .mount (.text "x")]) := by
  have hsetUp : (setUp Billing.host).runOn Lock.start [] = (.ok (), Lock.opened, []) := rfl
  exact ⟨Lock.blank_start, hsetUp, (graph_mirrors_mounted Lock.blank_start hsetUp _).2⟩

/-- Of the three fields only `b` is not used then, and the edge that leads to it has stayed. -/
example : (Lock.opened.fitted [] [.unmount (.text "b"), .mount (.text "x")]).1.unusedFields =
      [.text "b"] ∧
    (Lock.opened.fitted [] [.unmount (.text "b"), .mount (.text "x")]).1.graph.edges =
      [(.text "b", [.text "c"])] := by
  cbv

end Form

end LiveForm
