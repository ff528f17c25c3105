import Mathlib
import LiveForm.Proofs.Form.Walk
import LiveForm.Proofs.Graph.Edges

/-!
# Forms as they are made

A form is wired if its graph tells who reads whom. A new form is wired, and mounting, taking fields
down and changing them keep it so. A form is made by setting up a blank one and changing its fields
(`Made`); where no code comes in, it is wired and free of code.
-/

namespace LiveForm

namespace Form

variable {host : Host} {f f' : Form} {name : FieldName} {v : Value} {log log' : Log}

/-- Whoever subscribes to anything is a field, and subscribes to exactly the fields that it reads. -/
structure Wired (f : Form) : Prop where
  sound : f.graph.Sound
  reads : ∀ x t, t ∈ f.graph.subscriptionsOf x →
    ∃ subs, f.subscriptionsFor x = .ok subs ∧ ∀ u, u ∈ subs ↔ u ∈ f.graph.subscriptionsOf x

theorem ne_of_mem_subscriptionsFor {subs : FieldNames} (h : f.subscriptionsFor name = .ok subs)
    {t : FieldName} (ht : t ∈ subs) : t ≠ name := by
  unfold subscriptionsFor at h
  obtain ⟨field, -, h⟩ := exists_of_bind_eq_ok h
  obtain ⟨reads, -, h⟩ := exists_of_bind_eq_ok h
  rw [← Except.ok.inj h, Names.mem_remove] at ht
  exact ht.2

namespace Wired

theorem of_same (h : f.Wired) (hdefinition : f'.definition = f.definition)
    (hgraph : f'.graph = f.graph) : f'.Wired where
  sound := hgraph ▸ h.sound
  reads x t ht := by
    rw [subscriptionsFor_eq hdefinition, hgraph]
    exact h.reads x t (hgraph ▸ ht)

/-- A field that reads another one through its conditions is among its subscribers, if it subscribes
to anything. -/
theorem mem_subscribersOf (h : f.Wired) {x t : FieldName} (ht : x ∈ f.graph.subscribersOf t)
    {n : String} (hn : f.ConditionsRead x n) (hne : FieldName.text n ≠ x) :
    x ∈ f.graph.subscribersOf (.text n) := by
  obtain ⟨subs, hsubs, hall⟩ := h.reads x t ((h.sound x t).1 ht)
  exact (h.sound _ _).2 ((hall _).1 (hn.mem_subscriptions hsubs hne))

/-- A subscriber is a field. -/
theorem isField (h : f.Wired) {x t : FieldName} (ht : x ∈ f.graph.subscribersOf t) :
    f.IsField x := by
  obtain ⟨subs, hsubs, -⟩ := h.reads x t ((h.sound x t).1 ht)
  obtain ⟨field, -, hfield, -, -⟩ := Form.mem_subscriptions hsubs
  exact isField_of_field hfield

theorem register (h : f.Wired) (name : FieldName) :
    ({ f with graph := f.graph.register name } : Form).Wired :=
  ⟨h.sound, h.reads⟩

theorem setSubscriptions (h : f.Wired) {targets : FieldNames}
    (htargets : f.subscriptionsFor name = .ok targets) :
    ({ f with graph := f.graph.setSubscriptions name targets } : Form).Wired where
  sound := h.sound.setSubscriptions name targets
  reads x t ht := by
    have hmem (u : FieldName) : u ∈ (f.graph.setSubscriptions name targets).subscriptionsOf x ↔
        if x = name then u ∈ targets ∧ u ≠ name else u ∈ f.graph.subscriptionsOf x :=
      Graph.mem_subscriptionsOf_setSubscriptions
    by_cases hx : x = name
    · subst hx
      refine ⟨targets, htargets, fun u => ?_⟩
      rw [hmem u, if_pos rfl]
      exact ⟨fun hu => ⟨hu, ne_of_mem_subscriptionsFor htargets hu⟩, And.left⟩
    · rw [hmem t, if_neg hx] at ht
      obtain ⟨subs, hsubs, hall⟩ := h.reads x t ht
      refine ⟨subs, hsubs, fun u => ?_⟩
      rw [hmem u, if_neg hx]
      exact hall u

theorem unregister (h : f.Wired) (name : FieldName) :
    ({ f with graph := f.graph.unregister name } : Form).Wired where
  sound := h.sound.unregister name
  reads x t ht := by
    have hmem (u : FieldName) : u ∈ (f.graph.unregister name).subscriptionsOf x ↔
        u ∈ f.graph.subscriptionsOf x ∧ x ≠ name :=
      Graph.mem_subscriptionsOf_unregister
    obtain ⟨ht, hx⟩ := (hmem t).1 ht
    obtain ⟨subs, hsubs, hall⟩ := h.reads x t ht
    refine ⟨subs, hsubs, fun u => (hall u).trans ?_⟩
    rw [hmem u]
    exact ⟨fun hu => ⟨hu, hx⟩, And.left⟩

end Wired

/-! ### Mounting -/

/-- Only the graph has changed, and it tells who reads whom if it did before. -/
structure Rewired (f f' : Form) : Prop where
  definition : f'.definition = f.definition
  store : f'.store = f.store
  wired : f.Wired → f'.Wired

instance : IsPreorder Form Rewired where
  refl _ := ⟨rfl, rfl, id⟩
  trans _ _ _ h g :=
    ⟨g.definition.trans h.definition, g.store.trans h.store, fun hf => g.wired (h.wired hf)⟩

theorem mount_rewired (name : FieldName) : FormOp.Keeps Rewired (mount name) := by
  intro f log
  rw [mount, FormOp.runOn_bind, FormOp.runOn_look]
  cases f.field name with
  | error e => exact refl_of Rewired f
  | ok field =>
    simp only [Logged.ofExcept]
    rw [FormOp.runOn_bind, FormOp.runOn_change]
    dsimp only
    rw [FormOp.runOn_bind, FormOp.runOn_look]
    cases hsubs : ({ f with graph := f.graph.register name } : Form).subscriptionsFor name with
    | error e => exact ⟨rfl, rfl, fun h => h.register name⟩
    | ok targets => exact ⟨rfl, rfl, fun h => (h.register name).setSubscriptions hsubs⟩

theorem unmount_rewired (name : FieldName) : FormOp.Keeps Rewired (unmount name) :=
  fun _ _ => ⟨rfl, rfl, fun h => h.unregister name⟩

/-! ### Setting up -/

theorem applyInitialSets_returned {names : List FieldName} (hf : f.CodeFree)
    (h : (applyInitialSets host names).runOn f log = (.ok (), f', log')) :
    f'.definition = f.definition ∧ f'.graph = f.graph ∧
      f'.store.disabled = f.store.disabled ∧ f'.CodeFree := by
  induction names generalizing f log with
  | nil =>
    obtain ⟨-, rfl, rfl⟩ := FormOp.runOn_pure_ok.1 h
    exact ⟨rfl, rfl, rfl, hf⟩
  | cons name rest ih =>
    rw [applyInitialSets, FormOp.runOn_bind_ok] at h
    obtain ⟨given, f₁, log₁, happly, h⟩ := h
    rcases applySet_returned hf happly with ⟨-, rfl, -⟩ | ⟨-, v, -, hv, rfl⟩
    · exact ih hf h
    · obtain ⟨hdefinition, hgraph, hdisabled, hcode⟩ := ih (hf.written false false hv) h
      exact ⟨hdefinition, hgraph, hdisabled.trans (written_disabled false false), hcode⟩

/-- A form that has been set up is wired, and then it has been taken down who is disabled. -/
theorem setUp_returned (hf : f.CodeFree) (hwired : f.Wired)
    (h : (setUp host).runOn f log = (.ok (), f', log')) :
    ∃ f₁ log₁, f₁.definition = f.definition ∧ f₁.Wired ∧ f₁.store.disabled = f.store.disabled ∧
      f₁.CodeFree ∧ (refreshDisabled host).runOn f₁ log₁ = (.ok (), f', log') := by
  rw [setUp, FormOp.runOn_get_bind, FormOp.runOn_bind_ok] at h
  obtain ⟨_, f₀, log₀, hmount, h⟩ := h
  rw [FormOp.runOn_bind_ok] at h
  obtain ⟨_, f₁, log₁, hsets, hrefresh⟩ := h
  have hmounted : Rewired f f₀ := by
    have hkeeps := mountAll_keeps mount_rewired f.fieldNames f log
    rwa [hmount] at hkeeps
  have hf₀ : f₀.CodeFree := ⟨hmounted.definition ▸ hf.definition, hmounted.store ▸ hf.store⟩
  obtain ⟨hdefinition, hgraph, hdisabled, hcode⟩ := applyInitialSets_returned hf₀ hsets
  exact ⟨f₁, log₁, hdefinition.trans hmounted.definition,
    (hmounted.wired hwired).of_same hdefinition hgraph,
    hdisabled.trans (congrArg Store.disabled hmounted.store), hcode, hrefresh⟩

/-! ### Making forms -/

/-- The form has been set up from a blank one and then its fields have been changed, all without
code. The names are those that were disabled before it was last taken down who is. -/
inductive Made (host : Host) : FieldNames → Form → Prop
  | new {d : Definition} {registry : Registry} {settings : Settings} {record defaults : Value}
      {clock : Option Instant} {blank f : Form} {log log' : Log} :
      Form.blank d registry settings record defaults clock = .ok blank → blank.CodeFree →
        (setUp host).runOn blank log = (.ok (), f, log') → Made host [] f
  | change {old : FieldNames} {f f' : Form} {name : FieldName} {v : Value} {log log' : Log} :
      Made host old f → v.CodeFree → (changeField host name v).runOn f log = (.ok (), f', log') →
        Made host f.store.disabled f'

/-- In a blank form nobody subscribes to anything and nobody is disabled. -/
theorem blank_empty {d : Definition} {registry : Registry} {settings : Settings}
    {record defaults : Value} {clock : Option Instant}
    (h : blank d registry settings record defaults clock = .ok f) :
    f.graph = {} ∧ f.store.disabled = [] := by
  obtain ⟨store, debounce, hstore, rfl⟩ := blank_eq h
  obtain ⟨values, record', messages, rfl⟩ := Store.ofDefinition_eq hstore
  exact ⟨rfl, rfl⟩

theorem wired_of_empty (h : f.graph = {}) : f.Wired where
  sound := h ▸ Graph.sound_empty
  reads x t ht := by
    rw [h] at ht
    exact nomatch ht

/-- Taking down who is disabled leaves a form wired and free of code. -/
theorem kept_of_refreshed (hwired : f.Wired) (hcode : f.CodeFree)
    (h : (refreshDisabled host).runOn f log = (.ok (), f', log')) : f'.Wired ∧ f'.CodeFree := by
  obtain ⟨disabled, -, rfl⟩ := refreshDisabled_returned h
  exact ⟨hwired.of_same rfl rfl, hcode.definition, hcode.store.disable disabled⟩

namespace Made

variable {old : FieldNames}

/-- The last thing that has been done is to take down who is disabled. -/
theorem refreshed (h : Made host old f) : ∃ f₁ log₁ log', f₁.Wired ∧ f₁.CodeFree ∧
    f₁.store.disabled = old ∧ (refreshDisabled host).runOn f₁ log₁ = (.ok (), f, log') := by
  induction h with
  | @new _ _ _ _ _ _ blank f log log' hblank hcode hsetUp =>
    obtain ⟨hgraph, hnone⟩ := blank_empty hblank
    obtain ⟨f₁, log₁, -, hwired, hdisabled, hcode₁, hrefresh⟩ :=
      setUp_returned hcode (wired_of_empty hgraph) hsetUp
    exact ⟨f₁, log₁, log', hwired, hcode₁, hdisabled.trans hnone, hrefresh⟩
  | @change old f f' name v log log' hmade hv hchange ih =>
    obtain ⟨f₀, _, _, hwired, hcode, -, hlast⟩ := ih
    -- the change starts from a form that was itself taken down last
    obtain ⟨hwired', hcode'⟩ := kept_of_refreshed hwired hcode hlast
    obtain ⟨visits, htold⟩ := changeField_returned hchange
    obtain ⟨-, f₁, f₂, log₂, hnoted, htour, hrefresh⟩ := changeTold_returned htold
    have ht := tourFrom_toured (hcode'.noted hnoted hv) htour
    refine ⟨f₂, log₂, log', ?_, ht.codeFree, ?_, hrefresh⟩
    · exact hwired'.of_same (ht.definition.trans hnoted.definition) (ht.graph.trans hnoted.graph)
    · rw [ht.disabled, hnoted.store, written_disabled]

/-- A form that has been made is wired and free of code. -/
theorem kept (h : Made host old f) : f.Wired ∧ f.CodeFree := by
  obtain ⟨f₁, _, _, hwired, hcode, -, hrefresh⟩ := h.refreshed
  exact kept_of_refreshed hwired hcode hrefresh

end Made

end Form

end LiveForm
