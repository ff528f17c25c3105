import Mathlib
import LiveForm.Proofs.AutoSave.Course

/-!
# No change is lost

A change that has been noted waits, and then moves from run to run: a run that starts takes over what
waits and what the runs before it hold, and a run that is aborted gives its fields back, unless it has
lost them to a newer one. So a change is accounted for until a run has taken it in and has ended in
another way (`no_change_is_lost`).

* `Course.Accounted`: the three places where a change can be.
* `Course.Kept.step`: no step of a course loses a change.
-/

namespace LiveForm

namespace Batch

/-- The batch has the field among those that changed, and the others among those that depend on
one. -/
structure Has (b : Batch) (name : FieldName) (affected : FieldNames) : Prop where
  changed : name ∈ b.changed
  affected : ∀ g ∈ affected, g ∈ b.affected

theorem Has.union_left {b : Batch} {name : FieldName} {affected : FieldNames}
    (h : b.Has name affected) (c : Batch) : (b.union c).Has name affected where
  changed := Names.mem_union.2 (Or.inl h.changed)
  affected := fun g hg => Names.mem_union.2 (Or.inl (h.affected g hg))

theorem Has.union_right {c : Batch} {name : FieldName} {affected : FieldNames}
    (h : c.Has name affected) (b : Batch) : (b.union c).Has name affected where
  changed := Names.mem_union.2 (Or.inr h.changed)
  affected := fun g hg => Names.mem_union.2 (Or.inr (h.affected g hg))

/-- What a batch has it keeps when others are united with it. -/
theorem Has.foldl_union {b : Batch} {name : FieldName} {affected : FieldNames}
    (h : b.Has name affected) (held : Table Nat Batch) :
    (held.foldl (fun acc e => acc.union e.2) b).Has name affected := by
  induction held generalizing b with
  | nil => exact h
  | cons e rest ih => exact ih (h.union_left e.2)

end Batch

namespace AutoSave

variable {a : AutoSave} {name : FieldName} {affected : FieldNames}

/-- What is noted waits. -/
theorem note_has (a : AutoSave) (name : FieldName) (affected : FieldNames) :
    (a.note name affected).pending.Has name affected :=
  Batch.Has.union_right ⟨List.mem_singleton.2 rfl, fun _ hg => hg⟩ a.pending

/-- A run takes over what waits. -/
theorem collected_of_pending (h : a.pending.Has name affected) : a.collected.Has name affected :=
  h.foldl_union a.held

/-- A run takes over what another run holds. -/
theorem collected_of_held {v : Nat} {batch : Batch} (hheld : a.held = [(v, batch)])
    (h : batch.Has name affected) : a.collected.Has name affected := by
  unfold collected
  rw [hheld]
  exact h.union_right a.pending

/-- What waits goes on waiting when a run ends. -/
theorem leave_of_pending (h : a.pending.Has name affected) (v : Nat) (o : Outcome) :
    (a.leave v o).pending.Has name affected := by
  unfold leave
  cases o == .aborted with
  | false => exact h
  | true =>
    cases Table.get? v a.held with
    | none => exact h
    | some batch => exact h.union_left batch

/-- What an aborted run holds waits again. -/
theorem leave_of_held {v : Nat} {batch : Batch} (hheld : a.held = [(v, batch)])
    (h : batch.Has name affected) : (a.leave v .aborted).pending.Has name affected := by
  have hget : Table.get? v a.held = some batch := by
    rw [hheld]
    simp [Table.get?]
  unfold leave
  rw [hget]
  exact h.union_right a.pending

/-- A run that holds nothing takes nothing away from the one that does. -/
theorem leave_held_of_ne {v v' : Nat} {batch : Batch} (hheld : a.held = [(v, batch)])
    (hne : v ≠ v') (o : Outcome) : (a.leave v' o).held = [(v, batch)] := by
  rw [leave_held, hheld]
  simp [Table.drop, hne]

end AutoSave

namespace Course

/-! ### Where a change can be -/

/-- A run that has the field among its changed ones has started, and then ended without having been
aborted. -/
def Covered (name : FieldName) (since : List Happening) : Prop :=
  ∃ version batch o, name ∈ batch.changed ∧ o ≠ .aborted ∧
    List.Sublist [.started ⟨version, batch⟩, .ended version o] since

theorem Covered.append {name : FieldName} {since : List Happening} (h : Covered name since)
    (later : List Happening) : Covered name (since ++ later) := by
  obtain ⟨version, batch, o, hname, ho, hsub⟩ := h
  exact ⟨version, batch, o, hname, ho, hsub.trans (List.sublist_append_left since later)⟩

/-- A change that has been noted is covered by what has happened since, or it waits, or a run that
has started since holds it. -/
inductive Accounted (a : AutoSave) (name : FieldName) (affected : FieldNames)
    (since : List Happening) : Prop
  | covered : Covered name since → Accounted a name affected since
  | waits : a.pending.Has name affected → Accounted a name affected since
  | held (v : Nat) (batch : Batch) : a.held = [(v, batch)] → .started ⟨v, batch⟩ ∈ since →
      batch.Has name affected → Accounted a name affected since

namespace Accounted

variable {a b : AutoSave} {name : FieldName} {affected : FieldNames} {since : List Happening}

/-- Saving that holds the same and that waits for no less accounts for as much. -/
theorem mono (h : Accounted a name affected since)
    (hpending : a.pending.Has name affected → b.pending.Has name affected)
    (hheld : b.held = a.held) (later : List Happening) :
    Accounted b name affected (since ++ later) := by
  cases h with
  | covered h => exact .covered (h.append later)
  | waits h => exact .waits (hpending h)
  | held v batch hv hs h =>
    exact .held v batch (hheld.trans hv) (List.mem_append_left later hs) h

/-- A run that starts takes the change over. -/
theorem started (h : Accounted a name affected since) (version : Nat)
    (hb : SameBooks { version, held := [(version, a.collected)] } b) :
    Accounted b name affected (since ++ [.started ⟨version, a.collected⟩]) := by
  have hnew : Happening.started ⟨version, a.collected⟩ ∈
      since ++ [.started ⟨version, a.collected⟩] :=
    List.mem_append_right since (List.mem_singleton.2 rfl)
  cases h with
  | covered h => exact .covered (h.append _)
  | waits h => exact .held version _ hb.held hnew (AutoSave.collected_of_pending h)
  | held v batch hv _ h => exact .held version _ hb.held hnew (AutoSave.collected_of_held hv h)

/-- A run that ends gives the change back, or covers it, or has nothing to do with it. -/
theorem ended (h : Accounted a name affected since) (version : Nat) (o : Outcome) :
    Accounted (a.leave version o) name affected (since ++ [.ended version o]) := by
  cases h with
  | covered h => exact .covered (h.append _)
  | waits h => exact .waits (AutoSave.leave_of_pending h version o)
  | held v batch hv hs h =>
    by_cases hversion : v = version
    · subst hversion
      by_cases ho : o = .aborted
      · subst ho
        exact .waits (AutoSave.leave_of_held hv h)
      · refine .covered ⟨v, batch, o, h.changed, ho, ?_⟩
        have hstart : List.Sublist [Happening.started ⟨v, batch⟩] since :=
          List.singleton_sublist.2 hs
        exact hstart.append (List.Sublist.refl [Happening.ended v o])
    · exact .held v batch (AutoSave.leave_held_of_ne hv hversion o)
        (List.mem_append_left _ hs) h

/-- The account depends on the books only. -/
theorem of_books (h : Accounted a name affected since) (hb : SameBooks a b) :
    Accounted b name affected since := by
  have hmono := h.mono (b := b) (fun hp => hb.pending ▸ hp) hb.held []
  rwa [List.append_nil] at hmono

end Accounted

/-! ### No step loses a change -/

/-- At most one run holds fields, and every change that has been noted is accounted for. -/
structure Kept (c : Course) : Prop where
  held : c.saving.held.length ≤ 1
  marks : ∀ before name affected since, c.past = before ++ .marked name affected :: since →
    Accounted c.saving name affected since

theorem kept_start (w : World) : Kept (start w) where
  held := Nat.zero_le 1
  marks := by
    intro before name affected since h
    exact absurd h (by simp [start])

/-- After something that is not a change, the changes are accounted for if that loses none of
them. -/
theorem Kept.marks_snoc {c c' : Course} (h : Kept c) {e : Happening}
    (hp : c'.past = c.past ++ [e]) (he : ∀ name affected, .marked name affected ≠ e)
    (hkeep : ∀ name affected since, Accounted c.saving name affected since →
      Accounted c'.saving name affected (since ++ [e])) :
    ∀ before name affected since, c'.past = before ++ .marked name affected :: since →
      Accounted c'.saving name affected since := by
  intro before name affected since hpast
  rw [hp] at hpast
  rcases snoc_eq_append_cons hpast with ⟨-, hlast, -⟩ | ⟨since', rfl, hearlier⟩
  · exact absurd hlast (he name affected)
  · exact hkeep name affected since' (h.marks before name affected since' hearlier)

/-- **No step of a course loses a change.** -/
theorem Kept.step {c c' : Course} (h : Kept c) (hs : Step c c') : Kept c' := by
  cases hs with
  | noted name affected hb hr hp =>
    refine ⟨by rw [hb.held]; exact h.held, ?_⟩
    intro before n' affected' since hpast
    rw [hp] at hpast
    rcases snoc_eq_append_cons hpast with ⟨-, hlast, rfl⟩ | ⟨since', rfl, hearlier⟩
    · obtain ⟨rfl, rfl⟩ := Happening.marked.inj hlast
      refine .waits ?_
      rw [hb.pending]
      exact AutoSave.note_has c.saving _ _
    · refine (h.marks before n' affected' since' hearlier).mono ?_ hb.held _
      intro hwaits
      rw [hb.pending]
      exact hwaits.union_left _
  | cancelled hb hr hp =>
    refine ⟨by rw [hb.held]; exact h.held, h.marks_snoc hp (by simp) ?_⟩
    intro name affected since hacc
    exact hacc.mono (fun hwaits => hb.pending ▸ hwaits) hb.held _
  | started a ha hb hr hp =>
    refine ⟨by rw [hb.held]; exact Nat.le_refl 1, h.marks_snoc hp (by simp) ?_⟩
    intro name affected since hacc
    subst ha
    exact hacc.started _ hb
  | went hb hr hp =>
    refine ⟨by rw [hb.held]; exact h.held, ?_⟩
    intro before name affected since hpast
    rw [hp] at hpast
    exact (h.marks before name affected since hpast).of_books hb
  | ended r o hmem hb hr hp =>
    refine ⟨?_, h.marks_snoc hp (by simp) ?_⟩
    · rw [hb.held, AutoSave.leave_held]
      exact (List.length_filter_le _ _).trans h.held
    · intro name affected since hacc
      exact (hacc.ended r.version o).of_books hb

theorem kept_after (w : World) (cues : List Cue) : Kept (after w cues) :=
  after_induction (kept_start w) (fun c cue h => h.step (take_step c cue)) cues

/-- **No change is lost.** Whatever the order of changes, cancellations, starts, turns, answers and
failures, at most one run holds fields; and a change that no run has covered since waits, or is held
by that run, together with the fields that depended on it. -/
theorem no_change_is_lost (w : World) (cues : List Cue) :
    (after w cues).saving.held.length ≤ 1 ∧
      ∀ before name affected since,
        (after w cues).past = before ++ .marked name affected :: since → ¬ Covered name since →
        (after w cues).saving.pending.Has name affected ∨
          ∃ e ∈ (after w cues).saving.held, e.2.Has name affected := by
  have hkept := kept_after w cues
  refine ⟨hkept.held, ?_⟩
  intro before name affected since hpast hcovered
  cases hkept.marks before name affected since hpast with
  | covered h => exact absurd h hcovered
  | waits h => exact Or.inl h
  | held v batch hv _ h =>
    refine Or.inr ⟨(v, batch), ?_, h⟩
    rw [hv]
    exact List.mem_singleton.2 rfl

/-- A change whose run is cancelled and then aborted waits again. -/
theorem no_change_is_lost_aborted :
    let c := after World.bare [.mark (.text "a"), .flush, .cancel, .resume 2 (.ok .nothing)]
    c.saving.held.length ≤ 1 ∧ ¬ Covered (.text "a")
        [.started ⟨2, ⟨[.text "a"], [.text "b"]⟩⟩, .cancelled, .ended 2 .aborted] ∧
      (c.saving.pending.Has (.text "a") [.text "b"] ∨
        ∃ e ∈ c.saving.held, e.2.Has (.text "a") [.text "b"]) := by
  intro c
  have hpast :
      (after World.bare [.mark (.text "a"), .flush, .cancel, .resume 2 (.ok .nothing)]).past =
      [] ++ .marked (.text "a") [.text "b"] ::
        [.started ⟨2, ⟨[.text "a"], [.text "b"]⟩⟩, .cancelled, .ended 2 .aborted] := by cbv
  have hcovered : ¬ Covered (.text "a")
      [.started ⟨2, ⟨[.text "a"], [.text "b"]⟩⟩, .cancelled, .ended 2 .aborted] := by
    rintro ⟨version, batch, o, -, ho, hsub⟩
    have hended : Happening.ended version o ∈
        [.started ⟨2, ⟨[.text "a"], [.text "b"]⟩⟩, .cancelled, .ended 2 .aborted] :=
      hsub.subset (by simp)
    simp at hended
    exact ho hended.2
  obtain ⟨hheld, hmarks⟩ := no_change_is_lost World.bare
    [.mark (.text "a"), .flush, .cancel, .resume 2 (.ok .nothing)]
  exact ⟨hheld, hcovered, hmarks _ _ _ _ hpast hcovered⟩

end Course

end LiveForm
