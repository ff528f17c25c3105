import Mathlib
import LiveForm.Proofs.Form.Validations
import LiveForm.Proofs.Validation.Finding

/-!
# The ledger of validations

What the store knows of validations, against those under way and against all that has happened so
far. `Ledger` says how the three agree: each validation that has begun is under way or has ended,
the store counts those under way, and once the last validation of a field has ended, the error of
the field is what that validation has found. Beginnings and ends keep this, in whatever order
validations end.
-/

namespace LiveForm

/-- What happens to a validation. -/
inductive Notice where
  | begins (t : Ticket)
  | ends (t : Ticket) (found : Finding)

namespace Notice

/-- The validation that begins. -/
def begins? : Notice → Option Ticket
  | begins t => some t
  | ends _ _ => none

/-- The validation that ends, and what it has found. -/
def ends? : Notice → Option (Ticket × Finding)
  | begins _ => none
  | ends t found => some (t, found)

/-- The validations that have begun, oldest first. -/
def begun (past : List Notice) : List Ticket :=
  past.filterMap begins?

/-- The validations that have ended, with what they have found. -/
def ended (past : List Notice) : List (Ticket × Finding) :=
  past.filterMap ends?

/-- The validations of a field that have begun, oldest first. -/
def begunOf (f : FieldName) (past : List Notice) : List Ticket :=
  (begun past).filter (·.name == f)

/-- The validations of a field that have ended, with what they have found. -/
def endedOf (f : FieldName) (past : List Notice) : List (Ticket × Finding) :=
  (ended past).filter (·.1.name == f)

section

variable (past : List Notice) (t : Ticket) (found : Finding) (f : FieldName)

@[simp] theorem begun_begins : begun (past ++ [.begins t]) = begun past ++ [t] :=
  List.filterMap_append ..

@[simp] theorem begun_ends : begun (past ++ [.ends t found]) = begun past := by
  rw [begun, List.filterMap_append]
  exact List.append_nil _

@[simp] theorem ended_begins : ended (past ++ [.begins t]) = ended past := by
  rw [ended, List.filterMap_append]
  exact List.append_nil _

@[simp] theorem ended_ends : ended (past ++ [.ends t found]) = ended past ++ [(t, found)] :=
  List.filterMap_append ..

/-- A validation that begins is the last of its field. -/
theorem getLast?_begunOf_begins : (begunOf f (past ++ [.begins t])).getLast? =
    if t.name == f then some t else (begunOf f past).getLast? := by
  rw [begunOf, begun_begins, List.filter_append, List.filter_singleton]
  cases t.name == f with
  | true => exact List.getLast?_concat
  | false => exact congrArg List.getLast? (List.append_nil _)

theorem begunOf_ends : begunOf f (past ++ [.ends t found]) = begunOf f past := by
  rw [begunOf, begun_ends, begunOf]

end

theorem mem_begunOf {f : FieldName} {past : List Notice} {t : Ticket} :
    t ∈ begunOf f past ↔ t ∈ begun past ∧ t.name = f := by
  rw [begunOf, List.mem_filter, beq_iff_eq]

theorem mem_endedOf {f : FieldName} {past : List Notice} {e : Ticket × Finding} :
    e ∈ endedOf f past ↔ e ∈ ended past ∧ e.1.name = f := by
  rw [endedOf, List.mem_filter, beq_iff_eq]

end Notice

open Notice

namespace Store

/-- Two stores know the same of validations and of errors. -/
structure SameAccount (s s' : Store) : Prop where
  running : s'.running = s.running
  latest : s'.latest = s.latest
  begun : s'.begun = s.begun
  errors : s'.errors = s.errors

theorem begin_name (s : Store) (name : FieldName) (v : Value) : (s.begin name v).1.name = name :=
  rfl

end Store

/-- What the store knows agrees with the validations under way and with what has happened. -/
structure Ledger (s : Store) (live : List Ticket) (past : List Notice) : Prop where
  /-- Each validation that has begun is under way or has ended. -/
  tally : (begun past).Perm (live ++ (ended past).map Prod.fst)
  underway : ∀ f, s.underway f = live.countP (·.name == f)
  ascending : (begun past).Pairwise (·.number < ·.number)
  given : ∀ t ∈ begun past, t.number ≤ s.begun
  latest : ∀ f t, (begunOf f past).getLast? = some t →
    Table.get? f s.latest = some t.number
  decided : ∀ f t issue, (begunOf f past).getLast? = some t → (t, .ok issue) ∈ ended past →
    s.error? f = issue

namespace Ledger

variable {s s' : Store} {live live' : List Ticket} {past : List Notice} {t u : Ticket}
  {f : FieldName}

/-- Where nothing has happened yet. -/
theorem start (h : ∀ f, s.underway f = 0) : Ledger s [] [] where
  tally := .refl _
  underway := h
  ascending := .nil
  given := List.forall_mem_nil _
  latest _ _ h := nomatch h
  decided _ _ _ h := nomatch h

theorem congr (h : Ledger s live past) (hs : s.SameAccount s') (hlive : live.Perm live') :
    Ledger s' live' past where
  tally := h.tally.trans (hlive.append_right _)
  underway f := by
    rw [← hlive.countP_eq, ← h.underway f, Store.underway, Store.underway, hs.running]
  ascending := h.ascending
  given := by
    rw [hs.begun]
    exact h.given
  latest := by
    rw [hs.latest]
    exact h.latest
  decided f t issue hlast hended := by
    rw [Store.error?, hs.errors]
    exact h.decided f t issue hlast hended

/-! ### What follows from the tally -/

theorem begun_of_live (h : Ledger s live past) (ht : t ∈ live) : t ∈ begun past :=
  h.tally.mem_iff.2 (List.mem_append_left _ ht)

theorem begun_of_ended (h : Ledger s live past) {found : Finding} (ht : (t, found) ∈ ended past) :
    t ∈ begun past :=
  h.tally.mem_iff.2 (List.mem_append_right _ (List.mem_map_of_mem ht))

/-- A validation is known by its number. -/
theorem eq_of_number (h : Ledger s live past) (ht : t ∈ begun past) (hu : u ∈ begun past)
    (hnumber : t.number = u.number) : t = u := by
  have hnumbers : ((begun past).map Ticket.number).Nodup :=
    List.pairwise_map.2 (h.ascending.imp Nat.ne_of_lt)
  exact List.inj_on_of_nodup_map hnumbers ht hu hnumber

theorem nodup (h : Ledger s live past) : (live ++ (ended past).map Prod.fst).Nodup := by
  have hbegun : (begun past).Nodup := h.ascending.imp fun {a b} hlt hab => by
    rw [hab] at hlt
    exact lt_irrefl _ hlt
  exact h.tally.nodup_iff.1 hbegun

/-- A validation under way has not ended. -/
theorem not_ended_of_live (h : Ledger s live past) (ht : t ∈ live) (found : Finding) :
    (t, found) ∉ ended past :=
  fun hended => List.disjoint_of_nodup_append h.nodup ht (List.mem_map_of_mem hended)

/-- A validation ends once. -/
theorem ended_once (h : Ledger s live past) {found found' : Finding}
    (hfound : (t, found) ∈ ended past) (hfound' : (t, found') ∈ ended past) : found = found' := by
  have hkeys : ((ended past).map Prod.fst).Nodup := (List.nodup_append.1 h.nodup).2.1
  exact congrArg Prod.snd (List.inj_on_of_nodup_map hkeys hfound hfound' rfl)

/-- The store counts the validations of a field that have begun and not ended. -/
theorem underway_add_ended (h : Ledger s live past) (f : FieldName) :
    s.underway f + (endedOf f past).length = (begunOf f past).length := by
  rw [h.underway f, endedOf, begunOf, ← List.countP_eq_length_filter,
    ← List.countP_eq_length_filter, h.tally.countP_eq, List.countP_append, List.countP_map]
  rfl

/-- If no validation of the field is under way, its last one has ended. -/
theorem ended_of_last (h : Ledger s live past) (hf : s.underway f = 0)
    (hlast : (begunOf f past).getLast? = some t) : ∃ found, (t, found) ∈ ended past := by
  obtain ⟨hbegun, hname⟩ := mem_begunOf.1 (List.mem_of_getLast? hlast)
  rcases List.mem_append.1 (h.tally.mem_iff.1 hbegun) with hlive | hended
  · rw [h.underway f, List.countP_eq_zero] at hf
    exact absurd (beq_iff_eq.2 hname) (hf t hlive)
  · obtain ⟨⟨t', found⟩, hmem, rfl⟩ := List.mem_map.1 hended
    exact ⟨found, hmem⟩

/-! ### Beginnings and ends -/

/-- A validation that begins becomes the last of its field. -/
theorem begins (h : Ledger s live past) (name : FieldName) (v : Value) :
    Ledger (s.begin name v).2 (live ++ [(s.begin name v).1])
      (past ++ [.begins (s.begin name v).1]) where
  tally := by
    rw [begun_begins, ended_begins]
    have hplaces : (live ++ (ended past).map Prod.fst ++ [(s.begin name v).1]).Perm
        (live ++ [(s.begin name v).1] ++ (ended past).map Prod.fst) := by
      rw [List.append_assoc, List.append_assoc]
      exact List.perm_append_comm.append_left live
    exact (h.tally.append_right _).trans hplaces
  underway f := by
    rw [Store.begin_underway, h.underway f, List.countP_append, List.countP_singleton]
    rw [Store.begin_name]
    cases name == f <;> rfl
  ascending := by
    rw [begun_begins, List.pairwise_append]
    refine ⟨h.ascending, List.pairwise_singleton _ _, fun a ha b hb => ?_⟩
    rw [List.mem_singleton.1 hb]
    exact Nat.lt_succ_of_le (h.given a ha)
  given := by
    rw [begun_begins]
    intro t ht
    rcases List.mem_append.1 ht with hold | hnew
    · exact Nat.le_succ_of_le (h.given t hold)
    · rw [List.mem_singleton.1 hnew]
      exact Nat.le_refl _
  latest f t hlast := by
    rw [getLast?_begunOf_begins, Store.begin_name] at hlast
    rw [Store.begin_latest]
    by_cases hname : (name == f) = true
    · rw [if_pos hname] at hlast ⊢
      exact congrArg (Option.map Ticket.number) hlast
    · rw [if_neg hname] at hlast ⊢
      exact h.latest f t hlast
  decided f t issue hlast hended := by
    rw [getLast?_begunOf_begins, Store.begin_name] at hlast
    rw [ended_begins] at hended
    by_cases hname : (name == f) = true
    · rw [if_pos hname] at hlast
      obtain rfl := Option.some.inj hlast
      exact absurd (h.given _ (h.begun_of_ended hended)) (Nat.not_succ_le_self _)
    · rw [if_neg hname] at hlast
      exact h.decided f t issue hlast hended

/-- Whichever validation ends, the last of each field decides. -/
theorem ends (h : Ledger s live past) (hlive : live.Perm (t :: live')) (found : Finding) :
    Ledger (s.finish t found) live' (past ++ [.ends t found]) where
  tally := by
    rw [begun_ends, ended_ends, List.map_append]
    have hplaces : (t :: live' ++ (ended past).map Prod.fst).Perm
        (live' ++ ((ended past).map Prod.fst ++ [t])) := by
      rw [← List.append_assoc]
      exact (List.perm_append_singleton t _).symm
    exact (h.tally.trans (hlive.append_right _)).trans hplaces
  underway f := by
    rw [Store.finish_underway, h.underway f, hlive.countP_eq, List.countP_cons]
    cases t.name == f <;> simp
  ascending := by
    rw [begun_ends]
    exact h.ascending
  given := by
    rw [begun_ends, Store.finish_begun]
    exact h.given
  latest f u hlast := by
    rw [begunOf_ends] at hlast
    rw [Store.finish_latest]
    exact h.latest f u hlast
  decided f u issue hlast hended := by
    rw [begunOf_ends] at hlast
    rw [ended_ends] at hended
    rcases List.mem_append.1 hended with hold | hnew
    · rw [← h.decided f u issue hlast hold]
      by_cases hname : t.name = f
      · refine s.finish_error?_of_stale f t found fun hlatest => ?_
        rw [hname, h.latest f u hlast] at hlatest
        have ht := hlive.mem_iff.2 List.mem_cons_self
        obtain rfl := h.eq_of_number (h.begun_of_ended hold) (h.begun_of_live ht)
          (Option.some.inj hlatest)
        exact h.not_ended_of_live ht _ hold
      · exact s.finish_error?_of_ne f t found hname
    · obtain ⟨rfl, rfl⟩ := Prod.mk.inj (List.mem_singleton.1 hnew)
      obtain ⟨-, rfl⟩ := mem_begunOf.1 (List.mem_of_getLast? hlast)
      exact s.finish_error?_of_latest u issue (h.latest _ u hlast)

end Ledger

end LiveForm
