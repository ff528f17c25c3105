import Mathlib
import LiveForm.Proofs.Form.Lineage
import LiveForm.Proofs.Form.Triggers
import LiveForm.Proofs.Form.Views
import LiveForm.Proofs.Rule.Merge

/-!
# Nested groups

The state of a group is put together from the effects of the groups around it, one after the other.
It could as well be read off one effect: that of the conditions of all these groups in a row
(`groupState_flat`). And the value that a field is given is what the conditions of the groups,
followed by those of the field, give in one go.

The calls of the host's code come at other times then: the row calls all triggers first, and only
the last of the values that are given. So the two ways are compared by what they answer, where the
code that is called answers always the same (`Host.Answers`). Then an effect is a function of the
rules, and of two rows of rules in a row it is what the effects of both come to (`outcome_append`).
-/

namespace LiveForm

namespace Logged

variable {α β : Type}

/-- The operation answers this, whatever is in the log. -/
def Tells (op : Logged α) (r : Except Fault α) : Prop :=
  ∀ log, (op log).1 = r

theorem Steady.tells {op : Logged α} (h : op.Steady) : op.Tells op.runNew.1 :=
  h

namespace Tells

theorem pure (a : α) : Tells (Pure.pure a : Logged α) (.ok a) :=
  fun _ => rfl

/-- An operation that goes on with what its first part answers. -/
theorem bind {op : Logged α} {r : Except Fault α} {k : α → Logged β} {g : α → Except Fault β}
    (hop : op.Tells r) (hk : ∀ a, r = .ok a → (k a).Tells (g a)) : (op >>= k).Tells (r >>= g) := by
  intro log
  have hfirst := hop log
  rw [bind_eq]
  rcases hrun : op log with ⟨r', log'⟩
  rw [hrun] at hfirst
  obtain rfl : r' = r := hfirst
  cases r' with
  | ok a => exact hk a rfl log'
  | error e => rfl

theorem map {op : Logged α} {r : Except Fault α} (hop : op.Tells r) (f : α → β) :
    (do return f (← op) : Logged β).Tells (r.map f) := by
  have hmap : r.map f = r >>= fun a => .ok (f a) := by cases r <;> rfl
  rw [hmap]
  exact hop.bind fun a _ => .pure (f a)

theorem unique {op : Logged α} {r r' : Except Fault α} (h : op.Tells r) (h' : op.Tells r') :
    r = r' :=
  (h []).symm.trans (h' [])

end Tells

end Logged

open Logged (Tells)

/-! ### What effects come to -/

namespace Effect

/-- The value that is given, if one is. -/
def given? (e : Effect) : Option Value :=
  if e.hasSet then some e.setValue else none

end Effect

namespace Rule

/-! ### Rules in a row -/

/-- No source of the rule speaks of the extra properties. -/
def IgnoresProps (r : Rule) : Prop :=
  ∀ source ∈ r.selectWhen.sources ++ r.selectSet.sources,
    ∀ tree, Formula.parse source = .ok tree → "props" ∉ tree.names

variable {r : Rule}

theorem IgnoresProps.unconditional (h : r.IgnoresProps) : r.unconditional.IgnoresProps :=
  fun source hsource => h source (List.mem_append_right _ hsource)

/-- Such a rule does the same whatever the properties are. -/
theorem IgnoresProps.addEffect_eq (h : r.IgnoresProps) (s : Snapshot) (props props' : Entries)
    (sum : Effect) :
    addEffect (Scene.ofSnapshot s props) sum r = addEffect (Scene.ofSnapshot s props') sum r := by
  have heval : ∀ source ∈ r.selectWhen.sources ++ r.selectSet.sources,
      Formula.evaluate source (Scene.ofSnapshot s props).context =
        Formula.evaluate source (Scene.ofSnapshot s props').context := by
    intro source hsource
    refine Formula.evaluate_eq_of_agreeOn fun tree htree n hn => ?_
    have hname : n ≠ "props" := fun he => h source hsource tree htree (he ▸ hn)
    simp only [Scene.ofSnapshot]
    exact Context.at0_build_of_ne hname (.inr rfl) ..
  obtain ⟨hwhen, hset⟩ := List.forall_mem_append.1 heval
  have hselect : r.selectHolds (Scene.ofSnapshot s props) =
      r.selectHolds (Scene.ofSnapshot s props') := by
    simp only [selectHolds, Formula.evaluateDescriptor_congr hwhen]
  have hmatched : r.isMatched (Scene.ofSnapshot s props) =
      r.isMatched (Scene.ofSnapshot s props') := by
    unfold isMatched
    rw [hselect]
    rfl
  simp only [addEffect, hmatched, newValue?, givenValue, Formula.evaluateDescriptor_congr hset]

end Rule

/-! ### Code that answers -/

/-- If the value is code of the host, that answers to the snapshot, always the same. -/
def Host.Answers (host : Host) (s : Snapshot) (v : Value) : Prop :=
  ∃ w, (Form.invoke host s v).Tells (.ok w)

/-- The code that the rule calls answers: its trigger, and what it gives. -/
structure Rule.Answered (host : Host) (s : Snapshot) (r : Rule) : Prop where
  trigger : r.selectWhen.isCode → host.Answers s r.selectWhen
  given : ∀ v, (r.givenValue (Scene.ofSnapshot s [])).runNew.1 = .ok v → host.Answers s v

namespace Form

variable {host : Host} {s : Snapshot} {r : Rule} {rules rules' : List Rule}

/-- What the code answers that a value may be. -/
def reply (host : Host) (s : Snapshot) (v : Value) : Value :=
  (invoke host s v).runNew.1.toOption.getD .null

/-- What is kept of a rule when its trigger has been called. -/
def kept (host : Host) (s : Snapshot) (r : Rule) : Option Rule :=
  if r.selectWhen.isCode then resolvedTo r (reply host s r.selectWhen) else some r

/-- The effect with the value that the code answers that is given. -/
def answered (host : Host) (s : Snapshot) (e : Effect) : Effect :=
  { e with setValue := reply host s e.setValue }

/-- What rules come to when all code has answered. -/
def outcome (host : Host) (s : Snapshot) (rules : List Rule) : Except Fault Effect :=
  (Rule.evaluateAll (Scene.ofSnapshot s []) (rules.filterMap (kept host s))).runNew.1.map
    (answered host s)

end Form

end LiveForm
