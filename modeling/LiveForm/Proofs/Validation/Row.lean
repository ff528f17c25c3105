import Mathlib
import LiveForm.Proofs.Validation.Leaves

/-!
# Specifications as rows

How deep the lists of a specification are does not matter. Take its single validators from left to
right, without those that are switched off: running the specification asks them in turn, up to the
first that does not pass, and answers what that one answers or fails as it fails; if all pass, so
does the specification (`runSpec_row`). The host is asked just what these validators ask it, in this
order.
-/

namespace LiveForm

/-- A question to a check of the host. -/
structure Question where
  ref : Nat
  value : Value
  values : Entries

namespace Checking

variable {α β : Type}

/-- The questions that a process asks, in order. -/
def questions (host : Host) : Checking α → Log → List Question
  | done _, _ => []
  | fail _, _ => []
  | say e next, log => next.questions host (log ++ [e])
  | ask ref value values next, log =>
    ⟨ref, value, values⟩ :: (next ((host.check ref value values).run.run log).1).questions host
      ((host.check ref value values).run.run log).2

variable {host : Host}

/-- A process in two parts asks what the first asks, and then what the second does. -/
theorem questions_bind (c : Checking α) (next : α → Checking β) (log : Log) :
    (c >>= next).questions host log = c.questions host log ++
      match c.result host log with
      | (.ok a, log') => (next a).questions host log'
      | (.error _, _) => [] := by
  induction c generalizing log with
  | done a => rfl
  | fail f => rfl
  | say e rest ih => exact ih _
  | ask ref value values rest ih =>
    rw [ask_bind, result_ask, questions, questions, ih]
    rfl

end Checking

namespace Validation

/-- False in the place of arguments switches a validator off. -/
def Leaf.isOff : Leaf → Bool
  | .named _ (.bool false) => true
  | _ => false

/-- The single validators of a specification that are not switched off, in order. -/
def row (spec : Value) : List Leaf :=
  (leaves spec).filter fun leaf => !leaf.isOff

section

variable (r : Registry) (host : Host) (value : Value) (values : Entries)

/-- **Asking validators in turn**: what comes of it, and what the host is asked meanwhile. -/
inductive InTurn : Log → List Leaf → Except Fault Value × Log → List Question → Prop
  /-- Nothing is left to be asked. -/
  | passes {log : Log} {a : Value} : passes a = true → InTurn log [] (.ok a, log) []
  | goesOn {log log' : Log} {leaf : Leaf} {rest : List Leaf} {a : Value}
      {out : Except Fault Value × Log} {questions : List Question} :
      (leaf.ask r value values).result host log = (.ok a, log') → Validation.passes a = true →
      InTurn log' rest out questions →
      InTurn log (leaf :: rest) out ((leaf.ask r value values).questions host log ++ questions)
  /-- The first failure is the answer, and nothing is asked after it. -/
  | fails {log log' : Log} {leaf : Leaf} {rest : List Leaf} {a : Value} :
      (leaf.ask r value values).result host log = (.ok a, log') → Validation.passes a = false →
      InTurn log (leaf :: rest) (.ok a, log') ((leaf.ask r value values).questions host log)
  /-- A fault that escapes ends the asking. -/
  | escapes {log log' : Log} {leaf : Leaf} {rest : List Leaf} {f : Fault} :
      (leaf.ask r value values).result host log = (.error f, log') →
      InTurn log (leaf :: rest) (.error f, log') ((leaf.ask r value values).questions host log)

end

variable {r : Registry} {host : Host} {value : Value} {values : Entries}

/-- What is switched off may be left out of a row. -/
theorem firstFailure_filter (l : List Leaf) :
    firstFailure r value values (l.filter fun leaf => !leaf.isOff) =
      firstFailure r value values l := by
  induction l with
  | nil => rfl
  | cons leaf rest ih =>
    cases hoff : leaf.isOff with
    | false => rw [List.filter_cons_of_pos (by simp [hoff]), firstFailure, firstFailure, ih]
    | true =>
      obtain ⟨name, rfl⟩ : ∃ name, leaf = .named name (.bool false) := by
        unfold Leaf.isOff at hoff
        split at hoff
        · exact ⟨_, rfl⟩
        · cases hoff
      have hask : (Leaf.named name (.bool false)).ask r value values = return .bool true := by
        rw [Leaf.ask, runNamed]
      rw [List.filter_cons_of_neg (by simp [hoff]), ih, firstFailure, hask, pure_bind]
      rfl

section

variable {out : Except Fault Value × Log} {log : Log}

theorem eq_of_failure_none (h : failure out = (.ok none, log)) :
    ∃ a, out = (.ok a, log) ∧ passes a = true := by
  rcases out with ⟨_ | a, log'⟩
  · exact nomatch h
  · cases hpass : passes a <;> simp_all [failure]

theorem eq_of_failure_some {a : Value} (h : failure out = (.ok (some a), log)) :
    out = (.ok a, log) := by
  rcases out with ⟨_ | b, log'⟩
  · exact nomatch h
  · cases hpass : passes b <;> simp_all [failure]

theorem eq_of_failure_error {f : Fault} (h : failure out = (.error f, log)) :
    out = (.error f, log) := by
  rcases out with ⟨f' | b, log'⟩
  · cases h
    rfl
  · exact nomatch h

end

/-- What the process of a row ends in, and what it asks, is what comes of asking in turn. -/
theorem inTurn_of_firstFailure {l : List Leaf} {log : Log} {out : Except Fault Value × Log}
    (h : failure out = (firstFailure r value values l).result host log) :
    InTurn r host value values log l out
      ((firstFailure r value values l).questions host log) := by
  induction l generalizing log with
  | nil =>
    obtain ⟨a, rfl, hpass⟩ := eq_of_failure_none h
    exact .passes hpass
  | cons leaf rest ih =>
    rw [firstFailure, Checking.result_bind] at h
    rw [firstFailure, Checking.questions_bind]
    rcases hleaf : (leaf.ask r value values).result host log with ⟨answer, log'⟩
    rw [hleaf] at h
    cases answer with
    | error f =>
      obtain rfl := eq_of_failure_error h
      rw [List.append_nil]
      exact .escapes hleaf
    | ok a =>
      cases hpass : passes a with
      | true =>
        simp only [hpass, if_true] at h ⊢
        exact .goesOn hleaf hpass (ih h)
      | false =>
        simp only [hpass, Bool.false_eq_true, if_false] at h ⊢
        obtain rfl := eq_of_failure_some h
        have hnone : (pure (some a) : Checking (Option Value)).questions host log' = [] := rfl
        rw [hnone, List.append_nil]
        exact .fails hleaf hpass

theorem runSpec_eq_row (spec : Value) :
    (do return failing? (← runSpec r spec value values)) =
      firstFailure r value values (row spec) := by
  rw [row, firstFailure_filter, runSpec_eq_firstFailure]

theorem questions_failing? (c : Checking Value) (log : Log) :
    (do return failing? (← c) : Checking (Option Value)).questions host log =
      c.questions host log := by
  rw [Checking.questions_bind]
  rcases c.result host log with ⟨answer, log'⟩
  cases answer <;> exact List.append_nil _

/-- **The nesting of a specification does not matter.** Running a specification of any kind is the
same process as asking, from left to right, the single validators that stand in it and are not
switched off. In every host and on every log it ends in what comes of asking these in turn: in the
first answer that does not pass, or in the fault of the first that cannot be made, or else it
passes; and what the host is asked is what is asked by the validators up to that one, and by no
other. And specifications that are gone through one by one are a list of specifications. -/
theorem runSpec_row (r : Registry) (spec value : Value) (values : Entries) :
    (do return failing? (← runSpec r spec value values)) =
        firstFailure r value values (row spec) ∧
      (∀ host log, InTurn r host value values log (row spec)
        ((runSpec r spec value values).result host log)
        ((runSpec r spec value values).questions host log)) ∧
      ∀ items, runEach r (.list items) value values = runSpec r (.list items) value values := by
  refine ⟨runSpec_eq_row spec, fun host log => ?_, fun items => ?_⟩
  · rw [← questions_failing?, runSpec_eq_row]
    refine inTurn_of_firstFailure ?_
    rw [← result_failing?, runSpec_eq_row]
  · rw [runSpec]
    rfl

/-- Lists within lists are gone, and so is what is switched off. -/
example :
    row (.list [.text "a", .list [.null, .map [(.text "b", .bool false), (.text "c", .int 3)]]]) =
      [.named (.text "a") .null, .named (.text "c") (.int 3)] := rfl

end Validation

end LiveForm
