import Mathlib
import LiveForm.Proofs.Rule.Scene

/-!
# Answers that do not depend on the log

Operations that look at a form write warnings to the log, but they do not read it. Where no code of
the host takes part, what an operation answers is the same on every log (`Logged.Steady`), and two
operations with agreeing parts agree (`Logged.Agree.bind`).
-/

namespace LiveForm

namespace Logged

variable {α β : Type}

/-- Both parts of an operation that answers have answered. -/
theorem bind_ok {op : Logged α} {k : α → Logged β} {log : Log} {b : β}
    (h : ((op >>= k) log).1 = .ok b) :
    ∃ a, (op log).1 = .ok a ∧ ∃ log', (k a log').1 = .ok b := by
  rw [bind_eq] at h
  cases hop : op log with
  | mk r log' =>
    rw [hop] at h
    cases r with
    | ok a => exact ⟨a, rfl, log', h⟩
    | error e => exact nomatch h

/-- The operation answers the same whatever is in the log. -/
def Steady (op : Logged α) : Prop :=
  ∀ log, (op log).1 = op.runNew.1

namespace Steady

theorem pure (a : α) : Steady (Pure.pure a : Logged α) :=
  fun _ => rfl

theorem throw (e : Fault) : Steady (MonadExcept.throw e : Logged α) :=
  fun _ => rfl

theorem ofExcept (r : Except Fault α) : Steady (Logged.ofExcept r) :=
  fun _ => rfl

theorem warn (message : String) : Steady (Logged.warn message) :=
  fun _ => rfl

/-- What two steady parts answer together, said without a log. -/
theorem bind_answer {op : Logged α} {k : α → Logged β} (hop : op.Steady)
    (hk : ∀ a, (k a).Steady) (log : Log) :
    ((op >>= k) log).1 = op.runNew.1 >>= fun a => (k a).runNew.1 := by
  rw [bind_eq, ← hop log]
  rcases op log with ⟨r, log'⟩
  cases r with
  | ok a => exact hk a log'
  | error e => rfl

theorem bind {op : Logged α} {k : α → Logged β} (hop : op.Steady) (hk : ∀ a, (k a).Steady) :
    (op >>= k).Steady :=
  fun log => (hop.bind_answer hk log).trans (hop.bind_answer hk []).symm

theorem foldlM {σ : Type} {step : σ → α → Logged σ} (hstep : ∀ s a, (step s a).Steady)
    (as : List α) (s : σ) : (as.foldlM step s).Steady := by
  induction as generalizing s with
  | nil => exact .pure s
  | cons a as ih =>
    rw [List.foldlM_cons]
    exact (hstep s a).bind fun s => ih s

end Steady

/-- Two operations answer alike, whatever is in the logs. -/
def Agree (op op' : Logged α) : Prop :=
  ∀ log log', (op log).1 = (op' log').1

theorem Steady.agree {op : Logged α} (h : op.Steady) : op.Agree op :=
  fun log log' => (h log).trans (h log').symm

/-- A steady operation answers as one that only has its answer. -/
theorem Steady.agree_pure {op : Logged α} (h : op.Steady) {a : α} (ha : op.runNew.1 = .ok a) :
    op.Agree (Pure.pure a) :=
  fun log _ => (h log).trans ha

theorem Agree.bind {op op' : Logged α} {k k' : α → Logged β} (h : op.Agree op')
    (hk : ∀ a, (k a).Agree (k' a)) : (op >>= k).Agree (op' >>= k') := by
  intro log log'
  have hanswer := h log log'
  rw [bind_eq, bind_eq]
  revert hanswer
  rcases op log with ⟨r, l⟩
  rcases op' log' with ⟨r', l'⟩
  rintro rfl
  cases r with
  | ok a => exact hk a l l'
  | error e => rfl

end Logged

/-! ### Formulas -/

namespace Formula

theorem evaluate_steady (source : String) (ctx : Context) : (evaluate source ctx).Steady := by
  unfold evaluate answer
  have refused (message : String) : Logged.Steady (do
      Logged.warn message
      return Value.null) :=
    (Logged.Steady.warn message).bind fun _ => .pure _
  split
  · exact refused _
  · split
    · exact .pure _
    · exact refused _
    · exact .throw _

mutual

theorem evaluateDescriptor_steady (ctx : Context) : ∀ v : Value,
    (evaluateDescriptor ctx v).Steady
  | .text source => by
    rw [evaluateDescriptor]
    exact evaluate_steady source ctx
  | .list items => by
    rw [evaluateDescriptor]
    exact (evaluateItems_steady ctx items).bind fun _ => .pure _
  | .map entries => by
    rw [evaluateDescriptor]
    exact (evaluateEntries_steady ctx entries).bind fun _ => .pure _
  | .null | .bool _ | .number _ | .field _ _ _ | .issue _ _ | .unset | .callback _ | .check _ => by
    rw [evaluateDescriptor]
    · exact .pure _
    all_goals simp

theorem evaluateItems_steady (ctx : Context) : ∀ items : List Value,
    (evaluateItems ctx items).Steady
  | [] => by
    rw [evaluateItems]
    exact .pure _
  | v :: rest => by
    rw [evaluateItems]
    exact (evaluateDescriptor_steady ctx v).bind fun _ =>
      (evaluateItems_steady ctx rest).bind fun _ => .pure _

theorem evaluateEntries_steady (ctx : Context) : ∀ entries : List (Key × Value),
    (evaluateEntries ctx entries).Steady
  | [] => by
    rw [evaluateEntries]
    exact .pure _
  | (k, v) :: rest => by
    rw [evaluateEntries]
    exact (evaluateDescriptor_steady ctx v).bind fun _ =>
      (evaluateEntries_steady ctx rest).bind fun _ => .pure _

end

end Formula

/-! ### Rules -/

namespace Rule

variable (scene : Scene)

theorem selectHolds_steady (r : Rule) : (r.selectHolds scene).Steady := by
  unfold selectHolds
  split
  · exact .pure _
  · exact (Formula.evaluateDescriptor_steady _ _).bind fun _ => .pure _

theorem isMatched_steady (r : Rule) : (r.isMatched scene).Steady := by
  unfold isMatched
  split
  · split
    · exact selectHolds_steady scene r
    · exact .pure _
  · split
    · exact selectHolds_steady scene r
    · exact .pure _
  · exact selectHolds_steady scene r

theorem givenValue_steady (r : Rule) : (r.givenValue scene).Steady := by
  unfold givenValue
  split
  · exact .pure _
  · split
    · exact .pure _
    · exact (Formula.evaluateDescriptor_steady _ _).bind fun _ => .pure _

theorem newValue?_steady (r : Rule) : (r.newValue? scene).Steady := by
  unfold newValue?
  split
  · exact (givenValue_steady scene r).bind fun _ => .pure _
  · exact .pure _

theorem addEffect_steady (sum : Effect) (r : Rule) : (addEffect scene sum r).Steady := by
  unfold addEffect
  split
  · exact .pure _
  · refine (isMatched_steady scene r).bind fun matched => ?_
    split
    · exact (newValue?_steady scene r).bind fun _ => .pure _
    · exact .pure _

theorem evaluateAll_steady (rules : List Rule) : (evaluateAll scene rules).Steady :=
  .foldlM (addEffect_steady scene) rules {}

end Rule

end LiveForm
