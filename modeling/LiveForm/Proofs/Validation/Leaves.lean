import Mathlib
import LiveForm.Proofs.Validation.Verdict

/-!
# What a specification asks

However deep its lists are, a specification comes down to a row of single validators. Running it is
the same process as asking these one after the other, from left to right, up to the first that does
not pass (`runSpec_eq_firstFailure`); and so what can come of it is what can come of asking such a
row (`runSpec_met`).

* `Leaf`, `leaves`: the single validators of a specification.
* `Leaf.ask`, `firstFailure`: the process that asks one, and the one that asks a row.
* `Asked`: all that can come of asking one.
* `Met`: what comes of asking a row.
-/

namespace LiveForm

namespace Checking

/-- What comes after a process may be taken apart. -/
instance : LawfulMonad Checking :=
  LawfulMonad.mk' Checking
    (fun c => by
      induction c with
      | done a => rfl
      | fail f => rfl
      | say e next ih => exact congrArg (say e) ih
      | ask ref value values next ih => exact congrArg (ask ref value values) (funext ih))
    (fun _ _ => rfl)
    (fun c _ _ => by
      induction c with
      | done a => rfl
      | fail f => rfl
      | say e next ih => exact congrArg (say e) ih
      | ask ref value values next ih => exact congrArg (ask ref value values) (funext ih))

variable {α β : Type}

/-- What a process ends in that begins with a log, and the log at its end. -/
def result (host : Host) (c : Checking α) (log : Log) : Except Fault α × Log :=
  (c.run host).run.run log

variable {host : Host}

theorem ask_bind (ref : Nat) (value : Value) (values : Entries)
    (rest : Except Fault Value → Checking α) (next : α → Checking β) :
    (ask ref value values rest >>= next) = ask ref value values fun r => rest r >>= next :=
  rfl

/-- A process goes on with what the host answers. -/
theorem result_ask (ref : Nat) (value : Value) (values : Entries)
    (rest : Except Fault Value → Checking α) (log : Log) :
    (ask ref value values rest).result host log =
      (rest ((host.check ref value values).run.run log).1).result host
        ((host.check ref value values).run.run log).2 :=
  run_ask host ref value values rest log

/-- A process in two parts: the second goes on where the first has ended, unless it has failed. -/
theorem result_bind (c : Checking α) (next : α → Checking β) (log : Log) :
    (c >>= next).result host log =
      match c.result host log with
      | (.ok a, log') => (next a).result host log'
      | (.error f, log') => (.error f, log') := by
  induction c generalizing log with
  | done a => rfl
  | fail f => rfl
  | say e rest ih => exact ih _
  | ask ref value values rest ih =>
    rw [ask_bind, result_ask, result_ask]
    exact ih _ _

end Checking

namespace Registry

/-- The validator that is asked for by a name with arguments: true and nothing stand for none. -/
def find (r : Registry) (name : String) : Value → Except Fault Validator
  | .null => r.resolve name
  | .bool true => r.resolve name
  | args => r.resolveWith name args

/-- A key is the name of a validator or of a maker. -/
def knowsKey (r : Registry) : Key → Bool
  | .text name => r.knows name
  | _ => false

end Registry

namespace Validation

/-- A single validator of a specification. -/
inductive Leaf where
  /-- A validator by name, with its arguments. -/
  | named (name : Key) (args : Value)
  /-- A check of the host. -/
  | code (ref : Nat)
  /-- A callback of the host, which cannot check a value. -/
  | callback
  /-- What is no specification. -/
  | unsupported (spec : Value)

mutual

/-- The single validators of a specification, in order. -/
def leaves : Value → List Leaf
  | .null => []
  | .text name => [.named (.text name) .null]
  | .map entries => entries.map fun e => .named e.1 e.2
  | .list items => itemLeaves items
  | .check ref => [.code ref]
  | .callback _ => [.callback]
  | spec => [.unsupported spec]

/-- The single validators of a list of specifications, in order. -/
def itemLeaves : List Value → List Leaf
  | [] => []
  | spec :: rest => leaves spec ++ itemLeaves rest

end

/-! ### One process for a row -/

section

variable (r : Registry) (value : Value) (values : Entries)

/-- The process that asks a single validator. -/
def Leaf.ask : Leaf → Checking Value
  | .named name args => runNamed r name args value values
  | .code ref => call (.code ref) value values
  | .callback => return faultIssue "a callback cannot check a value"
  | .unsupported spec => do
    Checking.warn
      ("Unsupported validator spec " ++ spec.written.toOption.getD "" ++ ", skipping")
    return .bool true

/-- The process that asks validators in a row, up to the first that does not pass. -/
def firstFailure : List Leaf → Checking (Option Value)
  | [] => return none
  | leaf :: rest => do
    let a ← leaf.ask r value values
    if passes a then firstFailure rest else return some a

/-- The answer, if it does not pass. -/
def failing? (a : Value) : Option Value :=
  if passes a then none else some a

variable {r value values}

theorem firstFailure_single (leaf : Leaf) : firstFailure r value values [leaf] =
    (do return failing? (← leaf.ask r value values)) := by
  rw [firstFailure]
  refine congrArg _ (funext fun a => ?_)
  unfold failing? firstFailure
  split <;> rfl

/-- A row in two parts: the second is asked if the first passes. -/
theorem firstFailure_append (l l' : List Leaf) : firstFailure r value values (l ++ l') = (do
    match ← firstFailure r value values l with
    | none => firstFailure r value values l'
    | some a => return some a) := by
  induction l with
  | nil => rw [List.nil_append, firstFailure, pure_bind]
  | cons leaf l ih =>
    rw [List.cons_append, firstFailure, firstFailure, bind_assoc]
    refine congrArg _ (funext fun a => ?_)
    split
    · exact ih
    · rw [pure_bind]

/-- One process, and another if the answer passes, are the row of the one and that of the other. -/
theorem firstFailure_andThen {first rest : Checking Value} {l l' : List Leaf}
    (h : (do return failing? (← first)) = firstFailure r value values l)
    (g : (do return failing? (← rest)) = firstFailure r value values l') :
    (do return failing? (← (do
      let a ← first
      if passes a then rest else return a : Checking Value))) =
      firstFailure r value values (l ++ l') := by
  rw [firstFailure_append, ← h, ← g]
  simp only [bind_assoc, pure_bind]
  refine congrArg _ (funext fun a => ?_)
  cases hpass : passes a <;> simp [failing?, hpass]

theorem runEntries_eq_firstFailure (entries : List (Key × Value)) :
    (do return failing? (← runEntries r entries value values)) =
      firstFailure r value values (entries.map fun e => .named e.1 e.2) := by
  induction entries with
  | nil =>
    rw [runEntries, pure_bind]
    rfl
  | cons e rest ih =>
    obtain ⟨name, args⟩ := e
    rw [runEntries]
    exact firstFailure_andThen (firstFailure_single (.named name args)).symm ih

mutual

/-- **Running a specification is asking its validators in a row**, up to what passing answers
are. -/
theorem runSpec_eq_firstFailure : ∀ spec : Value,
    (do return failing? (← runSpec r spec value values)) = firstFailure r value values (leaves spec)
  | .null => by rw [runSpec, pure_bind]; rfl
  | .text name => (firstFailure_single (.named (.text name) .null)).symm
  | .map entries => by
    rw [leaves, runSpec]
    exact runEntries_eq_firstFailure entries
  | .list items => by
    rw [leaves, runSpec]
    exact runItems_eq_firstFailure items
  | .check ref => (firstFailure_single (.code ref)).symm
  | .callback _ => (firstFailure_single .callback).symm
  | .bool b => (firstFailure_single (.unsupported (.bool b))).symm
  | .number n => (firstFailure_single (.unsupported (.number n))).symm
  | .field v marks e => (firstFailure_single (.unsupported (.field v marks e))).symm
  | .issue type message => (firstFailure_single (.unsupported (.issue type message))).symm
  | .unset => (firstFailure_single (.unsupported .unset)).symm

theorem runItems_eq_firstFailure : ∀ items : List Value,
    (do return failing? (← runItems r items value values)) =
      firstFailure r value values (itemLeaves items)
  | [] => by rw [runItems, pure_bind]; rfl
  | spec :: rest => by
    rw [itemLeaves, runItems]
    exact firstFailure_andThen (runSpec_eq_firstFailure spec) (runItems_eq_firstFailure rest)

end

end

/-! ### Asking one validator -/

/-- The warning that a name is unknown. -/
def unknownEntry (name : Key) : LogEntry :=
  ⟨.warning, "Validator '" ++ name.shown ++ "' is not registered, skipping"⟩

/-- The warning that something is no specification. -/
def unsupportedEntry (spec : Value) : LogEntry :=
  ⟨.warning, "Unsupported validator spec " ++ spec.written.toOption.getD "" ++ ", skipping"⟩

/-- The failure that stands for a validator that cannot be made. -/
def unmadeIssue (name : String) (f : Fault) : Value :=
  .issue "validation_error" (.text ("Cannot build validator '" ++ name ++ "': " ++ f.message))

section

variable (r : Registry) (host : Host) (value : Value) (values : Entries)

/-- What a validator replies to a value, and the log then. -/
def reply (log : Log) : Validator → Except Fault Value × Log
  | .rule check => (check value values, log)
  | .code ref => (host.check ref value values).run.run log

/-- **What can come of a validator.** One that fails to answer fails the value. -/
inductive Answered (log : Log) (v : Validator) : Except Fault Value × Log → Prop
  | answers (a : Value) (log' : Log) : reply host value values log v = (.ok a, log') →
      Answered log v (.ok a, log')
  | raises (f : Fault) (log' : Log) : reply host value values log v = (.error f, log') →
      Answered log v (.ok (faultIssue f.message), log')

/-- **All that can come of asking a single validator**: an answer, unless its maker fails for
another reason than that its arguments are unfit. -/
inductive Asked (log : Log) : Leaf → Except Fault Value × Log → Prop
  /-- False in the place of arguments switches a validator off. -/
  | off (name : Key) : Asked log (.named name (.bool false)) (.ok (.bool true), log)
  | unknown (name : Key) (args : Value) : args ≠ .bool false → r.knowsKey name = false →
      Asked log (.named name args) (.ok (.bool true), log ++ [unknownEntry name])
  | unmade (name : String) (args : Value) (f : Fault) : args ≠ .bool false →
      r.knows name = true → r.find name args = .error f → f.isUnfit = true →
      Asked log (.named (.text name) args) (.ok (unmadeIssue name f), log)
  | escapes (name : String) (args : Value) (f : Fault) : args ≠ .bool false →
      r.knows name = true → r.find name args = .error f → f.isUnfit = false →
      Asked log (.named (.text name) args) (.error f, log)
  | found (name : String) (args : Value) (v : Validator) (out : Except Fault Value × Log) :
      args ≠ .bool false → r.knows name = true → r.find name args = .ok v →
      Answered host value values log v out → Asked log (.named (.text name) args) out
  | code (ref : Nat) (out : Except Fault Value × Log) :
      Answered host value values log (.code ref) out → Asked log (.code ref) out
  | callback : Asked log .callback (.ok (faultIssue "a callback cannot check a value"), log)
  | unsupported (spec : Value) :
      Asked log (.unsupported spec) (.ok (.bool true), log ++ [unsupportedEntry spec])

/-- **What can come of asking validators in a row**: no failure, or the first answer that does not
pass, or a fault that escapes. -/
inductive Met : Log → List Leaf → Except Fault (Option Value) × Log → Prop
  | nil (log : Log) : Met log [] (.ok none, log)
  | goesOn {log log' : Log} {leaf : Leaf} {rest : List Leaf} {a : Value}
      {out : Except Fault (Option Value) × Log} :
      Asked r host value values log leaf (.ok a, log') → passes a = true → Met log' rest out →
      Met log (leaf :: rest) out
  | stops {log log' : Log} {leaf : Leaf} {rest : List Leaf} {a : Value} :
      Asked r host value values log leaf (.ok a, log') → passes a = false →
      Met log (leaf :: rest) (.ok (some a), log')
  | escapes {log log' : Log} {leaf : Leaf} {rest : List Leaf} {f : Fault} :
      Asked r host value values log leaf (.error f, log') →
      Met log (leaf :: rest) (.error f, log')

end

variable {r : Registry} {host : Host} {value : Value} {values : Entries} {log log' : Log}

theorem answered_call (v : Validator) (log : Log) :
    Answered host value values log v ((call v value values).result host log) := by
  cases v with
  | rule check =>
    have hcall : (call (.rule check) value values).result host log =
        (.ok (settle (check value values)), log) := rfl
    rw [hcall]
    cases hcheck : check value values with
    | ok a => exact .answers a log (by rw [reply, hcheck])
    | error f => exact .raises f log (by rw [reply, hcheck])
  | code ref =>
    have hcall : (call (.code ref) value values).result host log =
        (.ok (settle ((host.check ref value values).run.run log).1),
          ((host.check ref value values).run.run log).2) :=
      Checking.run_ask host ref value values (fun r => return settle r) log
    rw [hcall]
    rcases hcheck : (host.check ref value values).run.run log with ⟨reply, log'⟩
    cases reply with
    | ok a => exact .answers a log' hcheck
    | error f => exact .raises f log' hcheck

theorem runNamed_unknown {name : Key} {args : Value} (hargs : args ≠ .bool false)
    (hname : r.knowsKey name = false) :
    runNamed r name args value values = skipUnknown name.shown := by
  unfold runNamed
  split
  · exact absurd rfl hargs
  · next n _ =>
    have hn : r.knows n = false := hname
    simp only [hn]
    rfl
  · rfl

theorem runNamed_known {name : String} {args : Value} (hargs : args ≠ .bool false)
    (hname : r.knows name = true) :
    runNamed r (.text name) args value values =
      callFound name (r.find name args) value values := by
  unfold runNamed
  split
  · exact absurd rfl hargs
  · next hkey =>
    cases hkey
    simp only [hname]
    rfl
  · next h => exact absurd rfl (h name)

theorem asked_named (name : Key) (args : Value) (log : Log) :
    Asked r host value values log (.named name args)
      ((runNamed r name args value values).result host log) := by
  by_cases hargs : args = .bool false
  · subst hargs
    exact .off name
  · cases hknown : r.knowsKey name with
    | false =>
      rw [runNamed_unknown hargs hknown]
      exact .unknown name args hargs hknown
    | true =>
      -- only texts are known
      obtain ⟨n, rfl⟩ : ∃ n, name = .text n := by
        cases name with
        | text n => exact ⟨n, rfl⟩
        | _ => exact nomatch hknown
      have hn : r.knows n = true := hknown
      rw [runNamed_known hargs hn]
      cases hfind : r.find n args with
      | ok v => exact .found n args v _ hargs hn hfind (answered_call v log)
      | error f =>
        cases hunfit : f.isUnfit with
        | true =>
          have hcall : callFound n (.error f) value values = return unmadeIssue n f := if_pos hunfit
          rw [hcall]
          exact .unmade n args f hargs hn hfind hunfit
        | false =>
          have hcall : callFound n (.error f) value values = .fail f :=
            if_neg (by simp [hunfit])
          rw [hcall]
          exact .escapes n args f hargs hn hfind hunfit

/-! ### Asking a row -/

/-- What the end of a process says: the failure, if the answer does not pass. -/
def failure : Except Fault Value × Log → Except Fault (Option Value) × Log
  | (.ok a, log) => (.ok (if passes a then none else some a), log)
  | (.error f, log) => (.error f, log)

theorem result_failing? (c : Checking Value) (log : Log) :
    (do return failing? (← c) : Checking (Option Value)).result host log =
      failure (c.result host log) := by
  rw [Checking.result_bind]
  rcases c.result host log with ⟨answer, log'⟩
  cases answer <;> rfl

theorem asked_ask (leaf : Leaf) (log : Log) :
    Asked r host value values log leaf ((leaf.ask r value values).result host log) := by
  cases leaf with
  | named name args => exact asked_named name args log
  | code ref => exact .code ref _ (answered_call (.code ref) log)
  | callback => exact .callback
  | unsupported spec => exact .unsupported spec

theorem met_firstFailure (l : List Leaf) (log : Log) :
    Met r host value values log l ((firstFailure r value values l).result host log) := by
  induction l generalizing log with
  | nil => exact .nil log
  | cons leaf rest ih =>
    have hleaf : Asked r host value values log leaf ((leaf.ask r value values).result host log) :=
      asked_ask leaf log
    rw [firstFailure, Checking.result_bind]
    revert hleaf
    rcases (leaf.ask r value values).result host log with ⟨answer, log'⟩
    intro hleaf
    cases answer with
    | error f => exact .escapes hleaf
    | ok a =>
      cases hpass : passes a with
      | true =>
        simp only [hpass, if_true]
        exact .goesOn hleaf hpass (ih log')
      | false =>
        simp only [hpass, Bool.false_eq_true, if_false]
        exact .stops hleaf hpass

/-- **What can come of a specification is what can come of its validators in a row.** -/
theorem runSpec_met (spec : Value) (log : Log) : Met r host value values log (leaves spec)
    (failure ((runSpec r spec value values).result host log)) := by
  rw [← result_failing?, runSpec_eq_firstFailure]
  exact met_firstFailure (leaves spec) log

end Validation

end LiveForm
