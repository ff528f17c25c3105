import Mathlib
import LiveForm.Proofs.Session.Turns

/-!
# Verdicts

What a validation finds in the end, if the checks of the host answer alike to alike questions: the
same, whether the host answers at once or takes its time (`World.advance_tells`). So a validation
that takes its turns meets its specifications, or finds the first that it does not meet, each by the
values that the form had when the specification was taken up (`Task.meet_goes`).
-/

namespace LiveForm

namespace Logged

variable {α β : Type}

theorem run_bind (op : Logged α) (next : α → Logged β) (log : Log) :
    (op >>= next).run.run log =
      match op.run.run log with
      | (.ok a, log') => (next a).run.run log'
      | (.error f, log') => (.error f, log') := by
  show (ExceptT.bindCont next =<< op.run).run log = _
  rcases h : op.run.run log with ⟨r, log'⟩
  have hrun : (ExceptT.bindCont next =<< op.run).run log =
      (ExceptT.bindCont next (op.run.run log).1).run (op.run.run log).2 := rfl
  rw [hrun, h]
  cases r with
  | ok a => rfl
  | error f => rfl

/-- An operation that goes on with the answer of another, even if that fails. -/
theorem run_attempt (op : Logged α) (next : Except Fault α → Logged β) (log : Log) :
    ((do
      let r ← tryCatch (Except.ok <$> op) fun f => return .error f
      next r) : Logged β).run.run log =
      (next (op.run.run log).1).run.run (op.run.run log).2 := by
  rw [run_bind]
  have htry : (tryCatch (Except.ok <$> op) fun f => return .error f :
      Logged (Except Fault α)).run.run log = (.ok (op.run.run log).1, (op.run.run log).2) := by
    simp only [tryCatch, tryCatchThe, MonadExceptOf.tryCatch, ExceptT.tryCatch, ExceptT.run,
      ExceptT.mk, Functor.map, ExceptT.map, StateT.run_bind]
    rcases StateT.run op log with ⟨r, log'⟩
    cases r with
    | ok a => rfl
    | error f => rfl
  rw [htry]

end Logged

/-- A check of the host gives the same answer, whatever has been logged. -/
def Host.IsPure (host : Host) : Prop :=
  ∀ ref value values log log', ((host.check ref value values).run.run log).1 =
    ((host.check ref value values).run.run log').1

namespace Checking

variable {α : Type} {host : Host}

/-- What a process ends in. -/
def outcome (host : Host) (c : Checking α) : Except Fault α :=
  (Logged.runNew (c.run host)).1

theorem run_ask (host : Host) (ref : Nat) (value : Value) (values : Entries)
    (next : Except Fault Value → Checking α) (log : Log) :
    ((ask ref value values next).run host).run.run log =
      ((next ((host.check ref value values).run.run log).1).run host).run.run
        ((host.check ref value values).run.run log).2 := by
  rw [run]
  exact Logged.run_attempt (host.check ref value values) (fun r => (next r).run host) log

/-- What a process ends in does not depend on the log. -/
theorem run_log (hpure : host.IsPure) (c : Checking α) (log log' : Log) :
    ((c.run host).run.run log).1 = ((c.run host).run.run log').1 := by
  induction c generalizing log log' with
  | done a => rfl
  | fail f => rfl
  | say e next ih => exact ih _ _
  | ask ref value values next ih =>
    rw [run_ask, run_ask, hpure ref value values log log']
    exact ih _ _ _

@[simp] theorem outcome_done (a : α) : (done a).outcome host = .ok a := rfl

@[simp] theorem outcome_fail (f : Fault) : (fail f : Checking α).outcome host = .error f := rfl

theorem outcome_say (hpure : host.IsPure) (e : LogEntry) (next : Checking α) :
    (say e next).outcome host = next.outcome host :=
  run_log hpure next _ _

theorem outcome_ask (hpure : host.IsPure) (ref : Nat) (value : Value) (values : Entries)
    (next : Except Fault Value → Checking α) (log : Log) :
    (ask ref value values next).outcome host =
      (next ((host.check ref value values).run.run log).1).outcome host := by
  have hnext : (ask ref value values next).outcome host =
      (((next ((host.check ref value values).run.run []).1).run host).run.run
        ((host.check ref value values).run.run []).2).1 :=
    congrArg Prod.fst (run_ask host ref value values next [])
  rw [hnext, hpure ref value values log []]
  exact run_log hpure _ _ _

end Checking

/-- How far a process got agrees with what it ends in. -/
def Progress.Tells {α : Type} (host : Host) (c : Checking α) : Progress α → Prop
  | .ended r => c.outcome host = r
  | .waits _ question next =>
    ∀ log, (next (question.run.run log).1).outcome host = c.outcome host

theorem Progress.Tells.congr {α : Type} {host : Host} {c c' : Checking α} {progress : Progress α}
    (h : progress.Tells host c) (hc : c'.outcome host = c.outcome host) :
    progress.Tells host c' := by
  cases progress with
  | ended r => exact hc.trans h
  | waits duration question next => exact fun log => (h log).trans hc.symm

/-- A process that takes its time ends as it would at once. -/
theorem World.advance_tells {α : Type} {w : World} (hpure : w.host.IsPure) (c : Checking α) :
    (w.advance c).1.Tells w.host c := by
  induction c generalizing w with
  | done a => exact Checking.outcome_done a
  | fail f => exact Checking.outcome_fail f
  | say e next ih =>
    unfold advance
    exact (ih (w := w.write [e]) hpure).congr (Checking.outcome_say hpure e next)
  | ask ref value values next ih =>
    unfold advance
    simp only []
    split
    · intro log
      exact (Checking.outcome_ask hpure ref value values next log).symm
    · have hask := Checking.outcome_ask hpure ref value values next w.log
      exact (ih ((w.host.check ref value values).run.run w.log).1
        (w := ((w.countCall ref).2.runLogged (w.host.check ref value values)).2) hpure).congr hask

namespace Validation

/-- The value meets the specification, given the values of the form. -/
def Meets (host : Host) (registry : Registry) (spec value : Value) (values : Entries) : Prop :=
  ∃ answer, (runSpec registry spec value values).outcome host = .ok answer ∧ passes answer = true

/-- The validators of the specification always return an answer. -/
def Returns (host : Host) (registry : Registry) (spec : Value) : Prop :=
  ∀ value values, ∃ answer, (runSpec registry spec value values).outcome host = .ok answer

theorem exists_ofAnswer? {answer : Value} (h : ¬ passes answer = true) (messages : Entries) :
    ∃ issue, Issue.ofAnswer? messages answer = some issue := by
  unfold Issue.ofAnswer?
  cases answer with
  | null => exact absurd rfl h
  | bool b =>
    cases b with
    | true => exact absurd rfl h
    | false => exact ⟨_, rfl⟩
  | _ => exact ⟨_, rfl⟩

end Validation

namespace Task

open Validation (Meets Returns runSpec)

section

variable (host : Host) (registry : Registry) (seen : Entries → Prop)

/-- The value meets the specification, given some of the values of the form that have been seen. -/
def MetBy (value spec : Value) : Prop :=
  ∃ values, seen values ∧ Meets host registry spec value values

/-- If the validation waits for an answer, the specifications before have been met, and the answer
decides about the one to which it belongs. -/
def Examined (specs : List Value) : Task → Prop
  | .checking t question next rest => ∃ before spec values, specs = before ++ spec :: rest ∧
      (∀ p ∈ before, MetBy host registry seen t.value p) ∧ seen values ∧
      ∀ log, (next (question.run.run log).1).outcome host =
        (runSpec registry spec t.value values).outcome host
  | _ => True

/-- What comes of a turn of a validation: it waits for an answer, or it has met all specifications,
or it has found an issue. -/
inductive Goes (w : World) (t : Ticket) (specs : List Value) : Next × World → Prop
  | asks (w' : World) (duration : Nat) (question : Logged Value)
      (next : Except Fault Value → Checking Value) (rest : List Value) :
      Examined host registry seen specs (.checking t question next rest) →
      Goes w t specs (.pause duration (.ok .nothing) (.checking t question next rest), w')
  | passes (w' : World) : w'.form = w.form → (∀ p ∈ specs, MetBy host registry seen t.value p) →
      Goes w t specs (conclude w' t (.ok none))
  | fails (w' : World) (issue : Issue) : w'.form = w.form →
      Goes w t specs (conclude w' t (.ok (some issue)))

end

variable {host : Host} {registry : Registry} {seen seen' : Entries → Prop} {w w' : World}
  {t : Ticket} {specs : List Value}

/-- A validation that goes on goes on with what has been examined. -/
theorem Goes.examined {x : Next × World} (h : Goes host registry seen w t specs x) {task : Task}
    (ht : x.1.task? = some task) : Examined host registry seen specs task := by
  cases h with
  | asks w' duration question next rest hexamined =>
    obtain rfl := Option.some.inj ht
    exact hexamined
  | passes w' _ _ => exact absurd ht (by simp [conclude, Next.task?])
  | fails w' issue _ => exact absurd ht (by simp [conclude, Next.task?])

theorem MetBy.mono {value spec : Value} (h : MetBy host registry seen value spec)
    (hseen : ∀ values, seen values → seen' values) : MetBy host registry seen' value spec := by
  obtain ⟨values, hvalues, hmeets⟩ := h
  exact ⟨values, hseen values hvalues, hmeets⟩

theorem Examined.mono {task : Task} (h : Examined host registry seen specs task)
    (hseen : ∀ values, seen values → seen' values) : Examined host registry seen' specs task := by
  cases task with
  | checking t question next rest =>
    obtain ⟨before, spec, values, hspecs, hbefore, hvalues, hnext⟩ := h
    exact ⟨before, spec, values, hspecs, fun p hp => (hbefore p hp).mono hseen,
      hseen values hvalues, hnext⟩
  | _ => trivial

/-- A validation goes on with a specification as far as it got. -/
theorem goOn_goes {before rest : List Value} {spec : Value}
    (hspecs : specs = before ++ spec :: rest)
    (hbefore : ∀ p ∈ before, MetBy host registry seen t.value p)
    (hreturns : Returns host registry spec)
    {values : Entries} (hvalues : seen values) {progress : Progress Value}
    (htells : progress.Tells host (runSpec registry spec t.value values)) (hform : w'.form = w.form)
    (hmeet : MetBy host registry seen t.value spec →
      Goes host registry seen w t specs (meet w' t rest)) :
    Goes host registry seen w t specs (goOn w' t progress rest) := by
  unfold goOn
  cases progress with
  | waits duration question next =>
    exact .asks w' duration question next rest
      ⟨before, spec, values, hspecs, hbefore, hvalues, htells⟩
  | ended r =>
    obtain ⟨answer, hanswer⟩ := hreturns t.value values
    have hr : r = .ok answer := htells.symm.trans hanswer
    rw [hr]
    by_cases hpass : Validation.passes answer = true
    · simp only [if_pos hpass]
      exact hmeet ⟨values, hvalues, answer, hanswer, hpass⟩
    · obtain ⟨issue, hissue⟩ := Validation.exists_ofAnswer? hpass w'.form.store.messages
      simp only [if_neg hpass, hissue]
      exact .fails w' issue hform

/-- **A validation meets its specifications in turn**, each by the values that the form has then. -/
theorem meet_goes (hpure : host.IsPure) (hreturns : ∀ p ∈ specs, Returns host registry p)
    {before rest : List Value} (hspecs : specs = before ++ rest)
    (hbefore : ∀ p ∈ before, MetBy host registry seen t.value p) (hhost : w'.host = host)
    (hregistry : w.form.registry = registry) (hseen : seen w.form.store.values)
    (hform : w'.form = w.form) : Goes host registry seen w t specs (meet w' t rest) := by
  induction rest generalizing w' before with
  | nil =>
    rw [List.append_nil] at hspecs
    unfold meet
    exact .passes w' hform (hspecs ▸ hbefore)
  | cons spec rest ih =>
    obtain ⟨hf, hh⟩ :=
      w'.advance_form (runSpec w'.form.registry spec t.value w'.form.store.values)
    have htells := World.advance_tells (hhost.symm ▸ hpure)
      (runSpec w'.form.registry spec t.value w'.form.store.values)
    have hmem : spec ∈ specs := hspecs ▸ List.mem_append_right before (List.mem_cons_self ..)
    rw [hform] at htells hf hh
    rw [hhost, hregistry] at htells
    rw [hregistry] at hf hh
    rw [meet, hform, hregistry]
    refine goOn_goes hspecs hbefore (hreturns spec hmem) hseen htells hf (fun hmet => ?_)
    have hnext : specs = before ++ [spec] ++ rest := by rw [hspecs, List.append_assoc]; rfl
    have hmets := List.forall_mem_append.2 ⟨hbefore, List.forall_mem_singleton.2 hmet⟩
    exact ih hnext hmets (hh.trans hhost) hf

/-- A validation that waited goes on with the answer. -/
theorem checking_goes (hpure : host.IsPure) (hreturns : ∀ p ∈ specs, Returns host registry p)
    {question : Logged Value} {next : Except Fault Value → Checking Value} {rest : List Value}
    (hexamined : Examined host registry seen specs (.checking t question next rest))
    (hhost : w.host = host) (hregistry : w.form.registry = registry)
    (hseen : seen w.form.store.values) (busy : Kept → Bool) (answer : Answer) :
    Goes host registry seen w t specs
      (step w busy (.checking t question next rest) answer) := by
  obtain ⟨before, spec, values, hspecs, hbefore, hvalues, hnext⟩ := hexamined
  have hmem : spec ∈ specs := hspecs ▸ List.mem_append_right before (List.mem_cons_self ..)
  obtain ⟨hf, hh⟩ := (w.runLogged question).2.advance_form (next (w.runLogged question).1)
  have hadvance := World.advance_tells (w := (w.runLogged question).2) (hhost.symm ▸ hpure)
    (next (w.runLogged question).1)
  have htells : Progress.Tells host (runSpec registry spec t.value values)
      ((w.runLogged question).2.advance (next (w.runLogged question).1)).1 := by
    rw [← hhost] at hnext ⊢
    exact hadvance.congr (hnext w.log).symm
  unfold step
  refine goOn_goes hspecs hbefore (hreturns spec hmem) hvalues htells hf (fun hmet => ?_)
  have hrest : specs = before ++ [spec] ++ rest := by rw [hspecs, List.append_assoc]; rfl
  have hmets := List.forall_mem_append.2 ⟨hbefore, List.forall_mem_singleton.2 hmet⟩
  exact meet_goes hpure hreturns hrest hmets (hh.trans hhost) hregistry hseen hf

/-- A validation starts with the first specification. -/
theorem examine_goes (hpure : host.IsPure) (hreturns : ∀ p ∈ specs, Returns host registry p)
    (hspecs : specsOf w.form.definition t.name = .ok specs) (hhost : w.host = host)
    (hregistry : w.form.registry = registry) (hseen : seen w.form.store.values) :
    Goes host registry seen w t specs (examine w t) := by
  unfold examine
  rw [hspecs]
  exact meet_goes hpure hreturns (List.nil_append specs).symm (fun p hp => absurd hp (by simp))
    hhost hregistry hseen rfl

end Task

end LiveForm
