import Mathlib
import LiveForm.Proofs.AutoSave.Course
import LiveForm.Proofs.Validation.Leaves

/-!
# Validations that return

A validator that fails to answer fails the value, and so does one whose maker finds its arguments
unfit. Only another fault of a maker escapes from a validation. The makers that come with forms fail
in that way for one reason, a pattern that is not well formed, so every other escape is due to a
maker that has been registered beside them (`run_returns_or_escapes`).

* `Registry.Grown`: registries with everything that comes with forms.
* `Escapes`: how a fault of a maker escapes.
-/

namespace LiveForm

namespace Registry

variable {r : Registry} {name : String} {args : Value} {f : Fault}

/-- A registry that has grown from the one that forms start from. -/
inductive Grown : Registry → Prop
  | standard : Grown standard
  | register {r : Registry} (name : String) (v : Validator) : Grown r → Grown (r.register name v)
  | registerMaker {r : Registry} (name : String) (m : Maker) :
      Grown r → Grown (r.registerMaker name m)

/-- What is written under a new name leaves the other names alone. -/
theorem get?_put_of_not_has {ν : Type} {t : Table String ν} {n : String} (hnew : ¬Table.has n t)
    {v : ν} (hv : Table.get? name t = some v) (w : ν) :
    Table.get? name (Table.put n w t) = some v := by
  have hne : (n == name) = false := by
    by_contra hn
    obtain rfl : n = name := by simpa using hn
    exact hnew (by rw [Table.has, hv]; rfl)
  rw [Table.get?_put_of_ne hne]
  exact hv

/-- A validator keeps its name. -/
theorem Grown.validator_kept (h : r.Grown) {v : Validator}
    (hv : Table.get? name Registry.standard.validators = some v) :
    Table.get? name r.validators = some v := by
  induction h with
  | standard => exact hv
  | register n w _ ih =>
    unfold Registry.register
    split
    · exact ih
    · next hnew => exact get?_put_of_not_has hnew ih w
  | registerMaker n m _ ih =>
    unfold Registry.registerMaker
    split
    · exact ih
    · exact ih

/-- A maker keeps its name. -/
theorem Grown.maker_kept (h : r.Grown) {make : Maker}
    (hmake : Table.get? name Registry.standard.makers = some make) :
    Table.get? name r.makers = some make := by
  induction h with
  | standard => exact hmake
  | register n v _ ih =>
    unfold Registry.register
    split
    · exact ih
    · exact ih
  | registerMaker n m _ ih =>
    unfold Registry.registerMaker
    split
    · exact ih
    · next hnew => exact get?_put_of_not_has hnew ih m

/-- What a maker is given: true and nothing stand for no arguments. -/
def given : Value → List Value
  | .null => []
  | .bool true => []
  | args => argumentsOf args

theorem find_cases (r : Registry) (name : String) (args : Value) :
    (given args = [] ∧ r.find name args = r.resolve name) ∨
      (given args = argumentsOf args ∧ r.find name args = r.resolveWith name args) := by
  cases args with
  | null => exact Or.inl ⟨rfl, rfl⟩
  | bool b =>
    cases b with
    | true => exact Or.inl ⟨rfl, rfl⟩
    | false => exact Or.inr ⟨rfl, rfl⟩
  | _ => exact Or.inr ⟨rfl, rfl⟩

/-- Who asks for an unknown name is told that this is unfit, so any other fault is of a maker. -/
theorem exists_maker_of_find (h : r.find name args = .error f) (hf : f.isUnfit = false) :
    ∃ make, Table.get? name r.makers = some make ∧ make (given args) = .error f := by
  rcases r.find_cases name args with ⟨hgiven, hfind⟩ | ⟨hgiven, hfind⟩
  · rw [hfind, resolve] at h
    rw [hgiven]
    split at h
    · exact nomatch h
    · next make _ hmake => exact ⟨make, hmake, h⟩
    · next hnone _ =>
      rw [get, hnone] at h
      cases h
      exact nomatch hf
  · rw [hfind, resolveWith] at h
    rw [hgiven]
    split at h
    · next make hmake => exact ⟨make, hmake, h⟩
    · cases h
      exact nomatch hf

end Registry

namespace Validation

variable {r : Registry} {host : Host} {value : Value} {values : Entries} {log : Log}

/-! ### Makers -/

/-- A maker that takes one argument fails only because it is given none or too many. -/
theorem isUnfit_of_unaryMaker {name argument : String} {make : Value → Validator}
    {args : List Value} {f : Fault} (h : unaryMaker name argument make args = .error f) :
    f.isUnfit = true := by
  unfold unaryMaker at h
  split at h
  · cases h
    rfl
  · exact nomatch h
  · cases h
    rfl

/-- The pattern that a maker of patterns is given is not well formed. -/
def Malformed (args : List Value) (f : Fault) : Prop :=
  ∃ source e, args.head? = some (.text source) ∧ Pattern.parse source = .error e ∧ f = .pattern e

theorem malformed_of_pattern {regex message : Value} {f : Fault}
    (h : pattern regex message = .error f) (hf : f.isUnfit = false) (rest : List Value) :
    Malformed (regex :: rest) f := by
  unfold pattern at h
  split at h
  · next source =>
    split at h
    · cases h
    · next e he =>
      cases hrefusal : e.isRefusal with
      | true =>
        rw [hrefusal, if_pos rfl] at h
        cases h
        exact absurd hf Bool.noConfusion
      | false =>
        rw [hrefusal, if_neg (by simp)] at h
        cases h
        exact ⟨source, e, rfl, he, rfl⟩
  · cases h

theorem malformed_of_patternMaker {args : List Value} {f : Fault}
    (h : patternMaker args = .error f) (hf : f.isUnfit = false) : Malformed args f := by
  unfold patternMaker at h
  split at h
  · cases h
    exact nomatch hf
  · exact malformed_of_pattern h hf []
  · next regex message => exact malformed_of_pattern h hf [message]
  · cases h
    exact nomatch hf

/-- **How a fault escapes**: a pattern is not well formed, or the maker is not one of those that
come with forms, and it does not find its arguments unfit. -/
inductive Escapes (r : Registry) : String → Value → Fault → Prop
  | malformed (args : Value) (f : Fault) : Malformed (Registry.given args) f →
      Escapes r "pattern" args f
  | other (name : String) (args : Value) (f : Fault) (make : Maker) :
      Table.get? name Registry.standard.makers = none → Table.get? name r.makers = some make →
      make (Registry.given args) = .error f → f.isUnfit = false → Escapes r name args f

/-- Of the makers that come with forms, only that of patterns lets a fault escape. -/
theorem escapes_of_find (hr : r.Grown) {name : String} {args : Value} {f : Fault}
    (h : r.find name args = .error f) (hf : f.isUnfit = false) : Escapes r name args f := by
  obtain ⟨make, hmake, hfail⟩ := Registry.exists_maker_of_find h hf
  have hbuiltin : Registry.standard.makers =
      [("minLength", unaryMaker "min_length" "length" minLength),
        ("maxLength", unaryMaker "max_length" "length" maxLength),
        ("min", unaryMaker "min_value" "limit" minValue),
        ("max", unaryMaker "max_value" "limit" maxValue), ("pattern", patternMaker)] := rfl
  cases hstandard : Table.get? name Registry.standard.makers with
  | none => exact .other name args f make hstandard hmake hfail hf
  | some m =>
    obtain rfl : m = make := Option.some.inj ((hr.maker_kept hstandard).symm.trans hmake)
    have hmem : (name, m) ∈ Registry.standard.makers := Table.mem_of_get? hstandard
    rw [hbuiltin] at hmem
    simp only [List.mem_cons, Prod.mk.injEq, List.not_mem_nil, or_false] at hmem
    rcases hmem with ⟨-, rfl⟩ | ⟨-, rfl⟩ | ⟨-, rfl⟩ | ⟨-, rfl⟩ | ⟨rfl, rfl⟩
    · exact absurd (isUnfit_of_unaryMaker hfail) (by simp [hf])
    · exact absurd (isUnfit_of_unaryMaker hfail) (by simp [hf])
    · exact absurd (isUnfit_of_unaryMaker hfail) (by simp [hf])
    · exact absurd (isUnfit_of_unaryMaker hfail) (by simp [hf])
    · exact .malformed args f (malformed_of_patternMaker hfail hf)

/-! ### Rows -/

/-- A fault that escapes from a row is that of a maker whose validator stands in the row. -/
theorem Met.exists_escape (hr : r.Grown) {row : List Leaf} {f : Fault} {log' : Log}
    (h : Met r host value values log row (.error f, log')) :
    ∃ name args, .named (.text name) args ∈ row ∧ Escapes r name args f := by
  generalize hend : ((.error f, log') : Except Fault (Option Value) × Log) = found at h
  induction h with
  | nil log => cases hend
  | goesOn _ _ _ ih =>
    obtain ⟨name, args, hmem, hescapes⟩ := ih hend
    exact ⟨name, args, List.mem_cons_of_mem _ hmem, hescapes⟩
  | stops _ _ => cases hend
  | escapes hleaf =>
    cases hend
    cases hleaf with
    | escapes name args _ _ _ hfind hunfit =>
      exact ⟨name, args, List.mem_cons_self, escapes_of_find hr hfind hunfit⟩
    | found name args v _ _ _ _ hanswer => exact nomatch hanswer
    | code ref _ hanswer => exact nomatch hanswer

/-- **A validation returns, unless the fault of a maker escapes.** In every registry that has grown
from that of the forms, a validation of any specification returns an answer, and the answer is that
of its validators in a row, each of which answers or fails the value; or else a validator by name
stands in the specification whose maker fails for another reason than that its arguments are unfit,
and that fault is what the validation ends in. -/
theorem run_returns_or_escapes (hr : r.Grown) (host : Host) (spec value : Value) (values : Entries)
    (log : Log) :
    (∃ answer log', (runSpec r spec value values).result host log = (.ok answer, log') ∧
        Met r host value values log (leaves spec)
          (.ok (if passes answer then none else some answer), log')) ∨
      ∃ name args f log', .named (.text name) args ∈ leaves spec ∧ Escapes r name args f ∧
        (runSpec r spec value values).result host log = (.error f, log') ∧
        Met r host value values log (leaves spec) (.error f, log') := by
  have hmet : Met r host value values log (leaves spec)
      (failure ((runSpec r spec value values).result host log)) := runSpec_met spec log
  revert hmet
  rcases (runSpec r spec value values).result host log with ⟨answer, log'⟩
  intro hmet
  cases answer with
  | ok a => exact Or.inl ⟨a, log', rfl, hmet⟩
  | error f =>
    obtain ⟨name, args, hmem, hescapes⟩ := hmet.exists_escape hr
    exact Or.inr ⟨name, args, f, log', hmem, hescapes, rfl, hmet⟩

/-- A pattern with a group that is not closed, as a specification. -/
def openGroup : Value :=
  .map [(.text "pattern", .text "(")]

/-- With this specification the forms' own registry does not return. -/
theorem not_run_returns :
    ¬ ∀ r : Registry, r.Grown → ∀ (host : Host) (spec value : Value) (values : Entries) (log : Log),
      ∃ answer log', (runSpec r spec value values).result host log = (.ok answer, log') := by
  intro h
  obtain ⟨answer, log', hreturns⟩ :=
    h .standard .standard World.bare.host openGroup (.text "a") [] []
  have hfails : (runSpec .standard openGroup (.text "a") []).result World.bare.host [] =
      (.error (.pattern ⟨.unclosedGroup, some ⟨0, none⟩⟩), []) := by cbv
  rw [hfails] at hreturns
  cases hreturns

/-- A missing value is found to be so before a pattern that is not well formed is asked for. -/
theorem run_returns_or_escapes_missing :
    let spec : Value := .list [.text "required", .list [openGroup]]
    Registry.standard.Grown ∧
      (runSpec .standard spec (.text "") []).result World.bare.host [] =
        (.ok (.issue "required" .null), []) ∧
      Met .standard World.bare.host (.text "") [] [] (leaves spec)
        (.ok (some (.issue "required" .null)), []) := by
  intro spec
  have hresult : (runSpec .standard spec (.text "") []).result World.bare.host [] =
      (.ok (.issue "required" .null), []) := by cbv
  refine ⟨.standard, hresult, ?_⟩
  rcases run_returns_or_escapes .standard World.bare.host spec (.text "") [] [] with
    ⟨answer, log', hanswer, hmet⟩ | ⟨name, args, f, log', -, -, hfault, -⟩
  · rw [hresult] at hanswer
    cases hanswer
    exact hmet
  · rw [hresult] at hfault
    cases hfault

end Validation

end LiveForm
