import Mathlib
import LiveForm.Form.Loader
import LiveForm.Proofs.Form.Lineage
import LiveForm.Proofs.Form.Operation
import LiveForm.Proofs.Validation.Returning

/-!
# Validators of forms that were loaded

A form is loaded only if the names that stand with arguments in its specifications are registered.
The check goes through a specification as a validation does later, so it comes by every entry that a
validation reaches (`Reaches.mem_calls`, `Loader.exists_known_of_load`). Yet it asks for less than
the validation needs: a name is registered as soon as it has a validator, while arguments are for a
maker; and it reads a key as a text, while only a text is the name of a validator. What comes of an
entry that is reached is what its validator or its maker gives, except for these two cases
(`handled_of_load`).
-/

namespace LiveForm

namespace Definition

/-- A field or a type of input of the form has this specification of validators. -/
inductive Specifies (d : Definition) : Value → Prop
  | field {name : FieldName} {field : Field} : (name, field) ∈ d.fields →
      Specifies d field.validator
  | input {name : Key} {input : InputType} : (name, input) ∈ d.inputs →
      Specifies d input.validator

end Definition

namespace Validation

mutual

/-- The names that stand with arguments in a specification, in order. -/
def calls : Value → List (Key × Value)
  | .map entries => entries
  | .list items => itemCalls items
  | _ => []

/-- The names that stand with arguments in a list of specifications, in order. -/
def itemCalls : List Value → List (Key × Value)
  | [] => []
  | spec :: rest => calls spec ++ itemCalls rest

end

theorem mem_itemCalls {call : Key × Value} {spec : Value} {items : List Value} (hs : spec ∈ items)
    (hc : call ∈ calls spec) : call ∈ itemCalls items := by
  induction items with
  | nil => exact nomatch hs
  | cons first rest ih =>
    rw [itemCalls, List.mem_append]
    rcases List.mem_cons.1 hs with rfl | hs
    · exact Or.inl hc
    · exact Or.inr (ih hs)

end Validation

/-! ### What the check covers -/

namespace Loader

open Validation

variable {r : Registry} {d : Definition} {v : Value} {call : Key × Value}

theorem ofNumber_eq_ok {α : Type} {x : Except NumberError α} {a : α} :
    Fault.ofNumber x = .ok a ↔ x = .ok a := by
  cases x <;> simp [Fault.ofNumber, Except.mapError]

theorem exists_mem_keyNames : ∀ {entries : List (Key × Value)} {names : List String},
    keyNames entries = .ok names → call ∈ entries → ∃ n ∈ names, call.1.plain = .ok n
  | [], _, _, hc => nomatch hc
  | (k, args) :: rest, names, h, hc => by
    rw [keyNames] at h
    obtain ⟨n, hn, h⟩ := exists_of_bind_eq_ok h
    obtain ⟨others, hothers, h⟩ := exists_of_bind_eq_ok h
    obtain rfl : n :: others = names := Except.ok.inj h
    rcases List.mem_cons.1 hc with rfl | hc
    · exact ⟨n, List.mem_cons_self, ofNumber_eq_ok.1 hn⟩
    · obtain ⟨n', hn', hplain⟩ := exists_mem_keyNames hothers hc
      exact ⟨n', List.mem_cons_of_mem n hn', hplain⟩

mutual

/-- The check comes by every name that stands with arguments. -/
theorem exists_mem_makerNames : ∀ {spec : Value} {names : List String},
    makerNames spec = .ok names → call ∈ calls spec → ∃ n ∈ names, call.1.plain = .ok n
  | .map _, _, h, hc => exists_mem_keyNames h hc
  | .list _, _, h, hc => exists_mem_itemNames h hc
  | .null, _, _, hc => nomatch hc
  | .text _, _, _, hc => nomatch hc
  | .bool _, _, _, hc => nomatch hc
  | .number _, _, _, hc => nomatch hc
  | .field _ _ _, _, _, hc => nomatch hc
  | .issue _ _, _, _, hc => nomatch hc
  | .unset, _, _, hc => nomatch hc
  | .check _, _, _, hc => nomatch hc
  | .callback _, _, _, hc => nomatch hc

theorem exists_mem_itemNames : ∀ {items : List Value} {names : List String},
    itemNames items = .ok names → call ∈ itemCalls items → ∃ n ∈ names, call.1.plain = .ok n
  | [], _, _, hc => nomatch hc
  | spec :: rest, names, h, hc => by
    rw [itemNames] at h
    obtain ⟨first, hfirst, h⟩ := exists_of_bind_eq_ok h
    obtain ⟨others, hothers, h⟩ := exists_of_bind_eq_ok h
    obtain rfl : first ++ others = names := Except.ok.inj h
    rcases List.mem_append.1 hc with hc | hc
    · obtain ⟨n, hn, hplain⟩ := exists_mem_makerNames hfirst hc
      exact ⟨n, List.mem_append_left others hn, hplain⟩
    · obtain ⟨n, hn, hplain⟩ := exists_mem_itemNames hothers hc
      exact ⟨n, List.mem_append_right first hn, hplain⟩

end

/-- A form that is loaded has passed the check. -/
theorem checkValidators_of_load (h : load r v = .ok d) : checkValidators r d = .ok () := by
  obtain ⟨d', -, h⟩ := exists_of_bind_eq_ok h
  obtain ⟨u, hcheck, h⟩ := exists_of_bind_eq_ok h
  obtain rfl : d' = d := Except.ok.inj h
  exact hcheck

/-- **In a form that is loaded, what stands with arguments is a registered name, read as a
text.** -/
theorem exists_known_of_load (h : load r v = .ok d) {spec : Value} (hspec : d.Specifies spec)
    (hc : call ∈ calls spec) : ∃ n, call.1.plain = .ok n ∧ r.knows n = true := by
  have hmem : spec ∈
      d.fields.map (fun e => e.2.validator) ++ d.inputs.map fun e => e.2.validator := by
    rw [List.mem_append]
    cases hspec with
    | field hfield => exact Or.inl (List.mem_map_of_mem hfield)
    | input hinput => exact Or.inr (List.mem_map_of_mem hinput)
  have hone := forM_eq_ok.1 (checkValidators_of_load h) spec hmem
  obtain ⟨names, hnames, hone⟩ := exists_of_bind_eq_ok hone
  obtain ⟨n, hn, hplain⟩ := exists_mem_makerNames hnames hc
  have hknows := forM_eq_ok.1 hone n hn
  refine ⟨n, hplain, ?_⟩
  split at hknows
  · next h => exact h
  · obtain ⟨shown, -, hthrow⟩ := exists_of_bind_eq_ok hknows
    exact nomatch hthrow

end Loader

/-! ### What a validation comes by -/

namespace Validation

section

variable (r : Registry) (host : Host) (value : Value) (values : Entries)

/-- A validation that begins with the one log comes by a name with arguments, having the other log
by then: what stands before it has passed. -/
inductive Reaches : Value → Log → Key × Value → Log → Prop
  | entry (before after : List (Key × Value)) {call : Key × Value} {log log' : Log} {a : Value} :
      (runEntries r before value values).result host log = (.ok a, log') → passes a = true →
      Reaches (.map (before ++ call :: after)) log call log'
  | item (before after : List Value) {spec : Value} {call : Key × Value} {log mid log' : Log}
      {a : Value} :
      (runItems r before value values).result host log = (.ok a, mid) → passes a = true →
      Reaches spec mid call log' → Reaches (.list (before ++ spec :: after)) log call log'

/-- **What comes of a name with arguments in a form that was loaded**: what its validator or its
maker gives, except for arguments without a maker and a key that is no text. -/
inductive Handled (log : Log) : Key × Value → Except Fault Value × Log → Prop
  /-- False in the place of arguments switches a validator off. -/
  | off (name : Key) : Handled log (name, .bool false) (.ok (.bool true), log)
  | found (name : String) (args : Value) (v : Validator) (out : Except Fault Value × Log) :
      r.find name args = .ok v → Answered host value values log v out →
      Handled log (.text name, args) out
  | unmade (name : String) (args : Value) (make : Maker) (f : Fault) :
      Table.get? name r.makers = some make → make (Registry.given args) = .error f →
      f.isUnfit = true → Handled log (.text name, args) (.ok (unmadeIssue name f), log)
  | escapes (name : String) (args : Value) (make : Maker) (f : Fault) :
      Table.get? name r.makers = some make → make (Registry.given args) = .error f →
      f.isUnfit = false → Handled log (.text name, args) (.error f, log)
  /-- There are arguments, and the name has only a validator, which takes none. -/
  | makerless (name : String) (args : Value) : args ≠ .null → args ≠ .bool true →
      args ≠ .bool false → Table.has name r.validators = true →
      Table.get? name r.makers = none →
      Handled log (.text name, args)
        (.ok (unmadeIssue name (.registry (.noMaker name r.names))), log)
  /-- The key is no text, though the text that it is read as is registered. -/
  | skipped (key : Key) (args : Value) (name : String) : args ≠ .bool false →
      (∀ s, key ≠ .text s) → key.plain = .ok name → r.knows name = true →
      Handled log (key, args) (.ok (.bool true), log ++ [unknownEntry key])

end

variable {r : Registry} {host : Host} {value : Value} {values : Entries} {log log' : Log}
  {spec : Value} {call : Key × Value}

theorem Reaches.mem_calls (h : Reaches r host value values spec log call log') :
    call ∈ calls spec := by
  induction h with
  | entry => exact List.mem_append_right _ List.mem_cons_self
  | item _ _ _ _ _ ih => exact mem_itemCalls (List.mem_append_right _ List.mem_cons_self) ih

/-- Three processes, each of which runs if the one before it passes. -/
theorem andThen_assoc {first second third : Checking Value} :
    (do
      let b ← (do
        let a ← first
        if passes a then second else return a : Checking Value)
      if passes b then third else return b) =
    (do
      let a ← first
      if passes a then (do
        let b ← second
        if passes b then third else return b : Checking Value)
      else return a) := by
  rw [bind_assoc]
  refine congrArg _ (funext fun a => ?_)
  split
  · rfl
  · next hfails => rw [pure_bind, if_neg hfails]

/-- Entries in two parts: the second runs if the first passes. -/
theorem runEntries_append (l l' : List (Key × Value)) :
    runEntries r (l ++ l') value values = (do
      let a ← runEntries r l value values
      if passes a then runEntries r l' value values else return a) := by
  induction l with
  | nil =>
    rw [runEntries, pure_bind]
    rfl
  | cons e l ih => rw [List.cons_append, runEntries, runEntries, andThen_assoc, ih]

/-- Specifications in two parts: the second runs if the first passes. -/
theorem runItems_append (l l' : List Value) :
    runItems r (l ++ l') value values = (do
      let a ← runItems r l value values
      if passes a then runItems r l' value values else return a) := by
  induction l with
  | nil =>
    rw [runItems, pure_bind]
    rfl
  | cons spec l ih => rw [List.cons_append, runItems, runItems, andThen_assoc, ih]

/-- A process of two parts ends where the first does, if that does not pass. -/
theorem result_of_not_passes {first rest : Checking Value} {out : Except Fault Value × Log}
    (h : first.result host log = out) (hfails : ∀ a, out.1 = .ok a → passes a = false) :
    (do
      let a ← first
      if passes a then rest else return a : Checking Value).result host log = out := by
  rw [Checking.result_bind, h]
  obtain ⟨answer, log'⟩ := out
  cases answer with
  | error f => rfl
  | ok a =>
    simp only [hfails a rfl]
    rfl

/-- A process of two parts goes on with the second, if the first passes. -/
theorem result_of_passes {first rest : Checking Value} {a : Value}
    (h : first.result host log = (.ok a, log')) (hpass : passes a = true) :
    (do
      let a ← first
      if passes a then rest else return a : Checking Value).result host log =
      rest.result host log' := by
  rw [Checking.result_bind, h]
  simp only [hpass, if_true]

/-- What comes of a name with arguments is what comes of the validation, unless it passes. -/
theorem Reaches.result_eq (h : Reaches r host value values spec log call log')
    {out : Except Fault Value × Log}
    (hout : (runNamed r call.1 call.2 value values).result host log' = out)
    (hfails : ∀ a, out.1 = .ok a → passes a = false) :
    (runSpec r spec value values).result host log = out := by
  induction h with
  | entry _ _ hbefore hpass =>
    rw [runSpec, runEntries_append, result_of_passes hbefore hpass, runEntries]
    exact result_of_not_passes hout hfails
  | item _ _ hbefore hpass _ ih =>
    rw [runSpec, runItems_append, result_of_passes hbefore hpass, runItems]
    exact result_of_not_passes (ih hout) hfails

/-- A registered name for which no validator is found has a maker that fails; or it has only a
validator, and there are arguments. -/
theorem maker_or_makerless {name : String} {args : Value} {f : Fault} (hknown : r.knows name = true)
    (h : r.find name args = .error f) :
    (∃ make, Table.get? name r.makers = some make ∧ make (Registry.given args) = .error f) ∨
      args ≠ .null ∧ args ≠ .bool true ∧ Table.has name r.validators = true ∧
        Table.get? name r.makers = none ∧ f = .registry (.noMaker name r.names) := by
  cases hmake : Table.get? name r.makers with
  | some make =>
    refine Or.inl ⟨make, rfl, ?_⟩
    rcases r.find_cases name args with ⟨hgiven, hfind⟩ | ⟨hgiven, hfind⟩
    · rw [hfind, Registry.resolve, hmake] at h
      rw [hgiven]
      split at h
      · cases h
      · next hsome => exact Option.some.inj hsome ▸ h
      · next hnone => cases hnone
    · rw [hfind, Registry.resolveWith, hmake] at h
      rw [hgiven]
      exact h
  | none =>
    have hvalidator : Table.has name r.validators = true := by
      rw [Registry.knows, Table.has, Table.has, hmake] at hknown
      simpa [Table.has] using hknown
    obtain ⟨v, hv⟩ := Option.isSome_iff_exists.1 hvalidator
    have hresolve : r.resolve name = .ok v := by rw [Registry.resolve, hv]
    refine Or.inr ⟨?_, ?_, hvalidator, rfl, ?_⟩
    · rintro rfl
      cases hresolve.symm.trans h
    · rintro rfl
      cases hresolve.symm.trans h
    · rcases r.find_cases name args with ⟨-, hfind⟩ | ⟨-, hfind⟩
      · cases hresolve.symm.trans (hfind.symm.trans h)
      · rw [hfind, Registry.resolveWith, hmake] at h
        exact (Except.error.inj h).symm

/-- What comes of a name with arguments that is registered when it is read as a text. -/
theorem handled_of_known {n : String} (hplain : call.1.plain = .ok n) (hknown : r.knows n = true)
    (log : Log) : Handled r host value values log call
      ((runNamed r call.1 call.2 value values).result host log) := by
  obtain ⟨key, args⟩ := call
  have hasked : Asked r host value values log (.named key args)
      ((runNamed r key args value values).result host log) := asked_named key args log
  revert hasked
  generalize (runNamed r key args value values).result host log = out
  rintro (_ | ⟨_, _, hargs, hunknown⟩ | ⟨name, _, f, hargs, hname, hfind, hunfit⟩ |
    ⟨name, _, f, _, _, hfind, hunfit⟩ | ⟨name, _, v, _, _, _, hfind, hanswer⟩)
  · exact .off key
  · refine .skipped key args n hargs ?_ hplain hknown
    rintro s rfl
    obtain rfl : s = n := Except.ok.inj hplain
    have hs : r.knows s = false := hunknown
    exact nomatch hknown.symm.trans hs
  · rcases maker_or_makerless hname hfind with
      ⟨make, hmake, hfails⟩ | ⟨hnull, htrue, hvalidator, hnone, rfl⟩
    · exact .unmade name args make f hmake hfails hunfit
    · exact .makerless name args hnull htrue hargs hvalidator hnone
  · obtain ⟨make, hmake, hfails⟩ := Registry.exists_maker_of_find hfind hunfit
    exact .escapes name args make f hmake hfails hunfit
  · exact .found name args v out hfind hanswer

/-- **What the check of a form says of its validations.** Let a form be loaded, and let a validation
of one of its specifications come by a name with arguments. Then the name is registered, if it is
read as a text; and it is handled by its validator or its maker, unless there are arguments and no
maker for them, or the name is no text. What does not pass is what the validation ends in. -/
theorem handled_of_load {v : Value} {d : Definition} (hload : Loader.load r v = .ok d)
    (hspec : d.Specifies spec) (hreach : Reaches r host value values spec log call log') :
    (∃ n, call.1.plain = .ok n ∧ r.knows n = true) ∧
      ∃ out, (runNamed r call.1 call.2 value values).result host log' = out ∧
        Handled r host value values log' call out ∧
        ((∀ a, out.1 = .ok a → passes a = false) →
          (runSpec r spec value values).result host log = out) := by
  obtain ⟨n, hplain, hknown⟩ := Loader.exists_known_of_load hload hspec hreach.mem_calls
  exact ⟨⟨n, hplain, hknown⟩, _, rfl, handled_of_known hplain hknown log', hreach.result_eq rfl⟩

/-- A specification in which a validator that takes no arguments is given one. -/
def limited : Value :=
  .list [.text "email", .list [.map [(.text "required", .int 5)]]]

/-- A form with this specification, as a value. -/
def limitedValue : Value :=
  .map [(.text "fields", .map [(.text "a", .map [(.text "validator", limited)])])]

/-- The form that is loaded from it. -/
def limitedForm : Definition where
  fields := [(FieldName.text "a", { name := FieldName.text "a", validator := limited })]

theorem load_limited : Loader.load .standard limitedValue = .ok limitedForm := rfl

theorem specifies_limited : limitedForm.Specifies limited :=
  @Definition.Specifies.field limitedForm (FieldName.text "a")
    { name := FieldName.text "a", validator := limited } List.mem_cons_self

/-- A validation of it comes by the name with arguments, if the value is an address. -/
theorem reaches_limited : Reaches .standard World.bare.host (.text "a@b.de") [] limited []
    (.text "required", .int 5) [] := by
  have hemail : (runItems .standard [.text "email"] (.text "a@b.de") []).result World.bare.host [] =
      (.ok (.bool true), []) := by cbv
  have hno : (runItems .standard [] (.text "a@b.de") []).result World.bare.host [] =
      (.ok (.bool true), []) := rfl
  have hnone : (runEntries .standard [] (.text "a@b.de") []).result World.bare.host [] =
      (.ok (.bool true), []) := rfl
  exact .item [.text "email"] [] hemail rfl (.item [] [] hno rfl (.entry [] [] hnone rfl))

/-- The validation fails, since there is no maker of this name. -/
theorem run_limited : (runNamed .standard (.text "required") (.int 5) (.text "a@b.de") []).result
    World.bare.host [] =
      (.ok (unmadeIssue "required" (.registry (.noMaker "required" Registry.standard.names))), []) :=
  rfl

/-- A form may be loaded whose validation then comes by a name without a maker. -/
theorem not_registered_of_load :
    ¬ ∀ r : Registry, r.Grown → ∀ (v : Value) (d : Definition), Loader.load r v = .ok d →
      ∀ spec, d.Specifies spec → ∀ (host : Host) (value : Value) (values : Entries)
        (log log' : Log) (call : Key × Value), Reaches r host value values spec log call log' →
        ∀ name, (runNamed r call.1 call.2 value values).result host log' ≠
          (.ok (unmadeIssue name (.registry (.noMaker name r.names))), log') := by
  intro h
  exact h .standard .standard limitedValue limitedForm load_limited limited specifies_limited
    World.bare.host (.text "a@b.de") [] [] [] (.text "required", .int 5) reaches_limited "required"
    run_limited

/-- The form is loaded, and the validation ends in the failure to find a maker. -/
theorem handled_of_load_limited :
    Loader.load .standard limitedValue = .ok limitedForm ∧ limitedForm.Specifies limited ∧
      Reaches .standard World.bare.host (.text "a@b.de") [] limited [] (.text "required", .int 5)
        [] ∧
      Registry.standard.knows "required" = true ∧
      (runSpec .standard limited (.text "a@b.de") []).result World.bare.host [] =
        (.ok (unmadeIssue "required" (.registry (.noMaker "required" Registry.standard.names))),
          []) := by
  obtain ⟨⟨n, hplain, hknown⟩, out, hout, -, hend⟩ :=
    handled_of_load load_limited specifies_limited reaches_limited
  obtain rfl : "required" = n := Except.ok.inj hplain
  rw [run_limited] at hout
  subst hout
  refine ⟨load_limited, specifies_limited, reaches_limited, hknown, hend fun a ha => ?_⟩
  obtain rfl := Except.ok.inj ha
  rfl

end Validation

end LiveForm
