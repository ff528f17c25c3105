import Mathlib
import LiveForm.Proofs.Formula.Division
import LiveForm.Proofs.Formula.Failures
import LiveForm.Proofs.Formula.Spelling

/-!
# Whole numbers through text

A field's whole number joined to the empty text is one of the decimal texts of that number, as long
as it has no more digits than can be written. Such a text equals the number loosely, and a sign, a
product by one and a difference from zero all lead from it back to the same number. A longer number
cannot be joined: that gives nothing and one warning (`whole_number_through_text`).
-/

namespace LiveForm

open Numeral (Denotes)

/-- A whole number and its decimal texts are loosely equal. -/
theorem Value.looseEq_of_denotes {s : String} {n : Int} (h : Denotes s n) :
    (Value.text s).looseEq (.int n) = true ∧ (Value.int n).looseEq (.text s) = true := by
  have hself : (Number.int n).eqv (.int n) = true := by
    simp [Number.eqv, Number.compare?]
  constructor <;> simp [Value.looseEq, Value.bare, Value.flagAsNumber, h.read?_eq, hself]

namespace Formula

variable {ctx : Context} {e : Expr} {v : Value} {n : Int}

/-! ### Operators -/

/-- A whole number joined to the empty text is what is written for it, if it can be written. -/
theorem eval_join (he : eval ctx e = .ok v) (hv : v.bare = .int n) :
    eval ctx (.binary .add e (.literal (.text ""))) =
      match Numeral.write n with
      | .ok s => .ok (.text s)
      | .error cause => failEval (.concatenation cause) := by
  have heval : eval ctx (.binary .add e (.literal (.text ""))) = plus v.bare (.text "") :=
    eval_binary he (eval.eq_1 ctx _)
  have hjoin : joinText (.int n) = Numeral.write n := rfl
  have hempty : joinText (.text "") = .ok "" := rfl
  rw [heval, hv, plus.eq_2 _ _ (by simp), hjoin, hempty]
  cases Numeral.write n with
  | ok s =>
    have happend : s ++ "" = s := String.append_empty
    exact congrArg (fun t => Except.ok (Value.text t)) happend
  | error cause => rfl

theorem eval_pos (he : eval ctx e = .ok v) (hv : toNumber v.bare = .ok (.int n)) :
    eval ctx (.unary .pos e) = .ok (.int n) := by
  have heval : eval ctx (.unary .pos e) = signed id v.bare := eval_unary he
  rw [heval]
  unfold signed
  split
  · next hnull =>
    rw [hnull] at hv
    cases hv
  · rw [hv]
    rfl

theorem eval_mul_one (he : eval ctx e = .ok v) (hv : toNumber v.bare = .ok (.int n)) :
    eval ctx (.binary .mul e (.literal (.int 1))) = .ok (.int n) := by
  have heval : eval ctx (.binary .mul e (.literal (.int 1))) =
      arithmetic (fun a b => Fault.ofNumber (a.mul b)) v.bare (.int 1) :=
    eval_binary he (eval.eq_1 ctx _)
  have hmul : Number.mul (.int n) (.int 1) = .ok (.int (n * 1)) := rfl
  rw [heval, arithmetic_eq hv rfl, hmul, mul_one]
  rfl

theorem eval_sub_zero (he : eval ctx e = .ok v) (hv : toNumber v.bare = .ok (.int n)) :
    eval ctx (.binary .sub e (.literal (.int 0))) = .ok (.int n) := by
  have heval : eval ctx (.binary .sub e (.literal (.int 0))) =
      arithmetic (fun a b => Fault.ofNumber (a.sub b)) v.bare (.int 0) :=
    eval_binary he (eval.eq_1 ctx _)
  have hsub : Number.sub (.int n) (.int 0) = .ok (.int (n - 0)) := rfl
  rw [heval, arithmetic_eq hv rfl, hsub, sub_zero]
  rfl

/-! ### Sources -/

section

variable {x : String} (hname : IsName x) (hword : wordLexeme x = .name x)
include hname hword

theorem spells_name : Spells (.name x) x :=
  hword ▸ .word hname

theorem printable_join : Printable (.binary .add (.name x) (.literal (.text ""))) :=
  .binary nofun (.name hname hword) (.literal (.text ""))

theorem parse_join :
    parse (x ++ " + ''") = .ok (.binary .add (.name x) (.literal (.text ""))) := by
  have hspells : List.Forall₂ Spells (row (.binary .add (.name x) (.literal (.text ""))))
      [x, "+", "''"] :=
    .cons (spells_name hname hword) (.cons (.symbol .plus) (.cons (.text "" (by decide)) .nil))
  have hsource : x ++ " + ''" = " ".intercalate [x, "+", "''"] :=
    String.toList_inj.1 (by simp)
  rw [hsource]
  exact (printable_join hname hword).parse_row hspells

theorem parse_eq_join : parse (x ++ " == " ++ x ++ " + ''") =
    .ok (.binary .eq (.name x) (.binary .add (.name x) (.literal (.text "")))) := by
  have hx : Spells (.name x) x := spells_name hname hword
  have hspells : List.Forall₂ Spells
      (row (.binary .eq (.name x) (.binary .add (.name x) (.literal (.text "")))))
      [x, "==", x, "+", "''"] :=
    .cons hx (.cons (.symbol .eq) (.cons hx
      (.cons (.symbol .plus) (.cons (.text "" (by decide)) .nil))))
  have hsource : x ++ " == " ++ x ++ " + ''" = " ".intercalate [x, "==", x, "+", "''"] :=
    String.toList_inj.1 (by simp)
  have hprintable : Printable
      (.binary .eq (.name x) (.binary .add (.name x) (.literal (.text "")))) :=
    .binary nofun (.name hname hword) (printable_join hname hword)
  rw [hsource]
  exact hprintable.parse_row hspells

theorem parse_pos : parse ("+ " ++ x) = .ok (.unary .pos (.name x)) := by
  have hspells : List.Forall₂ Spells (row (.unary .pos (.name x))) ["+", x] :=
    .cons (.symbol .plus) (.cons (spells_name hname hword) .nil)
  have hsource : "+ " ++ x = " ".intercalate ["+", x] :=
    String.toList_inj.1 (by simp)
  have hprintable : Printable (.unary .pos (.name x)) := .unary nofun (.name hname hword)
  rw [hsource]
  exact hprintable.parse_row hspells

/-- An operator between a name and a natural number. -/
theorem parse_number (op : BinaryOp) {s : Symbol} (hop : op.InLanguage)
    (hs : op.lexeme = .symbol s) {k : Nat} (hk : (Nat.toDigits 10 k).length ≤ digitLimit) :
    parse (x ++ " " ++ s.spelling ++ " " ++ String.ofList (Nat.toDigits 10 k)) =
      .ok (.binary op (.name x) (.literal (.int k))) := by
  have hspells : List.Forall₂ Spells (row (.binary op (.name x) (.literal (.int k))))
      [x, s.spelling, String.ofList (Nat.toDigits 10 k)] := by
    refine .cons (spells_name hname hword) ?_
    rw [hs]
    exact .cons (.symbol s) (.cons (.number hk) .nil)
  have hprintable : Printable (.binary op (.name x) (.literal (.int k))) :=
    .binary hop (.name hname hword) (.literal (.number k))
  exact hprintable.parse_row hspells

theorem parse_mul_one :
    parse (x ++ " * 1") = .ok (.binary .mul (.name x) (.literal (.int 1))) := by
  have hsource : x ++ " * 1" = x ++ " " ++ "*" ++ " " ++ String.ofList ['1'] :=
    String.toList_inj.1 (by simp)
  rw [hsource]
  exact parse_number hname hword .mul nofun rfl (k := 1) (by decide)

theorem parse_sub_zero :
    parse (x ++ " - 0") = .ok (.binary .sub (.name x) (.literal (.int 0))) := by
  have hsource : x ++ " - 0" = x ++ " " ++ "-" ++ " " ++ String.ofList ['0'] :=
    String.toList_inj.1 (by simp)
  rw [hsource]
  exact parse_number hname hword .sub nofun rfl (k := 0) (by decide)

end

/-- **A whole number survives the way through text.** A field holds a whole number. If that has no
more digits than can be written, the field joined to the empty text gives a text that is loosely
equal to the number, by the function and in a formula, and from a field that holds this text a plus
sign, a product by one and a difference from zero give exactly the number. If it has more digits,
joining gives nothing and one warning. -/
theorem whole_number_through_text {x : String} (hname : IsName x) (hword : wordLexeme x = .name x)
    (hx : (Entries.at0 ctx x).bare = .int n) (log : Log) :
    (n.natAbs < 10 ^ digitLimit → ∃ s : String,
      evaluate (x ++ " + ''") ctx log = (.ok (.text s), log) ∧
      (Value.text s).looseEq (.int n) = true ∧
      evaluate (x ++ " == " ++ x ++ " + ''") ctx log = (.ok (.bool true), log) ∧
      ∀ (ctx' : Context) (y : String) (log' : Log), IsName y → wordLexeme y = .name y →
        (Entries.at0 ctx' y).bare = .text s →
          evaluate ("+ " ++ y) ctx' log' = (.ok (.int n), log') ∧
          evaluate (y ++ " * 1") ctx' log' = (.ok (.int n), log') ∧
          evaluate (y ++ " - 0") ctx' log' = (.ok (.int n), log')) ∧
    (10 ^ digitLimit ≤ n.natAbs →
      evaluate (x ++ " + ''") ctx log =
        (.ok .null, log ++ [evalWarning (x ++ " + ''") (.concatenation .tooLongToWrite)])) := by
  have hfield : eval ctx (.name x) = .ok (Entries.at0 ctx x) := eval.eq_2 ctx x
  have hjoin := eval_join hfield hx
  refine ⟨fun hshort => ?_, fun hlong => ?_⟩
  · obtain ⟨s, hwrite, hs⟩ := Numeral.write_denotes hshort
    rw [hwrite] at hjoin
    have heq : eval ctx (.binary .eq (.name x) (.binary .add (.name x) (.literal (.text "")))) =
        .ok (.bool true) := by
      have htext : (Value.text s).bare = .text s := rfl
      rw [eval_binary hfield hjoin, hx, htext, binaryOp, (Value.looseEq_of_denotes hs).2]
    refine ⟨s, evaluate_of_eval (parse_join hname hword) hjoin log, (Value.looseEq_of_denotes hs).1,
      evaluate_of_eval (parse_eq_join hname hword) heq log, fun ctx' y log' hyname hyword hy => ?_⟩
    have hfield' : eval ctx' (.name y) = .ok (Entries.at0 ctx' y) := eval.eq_2 ctx' y
    have hnumber : toNumber (Entries.at0 ctx' y).bare = .ok (.int n) := by
      simp only [hy, toNumber, hs.read?_eq]
    have hpos := evaluate_of_eval (parse_pos hyname hyword) (eval_pos hfield' hnumber) log'
    have hmul := evaluate_of_eval (parse_mul_one hyname hyword) (eval_mul_one hfield' hnumber) log'
    have hsub :=
      evaluate_of_eval (parse_sub_zero hyname hyword) (eval_sub_zero hfield' hnumber) log'
    exact ⟨hpos, hmul, hsub⟩
  · rw [Numeral.write_long hlong] at hjoin
    exact evaluate_of_failEval (parse_join hname hword) hjoin log

/-- The least number that can be written, and the least one above zero that is too long. -/
theorem whole_number_through_text_boundary :
    let held (n : Int) : Context := [(.text "n", .field (.int n) {} .null)]
    let n : Int := 1 - leastLong
    IsName "n" ∧ wordLexeme "n" = .name "n" ∧ (Entries.at0 (held n) "n").bare = .int n ∧
      n.natAbs < 10 ^ digitLimit ∧ 10 ^ digitLimit ≤ leastLong.natAbs ∧
      (∃ s : String,
        evaluate "n + ''" (held n) [] = (.ok (.text s), []) ∧
        (Value.text s).looseEq (.int n) = true ∧
        evaluate "n == n + ''" (held n) [] = (.ok (.bool true), []) ∧
        evaluate "+ s" [(.text "s", .text s)] [] = (.ok (.int n), []) ∧
        evaluate "s * 1" [(.text "s", .text s)] [] = (.ok (.int n), []) ∧
        evaluate "s - 0" [(.text "s", .text s)] [] = (.ok (.int n), [])) ∧
      evaluate "n + ''" (held leastLong) [] =
        (.ok .null, [evalWarning "n + ''" (.concatenation .tooLongToWrite)]) := by
  intro held n
  have hname : IsName "n" := ⟨'n', [], rfl, by decide, by simp⟩
  have hname' : IsName "s" := ⟨'s', [], rfl, by decide, by simp⟩
  have hshort : n.natAbs < 10 ^ digitLimit := by
    have hpos : 0 < 10 ^ digitLimit := Nat.pow_pos (by decide)
    simp only [n, leastLong, Nat.pow_eq]
    omega
  have hlong : 10 ^ digitLimit ≤ leastLong.natAbs := by
    simp only [leastLong, Nat.pow_eq]
    omega
  have hheld (n : Int) : (Entries.at0 (held n) "n").bare = .int n := rfl
  obtain ⟨s, hjoin, hloose, heq, hback⟩ :=
    (whole_number_through_text hname rfl (hheld n) []).1 hshort
  obtain ⟨hpos, hmul, hsub⟩ := hback [(.text "s", .text s)] "s" [] hname' rfl rfl
  exact ⟨hname, rfl, hheld n, hshort, hlong, ⟨s, hjoin, hloose, heq, hpos, hmul, hsub⟩,
    (whole_number_through_text hname rfl (hheld leastLong) []).2 hlong⟩

end Formula

end LiveForm
