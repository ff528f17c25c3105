import Mathlib
import LiveForm.Formula.Eval
import LiveForm.Proofs.Number.Numeral

/-!
# Division with a remainder

The remainder of whole numbers has the sign of the dividend, and what is left when it is taken away
is divided without a rest, so that the quotient stays whole. A flag, a decimal text and a field that
holds one of these stand for whole numbers like the numbers themselves. The two parts make up the
dividend again, and a divisor of zero gives nothing and one warning (`quotient_and_remainder`).
-/

namespace LiveForm

/-- **The values that stand for a whole number**: the number, a flag, a decimal text, and a field
that holds such a value. -/
inductive Value.StandsFor : Value → Int → Prop
  | int (n : Int) : StandsFor (.int n) n
  | flag (b : Bool) : StandsFor (.bool b) (if b then 1 else 0)
  | text {s : String} {n : Int} : Numeral.Denotes s n → StandsFor (.text s) n
  | field {v : Value} {n : Int} (marks : Marks) (error : Value) : StandsFor v n →
      StandsFor (.field v marks error) n

namespace Formula

theorem toNumber_of_standsFor {v : Value} {n : Int} (h : v.StandsFor n) :
    toNumber v.bare = .ok (.int n) := by
  induction h with
  | int n => rfl
  | flag b => rfl
  | text hs =>
    simp only [Value.bare, toNumber, hs.read?_eq]
  | field _ _ _ ih => exact ih

/-! ### Whole numbers -/

/-- The remainder is the one that rounding the quotient toward zero leaves. -/
theorem modulo_int {a b : Int} (hb : b ≠ 0) :
    modulo (.int a) (.int b) = .ok (.int (a.tmod b)) := by
  have hrest : (if a < 0 then -((a.natAbs % b.natAbs : Nat) : Int) else (a.natAbs % b.natAbs : Nat)) =
      a.tmod b := by
    rw [← Int.natAbs_tmod]
    split
    · next ha =>
      have hneg : 0 ≤ (-a).tmod b := Int.tmod_nonneg b (by omega)
      rw [Int.neg_tmod] at hneg
      omega
    · next ha =>
      have hnonneg : 0 ≤ a.tmod b := Int.tmod_nonneg b (by omega)
      omega
  rw [modulo, Number.isZero, if_neg (by simpa using hb), Number.mod, hrest]
  rfl

theorem modulo_zero (a : Number) : modulo a (.int 0) = failEval .moduloByZero :=
  rfl

/-- Without the remainder the dividend is divided without a rest. -/
theorem divide_int {a b : Int} (hb : b ≠ 0) :
    divide (.int (a - a.tmod b)) (.int b) = .ok (.int (a.tdiv b)) := by
  have hmul : a - a.tmod b = b * a.tdiv b := by
    have hsum : b * a.tdiv b + a.tmod b = a := Int.mul_tdiv_add_tmod a b
    omega
  rw [divide, Number.isZero, if_neg (by simpa using hb), hmul, Number.div, Int.mul_fmod_right,
    Int.mul_fdiv_cancel_left _ hb]
  rfl

/-! ### In formulas -/

variable {ctx : Context} {e₁ e₂ : Expr} {v₁ v₂ : Value} {a b : Int}

theorem arithmetic_eq {op : Number → Number → Except Fault Number} {l r : Value} {m n : Number}
    (hl : toNumber l = .ok m) (hr : toNumber r = .ok n) :
    arithmetic op l r =
      match op m n with
      | .error (.number e) => failEval (.arithmetic e)
      | .error f => .error f
      | .ok k => .ok (.number k) := by
  unfold arithmetic
  split
  · exact nomatch hl
  · exact nomatch hr
  · rw [hl, hr]
    rfl

/-- The remainder of two formulas. -/
theorem eval_mod (h₁ : eval ctx e₁ = .ok v₁) (h₂ : eval ctx e₂ = .ok v₂) (ha : v₁.StandsFor a)
    (hb : v₂.StandsFor b) : eval ctx (.binary .mod e₁ e₂) =
      if b = 0 then failEval .moduloByZero else .ok (.int (a.tmod b)) := by
  have heval : eval ctx (.binary .mod e₁ e₂) = arithmetic modulo v₁.bare v₂.bare :=
    eval_binary h₁ h₂
  rw [heval, arithmetic_eq (toNumber_of_standsFor ha) (toNumber_of_standsFor hb)]
  split_ifs with hzero
  · rw [hzero, modulo_zero]
    rfl
  · rw [modulo_int hzero]

/-- A formula, less its remainder by another, divided by that other. -/
theorem eval_div_sub_mod (h₁ : eval ctx e₁ = .ok v₁) (h₂ : eval ctx e₂ = .ok v₂)
    (ha : v₁.StandsFor a) (hb : v₂.StandsFor b) :
    eval ctx (.binary .div (.binary .sub e₁ (.binary .mod e₁ e₂)) e₂) =
      if b = 0 then failEval .moduloByZero else .ok (.int (a.tdiv b)) := by
  have hmod := eval_mod h₁ h₂ ha hb
  split_ifs at hmod ⊢ with hzero
  · rw [eval, eval, h₁, hmod]
    rfl
  · have hsub : eval ctx (.binary .sub e₁ (.binary .mod e₁ e₂)) = .ok (.int (a - a.tmod b)) := by
      have heval : eval ctx (.binary .sub e₁ (.binary .mod e₁ e₂)) =
          arithmetic (fun m n => Fault.ofNumber (m.sub n)) v₁.bare (.int (a.tmod b)) :=
        eval_binary h₁ hmod
      rw [heval, arithmetic_eq (toNumber_of_standsFor ha) rfl]
      rfl
    have heval : eval ctx (.binary .div (.binary .sub e₁ (.binary .mod e₁ e₂)) e₂) =
        arithmetic divide (.int (a - a.tmod b)) v₂.bare :=
      eval_binary hsub h₂
    rw [heval, arithmetic_eq rfl (toNumber_of_standsFor hb), divide_int hzero]

theorem parse_remainder : parse "a % b" = .ok (.binary .mod (.name "a") (.name "b")) := by
  cbv

theorem parse_quotient : parse "(a - a % b) / b" =
    .ok (.binary .div (.binary .sub (.name "a") (.binary .mod (.name "a") (.name "b")))
      (.name "b")) := by
  cbv

/-- The warning that a source cannot be evaluated. -/
def evalWarning (source : String) (e : EvalError) : LogEntry :=
  ⟨.warning,
    "Expression evaluation error for " ++ Text.quoted source ++ ": " ++ e.message⟩

theorem evaluate_of_eval {source : String} {e : Expr} {v : Value} (hparse : parse source = .ok e)
    (heval : eval ctx e = .ok v) (log : Log) :
    evaluate source ctx log = (.ok v.stripped, log) := by
  rw [evaluate, hparse, answer, heval]
  rfl

theorem evaluate_of_failEval {source : String} {e : Expr} {cause : EvalError}
    (hparse : parse source = .ok e) (heval : eval ctx e = failEval cause) (log : Log) :
    evaluate source ctx log = (.ok .null, log ++ [evalWarning source cause]) := by
  rw [evaluate, hparse, answer, heval]
  rfl

/-- **Whole quotient and remainder fit together.** Where `a` and `b` stand for whole numbers of any
size, the remainder of `a` by `b` is whole, smaller than `b` and of the sign of `a`, and the quotient
of what is left is whole too; if `b` stands for zero, both formulas give nothing and one warning. -/
theorem quotient_and_remainder (ha : (Entries.at0 ctx "a").StandsFor a)
    (hb : (Entries.at0 ctx "b").StandsFor b) (log : Log) :
    (b ≠ 0 → ∃ q r : Int,
      evaluate "a % b" ctx log = (.ok (.int r), log) ∧
      evaluate "(a - a % b) / b" ctx log = (.ok (.int q), log) ∧
      |r| < |b| ∧ (r = 0 ∨ r.sign = a.sign) ∧ a = b * q + r) ∧
    (b = 0 →
      evaluate "a % b" ctx log = (.ok .null, log ++ [evalWarning "a % b" .moduloByZero]) ∧
      evaluate "(a - a % b) / b" ctx log =
        (.ok .null, log ++ [evalWarning "(a - a % b) / b" .moduloByZero])) := by
  have hmod : eval ctx (.binary .mod (.name "a") (.name "b")) =
      if b = 0 then failEval .moduloByZero else .ok (.int (a.tmod b)) :=
    eval_mod (eval.eq_2 ctx "a") (eval.eq_2 ctx "b") ha hb
  have hdiv : eval ctx (.binary .div (.binary .sub (.name "a")
      (.binary .mod (.name "a") (.name "b"))) (.name "b")) =
      if b = 0 then failEval .moduloByZero else .ok (.int (a.tdiv b)) :=
    eval_div_sub_mod (eval.eq_2 ctx "a") (eval.eq_2 ctx "b") ha hb
  refine ⟨fun hne => ⟨a.tdiv b, a.tmod b, ?_, ?_, ?_, ?_, ?_⟩, fun hzero => ⟨?_, ?_⟩⟩
  · rw [if_neg hne] at hmod
    exact evaluate_of_eval parse_remainder hmod log
  · rw [if_neg hne] at hdiv
    exact evaluate_of_eval parse_quotient hdiv log
  · rw [Int.abs_eq_natAbs, Int.abs_eq_natAbs, Int.natAbs_tmod]
    exact_mod_cast Nat.mod_lt _ (Int.natAbs_pos.2 hne)
  · rw [Int.sign_tmod]
    split_ifs with hdvd
    · exact Or.inl (Int.tmod_eq_zero_of_dvd hdvd)
    · exact Or.inr rfl
  · exact (Int.mul_tdiv_add_tmod a b).symm
  · rw [if_pos hzero] at hmod
    exact evaluate_of_failEval parse_remainder hmod log
  · rw [if_pos hzero] at hdiv
    exact evaluate_of_failEval parse_quotient hdiv log

/-- A field that holds minus seven, divided by the text of two. -/
theorem quotient_and_remainder_minus_seven :
    let ctx : Context := [(.text "a", .field (.int (-7)) {} .null), (.text "b", .text "+02")]
    (Entries.at0 ctx "a").StandsFor (-7) ∧ (Entries.at0 ctx "b").StandsFor 2 ∧
      ∃ q r : Int, evaluate "a % b" ctx [] = (.ok (.int r), []) ∧
        evaluate "(a - a % b) / b" ctx [] = (.ok (.int q), []) ∧
        |r| < 2 ∧ (r = 0 ∨ r.sign = -1) ∧ -7 = 2 * q + r := by
  intro ctx
  have ha : (Entries.at0 ctx "a").StandsFor (-7) := .field {} .null (.int (-7))
  have hdigits : ∀ c ∈ ['0', '2'], c.isDigit = true := by simp
  have htwo : Numeral.Denotes "+02" 2 := by
    have hdenotes : Numeral.Denotes (String.ofList ['+', '0', '2']) _ :=
      .plus ⟨fun c hc => Text.isDigit_of_ascii (hdigits c hc), by simp, by decide⟩
    rw [Numeral.ofDigits_map hdigits] at hdenotes
    exact hdenotes
  have hb : (Entries.at0 ctx "b").StandsFor 2 := .text htwo
  obtain ⟨q, r, hr, hq, hlt, hsign, hsum⟩ := (quotient_and_remainder ha hb []).1 (by decide)
  exact ⟨ha, hb, q, r, hr, hq, hlt, hsign, hsum⟩

end Formula

end LiveForm
