import Mathlib
import LiveForm.Proofs.Formula.Nodes
import LiveForm.Proofs.Text.Digit
import LiveForm.Proofs.Value.Written

/-!
# How an evaluation fails

`evaluate` logs a fault of reading or of evaluation and then answers with nothing. Other faults
escape it. An access in brackets has one, at a text that looks like a number and is none. In a
formula without such accesses there is one more place: a sign before something that is no number
has to write it out in order to complain, and fails at that if a whole number in it is too long.
So **an evaluation answers, or warns, or fails at a sign** (`evaluate_outcome`), and the third does
happen (`not_evaluate_answers_or_warns`).

A fault of a tree is a fault of one of its nodes (`eval_failsOnly`), so that the nodes are looked at
one by one.
-/

namespace LiveForm.Formula

open LiveForm.Text

/-! ### Members -/

theorem looksLikeDigit_of_startsWord {c : Char} (h : startsWord c = true) :
    looksLikeDigit c = false := by
  have hc := startsWord_iff.1 h
  have hdigit : isDigit c = false := isDigit_eq_false (by omega)
  have hraised : inRanges raisedDigitRanges c.toNat = false := by
    rw [raisedDigitRanges, inRanges, if_pos (by omega)]
  rw [looksLikeDigit, hdigit, hraised]
  rfl

/-- A word is no position. -/
theorem index?_word {name : String} (h : IsWord name) :
    (Value.text name).index? = .ok none := by
  obtain ⟨c, cs, hname, hc⟩ := h
  have hall : name.toList.all looksLikeDigit = false := by
    rw [hname, List.all_cons, looksLikeDigit_of_startsWord hc, Bool.false_and]
  rw [Value.index?, hall, Bool.and_false]
  rfl

theorem elementAt_word {α : Type} (items : List α) {name : String} (h : IsWord name) :
    Value.elementAt items (.text name) = .ok none := by
  rw [Value.elementAt, index?_word h]
  rfl

/-- A property under a word never fails. -/
theorem property_word {P : NumberError → Prop} {name : String} (h : IsWord name) :
    ∀ v : Value, FailsOnly P (v.property (.text name))
  | .null | .map _ | .bool _ | .number _ | .issue _ _ | .unset | .callback _ | .check _ => .ok _
  | .field value marks error => by
    rw [Value.property]
    split
    · exact .ok _
    · exact property_word h value
  | .list items => by
    rw [Value.property]
    split
    · exact .ok _
    · rw [elementAt_word items h]
      exact .ok _
  | .text s => by
    rw [Value.property]
    split
    · exact .ok _
    · rw [elementAt_word s.toList h]
      exact .ok _

/-! ### Operators -/

/-- The fault is one of evaluation. -/
def IsEval (f : Fault) : Prop :=
  ∃ e, f = .eval e

/-- The fault is one of evaluation or one of numbers, which arithmetic turns into one of
evaluation. -/
def IsComputation (f : Fault) : Prop :=
  IsEval f ∨ ∃ e, f = .number e

theorem failEval_failsOnly {α : Type} (e : EvalError) :
    FailsOnly IsEval (failEval e : Except Fault α) :=
  .error ⟨e, rfl⟩

theorem ofNumber_failsOnly {α : Type} (r : Except NumberError α) :
    FailsOnly IsComputation (Fault.ofNumber r) :=
  .mapError fun e _ => .inr ⟨e, rfl⟩

/-- A value that is no number has to be written in order to say so. -/
theorem toNumber_failsOnly (v : Value) :
    FailsOnly (fun f => IsEval f ∨ f = .number .tooLongToWrite ∧ v.HidesLong) (toNumber v) := by
  have refused (hcount : v.count? = none) :
      FailsOnly (fun f => IsEval f ∨ f = .number .tooLongToWrite ∧ v.HidesLong)
        (do failEval (.notNumeric v.kindName (← Fault.ofNumber v.written)) :
          Except Fault Number) := by
    refine FailsOnly.bind (.mapError (v.written_failsOnly.mono ?_)) fun _ _ =>
      (failEval_failsOnly _).mono fun _ => Or.inl
    rintro _ ⟨rfl, hlong⟩
    exact .inr ⟨rfl, hcount, hlong⟩
  unfold toNumber
  dsimp only
  split
  · exact .ok _
  · exact .ok _
  · split
    · exact .ok _
    · exact refused rfl
  -- Neither a flag nor a number is left, and those are the values that count.
  · refine refused ?_
    cases v <;> simp_all [Value.count?]

theorem toNumber_failsOnly_computation (v : Value) : FailsOnly IsComputation (toNumber v) :=
  (toNumber_failsOnly v).mono fun _ h => h.imp_right fun ⟨hf, _⟩ => ⟨_, hf⟩

theorem arithmetic_failsOnly {op : Number → Number → Except Fault Number}
    (hop : ∀ a b, FailsOnly IsComputation (op a b)) (l r : Value) :
    FailsOnly IsEval (arithmetic op l r) := by
  have hcompute (l r : Value) : FailsOnly IsComputation
      (do op (← toNumber l) (← toNumber r) : Except Fault Number) :=
    (toNumber_failsOnly_computation l).bind fun a _ =>
      (toNumber_failsOnly_computation r).bind fun b _ => hop a b
  unfold arithmetic
  split
  · exact .ok _
  · exact .ok _
  -- Faults of numbers are turned into faults of evaluation, the others were such before.
  · split
    · exact failEval_failsOnly _
    · next f hnumber hf =>
      rcases hcompute _ _ f hf with heval | ⟨e, rfl⟩
      · exact .error heval
      · exact absurd rfl (hnumber e)
    · exact .ok _

theorem plus_failsOnly (l r : Value) : FailsOnly IsEval (plus l r) := by
  unfold plus
  split
  · split
    · exact .ok _
    · exact failEval_failsOnly _
  · split
    · exact .ok _
    · exact failEval_failsOnly _
  · exact arithmetic_failsOnly (fun a b => ofNumber_failsOnly _) _ _

theorem divide_failsOnly (a b : Number) : FailsOnly IsComputation (divide a b) := by
  unfold divide
  split_ifs
  · exact (failEval_failsOnly _).mono fun _ => Or.inl
  · exact ofNumber_failsOnly _

theorem modulo_failsOnly (a b : Number) : FailsOnly IsComputation (modulo a b) := by
  unfold modulo
  split_ifs
  · exact (failEval_failsOnly _).mono fun _ => Or.inl
  · exact ofNumber_failsOnly _

theorem compare_failsOnly (rel : Relation) (l r : Value) : FailsOnly IsEval (compare rel l r) := by
  unfold compare
  split
  · exact .ok _
  · exact .ok _
  · exact .ok _
  · split
    · exact .ok _
    · exact .ok _
    · exact failEval_failsOnly _

theorem binaryOp_failsOnly (op : BinaryOp) (l r : Value) : FailsOnly IsEval (binaryOp op l r) := by
  cases op with
  | strictEq | strictNe | eq | ne => exact .ok _
  | lt | le | gt | ge => exact compare_failsOnly _ _ _
  | add => exact plus_failsOnly _ _
  | sub | mul => exact arithmetic_failsOnly (fun a b => ofNumber_failsOnly _) _ _
  | div => exact arithmetic_failsOnly divide_failsOnly _ _
  | mod => exact arithmetic_failsOnly modulo_failsOnly _ _
  | other s => exact failEval_failsOnly _

theorem decides?_failsOnly (op : LogicalOp) (l : Value) : FailsOnly IsEval (decides? op l) := by
  cases op with
  | and | or | coalesce => exact .ok _
  | other s => exact failEval_failsOnly _

theorem signed_failsOnly (op : Number → Number) (v : Value) :
    FailsOnly (fun f => IsEval f ∨ f = .number .tooLongToWrite ∧ v.HidesLong) (signed op v) := by
  unfold signed
  split
  · exact .ok _
  · exact (toNumber_failsOnly _).map _

/-- An operator in front of a value fails with a fault of evaluation, unless it is a sign. -/
theorem unaryOp_failsOnly (op : UnaryOp) (v : Value) :
    FailsOnly (fun f => IsEval f ∨ f = .number .tooLongToWrite ∧ (op = .neg ∨ op = .pos) ∧
      v.HidesLong) (unaryOp op v) := by
  cases op with
  | not | typeof => exact .ok _
  | neg =>
    exact (signed_failsOnly _ v).mono fun _ => Or.imp_right fun ⟨hf, hv⟩ => ⟨hf, .inl rfl, hv⟩
  | pos =>
    exact (signed_failsOnly _ v).mono fun _ => Or.imp_right fun ⟨hf, hv⟩ => ⟨hf, .inr rfl, hv⟩
  | other s => exact (failEval_failsOnly _).mono fun _ => Or.inl

/-! ### Trees -/

/-- Once its parts have their values, the node itself fails with faults of a kind only. Nodes that
are not named here have faults of evaluation at most. -/
def NodeFailsOnly (P : Fault → Prop) (ctx : Context) : Expr → Prop
  | .member object m =>
    ∀ v, eval ctx object = .ok v → FailsOnly P (Fault.ofNumber (v.property (.text m)))
  | .index object i =>
    ∀ v k, eval ctx object = .ok v → eval ctx i = .ok k →
      FailsOnly P (Fault.ofNumber (v.property k.bare))
  | .unary op operand => ∀ v, eval ctx operand = .ok v → FailsOnly P (unaryOp op v.bare)
  | _ => True

mutual

/-- A tree fails as one of its nodes does. -/
theorem eval_failsOnly {P : Fault → Prop} (hP : ∀ f, IsEval f → P f) {ctx : Context} :
    ∀ {e : Expr}, (∀ node ∈ e.nodes, NodeFailsOnly P ctx node) → FailsOnly P (eval ctx e)
  | .literal _, _ | .name _, _ => .ok _
  | .member object m, he => by
    obtain ⟨hself, hobject⟩ := List.forall_mem_cons.1 he
    rw [eval]
    exact (eval_failsOnly hP hobject).bind hself
  | .index object i, he => by
    obtain ⟨hself, hparts⟩ := List.forall_mem_cons.1 he
    obtain ⟨hobject, hi⟩ := List.forall_mem_append.1 hparts
    rw [eval]
    exact (eval_failsOnly hP hobject).bind fun v hv =>
      (eval_failsOnly hP hi).bind fun k hk => hself v k hv hk
  | .binary op left right, he => by
    obtain ⟨hleft, hright⟩ := List.forall_mem_append.1 (List.forall_mem_cons.1 he).2
    rw [eval]
    exact (eval_failsOnly hP hleft).bind fun l _ =>
      (eval_failsOnly hP hright).bind fun r _ => (binaryOp_failsOnly op l.bare r.bare).mono hP
  | .logical op left right, he => by
    obtain ⟨hleft, hright⟩ := List.forall_mem_append.1 (List.forall_mem_cons.1 he).2
    rw [eval]
    refine (eval_failsOnly hP hleft).bind fun l _ => ?_
    refine ((decides?_failsOnly op l.bare).mono hP).bind fun decided _ => ?_
    cases decided with
    | true => exact .ok _
    | false => exact (eval_failsOnly hP hright).bind fun _ _ => .ok _
  | .unary op operand, he => by
    obtain ⟨hself, hoperand⟩ := List.forall_mem_cons.1 he
    rw [eval]
    exact (eval_failsOnly hP hoperand).bind hself
  | .conditional test consequent alternate, he => by
    obtain ⟨htest, hbranches⟩ := List.forall_mem_append.1 (List.forall_mem_cons.1 he).2
    obtain ⟨hconsequent, halternate⟩ := List.forall_mem_append.1 hbranches
    rw [eval]
    refine (eval_failsOnly hP htest).bind fun t _ => ?_
    split
    · exact eval_failsOnly hP hconsequent
    · exact eval_failsOnly hP halternate
  | .array items, he => by
    rw [eval]
    exact (evalElements_failsOnly hP (List.forall_mem_cons.1 he).2).bind fun _ _ => .ok _
  | .sequence body, he => by
    rw [eval]
    exact evalSequence_failsOnly hP (List.forall_mem_cons.1 he).2 _
  | .call _ _, _ | .foreign _, _ => (failEval_failsOnly _).mono hP

theorem evalElements_failsOnly {P : Fault → Prop} (hP : ∀ f, IsEval f → P f) {ctx : Context} :
    ∀ {items : List (Option Expr)},
      (∀ node ∈ Expr.nodesElements items, NodeFailsOnly P ctx node) →
        FailsOnly P (evalElements ctx items)
  | [], _ => .ok _
  | none :: rest, hitems => by
    have hrest : ∀ node ∈ Expr.nodesElements rest, NodeFailsOnly P ctx node := hitems
    rw [evalElements]
    exact (evalElements_failsOnly hP hrest).bind fun _ _ => .ok _
  | some e :: rest, hitems => by
    obtain ⟨he, hrest⟩ := List.forall_mem_append.1 hitems
    rw [evalElements]
    exact (eval_failsOnly hP he).bind fun _ _ =>
      (evalElements_failsOnly hP hrest).bind fun _ _ => .ok _

theorem evalSequence_failsOnly {P : Fault → Prop} (hP : ∀ f, IsEval f → P f) {ctx : Context} :
    ∀ {body : List Expr}, (∀ node ∈ Expr.nodesAll body, NodeFailsOnly P ctx node) →
      ∀ last : Value, FailsOnly P (evalSequence ctx last body)
  | [], _, _ => .ok _
  | e :: rest, hbody, last => by
    obtain ⟨he, hrest⟩ := List.forall_mem_append.1 hbody
    rw [evalSequence]
    exact (eval_failsOnly hP he).bind fun v _ => evalSequence_failsOnly hP hrest v

end

/-! ### Sources -/

/-- Among the nodes is a sign before something that is no number and holds a whole number that is
too long to be written. -/
def SignFails (ctx : Context) (nodes : List Expr) : Prop :=
  ∃ op operand v, .unary op operand ∈ nodes ∧ (op = .neg ∨ op = .pos) ∧
    eval ctx operand = .ok v ∧ v.bare.HidesLong

/-- The source has an access in brackets. -/
def HasIndex (source : String) : Prop :=
  ∃ e object i, parse source = .ok e ∧ .index object i ∈ e.nodes

/-- The source is evaluated to a value without any wrapping, and nothing is logged. -/
def Answers (source : String) (ctx : Context) : Prop :=
  ∃ v : Value, v.Unwrapped ∧ ∀ log, evaluate source ctx log = (.ok v, log)

/-- The source is evaluated to nothing, and one warning is logged. -/
def Warns (source : String) (ctx : Context) : Prop :=
  ∃ cause, ∀ log, evaluate source ctx log = (.ok .null, log ++
    [⟨.warning, "Expression evaluation error for " ++ Text.quoted source ++ ": " ++ cause⟩])

/-- A tree that has been read has faults of evaluation, and those of its signs. -/
theorem eval_failsOnly_of_parse {source : String} {e : Expr} (he : parse source = .ok e)
    (hindex : ¬HasIndex source) (ctx : Context) :
    FailsOnly (fun f => IsEval f ∨ f = .number .tooLongToWrite ∧ SignFails ctx e.nodes)
      (eval ctx e) := by
  refine eval_failsOnly (fun _ => Or.inl) fun node hnode => ?_
  cases node with
  | member object m =>
    exact fun v _ => .mapError (property_word (member_isWord_of_parse he hnode) v)
  | index object i => exact absurd ⟨e, object, i, he, hnode⟩ hindex
  | unary op operand =>
    refine fun v hv => (unaryOp_failsOnly op v.bare).mono fun f hf => hf.imp_right ?_
    rintro ⟨rfl, hsign, hlong⟩
    exact ⟨rfl, op, operand, v, hnode, hsign, hv, hlong⟩
  | _ => exact trivial

/-- **An evaluation answers, or warns, or fails at a sign.** Without an access in brackets, a source
is evaluated to a value without any wrapping, or to nothing with one warning in the log; or, with
nothing in the log, it fails for a number that is too long to be written, and then a sign stands in
its tree before a value that is no number and holds one that is too long. -/
theorem evaluate_outcome {source : String} (hindex : ¬HasIndex source) (ctx : Context) :
    Answers source ctx ∨ Warns source ctx ∨
      ∃ e, parse source = .ok e ∧ SignFails ctx e.nodes ∧
        ∀ log, evaluate source ctx log = (.error (.number .tooLongToWrite), log) := by
  cases hparse : parse source with
  | error error =>
    refine .inr (.inl ⟨error.message, fun log => ?_⟩)
    rw [evaluate, hparse]
    rfl
  | ok e =>
    cases heval : eval ctx e with
    | ok v =>
      refine .inl ⟨v.stripped, v.unwrapped_stripped, fun log => ?_⟩
      rw [evaluate, hparse, answer, heval]
      rfl
    | error f =>
      rcases eval_failsOnly_of_parse hparse hindex ctx f heval with ⟨cause, rfl⟩ | ⟨rfl, hsign⟩
      · refine .inr (.inl ⟨cause.message, fun log => ?_⟩)
        rw [evaluate, hparse, answer, heval]
        rfl
      · refine .inr (.inr ⟨e, rfl, hsign, fun log => ?_⟩)
        rw [evaluate, hparse, answer, heval]
        rfl

theorem parse_minus : parse "-x" = .ok (.unary .neg (.name "x")) := by
  cbv

theorem not_hasIndex_minus : ¬HasIndex "-x" := by
  rintro ⟨e, object, i, he, hmem⟩
  obtain rfl := Except.ok.inj (parse_minus.symm.trans he)
  simp [Expr.nodes] at hmem

/-- A list is no number, and one that holds a number too long cannot be written to say so. -/
theorem toNumber_long {n : Int} (hlong : Nat.pow 10 digitLimit ≤ n.natAbs) :
    toNumber (.list [.int n]) = .error (.number .tooLongToWrite) := by
  have hwrite : Numeral.write n = .error .tooLongToWrite := by
    rw [Numeral.write, if_neg (Nat.not_lt.2 hlong)]
  have hwritten : (Value.list [.int n]).written = .error .tooLongToWrite := by
    rw [Value.written, writtenItems, Value.written, Number.write, hwrite]
    rfl
  simp only [toNumber, hwritten]
  rfl

theorem evaluate_minus_long {n : Int} (hlong : Nat.pow 10 digitLimit ≤ n.natAbs) (log : Log) :
    evaluate "-x" [(.text "x", .list [.int n])] log = (.error (.number .tooLongToWrite), log) := by
  have hname : eval [(.text "x", .list [.int n])] (.name "x") = .ok (.list [.int n]) := rfl
  have hminus : unaryOp .neg (.list [.int n]) = .error (.number .tooLongToWrite) := by
    simp only [unaryOp, signed, toNumber_long hlong]
    rfl
  have heval : eval [(.text "x", .list [.int n])] (.unary .neg (.name "x")) =
      .error (.number .tooLongToWrite) :=
    (eval_unary hname).trans hminus
  rw [evaluate, parse_minus, answer, heval]
  rfl

/-- A minus before such a list has neither of the two proper outcomes. -/
theorem minus_long_fails {n : Int} (hlong : Nat.pow 10 digitLimit ≤ n.natAbs) :
    ¬(Answers "-x" [(.text "x", .list [.int n])] ∨ Warns "-x" [(.text "x", .list [.int n])]) := by
  have hfails := evaluate_minus_long hlong []
  rintro (⟨v, -, hv⟩ | ⟨cause, hcause⟩)
  · exact nomatch congrArg Prod.fst (hfails.symm.trans (hv []))
  · exact nomatch congrArg Prod.fst (hfails.symm.trans (hcause []))

/-- The least number above zero that is too long to be written. -/
def leastLong : Int :=
  (Nat.pow 10 digitLimit : Nat)

theorem pow_le_leastLong : Nat.pow 10 digitLimit ≤ leastLong.natAbs :=
  Nat.le_of_eq (Int.natAbs_natCast _).symm

/-- A list with the least number that is too long meets with the third outcome. -/
theorem evaluate_outcome_minus :
    ¬HasIndex "-x" ∧ ∃ e, parse "-x" = .ok e ∧
      SignFails [(.text "x", .list [.int leastLong])] e.nodes := by
  have hfails := minus_long_fails pow_le_leastLong
  rcases evaluate_outcome not_hasIndex_minus [(.text "x", .list [.int leastLong])] with
    hanswers | hwarns | ⟨e, he, hsign, -⟩
  · exact absurd (.inl hanswers) hfails
  · exact absurd (.inr hwarns) hfails
  · exact ⟨not_hasIndex_minus, e, he, hsign⟩

/-- A source without an access in brackets need not answer or warn. -/
theorem not_evaluate_answers_or_warns : ¬ ∀ (source : String) (ctx : Context),
    ¬HasIndex source → Answers source ctx ∨ Warns source ctx :=
  fun h => minus_long_fails pow_le_leastLong (h "-x" _ not_hasIndex_minus)

end LiveForm.Formula
