import Mathlib
import LiveForm.Formula.Eval
import LiveForm.Proofs.Formula.Outcomes
import LiveForm.Proofs.Value.Code

/-!
# Evaluation makes no code

Code of the host comes into a value from the context or from a tree that was made by hand. A formula
that has been read holds none, and no operator makes any: on a context that is free of code every
value that an evaluation gives is free of code too (`evaluateDescriptor_codeFree`).
-/

namespace LiveForm

/-- What a computation gives, if it gives anything, has a property. -/
def Gives {ε α : Type} (P : α → Prop) (r : Except ε α) : Prop :=
  ∀ a, r = .ok a → P a

namespace Gives

variable {ε α β : Type} {P : α → Prop} {Q : β → Prop}

theorem ok {a : α} (h : P a) : Gives P (.ok a : Except ε α) :=
  fun _ ha => Except.ok.inj ha ▸ h

theorem error (e : ε) : Gives P (.error e : Except ε α) :=
  fun _ ha => nomatch ha

theorem bind {r : Except ε α} {f : α → Except ε β} (hr : Gives P r)
    (hf : ∀ a, P a → Gives Q (f a)) : Gives Q (r >>= f) := by
  cases r with
  | error e => exact error e
  | ok a => exact hf a (hr a rfl)

/-- What comes of a computation about which nothing is known. -/
theorem after {r : Except ε α} {f : α → Except ε β} (hf : ∀ a, Gives Q (f a)) : Gives Q (r >>= f) :=
  bind (P := fun _ => True) (fun _ _ => trivial) fun a _ => hf a

end Gives

namespace Logged

variable {α β : Type}

theorem ofExcept_bind (a : α) (k : α → Logged β) : (ofExcept (.ok a) >>= k) = k a :=
  rfl

theorem ofExcept_error_bind (e : Fault) (k : α → Logged β) :
    (ofExcept (.error e) >>= k) = ofExcept (.error e) :=
  rfl

/-- What an operation gives, if it gives anything, has a property. -/
def Gives (P : α → Prop) (op : Logged α) : Prop :=
  ∀ log, LiveForm.Gives P (op log).1

variable {P : α → Prop} {Q : β → Prop}

theorem bind_eq (op : Logged α) (k : α → Logged β) (log : Log) :
    (op >>= k) log = match op log with
      | (.ok a, log') => k a log'
      | (.error e, log') => (.error e, log') := by
  cases h : op log with
  | mk r log' =>
    have hbind : (op >>= k) log = ExceptT.bindCont k (op log).1 (op log).2 := rfl
    rw [hbind, h]
    cases r <;> rfl

theorem Gives.pure {a : α} (h : P a) : Gives P (Pure.pure a : Logged α) :=
  fun _ => LiveForm.Gives.ok h

theorem Gives.bind {op : Logged α} {k : α → Logged β} (hop : op.Gives P)
    (hk : ∀ a, P a → (k a).Gives Q) : (op >>= k).Gives Q := by
  intro log
  rw [bind_eq]
  cases h : op log with
  | mk r log' =>
    cases r with
    | error e => exact LiveForm.Gives.error e
    | ok a =>
      have ha : P a := hop log a (by rw [h])
      exact hk a ha log'

/-- What comes of an operation about which nothing is known. -/
theorem Gives.after {op : Logged α} {k : α → Logged β} (hk : ∀ a, (k a).Gives Q) :
    (op >>= k).Gives Q :=
  Gives.bind (P := fun _ => True) (fun _ _ _ => trivial) fun a _ => hk a

/-- What every step keeps, a run of steps gives. -/
theorem Gives.foldlM {γ : Type} {step : α → γ → Logged α} {cs : List γ} {a : α}
    (hstep : ∀ c ∈ cs, ∀ a, P a → (step a c).Gives P) (ha : P a) : (cs.foldlM step a).Gives P := by
  induction cs generalizing a with
  | nil => exact .pure ha
  | cons c cs ih =>
    obtain ⟨hc, hcs⟩ := List.forall_mem_cons.1 hstep
    rw [List.foldlM_cons]
    exact (hc a ha).bind fun a ha => ih hcs ha

/-- Two operations that go on alike with everything that the first part can give are the same. -/
theorem bind_congr {op : Logged α} {k k' : α → Logged β} (hop : op.Gives P)
    (hk : ∀ a, P a → k a = k' a) : (op >>= k) = (op >>= k') := by
  funext log
  rw [bind_eq, bind_eq]
  cases h : op log with
  | mk r log' =>
    cases r with
    | error e => rfl
    | ok a =>
      have ha : P a := hop log a (by rw [h])
      simp only [hk a ha]

end Logged

/-! ### Formulas -/

/-- No code of the host stands in the literals of the formula. -/
inductive Expr.CodeFree : Expr → Prop
  | literal {v : Value} : v.CodeFree → CodeFree (.literal v)
  | name (n : String) : CodeFree (.name n)
  | member {object : Expr} (m : String) : CodeFree object → CodeFree (.member object m)
  | index {object i : Expr} : CodeFree object → CodeFree i → CodeFree (.index object i)
  | binary (op : BinaryOp) {left right : Expr} : CodeFree left → CodeFree right →
      CodeFree (.binary op left right)
  | logical (op : LogicalOp) {left right : Expr} : CodeFree left → CodeFree right →
      CodeFree (.logical op left right)
  | unary (op : UnaryOp) {operand : Expr} : CodeFree operand → CodeFree (.unary op operand)
  | conditional {test consequent alternate : Expr} : CodeFree test → CodeFree consequent →
      CodeFree alternate → CodeFree (.conditional test consequent alternate)
  | call {callee : Expr} {args : List Expr} : CodeFree callee → (∀ e ∈ args, CodeFree e) →
      CodeFree (.call callee args)
  | array {items : List (Option Expr)} : (∀ e, some e ∈ items → CodeFree e) →
      CodeFree (.array items)
  | sequence {body : List Expr} : (∀ e ∈ body, CodeFree e) → CodeFree (.sequence body)
  | foreign (kind : String) : CodeFree (.foreign kind)

namespace Formula

/-- No code of the host stands in the formulas of a phrase. -/
def Phrase.CodeFree : Phrase → Prop
  | .formula _ e => e.CodeFree
  | .arguments args | .moreArguments args => ∀ e ∈ args, e.CodeFree
  | .elements items => ∀ e, some e ∈ items → e.CodeFree

theorem atom?_codeFree {l : Lexeme} {e : Expr} (h : atom? l = some e) : e.CodeFree := by
  unfold atom? at h
  split at h <;> simp only [Option.some.injEq, reduceCtorEq] at h <;> subst h
  · exact .literal (.number _)
  · exact .literal (.text _)
  · exact .literal (.bool _)
  · exact .literal .null
  · exact .literal .null
  · exact .name _

theorem operator?_codeFree {level : Nat} {s : Symbol} {make : Expr → Expr → Expr}
    (h : operator? level s = some make) {left right : Expr} (hl : left.CodeFree)
    (hr : right.CodeFree) : (make left right).CodeFree := by
  unfold operator? at h
  split at h <;> simp only [Option.some.injEq, reduceCtorEq] at h <;> subst h
  all_goals first | exact .binary _ hl hr | exact .logical _ hl hr

theorem Derives.codeFree {p : Phrase} {ls : List Lexeme} (h : Derives p ls) : p.CodeFree := by
  induction h with
  | atom ha => exact atom?_codeFree ha
  | group _ ih | ofAtom _ ih | ofAccess _ ih | ofLevel _ ih | ofLevels _ ih => exact ih
  | array _ ih => exact .array ih
  | member _ _ ih => exact .member _ ih
  | index _ _ iho ihi => exact .index iho ihi
  | call _ _ ihc iha => exact .call ihc iha
  | unary _ _ ih => exact .unary _ ih
  | binary hop _ _ ihl ihr => exact operator?_codeFree hop ihl ihr
  | conditional _ _ _ iht ihc iha => exact .conditional iht ihc iha
  | noArguments | lastArgument => exact List.forall_mem_nil _
  | arguments _ _ ihe ihm | nextArgument _ _ ihe ihm => exact List.forall_mem_cons.2 ⟨ihe, ihm⟩
  | noElements => exact fun e he => absurd he List.not_mem_nil
  | hole _ ih =>
    intro e he
    rcases List.mem_cons.1 he with he | he
    · exact absurd he (by simp)
    · exact ih e he
  | element _ _ ihe ihm =>
    intro e he
    rcases List.mem_cons.1 he with he | he
    · exact Option.some.inj he ▸ ihe
    · exact ihm e he
  | lastElement _ ih =>
    intro e he
    exact Option.some.inj (List.mem_singleton.1 he) ▸ ih

/-- No code of the host stands in a formula that has been read. -/
theorem DerivesSource.codeFree {e : Expr} {ls : List Lexeme} (h : DerivesSource e ls) :
    e.CodeFree := by
  obtain ⟨first, more, fs, ms, rfl, -, hf, hm⟩ := h
  have hmore : ∀ e ∈ more, e.CodeFree := by
    clear hf
    induction hm with
    | nil | separator _ => exact List.forall_mem_nil _
    | next _ he _ ih => exact List.forall_mem_cons.2 ⟨he.codeFree, ih⟩
  cases more with
  | nil => exact hf.codeFree
  | cons second more => exact .sequence (List.forall_mem_cons.2 ⟨hf.codeFree, hmore⟩)

theorem parse_codeFree {source : String} {e : Expr} (h : parse source = .ok e) : e.CodeFree := by
  unfold parse at h
  cases htokens : tokens source with
  | error error => simp [htokens] at h
  | ok ts =>
    simp only [htokens] at h
    cases hparse : parseTokens ts with
    | error error => simp [hparse] at h
    | ok e' =>
      obtain rfl : e' = e := by simpa [hparse] using h
      obtain ⟨us, rest, -, -, hderives⟩ := parseTokens_sound hparse
      exact hderives.codeFree

/-! ### Evaluation -/

theorem arithmetic_codeFree (op : Number → Number → Except Fault Number) (l r : Value) :
    Gives Value.CodeFree (arithmetic op l r) := by
  unfold arithmetic
  split
  · exact .ok .null
  · exact .ok .null
  · split
    · exact .error _
    · exact .error _
    · exact .ok (.number _)

theorem compare_codeFree (rel : Relation) (l r : Value) :
    Gives Value.CodeFree (compare rel l r) := by
  unfold compare
  split
  · exact .ok (.bool _)
  · exact .ok (.bool _)
  · exact .ok (.bool _)
  · split
    · exact .ok (.bool _)
    · exact .ok (.bool _)
    · exact .error _

theorem plus_codeFree (l r : Value) : Gives Value.CodeFree (plus l r) := by
  unfold plus
  split
  · split
    · exact .ok (.text _)
    · exact .error _
  · split
    · exact .ok (.text _)
    · exact .error _
  · exact arithmetic_codeFree _ _ _

theorem binaryOp_codeFree (op : BinaryOp) (l r : Value) :
    Gives Value.CodeFree (binaryOp op l r) := by
  cases op with
  | strictEq | strictNe | eq | ne => exact .ok (.bool _)
  | lt | le | gt | ge => exact compare_codeFree _ _ _
  | add => exact plus_codeFree _ _
  | sub | mul | div | mod => exact arithmetic_codeFree _ _ _
  | other s => exact .error _

theorem signed_codeFree (op : Number → Number) (v : Value) :
    Gives Value.CodeFree (signed op v) := by
  unfold signed
  split
  · exact .ok .null
  · cases toNumber _ with
    | error e => exact .error e
    | ok n => exact .ok (.number _)

theorem unaryOp_codeFree (op : UnaryOp) (v : Value) : Gives Value.CodeFree (unaryOp op v) := by
  cases op with
  | not => exact .ok (.bool _)
  | typeof => exact .ok (.text _)
  | neg | pos => exact signed_codeFree _ _
  | other s => exact .error _

theorem property_codeFree {v : Value} (hv : v.CodeFree) (key : Value) :
    Gives Value.CodeFree (Fault.ofNumber (v.property key)) := by
  intro w hw
  cases hproperty : v.property key with
  | error e => simp [hproperty, Fault.ofNumber, Except.mapError] at hw
  | ok w' =>
    obtain rfl : w' = w := by simpa [hproperty, Fault.ofNumber, Except.mapError] using hw
    exact hv.property hproperty

/-- What a formula without code gives on a context without code is free of code. -/
theorem eval_codeFree {ctx : Context} (hctx : ∀ n, (Entries.at0 ctx n).CodeFree) {e : Expr}
    (he : e.CodeFree) : Gives Value.CodeFree (eval ctx e) := by
  have elements {items : List (Option Expr)}
      (h : ∀ e, some e ∈ items → Gives Value.CodeFree (eval ctx e)) :
      Gives (fun vs => ∀ v ∈ vs, v.CodeFree) (evalElements ctx items) := by
    induction items with
    | nil =>
      rw [evalElements]
      exact .ok (List.forall_mem_nil _)
    | cons item items ih =>
      have hmore := ih fun e he => h e (List.mem_cons_of_mem _ he)
      cases item with
      | none =>
        rw [evalElements]
        exact hmore.bind fun vs hvs => .ok (List.forall_mem_cons.2 ⟨.null, hvs⟩)
      | some e =>
        rw [evalElements]
        exact (h e List.mem_cons_self).bind fun v hv =>
          hmore.bind fun vs hvs => .ok (List.forall_mem_cons.2 ⟨hv.bare, hvs⟩)
  have sequence {body : List Expr} (h : ∀ e ∈ body, Gives Value.CodeFree (eval ctx e))
      {last : Value} (hlast : last.CodeFree) :
      Gives Value.CodeFree (evalSequence ctx last body) := by
    induction body generalizing last with
    | nil =>
      rw [evalSequence]
      exact .ok hlast
    | cons e body ih =>
      rw [evalSequence]
      exact (h e List.mem_cons_self).bind fun v hv =>
        ih (fun e he => h e (List.mem_cons_of_mem _ he)) hv
  induction he with
  | literal hv => exact .ok hv
  | name n => exact .ok (hctx n)
  | member m _ ih => exact ih.bind fun v hv => property_codeFree hv _
  | index _ _ iho ihi => exact iho.bind fun v hv => ihi.bind fun k _ => property_codeFree hv _
  | binary op _ _ _ _ => exact .after fun l => .after fun r => binaryOp_codeFree op l.bare r.bare
  | logical op _ _ ihl ihr =>
    refine ihl.bind fun l hl => .after fun decided => ?_
    cases decided with
    | true => exact .ok hl.bare
    | false => exact ihr.bind fun r hr => .ok hr.bare
  | unary op _ _ => exact .after fun v => unaryOp_codeFree op v.bare
  | conditional _ _ _ _ ihc iha =>
    refine .after fun t => ?_
    split
    · exact ihc
    · exact iha
  | call _ _ => exact .error _
  | array _ ih => exact (elements ih).bind fun vs hvs => .ok (.list hvs)
  | sequence _ ih => exact sequence ih .null
  | foreign kind => exact .error _

/-- What a source is evaluated to on a context without code is free of code. -/
theorem evaluate_codeFree {ctx : Context} (hctx : ∀ n, (Entries.at0 ctx n).CodeFree)
    (source : String) : (evaluate source ctx).Gives Value.CodeFree := by
  have refused (message : String) : Logged.Gives Value.CodeFree (do
      Logged.warn message
      return Value.null) :=
    fun _ => Gives.ok .null
  unfold evaluate answer
  dsimp only
  cases hparse : parse source with
  | error e => exact refused _
  | ok e =>
    have he := eval_codeFree hctx (parse_codeFree hparse)
    dsimp only
    split
    · next v hv => exact .pure (he v hv).stripped
    · exact refused _
    · exact fun _ => Gives.error _

mutual

/-- What a descriptor without code gives on a context without code is free of code. -/
theorem evaluateDescriptor_codeFree {ctx : Context} (hctx : ∀ n, (Entries.at0 ctx n).CodeFree) :
    ∀ {v : Value}, v.CodeFree → (evaluateDescriptor ctx v).Gives Value.CodeFree
  | .text source, _ => by
    rw [evaluateDescriptor]
    exact evaluate_codeFree hctx source
  | .list items, h => by
    rw [evaluateDescriptor]
    have hitems : ∀ v ∈ items, v.CodeFree := by
      cases h with
      | list hitems => exact hitems
    exact (evaluateItems_codeFree hctx hitems).bind fun vs hvs => .pure (.list hvs)
  | .map entries, h => by
    rw [evaluateDescriptor]
    have hentries : ∀ e ∈ entries, e.2.CodeFree := by
      cases h with
      | map hentries => exact hentries
    exact (evaluateEntries_codeFree hctx hentries).bind fun es hes => .pure (.map hes)
  | .null, h | .bool _, h | .number _, h | .field _ _ _, h | .issue _ _, h | .unset, h
  | .callback _, h | .check _, h => by
    rw [evaluateDescriptor]
    · exact .pure h
    all_goals simp

theorem evaluateItems_codeFree {ctx : Context} (hctx : ∀ n, (Entries.at0 ctx n).CodeFree) :
    ∀ {items : List Value}, (∀ v ∈ items, v.CodeFree) →
      (evaluateItems ctx items).Gives fun vs => ∀ v ∈ vs, v.CodeFree
  | [], _ => by
    rw [evaluateItems]
    exact .pure (List.forall_mem_nil _)
  | v :: rest, h => by
    rw [evaluateItems]
    obtain ⟨hv, hrest⟩ := List.forall_mem_cons.1 h
    exact (evaluateDescriptor_codeFree hctx hv).bind fun w hw =>
      (evaluateItems_codeFree hctx hrest).bind fun ws hws =>
        .pure (List.forall_mem_cons.2 ⟨hw, hws⟩)

theorem evaluateEntries_codeFree {ctx : Context} (hctx : ∀ n, (Entries.at0 ctx n).CodeFree) :
    ∀ {entries : List (Key × Value)}, (∀ e ∈ entries, e.2.CodeFree) →
      (evaluateEntries ctx entries).Gives fun es => ∀ e ∈ es, e.2.CodeFree
  | [], _ => by
    rw [evaluateEntries]
    exact .pure (List.forall_mem_nil _)
  | (k, v) :: rest, h => by
    rw [evaluateEntries]
    obtain ⟨hv, hrest⟩ := List.forall_mem_cons.1 h
    exact (evaluateDescriptor_codeFree hctx hv).bind fun w hw =>
      (evaluateEntries_codeFree hctx hrest).bind fun ws hws =>
        .pure (List.forall_mem_cons.2 ⟨hw, hws⟩)

end

end Formula

end LiveForm
