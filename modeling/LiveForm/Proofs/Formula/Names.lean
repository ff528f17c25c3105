import Mathlib
import LiveForm.Formula.Eval
import LiveForm.Proofs.Formula.Grammar

/-!
# The names of a formula

What a formula makes of a context depends on the names in its tree alone (`eval_congr`). In a row of
lexemes that stands for the tree, each of these names stands apart: neither behind a dot nor next to
a number (`Derives.standsApart`).
-/

namespace LiveForm

namespace Expr

mutual

/-- The names that a formula looks up in its context, from left to right. The names of members are
none of them. -/
def names : Expr → List String
  | .literal _ => []
  | .name n => [n]
  | .member object _ => object.names
  | .index object i => object.names ++ i.names
  | .binary _ left right => left.names ++ right.names
  | .logical _ left right => left.names ++ right.names
  | .unary _ operand => operand.names
  | .conditional test consequent alternate => test.names ++ (consequent.names ++ alternate.names)
  | .call callee args => callee.names ++ namesAll args
  | .array items => namesElements items
  | .sequence body => namesAll body
  | .foreign _ => []

/-- The names of a list of formulas. -/
def namesAll : List Expr → List String
  | [] => []
  | e :: rest => e.names ++ namesAll rest

/-- The names of the elements of an array. -/
def namesElements : List (Option Expr) → List String
  | [] => []
  | none :: rest => namesElements rest
  | some e :: rest => e.names ++ namesElements rest

end

end Expr

/-- Two contexts hold the same under each of some names. -/
def Context.AgreeOn (ns : List String) (c d : Context) : Prop :=
  ∀ n ∈ ns, Entries.at0 c n = Entries.at0 d n

namespace Context.AgreeOn

variable {ns ms : List String} {c d : Context}

theorem left (h : AgreeOn (ns ++ ms) c d) : AgreeOn ns c d :=
  fun n hn => h n (List.mem_append_left _ hn)

theorem right (h : AgreeOn (ns ++ ms) c d) : AgreeOn ms c d :=
  fun n hn => h n (List.mem_append_right _ hn)

end Context.AgreeOn

namespace Formula

open Context (AgreeOn)

/-! ### What a value depends on -/

mutual

/-- The value of a formula depends on what the context holds under its names, and on nothing
else. -/
theorem eval_congr {c d : Context} : ∀ {e : Expr}, AgreeOn e.names c d → eval c e = eval d e
  | .literal _, _ => rfl
  | .name n, h => by rw [eval, eval, h n List.mem_cons_self]
  | .member object _, h => by rw [eval, eval, eval_congr (show AgreeOn object.names c d from h)]
  | .index _ _, h => by rw [eval, eval, eval_congr h.left, eval_congr h.right]
  | .binary _ _ _, h => by rw [eval, eval, eval_congr h.left, eval_congr h.right]
  | .logical _ _ _, h => by rw [eval, eval, eval_congr h.left, eval_congr h.right]
  | .unary _ operand, h => by rw [eval, eval, eval_congr (show AgreeOn operand.names c d from h)]
  | .conditional _ _ _, h => by
    rw [eval, eval, eval_congr h.left, eval_congr h.right.left, eval_congr h.right.right]
  | .call _ _, _ => by rw [eval, eval]
  | .array items, h => by
    rw [eval, eval, evalElements_congr (show AgreeOn (Expr.namesElements items) c d from h)]
  | .sequence body, h => by
    rw [eval, eval, evalSequence_congr (show AgreeOn (Expr.namesAll body) c d from h)]
  | .foreign _, _ => by rw [eval, eval]

theorem evalElements_congr {c d : Context} : ∀ {items : List (Option Expr)},
    AgreeOn (Expr.namesElements items) c d → evalElements c items = evalElements d items
  | [], _ => by rw [evalElements, evalElements]
  | none :: rest, h => by
    rw [evalElements, evalElements,
      evalElements_congr (show AgreeOn (Expr.namesElements rest) c d from h)]
  | some _ :: _, h => by
    rw [evalElements, evalElements, eval_congr h.left, evalElements_congr h.right]

theorem evalSequence_congr {c d : Context} {last : Value} : ∀ {body : List Expr},
    AgreeOn (Expr.namesAll body) c d → evalSequence c last body = evalSequence d last body
  | [], _ => by rw [evalSequence, evalSequence]
  | e :: rest, h => by
    rw [evalSequence, evalSequence, eval_congr h.left]
    exact congrArg _ (funext fun _ => evalSequence_congr h.right)

end

/-- What a source is evaluated to depends on what the context holds under the names of its tree. -/
theorem evaluate_congr {source : String} {e : Expr} (he : parse source = .ok e) {c d : Context}
    (h : AgreeOn e.names c d) : evaluate source c = evaluate source d := by
  simp only [evaluate, he, answer, eval_congr h]

/-! ### Where names stand in a row -/

/-- A lexeme right behind which a name may look itself up: no number, and no dot. -/
def Before (l : Lexeme) : Prop :=
  l ≠ .symbol .dot ∧ ∀ m, l ≠ .number m

/-- The name stands in the row with neither a number next to it nor a dot in front. -/
def StandsApart (n : String) (ls : List Lexeme) : Prop :=
  ∃ xs ys, ls = xs ++ .name n :: ys ∧ (∀ l, xs.getLast? = some l → Before l) ∧
    ∀ l, ys.head? = some l → ∀ m, l ≠ .number m

theorem before_symbol {s : Symbol} (h : s ≠ .dot) : Before (.symbol s) :=
  ⟨fun hs => h (Lexeme.symbol.inj hs), fun _ => Lexeme.noConfusion⟩

/-- A name that stands apart in a part of a row stands apart in the row, if the neighbours of the
part allow it. -/
theorem StandsApart.within {n : String} {ls : List Lexeme} (h : StandsApart n ls)
    (xs ys : List Lexeme) (hxs : ∀ l, xs.getLast? = some l → Before l)
    (hys : ∀ l, ys.head? = some l → ∀ m, l ≠ .number m) : StandsApart n (xs ++ (ls ++ ys)) := by
  obtain ⟨us, vs, rfl, hus, hvs⟩ := h
  refine ⟨xs ++ us, vs ++ ys, by simp, fun l hl => ?_, fun l hl => ?_⟩
  · rw [List.getLast?_append] at hl
    cases hu : us.getLast? with
    | none => exact hxs l (by simpa [hu] using hl)
    | some u => exact hus l (by simpa [hu] using hl)
  · rw [List.head?_append] at hl
    cases hv : vs.head? with
    | none => exact hys l (by simpa [hv] using hl)
    | some v => exact hvs l (by simpa [hv] using hl)

namespace StandsApart

variable {n : String} {ls : List Lexeme}

theorem append_symbol (h : StandsApart n ls) (s : Symbol) (rs : List Lexeme) :
    StandsApart n (ls ++ .symbol s :: rs) := by
  refine h.within [] _ (fun l hl => absurd hl (by simp)) fun l hl m => ?_
  rw [← Option.some.inj hl]
  exact Lexeme.noConfusion

theorem cons (h : StandsApart n ls) {l : Lexeme} (hl : Before l) : StandsApart n (l :: ls) := by
  have hcons := h.within [l] [] (fun k hk => by
    rw [← Option.some.inj hk]
    exact hl) fun k hk => absurd hk (by simp)
  simpa using hcons

theorem behind_symbol (h : StandsApart n (.symbol s :: ls)) (ks : List Lexeme) :
    StandsApart n (ks ++ .symbol s :: ls) := by
  obtain ⟨xs, ys, hxy, hxs, hys⟩ := h
  -- A name is no symbol, so something stands between it and the front.
  cases xs with
  | nil => exact Lexeme.noConfusion (List.cons.inj hxy).1
  | cons x xs =>
    refine ⟨ks ++ x :: xs, ys, by rw [hxy, List.append_assoc], fun l hl => hxs l ?_, hys⟩
    rwa [List.getLast?_append_cons] at hl

theorem after_symbol (h : StandsApart n ls) {s : Symbol} (hs : s ≠ .dot) (ks : List Lexeme) :
    StandsApart n (ks ++ .symbol s :: ls) :=
  (h.cons (before_symbol hs)).behind_symbol ks

end StandsApart

/-- The names of a phrase, from left to right. -/
def Phrase.names : Phrase → List String
  | .formula _ e => e.names
  | .arguments args | .moreArguments args => Expr.namesAll args
  | .elements items => Expr.namesElements items

theorem operator?_ne_dot {level : Nat} {s : Symbol} {make : Expr → Expr → Expr}
    (h : operator? level s = some make) : s ≠ .dot := by
  rintro rfl
  unfold operator? at h
  split at h <;> simp_all

theorem operator?_names {level : Nat} {s : Symbol} {make : Expr → Expr → Expr}
    (h : operator? level s = some make) (left right : Expr) :
    (make left right).names = left.names ++ right.names := by
  unfold operator? at h
  split at h <;> first | (obtain rfl := Option.some.inj h; rfl) | simp at h

theorem prefixOperator?_before {l : Lexeme} {op : UnaryOp} (h : prefixOperator? l = some op) :
    Before l := by
  unfold prefixOperator? at h
  split at h <;> simp_all [Before]

theorem atom?_names {l : Lexeme} {e : Expr} (h : atom? l = some e) {n : String}
    (hn : n ∈ e.names) : l = .name n := by
  unfold atom? at h
  split at h <;> simp only [Option.some.injEq, reduceCtorEq] at h <;> subst h <;>
    simp_all [Expr.names]

/-- The arguments behind the first one begin with a symbol, and so does what closes them. -/
theorem Derives.moreArguments_symbol {args : List Expr} {ms : List Lexeme}
    (h : Derives (.moreArguments args) ms) : ∃ s rest, ms = .symbol s :: rest := by
  cases h <;> exact ⟨_, _, rfl⟩

/-- In a row that stands for a phrase, every name of the phrase stands apart. -/
theorem Derives.standsApart {p : Phrase} {ls : List Lexeme} (h : Derives p ls) {n : String}
    (hn : n ∈ p.names) : StandsApart n ls := by
  have joined {ks ms : List Lexeme} {ns ns' : List String} (hms : ∃ s rest, ms = .symbol s :: rest)
      (hk : n ∈ ns → StandsApart n ks) (hm : n ∈ ns' → StandsApart n ms) (hn : n ∈ ns ++ ns') :
      StandsApart n (ks ++ ms) := by
    obtain ⟨s, rest, rfl⟩ := hms
    rcases List.mem_append.1 hn with hn | hn
    · exact (hk hn).append_symbol s rest
    · exact (hm hn).behind_symbol ks
  induction h with
  | atom ha =>
    rw [atom?_names ha hn]
    exact ⟨[], [], rfl, fun l hl => absurd hl (by simp), fun l hl => absurd hl (by simp)⟩
  | group _ ih => exact ((ih hn).append_symbol _ _).cons (before_symbol (by decide))
  | array _ ih => exact (ih hn).cons (before_symbol (by decide))
  | ofAtom _ ih | ofAccess _ ih | ofLevel _ ih | ofLevels _ ih => exact ih hn
  | member _ _ ih => exact (ih hn).append_symbol _ _
  | index _ _ iho ihi =>
    rcases List.mem_append.1 hn with hn | hn
    · exact (iho hn).append_symbol _ _
    · exact ((ihi hn).append_symbol _ _).after_symbol (by decide) _
  | call _ _ ihc iha =>
    rcases List.mem_append.1 hn with hn | hn
    · exact (ihc hn).append_symbol _ _
    · exact (iha hn).after_symbol (by decide) _
  | unary hop _ ih => exact (ih hn).cons (prefixOperator?_before hop)
  | @binary _ _ make left right _ _ hop _ _ ihl ihr =>
    have hn' : n ∈ left.names ++ right.names := by
      rw [← operator?_names hop]
      exact hn
    rcases List.mem_append.1 hn' with hn' | hn'
    · exact (ihl hn').append_symbol _ _
    · exact (ihr hn').after_symbol (operator?_ne_dot hop) _
  | conditional _ _ _ iht ihc iha =>
    rcases List.mem_append.1 hn with hn | hn
    · exact (iht hn).append_symbol _ _
    · refine StandsApart.after_symbol ?_ (by decide) _
      rcases List.mem_append.1 hn with hn | hn
      · exact (ihc hn).append_symbol _ _
      · exact (iha hn).after_symbol (by decide) _
  | noArguments | lastArgument | noElements => exact absurd hn List.not_mem_nil
  | arguments _ hm ihe ihm => exact joined hm.moreArguments_symbol ihe ihm hn
  | nextArgument _ hm ihe ihm =>
    exact (joined hm.moreArguments_symbol ihe ihm hn).cons (before_symbol (by decide))
  | hole _ ih => exact (ih hn).cons (before_symbol (by decide))
  | element _ _ ihe ihm =>
    rcases List.mem_append.1 hn with hn | hn
    · exact (ihe hn).append_symbol _ _
    · exact (ihm hn).after_symbol (by decide) _
  | lastElement _ ih =>
    have hn' : n ∈ _ ++ [] := hn
    rw [List.append_nil] at hn'
    exact (ih hn').append_symbol _ _

theorem DerivesTail.standsApart {more : List Expr} {ms : List Lexeme} (h : DerivesTail more ms)
    {n : String} (hn : n ∈ Expr.namesAll more) :
    StandsApart n ms ∧ ∃ s rest, ms = .symbol s :: rest := by
  induction h with
  | nil | separator _ => exact absurd hn List.not_mem_nil
  | @next s e more ls ms hs he hm ih =>
    have hdot : s ≠ .dot := by
      rcases hs with rfl | rfl <;> decide
    refine ⟨StandsApart.cons ?_ (before_symbol hdot), _, _, rfl⟩
    rcases List.mem_append.1 hn with hfirst | hmore
    · cases hm with
      | nil =>
        rw [List.append_nil]
        exact he.standsApart hfirst
      | separator _ | next _ _ _ => exact (he.standsApart hfirst).append_symbol _ _
    · obtain ⟨hstands, s', rest, rfl⟩ := ih hmore
      exact hstands.behind_symbol ls

theorem names_ofBody (first : Expr) (more : List Expr) :
    (ofBody (first :: more)).names = first.names ++ Expr.namesAll more := by
  cases more with
  | nil => exact (List.append_nil _).symm
  | cons => rfl

/-- In a row that stands for a formula or a sequence, every name of its tree stands apart. -/
theorem DerivesSource.standsApart {e : Expr} {ls : List Lexeme} (h : DerivesSource e ls)
    {n : String} (hn : n ∈ e.names) : StandsApart n ls := by
  obtain ⟨first, more, fs, ms, rfl, rfl, hf, hm⟩ := h
  rw [names_ofBody] at hn
  rcases List.mem_append.1 hn with hfirst | hmore
  · cases hm with
    | nil =>
      rw [List.append_nil]
      exact hf.standsApart hfirst
    | separator _ | next _ _ _ => exact (hf.standsApart hfirst).append_symbol _ _
  · obtain ⟨hstands, s, rest, rfl⟩ := hm.standsApart hmore
    exact hstands.behind_symbol fs

end Formula

end LiveForm
