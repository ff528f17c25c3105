import Mathlib
import LiveForm.Proofs.Formula.Grammar

/-!
# What the grammar derives, the parser reads

A row of tokens whose lexemes stand for a formula is read as that formula, whatever follows it, as
long as what follows does not go on with the formula (`Derives.conditional_eq`). The levels of
operators and the accesses are loops in the parser, so at these ranks the induction says more: the
loop behind the formula is reached with the formula in hand.
-/

namespace LiveForm.Formula

/-! ### Taking from the front -/

theorem accept?_of_eq {s : Symbol} {t : Token} (h : t.lexeme = .symbol s) (rest : List Token) :
    accept? s (t :: rest) = some ⟨rest, Nat.lt_succ_self _⟩ := by
  rw [accept?, if_pos h]

theorem accept?_of_ne {s : Symbol} {t : Token} (h : t.lexeme ≠ .symbol s) (rest : List Token) :
    accept? s (t :: rest) = none := by
  rw [accept?, if_neg h]

theorem expect_of_eq {s : Symbol} {t : Token} (h : t.lexeme = .symbol s) (cause : ParseCause)
    (rest : List Token) : expect s cause (t :: rest) = .ok ⟨rest, Nat.lt_succ_self _⟩ := by
  rw [expect, accept?_of_eq h]

theorem acceptOperator?_of_eq {level : Nat} {s : Symbol} {make : Expr → Expr → Expr} {t : Token}
    (h : t.lexeme = .symbol s) (hs : operator? level s = some make) (rest : List Token) :
    acceptOperator? level (t :: rest) = some (make, ⟨rest, Nat.lt_succ_self _⟩) := by
  simp only [acceptOperator?, h, hs, Option.map_some]

theorem acceptPrefix?_of_eq {op : UnaryOp} {t : Token} (h : prefixOperator? t.lexeme = some op)
    (rest : List Token) :
    acceptPrefix? (t :: rest) = some (op, ⟨rest, Nat.lt_succ_self _⟩) := by
  simp only [acceptPrefix?, h, Option.map_some]

theorem acceptPrefix?_of_none {t : Token} (h : prefixOperator? t.lexeme = none)
    (rest : List Token) : acceptPrefix? (t :: rest) = none := by
  simp only [acceptPrefix?, h, Option.map_none]

/-- Above the loosest level there are no operators. -/
theorem operator?_level_le {level : Nat} {s : Symbol} (h : (operator? level s).isSome) :
    level ≤ topLevel := by
  unfold operator? at h
  split at h <;> first | decide | cases h

/-- A symbol is an operator of one level only. -/
theorem operator?_level_unique {m n : Nat} {s : Symbol} (hm : (operator? m s).isSome)
    (hn : (operator? n s).isSome) : m = n := by
  have hlevels : ∀ m ≤ topLevel, ∀ n ≤ topLevel, (operator? m s).isSome →
      (operator? n s).isSome → m = n := by
    cases s <;> decide
  exact hlevels m (operator?_level_le hm) n (operator?_level_le hn) hm hn

/-- The result of reading: a value, and the tokens behind what stands for it. -/
def Yields {α : Type} {P : List Token → Prop} (x : Except ParseError (α × Subtype P)) (a : α)
    (rest : List Token) : Prop :=
  ∃ h, x = .ok (a, ⟨rest, h⟩)

/-! ### Where a formula ends -/

/-- The symbols behind a formula that go on with it. -/
def Rank.GoesOn : Rank → Symbol → Prop
  | .atom, _ => False
  | .access, s => s = .dot ∨ s = .openBracket ∨ s = .openParen
  | .level n, s => (s = .dot ∨ s = .openBracket ∨ s = .openParen) ∨
      ∃ k ≤ n, (operator? k s).isSome
  | .whole, s => (s = .dot ∨ s = .openBracket ∨ s = .openParen ∨ s = .question) ∨
      ∃ k, (operator? k s).isSome

/-- What follows a formula does not go on with it. -/
def Rank.Stops (r : Rank) (rest : List Token) : Prop :=
  ∀ t more s, rest = t :: more → t.lexeme = .symbol s → ¬ r.GoesOn s

namespace Rank.Stops

variable {rest : List Token} {n : Nat}

theorem cons {r : Rank} {t : Token} {s : Symbol} (ht : t.lexeme = .symbol s) (h : ¬ r.GoesOn s)
    (more : List Token) : r.Stops (t :: more) := by
  intro u rest s' hu hs'
  obtain ⟨rfl, -⟩ := List.cons.inj hu
  obtain rfl := Lexeme.symbol.inj (ht.symm.trans hs')
  exact h

theorem cons_of_ne {r : Rank} {t : Token} (ht : ∀ s, t.lexeme ≠ .symbol s) (more : List Token) :
    r.Stops (t :: more) := by
  intro u rest s hu hs
  obtain ⟨rfl, -⟩ := List.cons.inj hu
  exact absurd hs (ht s)

theorem access (h : (Rank.level n).Stops rest) : Rank.access.Stops rest :=
  fun t more s ht hs hgo => h t more s ht hs (Or.inl hgo)

theorem level_of_succ (h : (Rank.level (n + 1)).Stops rest) : (Rank.level n).Stops rest := by
  intro t more s ht hs hgo
  refine h t more s ht hs ?_
  rcases hgo with hsym | ⟨k, hk, hop⟩
  · exact Or.inl hsym
  · exact Or.inr ⟨k, Nat.le_succ_of_le hk, hop⟩

theorem level_of_whole (h : Rank.whole.Stops rest) (n : Nat) : (Rank.level n).Stops rest := by
  intro t more s ht hs hgo
  refine h t more s ht hs ?_
  rcases hgo with (hdot | hbracket | hparen) | ⟨k, -, hop⟩
  · exact Or.inl (Or.inl hdot)
  · exact Or.inl (Or.inr (Or.inl hbracket))
  · exact Or.inl (Or.inr (Or.inr (Or.inl hparen)))
  · exact Or.inr ⟨k, hop⟩

/-- An operator of the next level ends a formula. -/
theorem level_of_operator {s : Symbol} {t : Token} (ht : t.lexeme = .symbol s)
    (hop : (operator? (n + 1) s).isSome) (more : List Token) :
    (Rank.level n).Stops (t :: more) := by
  refine cons ht ?_ more
  rintro ((rfl | rfl | rfl) | ⟨k, hk, hk'⟩)
  · exact absurd hop (by simp [operator?])
  · exact absurd hop (by simp [operator?])
  · exact absurd hop (by simp [operator?])
  · exact absurd (operator?_level_unique hop hk') (by omega)

theorem not_accept? {r : Rank} {s : Symbol} (h : r.Stops rest) (hs : r.GoesOn s) :
    accept? s rest = none := by
  cases rest with
  | nil => rfl
  | cons t more => exact accept?_of_ne (fun ht => h t more s rfl ht hs) more

theorem accesses_yields (h : Rank.access.Stops rest) (e : Expr) :
    Yields (accesses e rest) e rest := by
  rw [accesses, h.not_accept? (Or.inl rfl), h.not_accept? (Or.inr (Or.inl rfl)),
    h.not_accept? (Or.inr (Or.inr rfl))]
  exact ⟨Nat.le_refl _, rfl⟩

theorem binaryTail_yields (h : (Rank.level (n + 1)).Stops rest) (e : Expr) :
    Yields (binaryTail n e rest) e rest := by
  have hnone : acceptOperator? (n + 1) rest = none := by
    cases rest with
    | nil => rfl
    | cons t more =>
      cases ht : t.lexeme with
      | symbol s =>
        cases hs : operator? (n + 1) s with
        | none => simp only [acceptOperator?, ht, hs, Option.map_none]
        | some make =>
          exact absurd (Or.inr ⟨n + 1, Nat.le_refl _, by rw [hs]; rfl⟩) (h t more s rfl ht)
      | _ => simp only [acceptOperator?, ht]
  rw [binaryTail, hnone]
  exact ⟨Nat.le_refl _, rfl⟩

end Rank.Stops

/-! ### Reading -/

/-- How a row that stands for a phrase is read, in front of any tokens that do not go on with it. -/
def Reads : Phrase → List Token → Prop
  | .formula .atom e, us => ∀ rest, Yields (primary (us ++ rest)) e rest
  | .formula .access e, us => ∀ rest, ∃ node r, Yields (primary (us ++ rest)) node r ∧
      ∀ x t, Yields (accesses e rest) x t → Yields (accesses node r) x t
  | .formula (.level 0) e, us => ∀ rest, (Rank.level 0).Stops rest →
      Yields (unary (us ++ rest)) e rest
  | .formula (.level (n + 1)) e, us => ∀ rest, (Rank.level n).Stops rest →
      ∀ x t, Yields (binaryTail n e rest) x t → Yields (binary (n + 1) (us ++ rest)) x t
  | .formula .whole e, us => ∀ rest, Rank.whole.Stops rest →
      Yields (conditional (us ++ rest)) e rest
  | .arguments args, us => ∀ rest, Yields (arguments (us ++ rest)) args rest
  | .moreArguments args, us => ∀ rest, Yields (moreArguments (us ++ rest)) args rest
  | .elements items, us => ∀ rest, Yields (elements (us ++ rest)) items rest

theorem Reads.level {n : Nat} {e : Expr} {us : List Token}
    (h : Reads (.formula (.level n) e) us) {rest : List Token} (hstop : (Rank.level n).Stops rest) :
    Yields (binary n (us ++ rest)) e rest := by
  cases n with
  | zero =>
    obtain ⟨hlt, hu⟩ := h rest hstop
    exact ⟨hlt, by rw [binary, hu]⟩
  | succ n => exact h rest hstop.level_of_succ e rest (hstop.binaryTail_yields e)

/-- The first lexeme of a row stands on the first token. -/
theorem exists_cons_of_map_eq_cons {us : List Token} {l : Lexeme} {ls : List Lexeme}
    (h : us.map Token.lexeme = l :: ls) :
    ∃ t more, us = t :: more ∧ t.lexeme = l ∧ more.map Token.lexeme = ls := by
  obtain ⟨t, more, rfl, ht, hmore⟩ := List.map_eq_cons_iff.1 h
  exact ⟨t, more, rfl, ht, hmore⟩

/-- The last lexeme of a row stands on the last token. -/
theorem exists_snoc_of_map_eq_snoc {us : List Token} {l : Lexeme} {ls : List Lexeme}
    (h : us.map Token.lexeme = ls ++ [l]) :
    ∃ front t, us = front ++ [t] ∧ front.map Token.lexeme = ls ∧ t.lexeme = l := by
  obtain ⟨front, back, rfl, hfront, hback⟩ := List.map_eq_append_iff.1 h
  obtain ⟨t, more, rfl, ht, hmore⟩ := exists_cons_of_map_eq_cons hback
  obtain rfl := List.map_eq_nil_iff.1 hmore
  exact ⟨front, t, rfl, hfront, ht⟩

/-! ### Atoms and accesses -/

/-- A symbol that closes something ends the formula before it. -/
theorem Rank.Stops.close {t : Token} {s : Symbol} (ht : t.lexeme = .symbol s)
    (hs : s = .closeParen ∨ s = .closeBracket ∨ s = .comma ∨ s = .semicolon ∨ s = .colon)
    (more : List Token) : Rank.whole.Stops (t :: more) := by
  refine Rank.Stops.cons ht ?_ more
  rintro (hsym | ⟨k, hk⟩)
  · rcases hs with rfl | rfl | rfl | rfl | rfl <;> simp at hsym
  · rcases hs with rfl | rfl | rfl | rfl | rfl <;> simp [operator?] at hk

section

variable {e : Expr} {us : List Token}

theorem reads_atom {t : Token} (ha : atom? t.lexeme = some e) : Reads (.formula .atom e) [t] := by
  intro rest
  rw [List.singleton_append, primary]
  simp only [ha]
  exact ⟨Nat.lt_succ_self _, rfl⟩

theorem reads_group (h : Reads (.formula .whole e) us) {o c : Token}
    (ho : o.lexeme = .symbol .openParen) (hc : c.lexeme = .symbol .closeParen) :
    Reads (.formula .atom e) (o :: (us ++ [c])) := by
  intro rest
  obtain ⟨_, hread⟩ := h (c :: rest) (.close hc (Or.inl rfl) rest)
  rw [List.cons_append, List.append_assoc, List.singleton_append, primary]
  simp only [ho, atom?, if_true, hread, expect_of_eq hc]
  exact ⟨_, rfl⟩

theorem reads_array {items : List (Option Expr)} (h : Reads (.elements items) us) {o : Token}
    (ho : o.lexeme = .symbol .openBracket) : Reads (.formula .atom (.array items)) (o :: us) := by
  intro rest
  obtain ⟨_, hread⟩ := h rest
  rw [List.cons_append, primary]
  simp only [ho, atom?, reduceCtorEq, Lexeme.symbol.injEq, if_false, if_true, hread]
  exact ⟨_, rfl⟩

theorem reads_ofAtom (h : Reads (.formula .atom e) us) : Reads (.formula .access e) us :=
  fun rest => ⟨e, rest, h rest, fun _ _ hx => hx⟩

/-- What stands behind a value is read after it. -/
theorem reads_access {e' : Expr} {more : List Token} (h : Reads (.formula .access e) us)
    (hmore : ∀ rest x t, Yields (accesses e' rest) x t →
      Yields (accesses e (more ++ rest)) x t) :
    Reads (.formula .access e') (us ++ more) := by
  intro rest
  obtain ⟨node, r, hread, hgo⟩ := h (more ++ rest)
  rw [List.append_assoc]
  exact ⟨node, r, hread, fun x t hx => hgo x t (hmore rest x t hx)⟩

theorem reads_member {name : String} (h : Reads (.formula .access e) us) {d t : Token}
    (hd : d.lexeme = .symbol .dot) (ht : memberName? t.lexeme = some name) :
    Reads (.formula .access (.member e name)) (us ++ [d, t]) := by
  refine reads_access h (fun rest x tail hx => ?_)
  obtain ⟨_, hx⟩ := hx
  rw [List.cons_append, List.cons_append, List.nil_append, accesses, accept?_of_eq hd]
  simp only [memberName, ht, hx]
  exact ⟨_, rfl⟩

theorem reads_index {i : Expr} {is : List Token} (h : Reads (.formula .access e) us)
    (hi : Reads (.formula .whole i) is) {o c : Token} (ho : o.lexeme = .symbol .openBracket)
    (hc : c.lexeme = .symbol .closeBracket) :
    Reads (.formula .access (.index e i)) (us ++ o :: (is ++ [c])) := by
  refine reads_access h (fun rest x tail hx => ?_)
  obtain ⟨_, hx⟩ := hx
  obtain ⟨_, hread⟩ := hi (c :: rest) (.close hc (Or.inr (Or.inl rfl)) rest)
  have hdot : o.lexeme ≠ .symbol .dot := by simp [ho]
  rw [List.cons_append, List.append_assoc, List.singleton_append, accesses, accept?_of_ne hdot,
    accept?_of_eq ho]
  simp only [hread, expect_of_eq hc, hx]
  exact ⟨_, rfl⟩

theorem reads_call {args : List Expr} {as : List Token} (h : Reads (.formula .access e) us)
    (ha : Reads (.arguments args) as) {o : Token} (ho : o.lexeme = .symbol .openParen) :
    Reads (.formula .access (.call e args)) (us ++ o :: as) := by
  refine reads_access h (fun rest x tail hx => ?_)
  obtain ⟨_, hx⟩ := hx
  obtain ⟨_, hread⟩ := ha rest
  have hdot : o.lexeme ≠ .symbol .dot := by simp [ho]
  have hbracket : o.lexeme ≠ .symbol .openBracket := by simp [ho]
  rw [List.cons_append, accesses, accept?_of_ne hdot, accept?_of_ne hbracket, accept?_of_eq ho]
  simp only [hread, hx]
  exact ⟨_, rfl⟩

/-! ### Operators and conditionals -/

theorem reads_ofAccess (h : Reads (.formula .access e) us)
    (hopens : ∃ t more, us = t :: more ∧ OpensAtom t.lexeme) :
    Reads (.formula (.level 0) e) us := by
  intro rest hstop
  obtain ⟨t, more, rfl, ht⟩ := hopens
  obtain ⟨node, r, ⟨_, hread⟩, hgo⟩ := h rest
  obtain ⟨_, hx⟩ := hgo e rest (hstop.access.accesses_yields e)
  have hprefix : acceptPrefix? (t :: more ++ rest) = none :=
    acceptPrefix?_of_none ht.not_prefix (more ++ rest)
  rw [unary, hprefix]
  simp only [hread, hx]
  exact ⟨_, rfl⟩

theorem reads_unary {op : UnaryOp} (h : Reads (.formula (.level 0) e) us) {t : Token}
    (ht : prefixOperator? t.lexeme = some op) :
    Reads (.formula (.level 0) (.unary op e)) (t :: us) := by
  intro rest hstop
  obtain ⟨_, hread⟩ := h rest hstop
  rw [List.cons_append, unary, acceptPrefix?_of_eq ht]
  simp only [hread]
  exact ⟨_, rfl⟩

theorem reads_ofLevel {n : Nat} (h : Reads (.formula (.level n) e) us) :
    Reads (.formula (.level (n + 1)) e) us := by
  intro rest hstop x t hx
  obtain ⟨_, hread⟩ := h.level hstop
  obtain ⟨_, hx⟩ := hx
  rw [binary]
  simp only [hread, hx]
  exact ⟨_, rfl⟩

theorem reads_binary {n : Nat} {s : Symbol} {make : Expr → Expr → Expr} {right : Expr}
    {vs : List Token} (hs : operator? (n + 1) s = some make)
    (hl : Reads (.formula (.level (n + 1)) e) us) (hr : Reads (.formula (.level n) right) vs)
    {o : Token} (ho : o.lexeme = .symbol s) :
    Reads (.formula (.level (n + 1)) (make e right)) (us ++ o :: vs) := by
  intro rest hstop x t hx
  obtain ⟨_, hread⟩ := hr.level hstop
  obtain ⟨_, hx⟩ := hx
  rw [List.append_assoc, List.cons_append]
  -- The operator ends the left side, and the loop of its level takes it up.
  refine hl (o :: (vs ++ rest)) (.level_of_operator ho (by rw [hs]; rfl) _) x t ?_
  rw [binaryTail, acceptOperator?_of_eq ho hs]
  simp only [hread, hx]
  exact ⟨_, rfl⟩

theorem reads_ofLevels (h : Reads (.formula (.level topLevel) e) us) :
    Reads (.formula .whole e) us := by
  intro rest hstop
  obtain ⟨_, hread⟩ := h.level (hstop.level_of_whole topLevel)
  have hnone : accept? .question rest = none := hstop.not_accept? (Or.inl (by simp))
  rw [conditional]
  simp only [hread, hnone]
  exact ⟨_, rfl⟩

theorem reads_conditional {consequent alternate : Expr} {cs as : List Token}
    (ht : Reads (.formula (.level topLevel) e) us) (hc : Reads (.formula .whole consequent) cs)
    (ha : Reads (.formula .whole alternate) as) {q c : Token}
    (hq : q.lexeme = .symbol .question) (hcolon : c.lexeme = .symbol .colon) :
    Reads (.formula .whole (.conditional e consequent alternate))
      (us ++ q :: (cs ++ c :: as)) := by
  intro rest hstop
  have hquestion : (Rank.level topLevel).Stops (q :: (cs ++ c :: (as ++ rest))) := by
    refine .cons hq ?_ _
    rintro (hsym | ⟨k, -, hk⟩)
    · simp at hsym
    · simp [operator?] at hk
  obtain ⟨_, htest⟩ := ht.level hquestion
  obtain ⟨_, hcons⟩ := hc (c :: (as ++ rest)) (.close hcolon (by simp) _)
  obtain ⟨_, halt⟩ := ha rest hstop
  rw [List.append_assoc, List.cons_append, List.append_assoc, List.cons_append, conditional]
  simp only [htest, accept?_of_eq hq, hcons, expect_of_eq hcolon, halt]
  exact ⟨_, rfl⟩

/-! ### Arguments and elements -/

/-- A row for a formula that begins with a token that nothing closes and no comma separates. -/
def BeginsFormula (us : List Token) : Prop :=
  ∃ t more, us = t :: more ∧ t.lexeme ≠ .symbol .comma ∧ t.lexeme ≠ .symbol .closeParen ∧
    t.lexeme ≠ .symbol .closeBracket

theorem reads_noArguments {c : Token} (hc : c.lexeme = .symbol .closeParen) :
    Reads (.arguments []) [c] := by
  intro rest
  rw [List.singleton_append, arguments, accept?_of_eq hc]
  exact ⟨_, rfl⟩

theorem reads_arguments {more : List Expr} {vs : List Token} (h : Reads (.formula .whole e) us)
    (hus : BeginsFormula us) (hmore : Reads (.moreArguments more) vs)
    (hvs : ∀ rest, Rank.whole.Stops (vs ++ rest)) :
    Reads (.arguments (e :: more)) (us ++ vs) := by
  intro rest
  obtain ⟨_, hread⟩ := h (vs ++ rest) (hvs rest)
  obtain ⟨_, hargs⟩ := hmore rest
  obtain ⟨t, us, rfl, -, hclose, -⟩ := hus
  have hnone : accept? .closeParen (t :: us ++ (vs ++ rest)) = none := accept?_of_ne hclose _
  rw [List.append_assoc, arguments, hnone]
  simp only [hread, hargs]
  exact ⟨_, rfl⟩

theorem reads_lastArgument {c : Token} (hc : c.lexeme = .symbol .closeParen) :
    Reads (.moreArguments []) [c] := by
  intro rest
  have hcomma : c.lexeme ≠ .symbol .comma := by simp [hc]
  rw [List.singleton_append, moreArguments, accept?_of_ne hcomma]
  simp only [expect_of_eq hc]
  exact ⟨_, rfl⟩

theorem reads_nextArgument {more : List Expr} {vs : List Token} (h : Reads (.formula .whole e) us)
    (hmore : Reads (.moreArguments more) vs) (hvs : ∀ rest, Rank.whole.Stops (vs ++ rest))
    {c : Token} (hc : c.lexeme = .symbol .comma) :
    Reads (.moreArguments (e :: more)) (c :: (us ++ vs)) := by
  intro rest
  obtain ⟨_, hread⟩ := h (vs ++ rest) (hvs rest)
  obtain ⟨_, hargs⟩ := hmore rest
  rw [List.cons_append, List.append_assoc, moreArguments, accept?_of_eq hc]
  simp only [hread, hargs]
  exact ⟨_, rfl⟩

theorem reads_noElements {c : Token} (hc : c.lexeme = .symbol .closeBracket) :
    Reads (.elements []) [c] := by
  intro rest
  rw [List.singleton_append, elements, accept?_of_eq hc]
  exact ⟨_, rfl⟩

theorem reads_hole {more : List (Option Expr)} (h : Reads (.elements more) us) {c : Token}
    (hc : c.lexeme = .symbol .comma) : Reads (.elements (none :: more)) (c :: us) := by
  intro rest
  obtain ⟨_, hread⟩ := h rest
  have hclose : c.lexeme ≠ .symbol .closeBracket := by simp [hc]
  rw [List.cons_append, elements, accept?_of_ne hclose, accept?_of_eq hc]
  simp only [hread]
  exact ⟨_, rfl⟩

theorem reads_element {more : List (Option Expr)} {vs : List Token}
    (h : Reads (.formula .whole e) us) (hus : BeginsFormula us) (hmore : Reads (.elements more) vs)
    {c : Token} (hc : c.lexeme = .symbol .comma) :
    Reads (.elements (some e :: more)) (us ++ c :: vs) := by
  intro rest
  obtain ⟨_, hread⟩ := h (c :: (vs ++ rest)) (.close hc (by simp) _)
  obtain ⟨_, hitems⟩ := hmore rest
  obtain ⟨t, us, rfl, hcomma, -, hclose⟩ := hus
  rw [List.append_assoc]
  simp only [List.cons_append] at hread ⊢
  rw [elements, accept?_of_ne hclose, accept?_of_ne hcomma]
  simp only [hread, accept?_of_eq hc, hitems]
  exact ⟨_, rfl⟩

theorem reads_lastElement (h : Reads (.formula .whole e) us) (hus : BeginsFormula us) {c : Token}
    (hc : c.lexeme = .symbol .closeBracket) : Reads (.elements [some e]) (us ++ [c]) := by
  intro rest
  obtain ⟨_, hread⟩ := h (c :: rest) (.close hc (by simp) _)
  obtain ⟨t, us, rfl, hcomma, -, hclose⟩ := hus
  have hcomma' : c.lexeme ≠ .symbol .comma := by simp [hc]
  rw [List.append_assoc, List.singleton_append]
  simp only [List.cons_append] at hread ⊢
  rw [elements, accept?_of_ne hclose, accept?_of_ne hcomma]
  simp only [hread, accept?_of_ne hcomma', expect_of_eq hc]
  exact ⟨_, rfl⟩

end

/-! ### Whole rows -/

theorem Derives.beginsFormula {r : Rank} {e : Expr} {us : List Token}
    (h : Derives (.formula r e) (us.map Token.lexeme)) : BeginsFormula us := by
  obtain ⟨l, ls, hls, hopens⟩ := h.opens
  obtain ⟨t, more, rfl, rfl, -⟩ := exists_cons_of_map_eq_cons hls
  obtain ⟨hcomma, hparen, hbracket, -⟩ := hopens.ne
  exact ⟨t, more, rfl, hcomma, hparen, hbracket⟩

/-- What follows an argument does not go on with it. -/
theorem Derives.moreArguments_stops {args : List Expr} {us : List Token}
    (h : Derives (.moreArguments args) (us.map Token.lexeme)) (rest : List Token) :
    Rank.whole.Stops (us ++ rest) := by
  generalize hp : us.map Token.lexeme = ls at h
  cases h with
  | lastArgument =>
    obtain ⟨t, more, rfl, ht, -⟩ := exists_cons_of_map_eq_cons hp
    exact .close ht (by simp) _
  | nextArgument _ _ =>
    obtain ⟨t, more, rfl, ht, -⟩ := exists_cons_of_map_eq_cons hp
    exact .close ht (by simp) _

/-- **What the grammar derives, the parser reads.** -/
theorem Derives.reads {p : Phrase} {ls : List Lexeme} (h : Derives p ls) :
    ∀ us, us.map Token.lexeme = ls → Reads p us := by
  induction h with
  | @atom l e ha =>
    intro us hus
    obtain ⟨t, more, rfl, rfl, hmore⟩ := exists_cons_of_map_eq_cons hus
    obtain rfl := List.map_eq_nil_iff.1 hmore
    exact reads_atom ha
  | group _ ih =>
    intro us hus
    obtain ⟨o, more, rfl, ho, hmore⟩ := exists_cons_of_map_eq_cons hus
    obtain ⟨inner, c, rfl, hinner, hc⟩ := exists_snoc_of_map_eq_snoc hmore
    exact reads_group (ih inner hinner) ho hc
  | array _ ih =>
    intro us hus
    obtain ⟨o, more, rfl, ho, hmore⟩ := exists_cons_of_map_eq_cons hus
    exact reads_array (ih more hmore) ho
  | ofAtom _ ih => exact fun us hus => reads_ofAtom (ih us hus)
  | member _ hl ih =>
    intro us hus
    obtain ⟨front, back, rfl, hfront, hback⟩ := List.map_eq_append_iff.1 hus
    obtain ⟨d, more, rfl, hd, hmore⟩ := exists_cons_of_map_eq_cons hback
    obtain ⟨t, nothing, rfl, rfl, hnothing⟩ := exists_cons_of_map_eq_cons hmore
    obtain rfl := List.map_eq_nil_iff.1 hnothing
    exact reads_member (ih front hfront) hd hl
  | index _ _ ih ihi =>
    intro us hus
    obtain ⟨front, back, rfl, hfront, hback⟩ := List.map_eq_append_iff.1 hus
    obtain ⟨o, more, rfl, ho, hmore⟩ := exists_cons_of_map_eq_cons hback
    obtain ⟨inner, c, rfl, hinner, hc⟩ := exists_snoc_of_map_eq_snoc hmore
    exact reads_index (ih front hfront) (ihi inner hinner) ho hc
  | call _ _ ih iha =>
    intro us hus
    obtain ⟨front, back, rfl, hfront, hback⟩ := List.map_eq_append_iff.1 hus
    obtain ⟨o, more, rfl, ho, hmore⟩ := exists_cons_of_map_eq_cons hback
    exact reads_call (ih front hfront) (iha more hmore) ho
  | ofAccess hd ih =>
    intro us hus
    obtain ⟨l, ls, hls, hopens⟩ := hd.opens
    obtain ⟨t, more, rfl, rfl, -⟩ := exists_cons_of_map_eq_cons (hus.trans hls)
    exact reads_ofAccess (ih _ hus) ⟨t, more, rfl, hopens⟩
  | unary hop _ ih =>
    intro us hus
    obtain ⟨t, more, rfl, rfl, hmore⟩ := exists_cons_of_map_eq_cons hus
    exact reads_unary (ih more hmore) hop
  | ofLevel _ ih => exact fun us hus => reads_ofLevel (ih us hus)
  | binary hs _ _ ihl ihr =>
    intro us hus
    obtain ⟨front, back, rfl, hfront, hback⟩ := List.map_eq_append_iff.1 hus
    obtain ⟨o, more, rfl, ho, hmore⟩ := exists_cons_of_map_eq_cons hback
    exact reads_binary hs (ihl front hfront) (ihr more hmore) ho
  | ofLevels _ ih => exact fun us hus => reads_ofLevels (ih us hus)
  | conditional _ _ _ iht ihc iha =>
    intro us hus
    obtain ⟨front, back, rfl, hfront, hback⟩ := List.map_eq_append_iff.1 hus
    obtain ⟨q, more, rfl, hq, hmore⟩ := exists_cons_of_map_eq_cons hback
    obtain ⟨middle, last, rfl, hmiddle, hlast⟩ := List.map_eq_append_iff.1 hmore
    obtain ⟨c, end_, rfl, hc, hend⟩ := exists_cons_of_map_eq_cons hlast
    exact reads_conditional (iht front hfront) (ihc middle hmiddle) (iha end_ hend) hq hc
  | noArguments =>
    intro us hus
    obtain ⟨c, more, rfl, hc, hmore⟩ := exists_cons_of_map_eq_cons hus
    obtain rfl := List.map_eq_nil_iff.1 hmore
    exact reads_noArguments hc
  | arguments he hm ih ihm =>
    intro us hus
    obtain ⟨front, back, rfl, rfl, rfl⟩ := List.map_eq_append_iff.1 hus
    exact reads_arguments (ih front rfl) he.beginsFormula (ihm back rfl) hm.moreArguments_stops
  | lastArgument =>
    intro us hus
    obtain ⟨c, more, rfl, hc, hmore⟩ := exists_cons_of_map_eq_cons hus
    obtain rfl := List.map_eq_nil_iff.1 hmore
    exact reads_lastArgument hc
  | nextArgument _ hm ih ihm =>
    intro us hus
    obtain ⟨c, more, rfl, hc, hmore⟩ := exists_cons_of_map_eq_cons hus
    obtain ⟨front, back, rfl, rfl, rfl⟩ := List.map_eq_append_iff.1 hmore
    exact reads_nextArgument (ih front rfl) (ihm back rfl) hm.moreArguments_stops hc
  | noElements =>
    intro us hus
    obtain ⟨c, more, rfl, hc, hmore⟩ := exists_cons_of_map_eq_cons hus
    obtain rfl := List.map_eq_nil_iff.1 hmore
    exact reads_noElements hc
  | hole _ ih =>
    intro us hus
    obtain ⟨c, more, rfl, hc, hmore⟩ := exists_cons_of_map_eq_cons hus
    exact reads_hole (ih more hmore) hc
  | element he _ ih ihm =>
    intro us hus
    obtain ⟨front, back, rfl, rfl, hback⟩ := List.map_eq_append_iff.1 hus
    obtain ⟨c, more, rfl, hc, hmore⟩ := exists_cons_of_map_eq_cons hback
    exact reads_element (ih front rfl) he.beginsFormula (ihm more hmore) hc
  | lastElement he ih =>
    intro us hus
    obtain ⟨front, c, rfl, rfl, hc⟩ := exists_snoc_of_map_eq_snoc hus
    exact reads_lastElement (ih front rfl) he.beginsFormula hc

/-- What follows a formula in a sequence does not go on with it. -/
theorem DerivesTail.stops {es : List Expr} {us : List Token}
    (h : DerivesTail es (us.map Token.lexeme)) {last : Token} (hlast : last.lexeme = .eof) :
    Rank.whole.Stops (us ++ [last]) := by
  generalize hp : us.map Token.lexeme = ls at h
  cases h with
  | nil =>
    obtain rfl := List.map_eq_nil_iff.1 hp
    exact .cons_of_ne (fun s => by simp [hlast]) []
  | separator hs | next hs _ _ =>
    obtain ⟨t, more, rfl, ht, -⟩ := exists_cons_of_map_eq_cons hp
    exact .close ht (by rcases hs with rfl | rfl <;> simp) _

theorem acceptSeparator?_of_eq {s : Symbol} (hs : s = .comma ∨ s = .semicolon) {t : Token}
    (ht : t.lexeme = .symbol s) (rest : List Token) :
    acceptSeparator? (t :: rest) = some ⟨rest, Nat.lt_succ_self _⟩ := by
  rcases hs with rfl | rfl
  · rw [acceptSeparator?, accept?_of_eq ht]
    rfl
  · have hcomma : t.lexeme ≠ .symbol .comma := by simp [ht]
    rw [acceptSeparator?, accept?_of_ne hcomma, accept?_of_eq ht]
    rfl

/-- The formulas of a sequence are read up to the end of the row. -/
theorem DerivesTail.sequenceTail_eq {es : List Expr} {ls : List Lexeme} (h : DerivesTail es ls)
    {last : Token} (hlast : last.lexeme = .eof) :
    ∀ us, us.map Token.lexeme = ls → sequenceTail (us ++ [last]) = .ok (es, [last]) := by
  induction h with
  | nil =>
    intro us hus
    obtain rfl := List.map_eq_nil_iff.1 hus
    have hcomma : last.lexeme ≠ .symbol .comma := by simp [hlast]
    have hsemicolon : last.lexeme ≠ .symbol .semicolon := by simp [hlast]
    rw [List.nil_append, sequenceTail, acceptSeparator?, accept?_of_ne hcomma,
      accept?_of_ne hsemicolon]
    rfl
  | separator hs =>
    intro us hus
    obtain ⟨t, more, rfl, ht, hmore⟩ := exists_cons_of_map_eq_cons hus
    obtain rfl := List.map_eq_nil_iff.1 hmore
    rw [List.singleton_append, sequenceTail, acceptSeparator?_of_eq hs ht]
    simp only [peek, List.headD_cons, hlast, if_true]
  | next hs he hmore ih =>
    intro us hus
    obtain ⟨t, more, rfl, ht, hmore'⟩ := exists_cons_of_map_eq_cons hus
    obtain ⟨front, back, rfl, rfl, rfl⟩ := List.map_eq_append_iff.1 hmore'
    obtain ⟨_, hread⟩ := he.reads front rfl (back ++ [last]) (hmore.stops hlast)
    obtain ⟨l, ls, hls, hopens⟩ := he.opens
    obtain ⟨u, front, rfl, rfl, -⟩ := exists_cons_of_map_eq_cons hls
    obtain ⟨-, -, -, hu⟩ := hopens.ne
    rw [List.cons_append, List.append_assoc, sequenceTail, acceptSeparator?_of_eq hs ht]
    simp only [List.cons_append] at hread ⊢
    simp only [peek, List.headD_cons, hu, if_false, hread, ih back rfl]

/-- **A row that stands for a formula or a sequence is read as that.** -/
theorem DerivesSource.parseTokens_eq {e : Expr} {us : List Token}
    (h : DerivesSource e (us.map Token.lexeme)) {last : Token} (hlast : last.lexeme = .eof) :
    parseTokens (us ++ [last]) = .ok e := by
  obtain ⟨first, more, fs, ms, rfl, hus, hfirst, hmore⟩ := h
  obtain ⟨front, back, rfl, rfl, rfl⟩ := List.map_eq_append_iff.1 hus
  obtain ⟨_, hread⟩ := hfirst.reads front rfl (back ++ [last]) (hmore.stops hlast)
  have htail := hmore.sequenceTail_eq hlast back rfl
  obtain ⟨l, ls, hls, hopens⟩ := hfirst.opens
  obtain ⟨u, front, rfl, rfl, -⟩ := exists_cons_of_map_eq_cons hls
  obtain ⟨-, -, -, hu⟩ := hopens.ne
  rw [List.append_assoc, parseTokens]
  simp only [List.cons_append] at hread ⊢
  simp only [peek, List.headD_cons, hu, if_false, hread, htail, hlast, if_true]

end LiveForm.Formula
