import Mathlib
import LiveForm.Proofs.Formula.Completeness
import LiveForm.Proofs.Formula.Reads

/-!
# The language of the parser

Soundness and completeness put together. A row of tokens that ends once, as every row of the lexer
does (`tokens_endsOnce`), is read as a formula exactly if the grammar derives that formula from it;
no row has two formulas (`DerivesSource.unique`); and what the grammar does not derive is refused
(`parseTokens_exact`). For sources it says that a source is read exactly if its lexemes stand for a
formula (`parse_eq_ok_iff`).
-/

namespace LiveForm.Formula

/-! ### Where rows end -/

/-- A row of tokens and the token behind it: the source ends there and nowhere before. -/
structure EndsOnce (row : List Token) (last : Token) : Prop where
  ends : last.lexeme = .eof
  once : ∀ t ∈ row, t.lexeme ≠ .eof

theorem lexeme?_ne_eof {kind : Kind} {piece : List Char} {l : Lexeme}
    (h : lexeme? kind piece = .ok (some l)) : l ≠ .eof := by
  rintro rfl
  cases kind with
  | number =>
    obtain ⟨m, hm⟩ := number_of_lexeme h
    exact absurd hm (by simp)
  | word =>
    have hword : wordLexeme (String.ofList piece) = .eof := Option.some.inj (Except.ok.inj h)
    unfold wordLexeme at hword
    split_ifs at hword
  | _ => simp [lexeme?] at h

/-- The pieces of a source do not end it. -/
theorem Cut.eof_not_mem {cs : List Char} {pieces : List Piece} (h : Cut cs pieces) :
    Lexeme.eof ∉ pieces.filterMap Piece.lexeme := by
  induction h with
  | nil => exact List.not_mem_nil
  | @cons piece _ _ _ hlexeme _ ih =>
    cases hl : piece.lexeme with
    | none => simpa [hl] using ih
    | some l =>
      rw [hl] at hlexeme
      have hne : Lexeme.eof ≠ l := (lexeme?_ne_eof hlexeme).symm
      simpa [hl, hne] using ih

/-- The tokens of a source end once. -/
theorem tokens_endsOnce {source : String} {ts : List Token} (h : tokens source = .ok ts) :
    ∃ row last, ts = row ++ [last] ∧ EndsOnce row last := by
  unfold tokens at h
  cases herror : (scan source).error with
  | some error => simp [herror] at h
  | none =>
    obtain ⟨pieces, hcut, htokens⟩ := scanFrom_cut {} source.toList herror
    obtain rfl : (scan source).tokens = ts := by simpa [herror] using h
    obtain ⟨row, last, hts, hrow, hlast⟩ := exists_snoc_of_map_eq_snoc htokens
    refine ⟨row, last, hts, hlast, fun t ht heof => hcut.eof_not_mem ?_⟩
    rw [← hrow, ← heof]
    exact List.mem_map_of_mem ht

/-- The end of the source stands in no row of the grammar. -/
theorem Derives.eof_not_mem {p : Phrase} {ls : List Lexeme} (h : Derives p ls) :
    Lexeme.eof ∉ ls := by
  induction h with
  | atom ha =>
    rw [List.mem_singleton]
    rintro rfl
    simp [atom?] at ha
  | @member _ _ l _ _ hname ih =>
    have hl : Lexeme.eof ≠ l := by
      rintro rfl
      simp [memberName?] at hname
    simp [ih, hl]
  | @unary l _ _ _ hop _ ih =>
    have hl : Lexeme.eof ≠ l := by
      rintro rfl
      simp [prefixOperator?] at hop
    simp [ih, hl]
  | ofAtom _ ih | ofAccess _ ih | ofLevel _ ih | ofLevels _ ih => exact ih
  | noArguments | lastArgument | noElements => simp
  | group _ ih | array _ ih | hole _ ih | lastElement _ ih => simp [ih]
  | index _ _ ih ih' | call _ _ ih ih' | binary _ _ _ ih ih' | arguments _ _ ih ih'
  | nextArgument _ _ ih ih' | element _ _ ih ih' => simp [ih, ih']
  | conditional _ _ _ iht ihc iha => simp [iht, ihc, iha]

theorem DerivesTail.eof_not_mem {more : List Expr} {ms : List Lexeme} (h : DerivesTail more ms) :
    Lexeme.eof ∉ ms := by
  induction h with
  | nil | separator _ => simp
  | next _ he _ ih => simp [he.eof_not_mem, ih]

theorem DerivesSource.eof_not_mem {e : Expr} {ls : List Lexeme} (h : DerivesSource e ls) :
    Lexeme.eof ∉ ls := by
  obtain ⟨first, more, fs, ms, -, rfl, hfirst, hmore⟩ := h
  rw [List.mem_append]
  exact fun hmem => hmem.elim hfirst.eof_not_mem hmore.eof_not_mem

/-! ### The parser and the grammar -/

/-- If a row ends once, the part of it before any end of the source is the row itself. -/
theorem EndsOnce.eq_of_append {row : List Token} {last : Token} (h : EndsOnce row last)
    {us rest : List Token} (hsplit : row ++ [last] = us ++ rest)
    (hend : (peek rest).lexeme = .eof) (hus : Lexeme.eof ∉ us.map Token.lexeme) : us = row := by
  rcases List.eq_nil_or_concat rest with rfl | ⟨init, t, rfl⟩
  · -- Nothing is left, so the last token would be among those before the end.
    rw [List.append_nil] at hsplit
    refine absurd ?_ hus
    rw [← hsplit, ← h.ends]
    exact List.mem_map_of_mem (List.mem_append_right _ List.mem_cons_self)
  · rw [List.concat_eq_append, ← List.append_assoc] at hsplit
    obtain ⟨hrow, -⟩ := List.append_inj' hsplit rfl
    cases init with
    | nil => rw [hrow, List.append_nil]
    | cons u init =>
      refine absurd hend (h.once u ?_)
      rw [hrow]
      exact List.mem_append_right _ List.mem_cons_self

/-- The parser reads a formula from a row exactly if the grammar derives it. -/
theorem EndsOnce.parseTokens_eq_ok_iff {row : List Token} {last : Token} (h : EndsOnce row last)
    (e : Expr) : parseTokens (row ++ [last]) = .ok e ↔ DerivesSource e (row.map Token.lexeme) := by
  constructor
  · intro hparse
    obtain ⟨us, rest, hsplit, hend, hderives⟩ := parseTokens_sound hparse
    rw [← h.eq_of_append hsplit hend hderives.eof_not_mem]
    exact hderives
  · intro hderives
    exact hderives.parseTokens_eq h.ends

/-- No row stands for two formulas. -/
theorem DerivesSource.unique {e e' : Expr} {ls : List Lexeme} (h : DerivesSource e ls)
    (h' : DerivesSource e' ls) : e = e' := by
  have hrow : (ls.map fun l => (⟨l, 0, 1, 1⟩ : Token)).map Token.lexeme = ls := by
    rw [List.map_map]
    exact List.map_id _
  rw [← hrow] at h h'
  have hlast : (⟨.eof, 0, 1, 1⟩ : Token).lexeme = .eof := rfl
  exact Except.ok.inj ((h.parseTokens_eq hlast).symm.trans (h'.parseTokens_eq hlast))

/-- What a source is read as is what its tokens are read as. -/
theorem parse_eq_ok_of_tokens {source : String} {ts : List Token} (h : tokens source = .ok ts)
    (e : Expr) : parse source = .ok e ↔ parseTokens ts = .ok e := by
  rw [parse, h]
  dsimp only
  cases parseTokens ts <;> simp

/-- A source is read as a formula exactly if it can be cut into tokens that stand for the
formula. -/
theorem parse_eq_ok_iff {source : String} {e : Expr} : parse source = .ok e ↔
    ∃ row last, tokens source = .ok (row ++ [last]) ∧ EndsOnce row last ∧
      DerivesSource e (row.map Token.lexeme) := by
  constructor
  · intro h
    cases htokens : tokens source with
    | error error => simp [parse, htokens] at h
    | ok ts =>
      obtain ⟨row, last, rfl, hends⟩ := tokens_endsOnce htokens
      refine ⟨row, last, rfl, hends, (hends.parseTokens_eq_ok_iff e).1 ?_⟩
      exact (parse_eq_ok_of_tokens htokens e).1 h
  · rintro ⟨row, last, htokens, hends, hderives⟩
    exact (parse_eq_ok_of_tokens htokens e).2 ((hends.parseTokens_eq_ok_iff e).2 hderives)

/-- **The parser accepts exactly the language of the grammar.** From a row of tokens that ends once
it reads the one formula that the grammar derives from the row, and it refuses every row from which
the grammar derives none. -/
theorem parseTokens_exact {row : List Token} {last : Token} (h : EndsOnce row last) :
    (∀ e, parseTokens (row ++ [last]) = .ok e ↔ DerivesSource e (row.map Token.lexeme)) ∧
    (∀ e e', DerivesSource e (row.map Token.lexeme) → DerivesSource e' (row.map Token.lexeme) →
      e = e') ∧
    ((∀ e, ¬ DerivesSource e (row.map Token.lexeme)) →
      ∃ error : ParseError, parseTokens (row ++ [last]) = .error error) := by
  refine ⟨h.parseTokens_eq_ok_iff, fun e e' => DerivesSource.unique, fun hnone => ?_⟩
  cases hparse : parseTokens (row ++ [last]) with
  | error error => exact ⟨error, rfl⟩
  | ok e => exact absurd ((h.parseTokens_eq_ok_iff e).1 hparse) (hnone e)

/-- The tokens of a choice whose test is an array with a hole, with a separator at the end, and
behind them the end of the source. -/
theorem parseTokens_exact_choice :
    ∃ row last, tokens "[,a] ? b : c;" = .ok (row ++ [last]) ∧ EndsOnce row last ∧
      DerivesSource (.conditional (.array [none, some (.name "a")]) (.name "b") (.name "c"))
        (row.map Token.lexeme) := by
  have hends : EndsOnce
      [⟨.symbol .openBracket, 0, 1, 1⟩, ⟨.symbol .comma, 1, 1, 2⟩, ⟨.name "a", 2, 1, 3⟩,
        ⟨.symbol .closeBracket, 3, 1, 4⟩, ⟨.symbol .question, 5, 1, 6⟩, ⟨.name "b", 7, 1, 8⟩,
        ⟨.symbol .colon, 9, 1, 10⟩, ⟨.name "c", 11, 1, 12⟩, ⟨.symbol .semicolon, 12, 1, 13⟩]
      ⟨.eof, 13, 1, 14⟩ := ⟨rfl, by simp⟩
  exact ⟨_, _, by cbv, hends, ((parseTokens_exact hends).1 _).1 (by cbv)⟩

end LiveForm.Formula
