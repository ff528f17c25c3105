import Mathlib
import LiveForm.Proofs.Formula.Language
import LiveForm.Proofs.Formula.Spelling
import LiveForm.Proofs.Formula.Tiling

/-!
# How sources begin

A source may be broken off behind any of its tokens and go on with a blank: the pieces up to there
stay the longest texts at their places, since a text that goes on over the blank would have to be
blank itself or in quotes (`Longest.break`). So the tokens up to there are the same, and what comes
behind the blank can be spelled as one likes (`exists_source`).

With the parser this tells where the error of a source stands. **The token that the error names is
the first one that is wrong**: the tokens before it begin a source that is read, and no source that
is read begins with them and a token of that class (`parse_error_earliest`).
-/

namespace LiveForm.Formula

open LiveForm.Text

variable {kind other : Kind} {piece rest : List Char}

/-! ### What texts begin with -/

/-- The characters with which a class of text begins. -/
def Kind.Begins : Kind → Char → Prop
  | .blank, c => isBlank c = true
  | .number, c => isDigit c = true ∨ c = '.'
  | .text, c => isQuote c = true
  | .word, c => startsWord c = true
  | .symbol s, c => isBlank c = false ∧ isDigit c = false ∧ isQuote c = false ∧
      startsWord c = false ∧ (c = '.' → s = .dot)

theorem Belongs.begins (h : Belongs kind piece) : ∃ c cs, piece = c :: cs ∧ kind.Begins c := by
  cases h with
  | blank hne hall =>
    obtain ⟨c, cs, rfl⟩ := List.exists_cons_of_ne_nil hne
    exact ⟨c, cs, rfl, hall c List.mem_cons_self⟩
  | number h => exact h.exists_cons
  | text hq _ => exact ⟨_, _, rfl, hq⟩
  | word hc _ => exact ⟨_, _, rfl, hc⟩
  | symbol s => exact Symbol.exists_cons s

/-- The first character tells the class, except that a number may begin with a point. -/
theorem Kind.Begins.unique {c : Char} (h : kind.Begins c) (h' : other.Begins c) :
    kind = other ∨ (∃ s, kind = .symbol s) ∨ ∃ s, other = .symbol s := by
  have hquote : isQuote c = true →
      isBlank c = false ∧ isDigit c = false ∧ c ≠ '.' ∧ startsWord c = false := by
    intro hq
    rcases isQuote_iff.1 hq with rfl | rfl <;> decide
  have hdot : c = '.' → isBlank c = false ∧ startsWord c = false := by
    rintro rfl
    decide
  have hdigit : isDigit c = true → isBlank c = false ∧ startsWord c = false :=
    fun h => ⟨isBlank_of_isDigit h, startsWord_of_isDigit h⟩
  have hword : startsWord c = true → isBlank c = false := isBlank_of_startsWord
  cases kind <;> cases other <;> simp_all [Kind.Begins]

/-- Only blanks begin with a blank. -/
theorem Kind.Begins.not_blank {c : Char} (h : kind.Begins c) (hkind : kind ≠ .blank) :
    isBlank c = false := by
  by_contra hblank
  have hc : Kind.blank.Begins c := by simpa [Kind.Begins] using hblank
  rcases h.unique hc with rfl | ⟨s, rfl⟩ | ⟨s, hs⟩
  · exact hkind rfl
  · exact hblank h.1
  · exact nomatch hs

/-- What begins with a quote is a text in quotes. -/
theorem Belongs.eq_text {c : Char} {cs : List Char} (h : Belongs kind (c :: cs))
    (hq : isQuote c = true) : kind = .text := by
  obtain ⟨d, ds, hcons, hbegins⟩ := h.begins
  obtain ⟨rfl, rfl⟩ := List.cons.inj hcons
  have hc : Kind.text.Begins c := hq
  rcases hbegins.unique hc with rfl | ⟨s, rfl⟩ | ⟨s, hs⟩
  · rfl
  · exact nomatch hq.symm.trans hbegins.2.2.1
  · exact nomatch hs

theorem Symbol.spelling_injective {s t : Symbol} (h : s.spelling.toList = t.spelling.toList) :
    s = t := by
  have hnodup : (Symbol.all.map fun s => s.spelling.toList).Nodup := by decide
  exact List.inj_on_of_nodup_map hnodup (Symbol.mem_all s) (Symbol.mem_all t) h

/-- A symbol belongs to no other class. -/
theorem Belongs.eq_symbol {s : Symbol} (h : Belongs kind s.spelling.toList) :
    kind = .symbol s := by
  obtain ⟨c, cs, hcons, hblank, hdigit, hquote, hword, hdot⟩ := Symbol.exists_cons s
  obtain ⟨d, ds, hcons', hbegins⟩ := h.begins
  obtain ⟨rfl, rfl⟩ := List.cons.inj (hcons.symm.trans hcons')
  cases kind with
  | blank => exact nomatch hblank.symm.trans hbegins
  | text => exact nomatch hquote.symm.trans hbegins
  | word => exact nomatch hword.symm.trans hbegins
  | symbol t =>
    generalize hspelling : s.spelling.toList = cs at h
    cases h with
    | symbol t => rw [Symbol.spelling_injective hspelling]
  | number =>
    -- A point alone is no number.
    obtain rfl := hdot (hbegins.resolve_left (by simp [hdigit]))
    cases h with
    | number hnumber =>
      obtain ⟨e, hlast, he⟩ := hnumber.getLast
      obtain rfl : '.' = e := Option.some.inj hlast
      exact nomatch he

theorem Belongs.eq_spelling {s : Symbol} (h : Belongs (.symbol s) piece) :
    piece = s.spelling.toList := by
  cases h
  rfl

/-- A text belongs to one class only. -/
theorem Belongs.kind_unique (h : Belongs kind piece) (h' : Belongs other piece) :
    kind = other := by
  obtain ⟨c, cs, hpiece, hc⟩ := h.begins
  obtain ⟨c', cs', hpiece', hc'⟩ := h'.begins
  obtain ⟨rfl, rfl⟩ := List.cons.inj (hpiece.symm.trans hpiece')
  rcases hc.unique hc' with hkind | ⟨s, rfl⟩ | ⟨s, rfl⟩
  · exact hkind
  · exact ((h.eq_spelling ▸ h').eq_symbol).symm
  · exact (h'.eq_spelling ▸ h).eq_symbol

/-! ### Breaking a source off -/

/-- The lexer takes the longest text at the front. -/
theorem Longest.front?_eq {cs : List Char} (h : Longest kind piece cs) :
    front? cs = some (kind, piece.length) := by
  obtain ⟨rest, rfl⟩ := h.front
  obtain ⟨taken, n, hfront, hle⟩ := h.belongs.le_front? rest
  obtain ⟨text, behind, hsplit, rfl, htaken⟩ := front?_longest hfront
  have hlength : text.length = piece.length :=
    Nat.le_antisymm (h.longest taken text htaken.belongs htaken.front) hle
  obtain ⟨rfl, -⟩ := List.append_inj hsplit hlength.symm
  rw [hfront, h.belongs.kind_unique htaken.belongs]

/-- A text with a space in it is blank all over or stands in quotes. -/
theorem Belongs.blank_or_text {text : List Char} (h : Belongs kind text) (hspace : ' ' ∈ text) :
    (∀ c ∈ text, isBlank c = true) ∨ kind = .text := by
  cases h with
  | blank _ hall => exact Or.inl hall
  | number hnumber =>
    have hin := hnumber.inNumber ' ' hspace
    exact absurd hin (by simp only [InNumber]; decide)
  | text _ _ => exact Or.inr rfl
  | word hc hcs =>
    rcases List.mem_cons.1 hspace with rfl | hspace
    · exact nomatch hc
    · exact nomatch hcs ' ' hspace
  | symbol s => cases s <;> exact absurd hspace (by decide)

/-- Of two texts in quotes at one place neither goes on behind the other. -/
theorem Belongs.text_unique {xs ys cs : List Char} (hx : Belongs .text xs) (hy : Belongs .text ys)
    (hxs : xs <+: cs) (hys : ys <+: cs) : xs.length = ys.length := by
  obtain ⟨rest, rfl⟩ := hxs
  obtain ⟨rest', hsplit⟩ := hys
  cases hx with
  | @text q body hq hbody =>
    cases hy with
    | @text q' body' hq' hbody' =>
      obtain ⟨rfl, hrow⟩ := List.cons.inj hsplit
      have hlength := textLength?_of_body hq hbody rest
      have hlength' := textLength?_of_body hq' hbody' rest'
      have hrow' : body' ++ q' :: rest' = body ++ q' :: rest := by simpa using hrow
      rw [hrow', hlength] at hlength'
      simpa using Option.some.inj hlength'

/-- The longest text at the front stays so if the source is broken off behind it, or later but not
within blanks, and goes on with a space. -/
theorem Longest.break {mid : List Char} (h : Longest kind piece (piece ++ (mid ++ rest)))
    (hvisible : ∃ c ∈ piece ++ mid, isBlank c = false) (rest' : List Char) :
    Longest kind piece (piece ++ (mid ++ ' ' :: rest')) := by
  refine ⟨h.belongs, List.prefix_append _ _, fun other text htext hfront => ?_⟩
  rw [← List.append_assoc] at hfront
  rcases Nat.lt_or_ge (piece ++ mid).length text.length with hlong | hshort
  · -- The text goes on over the space.
    have hover : piece ++ mid ++ [' '] <+: text := by
      refine List.prefix_of_prefix_length_le ?_ hfront (by simp at hlong ⊢; omega)
      exact ⟨rest', by simp⟩
    rcases htext.blank_or_text (hover.subset (by simp)) with hall | rfl
    · obtain ⟨c, hc, hcblank⟩ := hvisible
      exact nomatch hcblank.symm.trans (hall c (hover.subset (List.mem_append_left _ hc)))
    · obtain ⟨q, cs, hcons, hq⟩ := htext.begins
      obtain ⟨d, ds, rfl, -⟩ := h.belongs.begins
      obtain ⟨behind, hbehind⟩ := hover
      obtain rfl : d = q := (List.cons.inj (hbehind.trans hcons)).1
      obtain rfl := h.belongs.eq_text hq
      refine (htext.text_unique h.belongs hfront ?_).le
      rw [List.append_assoc]
      exact List.prefix_append _ _
  · refine h.longest other text htext ?_
    have hpre : text <+: piece ++ mid :=
      List.prefix_of_prefix_length_le hfront (List.prefix_append _ _) hshort
    rw [← List.append_assoc]
    exact hpre.trans (List.prefix_append _ _)

/-- If there are pieces, the last one has a lexeme. -/
def EndsVisibly (pieces : List Piece) : Prop :=
  ∀ piece ∈ pieces.getLast?, piece.lexeme ≠ none

theorem endsVisibly_nil : EndsVisibly [] :=
  fun _ hp => nomatch hp

theorem EndsVisibly.tail {p : Piece} {ps : List Piece} (h : EndsVisibly (p :: ps)) :
    EndsVisibly ps := by
  cases ps with
  | nil => exact endsVisibly_nil
  | cons q qs => exact fun piece hp => h piece (by rwa [List.getLast?_cons_cons])

theorem EndsVisibly.cons {p : Piece} {ps : List Piece} (h : EndsVisibly ps)
    (hp : ps = [] → p.lexeme ≠ none) : EndsVisibly (p :: ps) := by
  cases ps with
  | nil =>
    intro piece hpiece
    obtain rfl := Option.some.inj hpiece
    exact hp rfl
  | cons q qs => exact fun piece hpiece => h piece (by rwa [List.getLast?_cons_cons] at hpiece)

/-- Where pieces end visibly, there is a visible character. -/
theorem Tiles.exists_visible {left cs : List Char} {piece : Piece} {front back : List Piece}
    (h : Tiles left cs (piece :: (front ++ back))) (hvisible : EndsVisibly (piece :: front)) :
    ∃ c ∈ piece.text ++ texts front, isBlank c = false := by
  induction front generalizing piece cs with
  | nil =>
    cases h with
    | cons hlongest hlexeme _ =>
      have hkind : piece.kind ≠ .blank := by
        intro hblank
        rw [hblank] at hlexeme
        exact hvisible piece rfl (Except.ok.inj hlexeme).symm
      obtain ⟨c, cs, hcons, hc⟩ := hlongest.belongs.begins
      refine ⟨c, ?_, hc.not_blank hkind⟩
      rw [hcons]
      exact List.mem_cons_self
  | cons next front ih =>
    cases h with
    | cons _ _ htiles =>
      obtain ⟨c, hc, hblank⟩ := ih htiles hvisible.tail
      exact ⟨c, List.mem_append_right _ hc, hblank⟩

theorem texts_append (ps qs : List Piece) : texts (ps ++ qs) = texts ps ++ texts qs :=
  List.flatMap_append

/-- The pieces up to a visible one stay the same if the source goes on with a space behind them. -/
theorem Tiles.break {left cs : List Char} {front back : List Piece}
    (h : Tiles left cs (front ++ back)) (hvisible : EndsVisibly front) (rest : List Char) :
    Tiles (' ' :: rest) (texts front ++ ' ' :: rest) front := by
  induction front generalizing cs with
  | nil => exact .nil
  | cons piece front ih =>
    have hbreak := h.exists_visible hvisible
    have htexts : texts (piece :: front) = piece.text ++ texts front := rfl
    rw [htexts, List.append_assoc]
    rw [List.cons_append] at h
    cases h with
    | cons hlongest hlexeme htiles =>
      have hwhole := htiles.whole
      rw [texts_append, List.append_assoc] at hwhole
      rw [hwhole] at hlongest
      exact .cons (hlongest.break hbreak rest) hlexeme (ih htiles hvisible.tail)

/-- Cutting goes through the pieces and then on with what is left. -/
theorem Tiles.scanFrom_eq {left cs : List Char} {pieces : List Piece} (h : Tiles left cs pieces)
    (p : Place) : scanFrom p cs =
      ⟨tokensFrom p pieces ++ (scanFrom (p.after (texts pieces)) left).tokens,
        (scanFrom (p.after (texts pieces)) left).error⟩ := by
  induction h generalizing p with
  | nil => rfl
  | @cons piece rest more hlongest hlexeme _ ih =>
    have htexts : texts (piece :: more) = piece.text ++ texts more := rfl
    rw [scanFrom_append p hlongest.belongs.ne_nil hlongest.front?_eq hlexeme, ih, tokensFrom,
      htexts, Place.after_append, List.append_assoc]

/-- The tokens up to any one of them are those of pieces that end visibly. -/
theorem exists_front {pieces : List Piece} {p : Place} {before after : List Token}
    (h : tokensFrom p pieces = before ++ after) : ∃ front back, pieces = front ++ back ∧
      tokensFrom p front = before ∧ EndsVisibly front := by
  induction pieces generalizing p before with
  | nil =>
    obtain ⟨rfl, -⟩ := List.append_eq_nil_iff.1 h.symm
    exact ⟨[], [], rfl, rfl, endsVisibly_nil⟩
  | cons piece pieces ih =>
    cases before with
    | nil => exact ⟨[], piece :: pieces, rfl, rfl, endsVisibly_nil⟩
    | cons t before =>
      rw [tokensFrom] at h
      cases hl : piece.lexeme with
      | none =>
        rw [hl] at h
        obtain ⟨front, back, rfl, hfront, hends⟩ := ih h
        refine ⟨piece :: front, back, rfl, ?_, hends.cons ?_⟩
        · rw [tokensFrom, hl]
          exact hfront
        · rintro rfl
          exact absurd hfront.symm (List.cons_ne_nil t before)
      | some l =>
        rw [hl] at h
        obtain ⟨rfl, hmore⟩ := List.cons.inj h
        obtain ⟨front, back, rfl, hfront, hends⟩ := ih hmore
        refine ⟨piece :: front, back, rfl, ?_, hends.cons fun _ => ?_⟩
        · rw [tokensFrom, hl, hfront]
          rfl
        · rw [hl]
          exact Option.some_ne_none l

/-! ### Going on as one likes -/

theorem Filler.exists_spelling {l : Lexeme} (h : Filler l) : ∃ piece, Spells l piece := by
  cases h with
  | symbol s => exact ⟨_, .symbol s⟩
  | name =>
    have hx : IsName "x" := ⟨'x', [], rfl, by decide, by simp⟩
    exact ⟨"x", .word hx⟩

theorem exists_spellings {ls : List Lexeme} (h : ∀ l ∈ ls, Filler l) :
    ∃ pieces, List.Forall₂ Spells ls pieces := by
  induction ls with
  | nil => exact ⟨[], .nil⟩
  | cons l ls ih =>
    obtain ⟨hl, hls⟩ := List.forall_mem_cons.1 h
    obtain ⟨piece, hpiece⟩ := hl.exists_spelling
    obtain ⟨pieces, hpieces⟩ := ih hls
    exact ⟨piece :: pieces, .cons hpiece hpieces⟩

/-- A source may be broken off behind any token and go on with spelled lexemes. -/
theorem exists_source {source : String} {before after : List Token} {last : Token}
    (h : tokens source = .ok (before ++ after ++ [last])) {ls : List Lexeme}
    (hls : ∀ l ∈ ls, Filler l) : ∃ source' more last', more.map Token.lexeme = ls ∧
      last'.lexeme = .eof ∧ tokens source' = .ok (before ++ more ++ [last']) := by
  obtain ⟨all, htiles, hrow⟩ := exists_tiles h
  obtain ⟨hbefore, -⟩ := List.append_inj' hrow rfl
  obtain ⟨front, back, rfl, rfl, hends⟩ := exists_front hbefore.symm
  obtain ⟨pieces, hpieces⟩ := exists_spellings hls
  have hspace : front? ([' '] ++ spaced pieces) = some (.blank, [' '].length) := by
    refine front?_space fun d hd => ?_
    cases hpieces with
    | nil => exact nomatch hd
    | cons hl _ => exact head_spaced hl _ hd
  obtain ⟨more, last', hmore, hmap, hlast⟩ :=
    scanFrom_spelled hpieces (((Place.after {} (texts front)).after [' ']))
  refine ⟨String.ofList (texts front ++ ' ' :: spaced pieces), more, last', hmap, hlast, ?_⟩
  have hscan := (htiles.break hends (spaced pieces)).scanFrom_eq {}
  rw [← List.singleton_append, scanFrom_append _ (List.cons_ne_nil _ _) hspace rfl, hmore] at hscan
  rw [tokens, scan, String.toList_ofList, ← List.singleton_append, hscan, List.append_assoc]
  rfl

/-! ### Where the error stands -/

/-- The parser does with a row what it does with any row of the same lexemes. -/
theorem EndsOnce.parseTokens_of_lexemes {row ts : List Token} {last : Token} {e : Expr}
    (h : EndsOnce row last) (hread : parseTokens (row ++ [last]) = .ok e)
    (hts : ts.map Token.lexeme = (row ++ [last]).map Token.lexeme) : parseTokens ts = .ok e := by
  rw [List.map_append, List.map_singleton] at hts
  obtain ⟨front, t, rfl, hfront, ht⟩ := exists_snoc_of_map_eq_snoc hts
  refine DerivesSource.parseTokens_eq ?_ (ht.trans h.ends)
  rw [hfront]
  exact (h.parseTokens_eq_ok_iff e).1 hread

/-- In a row that ends once, the token of the error is one of the row. -/
theorem EndsOnce.stuck {row : List Token} {last : Token} {error : ParseError}
    (h : EndsOnce row last) (herror : parseTokens (row ++ [last]) = .error error) :
    ∃ before between after, row = before ++ between ∧
      between ++ [last] = error.token :: after ∧
      Fillable (Behind (before.map Token.lexeme) DerivesSource) ∧
      ∀ t rest, SameClass error.token.lexeme t.lexeme →
        ∃ error', parseTokens (before ++ t :: rest) = .error error' := by
  obtain ⟨before, rest, hrow, htoken, hfill, hstuck⟩ := parseTokens_stuck herror
  have hbefore : Lexeme.eof ∉ before.map Token.lexeme := by
    obtain ⟨tree, ls, hderives, -⟩ := hfill
    exact fun hmem => hderives.eof_not_mem (List.mem_append_left _ hmem)
  -- The end of the source is not among the tokens before the error.
  obtain ⟨between, rfl⟩ : ∃ between, rest = between ++ [last] := by
    rcases List.eq_nil_or_concat rest with rfl | ⟨between, t, rfl⟩
    · refine absurd ?_ hbefore
      rw [List.append_nil] at hrow
      rw [← hrow, ← h.ends]
      exact List.mem_map_of_mem (List.mem_append_right _ List.mem_cons_self)
    · rw [List.concat_eq_append, ← List.append_assoc] at hrow
      obtain ⟨-, ht⟩ := List.append_inj' hrow rfl
      exact ⟨between, by rw [List.concat_eq_append, ht]⟩
  rw [← List.append_assoc] at hrow
  obtain ⟨hrow, -⟩ := List.append_inj' hrow rfl
  obtain ⟨after, hafter⟩ : ∃ after, between ++ [last] = error.token :: after := by
    rw [htoken]
    cases between with
    | nil => exact ⟨[], rfl⟩
    | cons t between => exact ⟨between ++ [last], rfl⟩
  refine ⟨before, between, after, hrow, hafter, hfill, fun t rest ht => hstuck (t :: rest) ?_⟩
  rw [HeadsAlike, ← htoken]
  exact ht

/-- The token is the first one that is wrong: the tokens before it begin a source that is read, and
no source that is read begins with the same lexemes and a token of the same class. -/
structure FirstWrong (before : List Token) (t : Token) : Prop where
  begins : ∃ source e more, parse source = .ok e ∧ tokens source = .ok (before ++ more)
  wrong : ∀ source e before' t' after, parse source = .ok e →
    tokens source = .ok (before' ++ t' :: after) →
    before'.map Token.lexeme = before.map Token.lexeme → t'.lexeme.className ≠ t.lexeme.className

/-- What can be filled up begins a source that is read. -/
theorem exists_source_of_fillable {source : String} {before after : List Token} {last : Token}
    (h : tokens source = .ok (before ++ after ++ [last]))
    (hfill : Fillable (Behind (before.map Token.lexeme) DerivesSource)) :
    ∃ source e more, parse source = .ok e ∧ tokens source = .ok (before ++ more) := by
  obtain ⟨e, ls, hderives, hls⟩ := hfill
  obtain ⟨source', more, last', hmore, hlast, htokens⟩ := exists_source h hls
  refine ⟨source', e, more ++ [last'], (parse_eq_ok_of_tokens htokens e).2 ?_, ?_⟩
  · refine DerivesSource.parseTokens_eq ?_ hlast
    rw [List.map_append, hmore]
    exact hderives
  · rw [htokens, List.append_assoc]

/-- **Errors are reported at the first token that is wrong.** If a source can be cut into tokens but
is not read, then the error names one of its tokens: those before it begin a source that is read,
and no source that is read begins with them and a token of its class. At the end of a source this
says that the tokens before it are not the whole of a source that is read. -/
theorem parse_error_earliest {source : String} {ts : List Token} (htokens : tokens source = .ok ts)
    (hnot : ∀ e, parse source ≠ .ok e) : ∃ error before after,
      parse source = .error (.parse error) ∧ ts = before ++ error.token :: after ∧
        FirstWrong before error.token := by
  obtain ⟨row, last, rfl, hends⟩ := tokens_endsOnce htokens
  cases hresult : parseTokens (row ++ [last]) with
  | ok e => exact absurd ((parse_eq_ok_of_tokens htokens e).2 hresult) (hnot e)
  | error error =>
    obtain ⟨before, between, after, rfl, hafter, hfill, hstuck⟩ := hends.stuck hresult
    refine ⟨error, before, after, ?_, ?_, exists_source_of_fillable htokens hfill, ?_⟩
    · rw [parse, htokens]
      dsimp only
      rw [hresult]
    · rw [List.append_assoc, hafter]
    · intro source' e before' t' after' hread htokens' hbefore hclass
      have hread' := (parse_eq_ok_of_tokens htokens' e).1 hread
      obtain ⟨row', last', hrow', hends'⟩ := tokens_endsOnce htokens'
      have hsame : parseTokens (before ++ t' :: after') = .ok e := by
        refine hends'.parseTokens_of_lexemes (hrow' ▸ hread') ?_
        rw [← hrow', List.map_append, List.map_append, hbefore]
      obtain ⟨error', herror'⟩ := hstuck t' after' (sameClass_of_className hclass.symm)
      cases hsame.symm.trans herror'

/-- Behind the comma in a call no closing parenthesis can come, though other tokens can. -/
theorem parse_error_earliest_call :
    let before : List Token := [⟨.name "f", 0, 1, 1⟩, ⟨.symbol .openParen, 1, 1, 2⟩,
      ⟨.name "a", 2, 1, 3⟩, ⟨.symbol .comma, 3, 1, 4⟩]
    let wrong : Token := ⟨.symbol .closeParen, 4, 1, 5⟩
    tokens "f(a,)" = .ok (before ++ [wrong, ⟨.eof, 5, 1, 6⟩]) ∧ (∀ e, parse "f(a,)" ≠ .ok e) ∧
      parse "f(a,)" = .error (.parse ⟨.unexpected, wrong⟩) ∧ FirstWrong before wrong := by
  intro before wrong
  have htokens : tokens "f(a,)" = .ok (before ++ [wrong, ⟨.eof, 5, 1, 6⟩]) := by cbv
  have hparse : parse "f(a,)" = .error (.parse ⟨.unexpected, wrong⟩) := by cbv
  have hnot : ∀ e, parse "f(a,)" ≠ .ok e := fun e he => by cases hparse.symm.trans he
  refine ⟨htokens, hnot, hparse, ?_⟩
  obtain ⟨error, before', after, herror, hrow, hfirst⟩ := parse_error_earliest htokens hnot
  obtain rfl : ⟨.unexpected, wrong⟩ = error :=
    SyntaxError.parse.inj (Except.error.inj (hparse.symm.trans herror))
  -- The token stands only once among the tokens.
  have hbefore : wrong ∉ before := by decide
  have hafter : wrong ∉ [(⟨.eof, 5, 1, 6⟩ : Token)] := by decide
  obtain ⟨rfl, -⟩ := (List.append_cons_inj_of_notMem hbefore hafter).1 hrow
  exact hfirst

end LiveForm.Formula
