import Mathlib
import LiveForm.Proofs.Formula.Language
import LiveForm.Proofs.Formula.Roots

/-!
# The search and the tree name the same fields

The fields of a source are searched in its bare text, and yet **on a source that is a formula the
search finds the names of the tree** (`reads_eq_names`), in the order of the source and each once:
all of them but the context's own names that have a point right behind them. The search goes over
the source piece by piece (`found_eq_roots`). Blanks, symbols and numbers hold nothing that it
finds, what it finds in a quoted text begins inside of it, and of a word it finds the whole or
nothing.
-/

namespace LiveForm.Formula

open LiveForm.Text

/-! ### Pieces that hold no field -/

theorem IsNumber.quiet {cs : List Char} (h : IsNumber cs) (before : Option Char) :
    Quiet before cs := by
  obtain @⟨m, x, hm, hx⟩ := h
  have digits {ds : List Char} (hds : ∀ c ∈ ds, isDigit c = true) :
      ∀ c ∈ ds, startsWord c = false :=
    fun c hc => startsWord_of_isDigit (hds c hc)
  have hfront : ∀ c ∈ m, startsWord c = false := by
    cases hm with
    | whole hds => exact digits hds.all
    | fraction hds hfs =>
      rw [List.forall_mem_append, List.forall_mem_cons]
      exact ⟨digits hds, by decide, digits hfs.all⟩
  -- The mark of an exponent goes on with the word that the digit before it belongs to.
  obtain ⟨d, hlast, hd⟩ := hm.getLast
  have hmark {mark : Char} (h : IsMark mark) :
      inWord (m.getLast?.or before) = true ∧ isWord mark = true := by
    rw [hlast]
    refine ⟨isWord_of_isDigit hd, ?_⟩
    rcases h with rfl | rfl <;> decide
  refine quiet_append (quiet_of_not_startsWord hfront before) ?_
  cases hx with
  | none => exact trivial
  | plain h hds => exact ⟨Or.inr (hmark h), quiet_of_not_startsWord (digits hds.all) _⟩
  | signed h hsign hds =>
    refine ⟨Or.inr (hmark h), Or.inl ?_, quiet_of_not_startsWord (digits hds.all) _⟩
    rcases hsign with rfl | rfl <;> decide

theorem Fits.quiet {kind : Kind} {piece rest : List Char} (h : Fits kind piece rest)
    (htext : kind ≠ .text) (hword : kind ≠ .word) (before : Option Char) :
    Quiet before piece := by
  have apart {cs : List Char} (hcs : ∀ c ∈ cs, Apart c) : Quiet before cs := by
    refine quiet_of_not_startsWord (fun c hc => ?_) before
    have hapart := (hcs c hc).2
    rw [continuesWord, Bool.or_eq_false_iff] at hapart
    exact hapart.1
  cases h with
  | blank _ hblank => exact apart fun c hc => apart_of_isBlank (hblank c hc)
  | number h => exact h.quiet before
  | text _ _ => exact absurd rfl htext
  | word _ _ _ => exact absurd rfl hword
  | symbol s => exact apart fun c hc => apart_of_symbol hc

/-- The names of fields that are found in characters, given what stands before them. -/
def found (spans : List (Nat × Nat)) (before cs : List Char) : List String :=
  ((occurrences before cs).filter (namesField spans)).map fun o => String.ofList o.word

theorem found_of_none {spans : List (Nat × Nat)} {before piece rest : List Char}
    {os : List Occurrence}
    (h : occurrences before (piece ++ rest) = os ++ occurrences (piece.reverse ++ before) rest)
    (hnone : ∀ o ∈ os, namesField spans o = false) :
    found spans before (piece ++ rest) = found spans (piece.reverse ++ before) rest := by
  have hfilter : os.filter (namesField spans) = [] :=
    List.filter_eq_nil_iff.2 fun o ho => by simp [hnone o ho]
  rw [found, h, List.filter_append, hfilter, List.nil_append]
  rfl

/-! ### Words -/

/-- The words that the lexer knows are keywords of the search. -/
theorem mem_keywords_of_wordLexeme {w : String} (h : wordLexeme w ≠ .name w) : w ∈ keywords := by
  unfold wordLexeme at h
  split_ifs at h with h₁ h₂ h₃ h₄ h₅
  · exact eq_of_beq h₁ ▸ by decide
  · exact eq_of_beq h₂ ▸ by decide
  · exact eq_of_beq h₃ ▸ by decide
  · exact eq_of_beq h₄ ▸ by decide
  · exact eq_of_beq h₅ ▸ by decide
  · exact absurd rfl h

/-- A keyword names no field, and neither does a word behind a dot. -/
theorem found_word {spans : List (Nat × Nat)} {before rest : List Char} {w : String}
    (hfits : Fits .word w.toList rest) (hdollar : '$' ∉ w.toList)
    (h : w ∈ keywords ∨ (before.dropWhile isBlank).head? = some '.') :
    found spans before (w.toList ++ rest) = found spans (w.toList.reverse ++ before) rest := by
  have hnone : namesField spans ⟨before, w.toList, rest⟩ = false := by
    rcases h with hkey | hdot
    · simp [namesField, hkey]
    · simp [namesField, hdot]
  generalize w.toList = word at *
  cases hfits with
  | word hc hcs hnext =>
    obtain ⟨os, hos, hwhole⟩ := occurrences_of_word hc hcs hdollar hnext
    refine found_of_none hos fun o ho => ?_
    rw [hwhole o ho]
    exact hnone

/-! ### Roots and fields -/

/-- The name is one of the context's own, and a point stands right behind it. -/
def qualifies (source : List Char) (root : String × Nat) : Bool :=
  qualifiedNames.contains root.1 && source[root.2 + root.1.length]? == some '.'

/-- The roots that the search finds as fields: those that do not qualify a member. -/
def fieldsOf (source : List Char) (rs : List (String × Nat)) : List String :=
  (rs.filter fun r => !qualifies source r).map Prod.fst

theorem fieldsOf_append (source : List Char) (rs ss : List (String × Nat)) :
    fieldsOf source (rs ++ ss) = fieldsOf source rs ++ fieldsOf source ss := by
  simp [fieldsOf]

/-- The last lexeme of some pieces is a dot. -/
def endsWithDot (ps : List Piece) : Bool :=
  (ps.filterMap Piece.lexeme).getLast? == some (.symbol .dot)

theorem endsWithDot_iff {ps : List Piece} : endsWithDot ps = true ↔
    (ps.filterMap Piece.lexeme).getLast? = some (.symbol .dot) :=
  beq_iff_eq

section

variable {ps qs : List Piece} {p : Piece} {rest : List Char}
  (h : Cut (texts ps ++ (p.text ++ rest)) (ps ++ p :: qs))
include h

/-- What is found in a quoted text begins inside of it, and names no field. -/
theorem found_text (hkind : p.kind = .text) :
    found (quotedSpans 0 (texts ps ++ (p.text ++ rest))) (texts ps).reverse (p.text ++ rest) =
      found (quotedSpans 0 (texts ps ++ (p.text ++ rest))) (p.text.reverse ++ (texts ps).reverse)
        rest := by
  obtain ⟨spans, hspans, -⟩ := h.quotedSpans_split 0
  obtain ⟨hfits, -, -⟩ := h.middle
  rw [hkind] at hfits
  generalize p.text = text at *
  cases hfits with
  | @text q body _ hq hbody =>
    have hlast : ∀ c, (q :: (body ++ [q])).getLast? = some c → continuesWord c = false := by
      intro c hc
      rw [← List.cons_append, List.getLast?_concat] at hc
      exact (apart_of_isQuote (Option.some.inj hc ▸ hq)).2
    obtain ⟨os, hos, hin⟩ := occurrences_append (texts ps).reverse _ rest hlast
    refine found_of_none hos fun o ho => ?_
    have hbounds := hin o ho
    rw [List.length_reverse] at hbounds
    have hquoted : (quotedSpans 0 (texts ps ++ (q :: (body ++ [q]) ++ rest))).any (fun span =>
        span.1 ≤ o.before.length && o.before.length < span.2) = true := by
      rw [hspans, quotedSpans_text hq (textLength?_of_body hq hbody rest), Nat.zero_add,
        List.any_eq_true]
      exact ⟨_, List.mem_append_right _ List.mem_cons_self, by simpa using hbounds⟩
    rw [namesField, hquoted]
    simp

/-- A piece without a root holds no field. -/
theorem found_of_no_root (hdollar : p.kind = .word → '$' ∉ p.text)
    (hroot : ∀ n, p.lexeme = some (.name n) → endsWithDot ps = true) :
    found (quotedSpans 0 (texts ps ++ (p.text ++ rest))) (texts ps).reverse (p.text ++ rest) =
      found (quotedSpans 0 (texts ps ++ (p.text ++ rest))) (p.text.reverse ++ (texts ps).reverse)
        rest := by
  obtain ⟨hfits, hlexeme, -⟩ := h.middle
  by_cases htext : p.kind = .text
  · exact found_text h htext
  by_cases hword : p.kind = .word
  · obtain ⟨w, hw⟩ : ∃ w : String, p.text = w.toList := ⟨_, String.toList_ofList.symm⟩
    have hdot := h.behind_dot_iff
    rw [hword, hw] at hfits hlexeme
    rw [hw] at hdollar ⊢
    refine found_word hfits (hdollar hword) ?_
    by_cases hname : wordLexeme w = .name w
    · refine Or.inr (hdot.2 (endsWithDot_iff.1 (hroot w ?_)))
      have hfound : some (wordLexeme (String.ofList w.toList)) = p.lexeme := Except.ok.inj hlexeme
      rw [← hfound, String.ofList_toList, hname]
    · exact Or.inl (mem_keywords_of_wordLexeme hname)
  · have hnone := occurrences_quiet (hfits.quiet htext hword (texts ps).reverse.head?) rest
    exact found_of_none (hnone.trans (List.nil_append _).symm) (by simp)

/-- A root is found as a field, if it does not qualify a member. -/
theorem found_root {n : String} (hdollar : p.kind = .word → '$' ∉ p.text)
    (hname : p.lexeme = some (.name n)) (hdot : endsWithDot ps = false) (hkey : n ∉ keywords)
    (hclear : ((ps ++ p :: qs).filterMap Piece.lexeme).IsChain Clear) :
    found (quotedSpans 0 (texts ps ++ (p.text ++ rest))) (texts ps).reverse (p.text ++ rest) =
      fieldsOf (texts ps ++ (p.text ++ rest)) [(n, (texts ps).length)] ++
        found (quotedSpans 0 (texts ps ++ (p.text ++ rest)))
          (p.text.reverse ++ (texts ps).reverse) rest := by
  obtain ⟨hfits, hlexeme, hrest⟩ := h.middle
  rw [hname] at hlexeme
  obtain ⟨hkind, htext, -⟩ := word_of_name hlexeme
  rw [List.filterMap_append, List.filterMap_cons_some hname] at hclear
  obtain ⟨hbefore, hafter⟩ := not_number_of_isChain hclear
  have hplain := hdollar hkind
  rw [hkind, htext] at hfits
  rw [htext] at h hplain ⊢
  have hedges : PlainEdges n :=
    ⟨fun hd => hplain (List.mem_of_head? hd), fun hd => hplain (List.mem_of_getLast? hd)⟩
  have hnot : (ps.filterMap Piece.lexeme).getLast? ≠ some (.symbol .dot) := by
    rw [Ne, ← endsWithDot_iff, hdot]
    exact Bool.false_ne_true
  have hnext : (texts ps ++ (n.toList ++ rest))[(texts ps).length + n.length]? = rest.head? := by
    rw [← List.append_assoc, ← String.length_toList, ← List.length_append,
      List.getElem?_append_right (Nat.le_refl _), Nat.sub_self, List.head?_eq_getElem?]
  rw [found, h.occurrences_word hfits hrest hedges hbefore hafter, List.filter_cons,
    h.namesField_word hfits hkey hnot, fieldsOf, List.filter_cons, qualifies, hnext]
  split_ifs
  · rw [List.map_cons, String.ofList_toList]
    rfl
  · rfl

/-- The search finds the field of a piece with a lexeme, if the lexeme is a root that qualifies no
member. -/
theorem found_lexeme {l : Lexeme} {place : Place} (hplace : place.Behind (texts ps))
    (hdollar : p.kind = .word → '$' ∉ p.text) (hl : p.lexeme = some l)
    (hkeys : ∀ r ∈ roots (endsWithDot ps) [place.token l], r.1 ∉ keywords)
    (hclear : ((ps ++ p :: qs).filterMap Piece.lexeme).IsChain Clear) :
    found (quotedSpans 0 (texts ps ++ (p.text ++ rest))) (texts ps).reverse (p.text ++ rest) =
      fieldsOf (texts ps ++ (p.text ++ rest)) (roots (endsWithDot ps) [place.token l]) ++
        found (quotedSpans 0 (texts ps ++ (p.text ++ rest)))
          (p.text.reverse ++ (texts ps).reverse) rest := by
  by_cases hroot : ∀ n, l = .name n → endsWithDot ps = true
  · have hnone : roots (endsWithDot ps) [place.token l] = [] := roots_eq_nil hroot
    rw [hnone]
    refine found_of_no_root h hdollar fun n hn => hroot n ?_
    exact Option.some.inj (hl.symm.trans hn)
  · push Not at hroot
    obtain ⟨n, rfl, hnot⟩ := hroot
    have hnot : endsWithDot ps = false := by simpa using hnot
    have hone : roots (endsWithDot ps) [place.token (.name n)] = [(n, (texts ps).length)] := by
      rw [hnot, ← hplace.position]
      rfl
    rw [hone] at hkeys ⊢
    exact found_root h hdollar hl hnot (hkeys _ List.mem_cons_self) hclear

end

/-- From some pieces on, the search finds the fields among the roots of the pieces that follow. -/
theorem found_eq_roots {ps qs : List Piece} {place : Place} {last : Token}
    (hcut : Cut (texts ps ++ texts qs) (ps ++ qs)) (hplace : place.Behind (texts ps))
    (hlast : last.lexeme = .eof) (hclear : ((ps ++ qs).filterMap Piece.lexeme).IsChain Clear)
    (hdollar : ∀ q ∈ qs, q.kind = .word → '$' ∉ q.text)
    (hkeys : ∀ r ∈ roots (endsWithDot ps) (tokensFrom place qs ++ [last]), r.1 ∉ keywords) :
    found (quotedSpans 0 (texts ps ++ texts qs)) (texts ps).reverse (texts qs) =
      fieldsOf (texts ps ++ texts qs) (roots (endsWithDot ps) (tokensFrom place qs ++ [last])) := by
  induction qs generalizing ps place with
  | nil =>
    have hnone : roots (endsWithDot ps) [last] = [] :=
      roots_eq_nil fun n hn => by rw [hlast] at hn; cases hn
    have htexts : texts [] = [] := rfl
    rw [tokensFrom, List.nil_append, hnone, htexts, found, occurrences]
    rfl
  | cons q qs ih =>
    -- The first piece goes over to those before, and the rest follows from there.
    have htexts := texts_snoc ps q
    have hwhole : texts ps ++ texts (q :: qs) = texts (ps ++ [q]) ++ texts qs := by
      rw [htexts, List.append_assoc]
      rfl
    have hpieces : ps ++ q :: qs = ps ++ [q] ++ qs := by simp
    have hcut' : Cut (texts (ps ++ [q]) ++ texts qs) (ps ++ [q] ++ qs) := hwhole ▸ hpieces ▸ hcut
    have hmore := ih hcut' (htexts ▸ hplace.after q.text) (hpieces ▸ hclear)
      fun p hp => hdollar p (List.mem_cons_of_mem _ hp)
    have hq := hdollar q List.mem_cons_self
    have hsplit : texts (q :: qs) = q.text ++ texts qs := rfl
    rw [← hwhole, htexts, List.reverse_append] at hmore
    rw [hsplit] at hcut hmore ⊢
    rw [tokensFrom, List.append_assoc] at hkeys ⊢
    cases hl : q.lexeme with
    | none =>
      have hsame : endsWithDot (ps ++ [q]) = endsWithDot ps := by simp [endsWithDot, hl]
      rw [hsame] at hmore
      rw [hl] at hkeys
      rw [found_of_no_root hcut hq fun n hn => by rw [hl] at hn; cases hn]
      exact hmore hkeys
    | some l =>
      have hdot : endsWithDot (ps ++ [q]) = ((place.token l).lexeme == .symbol .dot) := by
        simp [endsWithDot, hl, Place.token]
      have hsome (ts : List Token) : ((some l).map place.token).toList ++ ts =
          place.token l :: ts := rfl
      rw [hl, hsome, roots_cons, List.forall_mem_append] at hkeys
      rw [hsome, roots_cons, fieldsOf_append, found_lexeme hcut hplace hq hl hkeys.1 hclear]
      rw [hdot] at hmore
      rw [hmore hkeys.2]

/-! ### The whole source -/

/-- The tokens of a source that the lexer does not refuse are those of its pieces, and the end. -/
theorem tokens_eq_tokensFrom {source : String} {row : List Token} {last : Token}
    (h : tokens source = .ok (row ++ [last])) : ∃ pieces, Cut source.toList pieces ∧
      source.toList = texts pieces ∧ row = tokensFrom {} pieces ∧
      (scan source).tokens = row ++ [last] := by
  obtain ⟨pieces, htiles, hrow⟩ := exists_tiles h
  refine ⟨pieces, htiles.cut, by rw [htiles.whole, List.append_nil],
    (List.append_inj' hrow rfl).1, ?_⟩
  rw [scan_of_tokens h]

/-- A word of the source has no dollar sign, if no name has one. -/
theorem dollar_not_mem_of_word {kind : Kind} {piece : List Char} {found : Option Lexeme}
    (hlexeme : lexeme? kind piece = .ok found)
    (hnames : ∀ n, found = some (.name n) → '$' ∉ n.toList) (hkind : kind = .word) :
    '$' ∉ piece := by
  subst hkind
  have hfound : some (wordLexeme (String.ofList piece)) = found := Except.ok.inj hlexeme
  rw [← String.toList_ofList (l := piece)]
  generalize String.ofList piece = w at hfound ⊢
  by_cases hname : wordLexeme w = .name w
  · exact hnames w (by rw [← hfound, hname])
  · have hkeys : ∀ k ∈ keywords, '$' ∉ k.toList := by decide
    exact hkeys w (mem_keywords_of_wordLexeme hname)

/-- **On a source that is a formula the search finds the names of its tree**, in the order of the
source and each once: all of them but the context's own names that have a point right behind them.
No name of the source has a dollar sign, and the tree has no reserved name. -/
theorem reads_eq_names {source : String} {e : Expr} (he : parse source = .ok e)
    (hdollar : ∀ t ∈ (scan source).tokens, ∀ n, t.lexeme = .name n → '$' ∉ n.toList)
    (hreserved : ∀ n ∈ e.names, n ∉ reservedNames) :
    (roots false (scan source).tokens).map Prod.fst = e.names ∧
      reads source = Names.ofList (fieldsOf source.toList (roots false (scan source).tokens)) := by
  obtain ⟨row, last, htokens, hends, hderives⟩ := parse_eq_ok_iff.1 he
  obtain ⟨pieces, hcut, hwhole, rfl, hscan⟩ := tokens_eq_tokensFrom htokens
  have hlexemes := tokensFrom_lexemes {} pieces
  have hroots : (roots false (tokensFrom {} pieces ++ [last])).map Prod.fst = e.names := by
    rw [roots_names, List.map_append, hderives.rootNames_append, List.map_singleton, hends.ends]
    exact List.append_nil _
  rw [hscan] at hdollar ⊢
  refine ⟨hroots, ?_⟩
  have hclear : (pieces.filterMap Piece.lexeme).IsChain Clear := hlexemes ▸ hderives.clear
  have hplain : ∀ q ∈ pieces, q.kind = .word → '$' ∉ q.text := by
    intro q hq
    obtain ⟨-, -, hlexeme⟩ := hcut.of_mem hq
    refine dollar_not_mem_of_word hlexeme fun n hn => ?_
    have hmem : Lexeme.name n ∈ (tokensFrom {} pieces).map Token.lexeme := by
      rw [hlexemes]
      exact List.mem_filterMap.2 ⟨q, hq, hn⟩
    obtain ⟨t, ht, hname⟩ := List.mem_map.1 hmem
    exact hdollar t (List.mem_append_left _ ht) n hname
  have hkeys : ∀ r ∈ roots false (tokensFrom {} pieces ++ [last]), r.1 ∉ keywords := by
    intro r hr hkey
    have hname : r.1 ∈ e.names := hroots ▸ List.mem_map_of_mem hr
    obtain ⟨-, -, -, -, -, -, -, hlone, -⟩ := exists_word_of_mem_names he hname
    exact hreserved r.1 hname (mem_reservedNames hkey hlone)
  have hcut' : Cut (texts [] ++ texts pieces) ([] ++ pieces) := hwhole ▸ hcut
  have hfound := found_eq_roots hcut' Place.behind_nil hends.ends hclear hplain hkeys
  rw [reads, hwhole]
  exact congrArg Names.ofList hfound

/-- A namespace is left out where a point stands right behind it, and found where none does; nothing
is found in a quoted text or of a member. -/
theorem reads_eq_names_namespace :
    (roots false (scan "record.a+d .if+'b'+record[5]").tokens).map Prod.fst =
        ["record", "d", "record"] ∧
      reads "record.a+d .if+'b'+record[5]" = ["d", "record"] := by
  have hparse : parse "record.a+d .if+'b'+record[5]" = .ok
      (.binary .add (.binary .add (.binary .add (.member (.name "record") "a")
        (.member (.name "d") "if")) (.literal (.text "b")))
        (.index (.name "record") (.literal (.number (.int 5))))) := by cbv
  have hlexemes : (scan "record.a+d .if+'b'+record[5]").tokens.map Token.lexeme =
      [.name "record", .symbol .dot, .name "a", .symbol .plus, .name "d", .symbol .dot,
        .name "if", .symbol .plus, .text "b", .symbol .plus, .name "record",
        .symbol .openBracket, .number (.int 5), .symbol .closeBracket, .eof] := by cbv
  have hdollar : ∀ t ∈ (scan "record.a+d .if+'b'+record[5]").tokens, ∀ n,
      t.lexeme = .name n → '$' ∉ n.toList := by
    intro t ht n hn
    have hmem : t.lexeme ∈ (scan "record.a+d .if+'b'+record[5]").tokens.map Token.lexeme :=
      List.mem_map_of_mem ht
    rw [hlexemes, hn] at hmem
    simp only [List.mem_cons, Lexeme.name.injEq, reduceCtorEq, List.not_mem_nil, or_false,
      false_or] at hmem
    rcases hmem with rfl | rfl | rfl | rfl | rfl <;> decide
  obtain ⟨hroots, hreads⟩ := reads_eq_names hparse hdollar (by decide)
  exact ⟨hroots, hreads.trans (by cbv)⟩

end LiveForm.Formula
