import Mathlib
import LiveForm.Proofs.Formula.Names
import LiveForm.Proofs.Formula.Outcomes
import LiveForm.Proofs.Formula.Search
import LiveForm.Proofs.Formula.Tiling

/-!
# The names of a tree are read in its text

Fields are found in the bare text of a source, values are computed from its tree. On a source that
is a formula the two agree: every name of the tree is a word of the text that the search finds
(`mem_reads`), unless it is a keyword of the search, one of the context's own names, or has a dollar
sign at its edge. So **what a source is evaluated to depends on the fields that it reads**
(`evaluate_eq_of_reads`), on the context's own names and on the reserved words.
-/

namespace LiveForm.Formula

open LiveForm.Text
open Context (AgreeOn)

/-! ### The lexemes of pieces -/

/-- A lexeme that is a name is a word of the source. -/
theorem word_of_name {kind : Kind} {piece : List Char} {n : String}
    (h : lexeme? kind piece = .ok (some (.name n))) :
    kind = .word ∧ piece = n.toList ∧ wordLexeme n = .name n := by
  cases kind with
  | word =>
    have hword : wordLexeme (String.ofList piece) = .name n := Option.some.inj (Except.ok.inj h)
    have hn : String.ofList piece = n := by
      unfold wordLexeme at hword
      split_ifs at hword
      exact Lexeme.name.inj hword
    exact ⟨rfl, by rw [← hn, String.toList_ofList], hn ▸ hword⟩
  | number =>
    cases hnumber : numberLexeme piece with
    | error e => simp [lexeme?, hnumber, Except.map] at h
    | ok l =>
      obtain ⟨m, rfl⟩ := numberLexeme_eq hnumber
      simp [lexeme?, hnumber, Except.map] at h
  | _ => simp [lexeme?] at h

theorem number_of_lexeme {piece : List Char} {found : Option Lexeme}
    (h : lexeme? .number piece = .ok found) : ∃ m, found = some (.number m) := by
  cases hnumber : numberLexeme piece with
  | error e => simp [lexeme?, hnumber, Except.map] at h
  | ok l =>
    obtain ⟨m, rfl⟩ := numberLexeme_eq hnumber
    rw [lexeme?, hnumber] at h
    exact ⟨m, (Except.ok.inj h).symm⟩

/-! ### Around a piece -/

/-- A word ends with a character of a word. -/
theorem continuesWord_getLast {c : Char} {cs : List Char} (hc : startsWord c = true)
    (hcs : ∀ d ∈ cs, continuesWord d = true) :
    ∃ d, (c :: cs).getLast? = some d ∧ continuesWord d = true := by
  refine ⟨(c :: cs).getLast (List.cons_ne_nil c cs), List.getLast?_eq_some_getLast _, ?_⟩
  rcases List.mem_cons.1 (List.getLast_mem (List.cons_ne_nil c cs)) with hd | hd
  · rw [hd, continuesWord, hc, Bool.true_or]
  · exact hcs _ hd

/-- A piece with a lexeme ends with no blank, and with a dot only if it is one. -/
theorem Fits.getLast {kind : Kind} {piece rest : List Char} (h : Fits kind piece rest)
    {l : Lexeme} (hl : lexeme? kind piece = .ok (some l)) :
    ∃ c, piece.getLast? = some c ∧ isBlank c = false ∧ (c = '.' ↔ l = .symbol .dot) := by
  cases h with
  | blank _ _ => exact absurd hl (by simp [lexeme?])
  | number h =>
    obtain ⟨m, hm⟩ := number_of_lexeme hl
    obtain rfl := Option.some.inj hm
    obtain ⟨d, hlast, hd⟩ := h.getLast
    refine ⟨d, hlast, isBlank_of_isDigit hd, ?_, Lexeme.noConfusion⟩
    rintro rfl
    exact absurd hd (by decide)
  | @text q body rest hq _ =>
    obtain rfl := Option.some.inj (Except.ok.inj hl)
    refine ⟨q, by rw [← List.cons_append, List.getLast?_concat], ?_, ?_, Lexeme.noConfusion⟩
    · rcases isQuote_iff.1 hq with rfl | rfl <;> decide
    · rintro rfl
      exact absurd hq (by decide)
  | @word c cs rest hc hcs hrest =>
    obtain ⟨d, hlast, hd⟩ := continuesWord_getLast hc hcs
    refine ⟨d, hlast, ?_, ?_, ?_⟩
    · rw [Bool.eq_false_iff]
      intro hblank
      rw [(apart_of_isBlank hblank).2] at hd
      exact absurd hd (by simp)
    · rintro rfl
      exact absurd hd (by decide)
    · rintro rfl
      have hword : wordLexeme (String.ofList (c :: cs)) = .symbol .dot :=
        Option.some.inj (Except.ok.inj hl)
      unfold wordLexeme at hword
      split_ifs at hword
  | symbol s =>
    obtain rfl := Option.some.inj (Except.ok.inj hl)
    have hall : s.spelling.toList.all (fun c => !isBlank c && (c != '.' || s == .dot)) = true := by
      cases s <;> rfl
    obtain ⟨c, hc⟩ : ∃ c, s.spelling.toList.getLast? = some c := by
      cases s <;> exact ⟨_, rfl⟩
    have hplain : isBlank c = false ∧ (c = '.' → s = .dot) := by
      simpa [imp_iff_not_or] using List.all_eq_true.1 hall c (List.mem_of_getLast? hc)
    refine ⟨c, hc, hplain.1, fun hdot => congrArg _ (hplain.2 hdot), fun hs => ?_⟩
    obtain rfl := Lexeme.symbol.inj hs
    exact (Option.some.inj hc).symm

/-- Before a word that follows at once, what is no number ends with a character of no word. -/
theorem Fits.apart_getLast {kind : Kind} {piece rest : List Char} (h : Fits kind piece rest)
    (hkind : kind ≠ .number) (hword : ∃ d, rest.head? = some d ∧ continuesWord d = true) :
    ∀ c, piece.getLast? = some c → Apart c := by
  intro c hlast
  have hmem := List.mem_of_getLast? hlast
  cases h with
  | blank _ hblank => exact apart_of_isBlank (hblank c hmem)
  | number _ => exact absurd rfl hkind
  | @text q body _ hq _ =>
    rw [← List.cons_append, List.getLast?_concat] at hlast
    exact Option.some.inj hlast ▸ apart_of_isQuote hq
  | word _ _ hrest =>
    obtain ⟨d, hd, hin⟩ := hword
    rw [hrest d hd] at hin
    exact absurd hin (by simp)
  | symbol s => exact apart_of_symbol hmem

/-- Quotes stand in quoted texts only. -/
theorem Fits.not_quote {kind : Kind} {piece rest : List Char} (h : Fits kind piece rest)
    (hkind : kind ≠ .text) : ∀ c ∈ piece, isQuote c = false := by
  have not_quote {c : Char} (hc : c ≠ '"' ∧ c ≠ singleQuote) : isQuote c = false := by
    rw [Bool.eq_false_iff]
    intro hq
    exact (isQuote_iff.1 hq).elim hc.1 hc.2
  cases h with
  | blank _ hblank =>
    refine fun c hc => not_quote ⟨?_, ?_⟩
    all_goals
      rintro rfl
      exact absurd (hblank _ hc) (by decide)
  | number h =>
    refine fun c hc => not_quote ⟨?_, ?_⟩
    all_goals
      rintro rfl
      exact absurd (h.inNumber _ hc) (by unfold InNumber; decide)
  | text _ _ => exact absurd rfl hkind
  | word hstart hcs _ =>
    refine fun c hc => not_quote ⟨?_, ?_⟩
    all_goals
      rintro rfl
      rcases List.mem_cons.1 hc with rfl | hc
      · exact absurd hstart (by decide)
      · exact absurd (hcs _ hc) (by decide)
  | symbol s =>
    have hall : s.spelling.toList.all (fun c => !isQuote c) = true := by
      cases s <;> rfl
    exact fun c hc => by simpa using List.all_eq_true.1 hall c hc

/-! ### Pieces from the front -/

theorem Cut.uncons {cs : List Char} {p : Piece} {qs : List Piece} (h : Cut cs (p :: qs)) :
    ∃ rest, cs = p.text ++ rest ∧ Fits p.kind p.text rest ∧
      lexeme? p.kind p.text = .ok p.lexeme ∧ Cut rest qs := by
  cases h with
  | cons hfits hlexeme hmore => exact ⟨_, rfl, hfits, hlexeme, hmore⟩

/-- Pieces from the front can be taken off. -/
theorem Cut.split {cs : List Char} {ps qs : List Piece} (h : Cut cs (ps ++ qs)) :
    ∃ rest, cs = texts ps ++ rest ∧ Cut rest qs := by
  induction ps generalizing cs with
  | nil => exact ⟨cs, rfl, h⟩
  | cons p ps ih =>
    obtain ⟨rest, rfl, -, -, hmore⟩ := h.uncons
    obtain ⟨rest', rfl, hqs⟩ := ih hmore
    exact ⟨rest', (List.append_assoc _ _ _).symm, hqs⟩

/-- A piece between others fits its class and has its lexeme, and the others are cut from what
follows it. -/
theorem Cut.middle {rest : List Char} {ps qs : List Piece} {p : Piece}
    (h : Cut (texts ps ++ (p.text ++ rest)) (ps ++ p :: qs)) :
    Fits p.kind p.text rest ∧ lexeme? p.kind p.text = .ok p.lexeme ∧ Cut rest qs := by
  obtain ⟨rest', hsplit, hbehind⟩ := h.split
  obtain rfl := List.append_cancel_left hsplit
  obtain ⟨rest'', hrest, hfits, hlexeme, hmore⟩ := hbehind.uncons
  obtain rfl := List.append_cancel_left hrest
  exact ⟨hfits, hlexeme, hmore⟩

theorem texts_snoc (ps : List Piece) (p : Piece) : texts (ps ++ [p]) = texts ps ++ p.text := by
  simp [texts]

/-- The last of some pieces from the front, with the pieces before it. -/
theorem Cut.snoc {rest : List Char} {ps qs : List Piece} {p : Piece}
    (h : Cut (texts (ps ++ [p]) ++ rest) (ps ++ p :: qs)) :
    Cut (texts ps ++ (p.text ++ rest)) (ps ++ p :: qs) ∧ Fits p.kind p.text rest ∧
      lexeme? p.kind p.text = .ok p.lexeme := by
  rw [texts_snoc, List.append_assoc] at h
  exact ⟨h, h.middle.1, h.middle.2.1⟩

/-- Past the blanks, what stands behind some pieces stands behind a dot exactly if their last lexeme
is a dot. -/
theorem Cut.behind_dot_iff {rest : List Char} {ps qs : List Piece}
    (h : Cut (texts ps ++ rest) (ps ++ qs)) :
    ((texts ps).reverse.dropWhile isBlank).head? = some '.' ↔
      (ps.filterMap Piece.lexeme).getLast? = some (.symbol .dot) := by
  induction ps using List.reverseRecOn generalizing qs rest with
  | nil => simp [texts]
  | append_singleton ps p ih =>
    rw [List.append_assoc] at h
    obtain ⟨hcut, hfits, hlexeme⟩ := h.snoc
    have hreverse : (texts (ps ++ [p])).reverse = p.text.reverse ++ (texts ps).reverse := by
      simp [texts]
    rw [hreverse]
    cases hl : p.lexeme with
    | none =>
      -- A blank changes nothing, neither for the search nor for the lexemes.
      rw [hl] at hlexeme
      have hkind := kind_of_lexeme_none hlexeme
      rw [hkind] at hfits
      obtain ⟨-, hblank⟩ : p.text ≠ [] ∧ ∀ c ∈ p.text, isBlank c = true := by
        cases hfits with
        | blank hne hblank => exact ⟨hne, hblank⟩
      rw [List.dropWhile_append_of_pos fun c hc => hblank c (List.mem_reverse.1 hc), ih hcut]
      simp [List.filterMap_append, hl]
    | some l =>
      rw [hl] at hlexeme
      obtain ⟨c, hc, hblank, hdot⟩ := hfits.getLast hlexeme
      obtain ⟨front, hfront⟩ := List.getLast?_eq_some_iff.1 hc
      rw [hfront, List.reverse_append, List.reverse_singleton, List.append_assoc,
        List.singleton_append, List.dropWhile_cons_of_neg (by simp [hblank])]
      simpa [List.filterMap_append, hl] using hdot

/-- What stands right before a word whose lexeme comes behind no number belongs to no word. -/
theorem Cut.apart_before {rest : List Char} {ps qs : List Piece}
    (h : Cut (texts ps ++ rest) (ps ++ qs))
    (hword : ∃ d, rest.head? = some d ∧ continuesWord d = true)
    (hlast : ∀ l, (ps.filterMap Piece.lexeme).getLast? = some l → ∀ m, l ≠ .number m) :
    ∀ c, (texts ps).getLast? = some c → Apart c := by
  intro c hc
  rcases List.eq_nil_or_concat ps with rfl | ⟨ps, p, rfl⟩
  · exact absurd hc (by simp [texts])
  · rw [List.concat_eq_append] at *
    rw [List.append_assoc] at h
    obtain ⟨-, hfits, hlexeme⟩ := h.snoc
    have hlastText : (texts (ps ++ [p])).getLast? = p.text.getLast? := by
      obtain ⟨d, hd⟩ : ∃ d, p.text.getLast? = some d :=
        ⟨_, List.getLast?_eq_some_getLast hfits.ne_nil⟩
      simp [texts, List.getLast?_append, hd]
    refine hfits.apart_getLast (fun hkind => ?_) hword c (hlastText ▸ hc)
    rw [hkind] at hlexeme
    obtain ⟨m, hm⟩ := number_of_lexeme hlexeme
    exact hlast (.number m) (by simp [hm]) m rfl

/-- What stands right behind a word before no number belongs to no word. -/
theorem Cut.apart_after {rest : List Char} {qs : List Piece} (h : Cut rest qs)
    (hrest : ∀ d, rest.head? = some d → continuesWord d = false)
    (hfirst : ∀ l, (qs.filterMap Piece.lexeme).head? = some l → ∀ m, l ≠ .number m) :
    ∀ d, rest.head? = some d → Apart d := by
  intro d hd
  cases qs with
  | nil =>
    cases h
    exact absurd hd (by simp)
  | cons q qs =>
    obtain ⟨more, rfl, hfits, hlexeme, -⟩ := h.uncons
    rw [List.head?_append_of_ne_nil _ hfits.ne_nil] at hd
    have hmem : d ∈ q.text := List.mem_of_head? hd
    obtain ⟨kind, text, lexeme⟩ := q
    cases hfits with
    | blank _ hblank => exact apart_of_isBlank (hblank d hmem)
    | number _ =>
      obtain ⟨m, rfl⟩ := number_of_lexeme hlexeme
      exact absurd rfl (hfirst (.number m) rfl m)
    | text hq _ =>
      obtain rfl := Option.some.inj hd
      exact apart_of_isQuote hq
    | word hc _ _ =>
      obtain rfl := Option.some.inj hd
      have hcontinues := hrest _ rfl
      rw [continuesWord, hc, Bool.true_or] at hcontinues
      exact absurd hcontinues (by simp)
    | symbol s => exact apart_of_symbol hmem

/-- The quoted texts of a source are those of some pieces from the front, and those of the rest. -/
theorem Cut.quotedSpans_split {rest : List Char} {ps qs : List Piece}
    (h : Cut (texts ps ++ rest) (ps ++ qs)) (position : Nat) :
    ∃ spans, quotedSpans position (texts ps ++ rest) =
        spans ++ quotedSpans (position + (texts ps).length) rest ∧
      ∀ span ∈ spans, span.2 ≤ position + (texts ps).length := by
  induction ps generalizing position with
  | nil => exact ⟨[], rfl, by simp⟩
  | cons p ps ih =>
    have htexts : texts (p :: ps) ++ rest = p.text ++ (texts ps ++ rest) := by
      simp [texts]
    have hlength : position + (texts (p :: ps)).length =
        position + p.text.length + (texts ps).length := by
      simp [texts, Nat.add_assoc]
    rw [htexts] at h ⊢
    rw [hlength]
    obtain ⟨rest', hsplit, hfits, -, hmore⟩ := h.uncons
    obtain rfl := List.append_cancel_left hsplit
    obtain ⟨spans, hspans, hends⟩ := ih hmore (position + p.text.length)
    by_cases hkind : p.kind = .text
    · rw [hkind] at hfits
      generalize p.text = text at hfits hspans hends ⊢
      cases hfits with
      | text hq hbody =>
        rw [quotedSpans_text hq (textLength?_of_body hq hbody _), hspans]
        refine ⟨_ :: spans, rfl, ?_⟩
        rw [List.forall_mem_cons]
        exact ⟨Nat.le_add_right _ _, hends⟩
    · rw [quotedSpans_append (hfits.not_quote hkind), hspans]
      exact ⟨spans, rfl, hends⟩

/-! ### Words and the search -/

/-- The name has no dollar sign at its edges. -/
def PlainEdges (n : String) : Prop :=
  n.toList.head? ≠ some '$' ∧ n.toList.getLast? ≠ some '$'

section

variable {ps qs : List Piece} {p : Piece} {n : String} {post : List Char}

/-- A word with no number next to it is found. -/
theorem Cut.occurrences_word (h : Cut (texts ps ++ (n.toList ++ post)) (ps ++ p :: qs))
    (hfits : Fits .word n.toList post) (hpost : Cut post qs) (hedges : PlainEdges n)
    (hbefore : ∀ l, (ps.filterMap Piece.lexeme).getLast? = some l → ∀ m, l ≠ .number m)
    (hafter : ∀ l, (qs.filterMap Piece.lexeme).head? = some l → ∀ m, l ≠ .number m) :
    occurrences (texts ps).reverse (n.toList ++ post) =
      ⟨(texts ps).reverse, n.toList, post⟩ ::
        occurrences (n.toList.reverse ++ (texts ps).reverse) post := by
  rw [PlainEdges] at hedges
  generalize n.toList = word at *
  cases hfits with
  | @word c cs _ hc hcs hnext =>
    have hcontinues : continuesWord c = true := by
      rw [continuesWord, hc, Bool.true_or]
    have hfront := h.apart_before ⟨c, rfl, hcontinues⟩ hbefore
    have hback := hpost.apart_after hnext hafter
    refine Formula.occurrences_word hc hcs (fun hdollar => hedges.1 (congrArg some hdollar))
      hedges.2 (inWord_of_apart ?_) hnext (inWord_of_apart hback)
    rw [List.head?_reverse]
    exact hfront

/-- A word that is no keyword and stands behind no dot names a field, unless it is one of the
context's own names with a point right behind it. -/
theorem Cut.namesField_word (h : Cut (texts ps ++ (n.toList ++ post)) (ps ++ qs))
    (hfits : Fits .word n.toList post) (hkey : n ∉ keywords)
    (hdot : (ps.filterMap Piece.lexeme).getLast? ≠ some (.symbol .dot)) :
    namesField (quotedSpans 0 (texts ps ++ (n.toList ++ post)))
      ⟨(texts ps).reverse, n.toList, post⟩ =
        !(qualifiedNames.contains n && post.head? == some '.') := by
  have hquoted : (quotedSpans 0 (texts ps ++ (n.toList ++ post))).any (fun span =>
      span.1 ≤ (texts ps).reverse.length && (texts ps).reverse.length < span.2) = false := by
    obtain ⟨spans, hspans, hends⟩ := h.quotedSpans_split 0
    rw [List.any_eq_false]
    intro span hspan
    rw [hspans, quotedSpans_append (hfits.not_quote (by decide)), List.mem_append] at hspan
    simp only [List.length_reverse, Bool.and_eq_true, decide_eq_true_eq]
    rcases hspan with hspan | hspan
    · have hend := hends span hspan
      omega
    · have hbegin := le_of_mem_quotedSpans hspan
      have hpos := List.length_pos_iff.2 hfits.ne_nil
      omega
  have hkeyword : keywords.contains n = false := by simpa using hkey
  have hbehind : (((texts ps).reverse.dropWhile isBlank).head? != some '.') = true := by
    rw [bne_iff_ne, Ne, h.behind_dot_iff]
    exact hdot
  simp only [namesField, String.ofList_toList, hkeyword, hquoted, hbehind]
  rfl

end

/-! ### Every name of a tree is found -/

/-- A source that is a formula falls into pieces, and their lexemes stand for its tree. -/
theorem exists_cut_of_parse {source : String} {e : Expr} (he : parse source = .ok e) :
    ∃ pieces us rest, Cut source.toList pieces ∧ DerivesSource e us ∧
      pieces.filterMap Piece.lexeme ++ [.eof] = us ++ rest ∧
      ∀ l, rest.head? = some l → l = .eof := by
  unfold parse tokens at he
  cases herror : (scan source).error with
  | some error => simp [herror] at he
  | none =>
    obtain ⟨pieces, hcut, htokens⟩ := scanFrom_cut {} source.toList herror
    simp only [herror] at he
    cases hparse : parseTokens (scan source).tokens with
    | error error => simp [hparse] at he
    | ok e' =>
      obtain rfl : e' = e := by simpa [hparse] using he
      obtain ⟨us, rest, hsplit, hend, hderives⟩ := parseTokens_sound hparse
      refine ⟨pieces, us.map Token.lexeme, rest.map Token.lexeme, hcut, hderives, ?_, ?_⟩
      · have hmap : (scan source).tokens.map Token.lexeme =
            pieces.filterMap Piece.lexeme ++ [.eof] := htokens
        rw [← hmap, hsplit, List.map_append]
      · intro l hl
        cases rest with
        | nil => exact absurd hl (by simp)
        | cons t rest =>
          rw [← Option.some.inj hl]
          exact hend

/-- The piece of a name that stands apart. -/
theorem exists_piece_of_name {pieces : List Piece} {n : String} {xs ys rest : List Lexeme}
    (h : pieces.filterMap Piece.lexeme ++ [.eof] = xs ++ .name n :: ys ++ rest)
    (hys : ∀ l, ys.head? = some l → ∀ m, l ≠ .number m)
    (hrest : ∀ l, rest.head? = some l → l = .eof) :
    ∃ ps p qs, pieces = ps ++ p :: qs ∧ p.lexeme = some (.name n) ∧
      ps.filterMap Piece.lexeme = xs ∧
      ∀ l, (qs.filterMap Piece.lexeme).head? = some l → ∀ m, l ≠ .number m := by
  -- The lexemes behind the name, without the end of the source.
  obtain ⟨zs, hzs, hlexemes⟩ : ∃ zs, ys ++ rest = zs ++ [.eof] ∧
      pieces.filterMap Piece.lexeme = xs ++ .name n :: zs := by
    have hlast := congrArg List.getLast? h
    have hdrop := congrArg List.dropLast h
    rcases List.eq_nil_or_concat (ys ++ rest) with hnil | ⟨zs, z, hzs⟩
    · obtain ⟨rfl, rfl⟩ := List.append_eq_nil_iff.1 hnil
      simp at hlast
    · rw [List.append_assoc, List.cons_append, hzs] at hlast hdrop
      simp only [List.concat_eq_append] at hzs hlast hdrop
      rw [← List.cons_append, ← List.append_assoc] at hlast hdrop
      rw [List.getLast?_concat, List.getLast?_concat] at hlast
      rw [List.dropLast_concat, List.dropLast_concat] at hdrop
      exact ⟨zs, by rw [hzs, Option.some.inj hlast], hdrop⟩
  obtain ⟨ps, behind, rfl, hps, hbehind⟩ := List.filterMap_eq_append_iff.1 hlexemes
  obtain ⟨skipped, p, qs, rfl, hskipped, hp, hqs⟩ := List.filterMap_eq_cons_iff.1 hbehind
  refine ⟨ps ++ skipped, p, qs, by simp, hp, ?_, fun l hl m => ?_⟩
  · rw [List.filterMap_append, hps, List.filterMap_eq_nil_iff.2 hskipped, List.append_nil]
  · rw [hqs] at hl
    have hin : (ys ++ rest).head? = some l := by
      rw [hzs, List.head?_append, hl]
      rfl
    cases ys with
    | nil =>
      rw [hrest l hin]
      exact Lexeme.noConfusion
    | cons y ys => exact hys l hin m

/-- The word that a name of a tree is in its source, with the pieces around it. -/
theorem exists_word_of_mem_names {source : String} {e : Expr} (he : parse source = .ok e)
    {n : String} (hn : n ∈ e.names) :
    ∃ ps p qs post, source.toList = texts ps ++ (n.toList ++ post) ∧
      Cut (texts ps ++ (n.toList ++ post)) (ps ++ p :: qs) ∧ Fits .word n.toList post ∧
      wordLexeme n = .name n ∧ Cut post qs ∧
      (∀ l, (ps.filterMap Piece.lexeme).getLast? = some l → Before l) ∧
      ∀ l, (qs.filterMap Piece.lexeme).head? = some l → ∀ m, l ≠ .number m := by
  obtain ⟨pieces, us, rest, hcut, hderives, hlexemes, hrest⟩ := exists_cut_of_parse he
  obtain ⟨xs, ys, rfl, hxs, hys⟩ := hderives.standsApart hn
  obtain ⟨ps, p, qs, rfl, hp, rfl, hqs⟩ := exists_piece_of_name hlexemes hys hrest
  obtain ⟨behind, hsource, hbehind⟩ := hcut.split
  rw [hsource] at hcut
  obtain ⟨post, rfl, hfits, hlexeme, hpost⟩ := hbehind.uncons
  rw [hp] at hlexeme
  obtain ⟨hkind, htext, hname⟩ := word_of_name hlexeme
  rw [hkind, htext] at hfits
  rw [htext] at hsource hcut
  exact ⟨ps, p, qs, post, hsource, hcut, hfits, hname, hpost, hxs, hqs⟩

/-- Every name of a formula is read in its text, unless it is a keyword, one of the context's own
names, or has a dollar sign at its edge. -/
theorem mem_reads {source : String} {e : Expr} (he : parse source = .ok e) {n : String}
    (hn : n ∈ e.names) (hedges : PlainEdges n) (hkey : n ∉ keywords) (hown : n ∉ qualifiedNames) :
    n ∈ reads source := by
  obtain ⟨ps, p, qs, post, hsource, hcut, hfits, -, hpost, hxs, hqs⟩ :=
    exists_word_of_mem_names he hn
  have hword := hcut.occurrences_word hfits hpost hedges (fun l hl => (hxs l hl).2) hqs
  have hcontinues : ∃ d, (n.toList ++ post).head? = some d ∧ continuesWord d = true := by
    generalize n.toList = word at hfits
    cases hfits with
    | word hc _ _ => exact ⟨_, rfl, by rw [continuesWord, hc, Bool.true_or]⟩
  have hbefore := hcut.apart_before hcontinues fun l hl => (hxs l hl).2
  obtain ⟨os, hos, -⟩ := occurrences_append [] (texts ps) (n.toList ++ post)
    fun d hd => (hbefore d hd).2
  have hfound : (⟨(texts ps).reverse, n.toList, post⟩ : Occurrence) ∈
      occurrences [] source.toList := by
    rw [hsource, hos, List.append_nil, hword]
    simp
  have hfield : namesField (quotedSpans 0 source.toList)
      ⟨(texts ps).reverse, n.toList, post⟩ = true := by
    have hqualified : qualifiedNames.contains n = false := by simpa using hown
    rw [hsource, hcut.namesField_word hfits hkey fun hlast => (hxs _ hlast).1 rfl, hqualified]
    rfl
  rw [reads, Names.mem_ofList]
  exact List.mem_map.2 ⟨_, List.mem_filter.2 ⟨hfound, hfield⟩, String.ofList_toList⟩

/-! ### What an evaluation depends on -/

/-- The keywords of the search that are mere names for the lexer. -/
def reservedNames : List String :=
  ["instanceof", "new", "this", "if", "else", "return"]

theorem mem_reservedNames {n : String} (hkey : n ∈ keywords) (hname : wordLexeme n = .name n) :
    n ∈ reservedNames := by
  simp only [keywords, List.mem_cons, List.not_mem_nil, or_false] at hkey
  rcases hkey with rfl | rfl | rfl | rfl | rfl | hkey
  iterate 5 exact absurd hname (by decide)
  simpa [reservedNames] using hkey

/-- **What a source is evaluated to depends on the fields that it reads.** Beside them it depends on
the context's own names and on the reserved ones. -/
theorem evaluate_eq_of_reads {source : String} {e : Expr} (he : parse source = .ok e)
    (hedges : ∀ n ∈ e.names, PlainEdges n) {c d : Context} (hown : AgreeOn qualifiedNames c d)
    (hreads : AgreeOn (reads source) c d) (hreserved : AgreeOn reservedNames c d) :
    evaluate source c = evaluate source d := by
  refine evaluate_congr he fun n hn => ?_
  by_cases hqualified : n ∈ qualifiedNames
  · exact hown n hqualified
  by_cases hkey : n ∈ keywords
  · obtain ⟨-, -, -, -, -, -, -, hname, -⟩ := exists_word_of_mem_names he hn
    exact hreserved n (mem_reservedNames hkey hname)
  · exact hreads n (mem_reads he hn (hedges n hn) hkey hqualified)

/-- A field that is not read changes nothing. -/
theorem evaluate_amount_beside_other :
    evaluate "amount + record.bonus" [(.text "amount", .number (.int 3))] =
      evaluate "amount + record.bonus"
        [(.text "amount", .number (.int 3)), (.text "other", .bool true)] := by
  have hparse : parse "amount + record.bonus" =
      .ok (.binary .add (.name "amount") (.member (.name "record") "bonus")) := by cbv
  have hreads : reads "amount + record.bonus" = ["amount"] := by cbv
  refine evaluate_eq_of_reads hparse ?_ ?_ ?_ ?_
  · intro n hn
    simp only [Expr.names, List.singleton_append, List.mem_cons, List.not_mem_nil, or_false] at hn
    rcases hn with rfl | rfl <;> exact ⟨by decide, by decide⟩
  · intro n hn
    simp only [qualifiedNames, List.mem_cons, List.not_mem_nil, or_false] at hn
    rcases hn with rfl | rfl | rfl | rfl | rfl | rfl | rfl <;> rfl
  · intro n hn
    rw [hreads] at hn
    obtain rfl := List.mem_singleton.1 hn
    rfl
  · intro n hn
    simp only [reservedNames, List.mem_cons, List.not_mem_nil, or_false] at hn
    rcases hn with rfl | rfl | rfl | rfl | rfl | rfl <;> rfl

/-- The fields that a source reads are not all that its evaluation depends on: a field whose name is
a keyword of the search, but none of the lexer, is looked up and never read. -/
theorem not_evaluate_eq_of_reads_alone : ¬ ∀ (source : String) (e : Expr) (c d : Context),
    parse source = .ok e → AgreeOn qualifiedNames c d → AgreeOn (reads source) c d →
      evaluate source c = evaluate source d := by
  intro h
  have hparse : parse "this" = .ok (.name "this") := by cbv
  have hreads : reads "this" = [] := by cbv
  have hequal := h "this" (.name "this") [] [(.text "this", .bool true)] hparse ?_ ?_
  · have hnothing : evaluate "this" [] [] = (.ok .null, []) := by
      rw [evaluate, hparse]
      rfl
    have hfield : evaluate "this" [(.text "this", .bool true)] [] = (.ok (.bool true), []) := by
      rw [evaluate, hparse]
      rfl
    rw [hequal, hfield] at hnothing
    cases hnothing
  · intro n hn
    simp only [qualifiedNames, List.mem_cons, List.not_mem_nil, or_false] at hn
    rcases hn with rfl | rfl | rfl | rfl | rfl | rfl | rfl <;> rfl
  · intro n hn
    rw [hreads] at hn
    exact absurd hn List.not_mem_nil

end LiveForm.Formula
