import Mathlib
import LiveForm.Proofs.Formula.Completeness
import LiveForm.Proofs.Formula.Cuts
import LiveForm.Proofs.Formula.Rows
import LiveForm.Proofs.Number.Numeral

/-!
# Reading what has been written

A row of lexemes is written as text by spelling each lexeme and putting one space between the
spellings. The lexer cuts such a text into the same row again (`scanFrom_spelled`), and so
**a formula that is written down is read as the tree that it was** (`parse_written`).
-/

namespace LiveForm.Formula

open LiveForm.Text

/-- The characters of a text as they stand between quotes: the quote and the backslash behind a
backslash, every other character as it is. -/
def escape (quote : Char) (cs : List Char) : List Char :=
  cs.flatMap fun c => if c = quote ∨ c = '\\' then ['\\', c] else [c]

/-- The spellings of lexemes. A text has one in either quote, and a number has one if its digits are
not too many. -/
inductive Spells : Lexeme → String → Prop
  | text {q : Char} (s : String) : isQuote q = true →
      Spells (.text s) (String.ofList (q :: (escape q s.toList ++ [q])))
  | number {n : Nat} : (Nat.toDigits 10 n).length ≤ digitLimit →
      Spells (.number (.int n)) (String.ofList (Nat.toDigits 10 n))
  | word {w : String} : IsName w → Spells (wordLexeme w) w
  | symbol (s : Symbol) : Spells (.symbol s) s.spelling

/-! ### Texts in quotes -/

theorem escape_cons (quote c : Char) (cs : List Char) :
    escape quote (c :: cs) =
      (if c = quote ∨ c = '\\' then ['\\', c] else [c]) ++ escape quote cs :=
  List.flatMap_cons

/-- A text in quotes ends at its own closing quote, not before. -/
theorem textLength?_escape {quote : Char} (hq : isQuote quote = true) (cs rest : List Char) :
    textLength? quote (escape quote cs ++ quote :: rest) =
      some ((escape quote cs).length + 1) := by
  have hquote : quote ≠ '\\' ∧ quote ≠ '\n' := by
    rcases isQuote_iff.1 hq with rfl | rfl <;> decide
  induction cs with
  | nil => simp [escape, textLength?, hquote]
  | cons c cs ih =>
    rw [escape_cons]
    split_ifs with hc
    · have hbreak : c ≠ '\n' := by
        rcases hc with rfl | rfl
        · exact hquote.2
        · decide
      simp [textLength?, ih]
    · obtain ⟨hne, hback⟩ := not_or.1 hc
      simp [textLength?, hne, hback, ih]

/-- What has been put behind backslashes comes out as it was. -/
theorem unescape_escape {quote : Char} (hq : isQuote quote = true) (cs : List Char) :
    unescape (escape quote cs) = cs := by
  have hquote : quote ≠ 'n' ∧ quote ≠ 't' ∧ quote ≠ 'r' := by
    rcases isQuote_iff.1 hq with rfl | rfl <;> decide
  induction cs with
  | nil => rfl
  | cons c cs ih =>
    rw [escape_cons]
    split_ifs with hc
    · have hplain : c ≠ 'n' ∧ c ≠ 't' ∧ c ≠ 'r' := by
        rcases hc with rfl | rfl
        · exact hquote
        · decide
      simp [unescape, hplain, ih]
    · have hback := (not_or.1 hc).2
      simp [unescape, hback, ih]

/-! ### Cutting off a spelling -/

/-- The spelling of a lexeme, at the end of the source or before a space, is one piece of the source
and gives the lexeme back. -/
theorem Spells.cut {l : Lexeme} {piece : String} (h : Spells l piece) {rest : List Char}
    (hrest : rest = [] ∨ ∃ more, rest = ' ' :: more) :
    ∃ kind, front? (piece.toList ++ rest) = some (kind, piece.toList.length) ∧
      lexeme? kind piece.toList = .ok (some l) := by
  have hhead : ∀ d, rest.head? = some d → d = ' ' := by
    rcases hrest with rfl | ⟨more, rfl⟩
    · exact fun d hd => absurd hd (by simp)
    · exact fun d hd => (Option.some.inj hd).symm
  cases h with
  | @text quote s hq =>
    refine ⟨.text, ?_, ?_⟩
    · have hlength := textLength?_escape hq s.toList rest
      simpa using front?_text hq hlength
    · simp [lexeme?, unescape_escape hq]
  | @number n hlimit =>
    have hdigits : ∀ c ∈ Nat.toDigits 10 n, c.isDigit = true := fun c hc =>
      Nat.isDigit_of_mem_toDigits (by decide) (by decide) hc
    refine ⟨.number, ?_, ?_⟩
    · obtain ⟨c, cs, hcs⟩ := List.exists_cons_of_ne_nil (Nat.toDigits_ne_nil (n := n) (b := 10))
      rw [hcs] at hdigits
      rw [String.toList_ofList, hcs]
      refine front?_digits (hdigits c List.mem_cons_self)
        (fun d hd => hdigits d (List.mem_cons_of_mem _ hd)) fun d hd => ?_
      rw [hhead d hd]
      decide
    · have hall : (Nat.toDigits 10 n).all isDigit = true := by
        refine List.all_eq_true.2 fun c hc => ?_
        rw [isDigit, digitValue?_of_isDigit (hdigits c hc)]
        rfl
      have hread := Numeral.read_digits hdigits Nat.toDigits_ne_nil hlimit
      rw [Nat.ofDigitChars_ten_toDigits] at hread
      simp [lexeme?, numberLexeme, hall, hread, Except.map]
  | word hw =>
    obtain ⟨c, cs, hcs, hc, hmore⟩ := hw
    refine ⟨.word, ?_, ?_⟩
    · rw [hcs]
      refine front?_word hc hmore fun d hd => ?_
      rw [hhead d hd]
      decide
    · simp [lexeme?]
  | symbol s => exact ⟨.symbol s, front?_symbol s hrest, rfl⟩

theorem Spells.head {l : Lexeme} {piece : String} (h : Spells l piece) :
    ∃ c cs, piece.toList = c :: cs ∧ isBlank c = false := by
  cases h with
  | text s hq =>
    refine ⟨_, _, String.toList_ofList, ?_⟩
    rcases isQuote_iff.1 hq with rfl | rfl <;> decide
  | @number n _ =>
    obtain ⟨c, cs, hcs⟩ := List.exists_cons_of_ne_nil (Nat.toDigits_ne_nil (n := n) (b := 10))
    refine ⟨c, cs, by rw [String.toList_ofList, hcs], isBlank_of_isDigit (isDigit_of_ascii ?_)⟩
    exact Nat.isDigit_of_mem_toDigits (by decide) (by decide) (hcs ▸ List.mem_cons_self)
  | word hw =>
    obtain ⟨c, cs, hcs, hc, -⟩ := hw
    exact ⟨c, cs, hcs, isBlank_of_startsWord hc⟩
  | symbol s => cases s <;> exact ⟨_, _, rfl, by decide⟩

/-! ### Cutting a row of spellings -/

/-- The characters of spellings with one space between neighbours. -/
def spaced (pieces : List String) : List Char :=
  (" ".intercalate pieces).toList

theorem spaced_nil : spaced [] = [] := rfl

theorem spaced_singleton (piece : String) : spaced [piece] = piece.toList := rfl

theorem spaced_cons_cons (piece next : String) (pieces : List String) :
    spaced (piece :: next :: pieces) = piece.toList ++ ' ' :: spaced (next :: pieces) := by
  simp [spaced, String.toList_intercalate]

theorem head_spaced {l : Lexeme} {piece : String} (h : Spells l piece) (pieces : List String)
    {d : Char} (hd : (spaced (piece :: pieces)).head? = some d) : isBlank d = false := by
  obtain ⟨c, cs, hcs, hc⟩ := h.head
  suffices hdc : d = c by rwa [hdc]
  cases pieces with
  | nil =>
    rw [spaced_singleton, hcs] at hd
    exact (Option.some.inj hd).symm
  | cons next pieces =>
    rw [spaced_cons_cons, hcs] at hd
    exact (Option.some.inj hd).symm

/-- The lexer cuts the spellings of a row into the row again. -/
theorem scanFrom_spelled {ls : List Lexeme} {pieces : List String}
    (h : List.Forall₂ Spells ls pieces) (p : Place) :
    ∃ ts last, scanFrom p (spaced pieces) = ⟨ts ++ [last], none⟩ ∧
      ts.map Token.lexeme = ls ∧ last.lexeme = .eof := by
  induction h generalizing p with
  | nil =>
    refine ⟨[], p.token .eof, ?_, rfl, rfl⟩
    rw [spaced_nil, scanFrom]
    rfl
  | @cons l piece ls pieces hl hmore ih =>
    obtain ⟨c, cs, hcs, -⟩ := hl.head
    have hpiece : piece.toList ≠ [] := by
      rw [hcs]
      exact List.cons_ne_nil c cs
    cases hmore with
    | nil =>
      obtain ⟨kind, hfront, hlexeme⟩ := hl.cut (Or.inl rfl)
      obtain ⟨ts, last, hscan, hts, hlast⟩ := ih (p.after piece.toList)
      refine ⟨p.token l :: ts, last, ?_, by rw [List.map_cons, hts]; rfl, hlast⟩
      rw [spaced_nil] at hscan
      rw [spaced_singleton, ← List.append_nil piece.toList,
        scanFrom_append p hpiece hfront hlexeme, hscan]
      rfl
    | @cons l' next ls' pieces' hnext hmore' =>
      obtain ⟨kind, hfront, hlexeme⟩ := hl.cut (Or.inr ⟨spaced (next :: pieces'), rfl⟩)
      have hspace : front? ([' '] ++ spaced (next :: pieces')) = some (.blank, [' '].length) :=
        front?_space fun d hd => head_spaced hnext pieces' hd
      obtain ⟨ts, last, hscan, hts, hlast⟩ := ih ((p.after piece.toList).after [' '])
      refine ⟨p.token l :: ts, last, ?_, by rw [List.map_cons, hts]; rfl, hlast⟩
      rw [spaced_cons_cons, scanFrom_append p hpiece hfront hlexeme, ← List.singleton_append,
        scanFrom_append _ (List.cons_ne_nil _ _) hspace rfl, hscan]
      rfl

theorem tokens_spelled {ls : List Lexeme} {pieces : List String}
    (h : List.Forall₂ Spells ls pieces) :
    ∃ ts last, tokens (" ".intercalate pieces) = .ok (ts ++ [last]) ∧
      ts.map Token.lexeme = ls ∧ last.lexeme = .eof := by
  obtain ⟨ts, last, hscan, hts, hlast⟩ := scanFrom_spelled h {}
  refine ⟨ts, last, ?_, hts, hlast⟩
  have hscan' : scan (" ".intercalate pieces) = ⟨ts ++ [last], none⟩ := hscan
  rw [tokens, hscan']

/-- A row that stands for a formula can be spelled, and the formula is read from the spelling. -/
theorem parse_spelled {e : Expr} {ls : List Lexeme} (he : DerivesSource e ls)
    {pieces : List String} (h : List.Forall₂ Spells ls pieces) :
    parse (" ".intercalate pieces) = .ok e := by
  obtain ⟨ts, last, htokens, hts, hlast⟩ := tokens_spelled h
  rw [← hts] at he
  rw [parse, htokens]
  simp only [he.parseTokens_eq hlast]

/-- A tree is read from any spelling of its row. -/
theorem Printable.parse_row {e : Expr} (he : Printable e) {pieces : List String}
    (h : List.Forall₂ Spells (row e) pieces) : parse (" ".intercalate pieces) = .ok e := by
  have hderives : DerivesSource (ofBody [e]) (rootRow e []) :=
    derives_rootRow he (List.forall_mem_nil _)
  rw [rootRow, List.flatMap_nil, List.append_nil] at hderives
  exact parse_spelled hderives h

/-- **A formula that is written down is read as the tree that it was.** Written are the lexemes of a
tree in order, in any spelling, with one space between them; at the root, several trees with a comma
or a semicolon between any two of them make a sequence. -/
theorem parse_written {first : Expr} {more : List (Symbol × Expr)} (hfirst : Printable first)
    (hmore : ∀ p ∈ more, (p.1 = .comma ∨ p.1 = .semicolon) ∧ Printable p.2)
    {pieces : List String} (h : List.Forall₂ Spells (rootRow first more) pieces) :
    parse (" ".intercalate pieces) = .ok (ofBody (first :: more.map Prod.snd)) :=
  parse_spelled (derives_rootRow hfirst hmore) h

/-- The member of a group, under a word with a meaning of its own, and behind a semicolon an array
with a hole and a text that holds its own quote. -/
theorem parse_written_group_and_array :
    parse "- ( a + 1 ) . typeof ; [ , \"\\\"\" , ]" =
      .ok (.sequence [
        .unary .neg (.member (.binary .add (.name "a") (.literal (.number (.int 1)))) "typeof"),
        .array [none, some (.literal (.text "\""))]]) := by
  have name : IsName "a" := ⟨'a', [], rfl, by decide, by simp⟩
  have word : IsName "typeof" := ⟨'t', ['y', 'p', 'e', 'o', 'f'], rfl, by decide, by simp; decide⟩
  have hfirst : Printable (.unary .neg
      (.member (.binary .add (.name "a") (.literal (.number (.int 1)))) "typeof")) :=
    .unary (by simp [UnaryOp.InLanguage]) <| .member
      (.binary (by simp [BinaryOp.InLanguage]) (.name name rfl) (.literal (.number 1))) word
  have hmore : ∀ p ∈ [(Symbol.semicolon, Expr.array [none, some (.literal (.text "\""))])],
      (p.1 = .comma ∨ p.1 = .semicolon) ∧ Printable p.2 := by
    simpa using Printable.array (by simpa using .literal (.text _))
  refine parse_written hfirst hmore (?_ : List.Forall₂ Spells _
    ["-", "(", "a", "+", "1", ")", ".", "typeof", ";", "[", ",", "\"\\\"\"", ",", "]"])
  exact .cons (.symbol .minus) <| .cons (.symbol .openParen) <| .cons (.word name) <|
    .cons (.symbol .plus) <| .cons (.number (n := 1) (by decide)) <|
    .cons (.symbol .closeParen) <| .cons (.symbol .dot) <| .cons (.word word) <|
    .cons (.symbol .semicolon) <| .cons (.symbol .openBracket) <| .cons (.symbol .comma) <|
    .cons (.text (q := '"') "\"" rfl) <| .cons (.symbol .comma) <|
    .cons (.symbol .closeBracket) .nil

end LiveForm.Formula
