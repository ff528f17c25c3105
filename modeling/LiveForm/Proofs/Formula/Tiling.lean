import Mathlib
import LiveForm.Proofs.Formula.Longest
import LiveForm.Proofs.Number.Numeral

/-!
# The lexer tiles its source

**The pieces that the lexer cuts lie end to end from the front of the source** (`scan_tiling`): each
is the longest text of any class at its place, and they end with the source, or at the first place
where nothing can be cut: where no class has a text, or a whole number has too many digits. Every
token stands at its piece, and the end or the error behind the last one. The place is kept from
character to character, and it counts the line breaks before it and the characters behind the last of
them (`Place.Behind.after`).
-/

namespace LiveForm.Formula

open LiveForm.Text

/-! ### Whole numbers with too many digits -/

/-- A whole number with more digits than may be read. -/
structure TooLong (piece : List Char) : Prop where
  digits : Digits piece
  length : digitLimit < piece.length

theorem lexeme?_digits {ds : List Char} (h : Digits ds) : lexeme? .number ds =
    if digitLimit < ds.length then .error (.tooLongToRead ds.length)
    else .ok (some (.number (.int (Numeral.ofDigits (ds.map Numeral.valueOf))))) := by
  have hall : ds.all isDigit = true := List.all_eq_true.2 h.all
  rw [lexeme?, numberLexeme, if_pos hall, Numeral.read_of_digits h.all h.ne_nil]
  split_ifs <;> rfl

/-- Only a whole number with too many digits has no lexeme. -/
theorem tooLong_of_lexeme? {kind : Kind} {piece : List Char} {e : NumberError}
    (hbelongs : Belongs kind piece) (h : lexeme? kind piece = .error e) :
    kind = .number ∧ TooLong piece ∧ e = .tooLongToRead piece.length := by
  cases hbelongs with
  | number hnumber =>
    by_cases hall : piece.all isDigit = true
    · obtain ⟨d, ds, hcons, -⟩ := hnumber.exists_cons
      have hdigits : Digits piece := ⟨hcons ▸ List.cons_ne_nil d ds, List.all_eq_true.1 hall⟩
      rw [lexeme?_digits hdigits] at h
      split_ifs at h with hlong
      exact ⟨rfl, ⟨hdigits, hlong⟩, (Except.error.inj h).symm⟩
    · rw [lexeme?, numberLexeme, if_neg hall] at h
      cases h
  | _ => cases h

theorem not_tooLong_of_lexeme? {piece : List Char} {found : Option Lexeme}
    (h : lexeme? .number piece = .ok found) : ¬ TooLong piece := by
  rintro ⟨hdigits, hlong⟩
  rw [lexeme?_digits hdigits, if_pos hlong] at h
  cases h

/-! ### Places -/

/-- The offset of the last line break, or one less than the first offset if there is none. -/
def LastBreak (cs : List Char) (b : Int) : Prop :=
  b = -1 ∧ '\n' ∉ cs ∨ ∃ front line, cs = front ++ '\n' :: line ∧ '\n' ∉ line ∧ b = front.length

/-- The line and the column that belong to a position in a source. -/
structure Stands (source : List Char) (position line column : Nat) : Prop where
  line : line = 1 + (source.take position).count '\n'
  column : ∃ b, LastBreak (source.take position) b ∧ (column : Int) = position - b

/-- The place right behind some characters from the front of a source. -/
structure Place.Behind (p : Place) (cs : List Char) : Prop where
  position : p.position = cs.length
  line : p.line = 1 + cs.count '\n'
  column : ∃ b, LastBreak cs b ∧ (p.column : Int) = cs.length - b

theorem Place.behind_nil : Place.Behind {} [] :=
  ⟨rfl, rfl, -1, Or.inl ⟨rfl, List.not_mem_nil⟩, rfl⟩

theorem Place.Behind.next {p : Place} {cs : List Char} (h : p.Behind cs) (c : Char) :
    (p.next c).Behind (cs ++ [c]) := by
  rw [Place.next]
  split_ifs with hc
  · obtain rfl := eq_of_beq hc
    refine ⟨by simp [h.position], by simp [h.line, Nat.add_assoc], cs.length,
      Or.inr ⟨cs, [], rfl, List.not_mem_nil, rfl⟩, ?_⟩
    simp
  · have hne : c ≠ '\n' := by simpa using hc
    obtain ⟨b, hb, hcolumn⟩ := h.column
    refine ⟨by simp [h.position], by simp [h.line, hne], b, ?_, ?_⟩
    · rcases hb with ⟨rfl, hno⟩ | ⟨front, line, rfl, hno, rfl⟩
      · exact Or.inl ⟨rfl, by simpa [hne.symm] using hno⟩
      · exact Or.inr ⟨front, line ++ [c], by simp, by simpa [hne.symm] using hno, rfl⟩
    · have hlength : (cs ++ [c]).length = cs.length + 1 := by simp
      simp only [hlength]
      omega

theorem Place.Behind.after {p : Place} {cs : List Char} (h : p.Behind cs) (piece : List Char) :
    (p.after piece).Behind (cs ++ piece) := by
  induction piece generalizing p cs with
  | nil =>
    rw [List.append_nil]
    exact h
  | cons c piece ih =>
    have hmore := ih (h.next c)
    rwa [List.append_assoc] at hmore

/-- The place behind characters from the front stands where they end. -/
theorem Place.Behind.stands {p : Place} {cs : List Char} (h : p.Behind cs) (rest : List Char) :
    Stands (cs ++ rest) p.position p.line p.column := by
  obtain ⟨b, hb, hcolumn⟩ := h.column
  have htake : (cs ++ rest).take p.position = cs := by
    rw [h.position, List.take_left]
  refine ⟨by rw [htake, h.line], b, by rw [htake]; exact hb, ?_⟩
  rw [hcolumn, h.position]

theorem Place.after_append (p : Place) (xs ys : List Char) :
    p.after (xs ++ ys) = (p.after xs).after ys :=
  List.foldl_append

/-! ### Tiles -/

/-- How a source falls into pieces from the front, up to what is left. -/
inductive Tiles (left : List Char) : List Char → List Piece → Prop
  | nil : Tiles left left []
  | cons {piece : Piece} {rest : List Char} {more : List Piece} :
      Longest piece.kind piece.text (piece.text ++ rest) →
      lexeme? piece.kind piece.text = .ok piece.lexeme →
      Tiles left rest more → Tiles left (piece.text ++ rest) (piece :: more)

/-- Why nothing can be cut off at the front. -/
inductive Stops : List Char → LexCause → Prop
  /-- No class has a text there. -/
  | unexpected {c : Char} {rest : List Char} :
      (∀ kind text, Belongs kind text → ¬ text <+: c :: rest) → Stops (c :: rest) (.unexpected c)
  /-- A whole number with too many digits is the longest text. -/
  | tooLong {ds left : List Char} : Longest .number ds left → TooLong ds →
      Stops left (.badNumber (.tooLongToRead ds.length))

/-- What is scanned where nothing more is cut off: the end of the source, or an error. -/
inductive Halts (p : Place) : List Char → Scan → Prop
  | done : Halts p [] ⟨[p.token .eof], none⟩
  | stopped {left : List Char} {cause : LexCause} : Stops left cause →
      Halts p left ⟨[], some (p.error cause)⟩

/-- The tokens of some pieces, the first of which stands at a place. -/
def tokensFrom (p : Place) : List Piece → List Token
  | [] => []
  | piece :: more => (piece.lexeme.map p.token).toList ++ tokensFrom (p.after piece.text) more

/-- Cutting takes pieces from the front for as long as there is one, and then halts. -/
theorem scanFrom_tiles (p : Place) (cs : List Char) :
    ∃ pieces left last, Tiles left cs pieces ∧ Halts (p.after (texts pieces)) left last ∧
      scanFrom p cs = ⟨tokensFrom p pieces ++ last.tokens, last.error⟩ := by
  induction hlength : cs.length using Nat.strong_induction_on generalizing p cs with
  | _ n ih =>
  cases cs with
  | nil => exact ⟨[], [], _, .nil, .done, by rw [scanFrom]; rfl⟩
  | cons c rest =>
    cases hfront : front? (c :: rest) with
    | none =>
      refine ⟨[], c :: rest, _, .nil, .stopped (.unexpected (not_belongs_of_front? hfront)), ?_⟩
      rw [scanFrom]
      simp [hfront, tokensFrom, texts, Place.after]
    | some found =>
      obtain ⟨kind, n'⟩ := found
      obtain ⟨piece, after, hcs, rfl, hlongest⟩ := front?_longest hfront
      rw [hcs] at hfront hlength hlongest ⊢
      have hne := hlongest.belongs.ne_nil
      cases hlexeme : lexeme? kind piece with
      | error e =>
        obtain ⟨rfl, hlong, rfl⟩ := tooLong_of_lexeme? hlongest.belongs hlexeme
        refine ⟨[], piece ++ after, _, .nil, .stopped (.tooLong hlongest hlong), ?_⟩
        exact scanFrom_append_of_error p hne hfront hlexeme
      | ok found =>
        have hshort : after.length < n := by
          have := List.length_pos_iff.2 hne
          rw [← hlength, List.length_append]
          omega
        obtain ⟨pieces, left, last, htiles, hhalts, hscan⟩ :=
          ih _ hshort (p.after piece) after rfl
        have hpiece : Piece.text ⟨kind, piece, found⟩ = piece := rfl
        refine ⟨⟨kind, piece, found⟩ :: pieces, left, last, hpiece ▸ .cons hlongest hlexeme htiles,
          ?_, ?_⟩
        · rwa [← Place.after_append] at hhalts
        · rw [scanFrom_append p hne hfront hlexeme, hscan, tokensFrom, List.append_assoc]

theorem Tiles.cut {cs : List Char} {pieces : List Piece} (h : Tiles [] cs pieces) :
    Cut cs pieces := by
  induction h with
  | nil => exact .nil
  | cons hlongest hlexeme _ ih => exact .cons hlongest.fits hlexeme ih

theorem tokensFrom_lexemes (p : Place) (pieces : List Piece) :
    (tokensFrom p pieces).map Token.lexeme = pieces.filterMap Piece.lexeme := by
  induction pieces generalizing p with
  | nil => rfl
  | cons piece more ih =>
    rw [tokensFrom, List.map_append, ih]
    cases hl : piece.lexeme with
    | none => simp [hl]
    | some l => simp [hl, Place.token]

/-- A source that the lexer does not refuse falls into pieces, and their lexemes are the tokens, up
to the end of the source. -/
theorem scanFrom_cut (p : Place) (cs : List Char) (h : (scanFrom p cs).error = none) :
    ∃ pieces, Cut cs pieces ∧
      (scanFrom p cs).tokens.map Token.lexeme = pieces.filterMap Piece.lexeme ++ [.eof] := by
  obtain ⟨pieces, left, last, htiles, hhalts, hscan⟩ := scanFrom_tiles p cs
  rw [hscan] at h ⊢
  cases hhalts with
  | done =>
    refine ⟨pieces, htiles.cut, ?_⟩
    rw [List.map_append, tokensFrom_lexemes]
    rfl
  | stopped _ => cases h

theorem scan_of_tokens {source : String} {ts : List Token} (h : tokens source = .ok ts) :
    scan source = ⟨ts, none⟩ := by
  unfold tokens at h
  rcases hscan : scan source with ⟨ts', error⟩
  rw [hscan] at h
  cases error with
  | some e => exact nomatch h
  | none =>
    obtain rfl : ts' = ts := Except.ok.inj h
    rfl

/-- The tokens of a source that the lexer does not refuse are those of its pieces, and the end. -/
theorem exists_tiles {source : String} {ts : List Token} (h : tokens source = .ok ts) :
    ∃ pieces, Tiles [] source.toList pieces ∧
      ts = tokensFrom {} pieces ++ [(Place.after {} (texts pieces)).token .eof] := by
  obtain ⟨pieces, left, halt, htiles, hhalts, hscan⟩ := scanFrom_tiles {} source.toList
  have hscan : (⟨ts, none⟩ : Scan) = ⟨tokensFrom {} pieces ++ halt.tokens, halt.error⟩ :=
    (scan_of_tokens h).symm.trans hscan
  obtain ⟨rfl, herror⟩ := Scan.mk.inj hscan
  cases hhalts with
  | done => exact ⟨pieces, htiles, rfl⟩
  | stopped _ => exact nomatch herror

/-! ### The whole source -/

/-- What the lexemes of some pieces are and where they stand, the first piece at a position. -/
def placed (position : Nat) : List Piece → List (Nat × Lexeme)
  | [] => []
  | piece :: more => (piece.lexeme.map (position, ·)).toList ++
      placed (position + piece.text.length) more

/-- What the lexer makes of a source: the pieces that it cuts, and what is left behind them. -/
structure Tiling (source : List Char) (s : Scan) (pieces : List Piece) (left : List Char) :
    Prop where
  /-- The pieces lie end to end. -/
  whole : source = texts pieces ++ left
  /-- Each is the longest text of any class at its place. -/
  longest : ∀ front piece more, pieces = front ++ piece :: more →
    Longest piece.kind piece.text (piece.text ++ (texts more ++ left))
  /-- Each has a lexeme or is blank, and no whole number among them is too long. -/
  lexemes : ∀ piece ∈ pieces, lexeme? piece.kind piece.text = .ok piece.lexeme ∧
    (piece.kind = .blank ↔ piece.lexeme = none) ∧ (piece.kind = .number → ¬ TooLong piece.text)
  /-- The tokens are the lexemes at their places, and the end where nothing is left. -/
  tokens : s.tokens.map (fun t => (t.position, t.lexeme)) =
    placed 0 pieces ++ if left = [] then [(source.length, .eof)] else []
  /-- Every token has its line and column. -/
  places : ∀ t ∈ s.tokens, Stands source t.position t.line t.column
  /-- There is no error where nothing is left. -/
  done : s.error = none ↔ left = []
  /-- An error stands behind the pieces, and nothing can be cut off there. -/
  stopped : ∀ e, s.error = some e → Stops left e.cause ∧ e.position = (texts pieces).length ∧
    Stands source e.position e.line e.column

section

variable {p : Place} {pre : List Char}

theorem tokensFrom_placed (h : p.Behind pre) (pieces : List Piece) :
    (tokensFrom p pieces).map (fun t => (t.position, t.lexeme)) = placed pre.length pieces := by
  induction pieces generalizing p pre with
  | nil => rfl
  | cons piece more ih =>
    rw [tokensFrom, placed, List.map_append, ih (h.after piece.text), List.length_append]
    cases piece.lexeme with
    | none => rfl
    | some l => simp [Place.token, h.position]

theorem tokensFrom_stands (h : p.Behind pre) (pieces : List Piece) (left : List Char) :
    ∀ t ∈ tokensFrom p pieces, Stands (pre ++ (texts pieces ++ left)) t.position t.line t.column := by
  induction pieces generalizing p pre with
  | nil => exact fun t ht => absurd ht List.not_mem_nil
  | cons piece more ih =>
    have htexts : texts (piece :: more) = piece.text ++ texts more := rfl
    rw [tokensFrom, htexts, List.forall_mem_append]
    constructor
    · cases piece.lexeme with
      | none => exact fun t ht => absurd ht List.not_mem_nil
      | some l => exact List.forall_mem_singleton.2 (h.stands _)
    · have hmore := ih (h.after piece.text)
      simpa only [List.append_assoc] using hmore

end

theorem Tiles.whole {left cs : List Char} {pieces : List Piece} (h : Tiles left cs pieces) :
    cs = texts pieces ++ left := by
  induction h with
  | nil => rfl
  | cons _ _ _ ih => exact (congrArg _ ih).trans (List.append_assoc _ _ _).symm

theorem Tiles.longest {left cs : List Char} {pieces : List Piece} (h : Tiles left cs pieces)
    {front more : List Piece} {piece : Piece} (hsplit : pieces = front ++ piece :: more) :
    Longest piece.kind piece.text (piece.text ++ (texts more ++ left)) := by
  induction h generalizing front with
  | nil => exact absurd hsplit (by simp)
  | cons hlongest _ htiles ih =>
    cases front with
    | nil =>
      obtain ⟨rfl, rfl⟩ := List.cons.inj hsplit
      rwa [htiles.whole] at hlongest
    | cons first front => exact ih (List.cons.inj hsplit).2

theorem Tiles.lexeme {left cs : List Char} {pieces : List Piece} (h : Tiles left cs pieces)
    {piece : Piece} (hpiece : piece ∈ pieces) :
    lexeme? piece.kind piece.text = .ok piece.lexeme := by
  induction h with
  | nil => exact absurd hpiece List.not_mem_nil
  | cons _ hlexeme _ ih =>
    rcases List.mem_cons.1 hpiece with rfl | hpiece
    · exact hlexeme
    · exact ih hpiece

theorem Tiles.lexemes {left cs : List Char} {pieces : List Piece} (h : Tiles left cs pieces)
    {piece : Piece} (hpiece : piece ∈ pieces) :
    lexeme? piece.kind piece.text = .ok piece.lexeme ∧
      (piece.kind = .blank ↔ piece.lexeme = none) ∧
      (piece.kind = .number → ¬ TooLong piece.text) := by
  have hlexeme := h.lexeme hpiece
  refine ⟨hlexeme, ⟨fun hblank => ?_, fun hnone => ?_⟩, fun hnumber => ?_⟩
  · rw [hblank] at hlexeme
    exact (Except.ok.inj hlexeme).symm
  · rw [hnone] at hlexeme
    exact kind_of_lexeme_none hlexeme
  · rw [hnumber] at hlexeme
    exact not_tooLong_of_lexeme? hlexeme

/-- **The lexer tiles its source.** -/
theorem scan_tiling (source : String) :
    ∃ pieces left, Tiling source.toList (scan source) pieces left := by
  obtain ⟨pieces, left, last, htiles, hhalts, hscan⟩ := scanFrom_tiles {} source.toList
  have hscan : scan source = ⟨tokensFrom {} pieces ++ last.tokens, last.error⟩ := hscan
  have hwhole := htiles.whole
  have hbehind : Place.Behind _ (texts pieces) := Place.behind_nil.after (texts pieces)
  have hplaced := tokensFrom_placed Place.behind_nil pieces
  -- The tokens of the pieces stand where they should, and so does whatever comes behind them.
  have hstands : ∀ t ∈ tokensFrom {} pieces, Stands source.toList t.position t.line t.column := by
    rw [hwhole]
    exact tokensFrom_stands Place.behind_nil pieces left
  have hend := hbehind.stands left
  rw [← hwhole] at hend
  refine ⟨pieces, left, ?_⟩
  rw [hscan]
  cases hhalts with
  | done =>
    refine ⟨hwhole, fun _ _ _ => htiles.longest, fun _ => htiles.lexemes, ?_, ?_,
      ⟨fun _ => rfl, fun _ => rfl⟩, fun e he => by cases he⟩
    · have hlength : (Place.after {} (texts pieces)).position = source.toList.length := by
        rw [hbehind.position, hwhole, List.append_nil]
      rw [List.map_append, hplaced, if_pos rfl]
      simp [Place.token, hlength]
    · rw [List.forall_mem_append]
      exact ⟨hstands, List.forall_mem_singleton.2 hend⟩
  | stopped hstops =>
    have hleft : left ≠ [] := by
      cases hstops with
      | unexpected _ => exact List.cons_ne_nil _ _
      | tooLong hlongest hlong =>
        rintro rfl
        exact hlong.digits.ne_nil (List.prefix_nil.1 hlongest.front)
    refine ⟨hwhole, fun _ _ _ => htiles.longest, fun _ => htiles.lexemes, ?_, ?_,
      ⟨fun he => absurd he (Option.some_ne_none _), fun hnil => absurd hnil hleft⟩, ?_⟩
    · rw [List.map_append, hplaced, if_neg hleft]
      rfl
    · rw [List.append_nil]
      exact hstands
    · rintro e he
      obtain rfl := Option.some.inj he
      exact ⟨hstops, hbehind.position, hend⟩

/-- Columns begin anew behind a line break, and of two symbols the longer one is taken. -/
example : (scan "a\n  <=1").tokens.map (fun t => (t.position, t.line, t.column)) =
    [(0, 1, 1), (4, 2, 3), (6, 2, 5), (7, 2, 6)] := by cbv

end LiveForm.Formula
