import Mathlib
import LiveForm.Formula.Lexer
import LiveForm.Proofs.Text.Digit

/-!
# Cutting at the front

What the classes of text take from the front of a source, given what stands there: the class is told
by the first character, and it goes on for as long as the characters do. From a source that begins
with a piece that one class takes, the lexeme of the piece comes first and then the tokens of the
rest (`scanFrom_append`).
-/

namespace LiveForm.Formula

open LiveForm.Text

/-! ### Characters -/

theorem startsWord_iff {c : Char} : startsWord c = true ↔
    65 ≤ c.toNat ∧ c.toNat ≤ 90 ∨ 97 ≤ c.toNat ∧ c.toNat ≤ 122 ∨ c.toNat = 95 ∨ c.toNat = 36 := by
  have hval : ∀ d : Char, c = d ↔ c.toNat = d.toNat := fun d => Char.toNat_inj.symm
  simp only [startsWord, Char.isAlpha, Char.isUpper, Char.isLower, Bool.or_eq_true,
    Bool.and_eq_true, decide_eq_true_eq, ge_iff_le, UInt32.le_iff_toNat_le, beq_iff_eq, hval]
  simp
  omega

theorem continuesWord_iff {c : Char} : continuesWord c = true ↔
    startsWord c = true ∨ 48 ≤ c.toNat ∧ c.toNat ≤ 57 := by
  rw [continuesWord, Bool.or_eq_true, isDigit_iff]

theorem isBlank_of_startsWord {c : Char} (h : startsWord c = true) : isBlank c = false := by
  have hc := startsWord_iff.1 h
  simp [isBlank, blankRanges, inRanges]
  omega

theorem startsWord_of_isDigit {c : Char} (h : isDigit c = true) : startsWord c = false := by
  rw [Bool.eq_false_iff, Ne, startsWord_iff]
  intro hcode
  rw [isDigit_eq_false (by omega)] at h
  exact absurd h (by simp)

theorem isQuote_iff {c : Char} : isQuote c = true ↔ c = '"' ∨ c = singleQuote := by
  simp [isQuote]

/-! ### Runs -/

theorem runLength_append {p : Char → Bool} {xs rest : List Char} (hxs : ∀ c ∈ xs, p c = true)
    (hrest : ∀ c, rest.head? = some c → p c = false) : runLength p (xs ++ rest) = xs.length := by
  induction xs with
  | nil =>
    cases rest with
    | nil => rfl
    | cons c rest => simp [runLength, hrest c rfl]
  | cons x xs ih =>
    have hmore := ih fun c hc => hxs c (List.mem_cons_of_mem _ hc)
    simpa [runLength, hxs x List.mem_cons_self] using hmore

theorem runLength_cons_of_not {p : Char → Bool} {c : Char} (h : p c = false) (rest : List Char) :
    runLength p (c :: rest) = 0 := by
  simp [runLength, h]

/-! ### The class at the front -/

/-- No number begins with a character that is neither a digit nor a point. -/
theorem numberLength_cons {c : Char} (hdigit : isDigit c = false) (hpoint : c ≠ '.')
    (rest : List Char) : numberLength (c :: rest) = 0 := by
  have hfraction : fractionLength (c :: rest) = 0 := by
    unfold fractionLength
    split
    · next h => exact absurd (List.cons.inj h).1 hpoint
    · rfl
  simp [numberLength, runLength_cons_of_not hdigit, hfraction]

/-- A word goes as far as its characters do. -/
theorem front?_word {c : Char} {cs rest : List Char} (hc : startsWord c = true)
    (hcs : ∀ d ∈ cs, continuesWord d = true)
    (hrest : ∀ d, rest.head? = some d → continuesWord d = false) :
    front? (c :: cs ++ rest) = some (.word, (c :: cs).length) := by
  have hcode := startsWord_iff.1 hc
  have hblanks : runLength isBlank (c :: (cs ++ rest)) = 0 :=
    runLength_cons_of_not (isBlank_of_startsWord hc) _
  have hdigits : numberLength (c :: (cs ++ rest)) = 0 := by
    refine numberLength_cons (isDigit_eq_false (by omega)) ?_ _
    rintro rfl
    exact absurd hc (by decide)
  have hquote : isQuote c = false := by
    rw [Bool.eq_false_iff]
    intro hq
    rcases isQuote_iff.1 hq with rfl | rfl <;> exact absurd hc (by decide)
  have hletters : wordLength (c :: (cs ++ rest)) = cs.length + 1 := by
    rw [wordLength, if_pos hc, runLength_append hcs hrest, Nat.add_comm]
  simp [front?, hblanks, hdigits, hquote, hletters]

/-- A quoted text goes as far as its closing quote. -/
theorem front?_text {q : Char} {cs : List Char} {n : Nat} (hq : isQuote q = true)
    (hn : textLength? q cs = some n) : front? (q :: cs) = some (.text, n + 1) := by
  have hcode : isBlank q = false ∧ isDigit q = false ∧ q ≠ '.' := by
    rcases isQuote_iff.1 hq with rfl | rfl <;> decide
  obtain ⟨hblank, hdigit, hpoint⟩ := hcode
  simp [front?, runLength_cons_of_not hblank, numberLength_cons hdigit hpoint, hq, hn]

/-- A run of digits is a number, if no point or exponent goes on with it. -/
theorem front?_digits {c : Char} {cs rest : List Char} (hc : c.isDigit = true)
    (hcs : ∀ d ∈ cs, d.isDigit = true)
    (hrest : ∀ d, rest.head? = some d → isDigit d = false ∧ d ≠ '.' ∧ d ≠ 'e' ∧ d ≠ 'E') :
    front? (c :: cs ++ rest) = some (.number, (c :: cs).length) := by
  have hdigits : ∀ d ∈ c :: cs, isDigit d = true := by
    intro d hd
    have hd' : d.isDigit = true := by
      rcases List.mem_cons.1 hd with rfl | hd
      · exact hc
      · exact hcs d hd
    exact isDigit_of_ascii hd'
  have hwhole : runLength isDigit (c :: cs ++ rest) = (c :: cs).length :=
    runLength_append hdigits fun d hd => (hrest d hd).1
  have hfraction : fractionLength rest = 0 := by
    unfold fractionLength
    split
    · next h => exact absurd rfl (hrest '.' rfl).2.1
    · rfl
  have hexponent : exponentLength rest = 0 := by
    cases rest with
    | nil => rfl
    | cons d rest =>
      obtain ⟨-, -, he, hE⟩ := hrest d rfl
      simp [exponentLength, he, hE]
  have hnumber : numberLength (c :: (cs ++ rest)) = cs.length + 1 := by
    rw [← List.cons_append, numberLength]
    simp only [hwhole, List.drop_left, hfraction]
    simp [hexponent]
  have hblanks : runLength isBlank (c :: (cs ++ rest)) = 0 :=
    runLength_cons_of_not (isBlank_of_isDigit (isDigit_of_ascii hc)) _
  simp [front?, hblanks, hnumber]

/-- A single blank goes no further than the next character that is none. -/
theorem front?_space {rest : List Char} (hrest : ∀ d, rest.head? = some d → isBlank d = false) :
    front? (' ' :: rest) = some (.blank, 1) := by
  have hblanks : runLength isBlank ([' '] ++ rest) = [' '].length :=
    runLength_append (List.forall_mem_singleton.2 (by decide)) hrest
  have hblanks : runLength isBlank (' ' :: rest) = 1 := hblanks
  simp [front?, hblanks]

/-- A symbol at the end of the source, or before a space, is taken whole. -/
theorem front?_symbol (s : Symbol) {rest : List Char}
    (hrest : rest = [] ∨ ∃ more, rest = ' ' :: more) :
    front? (s.spelling.toList ++ rest) = some (.symbol s, s.spelling.toList.length) := by
  rcases hrest with rfl | ⟨more, rfl⟩ <;> cases s <;> rfl

/-! ### Cutting off a piece -/

/-- A piece that one class takes is cut from the front. -/
theorem scanFrom_front (p : Place) {kind : Kind} {piece rest : List Char} (hpiece : piece ≠ [])
    (hfront : front? (piece ++ rest) = some (kind, piece.length)) :
    scanFrom p (piece ++ rest) =
      match lexeme? kind piece with
      | .error e => ⟨[], some (p.error (.badNumber e))⟩
      | .ok found =>
        ⟨(found.map p.token).toList ++ (scanFrom (p.after piece) rest).tokens,
          (scanFrom (p.after piece) rest).error⟩ := by
  cases piece with
  | nil => exact absurd rfl hpiece
  | cons c cs =>
    have hfront' : front? (c :: (cs ++ rest)) = some (kind, cs.length + 1) := hfront
    rw [List.cons_append, scanFrom]
    cases hfound : lexeme? kind (c :: cs) <;>
      simp only [hfront', Nat.add_sub_cancel, List.take_left, List.drop_left, hfound]

/-- The tokens of a source that begins with a piece that one class takes: the piece comes first, and
the rest is cut from the place behind it. -/
theorem scanFrom_append (p : Place) {kind : Kind} {piece rest : List Char} {found : Option Lexeme}
    (hpiece : piece ≠ []) (hfront : front? (piece ++ rest) = some (kind, piece.length))
    (hfound : lexeme? kind piece = .ok found) :
    scanFrom p (piece ++ rest) =
      ⟨(found.map p.token).toList ++ (scanFrom (p.after piece) rest).tokens,
        (scanFrom (p.after piece) rest).error⟩ := by
  rw [scanFrom_front p hpiece hfront, hfound]

/-- Nothing is cut from a piece that has no lexeme. -/
theorem scanFrom_append_of_error (p : Place) {kind : Kind} {piece rest : List Char}
    {e : NumberError} (hpiece : piece ≠ [])
    (hfront : front? (piece ++ rest) = some (kind, piece.length))
    (hfound : lexeme? kind piece = .error e) :
    scanFrom p (piece ++ rest) = ⟨[], some (p.error (.badNumber e))⟩ := by
  rw [scanFrom_front p hpiece hfront, hfound]

end LiveForm.Formula
