import Mathlib
import LiveForm.Proofs.Formula.Classes

/-!
# The pieces of a source

A source that can be cut into tokens is a row of pieces, end to end (`Cut`). What stands in a piece,
and what cannot stand right behind it, is said by its class (`Fits`), and whatever the lexer takes
from the front fits its class (`fits_of_front?`).
-/

namespace LiveForm.Formula

open LiveForm.Text

/-- What stands in a piece of each class, given what follows the piece. -/
inductive Fits : Kind → List Char → List Char → Prop
  | blank {piece rest : List Char} : piece ≠ [] → (∀ c ∈ piece, isBlank c = true) →
      Fits .blank piece rest
  | number {piece rest : List Char} : IsNumber piece → Fits .number piece rest
  | text {q : Char} {body rest : List Char} : isQuote q = true → TextBody q body →
      Fits .text (q :: (body ++ [q])) rest
  | word {c : Char} {cs rest : List Char} : startsWord c = true →
      (∀ d ∈ cs, continuesWord d = true) →
      (∀ d, rest.head? = some d → continuesWord d = false) → Fits .word (c :: cs) rest
  | symbol (s : Symbol) {rest : List Char} : Fits (.symbol s) s.spelling.toList rest

/-- What fits a class belongs to it. -/
theorem Fits.belongs {kind : Kind} {piece rest : List Char} (h : Fits kind piece rest) :
    Belongs kind piece := by
  cases h with
  | blank hne hall => exact .blank hne hall
  | number h => exact .number h
  | text hq hbody => exact .text hq hbody
  | word hc hcs _ => exact .word hc hcs
  | symbol s => exact .symbol s

theorem Fits.ne_nil {kind : Kind} {piece rest : List Char} (h : Fits kind piece rest) :
    piece ≠ [] :=
  h.belongs.ne_nil

/-- Whatever is cut off at the front fits its class. -/
theorem fits_of_front? {cs : List Char} {kind : Kind} {n : Nat} (h : front? cs = some (kind, n)) :
    ∃ piece rest, cs = piece ++ rest ∧ piece.length = n ∧ Fits kind piece rest := by
  unfold front? at h
  dsimp only at h
  by_cases hblank : runLength isBlank cs = 0
  · by_cases hnumber : numberLength cs = 0
    · simp only [hblank, hnumber, bne_self_eq_false, Bool.false_eq_true, if_false] at h
      cases cs with
      | nil => exact absurd h (by simp)
      | cons c rest =>
        dsimp only at h
        split_ifs at h with hquote hword
        · obtain ⟨m, hm, hkind⟩ := Option.map_eq_some_iff.1 h
          obtain ⟨rfl, rfl⟩ := Prod.mk.inj hkind
          obtain ⟨body, after, rfl, rfl, hbody⟩ := exists_body hm
          exact ⟨c :: (body ++ [c]), after, by simp, by simp, .text hquote hbody⟩
        · obtain ⟨rfl, rfl⟩ := Prod.mk.inj (Option.some.inj h)
          by_cases hc : startsWord c = true
          · obtain ⟨run, after, rfl, hlength, hrun, hafter⟩ := runLength_split continuesWord rest
            refine ⟨c :: run, after, rfl, ?_, .word hc hrun hafter⟩
            rw [wordLength, if_pos hc, ← hlength, List.length_cons, Nat.add_comm]
          · rw [wordLength, if_neg hc] at hword
            exact absurd hword (by decide)
        · obtain ⟨s, hs, hkind⟩ := Option.map_eq_some_iff.1 h
          obtain ⟨rfl, rfl⟩ := Prod.mk.inj hkind
          rw [symbol?] at hs
          have hprefix := List.find?_some hs
          obtain ⟨after, hafter⟩ := List.isPrefixOf_iff_prefix.1 hprefix
          exact ⟨s.spelling.toList, after, hafter.symm, String.length_toList, .symbol s⟩
    · simp only [hblank, bne_self_eq_false, Bool.false_eq_true, if_false,
        if_pos (bne_iff_ne.2 hnumber)] at h
      obtain ⟨rfl, rfl⟩ := Prod.mk.inj (Option.some.inj h)
      obtain ⟨piece, rest, hcs, hlength, hin⟩ := exists_number hnumber
      exact ⟨piece, rest, hcs, hlength, .number hin⟩
  · rw [if_pos (bne_iff_ne.2 hblank)] at h
    obtain ⟨rfl, rfl⟩ := Prod.mk.inj (Option.some.inj h)
    obtain ⟨run, rest, hcs, hlength, hrun, -⟩ := runLength_split isBlank cs
    refine ⟨run, rest, hcs, hlength, .blank ?_ hrun⟩
    rintro rfl
    exact hblank hlength.symm

/-! ### The lexemes of pieces -/

theorem numberLexeme_eq {piece : List Char} {l : Lexeme} (h : numberLexeme piece = .ok l) :
    ∃ m, l = .number m := by
  unfold numberLexeme at h
  dsimp only at h
  split_ifs at h
  · cases hread : Numeral.read (String.ofList piece) with
    | error e => simp [hread, Except.map] at h
    | ok m =>
      rw [hread] at h
      exact ⟨_, (Except.ok.inj h).symm⟩
  · exact ⟨_, (Except.ok.inj h).symm⟩

/-- Blanks alone have no lexeme. -/
theorem kind_of_lexeme_none {kind : Kind} {piece : List Char}
    (h : lexeme? kind piece = .ok none) : kind = .blank := by
  cases kind with
  | blank => rfl
  | number => cases hnumber : numberLexeme piece <;> simp [lexeme?, hnumber, Except.map] at h
  | _ => simp [lexeme?] at h

/-! ### Cutting a whole source -/

/-- A piece of a source: its class, its characters, and its lexeme if it is no blank. -/
structure Piece where
  kind : Kind
  text : List Char
  lexeme : Option Lexeme

/-- The characters of some pieces. -/
def texts (ps : List Piece) : List Char :=
  ps.flatMap Piece.text

/-- The pieces of a source, end to end. -/
inductive Cut : List Char → List Piece → Prop
  | nil : Cut [] []
  | cons {piece : Piece} {rest : List Char} {more : List Piece} :
      Fits piece.kind piece.text rest → lexeme? piece.kind piece.text = .ok piece.lexeme →
      Cut rest more → Cut (piece.text ++ rest) (piece :: more)

theorem Cut.of_mem {cs : List Char} {pieces : List Piece} (h : Cut cs pieces) {p : Piece}
    (hp : p ∈ pieces) : ∃ rest, Fits p.kind p.text rest ∧
      lexeme? p.kind p.text = .ok p.lexeme := by
  induction h with
  | nil => exact absurd hp List.not_mem_nil
  | cons hfits hlexeme _ ih =>
    rcases List.mem_cons.1 hp with rfl | hp
    · exact ⟨_, hfits, hlexeme⟩
    · exact ih hp

end LiveForm.Formula
