import Mathlib
import LiveForm.Proofs.Formula.Pieces

/-!
# The longest piece at the front

Of all texts of all classes at the front of a source, the lexer takes the longest (`front?_longest`),
and it takes none only where no class has a text (`not_belongs_of_front?`). Two classes meet at a
point alone, which begins a number if a digit follows; among symbols the longer ones are tried
first.
-/

namespace LiveForm.Formula

open LiveForm.Text

/-- The piece is the longest text of any class at the front of the characters. -/
structure Longest (kind : Kind) (piece cs : List Char) : Prop where
  belongs : Belongs kind piece
  front : piece <+: cs
  longest : ∀ other text, Belongs other text → text <+: cs → text.length ≤ piece.length

/-- No word goes on behind the longest one. -/
theorem Longest.fits {kind : Kind} {piece rest : List Char}
    (h : Longest kind piece (piece ++ rest)) : Fits kind piece rest := by
  cases h.belongs with
  | blank hne hall => exact .blank hne hall
  | number hnumber => exact .number hnumber
  | text hq hbody => exact .text hq hbody
  | @word c cs hc hcs =>
    refine .word hc hcs fun d hd => ?_
    by_contra hmore
    obtain ⟨more, rfl⟩ := List.head?_eq_some_iff.1 hd
    have hlonger : Belongs .word (c :: (cs ++ [d])) := by
      refine .word hc ?_
      rw [List.forall_mem_append, List.forall_mem_singleton]
      exact ⟨hcs, by simpa using hmore⟩
    have hle := h.longest _ _ hlonger ⟨more, by simp⟩
    simp at hle
  | symbol s => exact .symbol s

/-! ### Symbols -/

theorem Symbol.mem_all (s : Symbol) : s ∈ Symbol.all := by
  cases s <;> decide

theorem Symbol.all_descend :
    Symbol.all.Pairwise fun s t => t.spelling.toList.length ≤ s.spelling.toList.length := by
  decide

/-- No symbol at the front is longer than the one that is taken. -/
theorem symbol?_longest {s : Symbol} {cs : List Char} (h : s.spelling.toList <+: cs) :
    ∃ t, symbol? cs = some t ∧ s.spelling.toList.length ≤ t.spelling.toList.length := by
  have hs : s.spelling.toList.isPrefixOf cs = true := List.isPrefixOf_iff_prefix.2 h
  obtain ⟨t, ht⟩ : ∃ t, symbol? cs = some t := by
    rw [symbol?, ← Option.isSome_iff_exists, List.find?_isSome]
    exact ⟨s, Symbol.mem_all s, hs⟩
  refine ⟨t, ht, ?_⟩
  obtain ⟨-, tried, others, hall, htried⟩ := List.find?_eq_some_iff_append.1 ht
  have hmem := Symbol.mem_all s
  have hdescend := Symbol.all_descend
  rw [hall] at hmem hdescend
  rcases List.mem_append.1 hmem with hmem | hmem
  · have hnot := htried s hmem
    rw [hs] at hnot
    exact absurd hnot (by simp)
  · rcases List.mem_cons.1 hmem with rfl | hmem
    · exact Nat.le_refl _
    · exact (List.pairwise_cons.1 (List.pairwise_append.1 hdescend).2.1).1 s hmem

/-! ### Which class is taken -/

theorem front?_blank {cs : List Char} (h : runLength isBlank cs ≠ 0) :
    front? cs = some (.blank, runLength isBlank cs) := by
  simp [front?, h]

theorem front?_number {cs : List Char} (hblank : runLength isBlank cs = 0)
    (h : numberLength cs ≠ 0) : front? cs = some (.number, numberLength cs) := by
  simp [front?, hblank, h]

/-- Where neither blanks nor a number stand, a character that starts no word and is no quote starts
a symbol, if anything. -/
theorem front?_symbol_of_cons {c : Char} {rest : List Char} (hblank : isBlank c = false)
    (hnumber : numberLength (c :: rest) = 0) (hquote : isQuote c = false)
    (hword : startsWord c = false) : front? (c :: rest) =
      (symbol? (c :: rest)).map fun s => (.symbol s, s.spelling.length) := by
  simp [front?, runLength_cons_of_not hblank, hnumber, hquote, wordLength, hword]

/-- Whatever belongs to a class at the front, the lexer takes as much or more. -/
theorem Belongs.le_front? {kind : Kind} {text : List Char} (h : Belongs kind text)
    (rest : List Char) : ∃ taken n, front? (text ++ rest) = some (taken, n) ∧ text.length ≤ n := by
  cases h with
  | blank hne hall =>
    have hle := le_runLength hall rest
    have hpos := List.length_pos_iff.2 hne
    exact ⟨_, _, front?_blank (by omega), hle⟩
  | number h =>
    have hle := le_numberLength h rest
    obtain ⟨d, ds, rfl, hd⟩ := h.exists_cons
    have hblank : isBlank d = false := by
      rcases hd with hd | rfl
      · exact isBlank_of_isDigit hd
      · decide
    rw [List.length_cons] at hle
    exact ⟨_, _, front?_number (runLength_cons_of_not hblank _) (by omega), hle⟩
  | @text q body hq hbody =>
    have htext := textLength?_of_body hq hbody rest
    have hsplit : q :: (body ++ [q]) ++ rest = q :: (body ++ q :: rest) := by simp
    rw [hsplit]
    exact ⟨_, _, front?_text hq htext, by simp⟩
  | @word c cs hc hcs =>
    obtain ⟨run, behind, hrun, hlength, hall, hbehind⟩ := runLength_split continuesWord (cs ++ rest)
    have hle := le_runLength hcs rest
    rw [List.cons_append, hrun, ← List.cons_append]
    refine ⟨_, _, front?_word hc hall hbehind, ?_⟩
    rw [List.length_cons, List.length_cons, hlength]
    exact Nat.succ_le_succ hle
  | symbol s =>
    obtain ⟨t, ht, hle⟩ := symbol?_longest (List.prefix_append s.spelling.toList rest)
    obtain ⟨c, cs, hcons, hblank, hdigit, hquote, hword, hdot⟩ := Symbol.exists_cons s
    have hblanks : runLength isBlank (s.spelling.toList ++ rest) = 0 := by
      rw [hcons]
      exact runLength_cons_of_not hblank _
    by_cases hnumber : numberLength (s.spelling.toList ++ rest) = 0
    · rw [hcons, List.cons_append] at hnumber ht ⊢
      rw [front?_symbol_of_cons hblank hnumber hquote hword, ht]
      refine ⟨_, _, rfl, ?_⟩
      rwa [← hcons, ← String.length_toList]
    · -- Of the symbols only the dot begins a number.
      have hlone : s = .dot := by
        by_contra hs
        refine hnumber ?_
        rw [hcons, List.cons_append]
        exact numberLength_cons hdigit (fun hc => hs (hdot hc)) _
      refine ⟨_, _, front?_number hblanks hnumber, ?_⟩
      subst hlone
      exact Nat.one_le_iff_ne_zero.2 hnumber

/-- What the lexer takes from the front is the longest text of any class there. -/
theorem front?_longest {cs : List Char} {kind : Kind} {n : Nat} (h : front? cs = some (kind, n)) :
    ∃ piece rest, cs = piece ++ rest ∧ piece.length = n ∧ Longest kind piece cs := by
  obtain ⟨piece, rest, rfl, rfl, hfits⟩ := fits_of_front? h
  refine ⟨piece, rest, rfl, rfl, hfits.belongs, List.prefix_append _ _, ?_⟩
  rintro other text htext ⟨behind, hsplit⟩
  obtain ⟨taken, n, hfront, hle⟩ := htext.le_front? behind
  rw [hsplit, h] at hfront
  obtain ⟨rfl, rfl⟩ := Prod.mk.inj (Option.some.inj hfront)
  exact hle

/-- Where the lexer takes nothing, no class has a text. -/
theorem not_belongs_of_front? {cs : List Char} (h : front? cs = none) (kind : Kind)
    (text : List Char) (htext : Belongs kind text) : ¬ text <+: cs := by
  rintro ⟨rest, rfl⟩
  obtain ⟨taken, n, hfront, -⟩ := htext.le_front? rest
  rw [h] at hfront
  exact absurd hfront (by simp)

end LiveForm.Formula
