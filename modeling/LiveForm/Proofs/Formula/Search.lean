import Mathlib
import LiveForm.Formula.Reads
import LiveForm.Proofs.Formula.Cuts

/-!
# The search for names in a text

The search goes over the bare text of a source, with its own idea of where words and quoted texts
begin and end. It begins anew behind every character that belongs to no word
(`occurrences_append`), and of quoted texts it sees those that the lexer sees (`quotedSpans_text`).
-/

namespace LiveForm.Formula

open LiveForm.Text

/-! ### Characters apart from words -/

/-- A character that belongs to no word, for the lexer and for the search alike. -/
def Apart (c : Char) : Prop :=
  isWord c = false ∧ continuesWord c = false

theorem apart_of_isQuote {c : Char} (h : isQuote c = true) : Apart c := by
  rcases isQuote_iff.1 h with rfl | rfl <;> exact ⟨by decide, by decide⟩

theorem apart_of_symbol {s : Symbol} {c : Char} (h : c ∈ s.spelling.toList) : Apart c := by
  have hall : s.spelling.toList.all (fun c => !isWord c && !continuesWord c) = true := by
    cases s <;> rfl
  simpa [Apart] using List.all_eq_true.1 hall c h

theorem isWord_iff_of_ascii {c : Char} (h : c.toNat < 128) : isWord c = true ↔
    48 ≤ c.toNat ∧ c.toNat ≤ 57 ∨ 65 ≤ c.toNat ∧ c.toNat ≤ 90 ∨ 97 ≤ c.toNat ∧ c.toNat ≤ 122 ∨
      c.toNat = 95 := by
  have hunder : c = '_' ↔ c.toNat = 95 := Char.toNat_inj.symm
  rw [isWord, if_pos h]
  simp [Char.isAlphanum, Char.isAlpha, Char.isUpper, Char.isLower, isDigit_iff,
    UInt32.le_iff_toNat_le, hunder]
  omega

theorem apart_of_isBlank {c : Char} (h : isBlank c = true) : Apart c := by
  have hcode : c.toNat ≤ 0x20 ∨ c.toNat ∈ [0x85, 0xa0, 0x1680, 0x2000, 0x2001, 0x2002, 0x2003,
      0x2004, 0x2005, 0x2006, 0x2007, 0x2008, 0x2009, 0x200a, 0x2028, 0x2029, 0x202f, 0x205f,
      0x3000] := by
    simp [isBlank, blankRanges, inRanges] at h
    simp
    omega
  have hcontinues : continuesWord c = false := by
    rw [Bool.eq_false_iff, Ne, continuesWord_iff, startsWord_iff]
    simp at hcode
    omega
  refine ⟨?_, hcontinues⟩
  rcases hcode with hsmall | hlarge
  · rw [Bool.eq_false_iff, Ne, isWord_iff_of_ascii (by omega)]
    omega
  · have hranges : ∀ n ∈ [0x85, 0xa0, 0x1680, 0x2000, 0x2001, 0x2002, 0x2003, 0x2004, 0x2005,
        0x2006, 0x2007, 0x2008, 0x2009, 0x200a, 0x2028, 0x2029, 0x202f, 0x205f, 0x3000],
        ¬n < 128 ∧ inRanges wordRanges n = false := by decide +kernel
    obtain ⟨hlarge, hnot⟩ := hranges _ hlarge
    rw [isWord, if_neg hlarge, hnot]

theorem isWord_of_continuesWord {c : Char} (h : continuesWord c = true) (hc : c ≠ '$') :
    isWord c = true := by
  have hcode : c.toNat ≠ 36 := fun hcode => hc (Char.toNat_inj.1 hcode)
  rw [continuesWord_iff, startsWord_iff] at h
  rw [isWord_iff_of_ascii (by omega)]
  omega

/-! ### The words of a text -/

theorem boundedLength_le (cs : List Char) (n : Nat) : boundedLength cs n ≤ n := by
  induction n with
  | zero => exact Nat.le_refl 0
  | succ n ih =>
    rw [boundedLength]
    split_ifs
    · exact Nat.le_refl _
    · exact Nat.le_succ_of_le ih

theorem nameLength_le (before : Option Char) (cs : List Char) :
    nameLength before cs ≤ wordLength cs := by
  rw [nameLength]
  split_ifs
  · exact boundedLength_le cs _
  · exact Nat.zero_le _

/-- A run ends before the last of some characters, if that one does not go on with it. -/
theorem runLength_lt {p : Char → Bool} {xs : List Char} {c : Char} (h : xs.getLast? = some c)
    (hc : p c = false) (rest : List Char) : runLength p (xs ++ rest) < xs.length := by
  induction xs with
  | nil => exact absurd h (by simp)
  | cons x xs ih =>
    by_cases hx : p x = true
    · cases xs with
      | nil =>
        obtain rfl : x = c := by simpa using h
        exact absurd hx (by simp [hc])
      | cons y ys =>
        have hmore := ih (by simpa using h)
        rw [List.cons_append, runLength, List.takeWhile_cons_of_pos hx]
        exact Nat.succ_lt_succ hmore
    · rw [List.cons_append, runLength_cons_of_not (by simpa using hx)]
      exact Nat.succ_pos _

/-- No name goes over the last of some characters, if that one belongs to no word. -/
theorem wordLength_le {xs : List Char} {c : Char} (h : xs.getLast? = some c)
    (hc : continuesWord c = false) (rest : List Char) : wordLength (xs ++ rest) ≤ xs.length := by
  cases xs with
  | nil => exact absurd h (by simp)
  | cons x xs =>
    rw [List.cons_append, wordLength]
    split_ifs with hx
    · cases xs with
      | nil =>
        obtain rfl : x = c := by simpa using h
        simp [continuesWord, hx] at hc
      | cons y ys =>
        have hlast : (y :: ys).getLast? = some c := by simpa using h
        have hrun := runLength_lt hlast hc rest
        rw [List.length_cons, Nat.add_comm]
        exact Nat.succ_le_succ hrun.le
    · exact Nat.zero_le _

/-- The search begins anew behind a character that belongs to no word, and what it has found before
begins before. -/
theorem occurrences_append (before pre rest : List Char)
    (h : ∀ c, pre.getLast? = some c → continuesWord c = false) :
    ∃ os, occurrences before (pre ++ rest) = os ++ occurrences (pre.reverse ++ before) rest ∧
      ∀ o ∈ os, before.length ≤ o.before.length ∧
        o.before.length < before.length + pre.length := by
  induction hlength : pre.length using Nat.strong_induction_on generalizing before pre with
  | _ n ih =>
  cases pre with
  | nil => exact ⟨[], rfl, by simp⟩
  | cons c pre =>
    -- What is left of the characters behind some of them ends as they do.
    have hleft : ∀ k d, (pre.drop k).getLast? = some d → continuesWord d = false := by
      intro k d hd
      refine h d ?_
      obtain ⟨front, hfront⟩ := List.drop_suffix k pre
      rw [← hfront, ← List.cons_append, List.getLast?_append, hd]
      rfl
    rw [List.length_cons] at hlength
    rw [List.cons_append, occurrences]
    split
    · obtain ⟨os, hos, hin⟩ := ih _ (by omega) (c :: before) pre (hleft 0) rfl
      refine ⟨os, by rw [hos, List.reverse_cons, List.append_assoc]; rfl, fun o ho => ?_⟩
      have hbounds := hin o ho
      rw [List.length_cons] at hbounds
      omega
    · next k hk =>
      obtain ⟨d, hd⟩ : ∃ d, (c :: pre).getLast? = some d := ⟨_, List.getLast?_cons⟩
      have hle : k ≤ pre.length := by
        have hword := wordLength_le hd (h d hd) rest
        have hname := nameLength_le before.head? (c :: (pre ++ rest))
        rw [List.cons_append] at hword
        rw [List.length_cons] at hword
        omega
      have hshort : (pre.drop k).length = pre.length - k := List.length_drop
      obtain ⟨os, hos, hin⟩ := ih _ (by omega) ((c :: pre.take k).reverse ++ before) (pre.drop k)
        (hleft k) rfl
      dsimp only
      rw [List.take_append_of_le_length hle, List.drop_append_of_le_length hle, hos]
      refine ⟨⟨before, c :: pre.take k, pre.drop k ++ rest⟩ :: os, ?_, ?_⟩
      · rw [List.cons_append, ← List.append_assoc, ← List.reverse_append, List.cons_append,
          List.take_append_drop]
      · rw [List.forall_mem_cons]
        refine ⟨⟨Nat.le_refl _, by dsimp only; omega⟩, fun o ho => ?_⟩
        have hbounds := hin o ho
        rw [List.length_append, List.length_reverse, List.length_cons, List.length_take] at hbounds
        omega

theorem inWord_of_apart {o : Option Char} (h : ∀ d, o = some d → Apart d) : inWord o = false := by
  cases o with
  | none => rfl
  | some d => exact (h d rfl).1

/-- A name between characters of no words, with no dollar sign at its edges, is found. -/
theorem occurrences_word {before cs post : List Char} {c : Char} (hc : startsWord c = true)
    (hcs : ∀ d ∈ cs, continuesWord d = true) (hfirst : c ≠ '$')
    (hlast : (c :: cs).getLast? ≠ some '$') (hfront : inWord before.head? = false)
    (hpost : ∀ d, post.head? = some d → continuesWord d = false)
    (hback : inWord post.head? = false) :
    occurrences before (c :: cs ++ post) =
      ⟨before, c :: cs, post⟩ :: occurrences ((c :: cs).reverse ++ before) post := by
  have hword : wordLength (c :: cs ++ post) = cs.length + 1 := by
    rw [List.cons_append, wordLength, if_pos hc, runLength_append hcs hpost, Nat.add_comm]
  have hin : inWord (c :: cs ++ post).head? = true :=
    isWord_of_continuesWord (by simp [continuesWord, hc]) hfirst
  have hend : inWord (c :: cs ++ post)[cs.length]? = true := by
    have hget : (c :: cs ++ post)[cs.length]? = (c :: cs).getLast? := by
      rw [List.getElem?_append_left (by simp), List.getLast?_eq_getElem?]
      rfl
    cases hl : (c :: cs).getLast? with
    | none => exact absurd hl (by simp)
    | some d =>
      have hd : continuesWord d = true := by
        rcases List.mem_cons.1 (List.mem_of_getLast? hl) with rfl | hd
        · simp [continuesWord, hc]
        · exact hcs d hd
      rw [hget, hl]
      exact isWord_of_continuesWord hd fun hdollar => hlast (hdollar ▸ hl)
  have hbehind : inWord (c :: cs ++ post)[cs.length + 1]? = false := by
    have hget : (c :: cs ++ post)[cs.length + 1]? = post.head? := by
      rw [List.getElem?_append_right (by simp), List.head?_eq_getElem?]
      simp
    rw [hget, hback]
  have hname : nameLength before.head? (c :: cs ++ post) = cs.length + 1 := by
    rw [nameLength, hfront, hin, hword, boundedLength, hend, hbehind]
    rfl
  rw [List.cons_append] at hname ⊢
  rw [occurrences, hname]
  dsimp only
  rw [List.take_left, List.drop_left]

/-! ### Where nothing is found -/

/-- No name begins in the characters, given the one before them: none of them starts a word, unless
it goes on with a word that has begun. -/
def Quiet : Option Char → List Char → Prop
  | _, [] => True
  | before, c :: cs =>
    (startsWord c = false ∨ inWord before = true ∧ isWord c = true) ∧ Quiet (some c) cs

theorem quiet_append {before : Option Char} {xs ys : List Char} (hxs : Quiet before xs)
    (hys : Quiet (xs.getLast?.or before) ys) : Quiet before (xs ++ ys) := by
  induction xs generalizing before with
  | nil => exact hys
  | cons x xs ih =>
    refine ⟨hxs.1, ih hxs.2 ?_⟩
    cases xs with
    | nil => exact hys
    | cons y xs => simpa [List.getLast?_cons] using hys

theorem quiet_of_not_startsWord {cs : List Char} (h : ∀ c ∈ cs, startsWord c = false)
    (before : Option Char) : Quiet before cs := by
  induction cs generalizing before with
  | nil => exact trivial
  | cons c cs ih =>
    rw [List.forall_mem_cons] at h
    exact ⟨Or.inl h.1, ih h.2 _⟩

theorem quiet_of_isWord {before : Option Char} (hbefore : inWord before = true) {cs : List Char}
    (h : ∀ c ∈ cs, isWord c = true) : Quiet before cs := by
  induction cs generalizing before with
  | nil => exact trivial
  | cons c cs ih =>
    rw [List.forall_mem_cons] at h
    exact ⟨Or.inr ⟨hbefore, h.1⟩, ih h.1 h.2⟩

theorem occurrences_cons {before rest : List Char} {c : Char}
    (h : nameLength before.head? (c :: rest) = 0) :
    occurrences before (c :: rest) = occurrences (c :: before) rest := by
  rw [occurrences, h]

theorem occurrences_quiet {before piece : List Char} (h : Quiet before.head? piece)
    (rest : List Char) :
    occurrences before (piece ++ rest) = occurrences (piece.reverse ++ before) rest := by
  induction piece generalizing before with
  | nil => rfl
  | cons c piece ih =>
    have hnone : nameLength before.head? (c :: (piece ++ rest)) = 0 := by
      rcases h.1 with hstart | ⟨hbefore, hc⟩
      · refine Nat.eq_zero_of_le_zero ((nameLength_le _ _).trans ?_)
        rw [wordLength, hstart]
        exact Nat.le_refl 0
      · have hin : inWord (c :: (piece ++ rest)).head? = true := hc
        rw [nameLength, hbefore, hin]
        rfl
    have hmore := @ih (c :: before) h.2
    rw [List.cons_append, occurrences_cons hnone, hmore, List.reverse_cons, List.append_assoc]
    rfl

theorem boundedLength_eq_zero {cs : List Char} {n : Nat}
    (h : ∀ i ≤ n, inWord cs[i]? = true) : boundedLength cs n = 0 := by
  induction n with
  | zero => rfl
  | succ n ih =>
    rw [boundedLength, h n (Nat.le_succ n), h (n + 1) (Nat.le_refl _)]
    exact ih fun i hi => h i (Nat.le_succ_of_le hi)

/-- Of a word without a dollar sign nothing is found but the whole word. -/
theorem occurrences_of_word {before cs post : List Char} {c : Char} (hc : startsWord c = true)
    (hcs : ∀ d ∈ cs, continuesWord d = true) (hdollar : '$' ∉ c :: cs)
    (hpost : ∀ d, post.head? = some d → continuesWord d = false) :
    ∃ os, occurrences before (c :: cs ++ post) =
        os ++ occurrences ((c :: cs).reverse ++ before) post ∧
      ∀ o ∈ os, o = ⟨before, c :: cs, post⟩ := by
  have hall : ∀ d ∈ c :: cs, isWord d = true := by
    intro d hd
    refine isWord_of_continuesWord ?_ fun h => hdollar (h ▸ hd)
    rcases List.mem_cons.1 hd with rfl | hd
    · simp [continuesWord, hc]
    · exact hcs d hd
  have hwords := List.forall_mem_cons.1 hall
  by_cases hbefore : inWord before.head? = true
  · exact ⟨[], occurrences_quiet (quiet_of_isWord hbefore hall) post, by simp⟩
  by_cases hafter : inWord post.head? = true
  · -- The word goes on behind its end, so it ends at no boundary.
    have hnone : nameLength before.head? (c :: (cs ++ post)) = 0 := by
      have hword : wordLength (c :: (cs ++ post)) = cs.length + 1 := by
        rw [wordLength, if_pos hc, runLength_append hcs hpost, Nat.add_comm]
      rw [nameLength, hword]
      split_ifs
      · refine boundedLength_eq_zero fun i hi => ?_
        rw [← List.cons_append]
        rcases Nat.lt_or_eq_of_le hi with hlt | rfl
        · rw [List.getElem?_append_left (by simpa using hlt)]
          obtain ⟨d, hd⟩ : ∃ d, (c :: cs)[i]? = some d :=
            ⟨_, List.getElem?_eq_getElem (by simpa using hlt)⟩
          rw [hd]
          exact hall d (List.mem_of_getElem? hd)
        · rw [List.getElem?_append_right (by simp)]
          simpa [List.head?_eq_getElem?] using hafter
      · rfl
    refine ⟨[], ?_, by simp⟩
    have hin : inWord (c :: before).head? = true := hwords.1
    have hquiet := quiet_of_isWord hin hwords.2
    rw [List.cons_append, occurrences_cons hnone, occurrences_quiet hquiet, List.reverse_cons,
      List.append_assoc]
    rfl
  · have hfirst : c ≠ '$' := fun h => hdollar (h ▸ List.mem_cons_self)
    have hlast : (c :: cs).getLast? ≠ some '$' := fun h => hdollar (List.mem_of_getLast? h)
    exact ⟨[_], occurrences_word hc hcs hfirst hlast (by simpa using hbefore) hpost
      (by simpa using hafter), by simp⟩

/-! ### The quoted texts -/

/-- A quoted text that ends for the lexer ends at the same place for the search. -/
theorem spanLength_eq {q : Char} (hq : isQuote q = true) {cs : List Char} {n : Nat}
    (h : textLength? q cs = some n) : spanLength q cs = n := by
  induction cs using textLength?.induct q generalizing n with
  | case1 => exact absurd h (by simp [textLength?])
  | case2 rest => exact absurd h (by simp [textLength?])
  | case3 c rest hbreak ih =>
    rw [textLength?.eq_3 q c rest hbreak] at h
    obtain ⟨m, hm, rfl⟩ := Option.map_eq_some_iff.1 h
    rw [spanLength.eq_4 q c rest hbreak, ih hm]
  | case4 c rest hback₁ hback₂ hc =>
    rw [textLength?.eq_4 q c rest hback₁ hback₂, if_pos hc] at h
    have halone : c = '\\' → rest = [] → False := by
      rintro rfl -
      rw [← eq_of_beq hc] at hq
      exact absurd hq (by decide)
    rw [spanLength.eq_5 q c rest halone hback₁ hback₂, if_pos hc]
    exact Option.some.inj h
  | case5 c rest hback₁ hback₂ hc ih =>
    rw [textLength?.eq_4 q c rest hback₁ hback₂, if_neg hc] at h
    obtain ⟨m, hm, rfl⟩ := Option.map_eq_some_iff.1 h
    have halone : c = '\\' → rest = [] → False := by
      rintro - rfl
      exact absurd hm (by simp [textLength?])
    rw [spanLength.eq_5 q c rest halone hback₁ hback₂, if_neg hc, ih hm]

/-- Quoted texts begin at quotes only. -/
theorem quotedSpans_append {piece : List Char} (h : ∀ c ∈ piece, isQuote c = false)
    (position : Nat) (rest : List Char) :
    quotedSpans position (piece ++ rest) = quotedSpans (position + piece.length) rest := by
  induction piece generalizing position with
  | nil => rfl
  | cons c piece ih =>
    rw [List.cons_append, quotedSpans, if_neg (by simp [h c List.mem_cons_self]),
      ih (fun d hd => h d (List.mem_cons_of_mem _ hd)), List.length_cons]
    congr 1
    omega

/-- A text in quotes is one quoted text for the search. -/
theorem quotedSpans_text {q : Char} (hq : isQuote q = true) {body rest : List Char}
    (h : textLength? q (body ++ q :: rest) = some (body.length + 1)) (position : Nat) :
    quotedSpans position (q :: (body ++ [q]) ++ rest) =
      (position, position + (q :: (body ++ [q])).length) ::
        quotedSpans (position + (q :: (body ++ [q])).length) rest := by
  have hbody : q :: (body ++ [q]) ++ rest = q :: (body ++ q :: rest) := by simp
  have hdrop : (body ++ q :: rest).drop (body.length + 1) = rest := by
    rw [List.drop_append]
    simp
  have hlength : position + 1 + (body.length + 1) = position + (q :: (body ++ [q])).length := by
    simp
    omega
  rw [hbody, quotedSpans, if_pos hq]
  simp only [spanLength_eq hq h, hdrop, hlength]

theorem le_of_mem_quotedSpans {position : Nat} {cs : List Char} {span : Nat × Nat}
    (h : span ∈ quotedSpans position cs) : position ≤ span.1 := by
  induction hlength : cs.length using Nat.strong_induction_on generalizing position cs with
  | _ n ih =>
  cases cs with
  | nil => exact absurd h (by simp [quotedSpans])
  | cons c rest =>
    rw [quotedSpans] at h
    split_ifs at h
    · rcases List.mem_cons.1 h with rfl | hrest
      · exact Nat.le_refl _
      · have hle := ih _ (by rw [← hlength, List.length_cons, List.length_drop]; omega) hrest rfl
        omega
    · have hle := ih _ (by rw [← hlength, List.length_cons]; omega) h rfl
      omega

end LiveForm.Formula
