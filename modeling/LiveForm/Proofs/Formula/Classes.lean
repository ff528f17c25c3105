import Mathlib
import LiveForm.Proofs.Formula.Cuts

/-!
# The classes of text

Which texts belong to each class, said without the lengths that the lexer computes (`Belongs`). Each
of these lengths is that of the longest text of its class at the front: what it takes belongs to the
class (`exists_number`, `exists_body`), and a text of the class is no longer than it
(`le_numberLength`, `textLength?_of_body`).
-/

namespace LiveForm.Formula

open LiveForm.Text

/-! ### Numbers -/

/-- One digit or more, of any script. -/
structure Digits (cs : List Char) : Prop where
  ne_nil : cs ≠ []
  all : ∀ c ∈ cs, isDigit c = true

/-- A number without an exponent: digits, or a point with digits behind it and perhaps before. -/
inductive Magnitude : List Char → Prop
  | whole {ds : List Char} : Digits ds → Magnitude ds
  | fraction {ds fs : List Char} : (∀ c ∈ ds, isDigit c = true) → Digits fs →
      Magnitude (ds ++ '.' :: fs)

/-- The letters that mark an exponent. -/
def IsMark (c : Char) : Prop :=
  c = 'e' ∨ c = 'E'

/-- An exponent, or nothing. -/
inductive Exponent : List Char → Prop
  | none : Exponent []
  | plain {mark : Char} {ds : List Char} : IsMark mark → Digits ds → Exponent (mark :: ds)
  | signed {mark sign : Char} {ds : List Char} : IsMark mark → sign = '+' ∨ sign = '-' →
      Digits ds → Exponent (mark :: sign :: ds)

/-- A number: its digits, with a point or without, and perhaps an exponent. -/
inductive IsNumber : List Char → Prop
  | mk {m x : List Char} : Magnitude m → Exponent x → IsNumber (m ++ x)

theorem isDigit_of_isMark {c : Char} (h : IsMark c) : isDigit c = false := by
  rcases h with rfl | rfl <;> decide

/-- A number begins with a digit or a point. -/
theorem Magnitude.exists_cons {m : List Char} (h : Magnitude m) :
    ∃ c cs, m = c :: cs ∧ (isDigit c = true ∨ c = '.') := by
  cases h with
  | whole h =>
    obtain ⟨c, cs, rfl⟩ := List.exists_cons_of_ne_nil h.ne_nil
    exact ⟨c, cs, rfl, Or.inl (h.all c List.mem_cons_self)⟩
  | @fraction ds fs hds _ =>
    cases ds with
    | nil => exact ⟨'.', fs, rfl, Or.inr rfl⟩
    | cons d ds => exact ⟨d, ds ++ '.' :: fs, rfl, Or.inl (hds d List.mem_cons_self)⟩

theorem IsNumber.exists_cons {cs : List Char} (h : IsNumber cs) :
    ∃ d ds, cs = d :: ds ∧ (isDigit d = true ∨ d = '.') := by
  obtain ⟨hm, -⟩ := h
  obtain ⟨d, ds, rfl, hd⟩ := hm.exists_cons
  exact ⟨d, _, rfl, hd⟩

/-- Digits at the end of a text end it with a digit. -/
theorem Digits.getLast {ds : List Char} (h : Digits ds) (front : List Char) :
    ∃ d, (front ++ ds).getLast? = some d ∧ isDigit d = true := by
  refine ⟨ds.getLast h.ne_nil, ?_, h.all _ (List.getLast_mem h.ne_nil)⟩
  rw [List.getLast?_append, List.getLast?_eq_some_getLast h.ne_nil]
  rfl

theorem Magnitude.getLast {m : List Char} (h : Magnitude m) :
    ∃ d, m.getLast? = some d ∧ isDigit d = true := by
  cases h with
  | whole hds => exact hds.getLast []
  | @fraction ds fs _ hfs =>
    have hlast := hfs.getLast (ds ++ ['.'])
    rwa [List.append_assoc] at hlast

/-- A number ends with a digit. -/
theorem IsNumber.getLast {cs : List Char} (h : IsNumber cs) :
    ∃ d, cs.getLast? = some d ∧ isDigit d = true := by
  obtain @⟨m, x, hm, hx⟩ := h
  cases hx with
  | none =>
    rw [List.append_nil]
    exact hm.getLast
  | @plain mark ds _ hds =>
    have hlast := hds.getLast (m ++ [mark])
    rwa [List.append_assoc] at hlast
  | @signed mark sign ds _ _ hds =>
    have hlast := hds.getLast (m ++ [mark, sign])
    rwa [List.append_assoc] at hlast

/-- A character that may stand in a number. -/
def InNumber (c : Char) : Prop :=
  isDigit c = true ∨ c ∈ ['.', 'e', 'E', '+', '-']

theorem Digits.inNumber {ds : List Char} (h : Digits ds) : ∀ c ∈ ds, InNumber c :=
  fun c hc => Or.inl (h.all c hc)

theorem IsMark.inNumber {c : Char} (h : IsMark c) : InNumber c := by
  rcases h with rfl | rfl <;> exact Or.inr (by decide)

theorem IsNumber.inNumber {cs : List Char} (h : IsNumber cs) : ∀ c ∈ cs, InNumber c := by
  obtain ⟨hm, hx⟩ := h
  rw [List.forall_mem_append]
  constructor
  · cases hm with
    | whole hds => exact hds.inNumber
    | fraction hds hfs =>
      rw [List.forall_mem_append, List.forall_mem_cons]
      exact ⟨fun c hc => Or.inl (hds c hc), Or.inr (by decide), hfs.inNumber⟩
  · cases hx with
    | none => exact fun c hc => absurd hc List.not_mem_nil
    | plain hmark hds =>
      rw [List.forall_mem_cons]
      exact ⟨hmark.inNumber, hds.inNumber⟩
    | signed hmark hsign hds =>
      rw [List.forall_mem_cons, List.forall_mem_cons]
      refine ⟨hmark.inNumber, ?_, hds.inNumber⟩
      rcases hsign with rfl | rfl <;> exact Or.inr (by decide)

/-! ### What a number takes -/

/-- A source is split after as many characters as there are in a run at its front. -/
theorem runLength_split (p : Char → Bool) (cs : List Char) :
    ∃ run rest, cs = run ++ rest ∧ run.length = runLength p cs ∧ (∀ c ∈ run, p c = true) ∧
      ∀ c, rest.head? = some c → p c = false := by
  refine ⟨cs.takeWhile p, cs.dropWhile p, List.takeWhile_append_dropWhile.symm, rfl,
    fun c hc => List.mem_takeWhile_imp hc, fun c hc => ?_⟩
  have hhead := List.head?_dropWhile_not p cs
  rwa [hc] at hhead

/-- The digits at the front, if there are any. -/
theorem exists_digits {cs : List Char} (h : runLength isDigit cs ≠ 0) :
    ∃ ds rest, cs = ds ++ rest ∧ ds.length = runLength isDigit cs ∧ Digits ds := by
  obtain ⟨ds, rest, hcs, hlength, hall, -⟩ := runLength_split isDigit cs
  refine ⟨ds, rest, hcs, hlength, ?_, hall⟩
  rintro rfl
  exact h hlength.symm

/-- The length of a number at the front without its exponent. -/
def magnitudeLength (cs : List Char) : Nat :=
  let whole := runLength isDigit cs
  let fraction := fractionLength (cs.drop whole)
  if fraction == 0 then whole else whole + 1 + fraction

theorem numberLength_eq (cs : List Char) : numberLength cs =
    if magnitudeLength cs == 0 then 0
    else magnitudeLength cs + exponentLength (cs.drop (magnitudeLength cs)) :=
  rfl

theorem exists_magnitude {cs : List Char} (h : magnitudeLength cs ≠ 0) :
    ∃ m rest, cs = m ++ rest ∧ m.length = magnitudeLength cs ∧ Magnitude m := by
  obtain ⟨ds, behind, hcs, hlength, hds, -⟩ := runLength_split isDigit cs
  have hdrop : cs.drop (runLength isDigit cs) = behind := by
    rw [← hlength, hcs, List.drop_left]
  rw [magnitudeLength, hdrop, ← hlength] at h ⊢
  split_ifs at h ⊢ with hfraction
  · exact ⟨ds, behind, hcs, rfl, .whole ⟨List.ne_nil_of_length_pos (Nat.pos_of_ne_zero h), hds⟩⟩
  · have hnone : fractionLength behind ≠ 0 := by simpa using hfraction
    unfold fractionLength at hnone ⊢
    split at hnone
    · next more =>
      obtain ⟨fs, rest, rfl, hfs, hdigits⟩ := exists_digits hnone
      refine ⟨ds ++ '.' :: fs, rest, by rw [hcs]; simp, ?_, .fraction hds hdigits⟩
      rw [List.length_append, List.length_cons, hfs]
      omega
    · exact absurd rfl hnone

theorem exists_exponent (cs : List Char) :
    ∃ x rest, cs = x ++ rest ∧ x.length = exponentLength cs ∧ Exponent x := by
  have none : ∃ x rest, cs = x ++ rest ∧ x.length = 0 ∧ Exponent x := ⟨[], cs, rfl, rfl, .none⟩
  unfold exponentLength
  split
  · next mark rest =>
    split_ifs with hmark
    · have hmark' : IsMark mark := by simpa [IsMark] using hmark
      split
      · next sign more =>
        split_ifs with hsign
        · dsimp only
          split_ifs with hdigits
          · exact none
          · obtain ⟨ds, after, rfl, hlength, hds⟩ := exists_digits (by simpa using hdigits)
            exact ⟨mark :: sign :: ds, after, rfl, by simp [hlength],
              .signed hmark' (by simpa using hsign) hds⟩
        · dsimp only
          split_ifs with hdigits
          · exact none
          · obtain ⟨ds, after, hsplit, hlength, hds⟩ := exists_digits (by simpa using hdigits)
            exact ⟨mark :: ds, after, by rw [hsplit]; rfl, by rw [List.length_cons, hlength],
              .plain hmark' hds⟩
      · exact none
    · exact none
  · exact none

/-- What a number takes at the front is a number. -/
theorem exists_number {cs : List Char} (h : numberLength cs ≠ 0) :
    ∃ piece rest, cs = piece ++ rest ∧ piece.length = numberLength cs ∧ IsNumber piece := by
  rw [numberLength_eq] at h ⊢
  split_ifs at h ⊢ with hnone
  · exact absurd rfl h
  · obtain ⟨m, behind, hcs, hlength, hm⟩ := exists_magnitude (by simpa using hnone)
    obtain ⟨x, rest, rfl, hx, hexponent⟩ := exists_exponent behind
    have hdrop : cs.drop (magnitudeLength cs) = x ++ rest := by
      rw [← hlength, hcs, List.drop_left]
    refine ⟨m ++ x, rest, by rw [hcs, List.append_assoc], ?_, .mk hm hexponent⟩
    rw [hdrop, List.length_append, hlength, hx]

theorem le_runLength {p : Char → Bool} {xs : List Char} (hxs : ∀ c ∈ xs, p c = true)
    (rest : List Char) : xs.length ≤ runLength p (xs ++ rest) := by
  induction xs with
  | nil => exact Nat.zero_le _
  | cons x xs ih =>
    have hmore := ih fun c hc => hxs c (List.mem_cons_of_mem _ hc)
    rw [List.cons_append, runLength, List.takeWhile_cons_of_pos (hxs x List.mem_cons_self)]
    exact Nat.succ_le_succ hmore

theorem Digits.runLength_ne_zero {ds : List Char} (h : Digits ds) (rest : List Char) :
    runLength isDigit (ds ++ rest) ≠ 0 := by
  have hpos := List.length_pos_iff.2 h.ne_nil
  have hle := le_runLength h.all rest
  omega

/-- Behind digits that stand before a point, the digits of the fraction come. -/
theorem magnitudeLength_fraction {ds fs : List Char} (hds : ∀ c ∈ ds, isDigit c = true)
    (hfs : Digits fs) (rest : List Char) : magnitudeLength (ds ++ '.' :: fs ++ rest) =
      ds.length + 1 + runLength isDigit (fs ++ rest) := by
  have hwhole : runLength isDigit (ds ++ '.' :: (fs ++ rest)) = ds.length := by
    refine runLength_append hds fun c hc => ?_
    rw [← Option.some.inj hc]
    decide
  have hfraction : fractionLength ('.' :: (fs ++ rest)) = runLength isDigit (fs ++ rest) := rfl
  rw [List.append_assoc, List.cons_append, magnitudeLength, hwhole]
  rw [List.drop_left, hfraction, if_neg (by simpa using hfs.runLength_ne_zero rest)]

theorem le_magnitudeLength {m : List Char} (hm : Magnitude m) (rest : List Char) :
    m.length ≤ magnitudeLength (m ++ rest) := by
  cases hm with
  | whole hds =>
    have hle := le_runLength hds.all rest
    rw [magnitudeLength]
    split_ifs <;> omega
  | fraction hds hfs =>
    have hle := le_runLength hfs.all rest
    rw [magnitudeLength_fraction hds hfs, List.length_append, List.length_cons]
    omega

/-- A number ends before a character that neither is a digit nor goes on with a point. -/
theorem magnitudeLength_append {m rest : List Char} (hm : Magnitude m)
    (hrest : ∀ c, rest.head? = some c → isDigit c = false ∧ c ≠ '.') :
    magnitudeLength (m ++ rest) = m.length := by
  cases hm with
  | whole hds =>
    have hwhole := runLength_append hds.all fun c hc => (hrest c hc).1
    have hfraction : fractionLength rest = 0 := by
      unfold fractionLength
      split
      · exact absurd rfl (hrest '.' rfl).2
      · rfl
    rw [magnitudeLength, hwhole]
    rw [List.drop_left, hfraction]
    rfl
  | fraction hds hfs =>
    rw [magnitudeLength_fraction hds hfs,
      runLength_append hfs.all fun c hc => (hrest c hc).1, List.length_append, List.length_cons]
    omega

theorem le_exponentLength {x : List Char} (hx : Exponent x) (rest : List Char) :
    x.length ≤ exponentLength (x ++ rest) := by
  cases hx with
  | none => exact Nat.zero_le _
  | @plain mark ds hmark hds =>
    have hle := le_runLength hds.all rest
    have hne := hds.runLength_ne_zero rest
    obtain ⟨d, ds, rfl⟩ := List.exists_cons_of_ne_nil hds.ne_nil
    have hd := hds.all d List.mem_cons_self
    have hplain : ¬(d == '+' || d == '-') = true := by
      intro hsign
      rcases (by simpa using hsign : d = '+' ∨ d = '-') with rfl | rfl <;>
        exact absurd hd (by decide)
    have hmark' : (mark == 'e' || mark == 'E') = true := by simpa [IsMark] using hmark
    rw [List.cons_append] at hle hne
    simp only [List.cons_append, exponentLength, hmark', if_true, if_neg hplain]
    rw [if_neg (by simpa using hne)]
    exact Nat.succ_le_succ hle
  | @signed mark sign ds hmark hsign hds =>
    have hle := le_runLength hds.all rest
    have hne := hds.runLength_ne_zero rest
    have hmark' : (mark == 'e' || mark == 'E') = true := by simpa [IsMark] using hmark
    have hsign' : (sign == '+' || sign == '-') = true := by simpa using hsign
    simp only [List.cons_append, exponentLength, hmark', hsign', if_true]
    rw [if_neg (by simpa using hne)]
    exact Nat.succ_le_succ (Nat.succ_le_succ hle)

/-- No number at the front is longer than what a number takes. -/
theorem le_numberLength {cs : List Char} (h : IsNumber cs) (rest : List Char) :
    cs.length ≤ numberLength (cs ++ rest) := by
  obtain @⟨m, x, hm, hx⟩ := h
  obtain ⟨c, more, hcons, -⟩ := hm.exists_cons
  have hpos : 0 < m.length := by
    rw [hcons]
    exact Nat.succ_pos _
  have hle := le_magnitudeLength hm (x ++ rest)
  rw [numberLength_eq, List.append_assoc, if_neg (by simp; omega), List.length_append]
  by_cases hnone : x = []
  · subst hnone
    exact hle.trans (Nat.le_add_right _ _)
  · -- The mark of the exponent ends what comes before it.
    have hend : magnitudeLength (m ++ (x ++ rest)) = m.length := by
      refine magnitudeLength_append hm fun d hd => ?_
      rw [List.head?_append_of_ne_nil _ hnone] at hd
      have hmark : IsMark d := by
        cases hx with
        | none => exact absurd rfl hnone
        | plain hmark _ | signed hmark _ _ => exact Option.some.inj hd ▸ hmark
      refine ⟨isDigit_of_isMark hmark, ?_⟩
      rcases hmark with rfl | rfl <;> decide
    rw [hend, List.drop_left]
    exact Nat.add_le_add_left (le_exponentLength hx rest) _

/-! ### Quoted texts -/

/-- What may stand between quotes: no such quote and no backslash, except that a backslash takes the
next character with it, which is no line break. -/
inductive TextBody (q : Char) : List Char → Prop
  | nil : TextBody q []
  | plain {c : Char} {cs : List Char} : c ≠ q → c ≠ '\\' → TextBody q cs → TextBody q (c :: cs)
  | escape {c : Char} {cs : List Char} : c ≠ '\n' → TextBody q cs → TextBody q ('\\' :: c :: cs)

/-- A text in quotes ends with its quote. -/
theorem exists_body {q : Char} {cs : List Char} {n : Nat} (h : textLength? q cs = some n) :
    ∃ body rest, cs = body ++ q :: rest ∧ n = body.length + 1 ∧ TextBody q body := by
  induction cs using textLength?.induct q generalizing n with
  | case1 => exact absurd h (by simp [textLength?])
  | case2 rest => exact absurd h (by simp [textLength?])
  | case3 c rest hbreak ih =>
    rw [textLength?.eq_3 q c rest hbreak] at h
    obtain ⟨m, hm, rfl⟩ := Option.map_eq_some_iff.1 h
    obtain ⟨body, after, rfl, rfl, hbody⟩ := ih hm
    exact ⟨'\\' :: c :: body, after, rfl, rfl, .escape hbreak hbody⟩
  | case4 c rest hback₁ hback₂ hc =>
    rw [textLength?.eq_4 q c rest hback₁ hback₂, if_pos hc] at h
    exact ⟨[], rest, by rw [eq_of_beq hc]; rfl, (Option.some.inj h).symm, .nil⟩
  | case5 c rest hback₁ hback₂ hc ih =>
    rw [textLength?.eq_4 q c rest hback₁ hback₂, if_neg hc] at h
    obtain ⟨m, hm, rfl⟩ := Option.map_eq_some_iff.1 h
    obtain ⟨body, after, hrest, rfl, hbody⟩ := ih hm
    have hplain : c ≠ '\\' := by
      rintro rfl
      obtain ⟨d, more, hcons⟩ : ∃ d more, rest = d :: more :=
        List.exists_cons_of_ne_nil (by rw [hrest]; simp)
      exact hback₂ d more rfl hcons
    exact ⟨c :: body, after, by rw [hrest]; rfl, rfl, .plain (by simpa using hc) hplain hbody⟩

/-- A text in quotes is taken up to its closing quote. -/
theorem textLength?_of_body {q : Char} (hq : isQuote q = true) {body : List Char}
    (h : TextBody q body) (rest : List Char) :
    textLength? q (body ++ q :: rest) = some (body.length + 1) := by
  induction h with
  | nil =>
    have hback : q ≠ '\\' := by
      rcases isQuote_iff.1 hq with rfl | rfl <;> decide
    rw [List.nil_append, textLength?.eq_4 q q rest (fun _ hc _ => hback hc)
      fun _ _ hc _ => hback hc, if_pos (beq_self_eq_true q)]
    rfl
  | @plain c cs hc hback _ ih =>
    rw [List.cons_append, textLength?.eq_4 q c _ (fun _ hb _ => hback hb)
      fun _ _ hb _ => hback hb, if_neg (by simpa using hc), ih]
    rfl
  | @escape c cs hbreak _ ih =>
    rw [List.cons_append, List.cons_append, textLength?.eq_3 q c _ hbreak, ih]
    rfl

/-! ### All classes -/

/-- The texts that belong to each class. -/
inductive Belongs : Kind → List Char → Prop
  | blank {cs : List Char} : cs ≠ [] → (∀ c ∈ cs, isBlank c = true) → Belongs .blank cs
  | number {cs : List Char} : IsNumber cs → Belongs .number cs
  | text {q : Char} {body : List Char} : isQuote q = true → TextBody q body →
      Belongs .text (q :: (body ++ [q]))
  | word {c : Char} {cs : List Char} : startsWord c = true → (∀ d ∈ cs, continuesWord d = true) →
      Belongs .word (c :: cs)
  | symbol (s : Symbol) : Belongs (.symbol s) s.spelling.toList

/-- A symbol begins with a character that no other class begins with, the dot apart. -/
theorem Symbol.exists_cons (s : Symbol) : ∃ c cs, s.spelling.toList = c :: cs ∧
    isBlank c = false ∧ isDigit c = false ∧ isQuote c = false ∧ startsWord c = false ∧
      (c = '.' → s = .dot) := by
  cases s <;> exact ⟨_, _, rfl, by decide⟩

theorem Belongs.ne_nil {kind : Kind} {cs : List Char} (h : Belongs kind cs) : cs ≠ [] := by
  cases h with
  | blank hne _ => exact hne
  | number h =>
    obtain ⟨d, ds, rfl, -⟩ := h.exists_cons
    exact List.cons_ne_nil _ _
  | text _ _ => exact List.cons_ne_nil _ _
  | word _ _ => exact List.cons_ne_nil _ _
  | symbol s =>
    obtain ⟨c, cs, hcons, -⟩ := Symbol.exists_cons s
    rw [hcons]
    exact List.cons_ne_nil _ _

end LiveForm.Formula
