import Mathlib
import LiveForm.Pattern.Match

/-!
# What patterns take

A pattern stands for the pieces of text that it can take, each between what comes before it and what
comes behind it (`Takes`). The search for a fit tries the ways to take a piece in an order of
preference and takes a choice back if nothing fits behind it. In a regular pattern every choice can
be taken back, and none hangs on what a group has held. The search with such a pattern succeeds
exactly if there is a piece that the pattern takes and behind which the rest fits (`decides_fit`);
so it fits at the start of a text exactly if it takes a beginning of the text
(`matchesStart_iff`).

* `Takes`: the pieces that a pattern takes, said without a search.
* `Ahead`: a piece is taken, and a condition holds of the place behind it.
* `Decides`: what has to fit behind a piece fits exactly at the places where a condition holds.
-/

namespace LiveForm.Pattern

/-- Every choice in the pattern can be taken back, and none hangs on what a group has held. -/
def isRegular : Pattern → Bool
  | .seq p q => p.isRegular && q.isRegular
  | .alt p q => p.isRegular && q.isRegular
  | .repeated p _ _ habit => habit != .settled && p.isRegular
  | .group _ p => p.isRegular
  | .again _ _ _ => false
  | .ifHeld _ _ _ => false
  | .look _ _ _ => false
  | .settled _ => false
  | _ => true

/-- Pieces of text, each between what is before it and what is after it. -/
abbrev Pieces := List Char → List Char → List Char → Prop

/-- Pieces in a row, at least and at most so many. -/
inductive Repeats (pieces : Pieces) : Nat → Option Nat → Pieces
  | stop {most : Option Nat} {before after : List Char} : Repeats pieces 0 most before [] after
  /-- An empty piece ends the row, however many are still wanted. -/
  | still {least : Nat} {most : Option Nat} {before after : List Char} :
      least ≠ 0 ∨ most ≠ some 0 → pieces before [] after →
      Repeats pieces least most before [] after
  | more {least : Nat} {most : Option Nat} {before cs ds after : List Char} :
      least ≠ 0 ∨ most ≠ some 0 → cs ≠ [] → pieces before cs (ds ++ after) →
      Repeats pieces (least - 1) (most.map (· - 1)) (before ++ cs) ds after →
      Repeats pieces least most before (cs ++ ds) after

/-- **The pieces that a regular pattern takes**, between what is before and what is after them. -/
def Takes : Pattern → Pieces
  | .empty, _, taken, _ => taken = []
  | .any breaks, _, taken, _ => ∃ c, taken = [c] ∧ (breaks || c != '\n') = true
  | .chars k, _, taken, _ => ∃ c, taken = [c] ∧ k.holds c = true
  | .start lines, before, taken, _ =>
    taken = [] ∧ (before = [] ∨ lines = true ∧ before.getLast? = some '\n')
  | .finish lines, _, taken, after =>
    taken = [] ∧ (after = [] ∨ after = ['\n'] ∨ lines = true ∧ after.head? = some '\n')
  | .final, _, taken, after => taken = [] ∧ after = []
  | .boundary ascii negated, before, taken, after =>
    taken = [] ∧ before ++ after ≠ [] ∧
      ((before.getLast?.any (Category.word.holds ascii) !=
        after.head?.any (Category.word.holds ascii)) != negated) = true
  | .seq p q, before, taken, after =>
    ∃ cs ds, taken = cs ++ ds ∧ p.Takes before cs (ds ++ after) ∧ q.Takes (before ++ cs) ds after
  | .alt p q, before, taken, after => p.Takes before taken after ∨ q.Takes before taken after
  | .repeated p least most _, before, taken, after =>
    Repeats (fun before taken after => p.Takes before taken after) least most before taken after
  | .group _ p, before, taken, after => p.Takes before taken after
  | .again _ _ _, _, _, _ => False
  | .ifHeld _ _ _, _, _, _ => False
  | .look _ _ _, _, _, _ => False
  | .settled _, _, _, _ => False

/-- A piece is taken, and the condition holds of the place behind it. -/
def Ahead (pieces : Pieces) (holds : List Char → List Char → Prop) (before after : List Char) :
    Prop :=
  ∃ taken rest, after = taken ++ rest ∧ pieces before taken rest ∧ holds (before ++ taken) rest

/-- What has to fit behind a piece fits at exactly those places of the text, from a position on,
where a condition holds of what is before and after them. -/
def Decides (text : List Char) (low : Nat) (behind : Behind)
    (holds : List Char → List Char → Prop) : Prop :=
  ∀ before after held, text = before ++ after → low ≤ before.length →
    ((behind ⟨before.length, held⟩).isSome = true ↔ holds before after)

variable {text : List Char} {low : Nat} {behind : Behind} {holds : List Char → List Char → Prop}

theorem Decides.congr (h : Decides text low behind holds)
    {holds' : List Char → List Char → Prop}
    (hiff : ∀ before after, holds before after ↔ holds' before after) :
    Decides text low behind holds' :=
  fun before after held htext hlow => (h before after held htext hlow).trans (hiff before after)

/-! ### Places and characters -/

theorem isSome_goOn {b : Bool} {s : Spot} :
    (goOn b s behind).isSome = true ↔ b = true ∧ (behind s).isSome = true := by
  unfold goOn
  split <;> simp_all

theorem getElem?_place {before after : List Char} (htext : text = before ++ after) :
    text.toArray[before.length]? = after.head? := by
  rw [htext]
  cases after <;> simp

theorem size_place {before after : List Char} (htext : text = before ++ after) :
    text.toArray.size = before.length + after.length := by
  rw [htext, List.size_toArray, List.length_append]

/-- The search goes on behind the next character if a test holds of it. -/
theorem decides_step (h : Decides text low behind holds) (test : Char → Bool) :
    Decides text low (fun s => step text.toArray test s behind) fun before after =>
      ∃ c rest, after = c :: rest ∧ test c = true ∧ holds (before ++ [c]) rest := by
  intro before after held htext hlow
  dsimp only
  rw [step, isSome_goOn, getElem?_place htext]
  cases after with
  | nil => simp
  | cons c rest =>
    have hnext := h (before ++ [c]) rest held (by simp [htext]) (by simp; omega)
    rw [List.length_append, List.length_singleton] at hnext
    simp [hnext]

theorem lineStarts_place {before after : List Char} (htext : text = before ++ after)
    (lines : Bool) :
    (before.length == 0 || (lines && lineStarts text.toArray before.length)) = true ↔
      before = [] ∨ lines = true ∧ before.getLast? = some '\n' := by
  rcases List.eq_nil_or_concat before with rfl | ⟨init, c, rfl⟩
  · simp
  · have hlast : text.toArray[init.length]? = some c := by
      rw [htext]
      simp
    simp [lineStarts, hlast]

theorem lineEnds_place {before after : List Char} (htext : text = before ++ after)
    (lines : Bool) :
    lineEnds text.toArray lines before.length = true ↔
      after = [] ∨ after = ['\n'] ∨ lines = true ∧ after.head? = some '\n' := by
  rw [lineEnds, getElem?_place htext, size_place htext]
  cases after with
  | nil => simp
  | cons c rest => cases rest <;> cases lines <;> simp

theorem final_place {before after : List Char} (htext : text = before ++ after) :
    (before.length == text.toArray.size) = true ↔ after = [] := by
  simp [size_place htext]

theorem boundary_place {before after : List Char} (htext : text = before ++ after)
    (ascii negated : Bool) :
    (0 < text.toArray.size && (wordBefore text.toArray ascii before.length !=
        wordAt text.toArray ascii before.length) != negated) = true ↔
      before ++ after ≠ [] ∧ ((before.getLast?.any (Category.word.holds ascii) !=
        after.head?.any (Category.word.holds ascii)) != negated) = true := by
  have hbefore : wordBefore text.toArray ascii before.length =
      before.getLast?.any (Category.word.holds ascii) := by
    rcases List.eq_nil_or_concat before with rfl | ⟨init, c, rfl⟩
    · rfl
    · have hlast : text.toArray[init.length]? = some c := by
        rw [htext]
        simp
      simp [wordBefore, wordAt, hlast]
  rw [hbefore, wordAt, getElem?_place htext, ← htext]
  simp [List.length_pos_iff]

/-! ### Pieces ahead -/

section

variable {pieces : Pieces} {before after : List Char}

/-- Where only the empty piece is taken, the condition holds of the same place. -/
theorem ahead_place {isPlace : List Char → List Char → Prop}
    (h : ∀ before taken after, pieces before taken after ↔ taken = [] ∧ isPlace before after) :
    Ahead pieces holds before after ↔ isPlace before after ∧ holds before after := by
  constructor
  · rintro ⟨taken, rest, rfl, htakes, hholds⟩
    obtain ⟨rfl, hplace⟩ := (h _ _ _).1 htakes
    rw [List.append_nil] at hholds
    exact ⟨hplace, hholds⟩
  · rintro ⟨hplace, hholds⟩
    exact ⟨[], after, rfl, (h _ _ _).2 ⟨rfl, hplace⟩, by rwa [List.append_nil]⟩

/-- Where one character is taken, the condition holds of the place behind it. -/
theorem ahead_character {test : Char → Bool}
    (h : ∀ before taken after, pieces before taken after ↔ ∃ c, taken = [c] ∧ test c = true) :
    Ahead pieces holds before after ↔
      ∃ c rest, after = c :: rest ∧ test c = true ∧ holds (before ++ [c]) rest := by
  constructor
  · rintro ⟨taken, rest, rfl, htakes, hholds⟩
    obtain ⟨c, rfl, hc⟩ := (h _ _ _).1 htakes
    exact ⟨c, rest, rfl, hc, hholds⟩
  · rintro ⟨c, rest, rfl, hc, hholds⟩
    exact ⟨[c], rest, rfl, (h _ _ _).2 ⟨c, rfl, hc⟩, hholds⟩

theorem ahead_seq {p q : Pattern} :
    Ahead (p.seq q).Takes holds before after ↔
      Ahead p.Takes (Ahead q.Takes holds) before after := by
  constructor
  · rintro ⟨_, rest, rfl, ⟨cs, ds, rfl, hp, hq⟩, hholds⟩
    rw [← List.append_assoc] at hholds
    exact ⟨cs, ds ++ rest, List.append_assoc cs ds rest, hp, ds, rest, rfl, hq, hholds⟩
  · rintro ⟨cs, _, rfl, hp, ds, rest, rfl, hq, hholds⟩
    rw [List.append_assoc] at hholds
    exact ⟨cs ++ ds, rest, (List.append_assoc cs ds rest).symm, ⟨cs, ds, rfl, hp, hq⟩, hholds⟩

theorem ahead_alt {p q : Pattern} :
    Ahead (p.alt q).Takes holds before after ↔
      Ahead p.Takes holds before after ∨ Ahead q.Takes holds before after := by
  constructor
  · rintro ⟨taken, rest, rfl, hp | hq, hholds⟩
    · exact .inl ⟨taken, rest, rfl, hp, hholds⟩
    · exact .inr ⟨taken, rest, rfl, hq, hholds⟩
  · rintro (⟨taken, rest, rfl, hp, hholds⟩ | ⟨taken, rest, rfl, hq, hholds⟩)
    · exact ⟨taken, rest, rfl, .inl hp, hholds⟩
    · exact ⟨taken, rest, rfl, .inr hq, hholds⟩

/-- One more piece of a repetition: an empty one ends it, and behind any other it goes on. -/
def OneMore (pieces : Pieces) (least : Nat) (most : Option Nat)
    (holds : List Char → List Char → Prop) (start before after : List Char) : Prop :=
  if before.length = start.length then holds before after
  else Ahead (Repeats pieces (least - 1) (most.map (· - 1))) holds before after

theorem ahead_repeats {least : Nat} {most : Option Nat} :
    Ahead (Repeats pieces least most) holds before after ↔
      least = 0 ∧ holds before after ∨
      (least ≠ 0 ∨ most ≠ some 0) ∧
        Ahead pieces (OneMore pieces least most holds before) before after := by
  constructor
  · rintro ⟨_, rest, rfl, hrepeats, hholds⟩
    cases hrepeats with
    | stop =>
      rw [List.append_nil] at hholds
      exact .inl ⟨rfl, hholds⟩
    | still hmore hpiece =>
      refine .inr ⟨hmore, [], rest, rfl, hpiece, ?_⟩
      rw [OneMore, List.append_nil, if_pos rfl]
      rwa [List.append_nil] at hholds
    | @more _ _ _ cs ds _ hmore hne hpiece hrest =>
      refine .inr ⟨hmore, cs, ds ++ rest, List.append_assoc cs ds rest, hpiece, ?_⟩
      rw [OneMore, if_neg (by simpa using hne)]
      rw [← List.append_assoc] at hholds
      exact ⟨ds, rest, rfl, hrest, hholds⟩
  · rintro (⟨rfl, hholds⟩ | ⟨hmore, cs, rest, rfl, hpiece, hone⟩)
    · exact ⟨[], after, rfl, .stop, by rwa [List.append_nil]⟩
    · by_cases hempty : cs = []
      · subst hempty
        rw [OneMore, if_pos (by simp)] at hone
        exact ⟨[], rest, rfl, .still hmore hpiece, hone⟩
      · rw [OneMore, if_neg (by simpa using hempty)] at hone
        obtain ⟨ds, rest, rfl, hrest, hholds⟩ := hone
        rw [List.append_assoc] at hholds
        exact ⟨cs ++ ds, rest, (List.append_assoc cs ds rest).symm,
          .more hmore hempty hpiece hrest, hholds⟩

end

/-! ### The search -/

/-- The rounds of a repetition find a row of pieces with which the rest fits, if its piece is found
like that. Every round but the last takes a character, so the rounds do not run out. -/
theorem isSome_rounds {pieces : Pieces} {piece : Try} (habit : Habit)
    (hpiece : ∀ {low behind holds}, Decides text low behind holds →
      Decides text low (fun s => piece s behind) (Ahead pieces holds))
    (hbehind : Decides text low behind holds) (fuel : Nat) :
    ∀ (least : Nat) (most : Option Nat) (before after : List Char) (held : List (Nat × Nat × Nat)),
      text = before ++ after → low ≤ before.length → after.length < fuel →
      ((rounds piece habit behind fuel least most ⟨before.length, held⟩).isSome = true ↔
        Ahead (Repeats pieces least most) holds before after) := by
  induction fuel with
  | zero => exact fun _ _ _ after _ _ _ hfuel => absurd hfuel (Nat.not_lt_zero after.length)
  | succ fuel ih =>
    intro least most before after held htext hlow hfuel
    -- What comes behind one more piece: the end of the row if it was empty, else another round.
    have hround : Decides text before.length
        (fun s => if s.position == before.length then behind s
          else rounds piece habit behind fuel (least - 1) (most.map (· - 1)) s)
        (OneMore pieces least most holds before) := by
      intro before' after' held' htext' hlow'
      dsimp only [OneMore]
      by_cases hsame : before'.length = before.length
      · rw [if_pos hsame, if_pos (by simpa using hsame)]
        exact hbehind before' after' held' htext' (hlow.trans hlow')
      · have hshorter : after'.length < fuel := by
          have hlength := congrArg List.length (htext.symm.trans htext')
          simp only [List.length_append] at hlength
          omega
        rw [if_neg hsame, if_neg (by simpa using hsame)]
        exact ih _ _ before' after' held' htext' (hlow.trans hlow') hshorter
    have hmore := hpiece hround before after held htext le_rfl
    rw [ahead_repeats]
    cases least with
    | succ least => simpa [rounds] using hmore
    | zero =>
      have hstop := hbehind before after held htext hlow
      simp only [Nat.zero_sub] at hmore
      unfold rounds
      by_cases hmost : most = some 0
      · simp [hmost, hstop]
      · by_cases hhabit : habit = .reluctant
        · simp [hmost, hhabit, hstop, ← hmore]
        · simp [hmost, hhabit, hstop, ← hmore, or_comm]

/-- A pattern that takes nothing and looks at its place alone. -/
theorem decides_place (p : Pattern) (test : Nat → Bool) {isPlace : List Char → List Char → Prop}
    (hfit : ∀ s behind, fit text.toArray p s behind = goOn (test s.position) s behind)
    (htakes : ∀ before taken after, p.Takes before taken after ↔ taken = [] ∧ isPlace before after)
    (htest : ∀ before after, text = before ++ after →
      (test before.length = true ↔ isPlace before after))
    (h : Decides text low behind holds) :
    Decides text low (fun s => fit text.toArray p s behind) (Ahead p.Takes holds) := by
  intro before after held htext hlow
  dsimp only
  rw [hfit, isSome_goOn, htest before after htext, h before after held htext hlow,
    ahead_place htakes]

/-- **The search with a regular pattern is exact.** It succeeds exactly where the pattern takes a
piece behind which the rest fits. -/
theorem decides_fit {p : Pattern} (hp : p.isRegular = true) (h : Decides text low behind holds) :
    Decides text low (fun s => fit text.toArray p s behind) (Ahead p.Takes holds) := by
  induction p generalizing low behind holds with
  | empty =>
    have hempty (before taken after : List Char) :
        Pattern.empty.Takes before taken after ↔ taken = [] ∧ True := by simp [Takes]
    exact h.congr fun _ _ => by rw [ahead_place hempty, true_and]
  | any breaks =>
    exact (decides_step h _).congr fun _ _ => (ahead_character fun _ _ _ => Iff.rfl).symm
  | chars k =>
    exact (decides_step h _).congr fun _ _ => (ahead_character fun _ _ _ => Iff.rfl).symm
  | start lines =>
    exact decides_place _ (fun i => i == 0 || (lines && lineStarts text.toArray i))
      (fun _ _ => rfl) (fun _ _ _ => Iff.rfl) (fun _ _ htext => lineStarts_place htext lines) h
  | finish lines =>
    exact decides_place _ (lineEnds text.toArray lines)
      (fun _ _ => rfl) (fun _ _ _ => Iff.rfl) (fun _ _ htext => lineEnds_place htext lines) h
  | final =>
    exact decides_place _ (fun i => i == text.toArray.size)
      (fun _ _ => rfl) (fun _ _ _ => Iff.rfl) (fun _ _ htext => final_place htext) h
  | boundary ascii negated =>
    exact decides_place _ (fun i => 0 < text.toArray.size &&
        (wordBefore text.toArray ascii i != wordAt text.toArray ascii i) != negated)
      (fun _ _ => rfl) (fun _ _ _ => Iff.rfl)
      (fun _ _ htext => boundary_place htext ascii negated) h
  | seq p q ihp ihq =>
    obtain ⟨hp, hq⟩ := Bool.and_eq_true_iff.1 hp
    exact (ihp hp (ihq hq h)).congr fun _ _ => ahead_seq.symm
  | alt p q ihp ihq =>
    obtain ⟨hp, hq⟩ := Bool.and_eq_true_iff.1 hp
    intro before after held htext hlow
    rw [ahead_alt, ← ihp hp h before after held htext hlow, ← ihq hq h before after held htext hlow]
    simp [fit]
  | repeated p least most habit ihp =>
    obtain ⟨hhabit, hp⟩ := Bool.and_eq_true_iff.1 hp
    intro before after held htext hlow
    have hfuel : after.length < text.toArray.size + 2 - before.length := by
      rw [size_place htext]
      omega
    have hrounds := isSome_rounds habit (fun h => ihp hp h) h _ least most before after held htext
      hlow hfuel
    have hsettled : (habit == .settled) = false := by simpa using hhabit
    dsimp only [fit]
    rw [hsettled]
    exact hrounds
  | group number p ihp =>
    intro before after held htext hlow
    have hbehind : Decides text low
        (fun s => behind { s with held := (number, before.length, s.position) :: s.held }) holds :=
      fun before' after' held' =>
        h before' after' ((number, before.length, before'.length) :: held')
    exact ihp hp hbehind before after held htext hlow
  | again number width casing => exact absurd hp Bool.false_ne_true
  | ifHeld number p q _ _ => exact absurd hp Bool.false_ne_true
  | look ahead negated p _ => exact absurd hp Bool.false_ne_true
  | settled p _ => exact absurd hp Bool.false_ne_true

/-! ### Repeated characters -/

section

variable {k : CharClass} {least : Nat} {before taken after : List Char}

/-- Characters of a class in a row are a text of the class, long enough. -/
theorem Repeats.chars {most : Option Nat}
    (h : Repeats (Takes (.chars k)) least most before taken after) :
    least ≤ taken.length ∧ ∀ c ∈ taken, k.holds c = true := by
  induction h with
  | stop => simp
  | still _ hpiece =>
    obtain ⟨c, hc, -⟩ := hpiece
    exact absurd hc (by simp)
  | more _ _ hpiece _ ih =>
    obtain ⟨c, rfl, hc⟩ := hpiece
    obtain ⟨hleast, hall⟩ := ih
    refine ⟨?_, List.forall_mem_cons.2 ⟨hc, hall⟩⟩
    rw [List.singleton_append, List.length_cons]
    omega

/-- Without an upper bound, every text of the class that is long enough is taken. -/
theorem repeats_chars (hleast : least ≤ taken.length) (hall : ∀ c ∈ taken, k.holds c = true) :
    Repeats (Takes (.chars k)) least none before taken after := by
  induction taken generalizing least before with
  | nil =>
    obtain rfl : least = 0 := Nat.le_zero.1 hleast
    exact .stop
  | cons c cs ih =>
    obtain ⟨hc, hcs⟩ := List.forall_mem_cons.1 hall
    rw [List.length_cons] at hleast
    have hrest : Repeats (Takes (.chars k)) (least - 1) none (before ++ [c]) cs after :=
      ih (by omega) hcs
    exact .more (.inr (by simp)) (List.cons_ne_nil c []) ⟨c, rfl, hc⟩ hrest

theorem takes_repeated_chars {habit : Habit} :
    Takes (.repeated (.chars k) least none habit) before taken after ↔
      least ≤ taken.length ∧ ∀ c ∈ taken, k.holds c = true :=
  ⟨Repeats.chars, fun h => repeats_chars h.1 h.2⟩

end

/-! ### Whole texts -/

/-- A regular pattern fits at the start of a text exactly if it takes a beginning of the text. -/
theorem matchesStart_iff {p : Pattern} (hp : p.isRegular = true) (s : String) :
    p.matchesStart s = true ↔
      ∃ taken after, s.toList = taken ++ after ∧ p.Takes [] taken after := by
  have hend : Decides s.toList 0 some fun _ _ => True :=
    fun before after held _ _ => iff_of_true rfl trivial
  have hfit := decides_fit hp hend [] s.toList [] rfl (Nat.zero_le 0)
  simpa [matchesStart, fitsAt, Ahead] using hfit

end LiveForm.Pattern
