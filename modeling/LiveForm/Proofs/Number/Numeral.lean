import Mathlib
import LiveForm.Number.Basic
import LiveForm.Proofs.Text.Digit

/-!
# Digits read back

A row of digits of any script is read as the number that it stands for, unless there are more digits
than the limit (`read_of_digits`). The values of digits of ASCII are those of core (`read_digits`).
A sign may stand in front of the digits (`Denotes.read_eq`). What is written for a whole number is
one of its decimal texts, as long as it has no more digits than the limit (`write_denotes`).
-/

namespace LiveForm.Numeral

open LiveForm.Text

theorem isNumberSpace_of_isDigit {c : Char} (h : isDigit c = true) : isNumberSpace c = false := by
  rw [isNumberSpace, isBlank_of_isDigit h, Bool.false_and]

/-- Where no character is to be dropped, nothing is dropped from either end. -/
theorem dropEnds_eq_self {p : Char → Bool} {cs : List Char} (h : ∀ c ∈ cs, p c = false) :
    ((cs.dropWhile p).reverse.dropWhile p).reverse = cs := by
  have keeps : ∀ ds : List Char, (∀ c ∈ ds, p c = false) → ds.dropWhile p = ds := by
    intro ds hds
    cases ds with
    | nil => rfl
    | cons c ds => simp [hds c List.mem_cons_self]
  rw [keeps cs h, keeps cs.reverse (by simpa using h), List.reverse_reverse]

theorem trimNumber_digits {ds : List Char} (hds : ∀ c ∈ ds, isDigit c = true) :
    trimNumber ds = ds :=
  dropEnds_eq_self fun c hc => isNumberSpace_of_isDigit (hds c hc)

theorem takeSign_digits {ds : List Char} (hds : ∀ c ∈ ds, isDigit c = true) :
    takeSign ds = (false, ds) := by
  unfold takeSign
  split
  · exact absurd (hds '-' List.mem_cons_self) (by decide)
  · exact absurd (hds '+' List.mem_cons_self) (by decide)
  · rfl

/-- The value of a digit of any script. -/
def valueOf (c : Char) : Nat :=
  (digitValue? c).getD 0

theorem takeDigits_digits {ds : List Char} (hds : ∀ c ∈ ds, isDigit c = true) :
    takeDigits ds = some (ds.map valueOf, []) := by
  induction ds with
  | nil => rfl
  | cons c ds ih =>
    have hmore : ∀ d ∈ ds, isDigit d = true := fun d hd => hds d (List.mem_cons_of_mem _ hd)
    have hunder : ∀ rest, ds = '_' :: rest → False := by
      rintro rest rfl
      exact absurd (hmore '_' List.mem_cons_self) (by decide)
    obtain ⟨value, hvalue⟩ := Option.isSome_iff_exists.1 (hds c List.mem_cons_self)
    rw [takeDigits.eq_3 c ds hunder]
    simp [hvalue, ih hmore, valueOf]

/-- Digits of any script are refused if they are too many, and otherwise read as their number. -/
theorem read_of_digits {ds : List Char} (hds : ∀ c ∈ ds, isDigit c = true) (hne : ds ≠ []) :
    read (String.ofList ds) =
      if digitLimit < ds.length then .error (.tooLongToRead ds.length)
      else .ok (ofDigits (ds.map valueOf)) := by
  simp [read, trimNumber_digits hds, takeSign_digits hds, takeDigits_digits hds, hne]

theorem ofDigits_map {ds : List Char} (hds : ∀ c ∈ ds, c.isDigit = true) :
    ofDigits (ds.map valueOf) = Nat.ofDigitChars 10 ds 0 := by
  have hvalues : ds.map valueOf = ds.map fun c => c.toNat - 48 := by
    refine List.map_congr_left fun c hc => ?_
    rw [valueOf, digitValue?_of_isDigit (hds c hc)]
    rfl
  rw [hvalues, ofDigits, List.foldl_map]
  rfl

/-- Digits of ASCII that are not too many are read as their number. -/
theorem read_digits {ds : List Char} (hds : ∀ c ∈ ds, c.isDigit = true) (hne : ds ≠ [])
    (hlength : ds.length ≤ digitLimit) :
    read (String.ofList ds) = .ok (Nat.ofDigitChars 10 ds 0) := by
  rw [read_of_digits (fun c hc => isDigit_of_ascii (hds c hc)) hne,
    if_neg (Nat.not_lt.2 hlength), ofDigits_map hds]

/-! ### Signs -/

/-- Digits of any script, no more than can be read. -/
structure Readable (ds : List Char) : Prop where
  digits : ∀ c ∈ ds, isDigit c = true
  nonempty : ds ≠ []
  bounded : ds.length ≤ digitLimit

/-- **The decimal texts of a whole number**: digits that can be read, and perhaps a sign in front of
them. -/
inductive Denotes : String → Int → Prop
  | plain {ds : List Char} : Readable ds →
      Denotes (String.ofList ds) (ofDigits (ds.map valueOf))
  | plus {ds : List Char} : Readable ds →
      Denotes (String.ofList ('+' :: ds)) (ofDigits (ds.map valueOf))
  | minus {ds : List Char} : Readable ds →
      Denotes (String.ofList ('-' :: ds)) (-(ofDigits (ds.map valueOf) : Int))

theorem Readable.isBlank_signed {ds : List Char} (h : Readable ds) {sign : Char}
    (hsign : isBlank sign = false) : ∀ c ∈ sign :: ds, isBlank c = false := by
  intro c hc
  rcases List.mem_cons.1 hc with rfl | hc
  · exact hsign
  · exact isBlank_of_isDigit (h.digits c hc)

/-- No blank stands in a decimal text. -/
theorem Denotes.isBlank_eq_false {s : String} {n : Int} (h : Denotes s n) :
    ∀ c ∈ s.toList, isBlank c = false := by
  cases h with
  | plain hds =>
    rw [String.toList_ofList]
    exact fun c hc => isBlank_of_isDigit (hds.digits c hc)
  | plus hds | minus hds =>
    rw [String.toList_ofList]
    exact hds.isBlank_signed (by decide)

/-- What remains behind the sign is read as digits, and the sign says whether to negate. -/
theorem read_of_takeSign {cs ds : List Char} {negative : Bool} (hds : Readable ds)
    (htrim : trimNumber cs = cs) (hsign : takeSign cs = (negative, ds)) :
    read (String.ofList cs) =
      .ok (if negative then -(ofDigits (ds.map valueOf) : Int) else ofDigits (ds.map valueOf)) := by
  rw [read, String.toList_ofList, htrim, hsign]
  cases negative <;>
    simp [takeDigits_digits hds.digits, hds.nonempty, Nat.not_lt.2 hds.bounded]

/-- A decimal text is read as its number. -/
theorem Denotes.read_eq {s : String} {n : Int} (h : Denotes s n) : read s = .ok n := by
  have htrim : trimNumber s.toList = s.toList :=
    dropEnds_eq_self fun c hc => by rw [isNumberSpace, h.isBlank_eq_false c hc, Bool.false_and]
  cases h with
  | plain hds =>
    rw [String.toList_ofList] at htrim
    exact read_of_takeSign hds htrim (takeSign_digits hds.digits)
  | plus hds | minus hds =>
    rw [String.toList_ofList] at htrim
    exact read_of_takeSign hds htrim rfl

theorem Denotes.read?_eq {s : String} {n : Int} (h : Denotes s n) :
    Number.read? s = some (.int n) := by
  have htrim : trim s.toList = s.toList := dropEnds_eq_self h.isBlank_eq_false
  rw [Number.read?, htrim, String.ofList_toList]
  simp only [h.read_eq]

/-! ### Writing -/

/-- The digits of a number below the limit can be read. -/
theorem readable_toDigits {n : Nat} (h : n < 10 ^ digitLimit) : Readable (Nat.toDigits 10 n) where
  digits _ hc := isDigit_of_ascii (Nat.isDigit_of_mem_toDigits (by decide) (by decide) hc)
  nonempty := Nat.toDigits_ne_nil
  bounded := (Nat.length_toDigits_le_iff (by decide) (by decide)).2 h

theorem ofDigits_toDigits (n : Nat) : ofDigits ((Nat.toDigits 10 n).map valueOf) = n := by
  rw [ofDigits_map fun c hc => Nat.isDigit_of_mem_toDigits (by decide) (by decide) hc,
    Nat.ofDigitChars_ten_toDigits]

/-- A whole number that is not too long is written as one of its decimal texts. -/
theorem write_denotes {n : Int} (h : n.natAbs < 10 ^ digitLimit) :
    ∃ s, write n = .ok s ∧ Denotes s n := by
  have hds := readable_toDigits h
  rw [write, Nat.pow_eq, if_pos h]
  refine ⟨_, rfl, ?_⟩
  by_cases hneg : n < 0
  · have hminus := Denotes.minus hds
    have hn : -(n.natAbs : Int) = n := by omega
    rw [ofDigits_toDigits, hn] at hminus
    rw [if_pos hneg]
    exact hminus
  · have hplain := Denotes.plain hds
    have hn : (n.natAbs : Int) = n := by omega
    rw [ofDigits_toDigits, hn] at hplain
    rw [if_neg hneg]
    exact hplain

theorem write_long {n : Int} (h : 10 ^ digitLimit ≤ n.natAbs) :
    write n = .error .tooLongToWrite := by
  rw [write, Nat.pow_eq, if_neg (Nat.not_lt.2 h)]

end LiveForm.Numeral
