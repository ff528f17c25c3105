import Mathlib
import LiveForm.Text.Blank
import LiveForm.Text.Digit
import LiveForm.Text.Word

/-!
# Decimal digits

The ten digits of ASCII are decimal digits with the values that their code points say, and no other
character of ASCII is one. A decimal digit of any script belongs to words, and it is no blank.
-/

namespace LiveForm.Text

theorem isDigit_iff {c : Char} : c.isDigit = true ↔ 48 ≤ c.toNat ∧ c.toNat ≤ 57 := by
  simp [Char.isDigit, UInt32.le_iff_toNat_le]

theorem between_digits_iff {c : Char} : '0' ≤ c ∧ c ≤ '9' ↔ 48 ≤ c.toNat ∧ c.toNat ≤ 57 := by
  simp [Char.le_def, UInt32.le_iff_toNat_le]

theorem isDigit_eq_false {c : Char} (h : c.toNat < 48 ∨ 57 < c.toNat ∧ c.toNat < 128) :
    isDigit c = false := by
  have hsmall : c.toNat < 0x80 := by omega
  have hnot : ¬('0' ≤ c ∧ c ≤ '9') := by
    rw [between_digits_iff]
    omega
  rw [isDigit, digitValue?, if_pos hsmall, if_neg hnot]
  rfl

theorem digitValue?_of_isDigit {c : Char} (h : c.isDigit = true) :
    digitValue? c = some (c.toNat - 48) := by
  have hc := isDigit_iff.1 h
  have hsmall : c.toNat < 0x80 := by omega
  rw [digitValue?, if_pos hsmall, if_pos (between_digits_iff.2 hc)]

theorem isDigit_of_ascii {c : Char} (h : c.isDigit = true) : isDigit c = true := by
  rw [isDigit, digitValue?_of_isDigit h]
  rfl

/-- A decimal digit is one of the ten that begin with the zero of its script. -/
theorem exists_zero_of_isDigit {c : Char} (h : isDigit c = true) :
    ∃ z ∈ zeros, ∃ i < 10, c.toNat = z + i := by
  rw [isDigit, digitValue?] at h
  split_ifs at h with hsmall hbetween
  · have hcode := between_digits_iff.1 hbetween
    exact ⟨48, by decide, c.toNat - 48, by omega, by omega⟩
  · exact absurd h (by simp)
  · rw [Option.isSome_map, List.find?_isSome] at h
    obtain ⟨z, hz, hin⟩ := h
    simp only [Bool.and_eq_true, decide_eq_true_eq] at hin
    exact ⟨z, hz, c.toNat - z, by omega, by omega⟩

/-- A code point in one of the ranges is found, if the ranges ascend. -/
theorem inRanges_of_mem {ranges : List (Nat × Nat)} (hsorted : ranges.IsChain (·.1 ≤ ·.1))
    {lo hi n : Nat} (h : (lo, hi) ∈ ranges) (hlo : lo ≤ n) (hhi : n ≤ hi) :
    inRanges ranges n = true := by
  have hpairs : ranges.Pairwise (·.1 ≤ ·.1) := hsorted.pairwise
  clear hsorted
  induction hpairs with
  | nil => exact absurd h List.not_mem_nil
  | @cons first rest hfirst _ ih =>
    rcases List.mem_cons.1 h with rfl | hrest
    · exact inRanges_cons_of_mem rest hlo hhi
    · have hle : first.1 ≤ n := (hfirst _ hrest).trans hlo
      rw [inRanges, if_neg (Nat.not_lt.2 hle), ih hrest, Bool.or_true]

theorem isBlank_of_isDigit {c : Char} (h : isDigit c = true) : isBlank c = false := by
  have hall : ∀ z ∈ zeros, ∀ i < 10, inRanges blankRanges (z + i) = false := by decide +kernel
  obtain ⟨z, hz, i, hi, hcode⟩ := exists_zero_of_isDigit h
  rw [isBlank, hcode]
  exact hall z hz i hi

theorem isWord_of_isDigit {c : Char} (h : isDigit c = true) : isWord c = true := by
  by_cases hsmall : c.toNat < 128
  · have hascii : c.isDigit = true := by
      rw [isDigit_iff]
      by_contra hnot
      rw [isDigit_eq_false (by omega)] at h
      exact absurd h (by simp)
    rw [isWord, if_pos hsmall, Char.isAlphanum, hascii, Bool.or_true, Bool.true_or]
  · -- The ten digits of a script lie in one range of word characters.
    have hall : (zeros.all fun z => Nat.beq z 48 ||
        wordRanges.any fun r => Nat.ble r.1 z && Nat.ble (z + 9) r.2) = true := by decide +kernel
    have hsorted : wordRanges.IsChain (·.1 ≤ ·.1) := by decide +kernel
    obtain ⟨z, hz, i, hi, hcode⟩ := exists_zero_of_isDigit h
    have hin := List.all_eq_true.1 hall z hz
    simp only [Bool.or_eq_true, Nat.beq_eq, List.any_eq_true, Bool.and_eq_true, Nat.ble_eq] at hin
    obtain rfl | ⟨r, hr, hlo, hhi⟩ := hin
    · omega
    · rw [isWord, if_neg hsmall]
      exact inRanges_of_mem hsorted hr (by omega) (by omega)

end LiveForm.Text
