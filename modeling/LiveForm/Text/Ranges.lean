/-!
# Sets of characters as ranges of code points

A character class beyond ASCII is given as a list of closed ranges of code points, in ascending
order. Looking a character up is one pass over the list.
-/

namespace LiveForm.Text

/-- A code point lies in one of the closed ranges. The ranges ascend, so the search stops at the
first one that begins after it. -/
def inRanges : List (Nat × Nat) → Nat → Bool
  | [], _ => false
  | (lo, hi) :: rest, n => if n < lo then false else n ≤ hi || inRanges rest n

/-- A range that holds the code point settles the search. -/
theorem inRanges_cons_of_mem {lo hi n : Nat} (rest : List (Nat × Nat)) (h₁ : lo ≤ n) (h₂ : n ≤ hi) :
    inRanges ((lo, hi) :: rest) n = true := by
  simp [inRanges, Nat.not_lt.mpr h₁, h₂]

end LiveForm.Text
