import LiveForm.Pattern.Piece

/-!
# Bounds of repetitions

A mark behind an item tells how often it is repeated. A brace that opens no bounds is no mark.
-/

namespace LiveForm.Pattern

/-- How often an item is repeated, with how many pieces tell it behind the first. -/
structure Bounds where
  least : Nat
  most : Option Nat
  taken : Nat
deriving Repr, DecidableEq

/-- No repetition is counted up to here or beyond. -/
def timesLimit : Nat := 4294967295

/-- The number of times that digits stand for. -/
def times (ds : List Char) (left : List Piece) : Except Stop Nat :=
  if digitLimit < ds.length then stopNowhere (.number (.tooLongToRead ds.length)) left
  else if timesLimit ≤ numberOf 10 ds then stopNowhere .tooManyTimes left
  else .ok (numberOf 10 ds)

/-- The bounds behind an opening brace at an offset, if they are bounds. -/
def braceBounds (opened : Nat) (ts : List Piece) : Except Stop (Option Bounds) :=
  let low := takeChars Char.isDigit ts.length ts
  let behind := ts.drop low.length
  let comma := isNext ',' behind
  let high := if comma then takeChars Char.isDigit behind.length (behind.drop 1) else low
  let taken := low.length + if comma then 1 + high.length else 0
  let left := ts.drop (taken + 1)
  if taken == 0 || !isNext '\x7d' (ts.drop taken) then .ok none
  else do
    let least ← if low.isEmpty then pure 0 else times low left
    let most ← if high.isEmpty then pure none else some <$> times high left
    if most.any (· < least) then stopAt .reversedBounds (opened + 1) left
    else return some { least, most, taken := taken + 1 }

/-- The bounds that a piece stands for, given what is behind it. -/
def bounds (t : Piece) (rest : List Piece) : Except Stop (Option Bounds) :=
  if t.is '?' then .ok (some ⟨0, some 1, 0⟩)
  else if t.is '*' then .ok (some ⟨0, none, 0⟩)
  else if t.is '+' then .ok (some ⟨1, none, 0⟩)
  else if t.is '\x7b' then braceBounds t.position rest
  else .ok none

end LiveForm.Pattern
