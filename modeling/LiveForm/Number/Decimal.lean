import LiveForm.Number.Binary
import LiveForm.Number.Numeral

/-!
# Floating numbers as decimal text

A floating number is written with the fewest digits that read back as the same number, and of two
such decimals with the nearer one. It is laid out with a point as long as its leading digit stands
between ten thousandths and ten to the fifteenth, and with an exponent of at least two digits
otherwise.
-/

namespace LiveForm.Decimal

open LiveForm.Binary

/-- `digits * 10 ^ exponent`. -/
structure Scientific where
  digits : Nat
  exponent : Int
deriving Repr, DecidableEq

/-- Compares `a * 10 ^ i` with `n * 2 ^ j`, exactly. -/
def compareScaled (a : Nat) (i : Int) (n : Nat) (j : Int) : Ordering :=
  compare (a * Nat.pow 10 i.toNat * Nat.pow 2 (-j).toNat)
    (n * Nat.pow 2 j.toNat * Nat.pow 10 (-i).toNat)

/-- The gap to the floating number below is half the gap to the one above: so just above a power
of two, but for the least one. -/
def narrowBelow (m : Nat) (e : Int) : Bool :=
  m == Nat.pow 2 52 && -1074 < e

/-- A decimal lies among the reals that round to `m * 2 ^ e`. The two ends of that interval belong
to it when `m` is even. -/
def readsBack (m : Nat) (e : Int) (d : Scientific) : Bool :=
  let low := compareScaled d.digits d.exponent
    (if narrowBelow m e then 4 * m - 1 else 4 * m - 2) (e - 2)
  let high := compareScaled d.digits d.exponent (4 * m + 2) (e - 2)
  let ends := m % 2 == 0
  (low == .gt || (ends && low == .eq)) && (high == .lt || (ends && high == .eq))

/-- The least `k` from `start` on with `m * 2 ^ e < 10 ^ k`, within the given number of tries. -/
def scaleFrom (m : Nat) (e : Int) : Nat → Int → Int
  | 0, k => k
  | tries + 1, k => if compareScaled 1 k m e == .gt then k else scaleFrom m e tries (k + 1)

/-- The decimal place just above the leading digit of `m * 2 ^ e`. The search starts from below an
estimate by the binary logarithm. -/
def scale (m : Nat) (e : Int) : Int :=
  scaleFrom m e 8 (Int.fdiv (((m.log2 : Int) + e) * 30103) 100000 - 2)

/-- The two neighbours of `m * 2 ^ e` on the grid of `10 ^ place`: the one below it, and the one
above. -/
def gridBelow (m : Nat) (e place : Int) : Nat :=
  let num := m * Nat.pow 2 e.toNat * Nat.pow 10 (-place).toNat
  let den := Nat.pow 2 (-e).toNat * Nat.pow 10 place.toNat
  num / den

/-- The decimal of the grid that stands for `m * 2 ^ e`: the nearer neighbour of those that read
back, the even one if they are equally near. -/
def onGrid? (m : Nat) (e place : Int) : Option Scientific :=
  let below := gridBelow m e place
  let lower : Scientific := ⟨below, place⟩
  let higher : Scientific := ⟨below + 1, place⟩
  match readsBack m e lower, readsBack m e higher with
  | false, false => none
  | true, false => some lower
  | false, true => some higher
  | true, true =>
    match compareScaled (2 * below + 1) place (2 * m) e with
    | .gt => some lower
    | .lt => some higher
    | .eq => some (if below % 2 == 0 then lower else higher)

/-- The exact decimal of `m * 2 ^ e`. -/
def exactly (m : Nat) (e : Int) : Scientific :=
  if 0 ≤ e then ⟨m * Nat.pow 2 e.toNat, 0⟩ else ⟨m * Nat.pow 5 (-e).toNat, e⟩

/-- The decimal with the fewest digits that reads back, from one digit to seventeen. -/
def shortest (m : Nat) (e : Int) : Scientific :=
  let k := scale m e
  let places := (List.range 17).map fun (n : Nat) => k - ((n : Int) + 1)
  (places.findSome? (onGrid? m e)).getD (exactly m e)

/-- The digits of a decimal without the zeros at their end, and the place of the leading digit. -/
def significant (d : Scientific) : List Char × Int :=
  let ds := Nat.toDigits 10 d.digits
  let kept := (ds.reverse.dropWhile (· == '0')).reverse
  (kept, d.exponent + ds.length - 1)

/-- The exponent mark, the sign and at least two digits. -/
def exponentText (e : Int) : List Char :=
  let ds := Nat.toDigits 10 e.natAbs
  'e' :: (if e < 0 then '-' else '+') :: (if ds.length < 2 then '0' :: ds else ds)

/-- Lays digits out, given the place of the leading one. -/
def layout (ds : List Char) (place : Int) : List Char :=
  if place < -4 || 16 ≤ place then
    match ds with
    | [] => exponentText place
    | [d] => d :: exponentText place
    | d :: more => d :: '.' :: more ++ exponentText place
  else if place < 0 then
    '0' :: '.' :: List.replicate (-place - 1).toNat '0' ++ ds
  else
    let whole := (place + 1).toNat
    if ds.length ≤ whole then ds ++ List.replicate (whole - ds.length) '0' ++ ['.', '0']
    else ds.take whole ++ '.' :: ds.drop whole

/-- The text of a floating number. -/
def write (x : Float) : String :=
  match shape x with
  | .nan => "nan"
  | .infinite negative => if negative then "-inf" else "inf"
  | .finite v =>
    let text :=
      if v.mantissa == 0 then ['0', '.', '0']
      else
        let (ds, place) := significant (shortest v.mantissa v.exponent)
        layout ds place
    String.ofList (if v.negative then '-' :: text else text)

/-- The floating number nearest to a decimal. Decimals far outside the floating range are settled
by the place of their leading digit alone. -/
def toFloat (negative : Bool) (digits : List Nat) (exponent : Int) : Float :=
  let ds := digits.dropWhile (· == 0)
  let place := exponent + ds.length
  if ds.isEmpty || place < -400 then ofScaled ⟨negative, 0, 0⟩
  else if 400 < place then ofScaled ⟨negative, 1, 2000⟩
  else
    let n := Numeral.ofDigits ds
    if 0 ≤ exponent then ofScaled ⟨negative, n * Nat.pow 10 exponent.toNat, 0⟩
    else ofRatio negative n (Nat.pow 10 (-exponent).toNat)

/-- The exponent part of a decimal: nothing, or a mark, a sign and digits up to the end. -/
def readExponent? : List Char → Option Int
  | [] => some 0
  | c :: rest =>
    if c == 'e' || c == 'E' then
      let (negative, unsigned) := Numeral.takeSign rest
      match Numeral.takeDigits unsigned with
      | some (d :: ds, []) =>
        let n : Int := Numeral.ofDigits (d :: ds)
        some (if negative then -n else n)
      | _ => none
    else none

/-- The words for what is no finite number. -/
def special? (negative : Bool) (cs : List Char) : Option Float :=
  let word := cs.map Char.toLower
  if word == "inf".toList || word == "infinity".toList then
    some (ofScaled ⟨negative, 1, 2000⟩)
  else if word == "nan".toList then some (Float.ofBits 0x7ff8000000000000)
  else none

/-- Reads a floating number: digits with an optional point and exponent, or a word for infinity or
for what is not a number. -/
def read? (s : String) : Option Float := do
  let (negative, unsigned) := Numeral.takeSign (Numeral.trimNumber s.toList)
  match special? negative unsigned with
  | some x => return x
  | none =>
    let (whole, rest) ← Numeral.takeDigits unsigned
    let (part, after) ←
      match rest with
      | '.' :: more => Numeral.takeDigits more
      | _ => some ([], rest)
    guard !(whole.isEmpty && part.isEmpty)
    let e ← readExponent? after
    return toFloat negative (whole ++ part) (e - part.length)

end LiveForm.Decimal
