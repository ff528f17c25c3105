/-!
# Floating numbers as scaled integers

A finite floating number of 64 bits is a natural number below `2 ^ 53` times a power of two, with a
sign. Exact work on floating numbers is done on that form, in whole numbers, and the result is
rounded once: to the nearest floating number, to the even one of two equally near.
-/

namespace LiveForm.Binary

/-- A sign, a natural number and a power of two: `± mantissa * 2 ^ exponent`. -/
structure Scaled where
  negative : Bool
  mantissa : Nat
  exponent : Int
deriving Repr, DecidableEq

/-- A floating number is a scaled integer, an infinity or not a number. -/
inductive Shape where
  | finite (value : Scaled)
  | infinite (negative : Bool)
  | nan
deriving Repr, DecidableEq

/-- Takes a floating number apart. -/
def shape (x : Float) : Shape :=
  let bits := x.toBits.toNat
  let negative := bits ≥ Nat.pow 2 63
  let exponent : Nat := bits / Nat.pow 2 52 % Nat.pow 2 11
  let fraction : Nat := bits % Nat.pow 2 52
  if exponent == 0x7ff then
    if fraction == 0 then .infinite negative else .nan
  else if exponent == 0 then .finite ⟨negative, fraction, -1074⟩
  else .finite ⟨negative, Nat.pow 2 52 + fraction, (exponent : Int) - 1075⟩

/-- The quotient by a power of two, rounded to nearest, to even on a tie. -/
def shiftRound (m shift : Nat) : Nat :=
  let q := m / Nat.pow 2 shift
  let r := m % Nat.pow 2 shift
  if 2 * r < Nat.pow 2 shift then q
  else if Nat.pow 2 shift < 2 * r then q + 1
  else if q % 2 == 0 then q else q + 1

/-- The bits of the floating number nearest to `m * 2 ^ e`. A carry out of the mantissa moves the
exponent on by itself. -/
def nearestBits (m : Nat) (e : Int) : Nat :=
  if m == 0 then 0
  else
    let e' := max (e + ((m.log2 : Int) + 1) - 53) (-1074)
    let m' := if e' ≤ e then m * Nat.pow 2 (e - e').toNat else shiftRound m (e' - e).toNat
    min ((e' + 1074).toNat * Nat.pow 2 52 + m') (0x7ff * Nat.pow 2 52)

/-- The floating number nearest to a scaled integer. -/
def ofScaled (x : Scaled) : Float :=
  Float.ofBits (UInt64.ofNat (nearestBits x.mantissa x.exponent +
    if x.negative then Nat.pow 2 63 else 0))

/-- The floating number nearest to `num / den`. The quotient is taken to sixty-six bits or more, and
its last bit stays set when the division leaves a rest, so that the one rounding sees every tie. -/
def ofRatio (negative : Bool) (num den : Nat) : Float :=
  let shift := (den.log2 + 67) - num.log2
  let scaled := num * Nat.pow 2 shift
  let q := scaled / den
  let sticky := if scaled % den == 0 then 2 * q else 2 * q + 1
  ofScaled ⟨negative, sticky, -(shift : Int) - 1⟩

/-- The floating number nearest to a whole number. -/
def ofInt (n : Int) : Float :=
  ofScaled ⟨n < 0, n.natAbs, 0⟩

/-- Neither infinite nor not a number. -/
def isFinite (x : Float) : Bool :=
  match shape x with
  | .finite _ => true
  | _ => false

/-- The whole number that a floating number is, if it is one. -/
def toInt? (x : Float) : Option Int :=
  match shape x with
  | .finite v =>
    let sign : Int := if v.negative then -1 else 1
    if 0 ≤ v.exponent then some (sign * (v.mantissa * Nat.pow 2 v.exponent.toNat : Nat))
    else if v.mantissa % Nat.pow 2 (-v.exponent).toNat == 0 then
      some (sign * (v.mantissa / Nat.pow 2 (-v.exponent).toNat : Nat))
    else none
  | _ => none

/-- How a whole number compares with a floating one, exactly; nothing compares with what is not a
number. -/
def compareInt (n : Int) (x : Float) : Option Ordering :=
  match shape x with
  | .nan => none
  | .infinite negative => some (if negative then .gt else .lt)
  | .finite v =>
    let m : Int := if v.negative then -v.mantissa else v.mantissa
    if 0 ≤ v.exponent then some (compare n (m * Nat.pow 2 v.exponent.toNat))
    else some (compare (n * Nat.pow 2 (-v.exponent).toNat) m)

/-- The remainder of the division that rounds toward zero, with the sign of the dividend. It is
exact. Nothing remains of an infinite dividend; an infinite divisor leaves the dividend as it is. -/
def remainder (x y : Float) : Option Float :=
  match shape x, shape y with
  | .nan, _ => some x
  | _, .nan => some y
  | .infinite _, _ => none
  | .finite _, .infinite _ => some x
  | .finite a, .finite b =>
    if b.mantissa == 0 then none
    else
      let e := min a.exponent b.exponent
      let m := a.mantissa * Nat.pow 2 (a.exponent - e).toNat
      let d := b.mantissa * Nat.pow 2 (b.exponent - e).toNat
      some (ofScaled ⟨a.negative, m % d, e⟩)

end LiveForm.Binary
