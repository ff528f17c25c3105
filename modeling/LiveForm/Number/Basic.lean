import LiveForm.Number.Decimal

/-!
# Numbers

A number is whole, of any size, or floating. Whole numbers stay whole under addition, subtraction,
multiplication and exact division; once a floating number takes part the result is floating.
Comparison between the two kinds is exact.
-/

namespace LiveForm

/-- A whole number of any size, or a floating one. -/
inductive Number where
  | int (n : Int)
  | float (x : Float)
deriving DecidableEq

namespace Number

/-- The floating number nearest to a whole one; an error if that is infinite. -/
def floatOfInt (n : Int) : Except NumberError Float :=
  let x := Binary.ofInt n
  if Binary.isFinite x then .ok x else .error .tooLarge

/-- The number as a floating one. -/
def toFloat : Number → Except NumberError Float
  | int n => floatOfInt n
  | float x => .ok x

/-- A whole operation on whole numbers, a floating one otherwise. -/
def lift (whole : Int → Int → Int) (floating : Float → Float → Float) :
    Number → Number → Except NumberError Number
  | int a, int b => .ok (int (whole a b))
  | a, b => do return float (floating (← a.toFloat) (← b.toFloat))

/-- The sum. -/
def add : Number → Number → Except NumberError Number :=
  lift (· + ·) (· + ·)

/-- The difference. -/
def sub : Number → Number → Except NumberError Number :=
  lift (· - ·) (· - ·)

/-- The product. -/
def mul : Number → Number → Except NumberError Number :=
  lift (· * ·) (· * ·)

/-- The negative. -/
def neg : Number → Number
  | int n => int (-n)
  | float x => float (-x)

/-- A number equal to zero, of either kind. -/
def isZero : Number → Bool
  | int n => n == 0
  | float x => x == 0

/-- The floating quotient of two whole numbers, rounded once. -/
def ratio (a b : Int) : Except NumberError Float :=
  let x := Binary.ofRatio ((a < 0) != (b < 0)) a.natAbs b.natAbs
  if Binary.isFinite x then .ok x else .error .quotientTooLarge

/-- The quotient by a number other than zero: whole when whole numbers divide without rest. -/
def div : Number → Number → Except NumberError Number
  | int a, int b =>
    if a.fmod b == 0 then .ok (int (a.fdiv b)) else do return float (← ratio a b)
  | a, b => do return float ((← a.toFloat) / (← b.toFloat))

/-- The remainder by a number other than zero, with the sign of the dividend. -/
def mod : Number → Number → Except NumberError Number
  | int a, int b =>
    let r : Int := (a.natAbs % b.natAbs : Nat)
    .ok (int (if a < 0 then -r else r))
  | a, b => do
    match Binary.remainder (← a.toFloat) (← b.toFloat) with
    | some x => return float x
    | none => throw .outOfDomain

/-- How two numbers compare, exactly; nothing compares with what is not a number. -/
def compare? : Number → Number → Option Ordering
  | int a, int b => some (compare a b)
  | int a, float y => Binary.compareInt a y
  | float x, int b => (Binary.compareInt b x).map Ordering.swap
  | float x, float y =>
    if x < y then some .lt else if x == y then some .eq else if y < x then some .gt else none

/-- Equal as numbers, whatever their kinds. -/
def eqv (a b : Number) : Bool :=
  compare? a b == some .eq

/-- The number in decimal. -/
def write : Number → Except NumberError String
  | int n => Numeral.write n
  | float x => .ok (Decimal.write x)

/-- Reads a number from a text: whole if it can be, else floating and finite. -/
def read? (s : String) : Option Number :=
  let text := String.ofList (Text.trim s.toList)
  match Numeral.read text with
  | .ok n => some (int n)
  | .error _ =>
    match Decimal.read? text with
    | some x => if Binary.isFinite x then some (float x) else none
    | none => none

end Number

end LiveForm
