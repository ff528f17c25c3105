/-!
# What can go wrong with a number

A number may be too large for the floating range, lie outside the domain of an operation, have too
many digits to be read or written, or be no number at all.
-/

namespace LiveForm

/-- The most decimal digits that a whole number may have when it is read or written. -/
def digitLimit : Nat := 4300

/-- Why a number cannot be computed, read or written. -/
inductive NumberError where
  /-- A whole number beyond the floating range. -/
  | tooLarge
  /-- A quotient of whole numbers beyond the floating range. -/
  | quotientTooLarge
  /-- The remainder of an infinite number. -/
  | outOfDomain
  /-- A whole number with more digits than may be written. -/
  | tooLongToWrite
  /-- A numeral with more digits than may be read. -/
  | tooLongToRead (digits : Nat)
  /-- A text that is no whole number, shown in quotes. -/
  | malformed (shown : String)
deriving Repr, DecidableEq

/-- The limit on digits, in words. -/
def limitText : String :=
  "Exceeds the limit (" ++ toString digitLimit ++ " digits) for integer string conversion"

/-- How the limit on digits is moved, in words. -/
def adviceText : String :=
  "use sys.set_int_max_str_digits() to increase the limit"

/-- The error in words. -/
def NumberError.message : NumberError → String
  | tooLarge => "int too large to convert to float"
  | quotientTooLarge => "integer division result too large for a float"
  | outOfDomain => "math domain error"
  | tooLongToWrite => limitText ++ "; " ++ adviceText
  | tooLongToRead digits =>
    limitText ++ ": value has " ++ toString digits ++ " digits; " ++ adviceText
  | malformed shown => "invalid literal for int() with base 10: " ++ shown

end LiveForm
