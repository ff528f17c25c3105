import LiveForm.Number.Error
import LiveForm.Text.Blank
import LiveForm.Text.Digit
import LiveForm.Text.Quoted

/-!
# Whole numbers as text

A numeral is an optional sign and decimal digits of any script, with single underscores allowed
between digits and blanks allowed around the whole. Neither reading nor writing handles more than
`digitLimit` digits.
-/

namespace LiveForm.Numeral

open LiveForm.Text

/-- Digits from the front of a text, and what follows them. A single underscore may stand between
two digits; an underscore anywhere else in the run makes it no run at all. -/
def takeDigits : List Char → Option (List Nat × List Char)
  | [] => some ([], [])
  | c :: '_' :: rest =>
    match digitValue? c with
    | none => some ([], c :: '_' :: rest)
    | some d =>
      match takeDigits rest with
      | some (next :: ds, after) => some (d :: next :: ds, after)
      | _ => none
  | c :: rest =>
    match digitValue? c with
    | none => some ([], c :: rest)
    | some d => (takeDigits rest).map fun (ds, after) => (d :: ds, after)

/-- The number that a list of digits stands for, leading digit first. -/
def ofDigits (ds : List Nat) : Nat :=
  ds.foldl (fun n d => 10 * n + d) 0

/-- The text without the blanks that may surround a number. -/
def trimNumber (cs : List Char) : List Char :=
  ((cs.dropWhile isNumberSpace).reverse.dropWhile isNumberSpace).reverse

/-- The sign in front of a number and the rest: true for a minus. -/
def takeSign : List Char → Bool × List Char
  | '-' :: rest => (true, rest)
  | '+' :: rest => (false, rest)
  | rest => (false, rest)

/-- Reads a whole number. The length of the leading digits is looked at before what follows
them. -/
def read (s : String) : Except NumberError Int :=
  let malformed := NumberError.malformed (String.ofList ((quoted s).toList.take 200))
  let (negative, unsigned) := takeSign (trimNumber s.toList)
  match takeDigits unsigned with
  | none => .error malformed
  | some (ds, after) =>
    if digitLimit < ds.length then .error (.tooLongToRead ds.length)
    else if ds.isEmpty || !after.isEmpty then .error malformed
    else if negative then .ok (-(ofDigits ds : Int))
    else .ok (ofDigits ds)

/-- Writes a whole number in decimal. -/
def write (n : Int) : Except NumberError String :=
  if n.natAbs < Nat.pow 10 digitLimit then
    let ds := Nat.toDigits 10 n.natAbs
    .ok (String.ofList (if n < 0 then '-' :: ds else ds))
  else .error .tooLongToWrite

end LiveForm.Numeral
