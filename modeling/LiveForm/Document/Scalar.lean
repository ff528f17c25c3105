import LiveForm.Value.Basic
import LiveForm.Number.Decimal

/-!
# Plain words of documents

A word of a document without quotes may stand for nothing, for a flag or for a number; any other
stands for itself. A floating number needs its point, and its exponent needs a sign. Colons part the
figures of a number in base sixty, as in a time of day.
-/

namespace LiveForm.Document

/-- The words for nothing. -/
def nullWords : List String :=
  ["", "~", "null", "Null", "NULL"]

/-- The words for true. -/
def trueWords : List String :=
  ["yes", "Yes", "YES", "true", "True", "TRUE", "on", "On", "ON"]

/-- The words for false. -/
def falseWords : List String :=
  ["no", "No", "NO", "false", "False", "FALSE", "off", "Off", "OFF"]

/-- The sign in front, and the rest. -/
def signed (cs : List Char) : Int × List Char :=
  match cs with
  | '-' :: rest => (-1, rest)
  | '+' :: rest => (1, rest)
  | rest => (1, rest)

/-- A digit, or the underscore that may stand among digits. -/
def isFigure (c : Char) : Bool :=
  c.isDigit || c == '_'

/-- The value of a digit in base sixteen. -/
def hexDigit (c : Char) : Nat :=
  if c.isDigit then c.toNat - 0x30
  else if 'a' ≤ c then c.toNat - 0x61 + 10
  else c.toNat - 0x41 + 10

/-- The number of digits in a base, underscores left out. -/
def inBase (base : Nat) (cs : List Char) : Nat :=
  (cs.filter (· != '_')).foldl (fun n c => base * n + hexDigit c) 0

/-- The characters are of some class, and there are some. -/
def someOf (p : Char → Bool) (cs : List Char) : Bool :=
  !cs.isEmpty && cs.all p

/-- A number of decimal digits, underscores left out. There may be too many digits to read. -/
def decimal (cs : List Char) : Except NumberError Nat :=
  let count := cs.countP (· != '_')
  if digitLimit < count then .error (.tooLongToRead count) else .ok (inBase 10 cs)

/-- The size of a whole number without its sign: in base two, eight, ten or sixteen. -/
def natural? (cs : List Char) : Option (Except NumberError Nat) :=
  match cs with
  | '0' :: 'b' :: ds => if someOf (fun c => c == '0' || c == '1' || c == '_') ds
      then some (.ok (inBase 2 ds)) else none
  | '0' :: 'x' :: ds =>
    if someOf (fun c => isFigure c || ('a' ≤ c && c ≤ 'f') || ('A' ≤ c && c ≤ 'F')) ds
    then some (.ok (inBase 16 ds)) else none
  | ['0'] => some (.ok 0)
  | '0' :: ds => if ds.all fun c => ('0' ≤ c && c ≤ '7') || c == '_'
      then some (.ok (inBase 8 ds)) else none
  | c :: ds => if c.isDigit && ds.all isFigure then some (decimal (c :: ds)) else none
  | [] => none

/-- A figure of a number in base sixty. -/
def isSixtieth (cs : List Char) : Bool :=
  match cs with
  | [c] => c.isDigit
  | [c, d] => '0' ≤ c && c ≤ '5' && d.isDigit
  | _ => false

/-- The figures that colons part: the first, and the others, which there must be. -/
def sixtieths? (cs : List Char) : Option (List Char × List (List Char)) :=
  match ((String.ofList cs).splitOn ":").map String.toList with
  | first :: second :: rest => some (first, second :: rest)
  | _ => none

/-- The size of a whole number in base sixty without its sign. -/
def clockNumber? (cs : List Char) : Option (Except NumberError Nat) :=
  match sixtieths? cs with
  | some (c :: ds, rest) =>
    if '1' ≤ c && c ≤ '9' && ds.all isFigure && rest.all isSixtieth then
      let add (n : Nat) (figure : List Char) := 60 * n + inBase 10 figure
      some ((decimal (c :: ds)).map (rest.foldl add))
    else none
  | _ => none

/-- The exponent of a floating number, or nothing at all. -/
def isExponent (cs : List Char) : Bool :=
  match cs with
  | [] => true
  | mark :: sign :: ds =>
    (mark == 'e' || mark == 'E') && (sign == '+' || sign == '-') && someOf Char.isDigit ds
  | _ => false

/-- The characters are those of a floating number without its sign. Only a number that has no sign
may begin with its point. -/
def isFloating (hasSign : Bool) (cs : List Char) : Bool :=
  let whole := cs.takeWhile isFigure
  match cs.drop whole.length with
  | '.' :: rest =>
    let part := rest.takeWhile isFigure
    let startsWell :=
      match whole, part with
      | c :: _, _ => c.isDigit
      | [], c :: _ => !hasSign && c.isDigit
      | [], [] => false
    startsWell && isExponent (rest.drop part.length)
  | _ => false

/-- The size of a floating number in base sixty without its sign: each figure is given its weight,
and the weighted figures are added from the last to the first. -/
def clockFloat? (cs : List Char) : Option Float := do
  let (first, rest) ← sixtieths? cs
  let last := (rest.getLast?.getD []).takeWhile (· != '.')
  let part := (rest.getLast?.getD []).drop last.length
  let startsWell := (first.head?.map Char.isDigit).getD false && first.all isFigure
  if startsWell && rest.dropLast.all isSixtieth && isSixtieth last && part.head? == some '.' &&
      part.tail.all isFigure then
    let lastFigure ← Decimal.read? (String.ofList ((last ++ part).filter (· != '_')))
    let figures := (first :: rest.dropLast).map fun figure => Float.ofNat (inBase 10 figure)
    let sum := figures.foldr (fun x (sum : Float × Float) => (sum.1 + x * sum.2, 60 * sum.2))
      (lastFigure, 60.0)
    return sum.1
  else none

/-- The floating number that a word stands for. -/
def floating? (word : List Char) : Option Float :=
  let (sign, cs) := signed word
  let text := String.ofList cs
  if text == ".inf" || text == ".Inf" || text == ".INF" then
    Decimal.read? (if sign < 0 then "-inf" else "inf")
  else if word == cs && (text == ".nan" || text == ".NaN" || text == ".NAN") then
    Decimal.read? "nan"
  else if isFloating (word != cs) cs then Decimal.read? (String.ofList (word.filter (· != '_')))
  else (clockFloat? cs).map fun x => if sign < 0 then -x else x

/-- The value of a plain word. -/
def plainValue (word : String) : Except NumberError Value :=
  if nullWords.contains word then .ok .null
  else if trueWords.contains word then .ok (.bool true)
  else if falseWords.contains word then .ok (.bool false)
  else
    let (sign, cs) := signed word.toList
    match (natural? cs).orElse fun _ => clockNumber? cs, floating? word.toList with
    | some n, _ => n.map fun n => .int (sign * n)
    | none, some x => .ok (.float x)
    | none, none => .ok (.text word)

end LiveForm.Document
