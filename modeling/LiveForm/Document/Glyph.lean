import LiveForm.Document.Scalar
import LiveForm.Text.Quoted

/-!
# Lines of texts in documents

A text in a document may go on over several lines. The blanks around a line break do not count, and
a single break counts as a blank; each further break counts as itself. Between quotes, escapes stand
for characters, and an escaped break joins two lines.
-/

namespace LiveForm.Document

/-- A line break. -/
def isBreak (c : Char) : Bool :=
  c == '\n' || c == '\r' || c.toNat == 0x85 || c.toNat == 0x2028 || c.toNat == 0x2029

/-- A blank within a line of a text. -/
def isBlank (c : Char) : Bool :=
  c == ' ' || c == '\t'

/-- A line break as it counts: only the two separators of paragraphs and lines stay apart. -/
def breakCode (c : Char) : Nat :=
  if c.toNat == 0x2028 || c.toNat == 0x2029 then c.toNat else 0x0a

/-- A piece of a text. -/
inductive Glyph where
  /-- A character, by its code point. -/
  | code (n : Nat)
  | blank (c : Char)
  | lineBreak (c : Char)
  /-- An escaped line break. -/
  | joint
deriving Repr, DecidableEq

/-- A character that stands for itself, a blank or a line break. -/
def Glyph.ofChar (c : Char) : Glyph :=
  if isBreak c then .lineBreak c else if isBlank c then .blank c else .code c.toNat

/-- What has been met since the last character: blanks, or line breaks behind the first. The first
is missing if it was escaped. -/
inductive Gap where
  | blanks (codes : List Nat)
  | breaks (first : Option Nat) (later : List Nat)

/-- What counts of a gap. -/
def Gap.codes : Gap → List Nat
  | blanks codes => codes
  | breaks none later => later
  | breaks (some first) later =>
    (if first != 0x0a then [first] else if later.isEmpty then [0x20] else []) ++ later

/-- A gap, and one more line break. -/
def Gap.addBreak (n : Nat) : Gap → Gap
  | blanks _ => breaks (some n) []
  | breaks first later => breaks first (later ++ [n])

/-- A gap, and one more blank. -/
def Gap.addBlank (n : Nat) : Gap → Gap
  | blanks codes => blanks (codes ++ [n])
  | g => g

/-- The code points of a text, behind a gap. -/
def foldLines (g : Gap) : List Glyph → List Nat
  | [] => g.codes
  | .code n :: rest => g.codes ++ n :: foldLines (.blanks []) rest
  | .blank c :: rest => foldLines (g.addBlank c.toNat) rest
  | .lineBreak c :: rest => foldLines (g.addBreak (breakCode c)) rest
  | .joint :: rest => g.codes ++ foldLines (.breaks none []) rest

/-- The first half of a pair that stands for one character. -/
def isHighHalf (n : Nat) : Bool :=
  0xd800 ≤ n && n < 0xdc00

/-- The second half of a pair. -/
def isLowHalf (n : Nat) : Bool :=
  0xdc00 ≤ n && n < 0xe000

/-- Code points as characters; two halves that follow each other make one. -/
def charsOf : List Nat → List Char
  | [] => []
  | [n] => [Char.ofNat n]
  | high :: low :: rest =>
    if isHighHalf high && isLowHalf low then
      Char.ofNat (0x10000 + 0x400 * (high - 0xd800) + (low - 0xdc00)) :: charsOf rest
    else Char.ofNat high :: charsOf (low :: rest)

/-- The text of some glyphs. -/
def textOf (glyphs : List Glyph) : String :=
  String.ofList (charsOf (foldLines (.blanks []) glyphs))

/-! ### Texts between quotes -/

/-- A line that ends or begins a document. -/
def isMarker (cs : List Char) : Bool :=
  let ends :=
    match cs.drop 3 with
    | [] => true
    | c :: _ => isBlank c || isBreak c
  (cs.take 3 == ['-', '-', '-'] || cs.take 3 == ['.', '.', '.']) && ends

/-- The characters that escapes of one letter stand for. -/
def escapes : List (Char × Nat) :=
  [('0', 0), ('a', 7), ('b', 8), ('t', 9), ('\t', 9), ('n', 10), ('v', 11), ('f', 12), ('r', 13),
    ('e', 0x1b), (' ', 0x20), ('"', 0x22), ('/', 0x2f), ('\\', 0x5c), ('N', 0x85), ('_', 0xa0),
    ('L', 0x2028), ('P', 0x2029)]

/-- How many digits in base sixteen follow the letter of an escape. -/
def hexWidth? (c : Char) : Option Nat :=
  if c == 'x' then some 2 else if c == 'u' then some 4 else if c == 'U' then some 8 else none

/-- A digit in base sixteen. -/
def isHex (c : Char) : Bool :=
  c.isDigit || ('a' ≤ c && c ≤ 'f') || ('A' ≤ c && c ≤ 'F')

/-- One more glyph in front, which takes some characters. -/
def consGlyph (g : Glyph) (taken : Nat) (r : List Glyph × Nat) : List Glyph × Nat :=
  (g :: r.1, r.2 + taken)

/-- What is between double quotes, behind the first: the glyphs, and how many characters have been
read with the last quote. The state counts the digits of an escape that are still to come, and holds
their number so far. -/
def doubleQuoted (digits number : Nat) : List Char → Option (List Glyph × Nat)
  | [] => none
  | c :: rest =>
    match digits with
    | n + 1 =>
      if !isHex c then none
      else
        let number' := 16 * number + hexDigit c
        if n != 0 then (doubleQuoted n number' rest).map fun r => (r.1, r.2 + 1)
        else if 0x10ffff < number' then none
        else (doubleQuoted 0 0 rest).map (consGlyph (.code number') 1)
    | 0 =>
      if c == '"' then some ([], 1)
      else if c == '\\' then
        match rest with
        | [] => none
        | e :: more =>
          if isBreak e then
            if isMarker more then none else (doubleQuoted 0 0 more).map (consGlyph .joint 2)
          else
            match hexWidth? e, escapes.lookup e with
            | some width, _ => (doubleQuoted width 0 more).map fun r => (r.1, r.2 + 2)
            | none, some n => (doubleQuoted 0 0 more).map (consGlyph (.code n) 2)
            | none, none => none
      else if isBreak c && isMarker rest then none
      else (doubleQuoted 0 0 rest).map (consGlyph (.ofChar c) 1)

/-- What is between single quotes, behind the first. A quote inside is written twice. -/
def singleQuoted : List Char → Option (List Glyph × Nat)
  | [] => none
  | c :: rest =>
    if c == Text.singleQuote then
      match rest with
      | c' :: more =>
        if c' == Text.singleQuote then (singleQuoted more).map (consGlyph (.code c.toNat) 2)
        else some ([], 1)
      | [] => some ([], 1)
    else if isBreak c && isMarker rest then none
    else (singleQuoted rest).map (consGlyph (.ofChar c) 1)

end LiveForm.Document
