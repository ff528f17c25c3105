import LiveForm.Pattern.Error
import LiveForm.Text.Quoted

/-!
# Pieces of patterns

A pattern is read piece by piece, a backslash and the character behind it being one piece. Whoever
reads something from the pieces tells what it is and how many pieces it takes, or where reading
stopped.
-/

namespace LiveForm.Pattern

/-- A piece of a pattern: a character, or a character behind a backslash, and its offset. -/
structure Piece where
  position : Nat
  escaped : Bool
  char : Char
deriving Repr, DecidableEq

/-- The piece as it is written. -/
def Piece.text (p : Piece) : String :=
  if p.escaped then String.ofList ['\\', p.char] else String.singleton p.char

/-- The piece is this character, without a backslash. -/
def Piece.is (p : Piece) (c : Char) : Bool :=
  !p.escaped && p.char == c

/-- The piece is one of these characters, without a backslash. -/
def Piece.isOneOf (p : Piece) (cs : List Char) : Bool :=
  !p.escaped && cs.contains p.char

/-- The offset behind the piece. -/
def Piece.stop (p : Piece) : Nat :=
  p.position + if p.escaped then 2 else 1

/-- Cuts a pattern into pieces. The flag tells that a lone backslash ends it. -/
def pieces (position : Nat) : List Char → List Piece × Bool
  | [] => ([], false)
  | ['\\'] => ([], true)
  | '\\' :: c :: rest =>
    let (more, dangling) := pieces (position + 2) rest
    (⟨position, true, c⟩ :: more, dangling)
  | c :: rest =>
    let (more, dangling) := pieces (position + 1) rest
    (⟨position, false, c⟩ :: more, dangling)

/-- Where reading stopped: the cause, its offset if it has one, and whether everything had been
read by then. -/
structure Stop where
  cause : PatternCause
  position : Option Nat
  atEnd : Bool

/-- Stops at an offset, with what has not been read. -/
def stopAt (cause : PatternCause) (position : Nat) (left : List Piece) : Except Stop α :=
  .error ⟨cause, some position, left.isEmpty⟩

/-- Stops at no place in particular, with what has not been read. -/
def stopNowhere (cause : PatternCause) (left : List Piece) : Except Stop α :=
  .error ⟨cause, none, left.isEmpty⟩

/-- How far a pattern of some size has been read. -/
def reached (size : Nat) : List Piece → Nat
  | [] => size
  | t :: _ => t.position

/-- The next piece is this character, without a backslash. -/
def isNext (c : Char) : List Piece → Bool
  | [] => false
  | t :: _ => t.is c

/-- The characters of the pieces at the front that satisfy a test, at most so many. -/
def takeChars (p : Char → Bool) : Nat → List Piece → List Char
  | n + 1, t :: rest => if !t.escaped && p t.char then t.char :: takeChars p n rest else []
  | _, _ => []

/-- The text up to a character, and how many pieces it takes, that character left out. -/
def takeUntil (closing : Char) : List Piece → String × Nat
  | [] => ("", 0)
  | t :: rest =>
    if t.is closing then ("", 0)
    else
      let (text, n) := takeUntil closing rest
      (t.text ++ text, n + 1)

/-- A name up to the character that ends it. -/
def name (size : Nat) (closing : Char) (what : String) (ts : List Piece) :
    Except Stop (String × Nat) :=
  let (text, n) := takeUntil closing ts
  match ts.drop n with
  | [] =>
    if text.isEmpty then stopAt (.unnamed what) size []
    else stopAt (.unendedName closing) (size - text.length) []
  | t :: rest =>
    if text.isEmpty then stopAt (.unnamed what) t.position rest else .ok (text, n + 1)

/-- A digit in base sixteen. -/
def isHex (c : Char) : Bool :=
  c.isDigit || ('a' ≤ c && c ≤ 'f') || ('A' ≤ c && c ≤ 'F')

/-- A digit in base eight. -/
def isOctal (c : Char) : Bool :=
  '0' ≤ c && c ≤ '7'

/-- The value of a digit. -/
def digitOf (c : Char) : Nat :=
  if c.isDigit then c.toNat - 0x30
  else if 'a' ≤ c then c.toNat - 0x61 + 10
  else c.toNat - 0x41 + 10

/-- The number that digits stand for in a base. -/
def numberOf (base : Nat) (ds : List Char) : Nat :=
  ds.foldl (fun n d => base * n + digitOf d) 0

end LiveForm.Pattern
