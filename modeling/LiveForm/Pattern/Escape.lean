import LiveForm.Pattern.Basic
import LiveForm.Pattern.Piece
import LiveForm.Text.CharName

/-!
# Escapes in patterns

A backslash gives a letter or a digit a meaning and takes it from any other character. An escape
stands for a class of characters, for a place, or for one character, which may be given by its
number or by its name.
-/

namespace LiveForm.Pattern

/-- How parts of a pattern are read and matched. -/
structure Mode where
  anyCase : Bool := false
  /-- Starts and ends of lines count as starts and ends. -/
  lines : Bool := false
  /-- A point stands for a line break too. -/
  breaks : Bool := false
  /-- Classes of characters hold those of ASCII only. -/
  ascii : Bool := false
  /-- Classes of characters hold all characters: said of the whole pattern. -/
  everywhere : Bool := false
  /-- Blanks and comments in the pattern are skipped. -/
  spaced : Bool := false
  /-- The pattern is a template, which holds no repetitions. -/
  template : Bool := false
deriving Repr, DecidableEq

/-- How case counts in a mode. -/
def Mode.casing (mode : Mode) : Casing :=
  if !mode.anyCase then .exact else if mode.ascii then .ascii else .any

/-- The letters that stand for a control character behind a backslash. -/
def control? : Char → Option Nat
  | 'a' => some 7
  | 'b' => some 8
  | 'f' => some 12
  | 'n' => some 10
  | 'r' => some 13
  | 't' => some 9
  | 'v' => some 11
  | '\\' => some 0x5c
  | _ => none

/-- The letters that stand for a class of characters behind a backslash. -/
def category? (mode : Mode) : Char → Option ClassItem
  | 'd' => some (.category .digit mode.ascii false)
  | 'D' => some (.category .digit mode.ascii true)
  | 's' => some (.category .space mode.ascii false)
  | 'S' => some (.category .space mode.ascii true)
  | 'w' => some (.category .word mode.ascii false)
  | 'W' => some (.category .word mode.ascii true)
  | _ => none

/-- The letters that stand for a place behind a backslash. -/
def place? (mode : Mode) : Char → Option Pattern
  | 'A' => some (.start false)
  | 'b' => some (.boundary mode.ascii false)
  | 'B' => some (.boundary mode.ascii true)
  | 'Z' => some .final
  | _ => none

/-- How many digits in base sixteen follow a letter behind a backslash. -/
def hexWidth? : Char → Option Nat
  | 'x' => some 2
  | 'u' => some 4
  | 'U' => some 8
  | _ => none

/-- The code point given by so many digits in base sixteen. -/
def hexEscape (t : Piece) (width : Nat) (rest : List Piece) : Except Stop (Nat × Nat) :=
  let ds := takeChars isHex width rest
  let text := t.text ++ String.ofList ds
  let n := numberOf 16 ds
  if ds.length != width then stopAt (.incompleteEscape text) t.position (rest.drop ds.length)
  else if 0x10ffff < n then stopAt (.badEscape text) t.position (rest.drop width)
  else .ok (n, width)

/-- The code point of the character of a name between braces. -/
def namedEscape (size : Nat) (t : Piece) (rest : List Piece) : Except Stop (Nat × Nat) :=
  if !isNext '\x7b' rest then stopAt .noBrace t.stop rest
  else do
    let (text, n) ← name size '\x7d' "character name" (rest.drop 1)
    match Text.named? text with
    | some code => return (code, n + 1)
    | none => stopAt (.unknownCharacter (Text.quoted text)) t.position (rest.drop (n + 1))

/-- The code point given by up to three digits in base eight, the first of them read. -/
def octalEscape (t : Piece) (rest : List Piece) : Except Stop (Nat × Nat) :=
  let more := takeChars isOctal 2 rest
  let n := numberOf 8 (t.char :: more)
  if n ≤ 0xff then .ok (n, more.length)
  else
    stopAt (.octalTooLarge (t.text ++ String.ofList more)) t.position (rest.drop more.length)

/-- The code point that an escape stands for inside or outside a class. Without another meaning a
character stands for itself, but a letter or a digit may not. -/
def charEscape (size : Nat) (t : Piece) (rest : List Piece) : Except Stop (Nat × Nat) :=
  match control? t.char, hexWidth? t.char with
  | some n, _ => .ok (n, 0)
  | none, some width => hexEscape t width rest
  | none, none =>
    if t.char == 'N' then namedEscape size t rest
    else if t.char.isAlpha || t.char.isDigit then stopAt (.badEscape t.text) t.position rest
    else .ok (t.char.toNat, 0)

end LiveForm.Pattern
