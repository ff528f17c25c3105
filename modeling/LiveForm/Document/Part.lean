import LiveForm.Document.Error
import LiveForm.Document.Glyph

/-!
# Parts of documents

A document falls into parts: brackets and braces, commas and colons, texts between quotes and plain
words. Blanks, line breaks and comments stand between them. Each part knows its place, because a key
must stand on one line and not too far from its colon.
-/

namespace LiveForm.Document

/-- A part of a document. -/
inductive Part where
  | openMap | closeMap | openList | closeList | comma | colon
  | word (text : String)
  | quoted (text : String)
deriving Repr, DecidableEq

/-- How many characters and how many line breaks stand in front of something. -/
structure Place where
  index : Nat := 0
  line : Nat := 0
deriving Repr, DecidableEq

/-- The place behind some characters. -/
def Place.after (p : Place) (cs : List Char) : Place :=
  ⟨p.index + cs.length, p.line + cs.countP isBreak⟩

/-- A part in its place. -/
structure Placed where
  part : Part
  place : Place
deriving Repr, DecidableEq

/-- A key must begin at most so many characters before its colon. -/
def keyReach : Nat := 1024

/-- What begins at a place can be the key of a colon. -/
def Place.reaches (key colon : Place) : Bool :=
  key.line == colon.line && colon.index ≤ key.index + keyReach

/-! ### Between the parts -/

/-- A blank between the parts of a document. -/
def isGap (c : Char) : Bool :=
  c == ' ' || isBreak c

/-- How many characters of blanks and comments stand at the front. -/
def gapLength (inComment : Bool) : List Char → Nat
  | [] => 0
  | c :: rest =>
    if inComment then gapLength (!isBreak c) rest + 1
    else if isGap c then gapLength false rest + 1
    else if c == '#' then gapLength true rest + 1
    else 0

/-! ### Plain words -/

/-- The characters that end a plain word inside brackets. -/
def isFlowMark (c : Char) : Bool :=
  c == ',' || c == '[' || c == ']' || c == '\x7b' || c == '\x7d'

/-- The characters that no plain word starts with. -/
def isIndicator (c : Char) : Bool :=
  "-?:,[]#&*!|>%@`\"\t".toList.contains c || c == '\x7b' || c == '\x7d' || c == Text.singleQuote

/-- A plain word may start with these. -/
def startsPlain (inside : Bool) (c : Char) (rest : List Char) : Bool :=
  !isIndicator c ||
    ((c == '-' || (!inside && (c == '?' || c == ':'))) &&
      rest.head?.any fun next => !isGap next && next != '\t')

/-- A colon with this behind it ends a plain word. -/
def endsKey (inside : Bool) (rest : List Char) : Bool :=
  rest.head?.all fun next => isGap next || next == '\t' || (inside && isFlowMark next)

/-- The length of a plain word, blanks behind it included. -/
def plainLength (inside afterGap : Bool) : List Char → Nat
  | [] => 0
  | c :: rest =>
    let ends :=
      c == '\t' || (inside && (isFlowMark c || c == '?')) || (c == '#' && afterGap) ||
        (c == ':' && endsKey inside rest)
    if ends then 0 else plainLength inside (isGap c) rest + 1

/-- The text of a plain word, without the blanks at its end. -/
def plainText (cs : List Char) : String :=
  textOf (((cs.reverse.dropWhile isGap).reverse).map Glyph.ofChar)

/-! ### The parts -/

/-- The part that starts with a character, and how many characters behind it belong to it. -/
def part (inside : Bool) (c : Char) (rest : List Char) : Option (Part × Nat) :=
  let text (r : List Glyph × Nat) : Part × Nat := (.quoted (textOf r.1), r.2)
  if c == '\x7b' then some (.openMap, 0)
  else if c == '\x7d' then some (.closeMap, 0)
  else if c == '[' then some (.openList, 0)
  else if c == ']' then some (.closeList, 0)
  else if c == ',' then some (.comma, 0)
  else if c == ':' && (inside || endsKey false rest) then some (.colon, 0)
  else if c == '"' then (doubleQuoted 0 0 rest).map text
  else if c == Text.singleQuote then (singleQuoted rest).map text
  else if startsPlain inside c rest then
    let n := plainLength inside false rest
    some (.word (plainText (c :: rest.take n)), n)
  else none

/-- How many brackets and braces are open behind a part. -/
def Part.depth (before : Nat) : Part → Nat
  | openMap => before + 1
  | openList => before + 1
  | closeMap => before - 1
  | closeList => before - 1
  | _ => before

/-- The parts of a document behind a place, where so many brackets and braces are open. -/
def parts (depth : Nat) (place : Place) (cs : List Char) : Option (List Placed) :=
  let n := gapLength false cs
  match h : cs.drop n with
  | [] => some []
  | c :: rest =>
    have bound : rest.length < cs.length := by
      have := congrArg List.length h
      simp only [List.length_drop, List.length_cons] at this
      omega
    match part (depth != 0) c rest with
    | none => none
    | some (p, m) =>
      let here := place.after (cs.take n)
      (parts (p.depth depth) (here.after (c :: rest.take m)) (rest.drop m)).map (⟨p, here⟩ :: ·)
termination_by cs.length
decreasing_by
  simp only [List.length_drop]
  omega

end LiveForm.Document
