import LiveForm.Formula.Context
import LiveForm.Formula.Lexer
import LiveForm.Text.Word

/-!
# Which fields a formula reads

The names that a formula reads are found in its text, so that an unfinished formula has some too.
A word counts unless it has a meaning of its own, stands inside a quoted text or behind a point, or
is one of the context's own names with a point right behind it. Code of the host reads nothing that
can be seen from here.
-/

namespace LiveForm.Formula

open LiveForm.Text

/-- The words that never name a field. -/
def keywords : List String :=
  ["true", "false", "null", "undefined", "typeof", "instanceof", "new", "this", "if", "else",
    "return"]

/-- A word of a text, with what stands before it, nearest first, and behind it. -/
structure Occurrence where
  before : List Char
  word : List Char
  after : List Char

/-- The character is there and belongs to a word. -/
def inWord (c : Option Char) : Bool :=
  c.any isWord

/-- The greatest length up to `n` at which a word of the text ends at a boundary, or zero. -/
def boundedLength (cs : List Char) : Nat → Nat
  | 0 => 0
  | n + 1 => if inWord cs[n]? != inWord cs[n + 1]? then n + 1 else boundedLength cs n

/-- The length of the name at the front, given the character before it. A name begins and ends at a
boundary between characters of words and others. -/
def nameLength (before : Option Char) (cs : List Char) : Nat :=
  if inWord before != inWord cs.head? then boundedLength cs (wordLength cs) else 0

/-- The names of a text, from left to right. -/
def occurrences (before : List Char) (cs : List Char) : List Occurrence :=
  match cs with
  | [] => []
  | c :: rest =>
    match nameLength before.head? (c :: rest) with
    | 0 => occurrences (c :: before) rest
    | n + 1 =>
      let word := c :: rest.take n
      ⟨before, word, rest.drop n⟩ :: occurrences (word.reverse ++ before) (rest.drop n)
termination_by cs.length
decreasing_by
  all_goals simp only [List.length_drop, List.length_cons]
  all_goals omega

/-- The length of what is left of a quoted text: up to its closing quote, or to a backslash that
takes nothing with it, or to the end. -/
def spanLength (quote : Char) : List Char → Nat
  | [] => 0
  | ['\\'] => 0
  | '\\' :: '\n' :: _ => 0
  | '\\' :: _ :: rest => spanLength quote rest + 2
  | c :: rest => if c == quote then 1 else spanLength quote rest + 1

/-- The quoted texts from a position on: where each begins, and where it has ended. -/
def quotedSpans (position : Nat) (cs : List Char) : List (Nat × Nat) :=
  match cs with
  | [] => []
  | c :: rest =>
    if isQuote c then
      let n := spanLength c rest
      (position, position + 1 + n) :: quotedSpans (position + 1 + n) (rest.drop n)
    else quotedSpans (position + 1) rest
termination_by cs.length
decreasing_by
  all_goals simp only [List.length_drop, List.length_cons]
  all_goals omega

/-- The occurrence names a field. -/
def namesField (spans : List (Nat × Nat)) (o : Occurrence) : Bool :=
  let name := String.ofList o.word
  let start := o.before.length
  !keywords.contains name &&
    !(spans.any fun s => s.1 ≤ start && start < s.2) &&
    (o.before.dropWhile isBlank).head? != some '.' &&
    !(qualifiedNames.contains name && o.after.head? == some '.')

/-- The fields that a formula reads, in the order in which they first stand in it. -/
def reads (source : String) : Names String :=
  let cs := source.toList
  let spans := quotedSpans 0 cs
  Names.ofList (((occurrences [] cs).filter (namesField spans)).map fun o => String.ofList o.word)

mutual

/-- The fields read by the texts of a value, with repetitions. -/
def readsWithin : Value → List String
  | .text source => reads source
  | .list items => readsWithinItems items
  | .map entries => readsWithinEntries entries
  | _ => []

/-- The fields read by the items of a list. -/
def readsWithinItems : List Value → List String
  | [] => []
  | v :: rest => readsWithin v ++ readsWithinItems rest

/-- The fields read by the values of a map. -/
def readsWithinEntries : List (Key × Value) → List String
  | [] => []
  | (_, v) :: rest => readsWithin v ++ readsWithinEntries rest

end

/-- The fields that the texts of a value read, in the order in which they first stand in it. -/
def descriptorReads (v : Value) : Names String :=
  Names.ofList (readsWithin v)

end LiveForm.Formula
