import LiveForm.Document.Node
import LiveForm.Value.Property

/-!
# Reading documents

A document is one value: a map between braces, a list between brackets, a text between quotes or a
plain word. It may be spread over lines, with comments behind number signs, and it holds no control
characters but tabs and line breaks.
-/

namespace LiveForm.Document

mutual

/-- The value of a node. Lists and maps cannot be keys. -/
def Node.value : Node → Except DocumentError Value
  | .word text => (plainValue text).mapError .number
  | .quoted text => .ok (.text text)
  | .list nodes => do return .list (← valuesOf nodes)
  | .map es => do return .map (Table.ofList (← entriesOf es))

/-- The values of nodes. -/
def valuesOf : List Node → Except DocumentError (List Value)
  | [] => .ok []
  | n :: rest => do
    let first ← n.value
    return first :: (← valuesOf rest)

/-- The entries of a map. -/
def entriesOf : List (Node × Node) → Except DocumentError (List (Key × Value))
  | [] => .ok []
  | (k, v) :: rest => do
    match (← k.value).toKey? with
    | none => throw .malformed
    | some key =>
      let first ← v.value
      return (key, first) :: (← entriesOf rest)

end

/-- A character that may stand in a document. -/
def mayStand (c : Char) : Bool :=
  let n := c.toNat
  n == 0x09 || n == 0x0a || n == 0x0d || (0x20 ≤ n && n ≤ 0x7e) || n == 0x85 ||
    (0xa0 ≤ n && n ≤ 0xfffd) || 0x10000 ≤ n

/-- Line breaks of one kind: a carriage return, with or without a line feed, is a line feed. -/
def evenBreaks : List Char → List Char
  | [] => []
  | '\r' :: '\n' :: rest => '\n' :: evenBreaks rest
  | '\r' :: rest => '\n' :: evenBreaks rest
  | c :: rest => c :: evenBreaks rest

/-- A document without the mark of byte order that it may begin with. -/
def withoutMark (cs : List Char) : List Char :=
  match cs with
  | c :: rest => if c.toNat == 0xfeff then rest else c :: rest
  | [] => []

/-- A document without the line that it may begin with. -/
def withoutMarker (cs : List Char) : List Char :=
  let rest := cs.drop (gapLength false cs)
  if rest.take 3 == ['-', '-', '-'] && isMarker rest then rest.drop 3 else cs

/-- Reads a document. An empty one stands for nothing. -/
def read (text : String) : Except DocumentError Value :=
  let cs := withoutMarker (withoutMark (evenBreaks text.toList))
  if !cs.all mayStand then .error .malformed
  else
    match (parts 0 {} cs).bind wholeNode with
    | none => .error .malformed
    | some n => n.value

end LiveForm.Document
