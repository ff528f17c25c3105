import LiveForm.Number.Numeral
import LiveForm.Pattern.Bounds
import LiveForm.Pattern.ClassReader
import LiveForm.Pattern.Flags
import LiveForm.Pattern.Match
import LiveForm.Value.Table

/-!
# Reading patterns

A pattern is read from left to right. What has been read of a group that is still open waits in a
frame until the group is closed. A mark of repetition applies to the item just before it; a closing
bracket and braces that open no bounds stand for themselves.
-/

namespace LiveForm.Pattern

/-- What an item of a row is, as far as a repetition cares. -/
inductive ItemKind where
  | place | repeated | other
deriving Repr, DecidableEq

/-- An item of a row. -/
structure Item where
  pattern : Pattern
  kind : ItemKind := .other

/-- What a parenthesis has opened. -/
inductive Opening where
  | plain
  | settled
  | group (number : Nat)
  | look (ahead negated : Bool)
  | ifHeld (number : Nat)
deriving Repr, DecidableEq

/-- A group that is still open, with what had been read before it. -/
structure Frame where
  opening : Opening
  position : Nat
  items : List Item
  rows : List Pattern
  mode : Mode
  behind : Option Nat

/-- What has been read of a pattern. -/
structure Reader where
  /-- The items of the present row, the last first. -/
  items : List Item := []
  /-- The alternatives before the present row, the last first. -/
  rows : List Pattern := []
  /-- The open groups, the innermost first. -/
  frames : List Frame := []
  mode : Mode := {}
  /-- The widths of the groups by number, those that are closed. -/
  widths : List (Option Width) := []
  /-- The numbers of the groups that have names. -/
  names : Table String Nat := []
  /-- In a look behind, the number of the first group that it holds. -/
  behind : Option Nat := none
  /-- Groups that were asked for by number before they had to be there, and where. -/
  awaited : Table Nat Nat := []

namespace Reader

/-- The present row. -/
def row (r : Reader) : Pattern :=
  Pattern.row (r.items.reverse.map Item.pattern)

/-- All alternatives. -/
def alternatives (r : Reader) : List Pattern :=
  (r.row :: r.rows).reverse

/-- One more item. -/
def add (r : Reader) (p : Pattern) (kind : ItemKind := .other) : Reader :=
  { r with items := ⟨p, kind⟩ :: r.items }

/-- One more character. -/
def addCode (r : Reader) (n : Nat) : Reader :=
  r.add (.chars { items := [.range n n], casing := r.mode.casing })

/-- The width of a group that has been closed. -/
def closed? (r : Reader) (number : Nat) : Option Width :=
  (r.widths[number - 1]?).join

/-- How many groups have been opened. -/
def groupCount (r : Reader) : Nat :=
  r.widths.length

/-- Opens a group. -/
def opened (r : Reader) (opening : Opening) (position : Nat) (mode : Mode) : Reader :=
  { r with
    items := []
    rows := []
    frames := ⟨opening, position, r.items, r.rows, r.mode, r.behind⟩ :: r.frames
    mode }

/-- Opens a group that is remembered. -/
def openedGroup (r : Reader) (position : Nat) : Reader :=
  let r := { r with widths := r.widths ++ [none] }
  r.opened (.group r.groupCount) position r.mode

/-- The pattern of a group by what has opened it. -/
def closing (alternatives : List Pattern) : Opening → Pattern
  | .plain => Pattern.choice alternatives
  | .settled => .settled (Pattern.choice alternatives)
  | .group number => .group number (Pattern.choice alternatives)
  | .look ahead negated => .look ahead negated (Pattern.choice alternatives)
  | .ifHeld number =>
    .ifHeld number (alternatives.headD .empty) ((alternatives.drop 1).headD .empty)

/-- Closes the innermost group. -/
def close (r : Reader) (f : Frame) (outer : List Frame) : Reader :=
  let p := closing r.alternatives f.opening
  { r with
    items := ⟨p, .other⟩ :: f.items
    rows := f.rows
    frames := outer
    mode := f.mode
    behind := f.behind
    widths :=
      match f.opening with
      | .group number => r.widths.set (number - 1) (some p.width)
      | _ => r.widths }

end Reader

/-! ### References to groups -/

/-- Refuses a group that is part of the look behind which refers to it. -/
def checkBehind (size : Nat) (r : Reader) (number : Nat) (left : List Piece) : Except Stop Unit :=
  match r.behind with
  | none => .ok ()
  | some first =>
    if (r.closed? number).isNone then stopAt .openGroup (reached size left) left
    else if first ≤ number then stopAt .groupBehind (reached size left) left
    else .ok ()

/-- What a group has held, once more. It must have been closed. -/
def reference (size position : Nat) (r : Reader) (number : Nat) (left : List Piece) :
    Except Stop Reader := do
  match r.closed? number with
  | none => stopAt .openGroup position left
  | some width =>
    checkBehind size r number left
    return r.add (.again number width r.mode.casing)

/-! ### Items -/

/-- A digit behind a backslash, outside a class: three digits in base eight give a character, any
others refer to a group. -/
def digitEscape (size : Nat) (r : Reader) (t : Piece) (rest : List Piece) :
    Except Stop (Reader × Nat) := do
  let octal := takeChars isOctal 2 rest
  if t.char == '0' || (isOctal t.char && octal.length == 2) then
    let (n, taken) ← octalEscape t rest
    return (r.addCode n, taken)
  else
    let more := takeChars Char.isDigit 1 rest
    let number := numberOf 10 (t.char :: more)
    let left := rest.drop more.length
    if r.groupCount < number then stopAt (.noSuchGroup number) (t.position + 1) left
    else return (← reference size t.position r number left, more.length)

/-- A piece with a backslash. -/
def escapedItem (size : Nat) (r : Reader) (t : Piece) (rest : List Piece) :
    Except Stop (Reader × Nat) :=
  match category? r.mode t.char, place? r.mode t.char with
  | some item, _ => .ok (r.add (.chars { items := [item], casing := r.mode.casing }), 0)
  | none, some p => .ok (r.add p .place, 0)
  | none, none =>
    if t.char.isDigit then digitEscape size r t rest
    else do
      let (n, taken) ← charEscape size t rest
      return (r.addCode n, taken)

/-- A piece without a backslash that opens and marks nothing. -/
def simpleItem (r : Reader) (c : Char) : Reader :=
  if c == '.' then r.add (.any r.mode.breaks)
  else if c == '^' then r.add (.start r.mode.lines) .place
  else if c == '$' then r.add (.finish r.mode.lines) .place
  else r.addCode c.toNat

/-- A repetition by the mark behind its bounds: a question mark makes it reluctant, a plus sign
settles it. -/
def repetition (p : Pattern) (b : Bounds) (left : List Piece) : Pattern × Nat :=
  if isNext '?' left then (.repeated p b.least b.most .reluctant, 1)
  else if isNext '+' left then (.repeated p b.least b.most .settled, 1)
  else (.repeated p b.least b.most .eager, 0)

/-- Repeats the last item. -/
def repeatLast (r : Reader) (t : Piece) (b : Bounds) (rest : List Piece) :
    Except Stop (Reader × Nat) :=
  let left := rest.drop b.taken
  match r.items with
  | [] => stopAt .nothingToRepeat t.position left
  | item :: before =>
    match item.kind with
    | .place => stopAt .nothingToRepeat t.position left
    | .repeated => stopAt .multipleRepeat t.position left
    | .other =>
      let (p, n) := repetition item.pattern b left
      .ok ({ r with items := ⟨p, .repeated⟩ :: before }, b.taken + n)

/-! ### Groups -/

/-- Refuses what is no name of a group. The name has just been read. -/
def checkName (size : Nat) (name : String) (left : List Piece) : Except Stop Unit :=
  if Text.isName name then .ok ()
  else stopAt (.badName (Text.quoted name)) (reached size left - name.length - 1) left

/-- The number of the group of a name that has just been read. -/
def numberOfName (size : Nat) (r : Reader) (name : String) (left : List Piece) :
    Except Stop Nat :=
  match Table.get? name r.names with
  | some number => .ok number
  | none => stopAt (.noSuchName (Text.quoted name)) (reached size left - name.length - 1) left

/-- Opens a group with a name, whose parenthesis is at an offset. -/
def namedGroup (size position : Nat) (r : Reader) (ts : List Piece) :
    Except Stop (Reader × Nat) := do
  let (text, n) ← name size '>' "group name" ts
  let left := ts.drop n
  checkName size text left
  match Table.get? text r.names with
  | some earlier =>
    stopAt (.takenName (Text.quoted text) (r.groupCount + 1) earlier)
      (reached size left - text.length - 1) left
  | none =>
    let names := Table.put text (r.groupCount + 1) r.names
    return ({ r with names }.openedGroup position, n)

/-- Refers to a group by its name. -/
def namedReference (size : Nat) (r : Reader) (ts : List Piece) : Except Stop (Reader × Nat) := do
  let (text, n) ← name size ')' "group name" ts
  let left := ts.drop n
  checkName size text left
  let number ← numberOfName size r text left
  return (← reference size (reached size left - text.length - 1) r number left, n)

/-- The most groups that can be asked for. -/
def groupLimit : Nat := 1073741823

/-- The number of the group that a condition is about. -/
def conditionNumber (size : Nat) (r : Reader) (text : String) (left : List Piece) :
    Except Stop Nat :=
  let position := reached size left - text.length - 1
  if Text.isName text then numberOfName size r text left
  else
    match Numeral.read text with
    | .error _ => stopAt (.badName (Text.quoted text)) position left
    | .ok n =>
      if n < 0 then stopAt (.badName (Text.quoted text)) position left
      else if n == 0 then stopAt .groupZero position left
      else if groupLimit ≤ n.toNat then stopAt (.noSuchGroup n.toNat) position left
      else .ok n.toNat

/-- Opens a condition on a group. -/
def condition (size position : Nat) (r : Reader) (ts : List Piece) :
    Except Stop (Reader × Nat) := do
  let (text, n) ← name size ')' "group name" ts
  let left := ts.drop n
  let number ← conditionNumber size r text left
  let awaited :=
    if Text.isName text || Table.has number r.awaited then r.awaited
    else Table.put number (reached size left - text.length - 1) r.awaited
  let r := { r with awaited }
  checkBehind size r number left
  return (r.opened (.ifHeld number) position r.mode, n)

/-- Opens a place that something must or must not stand before. -/
def lookBehind (size position : Nat) (r : Reader) (ts : List Piece) :
    Except Stop (Reader × Nat) :=
  match ts with
  | [] => stopAt .unendedExtension size []
  | t :: rest =>
    if t.isOneOf ['=', '!'] then
      let inner := r.opened (.look false (t.is '!')) position r.mode
      .ok ({ inner with behind := some (r.behind.getD (r.groupCount + 1)) }, 1)
    else stopAt (.unknownExtension ("?<" ++ t.text)) (position + 1) rest

/-- What has to do with the name of a group. -/
def naming (size position : Nat) (r : Reader) (ts : List Piece) : Except Stop (Reader × Nat) :=
  match ts with
  | [] => stopAt .unendedExtension size []
  | t :: rest =>
    if t.is '<' then (namedGroup size position r rest).map fun (r, n) => (r, n + 1)
    else if t.is '=' then (namedReference size r rest).map fun (r, n) => (r, n + 1)
    else stopAt (.unknownExtension ("?P" ++ t.text)) (position + 1) rest

/-- A comment up to its closing parenthesis. -/
def comment (position : Nat) (r : Reader) (ts : List Piece) : Except Stop (Reader × Nat) :=
  let n := (takeUntil ')' ts).2
  if n < ts.length then .ok (r, n + 1) else stopAt .unclosedComment position []

/-- Flags for the whole pattern, or a part with flags of its own. -/
def flagged (size position : Nat) (r : Reader) (t : Piece) (ts : List Piece) :
    Except Stop (Reader × Nat) := do
  match ← flags size t ts with
  | (.part on off, n) => return (r.opened .plain position (r.mode.inPart on off), n)
  | (.whole on, n) =>
    if r.frames.isEmpty && r.rows.isEmpty && r.items.isEmpty then
      return ({ r with mode := r.mode.withFlags on }, n)
    else stopAt .misplacedFlags position (ts.drop n)

/-- What opens with a parenthesis and a question mark. -/
def extension (size position : Nat) (r : Reader) (ts : List Piece) :
    Except Stop (Reader × Nat) :=
  match ts with
  | [] => stopAt .unendedExtension size []
  | t :: rest =>
    let one : Reader × Nat → Reader × Nat := fun (r, n) => (r, n + 1)
    if t.is 'P' then (naming size position r rest).map one
    else if t.is ':' then .ok (r.opened .plain position r.mode, 1)
    else if t.is '#' then (comment position r rest).map one
    else if t.isOneOf ['=', '!'] then .ok (r.opened (.look true (t.is '!')) position r.mode, 1)
    else if t.is '<' then (lookBehind size position r rest).map one
    else if t.is '(' then (condition size position r rest).map one
    else if t.is '>' then .ok (r.opened .settled position r.mode, 1)
    else if t.is '-' || t.isOneOf flagLetters then (flagged size position r t rest).map one
    else stopAt (.unknownExtension ("?" ++ t.text)) (position + 1) rest

/-! ### The whole pattern -/

/-- The blanks that are skipped where a pattern is spaced out. -/
def skippedBlanks : List Char :=
  [' ', '\t', '\n', '\r', Char.ofNat 11, Char.ofNat 12]

/-- A bar begins another alternative. A condition has two at most. -/
def onBar (r : Reader) (t : Piece) (rest : List Piece) : Except Stop (Reader × Nat) :=
  let full :=
    match r.frames.head?.map Frame.opening with
    | some (.ifHeld _) => !r.rows.isEmpty
    | _ => false
  if full then stopAt .thirdBranch t.position (t :: rest)
  else .ok ({ r with items := [], rows := r.row :: r.rows }, 0)

/-- Refuses a pattern that is bound to two kinds of characters as a whole. -/
def checkMode (r : Reader) (left : List Piece) : Except Stop Unit :=
  if r.mode.ascii && r.mode.everywhere then stopNowhere .clashingPatternFlags left else .ok ()

/-- A closing parenthesis closes the innermost group. -/
def onClose (r : Reader) (t : Piece) (rest : List Piece) : Except Stop (Reader × Nat) :=
  match r.frames with
  | [] => do
    checkMode r (t :: rest)
    stopAt .unopenedGroup t.position (t :: rest)
  | f :: outer => .ok (r.close f outer, 0)

/-- Reads on from a piece. How many of the pieces behind it are taken comes out too. -/
def onPiece (size : Nat) (r : Reader) (t : Piece) (rest : List Piece) :
    Except Stop (Reader × Nat) :=
  if t.is '|' then onBar r t rest
  else if t.is ')' then onClose r t rest
  else if r.mode.spaced && t.isOneOf skippedBlanks then .ok (r, 0)
  else if r.mode.spaced && t.is '#' then .ok (r, (takeUntil '\n' rest).2 + 1)
  else if t.escaped then escapedItem size r t rest
  else if t.is '[' then do
    let (k, n) ← charClass size t.position r.mode rest
    return (r.add (.chars k), n)
  else if t.is '(' then
    if isNext '?' rest then
      (extension size t.position r (rest.drop 1)).map fun (r, n) => (r, n + 1)
    else .ok (r.openedGroup t.position, 0)
  else do
    match ← bounds t rest with
    | some b => repeatLast r t b rest
    | none => return (simpleItem r t.char, 0)

/-- Reads pieces to their end, where every group must be closed. -/
def readAll (size : Nat) (r : Reader) (ts : List Piece) : Except Stop Reader :=
  match ts with
  | [] =>
    match r.frames with
    | [] => .ok r
    | f :: _ => stopAt .unclosedGroup f.position []
  | t :: rest =>
    match onPiece size r t rest with
    | .error e => .error e
    | .ok (r, n) => readAll size r (rest.drop n)
termination_by ts.length
decreasing_by
  simp only [List.length_drop, List.length_cons]
  omega

/-- What a repetition is called that a template may not hold. -/
def habitText : Habit → String
  | .eager => "MAX_REPEAT"
  | .reluctant => "MIN_REPEAT"
  | .settled => "POSSESSIVE_REPEAT"

/-- What is wrong with the parts of a pattern: a look behind has a fixed length, and a template
holds no repetitions. -/
def flaw? (template : Bool) : Pattern → Option PatternCause
  | .seq p q => flaw? template p <|> flaw? template q
  | .alt p q => flaw? template p <|> flaw? template q
  | .repeated p _ _ habit =>
    if template then some (.templateRepeat (habitText habit)) else flaw? template p
  | .group _ p => flaw? template p
  | .ifHeld _ p q => flaw? template p <|> flaw? template q
  | .look ahead _ p =>
    if !ahead && timesLimit < p.width.least then some .lookbehindTooLong
    else if !ahead && p.width.least != p.width.most then some .lookbehindVaries
    else flaw? template p
  | .settled p => flaw? template p
  | _ => none

/-- The line and the column of an offset, if the pattern has several lines. -/
def lineColumn (cs : List Char) (position : Nat) : Option (Nat × Nat) :=
  if cs.contains '\n' then
    let before := cs.take position
    some (before.count '\n' + 1, (before.reverse.takeWhile (· != '\n')).length + 1)
  else none

/-- An error at an offset of a pattern. -/
def errorAt (cs : List Char) (cause : PatternCause) (position : Nat) : PatternError :=
  ⟨cause, some ⟨position, lineColumn cs position⟩⟩

/-- A pattern all of whose pieces have been read. -/
def finished (cs : List Char) (r : Reader) : Except PatternError Search := do
  if r.mode.ascii && r.mode.everywhere then throw ⟨.clashingPatternFlags, none⟩
  for (number, position) in r.awaited do
    if r.groupCount < number then throw (errorAt cs (.noSuchGroup number) position)
  let p := Pattern.choice r.alternatives
  match flaw? r.mode.template p with
  | some cause => throw ⟨cause, none⟩
  | none => return Search.ofPattern r.mode.ascii p

/-- Reads a pattern to search for. A lone backslash at its end is told once all before it has been
read. -/
def parse (text : String) : Except PatternError Search :=
  let cs := text.toList
  let (ts, dangling) := pieces 0 cs
  let size := if dangling then cs.length - 1 else cs.length
  let trailing : Except PatternError Search := .error (errorAt cs .trailingBackslash size)
  if dangling && ts.isEmpty then trailing
  else
    match readAll size {} ts with
    | .error stop =>
      if dangling && stop.atEnd then trailing
      else
        match stop.position with
        | some position => .error (errorAt cs stop.cause position)
        | none => .error ⟨stop.cause, none⟩
    | .ok r => if dangling then trailing else finished cs r

end LiveForm.Pattern
