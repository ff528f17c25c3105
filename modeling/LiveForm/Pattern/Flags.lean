import LiveForm.Pattern.Escape
import LiveForm.Text.Letter

/-!
# Flags in patterns

Letters behind a question mark change how a pattern is read and matched: the whole pattern, if they
stand alone at its start, or the part behind a colon, for which flags can be turned off as well.
-/

namespace LiveForm.Pattern

/-- The letters of flags. -/
def flagLetters : List Char :=
  ['i', 'L', 'm', 's', 'x', 'a', 't', 'u']

/-- The flags that tell which characters there are. Only one of them can be turned on. -/
def kindFlags : List Char :=
  ['a', 'L', 'u']

/-- What flags apply to. -/
inductive Flags where
  | whole (on : List Char)
  | part (on off : List Char)
deriving Repr, DecidableEq

/-- Stops at a piece where a flag or something else should stand. -/
def stopAtFlag (cause : PatternCause) (t : Piece) (left : List Piece) : Except Stop α :=
  stopAt (if !t.escaped && Text.isLetter t.char then .unknownFlag else cause) t.position left

/-- Reads the flags to turn on, behind those that have been read. They end in one of the pieces that
may follow them, which comes out too. -/
def flagsOn (size : Nat) (on : List Char) (taken : Nat) (t : Piece) (ts : List Piece) :
    Except Stop (List Char × Piece × Nat) :=
  if t.is 'L' then stopAt .localFlag (reached size ts) ts
  else if kindFlags.contains t.char && on.any fun c => kindFlags.contains c && c != t.char then
    stopAt .clashingFlags (reached size ts) ts
  else
    match ts with
    | [] => stopAt (.unendedFlags "-, : or )") size []
    | next :: rest =>
      if next.isOneOf [')', '-', ':'] then .ok (t.char :: on, next, taken + 1)
      else if next.isOneOf flagLetters then flagsOn size (t.char :: on) (taken + 1) next rest
      else stopAtFlag (.unendedFlags "-, : or )") next rest

/-- Reads the flags to turn off, behind those that have been read, up to the colon. -/
def flagsOff (size : Nat) (off : List Char) (taken : Nat) (t : Piece) (ts : List Piece) :
    Except Stop (List Char × Nat) :=
  if kindFlags.contains t.char then stopAt .kindFlagOff (reached size ts) ts
  else
    match ts with
    | [] => stopAt (.unendedFlags ":") size []
    | next :: rest =>
      if next.is ':' then .ok (t.char :: off, taken + 1)
      else if next.isOneOf flagLetters then flagsOff size (t.char :: off) (taken + 1) next rest
      else stopAtFlag (.unendedFlags ":") next rest

/-- Reads the flags to turn off, behind the hyphen. -/
def flagsBehindHyphen (size : Nat) (on : List Char) (ts : List Piece) :
    Except Stop (Flags × Nat) :=
  match ts with
  | [] => stopAt .missingFlag size []
  | t :: rest =>
    if !t.isOneOf flagLetters then stopAtFlag .missingFlag t rest
    else do
      let (off, n) ← flagsOff size [] 1 t rest
      let left := ts.drop n
      let colon := reached size left - 1
      if off.contains 't' then stopAt .wholeFlagOff colon left
      else if on.any off.contains then stopAt .flagOnAndOff colon left
      else return (.part on off, n)

/-- Reads flags, the first piece of them read. -/
def flags (size : Nat) (t : Piece) (ts : List Piece) : Except Stop (Flags × Nat) :=
  if t.is '-' then flagsBehindHyphen size [] ts
  else do
    let (on, closing, n) ← flagsOn size [] 0 t ts
    let left := ts.drop n
    if closing.is ')' then return (.whole on, n)
    else if on.contains 't' then stopAt .wholeFlagOn closing.position left
    else if closing.is ':' then return (.part on [], n)
    else
      let (flags, m) ← flagsBehindHyphen size on left
      return (flags, n + m)

/-- A flag after some have been turned on and others off. -/
def switched (on off : List Char) (letter : Char) (before : Bool) : Bool :=
  (before || on.contains letter) && !off.contains letter

/-- The mode of a part with flags of its own. -/
def Mode.inPart (mode : Mode) (on off : List Char) : Mode :=
  { mode with
    anyCase := switched on off 'i' mode.anyCase
    lines := switched on off 'm' mode.lines
    breaks := switched on off 's' mode.breaks
    spaced := switched on off 'x' mode.spaced
    ascii := if on.any kindFlags.contains then on.contains 'a' else mode.ascii }

/-- The mode of a pattern with flags for the whole. -/
def Mode.withFlags (mode : Mode) (on : List Char) : Mode :=
  { mode with
    anyCase := mode.anyCase || on.contains 'i'
    lines := mode.lines || on.contains 'm'
    breaks := mode.breaks || on.contains 's'
    spaced := mode.spaced || on.contains 'x'
    ascii := mode.ascii || on.contains 'a'
    everywhere := mode.everywhere || on.contains 'u'
    template := mode.template || on.contains 't' }

end LiveForm.Pattern
