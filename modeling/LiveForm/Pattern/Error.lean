import LiveForm.Number.Error

/-!
# Patterns that are not well formed

A pattern is refused with what is wrong in it and where. When the pattern has several lines, the
line and the column are told too. What is wrong with a pattern as a whole has no place.
-/

namespace LiveForm

/-- What is wrong in a pattern. -/
inductive PatternCause where
  | nothingToRepeat
  | multipleRepeat
  | reversedBounds
  | unclosedGroup
  | unopenedGroup
  | unclosedClass
  | unclosedComment
  | badRange (range : String)
  | badEscape (escape : String)
  | trailingBackslash
  | incompleteEscape (escape : String)
  | octalTooLarge (escape : String)
  | unknownExtension (extension : String)
  | unendedExtension
  /-- The name of a character does not stand between braces. -/
  | noBrace
  /-- No character has this name, shown. -/
  | unknownCharacter (shown : String)
  /-- Something that has to be named is not. -/
  | unnamed (what : String)
  /-- A name is not followed by the character that ends it. -/
  | unendedName (closing : Char)
  /-- This is no name of a group, shown. -/
  | badName (shown : String)
  /-- The name of a group is that of an earlier one. -/
  | takenName (shown : String) (group earlier : Nat)
  | noSuchGroup (group : Nat)
  /-- No group has this name, shown. -/
  | noSuchName (shown : String)
  /-- Groups are counted from one. -/
  | groupZero
  /-- A group is referred to in its own inside. -/
  | openGroup
  /-- A group is referred to in the look behind that it belongs to. -/
  | groupBehind
  | thirdBranch
  | misplacedFlags
  | localFlag
  | clashingFlags
  | unknownFlag
  | missingFlag
  /-- Flags are not followed by one of these. -/
  | unendedFlags (wanted : String)
  /-- A flag for the whole pattern is turned on for a part of it. -/
  | wholeFlagOn
  /-- A flag for the whole pattern is turned off for a part of it. -/
  | wholeFlagOff
  | kindFlagOff
  | flagOnAndOff
  /-- The whole pattern is bound to ASCII and to all characters at once. -/
  | clashingPatternFlags
  | tooManyTimes
  /-- A look behind has no fixed length. -/
  | lookbehindVaries
  | lookbehindTooLong
  /-- A repetition of this kind stands in a template. -/
  | templateRepeat (kind : String)
  /-- A number in the pattern cannot be read. -/
  | number (e : NumberError)
deriving Repr, DecidableEq

/-- The cause in words. -/
def PatternCause.message : PatternCause → String
  | nothingToRepeat => "nothing to repeat"
  | multipleRepeat => "multiple repeat"
  | reversedBounds => "min repeat greater than max repeat"
  | unclosedGroup => "missing ), unterminated subpattern"
  | unopenedGroup => "unbalanced parenthesis"
  | unclosedClass => "unterminated character set"
  | unclosedComment => "missing ), unterminated comment"
  | badRange range => "bad character range " ++ range
  | badEscape escape => "bad escape " ++ escape
  | trailingBackslash => "bad escape (end of pattern)"
  | incompleteEscape escape => "incomplete escape " ++ escape
  | octalTooLarge escape => "octal escape value " ++ escape ++ " outside of range 0-0o377"
  | unknownExtension extension => "unknown extension " ++ extension
  | unendedExtension => "unexpected end of pattern"
  | noBrace => "missing \x7b"
  | unknownCharacter shown => "undefined character name " ++ shown
  | unnamed what => "missing " ++ what
  | unendedName closing => "missing " ++ String.singleton closing ++ ", unterminated name"
  | badName shown => "bad character in group name " ++ shown
  | takenName shown group earlier =>
    "redefinition of group name " ++ shown ++ " as group " ++ toString group ++ "; was group " ++
      toString earlier
  | noSuchGroup group => "invalid group reference " ++ toString group
  | noSuchName shown => "unknown group name " ++ shown
  | groupZero => "bad group number"
  | openGroup => "cannot refer to an open group"
  | groupBehind => "cannot refer to group defined in the same lookbehind subpattern"
  | thirdBranch => "conditional backref with more than two branches"
  | misplacedFlags => "global flags not at the start of the expression"
  | localFlag => "bad inline flags: cannot use 'L' flag with a str pattern"
  | clashingFlags => "bad inline flags: flags 'a', 'u' and 'L' are incompatible"
  | unknownFlag => "unknown flag"
  | missingFlag => "missing flag"
  | unendedFlags wanted => "missing " ++ wanted
  | wholeFlagOn => "bad inline flags: cannot turn on global flag"
  | wholeFlagOff => "bad inline flags: cannot turn off global flag"
  | kindFlagOff => "bad inline flags: cannot turn off flags 'a', 'u' and 'L'"
  | flagOnAndOff => "bad inline flags: flag turned on and off"
  | clashingPatternFlags => "ASCII and UNICODE flags are incompatible"
  | tooManyTimes => "the repetition number is too large"
  | lookbehindVaries => "look-behind requires fixed-width pattern"
  | lookbehindTooLong => "looks too much behind"
  | templateRepeat kind => "internal: unsupported template operator " ++ kind
  | number e => e.message

/-- Where something is wrong: the offset, and the line and the column if there are lines. -/
structure PatternPlace where
  position : Nat
  lineColumn : Option (Nat × Nat)
deriving Repr, DecidableEq

/-- Why a pattern is refused, and where if there is a place. -/
structure PatternError where
  cause : PatternCause
  place : Option PatternPlace
deriving Repr, DecidableEq

/-- The place in words. -/
def PatternPlace.message (p : PatternPlace) : String :=
  " at position " ++ toString p.position ++
    match p.lineColumn with
    | none => ""
    | some (line, column) =>
      " (line " ++ toString line ++ ", column " ++ toString column ++ ")"

/-- The error in words. -/
def PatternError.message (e : PatternError) : String :=
  e.cause.message ++ (e.place.map PatternPlace.message).getD ""

/-- The pattern cannot be an argument: what it asks for contradicts itself or cannot be read. Any
other error lies in how the pattern is written. -/
def PatternError.isRefusal (e : PatternError) : Bool :=
  match e.cause with
  | .clashingPatternFlags => true
  | .number _ => true
  | _ => false

end LiveForm
