import LiveForm.Pattern.Basic

/-!
# Where patterns fit

A pattern is tried from a spot in a text. It hands each spot at which its piece can end, in order
of preference, to what has to fit behind it, until that fits. A text has a match if the pattern
fits from some spot with nothing behind it to fit.
-/

namespace LiveForm

/-- A spot in a text, with the pieces that groups have held, the latest first. -/
structure Spot where
  position : Nat
  held : List (Nat × Nat × Nat) := []

namespace Pattern

/-- What has to fit behind a piece. -/
abbrev Behind := Spot → Option Spot

/-- A piece, tried from a spot with something behind it. -/
abbrev Try := Spot → Behind → Option Spot

/-- The character at a position belongs to a word. -/
def wordAt (text : Array Char) (ascii : Bool) (i : Nat) : Bool :=
  text[i]?.any fun c => Category.word.holds ascii c

/-- A character of words stands just before a position. -/
def wordBefore (text : Array Char) (ascii : Bool) : Nat → Bool
  | 0 => false
  | i + 1 => wordAt text ascii i

/-- A line break stands just before a position, or nothing does. -/
def lineStarts (text : Array Char) : Nat → Bool
  | 0 => true
  | i + 1 => text[i]? == some '\n'

/-- A position is the end of a text, or stands before a line break: the last one, or any. -/
def lineEnds (text : Array Char) (lines : Bool) (i : Nat) : Bool :=
  i == text.size || (text[i]? == some '\n' && (lines || i + 1 == text.size))

/-- Goes on from a spot under a condition. -/
def goOn (holds : Bool) (s : Spot) (behind : Behind) : Option Spot :=
  if holds then behind s else none

/-- Goes on behind the next character under a condition on it. -/
def step (text : Array Char) (p : Char → Bool) (s : Spot) (behind : Behind) : Option Spot :=
  goOn (text[s.position]?.any p) { s with position := s.position + 1 } behind

/-- Pieces in a row. A piece of a repetition that is not empty takes a character, so there are no
more rounds than the text has characters left; an empty piece ends the repetition. -/
def rounds (piece : Try) (habit : Habit) (behind : Behind) :
    Nat → Nat → Option Nat → Spot → Option Spot
  | 0, _, _, s => behind s
  | fuel + 1, least + 1, most, s =>
    piece s fun s' =>
      if s'.position == s.position then behind s'
      else rounds piece habit behind fuel least (most.map (· - 1)) s'
  | fuel + 1, 0, most, s =>
    if most == some 0 then behind s
    else
      let more : Unit → Option Spot := fun _ =>
        piece s fun s' =>
          if s'.position == s.position then behind s'
          else rounds piece habit behind fuel 0 (most.map (· - 1)) s'
      if habit == .reluctant then behind s <|> more () else more () <|> behind s

/-- Takes a piece in the first way that fits. -/
def settle (piece : Try) (s : Spot) (behind : Behind) : Option Spot :=
  match piece s some with
  | none => none
  | some s' => behind s'

/-- The characters between two positions. -/
def between (text : Array Char) (low high : Nat) : List Char :=
  (text.extract low high).toList

/-- Characters of one length, the same one by one as far as case counts. -/
def sameText (casing : Casing) (cs ds : List Char) : Bool :=
  cs.map (fun c => casing.fold c) == ds.map (fun c => casing.fold c)

/-- Takes what a group has held once more. -/
def repeatHeld (text : Array Char) (number : Nat) (casing : Casing) (s : Spot) (behind : Behind) :
    Option Spot :=
  match s.held.lookup number with
  | none => none
  | some (low, high) =>
    let next := s.position + (high - low)
    goOn (sameText casing (between text low high) (between text s.position next))
      { s with position := next } behind

/-- The spot from which a piece of a length ends here. -/
def back (length : Nat) (s : Spot) : Option Spot :=
  if length ≤ s.position then some { s with position := s.position - length } else none

/-- Tries a pattern from a spot. -/
def fit (text : Array Char) : Pattern → Try
  | .empty, s, behind => behind s
  | .any breaks, s, behind => step text (fun c => breaks || c != '\n') s behind
  | .chars k, s, behind => step text k.holds s behind
  | .start lines, s, behind =>
    goOn (s.position == 0 || (lines && lineStarts text s.position)) s behind
  | .finish lines, s, behind => goOn (lineEnds text lines s.position) s behind
  | .final, s, behind => goOn (s.position == text.size) s behind
  | .boundary ascii negated, s, behind =>
    goOn (0 < text.size &&
      (wordBefore text ascii s.position != wordAt text ascii s.position) != negated) s behind
  | .seq p q, s, behind => fit text p s fun s' => fit text q s' behind
  | .alt p q, s, behind => fit text p s behind <|> fit text q s behind
  | .repeated p least most habit, s, behind =>
    let taken : Try := fun s behind =>
      rounds (fit text p) habit behind (text.size + 2 - s.position) least most s
    if habit == .settled then settle taken s behind else taken s behind
  | .group number p, s, behind =>
    fit text p s fun s' =>
      behind { s' with held := (number, s.position, s'.position) :: s'.held }
  | .again number _ casing, s, behind => repeatHeld text number casing s behind
  | .ifHeld number p q, s, behind =>
    if (s.held.lookup number).isSome then fit text p s behind else fit text q s behind
  | .look ahead negated p, s, behind =>
    let found :=
      match if ahead then some s else back p.width.least s with
      | none => none
      | some s₀ => fit text p s₀ some
    if negated then goOn found.isNone s behind
    else
      match found with
      | none => none
      | some s' => behind { s' with position := s.position }
  | .settled p, s, behind => settle (fit text p) s behind

/-- The pattern fits from a position. -/
def fitsAt (p : Pattern) (text : Array Char) (i : Nat) : Bool :=
  (fit text p ⟨i, []⟩ some).isSome

/-- A piece at the start of the text fits. -/
def matchesStart (p : Pattern) (text : String) : Bool :=
  fitsAt p text.toList.toArray 0

/-- The class that the pattern starts with. -/
def lead? : Pattern → Option CharClass
  | .chars k => some k
  | .seq p _ => lead? p
  | .group _ p => lead? p
  | .alt p q => if lead? p == lead? q then lead? p else none
  | _ => none

end Pattern

/-- What to search for: a pattern, and a class that the first character of a piece has to belong to
as well, if there is one. -/
structure Search where
  pattern : Pattern
  lead : Option CharClass := none

/-- The item as it counts among all characters or those of ASCII only. -/
def ClassItem.among (ascii : Bool) : ClassItem → ClassItem
  | .range low high => .range low high
  | .category k _ negated => .category k ascii negated

/-- A search for a pattern that has been read. Its first character has to fit the class that the
pattern starts with also where that is read by what is said of the whole pattern. -/
def Search.ofPattern (ascii : Bool) (p : Pattern) : Search :=
  { pattern := p
    lead := p.lead?.map fun k => { k with items := k.items.map (ClassItem.among ascii) } }

/-- A piece may start at a position. -/
def Search.mayStart (s : Search) (text : Array Char) (i : Nat) : Bool :=
  s.lead.all fun k => text[i]?.any k.holds

/-- A piece somewhere in the text fits. -/
def Search.found (s : Search) (text : String) : Bool :=
  let cs := text.toList.toArray
  (List.range (cs.size + 1)).any fun i => s.mayStart cs i && s.pattern.fitsAt cs i

end LiveForm
