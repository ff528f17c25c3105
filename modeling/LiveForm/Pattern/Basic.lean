import LiveForm.Text.Blank
import LiveForm.Text.Digit
import LiveForm.Text.Kin
import LiveForm.Text.Word

/-!
# Patterns

A pattern describes pieces of text. Its pieces are characters of some class, places between
characters, rows, alternatives and repetitions of other pieces; groups keep what they have held, so
that a later part can ask for it again.
-/

namespace LiveForm

/-- A class of characters that a letter stands for. -/
inductive Category where
  | digit
  | space
  | word
deriving Repr, DecidableEq

/-- The category holds of a character, among all characters or those of ASCII only. -/
def Category.holds (ascii : Bool) (c : Char) (k : Category) : Bool :=
  (!ascii || c.toNat < 0x80) &&
    match k with
    | digit => Text.isDigit c
    | space => if ascii then Text.isNumberSpace c else Text.isBlank c
    | word => Text.isWord c

/-- A member of a class of characters. Ranges are of code points. -/
inductive ClassItem where
  | range (low high : Nat)
  | category (k : Category) (ascii negated : Bool)
deriving Repr, DecidableEq

/-- How the case of letters counts: as it is, not in ASCII, or not at all. -/
inductive Casing where
  | exact | ascii | any
deriving Repr, DecidableEq

/-- The characters that count as the same as a character. -/
def Casing.kin (c : Char) : Casing → List Char
  | exact => [c]
  | ascii => Text.kinOfAscii c
  | any => Text.kin c

/-- A character without its case. -/
def Casing.fold (c : Char) : Casing → Char
  | exact => c
  | ascii => c.toLower
  | any => Text.lowerOne c

/-- A class of characters. -/
structure CharClass where
  negated : Bool := false
  items : List ClassItem
  casing : Casing := .exact
deriving Repr, DecidableEq

/-- The item holds of a character or of one that counts as the same. -/
def ClassItem.holds (casing : Casing) (c : Char) : ClassItem → Bool
  | range low high => (casing.kin c).any fun d => low ≤ d.toNat && d.toNat ≤ high
  | category k ascii negated => k.holds ascii c != negated

/-- The class holds of a character. -/
def CharClass.holds (k : CharClass) (c : Char) : Bool :=
  k.items.any (ClassItem.holds k.casing c) != k.negated

/-- How often a repetition takes its piece: as often as it can, as rarely as it can, or as often as
it can without giving any back. -/
inductive Habit where
  | eager | reluctant | settled
deriving Repr, DecidableEq

/-- How many characters a piece takes, at least and at most. -/
structure Width where
  least : Nat := 0
  most : Nat := 0
deriving Repr, DecidableEq

/-- A pattern. -/
inductive Pattern where
  /-- The empty piece. -/
  | empty
  /-- Any character; a line break only where it is let in. -/
  | any (breaks : Bool)
  | chars (k : CharClass)
  /-- The start of the text, or of any of its lines. -/
  | start (lines : Bool)
  /-- The end of the text or the place before a line break that ends it, or the end of any line. -/
  | finish (lines : Bool)
  /-- The very end of the text. -/
  | final
  /-- A place between a character of words and another, or any other place. -/
  | boundary (ascii negated : Bool)
  | seq (p q : Pattern)
  | alt (p q : Pattern)
  /-- So many pieces in a row, without an upper bound if there is none. -/
  | repeated (p : Pattern) (least : Nat) (most : Option Nat) (habit : Habit)
  /-- A piece that is remembered under a number. -/
  | group (number : Nat) (p : Pattern)
  /-- What a group has held, once more; the group has this width. -/
  | again (number : Nat) (width : Width) (casing : Casing)
  /-- One piece if a group has held something, another if not. -/
  | ifHeld (number : Nat) (p q : Pattern)
  /-- A place before or behind which a piece fits, or does not. -/
  | look (ahead negated : Bool) (p : Pattern)
  /-- A piece that is taken in the first way that fits and in no other. -/
  | settled (p : Pattern)
deriving Repr, DecidableEq

namespace Pattern

/-- The pattern of one character. -/
def char (c : Char) : Pattern :=
  .chars { items := [.range c.toNat c.toNat] }

/-- Patterns in a row. -/
def row : List Pattern → Pattern
  | [] => .empty
  | [p] => p
  | p :: rest => .seq p (row rest)

/-- Patterns as alternatives. -/
def choice : List Pattern → Pattern
  | [] => .empty
  | [p] => p
  | p :: rest => .alt p (choice rest)

end Pattern

/-! ### Widths -/

namespace Width

/-- Widths beyond this one are not told apart. -/
def limit : Nat := Nat.pow 2 64

/-- The width of two pieces in a row. -/
def append (v w : Width) : Width :=
  ⟨min (v.least + w.least) limit, min (v.most + w.most) limit⟩

/-- The width of one piece or the other. -/
def join (v w : Width) : Width :=
  ⟨min v.least w.least, max v.most w.most⟩

/-- The width of a repetition. -/
def times (v : Width) (least : Nat) (most : Option Nat) : Width :=
  ⟨min (v.least * least) limit,
    match most with
    | some n => min (v.most * n) limit
    | none => if v.most == 0 then 0 else limit⟩

end Width

namespace Pattern

/-- How many characters a pattern takes. -/
def width : Pattern → Width
  | .empty => {}
  | .any _ => ⟨1, 1⟩
  | .chars _ => ⟨1, 1⟩
  | .start _ => {}
  | .finish _ => {}
  | .final => {}
  | .boundary _ _ => {}
  | .seq p q => p.width.append q.width
  | .alt p q => p.width.join q.width
  | .repeated p least most _ => p.width.times least most
  | .group _ p => p.width
  | .again _ w _ => w
  | .ifHeld _ p q => p.width.join q.width
  | .look _ _ _ => {}
  | .settled p => p.width

end Pattern

end LiveForm
