import Mathlib
import LiveForm.Formula.Parser

/-!
# The grammar of formulas

Which rows of lexemes stand for which formulas, said without the parser: one rank inside the other,
from a single atom to a conditional. A row that stands for a formula at one rank stands for it at
every looser rank too. Operators between two values take a left side of their own rank, so that they
group to the left; a conditional takes its like on both sides of the colon.
-/

namespace LiveForm.Formula

/-- The ranks of formulas, from the tightest to the loosest. -/
inductive Rank where
  /-- A literal, a name, a group or an array. -/
  | atom
  /-- Accesses and calls behind a value. -/
  | access
  /-- Operators: at zero those in front of a value, and above those between two values. -/
  | level (n : Nat)
  /-- A conditional. -/
  | whole
deriving DecidableEq

/-- What a row of lexemes can stand for. -/
inductive Phrase where
  | formula (rank : Rank) (e : Expr)
  /-- The arguments of a call and the closing parenthesis. -/
  | arguments (args : List Expr)
  /-- The arguments behind the first one and the closing parenthesis. -/
  | moreArguments (args : List Expr)
  /-- The elements of an array and the closing bracket. -/
  | elements (items : List (Option Expr))

/-- The rows of lexemes that stand for a phrase. -/
inductive Derives : Phrase → List Lexeme → Prop
  | atom {l : Lexeme} {e : Expr} : atom? l = some e → Derives (.formula .atom e) [l]
  | group {e : Expr} {ls : List Lexeme} : Derives (.formula .whole e) ls →
      Derives (.formula .atom e) (.symbol .openParen :: (ls ++ [.symbol .closeParen]))
  | array {items : List (Option Expr)} {ls : List Lexeme} : Derives (.elements items) ls →
      Derives (.formula .atom (.array items)) (.symbol .openBracket :: ls)
  | ofAtom {e : Expr} {ls : List Lexeme} : Derives (.formula .atom e) ls →
      Derives (.formula .access e) ls
  | member {e : Expr} {ls : List Lexeme} {l : Lexeme} {name : String} :
      Derives (.formula .access e) ls → memberName? l = some name →
      Derives (.formula .access (.member e name)) (ls ++ [.symbol .dot, l])
  | index {e i : Expr} {ls is : List Lexeme} : Derives (.formula .access e) ls →
      Derives (.formula .whole i) is →
      Derives (.formula .access (.index e i))
        (ls ++ .symbol .openBracket :: (is ++ [.symbol .closeBracket]))
  | call {e : Expr} {args : List Expr} {ls as : List Lexeme} : Derives (.formula .access e) ls →
      Derives (.arguments args) as →
      Derives (.formula .access (.call e args)) (ls ++ .symbol .openParen :: as)
  | ofAccess {e : Expr} {ls : List Lexeme} : Derives (.formula .access e) ls →
      Derives (.formula (.level 0) e) ls
  | unary {l : Lexeme} {op : UnaryOp} {e : Expr} {ls : List Lexeme} :
      prefixOperator? l = some op → Derives (.formula (.level 0) e) ls →
      Derives (.formula (.level 0) (.unary op e)) (l :: ls)
  | ofLevel {n : Nat} {e : Expr} {ls : List Lexeme} : Derives (.formula (.level n) e) ls →
      Derives (.formula (.level (n + 1)) e) ls
  | binary {n : Nat} {s : Symbol} {make : Expr → Expr → Expr} {left right : Expr}
      {ls rs : List Lexeme} : operator? (n + 1) s = some make →
      Derives (.formula (.level (n + 1)) left) ls → Derives (.formula (.level n) right) rs →
      Derives (.formula (.level (n + 1)) (make left right)) (ls ++ .symbol s :: rs)
  | ofLevels {e : Expr} {ls : List Lexeme} : Derives (.formula (.level topLevel) e) ls →
      Derives (.formula .whole e) ls
  | conditional {test consequent alternate : Expr} {ts cs as : List Lexeme} :
      Derives (.formula (.level topLevel) test) ts → Derives (.formula .whole consequent) cs →
      Derives (.formula .whole alternate) as →
      Derives (.formula .whole (.conditional test consequent alternate))
        (ts ++ .symbol .question :: (cs ++ .symbol .colon :: as))
  | noArguments : Derives (.arguments []) [.symbol .closeParen]
  | arguments {e : Expr} {more : List Expr} {ls ms : List Lexeme} :
      Derives (.formula .whole e) ls → Derives (.moreArguments more) ms →
      Derives (.arguments (e :: more)) (ls ++ ms)
  | lastArgument : Derives (.moreArguments []) [.symbol .closeParen]
  | nextArgument {e : Expr} {more : List Expr} {ls ms : List Lexeme} :
      Derives (.formula .whole e) ls → Derives (.moreArguments more) ms →
      Derives (.moreArguments (e :: more)) (.symbol .comma :: (ls ++ ms))
  | noElements : Derives (.elements []) [.symbol .closeBracket]
  | hole {more : List (Option Expr)} {ms : List Lexeme} : Derives (.elements more) ms →
      Derives (.elements (none :: more)) (.symbol .comma :: ms)
  | element {e : Expr} {more : List (Option Expr)} {ls ms : List Lexeme} :
      Derives (.formula .whole e) ls → Derives (.elements more) ms →
      Derives (.elements (some e :: more)) (ls ++ .symbol .comma :: ms)
  | lastElement {e : Expr} {ls : List Lexeme} : Derives (.formula .whole e) ls →
      Derives (.elements [some e]) (ls ++ [.symbol .closeBracket])

/-- The formulas of a sequence behind the first one: each with its separator in front, and perhaps a
separator at the very end. -/
inductive DerivesTail : List Expr → List Lexeme → Prop
  | nil : DerivesTail [] []
  | separator {s : Symbol} : s = .comma ∨ s = .semicolon → DerivesTail [] [.symbol s]
  | next {s : Symbol} {e : Expr} {more : List Expr} {ls ms : List Lexeme} :
      s = .comma ∨ s = .semicolon → Derives (.formula .whole e) ls → DerivesTail more ms →
      DerivesTail (e :: more) (.symbol s :: (ls ++ ms))

/-- The rows of lexemes that stand for a formula or for a sequence. -/
def DerivesSource (e : Expr) (ls : List Lexeme) : Prop :=
  ∃ first more fs ms, e = ofBody (first :: more) ∧ ls = fs ++ ms ∧
    Derives (.formula .whole first) fs ∧ DerivesTail more ms

/-! ### How rows begin -/

/-- The lexeme is an atom or opens a group or an array. -/
def OpensAtom (l : Lexeme) : Prop :=
  (atom? l).isSome ∨ l = .symbol .openParen ∨ l = .symbol .openBracket

/-- A row for a formula begins with an atom or an opening, at the looser ranks perhaps behind
operators. -/
def Rank.Opens : Rank → Lexeme → Prop
  | .atom, l => OpensAtom l
  | .access, l => OpensAtom l
  | _, l => OpensAtom l ∨ (prefixOperator? l).isSome

theorem OpensAtom.not_prefix {l : Lexeme} (h : OpensAtom l) : prefixOperator? l = none := by
  unfold prefixOperator?
  split <;> simp_all [OpensAtom, atom?]

/-- No row for a formula begins with a comma or with what closes something. -/
theorem Rank.Opens.ne {r : Rank} {l : Lexeme} (h : r.Opens l) :
    l ≠ .symbol .comma ∧ l ≠ .symbol .closeParen ∧ l ≠ .symbol .closeBracket ∧ l ≠ .eof := by
  refine ⟨?_, ?_, ?_, ?_⟩
  all_goals
    rintro rfl
    cases r <;> simp [Rank.Opens, OpensAtom, atom?, prefixOperator?] at h

/-- The row of a formula has a first lexeme, and it is one with which formulas begin. -/
theorem Derives.opens {r : Rank} {e : Expr} {ls : List Lexeme} (h : Derives (.formula r e) ls) :
    ∃ l more, ls = l :: more ∧ r.Opens l := by
  generalize hp : Phrase.formula r e = p at h
  induction h generalizing r e with
  | @atom l _ ha =>
    cases hp
    exact ⟨l, [], rfl, Or.inl (by rw [ha]; rfl)⟩
  | group _ _ =>
    cases hp
    exact ⟨_, _, rfl, Or.inr (Or.inl rfl)⟩
  | array _ _ =>
    cases hp
    exact ⟨_, _, rfl, Or.inr (Or.inr rfl)⟩
  | ofAtom _ ih =>
    cases hp
    obtain ⟨l, more, rfl, hl⟩ := ih rfl
    exact ⟨l, more, rfl, hl⟩
  | member _ _ ih | index _ _ ih _ | call _ _ ih _ =>
    cases hp
    obtain ⟨l, more, rfl, hl⟩ := ih rfl
    exact ⟨l, _, rfl, hl⟩
  | ofAccess _ ih =>
    cases hp
    obtain ⟨l, more, rfl, hl⟩ := ih rfl
    exact ⟨l, more, rfl, Or.inl hl⟩
  | @unary l _ _ _ hop _ _ =>
    cases hp
    exact ⟨l, _, rfl, Or.inr (by rw [hop]; rfl)⟩
  | ofLevel _ ih | ofLevels _ ih | binary _ _ _ ih _ | conditional _ _ _ ih _ _ =>
    cases hp
    obtain ⟨l, more, rfl, hl⟩ := ih rfl
    exact ⟨l, _, rfl, hl⟩
  | _ => cases hp

/-- A looser level takes in what a tighter one does. -/
theorem Derives.level_mono {m n : Nat} {e : Expr} {ls : List Lexeme}
    (h : Derives (.formula (.level m) e) ls) (hmn : m ≤ n) :
    Derives (.formula (.level n) e) ls := by
  induction hmn with
  | refl => exact h
  | step _ ih => exact .ofLevel ih

end LiveForm.Formula
