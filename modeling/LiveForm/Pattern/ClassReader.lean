import LiveForm.Pattern.Escape

/-!
# Reading classes of characters

A class stands between brackets: single characters, ranges and classes of a letter. A closing
bracket that comes first is a member, and so is a hyphen that comes first or last.
-/

namespace LiveForm.Pattern

/-- A member of a class: a code point, or a class by itself. -/
abbrev Member := Nat ⊕ ClassItem

/-- A member as it counts. -/
def Member.item : Member → ClassItem
  | .inl n => .range n n
  | .inr item => item

/-- A member that starts with a piece. -/
def member (size : Nat) (mode : Mode) (t : Piece) (rest : List Piece) :
    Except Stop (Member × Nat) :=
  if !t.escaped then .ok (.inl t.char.toNat, 0)
  else
    match category? mode t.char with
    | some item => .ok (.inr item, 0)
    | none => do
      let (n, taken) ← if isOctal t.char then octalEscape t rest else charEscape size t rest
      return (.inl n, taken)

/-- The range between two members, given as they start and as they are. -/
def memberRange (size : Nat) (low high : Piece) (l h : Member) (left : List Piece) :
    Except Stop ClassItem :=
  let written := low.text ++ "-" ++ high.text
  let bad : Except Stop ClassItem :=
    stopAt (.badRange written) (reached size left - written.length) left
  match l, h with
  | .inl a, .inl b => if b < a then bad else .ok (.range a b)
  | _, _ => bad

/-- The members of a class behind those that have been read, given in reverse, up to the closing
bracket. The pieces that have been taken are counted. -/
def classItems (size opened : Nat) (mode : Mode) (items : List ClassItem) (taken : Nat)
    (ts : List Piece) : Except Stop (List ClassItem × Nat) :=
  match ts with
  | [] => stopAt .unclosedClass opened []
  | low :: rest =>
    if low.is ']' && !items.isEmpty then .ok (items.reverse, taken + 1)
    else
      match member size mode low rest with
      | .error e => .error e
      | .ok (l, n) =>
        if isNext '-' (rest.drop n) then
          match rest.drop (n + 1) with
          | [] => stopAt .unclosedClass opened []
          | high :: _ =>
            if high.is ']' then
              .ok ((.range 0x2d 0x2d :: l.item :: items).reverse, taken + n + 3)
            else
              let after := rest.drop (n + 2)
              match member size mode high after with
              | .error e => .error e
              | .ok (h, m) =>
                match memberRange size low high l h (after.drop m) with
                | .error e => .error e
                | .ok item =>
                  classItems size opened mode (item :: items) (taken + n + 3 + m)
                    (rest.drop (n + 2 + m))
        else classItems size opened mode (l.item :: items) (taken + 1 + n) (rest.drop n)
termination_by ts.length
decreasing_by
  all_goals simp only [List.length_drop, List.length_cons]
  all_goals omega

/-- A class, behind its opening bracket. -/
def charClass (size opened : Nat) (mode : Mode) (ts : List Piece) :
    Except Stop (CharClass × Nat) := do
  let negated := isNext '^' ts
  let start := if negated then 1 else 0
  let (items, taken) ← classItems size opened mode [] start (ts.drop start)
  return ({ negated, items, casing := mode.casing }, taken)

end LiveForm.Pattern
