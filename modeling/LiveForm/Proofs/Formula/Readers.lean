import Mathlib
import LiveForm.Formula.Parser

/-!
# The parser as readers

Every part of the parser takes tokens from the front of a row and hands on the others, or refuses
the row. As readers the parts compose: one after the other, by what the next token is (`taking`), and
by whether the source ends (`ifEnd`). For each part there is one equation that says how it is made of
others, without the proofs that rows become shorter (`reader_conditional`, ..., `parseTokens_eq`).
-/

namespace LiveForm.Formula

variable {α β γ : Type}

/-- Takes something from the front of a row of tokens and hands on the others. -/
abbrev Reader (α : Type) := StateT (List Token) (Except ParseError) α

/-- A part of the parser as a reader. -/
def reader {P : List Token → List Token → Prop}
    (f : (ts : List Token) → Except ParseError (α × { r // P ts r })) : Reader α :=
  fun ts => (f ts).map fun x => (x.1, x.2.val)

/-- Refuses the next token. -/
def refuse (cause : ParseCause) : Reader α :=
  fun ts => .error ⟨cause, peek ts⟩

/-- Takes the next token, if it is accepted, and goes on in one way or the other. -/
def taking (f : Lexeme → Option γ) (yes : γ → Reader α) (no : Reader α) : Reader α
  | [] => no []
  | t :: rest =>
    match f t.lexeme with
    | some c => yes c rest
    | none => no (t :: rest)

/-- Goes on in one way where the source ends, and in the other before that. -/
def ifEnd (yes no : Reader α) : Reader α :=
  fun ts => if (peek ts).lexeme = .eof then yes ts else no ts

/-- Accepts a symbol. -/
def isSymbol (s : Symbol) (l : Lexeme) : Option Unit :=
  if l = .symbol s then some () else none

/-- Accepts the operators of a level. -/
def isOperator (level : Nat) : Lexeme → Option (Expr → Expr → Expr)
  | .symbol s => operator? level s
  | _ => none

/-- Accepts a comma and a semicolon. -/
def isSeparator (l : Lexeme) : Option Unit :=
  if l = .symbol .comma ∨ l = .symbol .semicolon then some () else none

/-! ### Running readers -/

/-- What comes first leaves what comes next its row. -/
theorem bind_apply (p : Reader α) (q : α → Reader β) (ts : List Token) :
    (p >>= q) ts =
      match p ts with
      | .error e => .error e
      | .ok (a, r) => q a r := by
  change (p ts >>= fun x => q x.1 x.2) = _
  cases p ts <;> rfl

theorem bind_reader {P : List Token → List Token → Prop}
    (f : (ts : List Token) → Except ParseError (α × { r // P ts r })) (q : α → Reader β)
    (ts : List Token) : (reader f >>= q) ts =
      match f ts with
      | .error e => .error e
      | .ok (a, r) => q a r.val := by
  rw [bind_apply, reader]
  cases f ts <;> rfl

/-- What a part of the parser leaves is as short as the part says. -/
theorem of_reader {P : List Token → List Token → Prop}
    {f : (ts : List Token) → Except ParseError (α × { r // P ts r })} {ts r : List Token} {a : α}
    (h : reader f ts = .ok (a, r)) : P ts r := by
  unfold reader at h
  cases hf : f ts with
  | error e =>
    rw [hf] at h
    exact nomatch h
  | ok x =>
    rw [hf] at h
    obtain ⟨-, rfl⟩ := Prod.mk.inj (Except.ok.inj h)
    exact x.2.property

theorem taking_isSymbol (s : Symbol) (yes : Unit → Reader α) (no : Reader α) (ts : List Token) :
    taking (isSymbol s) yes no ts =
      match accept? s ts with
      | some r => yes () r.val
      | none => no ts := by
  cases ts with
  | nil => rfl
  | cons t rest =>
    unfold taking accept? isSymbol
    dsimp only
    split_ifs <;> rfl

theorem taking_or_refuse (s : Symbol) (cause : ParseCause) (yes : Unit → Reader α)
    (ts : List Token) : taking (isSymbol s) yes (refuse cause) ts =
      match expect s cause ts with
      | .error e => .error e
      | .ok r => yes () r.val := by
  rw [taking_isSymbol, expect]
  cases accept? s ts <;> rfl

theorem taking_isOperator (level : Nat) (yes : (Expr → Expr → Expr) → Reader α) (no : Reader α)
    (ts : List Token) : taking (isOperator level) yes no ts =
      match acceptOperator? level ts with
      | some (make, r) => yes make r.val
      | none => no ts := by
  cases ts with
  | nil => rfl
  | cons t rest =>
    obtain ⟨l, position, line, column⟩ := t
    cases l with
    | symbol s =>
      rw [taking, acceptOperator?, isOperator]
      dsimp only
      cases operator? level s <;> rfl
    | _ => rfl

theorem taking_prefixOperator? (yes : UnaryOp → Reader α) (no : Reader α) (ts : List Token) :
    taking prefixOperator? yes no ts =
      match acceptPrefix? ts with
      | some (op, r) => yes op r.val
      | none => no ts := by
  cases ts with
  | nil => rfl
  | cons t rest =>
    rw [taking, acceptPrefix?]
    cases prefixOperator? t.lexeme <;> rfl

theorem taking_isSeparator (yes : Unit → Reader α) (no : Reader α) (ts : List Token) :
    taking isSeparator yes no ts =
      match acceptSeparator? ts with
      | some r => yes () r.val
      | none => no ts := by
  cases ts with
  | nil => rfl
  | cons t rest =>
    unfold taking acceptSeparator? accept? isSeparator
    by_cases hcomma : t.lexeme = .symbol .comma
    · simp [hcomma]
    · by_cases hsemicolon : t.lexeme = .symbol .semicolon
      · simp [hsemicolon]
      · simp [hcomma, hsemicolon]

/-! ### The parts of the parser -/

theorem reader_conditional : reader conditional = (do
    let test ← reader (binary topLevel)
    taking (isSymbol .question)
      (fun _ => do
        let consequent ← reader conditional
        taking (isSymbol .colon)
          (fun _ => do
            let alternate ← reader conditional
            return .conditional test consequent alternate)
          (refuse .noColon))
      (return test)) := by
  funext ts
  rw [reader, conditional]
  simp only [bind_reader, taking_isSymbol .question, taking_or_refuse]
  rcases binary topLevel ts with _ | ⟨test, r⟩
  · rfl
  dsimp only
  rcases accept? .question r.val with _ | r
  · rfl
  dsimp only
  rcases conditional r.val with _ | ⟨consequent, r⟩
  · rfl
  dsimp only
  rcases expect .colon .noColon r.val with _ | r
  · rfl
  dsimp only
  rcases conditional r.val with _ | ⟨alternate, r⟩ <;> rfl

theorem reader_binary_zero : reader (binary 0) = reader unary := by
  funext ts
  rw [reader, binary, reader]

theorem reader_binary_succ (below : Nat) : reader (binary (below + 1)) = (do
    let left ← reader (binary below)
    reader (binaryTail below left)) := by
  funext ts
  rw [reader, binary]
  simp only [bind_reader]
  rcases binary below ts with _ | ⟨left, r⟩
  · rfl
  dsimp only [reader]
  rcases binaryTail below left r.val with _ | ⟨e, r⟩ <;> rfl

theorem reader_binaryTail (below : Nat) (left : Expr) : reader (binaryTail below left) =
    taking (isOperator (below + 1))
      (fun make => do
        let right ← reader (binary below)
        reader (binaryTail below (make left right)))
      (return left) := by
  funext ts
  rw [reader, binaryTail]
  simp only [bind_reader, taking_isOperator]
  rcases acceptOperator? (below + 1) ts with _ | ⟨make, r⟩
  · rfl
  dsimp only
  rcases binary below r.val with _ | ⟨right, r⟩
  · rfl
  dsimp only [reader]
  rcases binaryTail below (make left right) r.val with _ | ⟨e, r⟩ <;> rfl

theorem reader_unary : reader unary =
    taking prefixOperator?
      (fun op => do
        let operand ← reader unary
        return .unary op operand)
      (do
        let node ← reader primary
        reader (accesses node)) := by
  funext ts
  rw [reader, unary]
  simp only [bind_reader, taking_prefixOperator?]
  rcases acceptPrefix? ts with _ | ⟨op, r⟩
  · dsimp only
    rcases primary ts with _ | ⟨node, r⟩
    · rfl
    dsimp only [reader]
    rcases accesses node r.val with _ | ⟨e, r⟩ <;> rfl
  · dsimp only
    rcases unary r.val with _ | ⟨operand, r⟩ <;> rfl

theorem reader_memberName : reader memberName = taking memberName? pure (refuse .noMember) := by
  funext ts
  cases ts with
  | nil => rfl
  | cons t rest =>
    rw [reader, memberName, taking]
    cases memberName? t.lexeme <;> rfl

theorem reader_accesses (node : Expr) : reader (accesses node) =
    (taking (isSymbol .dot)
      (fun _ => do
        let name ← reader memberName
        reader (accesses (.member node name))) <|
    taking (isSymbol .openBracket)
      (fun _ => do
        let index ← reader conditional
        taking (isSymbol .closeBracket) (fun _ => reader (accesses (.index node index)))
          (refuse .noCloseIndex)) <|
    taking (isSymbol .openParen)
      (fun _ => do
        let args ← reader arguments
        reader (accesses (.call node args)))
      (return node)) := by
  funext ts
  rw [reader, accesses]
  simp only [bind_reader, taking_isSymbol .dot, taking_isSymbol .openBracket,
    taking_isSymbol .openParen, taking_or_refuse]
  rcases accept? .dot ts with _ | r
  · dsimp only
    rcases accept? .openBracket ts with _ | r
    · dsimp only
      rcases accept? .openParen ts with _ | r
      · rfl
      dsimp only
      rcases arguments r.val with _ | ⟨args, r⟩
      · rfl
      dsimp only [reader]
      rcases accesses (.call node args) r.val with _ | ⟨e, r⟩ <;> rfl
    · dsimp only
      rcases conditional r.val with _ | ⟨index, r⟩
      · rfl
      dsimp only
      rcases expect .closeBracket .noCloseIndex r.val with _ | r
      · rfl
      dsimp only [reader]
      rcases accesses (.index node index) r.val with _ | ⟨e, r⟩ <;> rfl
  · dsimp only
    rcases memberName r.val with _ | ⟨name, r⟩
    · rfl
    dsimp only [reader]
    rcases accesses (.member node name) r.val with _ | ⟨e, r⟩ <;> rfl

theorem reader_primary : reader primary =
    (taking atom? pure <|
    taking (isSymbol .openParen)
      (fun _ => do
        let inner ← reader conditional
        taking (isSymbol .closeParen) (fun _ => return inner) (refuse .noCloseGroup)) <|
    taking (isSymbol .openBracket)
      (fun _ => do
        let items ← reader elements
        return .array items) <|
    ifEnd (refuse .endOfSource) (refuse .unexpected)) := by
  funext ts
  cases ts with
  | nil =>
    rw [reader, primary]
    rfl
  | cons t rest =>
    rw [reader, primary, taking]
    rcases atom? t.lexeme with _ | e
    · dsimp only
      rw [taking, isSymbol]
      split_ifs with hparen hbracket heof
      · dsimp only
        rw [bind_reader]
        rcases conditional rest with _ | ⟨inner, r⟩
        · rfl
        dsimp only
        rw [taking_or_refuse]
        rcases expect .closeParen .noCloseGroup r.val with _ | r <;> rfl
      · dsimp only
        rw [taking, isSymbol, if_pos hbracket]
        dsimp only
        rw [bind_reader]
        rcases elements rest with _ | ⟨items, r⟩ <;> rfl
      · dsimp only
        rw [taking, isSymbol, if_neg hbracket]
        dsimp only
        rw [ifEnd, if_pos (show (peek (t :: rest)).lexeme = .eof from heof)]
        rfl
      · dsimp only
        rw [taking, isSymbol, if_neg hbracket]
        dsimp only
        rw [ifEnd, if_neg (show ¬(peek (t :: rest)).lexeme = .eof from heof)]
        rfl
    · rfl

theorem reader_arguments : reader arguments =
    taking (isSymbol .closeParen) (fun _ => return [])
      (do
        let first ← reader conditional
        let more ← reader moreArguments
        return first :: more) := by
  funext ts
  rw [reader, arguments]
  simp only [bind_reader, taking_isSymbol]
  rcases accept? .closeParen ts with _ | r
  · dsimp only
    rcases conditional ts with _ | ⟨first, r⟩
    · rfl
    dsimp only
    rcases moreArguments r.val with _ | ⟨more, r⟩ <;> rfl
  · rfl

theorem reader_moreArguments : reader moreArguments =
    taking (isSymbol .comma)
      (fun _ => do
        let next ← reader conditional
        let more ← reader moreArguments
        return next :: more)
      (taking (isSymbol .closeParen) (fun _ => return []) (refuse .noCloseArguments)) := by
  funext ts
  rw [reader, moreArguments]
  simp only [bind_reader, taking_isSymbol .comma, taking_or_refuse]
  rcases accept? .comma ts with _ | r
  · dsimp only
    rcases expect .closeParen .noCloseArguments ts with _ | r <;> rfl
  · dsimp only
    rcases conditional r.val with _ | ⟨next, r⟩
    · rfl
    dsimp only
    rcases moreArguments r.val with _ | ⟨more, r⟩ <;> rfl

theorem reader_elements : reader elements =
    (taking (isSymbol .closeBracket) (fun _ => return []) <|
    taking (isSymbol .comma)
      (fun _ => do
        let more ← reader elements
        return none :: more)
      (do
        let item ← reader conditional
        taking (isSymbol .comma)
          (fun _ => do
            let more ← reader elements
            return some item :: more)
          (taking (isSymbol .closeBracket) (fun _ => return [some item])
            (refuse .noCloseArray)))) := by
  funext ts
  rw [reader, elements]
  simp only [bind_reader, taking_isSymbol]
  rcases accept? .closeBracket ts with _ | r
  · dsimp only
    rcases accept? .comma ts with _ | r
    · dsimp only
      rcases conditional ts with _ | ⟨item, r⟩
      · rfl
      dsimp only
      rcases accept? .comma r.val with _ | r
      · dsimp only
        rw [expect]
        rcases accept? .closeBracket r.val with _ | r <;> rfl
      · dsimp only
        rcases elements r.val with _ | ⟨more, r⟩ <;> rfl
    · dsimp only
      rcases elements r.val with _ | ⟨more, r⟩ <;> rfl
  · rfl

/-- The formulas of a sequence behind its first one, as a reader. -/
def tailReader : Reader (List Expr) :=
  sequenceTail

theorem tailReader_eq : tailReader =
    taking isSeparator
      (fun _ => ifEnd (return []) (do
        let next ← reader conditional
        let more ← tailReader
        return next :: more))
      (return []) := by
  funext ts
  unfold tailReader
  rw [sequenceTail, taking_isSeparator]
  rcases acceptSeparator? ts with _ | r
  · rfl
  dsimp only
  unfold ifEnd
  split_ifs
  · rfl
  rw [bind_reader]
  rcases conditional r.val with _ | ⟨next, r⟩
  · rfl
  dsimp only
  rw [bind_apply]
  rcases sequenceTail r.val with _ | ⟨more, after⟩ <;> rfl

/-- A whole row, as a reader. -/
def sourceReader : Reader Expr :=
  ifEnd (refuse .empty) (do
    let first ← reader conditional
    let more ← tailReader
    ifEnd (return ofBody (first :: more)) (refuse .unexpected))

/-- The parser runs the reader of a whole row. -/
theorem parseTokens_eq (ts : List Token) : parseTokens ts = (sourceReader ts).map Prod.fst := by
  unfold parseTokens sourceReader
  conv_rhs => rw [ifEnd]
  split_ifs
  · rfl
  rw [bind_reader]
  rcases conditional ts with _ | ⟨first, r⟩
  · rfl
  dsimp only
  rw [bind_apply, tailReader]
  rcases sequenceTail r.val with _ | ⟨more, after⟩
  · rfl
  dsimp only
  unfold ifEnd
  split_ifs <;> rfl

end LiveForm.Formula
