import LiveForm.Formula.Lexer
import LiveForm.Formula.Syntax

/-!
# Reading formulas

Tokens are read from left to right, one level of precedence inside the other. From the loosest: a
sequence, a conditional, `??`, `||`, `&&`, equality, comparison, sums, products, operators in front,
and last the accesses and calls behind. The operators between two values group to the left, the
conditional to the right. Every step hands on a shorter row of tokens, and the reading ends by that.
-/

namespace LiveForm

/-- Why a row of tokens is no formula. -/
inductive ParseCause where
  | empty
  | endOfSource
  | unexpected
  | noColon
  | noCloseIndex
  | noCloseGroup
  | noCloseArguments
  | noCloseArray
  | noMember
deriving Repr, DecidableEq

/-- An error of the parser: the cause, and the token that could not be read on. -/
structure ParseError where
  cause : ParseCause
  token : Token
deriving DecidableEq

/-- The value of a token in plain form. -/
def Token.shown (t : Token) : String :=
  t.lexeme.value.plain.toOption.getD ""

/-- The error in words. -/
def ParseError.message (e : ParseError) : String :=
  let cause :=
    match e.cause with
    | .empty => "Empty expression"
    | .endOfSource => "Unexpected end of expression"
    | .unexpected => "Unexpected token '" ++ e.token.shown ++ "'"
    | .noColon => "Expected ':' in conditional expression"
    | .noCloseIndex => "Expected ']' after index"
    | .noCloseGroup => "Expected ')' after expression"
    | .noCloseArguments => "Expected ')' after arguments"
    | .noCloseArray => "Expected ',' or ']' in array literal"
    | .noMember => "Expected identifier after '.'"
  cause ++ " at position " ++ toString e.token.position

/-- Why a source is no formula. -/
inductive SyntaxError where
  | lex (e : LexError)
  | parse (e : ParseError)
deriving DecidableEq

/-- The error in words. -/
def SyntaxError.message : SyntaxError → String
  | lex e => e.message
  | parse e => e.message

namespace Formula

/-- What is left of a row of tokens after something has been read from it. -/
abbrev Rest (ts : List Token) := { r : List Token // r.length < ts.length }

/-- What is left of a row of tokens after something or nothing has been read from it. -/
abbrev Tail (ts : List Token) := { r : List Token // r.length ≤ ts.length }

/-- The next token. Behind the last one the source has ended. -/
def peek (ts : List Token) : Token :=
  ts.headD ⟨.eof, 0, 1, 1⟩

/-- An error at the next token. -/
def errorAt (ts : List Token) (cause : ParseCause) : Except ParseError α :=
  .error ⟨cause, peek ts⟩

/-- Takes a symbol from the front, if it is there. -/
def accept? (s : Symbol) : (ts : List Token) → Option (Rest ts)
  | [] => none
  | t :: rest => if t.lexeme = .symbol s then some ⟨rest, Nat.lt_succ_self _⟩ else none

/-- Takes a symbol from the front; it must be there. -/
def expect (s : Symbol) (cause : ParseCause) (ts : List Token) : Except ParseError (Rest ts) :=
  match accept? s ts with
  | some r => .ok r
  | none => errorAt ts cause

/-- The operators between two values, by level: products are one, `??` is seven. -/
def operator? : Nat → Symbol → Option (Expr → Expr → Expr)
  | 1, .times => some (.binary .mul)
  | 1, .divide => some (.binary .div)
  | 1, .modulo => some (.binary .mod)
  | 2, .plus => some (.binary .add)
  | 2, .minus => some (.binary .sub)
  | 3, .lt => some (.binary .lt)
  | 3, .le => some (.binary .le)
  | 3, .gt => some (.binary .gt)
  | 3, .ge => some (.binary .ge)
  | 4, .strictEq => some (.binary .strictEq)
  | 4, .strictNe => some (.binary .strictNe)
  | 4, .eq => some (.binary .eq)
  | 4, .ne => some (.binary .ne)
  | 5, .and => some (.logical .and)
  | 6, .or => some (.logical .or)
  | 7, .coalesce => some (.logical .coalesce)
  | _, _ => none

/-- The loosest level. -/
def topLevel : Nat := 7

/-- Takes an operator of a level from the front, if one is there. -/
def acceptOperator? (level : Nat) : (ts : List Token) → Option ((Expr → Expr → Expr) × Rest ts)
  | [] => none
  | t :: rest =>
    match t.lexeme with
    | .symbol s => (operator? level s).map fun make => (make, ⟨rest, Nat.lt_succ_self _⟩)
    | _ => none

/-- The operator in front of a value that a lexeme stands for. -/
def prefixOperator? : Lexeme → Option UnaryOp
  | .symbol .not => some .not
  | .symbol .minus => some .neg
  | .symbol .plus => some .pos
  | .typeof => some .typeof
  | _ => none

/-- Takes an operator in front of a value, if one is there. -/
def acceptPrefix? : (ts : List Token) → Option (UnaryOp × Rest ts)
  | [] => none
  | t :: rest => (prefixOperator? t.lexeme).map fun op => (op, ⟨rest, Nat.lt_succ_self _⟩)

/-- The name of a member that a lexeme stands for. Words with a meaning of their own are allowed. -/
def memberName? : Lexeme → Option String
  | .name s => some s
  | .bool true => some "true"
  | .bool false => some "false"
  | .null => some "null"
  | .undefined => some "undefined"
  | .typeof => some "typeof"
  | _ => none

/-- Takes the name of a member from the front. -/
def memberName (ts : List Token) : Except ParseError (String × Rest ts) :=
  match ts with
  | [] => errorAt [] .noMember
  | t :: rest =>
    match memberName? t.lexeme with
    | some name => .ok (name, ⟨rest, Nat.lt_succ_self _⟩)
    | none => errorAt (t :: rest) .noMember

/-- The formula that a lexeme is by itself. -/
def atom? : Lexeme → Option Expr
  | .number n => some (.literal (.number n))
  | .text s => some (.literal (.text s))
  | .bool b => some (.literal (.bool b))
  | .null => some (.literal .null)
  | .undefined => some (.literal .null)
  | .name s => some (.name s)
  | _ => none

mutual

/-- A conditional, or what stands for its test. -/
def conditional (ts : List Token) : Except ParseError (Expr × Rest ts) :=
  match binary topLevel ts with
  | .error e => .error e
  | .ok (test, r₀) =>
    match accept? .question r₀.val with
    | none => .ok (test, r₀)
    | some r₁ =>
      match conditional r₁.val with
      | .error e => .error e
      | .ok (consequent, r₂) =>
        match expect .colon .noColon r₂.val with
        | .error e => .error e
        | .ok r₃ =>
          match conditional r₃.val with
          | .error e => .error e
          | .ok (alternate, r₄) =>
            .ok (.conditional test consequent alternate, ⟨r₄.val, by omega⟩)
termination_by (ts.length, 3 + topLevel)

/-- Operators of a level and below, grouped to the left. -/
def binary (level : Nat) (ts : List Token) : Except ParseError (Expr × Rest ts) :=
  match level with
  | 0 => unary ts
  | below + 1 =>
    match binary below ts with
    | .error e => .error e
    | .ok (left, r₀) =>
      match binaryTail below left r₀.val with
      | .error e => .error e
      | .ok (e, r₁) => .ok (e, ⟨r₁.val, by omega⟩)
termination_by (ts.length, 2 + level)

/-- More operators of the level just above the given one, behind a left side. -/
def binaryTail (below : Nat) (left : Expr) (ts : List Token) :
    Except ParseError (Expr × Tail ts) :=
  match acceptOperator? (below + 1) ts with
  | none => .ok (left, ⟨ts, Nat.le_refl _⟩)
  | some (make, r₀) =>
    match binary below r₀.val with
    | .error e => .error e
    | .ok (right, r₁) =>
      match binaryTail below (make left right) r₁.val with
      | .error e => .error e
      | .ok (e, r₂) => .ok (e, ⟨r₂.val, by omega⟩)
termination_by (ts.length, 0)

/-- A value with the operators in front of it. -/
def unary (ts : List Token) : Except ParseError (Expr × Rest ts) :=
  match acceptPrefix? ts with
  | some (op, r₀) =>
    match unary r₀.val with
    | .error e => .error e
    | .ok (operand, r₁) => .ok (.unary op operand, ⟨r₁.val, by omega⟩)
  | none =>
    match primary ts with
    | .error e => .error e
    | .ok (node, r₀) =>
      match accesses node r₀.val with
      | .error e => .error e
      | .ok (e, r₁) => .ok (e, ⟨r₁.val, by omega⟩)
termination_by (ts.length, 1)

/-- The accesses and calls behind a value. -/
def accesses (node : Expr) (ts : List Token) : Except ParseError (Expr × Tail ts) :=
  match accept? .dot ts with
  | some r₀ =>
    match memberName r₀.val with
    | .error e => .error e
    | .ok (name, r₁) =>
      match accesses (.member node name) r₁.val with
      | .error e => .error e
      | .ok (e, r₂) => .ok (e, ⟨r₂.val, by omega⟩)
  | none =>
    match accept? .openBracket ts with
    | some r₀ =>
      match conditional r₀.val with
      | .error e => .error e
      | .ok (index, r₁) =>
        match expect .closeBracket .noCloseIndex r₁.val with
        | .error e => .error e
        | .ok r₂ =>
          match accesses (.index node index) r₂.val with
          | .error e => .error e
          | .ok (e, r₃) => .ok (e, ⟨r₃.val, by omega⟩)
    | none =>
      match accept? .openParen ts with
      | some r₀ =>
        match arguments r₀.val with
        | .error e => .error e
        | .ok (args, r₁) =>
          match accesses (.call node args) r₁.val with
          | .error e => .error e
          | .ok (e, r₂) => .ok (e, ⟨r₂.val, by omega⟩)
      | none => .ok (node, ⟨ts, Nat.le_refl _⟩)
termination_by (ts.length, 0)

/-- A literal, a name, a group or an array. -/
def primary (ts : List Token) : Except ParseError (Expr × Rest ts) :=
  match ts with
  | [] => errorAt [] .endOfSource
  | t :: rest =>
    match atom? t.lexeme with
    | some e => .ok (e, ⟨rest, Nat.lt_succ_self _⟩)
    | none =>
      if t.lexeme = .symbol .openParen then
        match conditional rest with
        | .error e => .error e
        | .ok (inner, r₀) =>
          match expect .closeParen .noCloseGroup r₀.val with
          | .error e => .error e
          | .ok r₁ => .ok (inner, ⟨r₁.val, by simp only [List.length_cons]; omega⟩)
      else if t.lexeme = .symbol .openBracket then
        match elements rest with
        | .error e => .error e
        | .ok (items, r₀) => .ok (.array items, ⟨r₀.val, by simp only [List.length_cons]; omega⟩)
      else if t.lexeme = .eof then .error ⟨.endOfSource, t⟩
      else .error ⟨.unexpected, t⟩
termination_by (ts.length, 0)

/-- The arguments of a call, behind its opening parenthesis. -/
def arguments (ts : List Token) : Except ParseError (List Expr × Rest ts) :=
  match accept? .closeParen ts with
  | some r₀ => .ok ([], r₀)
  | none =>
    match conditional ts with
    | .error e => .error e
    | .ok (first, r₀) =>
      match moreArguments r₀.val with
      | .error e => .error e
      | .ok (more, r₁) => .ok (first :: more, ⟨r₁.val, by omega⟩)
termination_by (ts.length, 4 + topLevel)

/-- The arguments behind the first one, and the closing parenthesis. -/
def moreArguments (ts : List Token) : Except ParseError (List Expr × Rest ts) :=
  match accept? .comma ts with
  | some r₀ =>
    match conditional r₀.val with
    | .error e => .error e
    | .ok (next, r₁) =>
      match moreArguments r₁.val with
      | .error e => .error e
      | .ok (more, r₂) => .ok (next :: more, ⟨r₂.val, by omega⟩)
  | none =>
    match expect .closeParen .noCloseArguments ts with
    | .error e => .error e
    | .ok r₀ => .ok ([], r₀)
termination_by (ts.length, 0)

/-- The elements of an array, behind its opening bracket. A comma where an element should be leaves
a hole; a comma behind the last element leaves none. -/
def elements (ts : List Token) : Except ParseError (List (Option Expr) × Rest ts) :=
  match accept? .closeBracket ts with
  | some r₀ => .ok ([], r₀)
  | none =>
    match accept? .comma ts with
    | some r₀ =>
      match elements r₀.val with
      | .error e => .error e
      | .ok (more, r₁) => .ok (none :: more, ⟨r₁.val, by omega⟩)
    | none =>
      match conditional ts with
      | .error e => .error e
      | .ok (item, r₀) =>
        match accept? .comma r₀.val with
        | some r₁ =>
          match elements r₁.val with
          | .error e => .error e
          | .ok (more, r₂) => .ok (some item :: more, ⟨r₂.val, by omega⟩)
        | none =>
          match expect .closeBracket .noCloseArray r₀.val with
          | .error e => .error e
          | .ok r₁ => .ok ([some item], ⟨r₁.val, by omega⟩)
termination_by (ts.length, 4 + topLevel)

end

/-- Takes a comma or a semicolon from the front, if one is there. -/
def acceptSeparator? (ts : List Token) : Option (Rest ts) :=
  (accept? .comma ts).orElse fun _ => accept? .semicolon ts

/-- The formulas of a sequence behind its first one. A separator may stand at the very end. -/
def sequenceTail (ts : List Token) : Except ParseError (List Expr × List Token) :=
  match acceptSeparator? ts with
  | none => .ok ([], ts)
  | some r₀ =>
    if (peek r₀.val).lexeme = .eof then .ok ([], r₀.val)
    else
      match conditional r₀.val with
      | .error e => .error e
      | .ok (next, r₁) =>
        match sequenceTail r₁.val with
        | .error e => .error e
        | .ok (more, after) => .ok (next :: more, after)
termination_by ts.length
decreasing_by omega

/-- One formula stands for itself, several make a sequence. -/
def ofBody : List Expr → Expr
  | [e] => e
  | body => .sequence body

/-- Reads a row of tokens, all of it. -/
def parseTokens (ts : List Token) : Except ParseError Expr :=
  if (peek ts).lexeme = .eof then errorAt ts .empty
  else
    match conditional ts with
    | .error e => .error e
    | .ok (first, r₀) =>
      match sequenceTail r₀.val with
      | .error e => .error e
      | .ok (more, after) =>
        if (peek after).lexeme = .eof then .ok (ofBody (first :: more))
        else errorAt after .unexpected

/-- Reads a formula. -/
def parse (source : String) : Except SyntaxError Expr :=
  match tokens source with
  | .error e => .error (.lex e)
  | .ok ts =>
    match parseTokens ts with
    | .error e => .error (.parse e)
    | .ok e => .ok e

end Formula

end LiveForm
