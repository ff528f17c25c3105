import LiveForm.Value.Written

/-!
# Tokens

A formula is read as a row of tokens: literals, names, and symbols. Each token knows where it
stands: its offset, and the line and column that a message names.
-/

namespace LiveForm

/-- The symbols of the formula language. -/
inductive Symbol where
  | strictEq | strictNe | eq | ne | le | ge | and | or | coalesce
  | lt | gt | not | plus | minus | times | divide | modulo
  | openParen | closeParen | openBracket | closeBracket
  | comma | semicolon | dot | question | colon
deriving Repr, DecidableEq

/-- The spelling of a symbol. -/
def Symbol.spelling : Symbol → String
  | strictEq => "===" | strictNe => "!==" | eq => "==" | ne => "!=" | le => "<=" | ge => ">="
  | and => "&&" | or => "||" | coalesce => "??" | lt => "<" | gt => ">" | not => "!"
  | plus => "+" | minus => "-" | times => "*" | divide => "/" | modulo => "%"
  | openParen => "(" | closeParen => ")" | openBracket => "[" | closeBracket => "]"
  | comma => "," | semicolon => ";" | dot => "." | question => "?" | colon => ":"

/-- The symbols, the longer spellings before the shorter ones. -/
def Symbol.all : List Symbol :=
  [strictEq, strictNe, eq, ne, le, ge, and, or, coalesce, lt, gt, not, plus, minus, times, divide,
    modulo, openParen, closeParen, openBracket, closeBracket, comma, semicolon, dot, question,
    colon]

/-- What a token is. -/
inductive Lexeme where
  | number (n : Number)
  | text (s : String)
  | bool (b : Bool)
  | null
  | undefined
  | name (s : String)
  | typeof
  | symbol (s : Symbol)
  /-- The end of the source. -/
  | eof
deriving DecidableEq

/-- A token and where it stands. Offsets count from zero, lines and columns from one. -/
structure Token where
  lexeme : Lexeme
  position : Nat
  line : Nat
  column : Nat
deriving DecidableEq

/-- The value that a token stands for. -/
def Lexeme.value : Lexeme → Value
  | number n => .number n
  | text s => .text s
  | bool b => .bool b
  | null => .null
  | undefined => .null
  | name s => .text s
  | typeof => .text "typeof"
  | symbol s => .text s.spelling
  | eof => .null

/-- The class of a symbol, by name. -/
def Symbol.className : Symbol → String
  | strictEq => "STRICT_EQ" | strictNe => "STRICT_NEQ" | eq => "EQ" | ne => "NEQ"
  | le => "LTE" | ge => "GTE" | and => "AND" | or => "OR" | coalesce => "NULLISH"
  | lt => "LT" | gt => "GT" | not => "NOT" | plus => "PLUS" | minus => "MINUS"
  | times => "MULTIPLY" | divide => "DIVIDE" | modulo => "MODULO"
  | openParen => "LPAREN" | closeParen => "RPAREN"
  | openBracket => "LBRACKET" | closeBracket => "RBRACKET"
  | comma => "COMMA" | semicolon => "SEMICOLON" | dot => "DOT"
  | question => "QUESTION" | colon => "COLON"

/-- The class of a token, by name. -/
def Lexeme.className : Lexeme → String
  | number _ => "NUMBER"
  | text _ => "STRING"
  | bool _ => "BOOLEAN"
  | null => "NULL"
  | undefined => "UNDEFINED"
  | name _ => "IDENTIFIER"
  | typeof => "TYPEOF"
  | symbol s => s.className
  | eof => "EOF"

/-- A token as it is shown when tokens are listed. -/
def Token.written (t : Token) : Except NumberError String := do
  return "Token(" ++ t.lexeme.className ++ ", " ++ (← t.lexeme.value.written) ++ ", @" ++
    toString t.line ++ ":" ++ toString t.column ++ ")"

/-- Why a source cannot be cut into tokens. -/
inductive LexCause where
  /-- No token starts with this character. -/
  | unexpected (c : Char)
  /-- A whole number with too many digits. -/
  | badNumber (cause : NumberError)
deriving DecidableEq

/-- An error of the lexer and where it stands. -/
structure LexError where
  cause : LexCause
  position : Nat
  line : Nat
  column : Nat
deriving DecidableEq

/-- The cause in words. -/
def LexCause.message : LexCause → String
  | unexpected c => "Unexpected character '" ++ String.singleton c ++ "'"
  | badNumber cause => "Invalid number literal: " ++ cause.message

/-- The error in words. -/
def LexError.message (e : LexError) : String :=
  e.cause.message ++ " at line " ++ toString e.line ++ ", column " ++ toString e.column

end LiveForm
