import LiveForm.Formula.Token

/-!
# Cutting a formula into tokens

At each place of the source one of five classes matches: blanks, a number, a quoted text, a word or
a symbol. A class says how many characters it takes, so the pieces lie end to end by construction.
A number may start with a point; of the symbols the longest that fits is taken.
-/

namespace LiveForm.Formula

open LiveForm.Text

/-- The classes of text. -/
inductive Kind where
  | blank | number | text | word | symbol (s : Symbol)
deriving Repr, DecidableEq

/-- How many characters at the front satisfy a test. -/
def runLength (p : Char → Bool) (cs : List Char) : Nat :=
  (cs.takeWhile p).length

/-- The length of an exponent at the front: a mark, an optional sign and digits. -/
def exponentLength : List Char → Nat
  | mark :: rest =>
    if mark == 'e' || mark == 'E' then
      match rest with
      | sign :: more =>
        if sign == '+' || sign == '-' then
          let n := runLength isDigit more
          if n == 0 then 0 else n + 2
        else
          let n := runLength isDigit rest
          if n == 0 then 0 else n + 1
      | [] => 0
    else 0
  | [] => 0

/-- The length of the digits behind a point at the front. -/
def fractionLength : List Char → Nat
  | '.' :: rest => runLength isDigit rest
  | _ => 0

/-- The length of a number at the front. -/
def numberLength (cs : List Char) : Nat :=
  let whole := runLength isDigit cs
  let fraction := fractionLength (cs.drop whole)
  let n := if fraction == 0 then whole else whole + 1 + fraction
  if n == 0 then 0 else n + exponentLength (cs.drop n)

/-- The length of what is left of a quoted text, its closing quote included. A backslash takes the
next character with it, but no line break. -/
def textLength? (quote : Char) : List Char → Option Nat
  | [] => none
  | '\\' :: '\n' :: _ => none
  | '\\' :: _ :: rest => (textLength? quote rest).map (· + 2)
  | c :: rest => if c == quote then some 1 else (textLength? quote rest).map (· + 1)

/-- The quotes that open a text. -/
def isQuote (c : Char) : Bool :=
  c == '"' || c == singleQuote

/-- A letter of ASCII, an underscore or a dollar sign. -/
def startsWord (c : Char) : Bool :=
  c.isAlpha || c == '_' || c == '$'

/-- A character that may follow in a word. -/
def continuesWord (c : Char) : Bool :=
  startsWord c || c.isDigit

/-- The length of a word at the front. -/
def wordLength : List Char → Nat
  | c :: rest => if startsWord c then 1 + runLength continuesWord rest else 0
  | [] => 0

/-- The symbol at the front. -/
def symbol? (cs : List Char) : Option Symbol :=
  Symbol.all.find? fun s => s.spelling.toList.isPrefixOf cs

/-- The class of text at the front, and its length. -/
def front? (cs : List Char) : Option (Kind × Nat) :=
  let blanks := runLength isBlank cs
  let digits := numberLength cs
  let letters := wordLength cs
  if blanks != 0 then some (.blank, blanks)
  else if digits != 0 then some (.number, digits)
  else
    match cs with
    | [] => none
    | c :: rest =>
      if isQuote c then (textLength? c rest).map fun n => (.text, n + 1)
      else if letters != 0 then some (.word, letters)
      else (symbol? cs).map fun s => (.symbol s, s.spelling.length)

/-- The characters that a text in quotes stands for. -/
def unescape : List Char → List Char
  | '\\' :: c :: rest =>
    (if c == 'n' then '\n' else if c == 't' then '\t' else if c == 'r' then '\r' else c) ::
      unescape rest
  | c :: rest => c :: unescape rest
  | [] => []

/-- The words with a meaning of their own. They are told by their exact letters. -/
def wordLexeme (word : String) : Lexeme :=
  if word == "true" then .bool true
  else if word == "false" then .bool false
  else if word == "null" then .null
  else if word == "undefined" then .undefined
  else if word == "typeof" then .typeof
  else .name word

/-- The number that a piece of text stands for: whole if it is made of digits alone. -/
def numberLexeme (piece : List Char) : Except NumberError Lexeme :=
  let text := String.ofList piece
  if piece.all isDigit then (Numeral.read text).map fun n => .number (.int n)
  else .ok (.number (.float ((Decimal.read? text).getD 0)))

/-- The lexeme of a piece of text. Blanks have none. -/
def lexeme? : Kind → List Char → Except NumberError (Option Lexeme)
  | .blank, _ => .ok none
  | .number, piece => (numberLexeme piece).map some
  | .text, piece => .ok (some (.text (String.ofList (unescape (piece.drop 1).dropLast))))
  | .word, piece => .ok (some (wordLexeme (String.ofList piece)))
  | .symbol s, _ => .ok (some (.symbol s))

/-- A place in the source. -/
structure Place where
  position : Nat := 0
  line : Nat := 1
  column : Nat := 1
deriving Repr, DecidableEq

/-- The place behind one character. -/
def Place.next (p : Place) (c : Char) : Place :=
  if c == '\n' then ⟨p.position + 1, p.line + 1, 1⟩ else ⟨p.position + 1, p.line, p.column + 1⟩

/-- The place behind a piece of text. -/
def Place.after (p : Place) (piece : List Char) : Place :=
  piece.foldl Place.next p

/-- A lexeme as a token at a place. -/
def Place.token (p : Place) (l : Lexeme) : Token :=
  ⟨l, p.position, p.line, p.column⟩

/-- A cause as an error at a place. -/
def Place.error (p : Place) (cause : LexCause) : LexError :=
  ⟨cause, p.position, p.line, p.column⟩

/-- What cutting a source gives: the tokens, and the error that stopped it, if any. Without an error
the last token is the end of the source. -/
structure Scan where
  tokens : List Token
  error : Option LexError

/-- The tokens from a place on. -/
def scanFrom (p : Place) (cs : List Char) : Scan :=
  match cs with
  | [] => ⟨[p.token .eof], none⟩
  | c :: rest =>
    match front? (c :: rest) with
    | none => ⟨[], some (p.error (.unexpected c))⟩
    | some (kind, n) =>
      let piece := c :: rest.take (n - 1)
      match lexeme? kind piece with
      | .error e => ⟨[], some (p.error (.badNumber e))⟩
      | .ok found =>
        let more := scanFrom (p.after piece) (rest.drop (n - 1))
        ⟨(found.map p.token).toList ++ more.tokens, more.error⟩
termination_by cs.length
decreasing_by
  simp only [List.length_drop, List.length_cons]
  omega

/-- Cuts a source into tokens. -/
def scan (source : String) : Scan :=
  scanFrom {} source.toList

/-- The tokens of a source, the end included, or the error. -/
def tokens (source : String) : Except LexError (List Token) :=
  let s := scan source
  match s.error with
  | some e => .error e
  | none => .ok s.tokens

end LiveForm.Formula
