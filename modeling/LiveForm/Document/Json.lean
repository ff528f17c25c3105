import LiveForm.Value.Written

/-!
# Values as JSON

Values are written as JSON in ASCII: a character outside of it is written by its code units in
UTF-16. What JSON has no form for is written as a text. A value stands on one line, or spread over
several with two blanks for each level.
-/

namespace LiveForm.Json

/-- A code unit in four digits. -/
def unitText (n : Nat) : List Char :=
  '\\' :: 'u' :: Text.hexDigits 4 n

/-- The code units of a character in UTF-16. -/
def units (n : Nat) : List Nat :=
  if n < 0x10000 then [n] else [0xd800 + (n - 0x10000) / 0x400, 0xdc00 + (n - 0x10000) % 0x400]

/-- A character inside quotes. -/
def escapeChar (c : Char) : List Char :=
  if c == '"' || c == '\\' then ['\\', c]
  else if c == '\n' then ['\\', 'n']
  else if c == '\r' then ['\\', 'r']
  else if c == '\t' then ['\\', 't']
  else if c.toNat == 8 then ['\\', 'b']
  else if c.toNat == 12 then ['\\', 'f']
  else if 0x20 ≤ c.toNat && c.toNat < 0x7f then [c]
  else (units c.toNat).flatMap unitText

/-- A text between quotes. -/
def string (s : String) : String :=
  String.ofList ('"' :: s.toList.flatMap escapeChar ++ ['"'])

/-- A number. What is not finite has a word. -/
def number : Number → Except NumberError String
  | .int n => Numeral.write n
  | .float x =>
    match Binary.shape x with
    | .nan => .ok "NaN"
    | .infinite negative => .ok (if negative then "-Infinity" else "Infinity")
    | .finite _ => .ok (Decimal.write x)

/-- A key, as a text. -/
def key : Key → Except NumberError String
  | .null => .ok (string "null")
  | .bool b => .ok (string (if b then "true" else "false"))
  | .number n => (number n).map string
  | .text s => .ok (string s)

/-- A line break and the blanks of a level, or nothing on one line. -/
def lineBreak : Option Nat → String
  | none => ""
  | some depth => String.ofList ('\n' :: List.replicate (2 * depth) ' ')

/-- Parts between brackets, on one line or one part a line. -/
def enclose (opening closing : String) (depth : Option Nat) (parts : List String) : String :=
  if parts.isEmpty then opening ++ closing
  else
    let inner := lineBreak (depth.map (· + 1))
    let separator := if depth.isSome then "," ++ inner else ", "
    opening ++ inner ++ separator.intercalate parts ++ lineBreak depth ++ closing

mutual

/-- A value as JSON, on one line or from a level on. -/
def write (depth : Option Nat) : Value → Except NumberError String
  | .null => .ok "null"
  | .bool b => .ok (if b then "true" else "false")
  | .number n => number n
  | .text s => .ok (string s)
  | .list items => do
    return enclose "[" "]" depth (← writeItems (depth.map (· + 1)) items)
  | .map entries => do
    return enclose "\x7b" "\x7d" depth (← writeEntries (depth.map (· + 1)) entries)
  | v => v.plain.map string

/-- The items of a list as JSON. -/
def writeItems (depth : Option Nat) : List Value → Except NumberError (List String)
  | [] => .ok []
  | v :: rest => do return (← write depth v) :: (← writeItems depth rest)

/-- The entries of a map as JSON. -/
def writeEntries (depth : Option Nat) : List (Key × Value) → Except NumberError (List String)
  | [] => .ok []
  | (k, v) :: rest => do
    let name ← key k
    let value ← write depth v
    return (name ++ ": " ++ value) :: (← writeEntries depth rest)

end

end LiveForm.Json
