import LiveForm.Formula.Token

/-!
# The syntax of formulas

A formula is a tree of literals, names, accesses, operators, conditionals, array literals, calls and
sequences. Trees can also be made by hand, so an operator outside the language has a place in them,
and so has a node of no known kind; both are refused when the tree is evaluated.
-/

namespace LiveForm

/-- Operators on two values. -/
inductive BinaryOp where
  | strictEq | strictNe | eq | ne
  | lt | le | gt | ge
  | add | sub | mul | div | mod
  /-- An operator outside the language. -/
  | other (spelling : String)
deriving Repr, DecidableEq

/-- Operators that may leave their right side alone. -/
inductive LogicalOp where
  | and | or | coalesce
  /-- An operator outside the language. -/
  | other (spelling : String)
deriving Repr, DecidableEq

/-- Operators in front of a value. -/
inductive UnaryOp where
  | not | neg | pos | typeof
  /-- An operator outside the language. -/
  | other (spelling : String)
deriving Repr, DecidableEq

/-- A formula. -/
inductive Expr where
  | literal (value : Value)
  | name (name : String)
  | member (object : Expr) (member : String)
  | index (object : Expr) (index : Expr)
  | binary (op : BinaryOp) (left right : Expr)
  | logical (op : LogicalOp) (left right : Expr)
  | unary (op : UnaryOp) (operand : Expr)
  | conditional (test consequent alternate : Expr)
  | call (callee : Expr) (arguments : List Expr)
  /-- An array; a hole is an element left out. -/
  | array (elements : List (Option Expr))
  | sequence (body : List Expr)
  /-- A node of no known kind, under the name of its kind. -/
  | foreign (kind : String)

instance : Inhabited Expr := ⟨.literal .null⟩

/-- The spelling of an operator. -/
def BinaryOp.spelling : BinaryOp → String
  | strictEq => "===" | strictNe => "!==" | eq => "==" | ne => "!="
  | lt => "<" | le => "<=" | gt => ">" | ge => ">="
  | add => "+" | sub => "-" | mul => "*" | div => "/" | mod => "%"
  | other s => s

/-- The operator of a spelling. -/
def BinaryOp.ofSpelling : String → BinaryOp
  | "===" => strictEq | "!==" => strictNe | "==" => eq | "!=" => ne
  | "<" => lt | "<=" => le | ">" => gt | ">=" => ge
  | "+" => add | "-" => sub | "*" => mul | "/" => div | "%" => mod
  | s => other s

/-- The spelling of an operator. -/
def LogicalOp.spelling : LogicalOp → String
  | and => "&&" | or => "||" | coalesce => "??"
  | other s => s

/-- The operator of a spelling. -/
def LogicalOp.ofSpelling : String → LogicalOp
  | "&&" => and | "||" => or | "??" => coalesce
  | s => other s

/-- The spelling of an operator. -/
def UnaryOp.spelling : UnaryOp → String
  | not => "!" | neg => "-" | pos => "+" | typeof => "typeof"
  | other s => s

/-- The operator of a spelling. -/
def UnaryOp.ofSpelling : String → UnaryOp
  | "!" => not | "-" => neg | "+" => pos | "typeof" => typeof
  | s => other s

namespace Expr

/-- A node of an outline: its kind and its parts. -/
def outlineNode (kind : String) (parts : List (String × Value)) : Value :=
  .ofNames (("type", .text kind) :: parts)

mutual

/-- The outline of a formula: the tree as maps and lists, one map a node. -/
def outline : Expr → Value
  | .literal value => outlineNode "Literal" [("value", value)]
  | .name n => outlineNode "Identifier" [("name", .text n)]
  | .member object m =>
    outlineNode "MemberAccess" [("object", object.outline), ("member", .text m)]
  | .index object i =>
    outlineNode "IndexAccess" [("object", object.outline), ("index", i.outline)]
  | .binary op left right =>
    outlineNode "BinaryOp"
      [("operator", .text op.spelling), ("left", left.outline), ("right", right.outline)]
  | .logical op left right =>
    outlineNode "LogicalOp"
      [("operator", .text op.spelling), ("left", left.outline), ("right", right.outline)]
  | .unary op operand =>
    outlineNode "UnaryOp" [("operator", .text op.spelling), ("operand", operand.outline)]
  | .conditional test consequent alternate =>
    outlineNode "Conditional"
      [("test", test.outline), ("consequent", consequent.outline),
        ("alternate", alternate.outline)]
  | .call callee arguments =>
    outlineNode "FunctionCall"
      [("callee", callee.outline), ("arguments", .list (outlineAll arguments))]
  | .array elements => outlineNode "ArrayLiteral" [("elements", .list (outlineElements elements))]
  | .sequence body => outlineNode "Compound" [("body", .list (outlineAll body))]
  | .foreign kind => outlineNode kind []

/-- The outlines of a list of formulas. -/
def outlineAll : List Expr → List Value
  | [] => []
  | e :: rest => e.outline :: outlineAll rest

/-- The outlines of the elements of an array, nothing for a hole. -/
def outlineElements : List (Option Expr) → List Value
  | [] => []
  | none :: rest => .null :: outlineElements rest
  | some e :: rest => e.outline :: outlineElements rest

end

end Expr

end LiveForm
