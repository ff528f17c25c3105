import LiveForm.Formula.Context
import LiveForm.Logged
import LiveForm.Value.Compare

/-!
# Evaluating formulas

A formula is evaluated against a context. Every operator looks through the wrapping of a field; only
a result that no operator touched may still be wrapped. The public `evaluate` reads and evaluates a
source, logs what goes wrong and then answers with nothing.
-/

namespace LiveForm

namespace Formula

/-- Fails with an error of evaluation. -/
def failEval (e : EvalError) : Except Fault α :=
  .error (.eval e)

/-- The number that a value stands for in arithmetic. -/
def toNumber (v : Value) : Except Fault Number :=
  let refused : Except Fault Number := do
    failEval (.notNumeric v.kindName (← Fault.ofNumber v.written))
  match v with
  | .bool b => .ok (.int (if b then 1 else 0))
  | .number n => .ok n
  | .text s =>
    match Number.read? s with
    | some n => .ok n
    | none => refused
  | _ => refused

mutual

/-- The text that a value adds to another text. -/
def joinText : Value → Except NumberError String
  | .null => .ok "null"
  | .bool b => .ok (if b then "true" else "false")
  | .number (.float x) =>
    match Binary.toInt? x with
    | some n => Numeral.write n
    | none => .ok (Decimal.write x)
  | .list items => do return ",".intercalate (← joinTexts items)
  | v => v.plain

/-- The texts of the items of a list. Nothing gives the empty text. -/
def joinTexts : List Value → Except NumberError (List String)
  | [] => .ok []
  | .null :: rest => do return "" :: (← joinTexts rest)
  | v :: rest => do return (← joinText v) :: (← joinTexts rest)

end

/-- Arithmetic on two values. Nothing on either side gives nothing. -/
def arithmetic (op : Number → Number → Except Fault Number) (l r : Value) : Except Fault Value :=
  match l, r with
  | .null, _ => .ok .null
  | _, .null => .ok .null
  | l, r =>
    match (do op (← toNumber l) (← toNumber r) : Except Fault Number) with
    | .error (.number e) => failEval (.arithmetic e)
    | .error e => .error e
    | .ok n => .ok (.number n)

/-- A sum, or two texts joined if either side is a text. -/
def plus (l r : Value) : Except Fault Value :=
  match l, r with
  | .text _, _ | _, .text _ =>
    match (do return (← joinText l) ++ (← joinText r) : Except NumberError String) with
    | .ok s => .ok (.text s)
    | .error e => failEval (.concatenation e)
  | l, r => arithmetic (fun a b => Fault.ofNumber (a.add b)) l r

/-- A quotient. -/
def divide (a b : Number) : Except Fault Number :=
  if b.isZero then failEval .divisionByZero else Fault.ofNumber (a.div b)

/-- A remainder. -/
def modulo (a b : Number) : Except Fault Number :=
  if b.isZero then failEval .moduloByZero else Fault.ofNumber (a.mod b)

/-- The four orders. -/
inductive Relation where
  | lt | le | gt | ge
deriving Repr, DecidableEq

/-- The relation, read off an order. -/
def Relation.holds : Relation → Ordering → Bool
  | lt, o => o == .lt
  | le, o => o != .gt
  | gt, o => o == .gt
  | ge, o => o != .lt

/-- The number that one side of a comparison stands for: a text is read when the other side is a
number. The outer option is none if the value has no place in a comparison of numbers. -/
def comparand? (v other : Value) : Option (Option Number) :=
  match v with
  | .text s => if other.count?.isSome then some (Number.read? s) else none
  | v => v.count?.map some

/-- Compares two values. Nothing, and a text that is no number, stand in no relation. -/
def compare (rel : Relation) (l r : Value) : Except Fault Value :=
  match l, r with
  | .null, _ => .ok (.bool false)
  | _, .null => .ok (.bool false)
  | .text s, .text t => .ok (.bool (rel.holds (compareOfLessAndEq s t)))
  | l, r =>
    match comparand? l r, comparand? r l with
    | some (some m), some (some n) => .ok (.bool ((m.compare? n).any rel.holds))
    | some _, some _ => .ok (.bool false)
    | _, _ => failEval (.incomparable l.kindName r.kindName)

/-- An operator on two bare values. -/
def binaryOp : BinaryOp → Value → Value → Except Fault Value
  | .strictEq, l, r => .ok (.bool (l.strictEq r))
  | .strictNe, l, r => .ok (.bool !(l.strictEq r))
  | .eq, l, r => .ok (.bool (l.looseEq r))
  | .ne, l, r => .ok (.bool !(l.looseEq r))
  | .lt, l, r => compare .lt l r
  | .le, l, r => compare .le l r
  | .gt, l, r => compare .gt l r
  | .ge, l, r => compare .ge l r
  | .add, l, r => plus l r
  | .sub, l, r => arithmetic (fun a b => Fault.ofNumber (a.sub b)) l r
  | .mul, l, r => arithmetic (fun a b => Fault.ofNumber (a.mul b)) l r
  | .div, l, r => arithmetic divide l r
  | .mod, l, r => arithmetic modulo l r
  | .other s, _, _ => failEval (.unknownBinary s)

/-- A sign in front of a bare value. Nothing keeps being nothing. -/
def signed (op : Number → Number) : Value → Except Fault Value
  | .null => .ok .null
  | v => (toNumber v).map fun n => .number (op n)

/-- An operator in front of a bare value. -/
def unaryOp : UnaryOp → Value → Except Fault Value
  | .not, v => .ok (.bool !v.truthy)
  | .typeof, v => .ok (.text v.typeOf)
  | .neg, v => signed Number.neg v
  | .pos, v => signed id v
  | .other s, _ => failEval (.unknownUnary s)

/-- Whether the left side of a logical operator, bare, decides alone. -/
def decides? : LogicalOp → Value → Except Fault Bool
  | .and, l => .ok !l.truthy
  | .or, l => .ok l.truthy
  | .coalesce, l => .ok !l.isNull
  | .other s, _ => failEval (.unknownLogical s)

mutual

/-- The value of a formula. -/
def eval (ctx : Context) : Expr → Except Fault Value
  | .literal v => .ok v
  | .name n => .ok (Entries.at0 ctx n)
  | .member object name => do
    Fault.ofNumber ((← eval ctx object).property (.text name))
  | .index object index => do
    let o ← eval ctx object
    let key ← eval ctx index
    Fault.ofNumber (o.property key.bare)
  | .logical op left right => do
    let l := (← eval ctx left).bare
    if ← decides? op l then return l else return (← eval ctx right).bare
  | .binary op left right => do
    let l := (← eval ctx left).bare
    let r := (← eval ctx right).bare
    binaryOp op l r
  | .unary op operand => do unaryOp op (← eval ctx operand).bare
  | .conditional test consequent alternate => do
    if (← eval ctx test).truthy then eval ctx consequent else eval ctx alternate
  | .array elements => do return .list (← evalElements ctx elements)
  | .sequence body => evalSequence ctx .null body
  | .call _ _ => failEval .call
  | .foreign kind => failEval (.unknownNode kind)

/-- The bare values of the elements of an array, nothing for a hole. -/
def evalElements (ctx : Context) : List (Option Expr) → Except Fault (List Value)
  | [] => .ok []
  | none :: rest => do return .null :: (← evalElements ctx rest)
  | some e :: rest => do
    let v := (← eval ctx e).bare
    return v :: (← evalElements ctx rest)

/-- The value of the last formula of a row. -/
def evalSequence (ctx : Context) (last : Value) : List Expr → Except Fault Value
  | [] => .ok last
  | e :: rest => do evalSequence ctx (← eval ctx e) rest

end

/-- An operator between two formulas works on their values, without wrappings. -/
theorem eval_binary {ctx : Context} {op : BinaryOp} {e₁ e₂ : Expr} {v₁ v₂ : Value}
    (h₁ : eval ctx e₁ = .ok v₁) (h₂ : eval ctx e₂ = .ok v₂) :
    eval ctx (.binary op e₁ e₂) = binaryOp op v₁.bare v₂.bare := by
  rw [eval, h₁, h₂]
  rfl

/-- An operator in front of a formula works on its value, without wrappings. -/
theorem eval_unary {ctx : Context} {op : UnaryOp} {e : Expr} {v : Value}
    (h : eval ctx e = .ok v) : eval ctx (.unary op e) = unaryOp op v.bare := by
  rw [eval, h]
  rfl

/-- Evaluates a source that has been read, or not. Errors of reading and of evaluation are logged,
and the answer is then nothing. -/
def answer (source : String) (tree : Except SyntaxError Expr) (ctx : Context) : Logged Value :=
  let refused (message : String) : Logged Value := do
    Logged.warn ("Expression evaluation error for " ++ Text.quoted source ++ ": " ++ message)
    return .null
  match tree with
  | .error e => refused e.message
  | .ok e =>
    match eval ctx e with
    | .ok v => return v.stripped
    | .error (.eval e) => refused e.message
    | .error fault => throw fault

/-- Reads a source and evaluates it. -/
def evaluate (source : String) (ctx : Context) : Logged Value :=
  answer source (parse source) ctx

mutual

/-- Evaluates every text of a value that describes one. Code is left for the host to run. -/
def evaluateDescriptor (ctx : Context) : Value → Logged Value
  | .text source => evaluate source ctx
  | .list items => do return .list (← evaluateItems ctx items)
  | .map entries => do return .map (← evaluateEntries ctx entries)
  | v => return v

/-- Evaluates the items of a list. -/
def evaluateItems (ctx : Context) : List Value → Logged (List Value)
  | [] => return []
  | v :: rest => do
    let first ← evaluateDescriptor ctx v
    return first :: (← evaluateItems ctx rest)

/-- Evaluates the values of a map. -/
def evaluateEntries (ctx : Context) : List (Key × Value) → Logged (List (Key × Value))
  | [] => return []
  | (k, v) :: rest => do
    let first ← evaluateDescriptor ctx v
    return (k, first) :: (← evaluateEntries ctx rest)

end

end Formula

end LiveForm
