import LiveForm.Number.Error

/-!
# What can go wrong in a formula

A formula of the right form can still fail when it is evaluated: at a value that is no number, at
values that have no order, at a division by zero, at a number out of bounds, and at what formulas
may not do.
-/

namespace LiveForm

/-- Why a formula cannot be evaluated. -/
inductive EvalError where
  /-- A value of this kind, shown, where a number is wanted. -/
  | notNumeric (kind shown : String)
  /-- Values of these kinds have no order. -/
  | incomparable (left right : String)
  | divisionByZero
  | moduloByZero
  | arithmetic (cause : NumberError)
  | concatenation (cause : NumberError)
  | call
  | unknownNode (kind : String)
  | unknownLogical (spelling : String)
  | unknownBinary (spelling : String)
  | unknownUnary (spelling : String)
deriving Repr, DecidableEq

/-- The error in words. -/
def EvalError.message : EvalError → String
  | notNumeric kind shown => "Cannot convert " ++ kind ++ " " ++ shown ++ " to a number"
  | incomparable left right => "Cannot compare " ++ left ++ " and " ++ right
  | divisionByZero => "Division by zero"
  | moduloByZero => "Modulo by zero"
  | arithmetic cause => "Arithmetic error: " ++ cause.message
  | concatenation cause => "Cannot concatenate: " ++ cause.message
  | call => "Function calls are not allowed in expressions"
  | unknownNode kind => "Unknown node type: " ++ kind
  | unknownLogical spelling => "Unknown logical operator: " ++ spelling
  | unknownBinary spelling => "Unknown operator: " ++ spelling
  | unknownUnary spelling => "Unknown unary operator: " ++ spelling

end LiveForm
