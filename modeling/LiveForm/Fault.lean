import LiveForm.Files
import LiveForm.Formula.Error
import LiveForm.Formula.Parser
import LiveForm.Form.Error
import LiveForm.Pattern.Error
import LiveForm.Validation.Error
import LiveForm.Value.Shape

/-!
# Faults

Everything that can make an operation fail, by cause. A fault knows its message; who reports it
decides what the causes are called.
-/

namespace LiveForm

/-- Why an operation failed. -/
inductive Fault where
  | lex (e : LexError)
  | parse (e : ParseError)
  | eval (e : EvalError)
  | number (e : NumberError)
  | shape (e : ShapeError)
  | form (e : FormError)
  | registry (e : RegistryError)
  | pattern (e : PatternError)
  | file (e : FileError)
  /-- A setting of the environment that is no whole number, shown. -/
  | setting (name shown : String)
  /-- No group of this name, shown. -/
  | noGroup (shown : String)
  /-- Code of the host failed, with this message. -/
  | host (message : String)
  /-- Something had to be scheduled, and no loop was running. -/
  | noLoop

/-- The fault in words. -/
def Fault.message : Fault → String
  | lex e => e.message
  | parse e => e.message
  | eval e => e.message
  | number e => e.message
  | shape e => e.message
  | form e => e.message
  | registry e => e.message
  | pattern e => e.message
  | file e => e.message
  | setting name shown => name ++ " must be an integer, got " ++ shown
  | noGroup shown => shown
  | host message => message
  | noLoop => "no running event loop"

/-- The fault lies in what a value says. -/
def Fault.isRefusal : Fault → Bool
  | lex _ => false
  | parse _ => false
  | eval _ => false
  | number .tooLarge => false
  | number .quotientTooLarge => false
  | number _ => true
  | shape (.pairLength _ _) => true
  | shape _ => false
  | form _ => true
  | registry _ => true
  | pattern _ => false
  | file _ => false
  | setting _ _ => true
  | noGroup _ => false
  | host _ => false
  | noLoop => false

/-- The fault lies in what kind of value a value is, or in what it says. -/
def Fault.isUnfit : Fault → Bool
  | shape (.noMember _ _) => false
  | shape .outOfRange => false
  | shape _ => true
  | f => f.isRefusal

/-- A number's error as a fault. -/
def Fault.ofNumber (r : Except NumberError α) : Except Fault α :=
  r.mapError Fault.number

/-- A shape's error as a fault. -/
def Fault.ofShape (r : Except ShapeError α) : Except Fault α :=
  r.mapError Fault.shape

end LiveForm
