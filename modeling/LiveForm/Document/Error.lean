import LiveForm.Number.Error

/-!
# Documents that cannot be read

A document may not be well formed, or hold a number that is too long to be read.
-/

namespace LiveForm

/-- Why a document cannot be read. -/
inductive DocumentError where
  | malformed
  | number (e : NumberError)
deriving Repr, DecidableEq

end LiveForm
