/-!
# What can go wrong in validation

A validator may not be registered, and the maker of one may refuse its arguments.
-/

namespace LiveForm

/-- Names of validators in a row, with commas. -/
def availableText (available : List String) : String :=
  "Available validators: " ++ ", ".intercalate available

/-- Why a validator cannot be found or made. -/
inductive RegistryError where
  | noValidator (name : String) (available : List String)
  | noMaker (name : String) (available : List String)
  /-- The maker refused, with this message. -/
  | refused (message : String)
deriving Repr, DecidableEq

/-- The error in words. -/
def RegistryError.message : RegistryError → String
  | noValidator name available =>
    "Validator '" ++ name ++ "' is not registered. " ++ availableText available
  | noMaker name available =>
    "Validator factory '" ++ name ++ "' is not registered. " ++ availableText available
  | refused message => message

end LiveForm
