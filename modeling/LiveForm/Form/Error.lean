/-!
# What can be wrong with a form

A form is refused for what its definition says, for a name that it does not define, or for the
document it comes from.
-/

namespace LiveForm

/-- Why a form, or a part of it, is refused. -/
inductive FormError where
  | conditionNotMapping (kind : String)
  | unknownConditionKeys (keys : List String)
  | badWhen (kind : String)
  /-- A condition of this part of the form is at fault. -/
  | badCondition (part cause : String)
  | conditionsNotList (part : String)
  | namesNotList (part : String)
  | notMapping
  | fieldsNotMapping
  | unknownGroup (field group : String)
  | unknownParent (group parent : String)
  | cyclicParents (group : String)
  | unknownValidator (form validator : String) (available : List String)
  | noField (form field : String)
  | unreadable (path : String)
  | emptyDocument (path : String)
deriving Repr, DecidableEq

/-- Names in a row, with commas. -/
def commaSeparated (names : List String) : String :=
  ", ".intercalate names

/-- The error in words. -/
def FormError.message : FormError → String
  | conditionNotMapping kind => "Condition must be a mapping, got " ++ kind
  | unknownConditionKeys keys => "Unknown condition keys: " ++ commaSeparated keys
  | badWhen kind => "Condition 'when' must be a field name or a mapping, got " ++ kind
  | badCondition part cause => part ++ ": " ++ cause
  | conditionsNotList part => part ++ " conditions must be a list"
  | namesNotList part => part ++ " must be a name or a list of names"
  | notMapping => "Form definition must be a mapping"
  | fieldsNotMapping => "Form 'fields' must be a mapping of field name to config"
  | unknownGroup field group => "Field '" ++ field ++ "' refers to unknown group '" ++ group ++ "'"
  | unknownParent group parent =>
    "Group '" ++ group ++ "' refers to unknown parent '" ++ parent ++ "'"
  | cyclicParents group => "Group '" ++ group ++ "' has a cyclic parent chain"
  | unknownValidator form validator available =>
    "Form '" ++ form ++ "' uses unknown validator '" ++ validator ++ "'. " ++
      "Available validators: " ++ commaSeparated available
  | noField form field => "Form '" ++ form ++ "' has no field '" ++ field ++ "'"
  | unreadable path => "Invalid YAML in " ++ path
  | emptyDocument path => "Form file " ++ path ++ " is empty"

end LiveForm
