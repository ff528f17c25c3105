import LiveForm.Command.Console
import LiveForm.Form.View
import LiveForm.Session.Basic

/-!
# Commands on forms

A form in a file can be checked, which shows the state of each field, and asked for its graph.
-/

namespace LiveForm

namespace Command

/-- The page on checking. -/
def checkPage : Page where
  path := "formality form check"
  about := "Load FORM_PATH and print every field's resolved state."
  options := [⟨"--values", "FILE", "YAML or JSON file with field values."⟩]
  argument := some "FORM_PATH"

/-- The page on graphs. -/
def graphPage : Page where
  path := "formality form graph"
  about := "Print the target -> subscribers graph of FORM_PATH."
  argument := some "FORM_PATH"

/-- The page on forms. -/
def formPage : Page where
  path := "formality form"
  about := "Form definition commands."
  commands := [("check", checkPage.about), ("graph", graphPage.about)]

/-- A host without code. -/
def bareHost : Host where
  callback _ _ := return .null
  check _ _ _ := return .null
  delays _ := []

/-- Loads a form and gives its fields values at the start. -/
def loadForm (path : String) (valuesPath : Option String) : Command Form := do
  match Loader.loadDocument .standard path (← textOf path) with
  | .error f =>
    if f.isRefusal then throw (.refused ("Invalid form definition: " ++ f.message))
    else throw (.fault f)
  | .ok d =>
    let values ← valuesIn? valuesPath
    let settings ← ofExcept (Settings.ofEnvironment (← get).environment)
    let blank ← ofExcept (Form.blank d .standard settings .null (.map (values.getD [])) none)
    logging fun log =>
      let (r, form, log) := (Form.setUp bareHost).runOn blank log
      (r.map fun _ => form, log)

/-- A value in the words of a sentence. -/
def plain (v : Value) : Command String :=
  ofExcept (Fault.ofNumber v.plain)

/-- The line on a field, and the fields that it depends on. -/
def showField (form : Form) (name : FieldName) : Command Unit := do
  let view ← logging (Form.fieldView bareHost form name)
  let flags := (if view.disabled then ["disabled"] else []) ++
    if view.visible then [] else ["hidden"]
  let suffix := if flags.isEmpty then "" else " [" ++ commaSeparated flags ++ "]"
  print ("  " ++ name.shown ++ " = " ++ (← json view.value none) ++ suffix)
  let targets ← ofExcept (form.subscriptionsFor name)
  if !targets.isEmpty then
    print ("    subscribes to: " ++ commaSeparated (targets.map FieldName.shown))

/-- Checks a form and shows its fields. -/
def checkForm (words : List String) : Command Unit := do
  let given ← readWords checkPage words
  let path ← existing (← argument given)
  let valuesPath ← existing? (given.last? "--values")
  let form ← loadForm path valuesPath
  let title ← logging (Form.title bareHost form)
  let name ← plain form.definition.name
  let shownTitle ← plain title
  print ("Form '" ++ name ++ "'" ++ if title.isSet then ": " ++ shownTitle else "")
  form.fieldNames.forM (showField form)
  print "\nForm definition is valid."

/-- Prints the graph of a form. -/
def showGraph (words : List String) : Command Unit := do
  let given ← readWords graphPage words
  let path ← existing (← argument given)
  let form ← loadForm path none
  if form.graph.edges.isEmpty then print "No subscriptions."
  else
    form.graph.edges.forM fun (target, subscribers) =>
      print (target.shown ++ " -> " ++ commaSeparated (subscribers.map FieldName.shown))

/-- Runs a command on forms. -/
def onForm (words : List String) : Command Unit := do
  let (name, words) ← further (← readWords formPage words)
  match name with
  | "check" => checkForm words
  | "graph" => showGraph words
  | _ => throw .usage

end Command

end LiveForm
