import LiveForm.Command.Console
import LiveForm.Formula.Eval
import LiveForm.Formula.Reads

/-!
# Commands on formulas

Formulas can be evaluated against given values, asked for the fields that they read, and shown as
trees.
-/

namespace LiveForm.Command

/-- The page on evaluating. -/
def evalPage : Page where
  path := "formality expr eval"
  about := "Evaluate EXPRESSION and print the result as JSON."
  options :=
    [⟨"--values", "FILE", "YAML or JSON file with field values."⟩,
      ⟨"--set", "TEXT", "Field value as name=value (repeatable)."⟩,
      ⟨"--record", "FILE", "YAML or JSON file exposed as 'record'."⟩]
  argument := some "EXPRESSION"

/-- The page on what a formula reads. -/
def inferPage : Page where
  path := "formality expr infer"
  about := "Print the field names EXPRESSION depends on."
  argument := some "EXPRESSION"

/-- The page on trees. -/
def treePage : Page where
  path := "formality expr ast"
  about := "Print the parsed tree of EXPRESSION."
  argument := some "EXPRESSION"

/-- The page on formulas. -/
def formulaPage : Page where
  path := "formality expr"
  about := "Expression commands."
  commands := [("ast", treePage.about), ("eval", evalPage.about), ("infer", inferPage.about)]

/-- Evaluates a formula and prints the result. -/
def evalFormula (words : List String) : Command Unit := do
  let given ← readWords evalPage words
  let source ← argument given
  let valuesPath ← existing? (given.last? "--values")
  let recordPath ← existing? (given.last? "--record")
  let fileValues ← valuesIn? valuesPath
  let values ← assign (fileValues.getD []) (given.all "--set")
  let record ← valuesIn? recordPath
  let result ← logging (Formula.evaluate source (Context.build values (record.getD []) [] [] []))
  print (← json result none)

/-- Prints the fields that a formula reads. -/
def inferFormula (words : List String) : Command Unit := do
  let given ← readWords inferPage words
  (Formula.reads (← argument given)).forM print

/-- Prints a formula as a tree. -/
def showTree (words : List String) : Command Unit := do
  let given ← readWords treePage words
  match Formula.parse (← argument given) with
  | .ok e => print (← json e.outline (some 0))
  | .error (.lex e) => throw (.refused ("Syntax error: " ++ e.message))
  | .error (.parse e) => throw (.refused ("Syntax error: " ++ e.message))

/-- Runs a command on formulas. -/
def onFormula (words : List String) : Command Unit := do
  let (name, words) ← further (← readWords formulaPage words)
  match name with
  | "eval" => evalFormula words
  | "infer" => inferFormula words
  | "ast" => showTree words
  | _ => throw .usage

end LiveForm.Command
