import LiveForm.Document.Reader
import LiveForm.Files
import LiveForm.Form.Definition
import LiveForm.Validation.Builtin

/-!
# Loading forms

A form is loaded from a value or from a document. Beside the checks of its definition, the makers of
validators that it names must be registered. A form without a name takes the one of its document.
-/

namespace LiveForm

namespace Loader

mutual

/-- The names of the makers that a specification of validators calls for. -/
def makerNames : Value → Except Fault (List String)
  | .map entries => keyNames entries
  | .list items => itemNames items
  | _ => .ok []

/-- The names of the makers that several specifications call for. -/
def itemNames : List Value → Except Fault (List String)
  | [] => .ok []
  | v :: rest => do
    let first ← makerNames v
    return first ++ (← itemNames rest)

/-- The keys of a map, as names. -/
def keyNames : List (Key × Value) → Except Fault (List String)
  | [] => .ok []
  | (k, _) :: rest => do
    let first ← Fault.ofNumber k.plain
    return first :: (← keyNames rest)

end

/-- Checks that the makers that a form names are registered. -/
def checkValidators (r : Registry) (d : Definition) : Except Fault Unit :=
  let specs := d.fields.map (fun e => e.2.validator) ++ d.inputs.map fun e => e.2.validator
  specs.forM fun spec => do
    (← makerNames spec).forM fun name =>
      if r.knows name then .ok ()
      else do throw (.form (.unknownValidator (← Fault.ofNumber d.name.plain) name r.names))

/-- Loads a form from a value. -/
def load (r : Registry) (v : Value) : Except Fault Definition := do
  let d ← Definition.ofValue v
  checkValidators r d
  return d

/-! ### Documents -/

/-- A form's value with a name. -/
def withName (path : String) : Value → Value
  | .map es =>
    if Table.has (.text "form") es || Table.has (.text "name") es then .map es
    else .map (Table.put (.text "form") (.text (Files.stem path)) es)
  | v => v

/-- Loads a form from the text of a document. -/
def loadDocument (r : Registry) (path text : String) : Except Fault Definition :=
  match Document.read text with
  | .error .malformed => .error (.form (.unreadable path))
  | .error (.number e) => .error (.number e)
  | .ok v => if v.isSet then load r (withName path v) else .error (.form (.emptyDocument path))

/-- Loads a form from a file. -/
def loadFile (r : Registry) (files : Files) (path : String) : Except Fault Definition := do
  let path := Files.tidyPath path
  let text ← (files.read path).mapError Fault.file
  loadDocument r path text

/-- The document holds a form, by its ending. -/
def holdsForm (name : String) : Bool :=
  name.endsWith ".yaml" || name.endsWith ".yml"

/-- The paths of the forms in a directory. -/
def formPaths (files : Files) (dir : String) : List String :=
  let dir := Files.tidyPath dir
  ((files.namesIn dir).filter holdsForm).map fun name => Files.below dir ++ name

/-- Loads files in a row, up to the first that is refused. A name that comes again stands for the
later form, in the place of the earlier one. -/
def loadPaths (r : Registry) (files : Files) (loaded : Table Key Definition) :
    List String → Except Fault Unit × Table Key Definition
  | [] => (.ok (), loaded)
  | path :: rest =>
    match loadFile r files path with
    | .error f => (.error f, loaded)
    | .ok d =>
      match d.name.asKey with
      | .error e => (.error (.shape e), loaded)
      | .ok name =>
        loadPaths r files ((name.map fun k => Table.put k d loaded).getD loaded) rest

/-- Loads all forms of a directory, in the order of their paths. -/
def loadAll (r : Registry) (files : Files) (dir : Option String) :
    Except Fault Unit × Table Key Definition :=
  match dir with
  | none => (.ok (), [])
  | some dir => loadPaths r files [] (formPaths files dir)

end Loader

end LiveForm
