import LiveForm.Text.Quoted
import LiveForm.Value.Names
import LiveForm.Value.Table

/-!
# Files and their paths

Files are texts under paths. A path is taken without the parts that lead nowhere; where other paths
go on below it, it is a directory. A part of two points leads back out of a directory.
-/

namespace LiveForm

/-- Files by path. -/
abbrev Files := Table String String

/-- Why a file cannot be read. -/
inductive FileError where
  | missing (path : String)
  | directory (path : String)
  /-- The path goes on below a file. -/
  | notDirectory (path : String)
deriving Repr, DecidableEq

/-- The error in words. -/
def FileError.message : FileError → String
  | missing path => "[Errno 2] No such file or directory: " ++ Text.quoted path
  | directory path => "[Errno 21] Is a directory: " ++ Text.quoted path
  | notDirectory path => "[Errno 20] Not a directory: " ++ Text.quoted path

namespace Files

/-! ### Paths -/

/-- The parts of a path that lead somewhere. -/
def pathParts (path : String) : List String :=
  (path.splitOn "/").filter fun part => !(part.isEmpty || part == ".")

/-- A path without parts that lead nowhere. Where nothing is left, a point stands. -/
def tidyPath (path : String) : String :=
  let parts := "/".intercalate (pathParts path)
  if path.startsWith "/" then "/" ++ parts else if parts.isEmpty then "." else parts

/-- The last part of a path. -/
def fileName (path : String) : List Char :=
  (path.toList.reverse.takeWhile (· != '/')).reverse

/-- The ending of a file's name is what follows its last point, unless the point comes first or
last. -/
def splitEnding (name : List Char) : List Char × List Char :=
  let ending := (name.reverse.takeWhile (· != '.')).reverse
  let stem := name.take (name.length - ending.length - 1)
  if ending.length == name.length || stem.isEmpty || ending.isEmpty then (name, [])
  else (stem, ending)

/-- The name of a file without its ending. -/
def stem (path : String) : String :=
  String.ofList (splitEnding (fileName path)).1

/-! ### Looking up -/

/-- What the paths below a directory begin with. The path of the directory is tidy. -/
def below (dir : String) : String :=
  if dir == "." then "" else if dir == "/" then dir else dir ++ "/"

/-- The paths below a directory, as they go on from it. -/
def within (files : Files) (dir : String) : List String :=
  (Table.keys files).filterMap fun path =>
    if path.startsWith (below dir) then some (String.ofList (path.toList.drop (below dir).length))
    else none

/-- A directory has this tidy path. -/
def isDirectory (files : Files) (path : String) : Bool :=
  path == "." || !(within files path).isEmpty

/-- Goes from a directory along the parts of a path. Every part but the last must lead to a
directory; nothing is known of what lies outside. -/
def walk (files : Files) (shown : String) (done : List String) :
    List String → Except FileError (List String)
  | [] => .ok done
  | part :: rest =>
    let here := if done.isEmpty then "." else "/".intercalate done
    if Table.has here files then .error (.notDirectory shown)
    else if !isDirectory files here then .error (.missing shown)
    else if part != ".." then walk files shown (done ++ [part]) rest
    else if done.isEmpty then .error (.missing shown)
    else walk files shown done.dropLast rest

/-- The tidy path without parts that lead back. -/
def resolve (files : Files) (path : String) : Except FileError String := do
  if Table.has path files || path.startsWith "/" then return path
  let parts ← walk files path [] (pathParts path)
  return if parts.isEmpty then "." else "/".intercalate parts

/-- The text of the file of a tidy path. -/
def read (files : Files) (path : String) : Except FileError String := do
  let place ← resolve files path
  match Table.get? place files with
  | some text => return text
  | none => throw (if isDirectory files place then .directory path else .missing path)

/-- The names of what is just inside the directory of a tidy path, in ascending order. There are
none if it is no directory. -/
def namesIn (files : Files) (path : String) : List String :=
  match resolve files path with
  | .error _ => []
  | .ok place =>
    Names.sorted (Names.ofList ((within files place).map fun path =>
      String.ofList (path.toList.takeWhile (· != '/'))))

end Files

end LiveForm
