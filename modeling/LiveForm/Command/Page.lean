/-!
# Pages

A page says what a command takes: options, each followed by a value, and at most one argument, or
the name of a further command. It is what the words behind a command are read by, and it is shown
when help is asked for.
-/

namespace LiveForm

/-- An option of a command. -/
structure Choice where
  /-- The option as it is written, with its dashes. -/
  name : String
  /-- What kind of value follows. -/
  kind : String
  about : String

/-- What a command takes. -/
structure Page where
  /-- The words that call the command. -/
  path : String
  about : String
  options : List Choice := []
  argument : Option String := none
  /-- The further commands, with what they do. -/
  commands : List (String × String) := []

/-- What a command was given. -/
structure Given where
  /-- Options with their values, in order. -/
  options : List (String × String) := []
  arguments : List String := []
  /-- Help was asked for. -/
  help : Bool := false

namespace Given

/-- The values of an option. -/
def all (g : Given) (name : String) : List String :=
  (g.options.filter fun o => o.1 == name).map Prod.snd

/-- The value of an option that counts once: the last one that was given. -/
def last? (g : Given) (name : String) : Option String :=
  (g.all name).getLast?

end Given

/-- The option that asks for help. -/
def helpOption : String := "--help"

/-- Splits a text at the first equals sign. -/
def splitAtEquals (s : String) : String × Option String :=
  let name := s.toList.takeWhile (· != '=')
  if name.length == s.length then (s, none)
  else (String.ofList name, some (String.ofList (s.toList.drop (name.length + 1))))

namespace Page

/-- A command that leads to further commands. -/
def isGroup (p : Page) : Bool :=
  !p.commands.isEmpty

/-- The command has this option. -/
def takes (p : Page) (name : String) : Bool :=
  p.options.any fun o => o.name == name

/-- Reads the words behind a command. Behind two dashes, and behind the name of a further command,
all words are arguments. Nothing comes out if the words do not fit the command's options. -/
def readFrom (p : Page) (given : Given) (words : List String) : Option Given :=
  match words with
  | [] => some given
  | word :: rest =>
    if word == "--" then some { given with arguments := given.arguments ++ rest }
    else if word.startsWith "-" && word.length > 1 then
      match splitAtEquals word, rest with
      | (name, some v), rest =>
        if p.takes name then readFrom p { given with options := given.options ++ [(name, v)] } rest
        else none
      | (name, none), rest =>
        if name == helpOption then readFrom p { given with help := true } rest
        else if p.takes name then
          match rest with
          | [] => none
          | v :: rest => readFrom p { given with options := given.options ++ [(name, v)] } rest
        else none
    else if p.isGroup then some { given with arguments := given.arguments ++ word :: rest }
    else readFrom p { given with arguments := given.arguments ++ [word] } rest
termination_by words.length

/-- Reads the words behind a command. -/
def read (p : Page) (words : List String) : Option Given :=
  p.readFrom {} words

/-! ### Help -/

/-- Rows of two columns. -/
def table (rows : List (String × String)) : String :=
  let width := (rows.map fun r => r.1.length).foldl max 0
  String.join (rows.map fun r =>
    "  " ++ r.1 ++ String.ofList (List.replicate (width + 2 - r.1.length) ' ') ++ r.2 ++ "\n")

/-- What may follow the options, in the line on usage. -/
def tail (p : Page) : String :=
  if p.isGroup then " COMMAND [ARGS]..."
  else (p.argument.map fun a => " " ++ a).getD ""

/-- The page as it is shown. -/
def help (p : Page) : String :=
  let options := p.options.map (fun o => (o.name ++ " " ++ o.kind, o.about)) ++
    [(helpOption, "Show this message and exit.")]
  "Usage: " ++ p.path ++ " [OPTIONS]" ++ p.tail ++ "\n\n  " ++ p.about ++ "\n\nOptions:\n" ++
    table options ++ if p.isGroup then "\nCommands:\n" ++ table p.commands else ""

end Page

end LiveForm
