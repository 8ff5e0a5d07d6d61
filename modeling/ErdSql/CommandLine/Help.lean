import ErdSql.CommandLine.Request

/-!
# Help texts

What a command does, how it is called, the commands below it and its flags.
-/

namespace ErdSql.CommandLine

namespace Command

/-- What a command does, in one line. -/
def summary : Command → String
  | program => "Compile ERD schema documents to SQL DDL"
  | generate => "Compile the configured schemas and write SQL files"
  | check => "Verify that the SQL files on disk match the schemas"
  | lint => "Report validation and lint findings without writing files"
  | compile => "Compile schema documents to stdout"
  | diff => "Compare two DDL scripts statement by statement"
  | relations => "List the relationships derived from the schemas"
  | watch => "Regenerate SQL whenever a schema, plugin, sidecar or the configuration changes"
  | cache => "Manage the compile cache"
  | clear => "Remove every cached compilation"
  | prune => "Remove cached compilations older than a given age"
  | completion => "Generate the autocompletion script for the specified shell"
  | help => "Help about any command"

/-- What a command does. -/
def description : Command → String
  | program => "erd-catalyst compiles .erd schema documents into deterministic SQL DDL\n" ++
      "for PostgreSQL or SQLite, with validation, linting and drift checks."
  | diff => "diff compares two DDL scripts after normalizing comments, whitespace and\n" ++
      "statement order. It exits with status 1 when they differ."
  | completion => "Generate the autocompletion script for erd-catalyst for the specified shell.\n" ++
      "See each sub-command's help for details on how to use the generated script."
  | help => "Help provides help for any command in the application.\n" ++
      "Simply type erd-catalyst help [path to command] for full details."
  | c => c.summary

/-- The arguments of a command. -/
def argumentNames : Command → String
  | compile => " FILE..."
  | diff => " OLD.sql NEW.sql"
  | help => " [command]"
  | _ => ""

end Command

/-- A text with blanks put behind it until it has `width` characters. -/
def padRight (width : Nat) (s : String) : String :=
  s ++ Text.replicate (width - s.length) ' '

/-- The left column of a flag: its letter, its name and the name of its value. -/
def Flag.column (f : Flag) : String :=
  (match f.letter with
    | some c => "  -" ++ String.singleton c ++ ", --"
    | none => "      --") ++
    f.name ++ (if f.valueName == "" then "" else " " ++ f.valueName)

/-- The lines of flags in order of their names. -/
def flagLines (fs : List Flag) : List String :=
  let fs := fs.mergeSort fun a b => Text.textLE a.name b.name
  let width := (fs.map fun f => f.column.length).foldl max 0 + 3
  fs.map fun f => padRight width f.column ++ f.usage

/-- A part of a help text with its heading; nothing if it has no lines. -/
def helpPart (heading : String) (lines : List String) : String :=
  if lines.isEmpty then "" else "\n\n" ++ heading ++ "\n" ++ Text.join "\n" lines

/-- The lines of the commands below a command in order of their names. -/
def commandLines (c : Command) : List String :=
  let cs := c.children.mergeSort fun a b => Text.textLE a.name b.name
  cs.map fun d => "  " ++ padRight 11 d.name ++ " " ++ d.summary

/-- How a command is called. -/
def usageText (c : Command) : String :=
  let inherited := if c == .program then [] else globalFlags
  let own := c.ownFlags ++ c.builtinFlags ++ (if c == .program then globalFlags else [])
  "Usage:" ++
    (if c.isRunnable then "\n  " ++ c.path ++ c.argumentNames ++ " [flags]" else "") ++
    (if c.children.isEmpty then "" else "\n  " ++ c.path ++ " [command]") ++
    helpPart "Available Commands:" (commandLines c) ++
    helpPart "Flags:" (flagLines own) ++
    helpPart "Global Flags:" (flagLines inherited) ++
    (if c.children.isEmpty then ""
      else "\n\nUse \"" ++ c.path ++ " [command] --help\" for more information about a command.") ++
    "\n"

/-- The help text of a command. -/
def helpText (c : Command) : String :=
  c.description ++ "\n\n" ++ usageText c

/-- The help text of the command that words name. -/
def helpTopic (words : List String) : String :=
  match findCommand words with
  | .ok (c, _) => helpText c
  | .error _ =>
    "Unknown help topic [" ++ Text.join " " (words.map fun w => "\x60" ++ w ++ "\x60") ++ "]\n" ++
      usageText .program

end ErdSql.CommandLine
