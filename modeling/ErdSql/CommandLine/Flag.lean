import ErdSql.CommandLine.Settings
import ErdSql.Text.Integer

/-!
# Flags

A flag has a name, possibly a letter, and sets one member of the settings. A switch may stand alone, all
other flags need a value.
-/

namespace ErdSql.CommandLine

/-- A flag. -/
structure Flag where
  name : String
  letter : Option Char
  /-- The value of the flag if it stands alone; a flag without one needs a value. -/
  implied : Option String
  /-- What values are called in a help text. -/
  valueName : String
  /-- What the flag does. -/
  usage : String
  /-- The settings with a value, or what is wrong with the value. -/
  set : String → Settings → Except String Settings

namespace Flag

/-- A flag that is on or off. -/
def switch (name : String) (letter : Option Char) (usage : String)
    (set : Bool → Settings → Settings) : Flag where
  name := name
  letter := letter
  implied := some "true"
  valueName := ""
  usage := usage
  set value settings :=
    match Text.truth? value with
    | some b => .ok (set b settings)
    | none => .error ("strconv.ParseBool: parsing " ++ Text.quoted value ++ ": " ++
        Text.IntegerFault.malformed.message)

/-- A flag with a text. -/
def text (name : String) (letter : Option Char) (usage : String)
    (set : String → Settings → Settings) : Flag where
  name := name
  letter := letter
  implied := none
  valueName := "string"
  usage := usage
  set value settings := .ok (set value settings)

/-- A flag with a whole number. -/
def integer (name : String) (letter : Option Char) (usage : String)
    (set : Int → Settings → Settings) : Flag where
  name := name
  letter := letter
  implied := none
  valueName := "int"
  usage := usage
  set value settings :=
    match Text.integer value with
    | .ok n => .ok (set n settings)
    | .error e => .error ("strconv.ParseInt: parsing " ++ Text.quoted value ++ ": " ++ e.message)

/-- A flag with a duration. -/
def duration (name : String) (usage : String) (set : Duration → Settings → Settings) : Flag where
  name := name
  letter := none
  implied := none
  valueName := "duration"
  usage := usage
  set value settings :=
    match Duration.ofText value with
    | .ok d => .ok (set d settings)
    | .error e => .error e.message

/-- A flag with one of some named values. -/
def choice {α : Type} (name valueName usage rule : String) (ofName? : String → Option α)
    (set : α → Settings → Settings) : Flag where
  name := name
  letter := none
  implied := none
  valueName := valueName
  usage := usage
  set value settings :=
    match ofName? value with
    | some a => .ok (set a settings)
    | none => .error rule

/-- A flag as messages show it, with its letter in front. -/
def shown (f : Flag) : String :=
  match f.letter with
  | some c => "-" ++ String.singleton c ++ ", --" ++ f.name
  | none => "--" ++ f.name

end Flag

/-- The flags that every command has. -/
def globalFlags : List Flag := [
  .text "config" (some 'c')
    "path to erd-catalyst.toml (default: search upwards from the working directory)"
    fun v s => { s with config := v },
  .switch "verbose" (some 'v') "enable debug logging" fun v s => { s with verbose := v },
  .switch "quiet" (some 'q') "log errors only" fun v s => { s with quiet := v },
  .switch "json-log" none "write logs as JSON" fun v s => { s with jsonLog := v },
  .switch "strict-config" none "reject unknown configuration keys"
    fun v s => { s with strictConfig := v },
  .choice "color" "mode" "colour diagnostics: auto, always or never (default auto)"
    "must be auto, always or never" ColorMode.ofName? fun v s => { s with color := v },
  .choice "format" "format" "diagnostic output: text or json (default text)"
    "must be text or json" Format.ofName? fun v s => { s with format := v }]

/-- The flag that replaces the dialect of the project. -/
def dialectFlag : Flag :=
  .text "dialect" (some 'd') "override the SQL dialect" fun v s => { s with dialect := v }

/-- The flag that replaces the output folder of the project. -/
def outFlag : Flag :=
  .text "out" (some 'o') "override the output directory" fun v s => { s with out := v }

/-- The flag that adds advice. -/
def lintFlag : Flag :=
  .switch "lint" none "run the linter as well" fun v s => { s with lint := v }

/-- The flag that asks for the help text of a command. -/
def helpFlag (command : String) : Flag :=
  .switch "help" (some 'h') ("help for " ++ command) fun v s => { s with help := v }

/-- The flag that asks for the version of a program. -/
def versionFlag (program : String) : Flag :=
  .switch "version" none ("version for " ++ program) fun v s => { s with version := v }

end ErdSql.CommandLine
