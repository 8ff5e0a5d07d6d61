import ErdSql.Duration

/-!
# Settings of a command

What the flags on a command line set. Every command has the same record and looks at the members that
concern it.
-/

namespace ErdSql.CommandLine

/-- When diagnostics are coloured. -/
inductive ColorMode where
  | auto
  | always
  | never
  deriving DecidableEq, Inhabited

/-- The mode of a name. -/
def ColorMode.ofName? : String → Option ColorMode
  | "auto" => some auto
  | "always" => some always
  | "never" => some never
  | _ => none

/-- How diagnostics are written. -/
inductive Format where
  | text
  | json
  deriving DecidableEq, Inhabited

/-- The format of a name. -/
def Format.ofName? : String → Option Format
  | "text" => some text
  | "json" => some json
  | _ => none

/-- What the flags of a command line set. -/
structure Settings where
  help : Bool := false
  version : Bool := false
  /-- The configuration file; empty for the nearest one. -/
  config : String := ""
  verbose : Bool := false
  quiet : Bool := false
  jsonLog : Bool := false
  strictConfig : Bool := false
  color : ColorMode := .auto
  format : Format := .text
  dryRun : Bool := false
  out : String := ""
  dialect : String := ""
  lint : Bool := false
  noCache : Bool := false
  /-- The number of documents that may be compiled at a time. Results do not depend on it. -/
  jobs : Int := 0
  ifNotExists : Bool := false
  statements : Bool := false
  /-- How long files must have been left alone before they are compiled again. -/
  debounce : Duration := .milliseconds 200
  /-- The least age of results that are forgotten. -/
  olderThan : Duration := .hours 720
  deriving DecidableEq, Inhabited

end ErdSql.CommandLine
