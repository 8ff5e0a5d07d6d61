import ErdSql.Compilation
import ErdSql.Project
import ErdSql.Script.Comparison

/-!
# What a run produces

The plan that was carried out, the results of compiling, the scripts, the findings, and the error that
ended the run.
-/

namespace ErdSql.Generation

/-- The result of compiling one document. There is no schema if the result was kept from before or the
document could not be read. -/
structure Result where
  path : String
  entry : Cache.Entry
  cached : Bool
  schema : Option Schema
  deriving Inhabited

/-- A generated script and the document it is from. -/
structure File where
  path : String
  source : String
  content : List UInt8
  deriving DecidableEq, Inhabited

/-- A script that differs from the file in its place. -/
structure Drift where
  path : String
  missing : Bool
  changes : List Script.Change
  deriving Inhabited

/-- What a run produced. -/
structure Summary where
  plan : Project.Plan := {}
  files : List File := []
  results : List Result := []
  diagnostics : List Diagnostic := []
  /-- The paths that were written; files that had the right content are left alone. -/
  written : List String := []
  drift : List Drift := []
  deriving Inhabited

/-- Why a run failed. -/
inductive RunError where
  /-- The first of `count` diagnostics that fail the run. One that was made from another error is
  `caused` by it. -/
  | findings (first : Diagnostic) (count : Nat) (caused : Bool)
  | write (path reason : String)
  | drift (paths : List String)
  | canceled
  | other (message : String)
  deriving DecidableEq, Inhabited

/-- The wording of an error. -/
def RunError.message : RunError → String
  | findings first count _ =>
    first.summary ++ (if count > 1 then " (and " ++ toString (count - 1) ++ " more)" else "")
  | write path reason => "write " ++ path ++ ": " ++ reason
  | drift paths => "generated SQL is out of date: " ++ Text.join ", " paths
  | canceled => "context canceled"
  | other message => message

/-- The error about something that is wrong before compiling starts. -/
def RunError.setup (path what reason : String) : RunError :=
  .findings (.make .error "" (what ++ ": " ++ reason) ⟨path, 1, 1⟩) 1 true

/-- The error for the diagnostics that fail a run: errors, and warnings if they are fatal. -/
def failure? (diagnostics : List Diagnostic) (failOnWarnings : Bool) : Option RunError :=
  match diagnostics.filter fun d => d.isError || (failOnWarnings && d.isWarning) with
  | [] => none
  | first :: rest => some (.findings first (rest.length + 1) false)

end ErdSql.Generation
