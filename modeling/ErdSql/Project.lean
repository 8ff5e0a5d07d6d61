import ErdSql.Dialect.Registry
import ErdSql.FileSet
import ErdSql.Project.Settings

/-!
# Projects

A project is a folder with a configuration file. Loading it reads the settings, checks them and finds
the files that they name.
-/

namespace ErdSql.Project

/-- The name of the configuration file. -/
def fileName : String := "erd-catalyst.toml"

/-- The extension of plugins. -/
def pluginExtension : String := ".js"

/-- What is to be done, with all files found. -/
structure Plan where
  schemas : List String := []
  out : String := ""
  dialect : String := ""
  sidecar : String := ""
  plugins : List String := []
  ifNotExists : Bool := false
  cacheDir : String := ""
  failOnWarnings : Bool := false
  lint : Bool := false
  header : List String := []
  deriving DecidableEq, Inhabited

/-- What is wrong with a configuration. -/
inductive Problem where
  | unreadable (e : PathError)
  | badSettings (e : SettingsError)
  | unknownKeys (names : List String)
  | noPatterns
  | unresolved (e : FileSet.ResolveError)
  | required
  | notRelative
  | goesUp
  | unknownDialect (name : String)
  | matched (count : Nat)

/-- The wording of a problem. -/
def Problem.message : Problem → String
  | unreadable e => e.message
  | badSettings e => e.message
  | unknownKeys names => "unknown configuration keys: " ++ Text.join ", " names
  | noPatterns => "must include at least one pattern"
  | unresolved e => e.message
  | required => "is required"
  | notRelative => "must be a relative path"
  | goesUp => "must not traverse upwards"
  | unknownDialect name => "unsupported dialect " ++ Text.quoted name ++ " (known: " ++
      Text.join ", " Dialect.Registry.builtin.names ++ ")"
  | matched count => "matched " ++ toString count ++ " files, want one"

/-- A problem with a configuration file. The key is the setting that it is about, or empty. -/
structure LoadError where
  path : String
  key : String
  problem : Problem

/-- The wording of an error. -/
def LoadError.message (e : LoadError) : String :=
  e.path ++ ": " ++ (if e.key == "" then "" else e.key ++ ": ") ++ e.problem.message

/-- A folder that must be below the base. -/
def folderBelow (base : Path) (dir : String) : Except Problem String :=
  if Path.isRooted dir then .error .notRelative
  else if (Path.ofText dir).goesUp then .error .goesUp
  else .ok (base.join dir).text

/-- The name of a dialect in lower case; the default one if none is given. -/
def dialectName (name : String) : Except Problem String :=
  if name == "" then .ok Dialect.Registry.defaultName
  else if (Dialect.Registry.builtin.lookup name).isSome then .ok (Text.lower name)
  else .error (.unknownDialect name)

/-- The files that patterns select below a base. -/
def filesBelow (tree : FileTree) (base : Path) (extension : String) (patterns : List String) :
    Except Problem (List String) :=
  let source : FileSet.Source := { tree, base := base.parts, extension, strict := true }
  match FileSet.resolve (some source) patterns with
  | .ok names => .ok (names.map fun name => (base.join name).text)
  | .error .noPatterns => .error .noPatterns
  | .error e => .error (.unresolved e)

/-- The one file that a pattern selects below a base. -/
def fileBelow (tree : FileTree) (base : Path) (pattern : String) : Except Problem String := do
  match ← filesBelow tree base ".erd" [pattern] with
  | [file] => return file
  | files => throw (.matched files.length)

/-- The plan that settings in a folder stand for, or the setting that is wrong. Folders to write to keep
the spelling of `dir`, files to read are found below `base`. -/
def plan (tree : FileTree) (dir base : Path) (s : Settings) : Except (String × Problem) Plan := do
  let setting {α : Type} (key : String) (value : Except Problem α) : Except (String × Problem) α :=
    value.mapError fun problem => (key, problem)
  let schemas ← setting "schemas" (filesBelow tree base ".erd" s.schemas)
  if s.out == "" then throw ("out", .required)
  let out ← setting "out" (folderBelow dir s.out)
  let dialect ← setting "dialect" (dialectName s.dialect)
  let sidecar ← if s.sidecar == "" then pure ""
    else setting "sidecar" (fileBelow tree base s.sidecar)
  let plugins ← if s.plugins.isEmpty then pure []
    else setting "plugins" (filesBelow tree base pluginExtension s.plugins)
  let cacheDir ← if s.cacheDir == "" then pure "" else setting "cache_dir" (folderBelow dir s.cacheDir)
  return { schemas, out, dialect, sidecar, plugins, cacheDir, ifNotExists := s.ifNotExists,
           failOnWarnings := s.failOnWarnings, lint := s.lint, header := s.header }

/-- Loads the configuration at a path: the plan and warnings. Unknown keys are an error if `strict` is
set and a warning otherwise. -/
def load (tree : FileTree) (workingDir : Path) (path : String) (strict : Bool) :
    Except LoadError (Plan × List String) := do
  let fail {α : Type} (problem : Problem) : Except LoadError α := throw ⟨path, "", problem⟩
  let bytes ← match tree.read workingDir (Path.ofText path).text with
    | .ok bytes => pure bytes
    | .error e => fail (.unreadable e)
  let (settings, unknown) ← match Settings.readBytes bytes with
    | .ok r => pure r
    | .error e => fail (.badSettings e)
  let names := FileSet.compact (Text.sortTexts unknown)
  if strict && !names.isEmpty then fail (.unknownKeys names)
  let dir := Path.ofText (Path.dirText path)
  match plan tree dir (Path.absolute workingDir dir.text) settings with
  | .ok p =>
    return (p, if names.isEmpty then [] else [LoadError.message ⟨path, "", .unknownKeys names⟩])
  | .error (key, problem) => throw ⟨path, key, problem⟩

/-- The configuration file in a folder or in the nearest folder above it that has one. -/
def find? (tree : FileTree) (workingDir : Path) (dir : String) : Option String :=
  let start := (Path.absolute workingDir dir).parts
  ((List.range (start.length + 1)).reverse.map fun n => start.take n ++ [fileName]).findSome? fun p =>
    match tree.node? p with
    | some (.file _) => some (Path.mk true p).text
    | _ => none

/-- The wording for a folder without configuration file. -/
def notFoundMessage (dir : String) : String :=
  fileName ++ " not found in " ++ dir ++ " or any parent"

end ErdSql.Project
