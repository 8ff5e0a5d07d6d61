import ErdSql.CommandLine.Help
import ErdSql.Diagnostic.Render
import ErdSql.FileTree.Changes
import ErdSql.Generation

/-!
# The command line

Carries out what a command line asks for. All files are in a tree that is given and handed back, so a run
is a function of the words, the files and the moment.

The status is 0 if all went well, 1 if documents have errors or scripts differ, and 2 if the command line
is wrong or a file cannot be used.
-/

namespace ErdSql.CommandLine

/-- Where a command line is run. -/
structure Terminal where
  workingDir : Path
  now : Instant
  /-- The time that log records show. -/
  logTime : String
  hash : List UInt8 → List UInt8
  /-- Whether diagnostics can be shown in colour. -/
  hasColor : Bool := false

/-- How a run ends. -/
inductive Ending where
  | done
  /-- Findings or differences, which have been written already. -/
  | failed
  | error (message : String)
  deriving DecidableEq, Inhabited

/-- The exit status of an ending. -/
def Ending.status : Ending → Nat
  | done => 0
  | failed => 1
  | error _ => 2

/-- The last line that is written about an ending. -/
def Ending.line : Ending → String
  | error message => "error: " ++ message ++ "\n"
  | _ => ""

/-- What a run writes and how it leaves the files. -/
structure Report where
  stdout : List UInt8 := []
  stderr : String := ""
  ending : Ending := .done
  tree : FileTree
  deriving Inhabited

/-- The report of a run that only fails. -/
def Report.failure (tree : FileTree) (message : String) : Report :=
  { ending := .error message, tree }

/-- The version of the program. -/
def version : String := "dev"

/-! ## Diagnostics -/

/-- The files that diagnostics point to, as far as they can be read. -/
def sources (t : Terminal) (tree : FileTree) (ds : List Diagnostic) : List (String × String) :=
  let paths := ((ds.filter Diagnostic.hasLocation).map (·.location.path)).eraseDups
  paths.filterMap fun path =>
    match tree.read t.workingDir path with
    | .ok bytes => some (path, Text.ofBytes bytes)
    | .error _ => none

/-- Whether colours are used. -/
def usesColor (t : Terminal) : ColorMode → Bool
  | .always => true
  | .never => false
  | .auto => t.hasColor

/-- Diagnostics in the order of their places, with source lines and a tally, or as JSON. -/
def renderDiagnostics (t : Terminal) (s : Settings) (tree : FileTree) (ds : List Diagnostic) : String :=
  let ds := Diagnostic.sortByLocation ds
  match s.format with
  | .json => Diagnostic.renderJsonIndented ds
  | .text =>
    if ds.isEmpty then ""
    else
      let style : Diagnostic.Style := {
        color := usesColor t s.color, showDescription := s.verbose, sources := sources t tree ds }
      -- without lines around it, a line of a file is always shown
      (style.renderAll ds).toOption.getD "" ++ style.renderTally ds

/-! ## Commands that carry out the plan of the project -/

/-- The configuration file of a run: the given one, or the nearest one above the working directory. -/
def configPath (t : Terminal) (s : Settings) (tree : FileTree) : String :=
  if s.config != "" then s.config
  else (Project.find? tree t.workingDir t.workingDir.text).getD Project.fileName

/-- How a run with an error ends. Findings have been written with the other diagnostics. -/
def endingOf : Option Generation.RunError → Ending
  | none => .done
  | some (.findings _ _ false) => .failed
  | some e => .error e.message

/-- Carries out the plan of the project. The report has the log and the diagnostics. -/
def runPlan (t : Terminal) (s : Settings) (o : Generation.RunOptions) (tree : FileTree) :
    Generation.Outcome Unit × Report :=
  let env : Generation.Environment Unit := {
    workingDir := t.workingDir, now := t.now, hash := t.hash,
    writer := Generation.Writer.toFiles t.workingDir }
  let o := { o with configPath := configPath t s tree, strictConfig := s.strictConfig }
  let outcome := Generation.run env o ⟨tree, none, ()⟩
  let log := Log.render ⟨s.verbose, s.quiet, s.jsonLog⟩ t.logTime outcome.log
  (outcome, {
    stderr := log ++ renderDiagnostics t s outcome.world.tree outcome.summary.diagnostics
    ending := endingOf outcome.error
    tree := outcome.world.tree })

/-- Adds to the output of a run that went well. -/
def Report.onSuccess (r : Report) (text : Unit → List UInt8) : Report :=
  if r.ending == .done then { r with stdout := r.stdout ++ text () } else r

/-- Compiles the documents and writes the scripts, or shows them. -/
def generate (t : Terminal) (s : Settings) (tree : FileTree) : Report :=
  let (outcome, report) := runPlan t s
    { out := s.out, dialect := s.dialect, dryRun := s.dryRun, lint := s.lint, noCache := s.noCache } tree
  report.onSuccess fun _ =>
    if s.dryRun then
      outcome.summary.files.flatMap fun f => Text.bytes ("-- " ++ f.path ++ "\n") ++ f.content
    else []

/-- The sign of a kind of change. -/
def changeSign : Script.Change → String
  | .added _ _ => "+"
  | .removed _ _ => "-"
  | .changed _ _ _ => "~"

/-- A line of the statement on one side of a change; nothing if there is none. -/
def statementLine (sign : String) (statement : List UInt8) : List UInt8 :=
  if statement.isEmpty then [] else Text.bytes ("    " ++ sign ++ " ") ++ statement ++ Text.bytes "\n"

/-- A change on a line, with its statements if they are wanted. -/
def changeLines (statements : Bool) (c : Script.Change) : List UInt8 :=
  Text.bytes (changeSign c ++ " ") ++ c.key ++ Text.bytes "\n" ++
    (if statements then statementLine "-" c.previous ++ statementLine "+" c.next else [])

/-- The lines about a script that differs from its file. -/
def driftLines (d : Generation.Drift) : List UInt8 :=
  if d.missing then Text.bytes (d.path ++ ": missing\n")
  else Text.bytes (d.path ++ ": " ++ toString d.changes.length ++ " change(s)\n") ++
    d.changes.flatMap (changeLines false)

/-- Compares the scripts with the files in their places. -/
def check (t : Terminal) (s : Settings) (tree : FileTree) : Report :=
  let (outcome, report) := runPlan t s { check := true, out := s.out, dialect := s.dialect } tree
  match outcome.error with
  | some (.drift _) =>
    { report with stdout := outcome.summary.drift.flatMap driftLines, ending := .failed }
  | _ => report

/-- Reports findings and advice. -/
def lint (t : Terminal) (s : Settings) (tree : FileTree) : Report :=
  (runPlan t s { lint := true, dryRun := true, noCache := true } tree).2

/-- A relationship by the names of the entities. -/
structure RelationRow where
  path : String
  kind : String
  source : String
  field : String
  target : String
  via : String
  deriving DecidableEq, Inhabited

namespace RelationRow

/-- The row of a relationship in the schema of a document. -/
def of (path : String) (schema : Schema) (r : Schema.Relationship) : RelationRow :=
  let name (id : Nat) : String := ((schema.entity? id).map (·.name)).getD "?"
  ⟨path, r.kind.name, name r.source, r.field, name r.target, (r.via.map name).getD ""⟩

/-- A row as a line of text. -/
def line (r : RelationRow) : String :=
  r.source ++ (if r.field == "" then "" else "." ++ r.field) ++ " -> " ++ r.target ++
    " (" ++ r.kind ++ ")" ++ (if r.via == "" then "" else " via " ++ r.via) ++ "\n"

/-- A row as JSON. -/
def toJson (r : RelationRow) : Json :=
  .obj ([("path", .str r.path), ("kind", .str r.kind), ("from", .str r.source)] ++
    Diagnostic.textMember "field" r.field ++ [("to", .str r.target)] ++
    Diagnostic.textMember "via" r.via)

end RelationRow

/-- Lists the relationships of all documents. -/
def relations (t : Terminal) (s : Settings) (tree : FileTree) : Report :=
  let (outcome, report) := runPlan t s { dryRun := true, noCache := true } tree
  let rows := outcome.summary.results.flatMap fun r =>
    match r.schema with
    | none => []
    | some schema => schema.relationships.map (RelationRow.of r.path schema)
  report.onSuccess fun _ =>
    Text.bytes (match s.format with
      | .json => (Json.arr (rows.map RelationRow.toJson)).indented 0 ++ "\n"
      | .text => String.join (rows.map RelationRow.line))

/-- Builds the project because of something, and logs an error instead of ending with it. -/
def rebuild (t : Terminal) (s : Settings) (reason : String) (tree : FileTree) : Report :=
  let log := Log.render ⟨s.verbose, s.quiet, s.jsonLog⟩ t.logTime
  let (_, report) := runPlan t s { out := s.out, dialect := s.dialect } tree
  let failure := match report.ending with
    | .error message => log [⟨.error, "build failed", [("err", .text message)]⟩]
    | _ => ""
  { report with
    stderr := log [⟨.info, "building", [("reason", .text reason)]⟩] ++ report.stderr ++ failure
    ending := .done }

/-- The extensions of files that a project is built from. -/
def watchedExtensions : List String := [".erd", ".toml", ".yaml", ".yml", Project.pluginExtension]

/-- Whether a project is built again when a file changes. Hidden files and copies that editors keep do
not count. -/
def isWatched (place : Place) : Bool :=
  let name := (place.getLast?).getD ""
  !Text.startsWith "." name && !Text.endsWith "~" name &&
    watchedExtensions.contains (Path.extension name)

/-- A file that changed and for which the project is built again. -/
def changedFile? (old new : FileTree) : Option String :=
  ((old.changes new).files.find? isWatched).map fun p => (Path.mk true p).text

/-- Builds the project once. Building it again when files change is the work of the caller. -/
def watch (t : Terminal) (s : Settings) (tree : FileTree) : Report :=
  let folder := (Path.absolute t.workingDir (configPath t s tree)).dir
  match tree.find t.workingDir folder.text with
  | .ok _ => rebuild t s "start" tree
  | .error fault =>
    .failure tree ("watch " ++ folder.text ++ ": " ++ (PathError.mk "lstat" folder.text fault).message)

/-! ## Commands on single files -/

/-- Compiles documents one after another: the scripts, with a heading each if `headed` is set, and the
diagnostics, or the first document that cannot be read. -/
def compileAll (t : Terminal) (o : CompileOptions) (tree : FileTree) (headed : Bool) :
    List String → List UInt8 × Except PathError (List Diagnostic)
  | [] => ([], .ok [])
  | path :: rest =>
    match tree.read t.workingDir path with
    | .error e => ([], .error e)
    | .ok src =>
      let c := Compilation.run path src o
      let (out, diagnostics) := compileAll t o tree headed rest
      let script := if c.generated then
          Text.bytes ((if headed then "-- " ++ path ++ "\n" else "") ++ c.sql)
        else []
      (script ++ out, diagnostics.map (c.diagnostics ++ ·))

/-- Compiles documents and shows the scripts. -/
def compile (t : Terminal) (s : Settings) (paths : List String) (tree : FileTree) : Report :=
  let name := if s.dialect == "" then Dialect.Registry.defaultName else s.dialect
  match Dialect.Registry.builtin.lookup name with
  | none => .failure tree (Dialect.Registry.builtin.unknownMessage name)
  | some dialect =>
    let o : CompileOptions := { dialect, ifNotExists := s.ifNotExists, lint := s.lint }
    match compileAll t o tree (paths.length > 1) paths with
    | (stdout, .error e) => { stdout, ending := .error e.message, tree }
    | (stdout, .ok ds) => {
        stdout, stderr := renderDiagnostics t s tree ds
        ending := if Diagnostic.hasErrors ds then .failed else .done
        tree }

/-- A change as JSON. -/
def changeJson (c : Script.Change) : Json :=
  .obj ([("kind", .str c.name), ("key", .str (Text.ofBytes c.key))] ++
    Diagnostic.textMember "previous" (Text.ofBytes c.previous) ++
    Diagnostic.textMember "next" (Text.ofBytes c.next))

/-- A comparison as JSON. -/
def comparisonJson (c : Script.Comparison) : Json :=
  .obj [("changes", .arr (c.changes.map changeJson)), ("previous_root", .str (Text.hex c.previousRoot)),
    ("next_root", .str (Text.hex c.nextRoot)), ("drift", .bool c.drift)]

/-- A comparison as text, with the root hashes if details are wanted. -/
def comparisonText (s : Settings) (c : Script.Comparison) : List UInt8 :=
  c.changes.flatMap (changeLines s.statements) ++
    (if s.verbose then
      Text.bytes ("previous root " ++ Text.hex c.previousRoot ++ "\nnext root     " ++
        Text.hex c.nextRoot ++ "\n")
    else [])

/-- Compares two scripts. -/
def diff (t : Terminal) (s : Settings) (previous next : String) (tree : FileTree) : Report :=
  let both := do
    let p ← tree.read t.workingDir previous
    let n ← tree.read t.workingDir next
    return Script.compare t.hash p n
  match both with
  | .error e => .failure tree e.message
  | .ok c =>
    { stdout := match s.format with
        | .json => Text.bytes ((comparisonJson c).indented 0 ++ "\n")
        | .text => comparisonText s c
      ending := if c.drift then .failed else .done
      tree }

/-! ## Commands on the store of results -/

/-- The folder in which the project keeps results, which is made if it is not there. -/
def resultFolder (t : Terminal) (s : Settings) (tree : FileTree) :
    Except String (Cache.Folder × FileTree) := do
  let (plan, _) ← (Project.load tree t.workingDir (configPath t s tree) s.strictConfig).mapError
    (·.message)
  if plan.cacheDir == "" then throw "cache_dir is not configured"
  let folder : Cache.Folder := ⟨Path.ofText plan.cacheDir, t.workingDir⟩
  return (folder, ← (folder.create tree).mapError (·.message))

/-- Forgets all results. -/
def clear (t : Terminal) (s : Settings) (tree : FileTree) : Report :=
  match resultFolder t s tree with
  | .error message => .failure tree message
  | .ok (folder, tree) =>
    { stdout := Text.bytes ("cleared " ++ folder.dir.text ++ "\n"), tree := folder.clear tree }

/-- Forgets old results. -/
def prune (t : Terminal) (s : Settings) (tree : FileTree) : Report :=
  match resultFolder t s tree with
  | .error message => .failure tree message
  | .ok (folder, tree) =>
    match folder.prune tree (t.now.plus s.olderThan.opposite.nanos) with
    | .error e => .failure tree e.message
    | .ok (n, tree) =>
      { stdout := Text.bytes ("pruned " ++ toString n ++ " entr" ++ (if n == 1 then "y" else "ies") ++
          " from " ++ folder.dir.text ++ "\n")
        tree }

/-! ## All commands -/

/-- Carries out a command with its settings and arguments. -/
def runCommand (t : Terminal) (tree : FileTree) (s : Settings) :
    Command → List String → Report
  | .generate, _ => generate t s tree
  | .check, _ => check t s tree
  | .lint, _ => lint t s tree
  | .compile, paths => compile t s paths tree
  | .diff, [previous, next] => diff t s previous next tree
  | .relations, _ => relations t s tree
  | .watch, _ => watch t s tree
  | .clear, _ => clear t s tree
  | .prune, _ => prune t s tree
  | .help, words => { stdout := Text.bytes (helpTopic words), tree }
  | c, _ => { stdout := Text.bytes (helpText c), tree }

/-- Carries out a request. -/
def runRequest (t : Terminal) (tree : FileTree) : Request → Report
  | .help c => { stdout := Text.bytes (helpText c), tree }
  | .version =>
    { stdout := Text.bytes (Command.program.name ++ " version " ++ version ++ "\n"), tree }
  | .run c s arguments => runCommand t tree s c arguments

/-- What is left by a run of the program. -/
structure Result where
  status : Nat
  stdout : List UInt8
  stderr : String
  tree : FileTree
  deriving Inhabited

/-- Carries out a command line. -/
def run (t : Terminal) (words : List String) (tree : FileTree) : Result :=
  let report := match Request.ofWords words with
    | .ok request => runRequest t tree request
    | .error e => .failure tree e.message
  ⟨report.ending.status, report.stdout, report.stderr ++ report.ending.line, report.tree⟩

end ErdSql.CommandLine
