import ErdSql.Generation.Layout
import ErdSql.Generation.World
import ErdSql.Log
import ErdSql.Overlay.Reader

/-!
# Generation

Carries out the plan of a project: loads the configuration and the overlay, compiles every document, and
writes the scripts or compares them with the files in their places.
-/

namespace ErdSql.Generation

/-- What a run needs from outside. -/
structure Environment (σ : Type) where
  workingDir : Path
  now : Instant
  hash : List UInt8 → List UInt8
  writer : Writer σ
  hooks : Hooks σ := {}
  /-- Reads the plugins at some paths. -/
  loadPlugins : FileTree → List String → Except String Plugin.Registry :=
    fun _ _ => .error "plugin scripts are not supported"
  /-- Whether the run was called off. -/
  canceled : Bool := false

/-- What a run is asked to do. -/
structure RunOptions where
  configPath : String := ""
  /-- Replaces the output folder of the plan. -/
  out : String := ""
  /-- Replaces the dialect of the plan. -/
  dialect : String := ""
  dryRun : Bool := false
  strictConfig : Bool := false
  /-- Compares scripts with the files in their places instead of writing them. -/
  check : Bool := false
  lint : Bool := false
  noCache : Bool := false
  deriving DecidableEq, Inhabited

/-- How far a run has come. -/
structure Progress (σ : Type) where
  world : World σ
  summary : Summary := {}
  log : List Log.Record := []

/-- A part of a run. What was done before an error stays done. -/
abbrev Step (σ α : Type) : Type := ExceptT RunError (StateM (Progress σ)) α

/-- Adds a record to the log. -/
def logRecord {σ : Type} (level : Log.Level) (message : String)
    (attributes : List (String × Log.Value)) : Step σ Unit :=
  modify fun p => { p with log := p.log ++ [⟨level, message, attributes⟩] }

/-- Changes the summary. -/
def report {σ : Type} (f : Summary → Summary) : Step σ Unit :=
  modify fun p => { p with summary := f p.summary }

/-- The files as they are now. -/
def files {σ : Type} : Step σ FileTree := do
  return (← get).world.tree

/-- Goes on with a value, or stops with an error about the setup. -/
def setup {σ α : Type} (path what : String) (value : Except String α) : Step σ α :=
  match value with
  | .ok a => pure a
  | .error reason => throw (.setup path what reason)

/-- Does an action in the world of the run. -/
def act {σ α : Type} (wrap : String → RunError) (action : Action σ α) : Step σ α := do
  let p ← get
  let (result, world) := action.run.run p.world
  set { p with world }
  match result with
  | .ok a => return a
  | .error message => throw (wrap message)

/-- Does the action of a stage, if there is one. -/
def hook {σ α : Type} (h : Option (α → Action σ Unit)) (a : α) : Step σ Unit :=
  match h with
  | none => pure ()
  | some action => act .other (action a)

/-- The plan of the configuration with what the options replace. -/
def plan {σ : Type} (env : Environment σ) (o : RunOptions) (configPath : String) :
    Step σ Project.Plan := do
  let (loaded, warnings) ← setup configPath "load config"
    ((Project.load (← files) env.workingDir configPath o.strictConfig).mapError (·.message))
  let findings := warnings.map fun w => Diagnostic.make .warning "" w ⟨configPath, 1, 1⟩
  report fun s => { s with diagnostics := findings }
  let dialects := Dialect.Registry.builtin
  let out := if o.out == "" then loaded.out
    else if Path.isRooted o.out then o.out
    else ((Path.ofText (Path.dirText configPath)).join o.out).text
  let dialect ← if o.dialect == "" then pure loaded.dialect
    else if (dialects.lookup o.dialect).isSome then pure (Text.lower o.dialect)
    else throw (.setup configPath "dialect" ("unknown dialect " ++ Text.quoted o.dialect ++
      " (available: " ++ Text.join ", " dialects.names ++ ")"))
  let plan := { loaded with out, dialect, lint := loaded.lint || o.lint }
  report fun s => { s with plan }
  return plan

/-- The overlay of a plan and its bytes, which take part in the keys of results. -/
def overlay {σ : Type} (env : Environment σ) (plan : Project.Plan) :
    Step σ (Overlay × List (List UInt8)) := do
  if plan.sidecar == "" then return (Overlay.empty, [])
  let bytes ← setup plan.sidecar "read sidecar"
    (((← files).read env.workingDir plan.sidecar).mapError (·.message))
  let overlay ← setup plan.sidecar "parse sidecar"
    ((Overlay.readBytes plan.sidecar bytes).mapError fun e => e.message plan.sidecar)
  return (overlay, [bytes])

/-- The plugins of a plan, and their paths and bytes. -/
def plugins {σ : Type} (env : Environment σ) (plan : Project.Plan) (configPath : String) :
    Step σ (Plugin.Registry × List (List UInt8)) := do
  if plan.plugins.isEmpty then return (Plugin.Registry.empty, [])
  let registry ← setup configPath "load plugins" (env.loadPlugins (← files) plan.plugins)
  let parts ← plan.plugins.mapM fun path => do
    let bytes ← setup path "read plugin"
      (((← files).read env.workingDir path).mapError (·.message))
    return [Text.bytes path, bytes]
  return (registry, parts.flatten)

/-- Where the results of a run are kept. The caller's store comes before the folder of the plan. -/
def keeping {σ : Type} (env : Environment σ) (o : RunOptions) (plan : Project.Plan)
    (configPath : String) : Step σ Keeping := do
  if o.noCache then return .nowhere
  if (← get).world.store.isSome then return .memory
  if plan.cacheDir == "" then return .nowhere
  let folder : Cache.Folder := ⟨Path.ofText plan.cacheDir, env.workingDir⟩
  let tree ← setup configPath "open cache" ((folder.create (← files)).mapError (·.message))
  modify fun p => { p with world := { p.world with tree } }
  return .folder folder

/-- The result of a document that cannot be read. -/
def unreadable (path : String) (e : PathError) : Result :=
  let finding := Diagnostic.make .error "" ("read schema: " ++ e.message) ⟨path, 0, 0⟩
  ⟨path, ⟨"", [finding], false, false⟩, false, none⟩

/-- The result of compiling a document, or the one kept from before. -/
def compileBytes {σ : Type} (env : Environment σ) (k : Keeping) (o : CompileOptions) (path : String)
    (src : List UInt8) (w : World σ) : Result × World σ :=
  let key := Compilation.key env.hash path src o
  match k.get? w key with
  | some entry => (⟨path, entry, true, none⟩, w)
  | none =>
    let c := Compilation.run path src o
    (⟨path, c.entry, false, some c.schema⟩, k.put env.now w key c.entry)

/-- Compiles the document at a path. -/
def compileFile {σ : Type} (env : Environment σ) (k : Keeping) (o : CompileOptions) (path : String) :
    Step σ Result := do
  match (← files).read env.workingDir path with
  | .error e => return unreadable path e
  | .ok src =>
    if env.canceled then throw .canceled
    let (result, world) := compileBytes env k o path src (← get).world
    modify fun p => { p with world }
    logRecord .debug "compiled" [("path", .text path), ("cached", .flag result.cached),
      ("valid", .flag result.entry.valid), ("diagnostics", .number result.entry.diagnostics.length)]
    return result

/-- The scripts of results. -/
def scripts (plan : Project.Plan) (results : List Result) : List File :=
  let root := commonDir (plan.schemas.map Path.ofText)
  (results.filter (·.entry.generated)).map fun r =>
    ⟨(outputPath (Path.ofText plan.out) root (Path.ofText r.path)).text, r.path,
      Text.bytes r.entry.sql⟩

/-- How a script differs from the file in its place, if it does. -/
def drift? {σ : Type} (env : Environment σ) (tree : FileTree) (file : File) :
    Except PathError (Option Drift) :=
  match tree.read env.workingDir file.path with
  | .error e =>
    if e.fault == .notFound then .ok (some ⟨file.path, true, []⟩) else .error e
  | .ok existing =>
    let c := Script.compare env.hash existing file.content
    .ok (if c.drift then some ⟨file.path, false, c.changes⟩ else none)

/-- Compares all scripts with the files in their places. -/
def compareFiles {σ : Type} (env : Environment σ) (scripts : List File) : Step σ Unit := do
  let tree ← files
  match scripts.mapM (drift? env tree) with
  | .error e => throw (.other e.message)
  | .ok found =>
    let drift := found.filterMap id
    report fun s => { s with drift }
    if !drift.isEmpty then throw (.drift (drift.map (·.path)))

/-- Whether a file has a content already. -/
def hasContent (workingDir : Path) (tree : FileTree) (file : File) : Except PathError Bool :=
  match tree.read workingDir file.path with
  | .error e => if e.fault == .notFound then .ok false else .error e
  | .ok existing => .ok (existing == file.content)

/-- Writes a script unless the file in its place has the same content. -/
def writeFile {σ : Type} (env : Environment σ) (file : File) : Step σ Unit := do
  if env.canceled then throw .canceled
  match hasContent env.workingDir (← files) file with
  | .error e => throw (.write file.path e.message)
  | .ok true => logRecord .debug "unchanged" [("path", .text file.path)]
  | .ok false =>
    act (.write file.path) (env.writer file.path file.content)
    report fun s => { s with written := s.written ++ [file.path] }
    logRecord .info "wrote" [("path", .text file.path), ("bytes", .number file.content.length)]

/-- What is known before compiling starts. -/
structure Setup where
  configPath : String
  plan : Project.Plan
  /-- The inputs outside the documents, which take part in the keys of results. -/
  outside : List (List UInt8)
  options : CompileOptions

/-- Loads the configuration and what it names, but for the documents. -/
def prepare {σ : Type} (env : Environment σ) (o : RunOptions) : Step σ Setup := do
  let given := if o.configPath == "" then Project.fileName else o.configPath
  let configPath := (Path.absolute env.workingDir given).text
  let plan ← plan env o configPath
  let dialect ← setup configPath "dialect"
    ((Dialect.Registry.builtin.lookup plan.dialect).elim
      (.error (Dialect.Registry.builtin.unknownMessage plan.dialect)) .ok)
  let (overlay, overlayBytes) ← overlay env plan
  let (plugins, pluginBytes) ← plugins env plan configPath
  let outside := overlayBytes ++ pluginBytes
  return { configPath, plan, outside, options := {
    dialect, overlay, plugins, ifNotExists := plan.ifNotExists, header := plan.header,
    lint := plan.lint, fingerprint := Digest.key env.hash outside } }

/-- Compiles all documents of a plan. -/
def compileAll {σ : Type} (env : Environment σ) (o : RunOptions) (s : Setup) : Step σ (List Result) := do
  let keeping ← keeping env o s.plan s.configPath
  hook env.hooks.beforeCompile s.plan.schemas
  let results ← s.plan.schemas.mapM (compileFile env keeping s.options)
  report fun summary => { summary with
    results, diagnostics := summary.diagnostics ++ results.flatMap (·.entry.diagnostics) }
  hook env.hooks.afterCompile results
  return results

/-- Writes scripts, or compares them with the files in their places, unless findings fail the run. -/
def deliver {σ : Type} (env : Environment σ) (o : RunOptions) (failOnWarnings : Bool)
    (scripts : List File) : Step σ Unit := do
  report fun s => { s with files := scripts }
  match failure? (← get).summary.diagnostics failOnWarnings with
  | some e => throw e
  | none =>
    if o.check then compareFiles env scripts
    else if !o.dryRun then
      hook env.hooks.beforeWrite scripts
      scripts.forM (writeFile env)
      hook env.hooks.afterWrite (← get).summary

/-- The parts of a run in their order. -/
def steps {σ : Type} (env : Environment σ) (o : RunOptions) : Step σ Unit := do
  let s ← prepare env o
  let results ← compileAll env o s
  deliver env o s.plan.failOnWarnings (scripts s.plan results)

/-- How a run ended. -/
structure Outcome (σ : Type) where
  summary : Summary
  error : Option RunError
  log : List Log.Record
  world : World σ

/-- Carries out a run. -/
def run {σ : Type} (env : Environment σ) (o : RunOptions) (w : World σ) : Outcome σ :=
  let (result, p) := (steps env o).run.run { world := w }
  let error := match result with
    | .ok _ => none
    | .error e => some e
  ⟨p.summary, error, p.log, p.world⟩

end ErdSql.Generation
