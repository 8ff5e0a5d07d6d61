import ErdSql.Cache.Folder
import ErdSql.Generation.Summary

/-!
# What a run sees and changes

The files, a store of results if the caller keeps one, and a state of the caller's own, on which hooks
and writers work.
-/

namespace ErdSql.Generation

/-- Files, kept results and a state of the caller's own. -/
structure World (σ : Type) where
  tree : FileTree
  store : Option Cache.Store
  own : σ

/-- Something done in a world, which may fail with a message. -/
abbrev Action (σ α : Type) : Type := ExceptT String (StateM (World σ)) α

/-- Writes the content of a file. -/
abbrev Writer (σ : Type) : Type := String → List UInt8 → Action σ Unit

/-- How the names of files start that are written before they take the place of others. -/
def temporaryName : String := ".erd-catalyst-"

/-- The tree with a file where its path says and the folders on the way, as far as they can be made, and
what stopped the writing. A file is written under another name first, and then takes its place. -/
def writeTo (workingDir : Path) (t : FileTree) (path : String) (content : List UInt8) :
    FileTree × Option String :=
  if path == "" then (t, some "pipeline: empty path")
  else
    let p := Path.ofText path
    let (made, error) := t.makePath workingDir p.dir
    match error, made.target workingDir path with
    | some e, _ => (made, some ("mkdir " ++ p.dir.text ++ ": " ++ e.message))
    | none, .error fault =>
      (made, some ("rename temp file: rename " ++ (p.dir.join temporaryName).text ++ " " ++ path ++
        ": " ++ fault.message))
    | none, .ok place => (made.setFile place content, none)

/-- The writer that writes files where their paths say. -/
def Writer.toFiles {σ : Type} (workingDir : Path) : Writer σ := fun path content => do
  let w ← get
  let done := writeTo workingDir w.tree path content
  set { w with tree := done.1 }
  match done.2 with
  | some message => throw message
  | none => return

/-- Contents of files that are only remembered. -/
structure MemoryFiles where
  files : List (String × List UInt8)
  deriving DecidableEq, Inhabited

namespace MemoryFiles

/-- No files. -/
def empty : MemoryFiles := ⟨[]⟩

/-- Remembers the content of a file in place of the one before. -/
def write (m : MemoryFiles) (path : String) (content : List UInt8) : MemoryFiles :=
  ⟨(path, content) :: m.files.filter fun f => f.1 != path⟩

/-- The content of a file. -/
def file? (m : MemoryFiles) (path : String) : Option (List UInt8) :=
  m.files.lookup path

/-- The paths of all files in byte order. -/
def paths (m : MemoryFiles) : List String :=
  Text.sortTexts (m.files.map (·.1))

/-- A file has the content written last. -/
@[simp]
theorem file?_write_self (m : MemoryFiles) (path : String) (content : List UInt8) :
    (m.write path content).file? path = some content := by
  simp [write, file?]

end MemoryFiles

/-- Actions at the stages of a run. Each may stop the run. -/
structure Hooks (σ : Type) where
  /-- Before compiling, with the paths of the documents. -/
  beforeCompile : Option (List String → Action σ Unit) := none
  /-- When all documents are compiled, before findings fail the run. -/
  afterCompile : Option (List Result → Action σ Unit) := none
  /-- Before files are written. -/
  beforeWrite : Option (List File → Action σ Unit) := none
  /-- When all files are written. -/
  afterWrite : Option (Summary → Action σ Unit) := none

namespace Hooks

/-- One action after another; the second is left out if the first fails. -/
def andThen {σ α : Type} : Option (α → Action σ Unit) → Option (α → Action σ Unit) →
    Option (α → Action σ Unit)
  | none, second => second
  | first, none => first
  | some first, some second => some fun a => do
    first a
    second a

/-- The actions of two sets of hooks, stage by stage. -/
def chain {σ : Type} (a b : Hooks σ) : Hooks σ where
  beforeCompile := andThen a.beforeCompile b.beforeCompile
  afterCompile := andThen a.afterCompile b.afterCompile
  beforeWrite := andThen a.beforeWrite b.beforeWrite
  afterWrite := andThen a.afterWrite b.afterWrite

end Hooks

/-- Where results are kept. -/
inductive Keeping where
  | nowhere
  | memory
  | folder (f : Cache.Folder)
  deriving DecidableEq, Inhabited

namespace Keeping

/-- The result kept under a key. -/
def get? {σ : Type} (k : Keeping) (w : World σ) (key : String) : Option Cache.Entry :=
  match k with
  | nowhere => none
  | memory => w.store.bind fun s => s.get? key
  | folder f => f.get? w.tree key

/-- Keeps a result under a key. One that cannot be kept is forgotten. -/
def put {σ : Type} (k : Keeping) (now : Instant) (w : World σ) (key : String) (entry : Cache.Entry) :
    World σ :=
  match k with
  | nowhere => w
  | memory => { w with store := w.store.map fun s => s.put key entry }
  | folder f =>
    match f.put w.tree now key entry with
    | .ok tree => { w with tree }
    | .error _ => w

end Keeping

end ErdSql.Generation
