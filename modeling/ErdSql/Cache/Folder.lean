import ErdSql.Cache.Record
import ErdSql.FileTree

/-!
# Stores in a folder

A store that keeps each entry in a file of its own. The files are spread over folders that are named by
the first two digits of the key. A file that cannot be read, or is of another format, counts as no
entry.
-/

namespace ErdSql.Cache

/-- A folder that is used as a store. -/
structure Folder where
  /-- The folder as it is spelled. -/
  dir : Path
  /-- Where a path that is not rooted starts. -/
  workingDir : Path
  deriving DecidableEq, Inhabited

/-- What went wrong with a store in a folder. -/
inductive FolderError where
  | badKey (key : String)
  | create (e : PathError)
  | write (e : PathError)
  | delete (e : PathError)
  | prune (e : PathError)
  deriving DecidableEq, Inhabited

/-- The wording of an error. -/
def FolderError.message : FolderError → String
  | badKey key => "cache: invalid key " ++ Text.quoted key
  | create e => "create cache directory: " ++ e.message
  | write e => "write cache entry: " ++ e.message
  | delete e => "delete cache entry: " ++ e.message
  | prune e => "prune cache: " ++ e.message

/-- Whether a text can be a key: at least four lower-case hexadecimal digits. -/
def isKey (s : String) : Bool :=
  4 ≤ s.length && s.toList.all fun c => c.isDigit || ('a' ≤ c && c ≤ 'f')

namespace Folder

/-- The place of a path. -/
def placeOf (f : Folder) (p : Path) : Place :=
  (Path.absolute f.workingDir p.text).parts

/-- The path of the file of a key. -/
def filePath (f : Folder) (key : String) : Except FolderError Path :=
  if isKey key then .ok ((f.dir.join (String.ofList (key.toList.take 2))).join (key ++ ".json"))
  else .error (.badKey key)

/-- Makes a folder of the store if it is not there. -/
def ensure (f : Folder) (tree : FileTree) (dir : Path) : Except FolderError FileTree :=
  match tree.makePath f.workingDir dir with
  | (tree, none) => .ok tree
  | (_, some e) => .error (.create e)

/-- Makes the folder if it is not there. -/
def create (f : Folder) (tree : FileTree) : Except FolderError FileTree :=
  f.ensure tree f.dir

/-- The entry of a key. -/
def get? (f : Folder) (tree : FileTree) (key : String) : Option Entry :=
  match f.filePath key with
  | .error _ => none
  | .ok p =>
    match tree.node? (f.placeOf p) with
    | some (.file bytes) => (Record.read? bytes).map (·.entry)
    | _ => none

/-- Keeps an entry under a key. -/
def put (f : Folder) (tree : FileTree) (now : Instant) (key : String) (entry : Entry) :
    Except FolderError FileTree := do
  let p ← f.filePath key
  let tree ← f.ensure tree p.dir
  if FileTree.isLongName (p.base ++ ".0.tmp") then
    throw (.write ⟨"open", p.text ++ ".0.tmp", .nameTooLong⟩)
  if tree.isFolder (f.placeOf p) then throw (.write ⟨"rename", p.text, .taken⟩)
  return tree.setFile (f.placeOf p) (Text.bytes (Record.text ⟨formatVersion, now, entry⟩))

/-- Forgets a key. A key without entry is not an error. -/
def delete (f : Folder) (tree : FileTree) (key : String) : Except FolderError FileTree := do
  let p ← f.filePath key
  match tree.remove (f.placeOf p) with
  | .ok tree => return tree
  | .error .notFound => return tree
  | .error fault => throw (.delete ⟨"remove", p.text, fault⟩)

/-- Forgets everything. -/
def clear (f : Folder) (tree : FileTree) : FileTree :=
  (tree.removeAll (f.placeOf f.dir)).makeFolders (f.placeOf f.dir)

/-- Whether a file is an entry that was written at a moment or later. -/
def isCurrent (cutoff : Instant) (bytes : List UInt8) : Bool :=
  match Record.read? bytes with
  | some r => !r.created.isBefore cutoff
  | none => false

/-- The files of the store that are not current entries. -/
def stale (f : Folder) (tree : FileTree) (cutoff : Instant) : List Place :=
  (tree.files.filter fun (p, bytes) =>
    (f.placeOf f.dir).isPrefixOf p && Path.extension ((p.getLast?).getD "") == ".json" &&
      !isCurrent cutoff bytes).map (·.1)

/-- Removes the entries that were written before a moment, and tells how many there were. -/
def prune (f : Folder) (tree : FileTree) (cutoff : Instant) : Except FolderError (Nat × FileTree) :=
  if (tree.node? (f.placeOf f.dir)).isNone then .error (.prune ⟨"lstat", f.dir.text, .notFound⟩)
  else
    let old := f.stale tree cutoff
    .ok (old.length, old.foldl (fun t p => t.removeAll p) tree)

end Folder

end ErdSql.Cache
