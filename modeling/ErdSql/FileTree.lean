import ErdSql.Path

/-!
# File trees

Files and folders as a value. A place is the list of names that lead to it from the root.
-/

namespace ErdSql

/-- The names that lead to a file or folder from the root. -/
abbrev Place := List String

/-- Why something cannot be done with a file or folder. -/
inductive FileFault where
  | notFound
  | notFolder
  | isFolder
  | notEmpty
  | taken
  | invalid
  | nameTooLong
  deriving DecidableEq, Inhabited

/-- The wording of a fault. -/
def FileFault.message : FileFault → String
  | notFound => "no such file or directory"
  | notFolder => "not a directory"
  | isFolder => "is a directory"
  | notEmpty => "directory not empty"
  | taken => "file exists"
  | invalid => "invalid argument"
  | nameTooLong => "file name too long"

/-- What could not be done, with which path, and why. -/
structure PathError where
  action : String
  path : String
  fault : FileFault
  deriving DecidableEq, Inhabited

/-- The wording of an error. -/
def PathError.message (e : PathError) : String :=
  e.action ++ " " ++ e.path ++ ": " ++ e.fault.message

/-- Files with their contents, and folders. The root is always a folder. -/
structure FileTree where
  files : List (Place × List UInt8)
  folders : List Place
  deriving DecidableEq, Inhabited

namespace FileTree

/-- What stands at a place. -/
inductive Node where
  | file (bytes : List UInt8)
  | folder
  deriving DecidableEq, Inhabited

/-- The tree with nothing in it. -/
def empty : FileTree := ⟨[], []⟩

/-- What stands at a place. -/
def node? (t : FileTree) (p : Place) : Option Node :=
  if p.isEmpty || t.folders.contains p then some .folder
  else (t.files.lookup p).map .file

/-- Whether a place is a folder. -/
def isFolder (t : FileTree) (p : Place) : Bool :=
  t.node? p == some .folder

/-- All places but the root. -/
def places (t : FileTree) : List Place :=
  t.folders ++ t.files.map (·.1)

/-- A place and everything below it. -/
def below (t : FileTree) (p : Place) : List Place :=
  ([] :: t.places).filter fun q => p.isPrefixOf q && (t.node? q).isSome

/-- The names in a folder. -/
def names (t : FileTree) (p : Place) : List String :=
  t.places.filterMap fun q =>
    if q.length == p.length + 1 && p.isPrefixOf q then q.getLast? else none

/-- The folders on the way to a place, from the root down. -/
def ancestors (p : Place) : List Place :=
  (List.range p.length).map p.take

/-- Whether a name has more bytes than a file or folder can have. -/
def isLongName (name : String) : Bool := name.utf8ByteSize > 255

/-- Why no text of this spelling can name anything: it has a character that ends texts elsewhere, or it
has too many bytes. -/
def unusable? (s : String) : Option FileFault :=
  if Text.contains s '\x00' then some .invalid
  else if s.utf8ByteSize > 4095 then some .nameTooLong
  else none

/-- Follows names from a place. What stands behind the last name need not exist. -/
def follow (t : FileTree) (here : Place) : List String → Except FileFault Place
  | [] => .ok here
  | name :: rest =>
    match t.node? here with
    | none => .error .notFound
    | some (.file _) => .error .notFolder
    | some .folder =>
      if name == "" || name == "." then t.follow here rest
      else if name == ".." then t.follow here.dropLast rest
      else if isLongName name then .error .nameTooLong
      else t.follow (here ++ [name]) rest

/-- The place that a text names from a working directory. -/
def locate (t : FileTree) (workingDir : Path) (s : String) : Except FileFault Place :=
  match unusable? s with
  | some fault => .error fault
  | none =>
    if s == "" then .error .notFound
    else t.follow (if Path.isRooted s then [] else workingDir.parts) (Text.splitAt '/' s)

/-- What a text names. -/
def find (t : FileTree) (workingDir : Path) (s : String) : Except FileFault Node := do
  let p ← t.locate workingDir s
  match t.node? p with
  | some node => return node
  | none => throw .notFound

/-- The place where a text says that a file is to stand. A folder does not give way to a file. -/
def target (t : FileTree) (workingDir : Path) (s : String) : Except FileFault Place := do
  let p ← t.locate workingDir s
  if t.isFolder p then throw .taken
  return p

/-- The contents of a file. -/
def read (t : FileTree) (workingDir : Path) (s : String) : Except PathError (List UInt8) :=
  match t.find workingDir s with
  | .ok (.file bytes) => .ok bytes
  | .ok .folder => .error ⟨"read", s, .isFolder⟩
  | .error fault => .error ⟨"open", s, fault⟩

/-- The contents of the file at a path. -/
def readPath (t : FileTree) (p : Path) : Except PathError (List UInt8) :=
  t.read ⟨true, []⟩ p.text

/-- The first file among a place and the folders on the way to it. -/
def blocking? (t : FileTree) (p : Place) : Option Place :=
  (ancestors p ++ [p]).find? fun q => (t.files.lookup q).isSome

/-- The tree with a folder at a place and all folders on the way, unless a file is among them. -/
def makeFolders (t : FileTree) (p : Place) : FileTree :=
  if (t.blocking? p).isSome then t
  else
    let missing := (ancestors p ++ [p]).filter fun q => !q.isEmpty && !t.folders.contains q
    { t with folders := t.folders ++ missing }

/-- The tree with a folder at a path, whose folder is there already. A file in its place is an error,
and so is a name that no folder can have. -/
def makeFolder (t : FileTree) (workingDir p : Path) : Except PathError FileTree :=
  let place := (Path.absolute workingDir p.text).parts
  let fail (fault : FileFault) : Except PathError FileTree := .error ⟨"mkdir", p.text, fault⟩
  match t.node? place, unusable? p.text with
  | some .folder, _ => .ok t
  | some (.file _), _ => fail .notFolder
  | none, some fault => fail fault
  | none, none =>
    if isLongName p.base then fail .nameTooLong
    else .ok { t with folders := t.folders ++ [place] }

/-- The tree with a folder at a path and all folders on the way, as far as they can be made, and what
stopped the making. -/
def makePath (t : FileTree) (workingDir p : Path) : FileTree × Option PathError :=
  ((List.range p.parts.length).map fun n => Path.mk p.rooted (p.parts.take (n + 1))).foldl
    (fun (t, error) q =>
      match error with
      | some e => (t, some e)
      | none =>
        match t.makeFolder workingDir q with
        | .ok t => (t, none)
        | .error e => (t, some e))
    (t, none)

/-- The tree with a file at a place, in place of the one before. -/
def setFile (t : FileTree) (p : Place) (bytes : List UInt8) : FileTree :=
  { t with files := (p, bytes) :: t.files.filter fun f => f.1 != p }

/-- The tree with a file at a place and the folders on the way. -/
def write (t : FileTree) (p : Place) (bytes : List UInt8) : FileTree :=
  (t.makeFolders p.dropLast).setFile p bytes

/-- The tree without a place and everything below it. -/
def removeAll (t : FileTree) (p : Place) : FileTree :=
  ⟨t.files.filter fun f => !p.isPrefixOf f.1, t.folders.filter fun q => !p.isPrefixOf q⟩

/-- Removes a file or an empty folder. -/
def remove (t : FileTree) (p : Place) : Except FileFault FileTree :=
  match t.follow [] p with
  | .error fault => .error fault
  | .ok _ =>
    match t.node? p with
    | none => .error .notFound
    | some (.file _) => .ok (t.removeAll p)
    | some .folder => if (t.names p).isEmpty then .ok (t.removeAll p) else .error .notEmpty

end FileTree

end ErdSql
