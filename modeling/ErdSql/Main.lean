import ErdSql.CommandLine
import ErdSql.Digest.Sha256
import Std.Time.DateTime.Timestamp

/-!
# The program

Takes a picture of the files that a command line is about, runs it on the picture, and brings the files
up to date with the result.
-/

namespace ErdSql.Program

/-- The entry of the file system at a path. -/
def entryAt (p : Path) : IO.FS.DirEntry := ⟨p.dir.text, p.base⟩

/-- Adds a file or an empty folder to a picture; nothing is added for a path that leads nowhere. -/
def captureOne (tree : FileTree) (p : Path) : IO FileTree := do
  let path := (entryAt p).path
  if p.parts.isEmpty then return tree
  else if ← path.isDir then return tree.makeFolders p.parts
  else if ← path.pathExists then
    try
      let bytes ← IO.FS.readBinFile path
      return tree.setFile p.parts bytes.toList
    catch _ => return tree
  else return tree

/-- Adds a path and the folders on the way to it. -/
def capture (tree : FileTree) (p : Path) : IO FileTree :=
  (FileTree.ancestors p.parts ++ [p.parts]).foldlM (fun tree place => captureOne tree ⟨true, place⟩) tree

/-- Adds a path and everything below it. -/
partial def captureBelow (tree : FileTree) (p : Path) : IO FileTree := do
  let tree ← capture tree p
  if !tree.isFolder p.parts then return tree
  let names := ((← (entryAt p).path.readDir).map (·.fileName)).toList
  names.foldlM (fun tree name => captureBelow tree (p.join name)) tree

/-- Adds the configuration files above a folder. -/
def captureConfigs (tree : FileTree) (dir : Path) : IO FileTree :=
  (FileTree.ancestors dir.parts ++ [dir.parts]).foldlM
    (fun tree place => captureOne tree ⟨true, place ++ [Project.fileName]⟩) tree

/-- The files that a request is about. -/
def picture (t : CommandLine.Terminal) : CommandLine.Request → IO FileTree
  | .run .compile _ paths | .run .diff _ paths =>
    paths.foldlM (fun tree path => capture tree (Path.absolute t.workingDir path)) FileTree.empty
  | .run .help _ _ => return FileTree.empty
  | .run _ s _ => do
    let tree ← captureConfigs (← capture FileTree.empty t.workingDir) t.workingDir
    let folder := (Path.absolute t.workingDir (CommandLine.configPath t s tree)).dir
    let tree ← captureBelow tree folder
    if s.out == "" then return tree
    captureBelow tree (Path.absolute folder s.out)
  | _ => return FileTree.empty

/-- The text of a place. -/
def placeText (p : Place) : String := (Path.mk true p).text

/-- Brings the files up to date. -/
def apply (c : FileTree.Changes) : IO Unit := do
  for p in c.lostFiles do
    IO.FS.removeFile (placeText p)
  for p in c.lostFolders do
    IO.FS.removeDir (placeText p)
  for p in c.newFolders do
    IO.FS.createDirAll (placeText p)
  for (p, bytes) in c.newFiles do
    IO.FS.writeBinFile (placeText p) ⟨bytes.toArray⟩

/-- The present moment. -/
def now : IO Instant := do
  return ⟨(← Std.Time.Timestamp.now).toNanosecondsSinceUnixEpoch.val⟩

/-- The terminal that the program runs in. -/
def terminal : IO CommandLine.Terminal := do
  let now ← now
  let plain := (← IO.getEnv "NO_COLOR").getD "" != "" || (← IO.getEnv "TERM") == some "dumb"
  return {
    workingDir := Path.ofText (← IO.currentDir).toString
    now
    logTime := now.text
    hash := Digest.Sha256.hash
    hasColor := !plain && (← (← IO.getStderr).isTty) }

/-- Writes what a run has to say. -/
def speak (stdout : List UInt8) (stderr : String) : IO Unit := do
  (← IO.getStdout).write ⟨stdout.toArray⟩
  (← IO.getStderr).putStr stderr

/-- Builds the project again whenever one of its files changes. -/
partial def follow (request : CommandLine.Request) (s : CommandLine.Settings) (known : FileTree) :
    IO Unit := do
  let pause := if s.debounce.nanos ≤ 0 then Duration.milliseconds 200 else s.debounce
  IO.sleep (pause.nanos / 1000000 + 1).toNat.toUInt32
  let t ← terminal
  let tree ← picture t request
  match CommandLine.changedFile? known tree with
  | none => follow request s known
  | some path =>
    let report := CommandLine.rebuild t s path tree
    apply (tree.changes report.tree)
    speak report.stdout report.stderr
    follow request s report.tree

end ErdSql.Program

open ErdSql in
/-- Runs a command line and ends with its status. -/
def main (args : List String) : IO UInt32 := do
  let t ← Program.terminal
  let request := CommandLine.Request.ofWords args
  let tree ← match request with
    | .ok request => Program.picture t request
    | .error _ => pure FileTree.empty
  let result := CommandLine.run t args tree
  Program.apply (tree.changes result.tree)
  Program.speak result.stdout result.stderr
  match request, result.status with
  | .ok (.run .watch s arguments), 0 =>
    Program.follow (.run .watch s arguments) s result.tree
    return 0
  | _, status => return status.toUInt32
