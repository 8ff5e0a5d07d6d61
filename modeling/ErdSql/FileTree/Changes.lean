import ErdSql.FileTree

/-!
# Changes between file trees

What has to be done to files and folders so that one tree becomes another.
-/

namespace ErdSql.FileTree

/-- Steps from one tree to another, in the order in which they are taken. -/
structure Changes where
  /-- Files that are gone. -/
  lostFiles : List Place
  /-- Folders that are gone, each behind the folders in it. -/
  lostFolders : List Place
  /-- Folders that are new. -/
  newFolders : List Place
  /-- Files that are new or have another content. -/
  newFiles : List (Place × List UInt8)
  deriving DecidableEq, Inhabited

/-- The steps from one tree to another. -/
def changes (old new : FileTree) : Changes where
  lostFiles := (old.files.map (·.1)).filter fun p => (new.files.lookup p).isNone
  lostFolders := (old.folders.filter fun p => !new.folders.contains p).mergeSort
    fun a b => a.length ≥ b.length
  newFolders := new.folders.filter fun p => !old.folders.contains p
  newFiles := new.files.filter fun (p, bytes) => old.files.lookup p != some bytes

/-- The places of files that were added, changed or removed. -/
def Changes.files (c : Changes) : List Place :=
  c.newFiles.map (·.1) ++ c.lostFiles

end ErdSql.FileTree
