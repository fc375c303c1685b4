import Uncomment.Files.Path
import Uncomment.Files.Tree

/-!
# Repositories

A directory is the root of a repository if it has an entry `.git` or `.jj`. A repository has an exclude
file, which lists what is ignored in it: usually in its directory `.git`. If `.git` is a file instead, its
first line names the directory of a work tree, and a file there names the directory that several work trees
share, where the exclude file is.
-/

namespace Uncomment

namespace Repository

/-- The names of the entries that make a directory the root of a repository. -/
def marks : List Text := [".git".toList, ".jj".toList]

/-- The entry of a repository that leads to its exclude file. -/
def entry : Text := ".git".toList

/-- Where the exclude file is in a directory of a repository. -/
def excludeFile : Text := "info/exclude".toList

/-- The directory of a work tree that a file `.git` names. -/
def workTree? (content : Bytes) : Option Text := do
  Text.dropStart? "gitdir: ".toList (← (Utf8.lines content).head?)

/-- The file in the directory of a work tree that names the shared directory. -/
def sharedFile (workTree : Text) : Text :=
  WrittenPath.extend workTree "commondir".toList

/-- The exclude file in the shared directory that such a file names. The directory is relative to the one
of the work tree only if its path begins with a point. -/
def sharedExclude? (workTree : Text) (content : Bytes) : Option Text := do
  let line ← (Utf8.lines content).head?
  let shared := if line.head? = some '.' then WrittenPath.extend workTree line else line
  return WrittenPath.extend shared excludeFile

end Repository

namespace FileTree

/-- Whether a path leads to anything. -/
def leadsSomewhere (tree : FileTree) (path : Text) : Bool :=
  (tree.resolve path).toBool

/-- Whether a directory is the root of a repository. -/
def isRepository (tree : FileTree) (folder : Text) : Bool :=
  Repository.marks.any fun name => tree.leadsSomewhere (WrittenPath.extend folder name)

/-- The content of the exclude file of a repository. Paths that lead to it from the file of a work tree
begin at the working directory, wherever the repository is. -/
def exclude? (tree : FileTree) (folder : Text) : Option Bytes :=
  let entry := WrittenPath.extend folder Repository.entry
  if tree.isFile entry then do
    let workTree ← Repository.workTree? (← (tree.read entry).toOption)
    let shared ← (tree.read (Repository.sharedFile workTree)).toOption
    (tree.read (← Repository.sharedExclude? workTree shared)).toOption
  else (tree.read (WrittenPath.extend entry Repository.excludeFile)).toOption

end FileTree

end Uncomment
