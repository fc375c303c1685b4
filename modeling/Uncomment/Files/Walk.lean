import Uncomment.Files.Ignore

/-!
# Searching directories

Searching a directory gives the source files below it. Entries the ignore files pass over are left out
with everything below them, and so are hidden directories unless an ignore file keeps them. What is
searched itself is never left out, not even a file that is no source. The path `-` stands for the input of
the command, so there is nothing to search.
-/

namespace Uncomment

/-- The ending of the names of source files. -/
def sourceEnding : Text := ".cs".toList

/-- Whether a name is hidden: it begins with a point and does not end with one. -/
def isHidden (name : Text) : Bool :=
  name.head? == some '.' && name.getLast? != some '.'

/-- Whether a path stands for the input of the command. -/
def standsForInput (path : Path) : Bool :=
  path == [.name ['-']]

namespace FileTree

/-- The files below a directory, each as the names that lead there from the directory. -/
def filesBelow (tree : FileTree) (folder : Location) : List Location :=
  tree.files.filterMap fun (file, _) =>
    if folder.isPrefixOf file && folder.length < file.length then some (file.drop folder.length)
    else none

/-- The directories below another one, each as the names that lead there. -/
def foldersBelow (tree : FileTree) (folder : Location) : List Location :=
  let places := tree.files.map (·.1.dropLast) ++ tree.folders
  let below := places.filterMap fun place =>
    if folder.isPrefixOf place then some (place.drop folder.length) else none
  below.flatMap fun names => (List.range names.length).map fun i => names.take (i + 1)

/-- Whether a search passes over a file. -/
def skipsFile (tree : FileTree) (entry : FoundEntry) : Bool :=
  tree.ignoreVerdict? entry false == some .ignored || !sourceEnding.isSuffixOf entry.name

/-- Whether a search passes over a directory. -/
def skipsFolder (tree : FileTree) (entry : FoundEntry) : Bool :=
  match tree.ignoreVerdict? entry true with
  | some .ignored => true
  | some .kept => false
  | none => isHidden entry.name

/-- Whether a search gives a file: it is not too deep, neither the file nor a directory on the way there is
passed over, and the paths of these directories are not too long to open them. -/
def isFound (tree : FileTree) (depthLimit : Option Nat) (entry : FoundEntry) : Bool :=
  let folders := (List.range (entry.names.length - 1)).map fun i => entry.ancestor (i + 1)
  depthLimit.all (entry.names.length ≤ ·) &&
    folders.all (fun folder => tree.isDirectory folder.path && !tree.skipsFolder folder) &&
    !tree.skipsFile entry

/-- The paths of the files a search gives, in order. A search for a file gives that file. -/
def search (tree : FileTree) (path : Text) (depthLimit : Option Nat) : List Text :=
  if standsForInput (.ofText path) then []
  else
    match tree.resolve path with
    | .error _ => []
    | .ok location =>
      if (tree.file? location).isSome then [path]
      else
        let entries := (tree.filesBelow location).map fun names => ⟨path, location, names⟩
        ((entries.filter (tree.isFound depthLimit)).map FoundEntry.path).mergeSort fun a b =>
          (Ord.compare a b).isLE

end FileTree

end Uncomment
