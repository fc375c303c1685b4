import Uncomment.Files.IgnoreRule
import Uncomment.Files.Repository

/-!
# Ignore files

A directory has up to four ignore files: the one of this program, a general one, and the two of a
repository.

The rules for an entry come from its directory and those around it. Of the ignore files of one kind, the
one nearest to the entry that says something about it decides; among the kinds, the first that says
something. Rules see the path of an entry from the directory of their file: below the directory that is
searched, by the paths as they are written, and around it by where things are.
-/

namespace Uncomment

/-- The kinds of ignore files, the one that decides first coming first. -/
inductive IgnoreKind where
  | ofProgram
  | general
  | ofRepository
  | excluded
  deriving DecidableEq, Repr

namespace IgnoreKind

/-- All kinds. -/
def all : List IgnoreKind := [ofProgram, general, ofRepository, excluded]

/-- The name of the file of a kind in its directory. The exclude file is elsewhere. -/
def name? : IgnoreKind → Option Text
  | ofProgram => some ".cstripignore".toList
  | general => some ".ignore".toList
  | ofRepository => some ".gitignore".toList
  | excluded => none

/-- Whether a kind counts inside a repository only. -/
def needsRepository : IgnoreKind → Bool
  | ofProgram | general => false
  | ofRepository | excluded => true

end IgnoreKind

/-- An entry below a directory that is searched. -/
structure FoundEntry where
  /-- The path of the directory that is searched, as it is written. -/
  root : Text
  /-- Where that directory is. -/
  location : Location
  /-- The names that lead from there to the entry. -/
  names : Location
  deriving DecidableEq, Repr

namespace FoundEntry

/-- The path of the entry after some of its names. -/
def pathAfter (entry : FoundEntry) (depth : Nat) : Text :=
  (entry.names.take depth).foldl WrittenPath.extend entry.root

/-- The path of the entry. -/
def path (entry : FoundEntry) : Text :=
  entry.pathAfter entry.names.length

/-- The name of the entry. -/
def name (entry : FoundEntry) : Text :=
  entry.names.getLastD []

/-- The entry after some of its names. -/
def ancestor (entry : FoundEntry) (depth : Nat) : FoundEntry :=
  { entry with names := entry.names.take depth }

end FoundEntry

/-- A directory around an entry, and the path of the entry from there. -/
structure Surrounding where
  /-- The path of the directory. -/
  folder : Text
  path : Bytes
  deriving DecidableEq, Repr

/-- The directories around an entry, the nearest first: those below the directory that is searched, that
directory, and those around it. -/
def FoundEntry.surroundings (entry : FoundEntry) : List Surrounding :=
  let inside := (List.range entry.names.length).reverse.map fun depth =>
    { folder := entry.pathAfter depth
      path := Utf8.encode (WrittenPath.within (entry.pathAfter depth) entry.path) }
  let around := (List.range entry.location.length).reverse.map fun depth =>
    { folder := Location.path (entry.location.take depth)
      path := Utf8.encode (Text.join ['/'] (entry.location.drop depth ++ entry.names)) }
  inside ++ around

namespace FileTree

/-- The rules in the ignore file of a kind in a directory. -/
def rulesIn (tree : FileTree) (kind : IgnoreKind) (folder : Text) : List IgnoreRule :=
  let content :=
    match kind.name? with
    | some name => (tree.read (WrittenPath.extend folder name)).toOption
    | none => tree.exclude? folder
  (content.map ignoreRules).getD []

/-- The directories up to the first root of a repository. -/
def insideRepository (tree : FileTree) : List Surrounding → List Surrounding
  | [] => []
  | near :: rest =>
    if tree.isRepository near.folder then [near]
    else
      match tree.insideRepository rest with
      | [] => []
      | found => near :: found

/-- The directories whose ignore files of a kind count for an entry. -/
def relevant (tree : FileTree) (kind : IgnoreKind) (entry : FoundEntry) : List Surrounding :=
  if kind.needsRepository then tree.insideRepository entry.surroundings else entry.surroundings

/-- What the ignore files of a kind say about an entry. -/
def verdictOf? (tree : FileTree) (kind : IgnoreKind) (entry : FoundEntry) (isFolder : Bool) :
    Option Verdict :=
  (tree.relevant kind entry).findSome? fun around =>
    verdict? (tree.rulesIn kind around.folder) isFolder around.path

/-- What the ignore files say about an entry. -/
def ignoreVerdict? (tree : FileTree) (entry : FoundEntry) (isFolder : Bool) : Option Verdict :=
  IgnoreKind.all.findSome? fun kind => tree.verdictOf? kind entry isFolder

end FileTree

end Uncomment
