import Uncomment.Encoding.Utf8

/-!
# Files

The files as a value: each file is found under the names that lead to it from the root, and the
directories are those that hold something, or are listed as empty. One of the directories is the working
directory, where paths begin that do not begin at the root.

A file has a content and may refuse to be read or to be written. Reading and writing fail or succeed as
a whole: a failed write leaves everything as it is.

Looking up a path follows it piece by piece, as an operating system does: every piece but the last has
to be a directory, and so has the last if a slash follows it. Paths and names have a greatest length, and
no path holds the character NUL.
-/

namespace Uncomment

/-- Why a file could not be read or written. -/
inductive IoError where
  | notFound
  | denied
  | notDirectory
  | isDirectory
  /-- A path or a name in it is too long. -/
  | nameTooLong
  /-- A path holds the character NUL. -/
  | nulInName
  /-- A file that has to be UTF-8 is not. -/
  | invalidText
  deriving DecidableEq, Repr

/-- The wording of the reason. -/
def IoError.message : IoError → String
  | notFound => "No such file or directory (os error 2)"
  | denied => "Permission denied (os error 13)"
  | notDirectory => "Not a directory (os error 20)"
  | isDirectory => "Is a directory (os error 21)"
  | nameTooLong => "File name too long (os error 36)"
  | nulInName => "file name contained an unexpected NUL byte"
  | invalidText => "stream did not contain valid UTF-8"

/-- The names that lead from the root to a file or directory. -/
abbrev Location := List Text

/-- The path of a location from the root. -/
def Location.path (location : Location) : Text :=
  '/' :: Text.join ['/'] location

/-- A file: its content, and whether it may be read and written. -/
structure StoredFile where
  content : Bytes
  readable : Bool := true
  writable : Bool := true
  deriving DecidableEq, Repr

/-- Files and directories. -/
structure FileTree where
  /-- The working directory. -/
  home : Location := []
  files : List (Location × StoredFile) := []
  /-- Directories that may hold nothing. -/
  folders : List Location := []
  deriving DecidableEq, Repr

namespace FileTree

/-- The names in a path that has no `..` in it. -/
def namesIn (path : Text) : Location :=
  (Text.splitAt '/' path).filter fun piece => piece ≠ [] ∧ piece ≠ ['.']

/-- The tree of files that are listed by their paths from the working directory. A path that ends with a
slash is a directory. -/
def ofList (home : Location) (entries : List (Text × Bytes)) : FileTree :=
  { home
    files := (entries.filter fun (path, _) => path.getLast? ≠ some '/').map fun (path, content) =>
      (home ++ namesIn path, { content })
    folders := (entries.filter fun (path, _) => path.getLast? = some '/').map fun (path, _) =>
      home ++ namesIn path }

/-- The file at a location. -/
def file? (tree : FileTree) (location : Location) : Option StoredFile :=
  (tree.files.find? (·.1 == location)).map (·.2)

/-- The content of the file at a location. -/
def content? (tree : FileTree) (location : Location) : Option Bytes :=
  (tree.file? location).map StoredFile.content

/-- Whether a directory is at a location: the working directory or one around it, one that is listed or
around a listed one, or one that holds a file. -/
def isFolder (tree : FileTree) (location : Location) : Bool :=
  location.isPrefixOf tree.home || tree.folders.any (location.isPrefixOf ·) ||
    tree.files.any fun (file, _) => location.isPrefixOf file && location != file

/-- Whether anything is at a location. -/
def isPresent (tree : FileTree) (location : Location) : Bool :=
  (tree.file? location).isSome || tree.isFolder location

/-- The tree with another content of a file, or with a new one. -/
def put (tree : FileTree) (location : Location) (content : Bytes) : FileTree :=
  if (tree.file? location).isSome then
    { tree with files := tree.files.map fun (place, file) =>
        (place, if place == location then { file with content } else file) }
  else { tree with files := tree.files ++ [(location, { content })] }

/-! ## Looking up paths -/

/-- The greatest number of bytes in a name. -/
def nameLimit : Nat := 255

/-- The greatest number of bytes in a path. -/
def pathLimit : Nat := 4095

/-- Follows one piece of a path. It has to begin at a directory, even to stay there. The root is its own
parent. -/
def follow (tree : FileTree) (location : Location) (piece : Text) : Except IoError Location :=
  if !tree.isFolder location then .error .notDirectory
  else if piece = [] ∨ piece = ['.'] then .ok location
  else if piece = ['.', '.'] then .ok location.dropLast
  else if nameLimit < Text.width piece then .error .nameTooLong
  else if tree.isPresent (location ++ [piece]) then .ok (location ++ [piece])
  else .error .notFound

/-- Where a path leads. The empty path leads nowhere. -/
def resolve (tree : FileTree) (path : Text) : Except IoError Location :=
  if path.contains '\x00' then .error .nulInName
  else if pathLimit < Text.width path then .error .nameTooLong
  else
    match path with
    | [] => .error .notFound
    | '/' :: _ => (Text.splitAt '/' path).foldlM tree.follow []
    | _ => (Text.splitAt '/' path).foldlM tree.follow tree.home

/-- The file a path leads to, and where it is. -/
def locate (tree : FileTree) (path : Text) : Except IoError (Location × StoredFile) :=
  match tree.resolve path with
  | .error cause => .error cause
  | .ok location =>
    match tree.file? location with
    | some file => .ok (location, file)
    | none => .error .isDirectory

/-- The content of a file. -/
def read (tree : FileTree) (path : Text) : Except IoError Bytes :=
  match tree.locate path with
  | .error cause => .error cause
  | .ok (_, file) => if file.readable then .ok file.content else .error .denied

/-- The tree with another content of a file. -/
def write (tree : FileTree) (path : Text) (content : Bytes) : Except IoError FileTree :=
  match tree.locate path with
  | .error cause => .error cause
  | .ok (location, file) => if file.writable then .ok (tree.put location content) else .error .denied

/-- The content of a file that has to be UTF-8. -/
def readText (tree : FileTree) (path : Text) : Except IoError Text :=
  match tree.read path with
  | .error cause => .error cause
  | .ok content =>
    match Utf8.decode content with
    | .ok t => .ok t
    | .error _ => .error .invalidText

/-- Whether a path leads to a file. -/
def isFile (tree : FileTree) (path : Text) : Bool :=
  (tree.locate path).toBool

/-- Whether a path leads to a directory. -/
def isDirectory (tree : FileTree) (path : Text) : Bool :=
  match tree.resolve path with
  | .ok location => tree.isFolder location
  | .error _ => false

end FileTree

end Uncomment
