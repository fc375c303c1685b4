import Uncomment.Text.CharClass

/-!
# Paths

A path is a text cut at slashes into parts: the root, the current directory, the parent directory, and
names. Empty parts mean nothing, and the current directory means something only at the start.

A path is **normal** when its parts are an optional root, then parent directories, then names. Resolving
`.` and `..` in a path without looking at any file makes it normal.
-/

namespace Uncomment

/-- A part of a path. -/
inductive PathPart where
  | root
  | current
  | parent
  | name (text : Text)
  deriving DecidableEq, Repr

namespace PathPart

/-- The text of a part between slashes. -/
def text : PathPart → Text
  | root => []
  | current => ['.']
  | parent => ['.', '.']
  | name text => text

/-- The place of each sort of part in the order. -/
def rank : PathPart → Nat
  | root => 0
  | current => 1
  | parent => 2
  | name _ => 3

/-- Parts are ordered by what they are, names among themselves by their text. -/
def compare : PathPart → PathPart → Ordering
  | name a, name b => Ord.compare a b
  | a, b => Ord.compare a.rank b.rank

instance : Ord PathPart := ⟨compare⟩

end PathPart

/-- The parts of a path. -/
abbrev Path := List PathPart

namespace Path

/-- The part written between two slashes; nothing for an empty one and for `.`. -/
def partOf? (piece : Text) : Option PathPart :=
  if piece = [] ∨ piece = ['.'] then none
  else if piece = ['.', '.'] then some .parent
  else some (.name piece)

/-- The parts of a path written as a text. -/
def ofText (t : Text) : Path :=
  let pieces := Text.splitAt '/' t
  let start : Path :=
    match pieces with
    | [] :: _ :: _ => [.root]
    | ['.'] :: _ => [.current]
    | _ => []
  start ++ pieces.filterMap partOf?

/-- The path as a text. -/
def toText : Path → Text
  | .root :: rest => '/' :: Text.join ['/'] (rest.map PathPart.text)
  | path => Text.join ['/'] (path.map PathPart.text)

/-- Adds a part to a resolved path, the last part of which comes first here. A parent directory takes a
name away; it stays where there is none. -/
def resolveStep (resolved : Path) : PathPart → Path
  | .current => resolved
  | .parent =>
    match resolved with
    | .name _ :: rest => rest
    | _ => .parent :: resolved
  | part => part :: resolved

/-- Resolves `.` and `..` without looking at any file. -/
def normalize (path : Path) : Path :=
  (path.foldl resolveStep []).reverse

/-- A path followed from another one: an absolute path stands for itself. -/
def followedBy (base relative : Path) : Path :=
  match relative with
  | .root :: _ => relative
  | _ => base ++ relative

/-- The name of the file a path leads to, if its last part is a name. -/
def fileName? (path : Path) : Option Text :=
  match path.getLast? with
  | some (.name text) => some text
  | _ => none

/-- What follows the last point of the file name. A point at the start of the name does not count. -/
def extension? (path : Path) : Option Text := do
  let name ← path.fileName?
  let (stem, extension) ← Text.cutLast? '.' name
  if stem.isEmpty then none else some extension

/-- The directory of a path, the current one if the path has a single part. -/
def directory (path : Path) : Path :=
  match path.dropLast with
  | [] => [.current]
  | parts => parts

/-- Paths are ordered part by part. -/
def le (a b : Path) : Bool :=
  (Ord.compare a b).isLE

/-- Paths in order, each once. -/
def sortedSet (paths : List Path) : List Path :=
  dedup (paths.mergeSort le)
where
  /-- Drops a path that equals the one after it. -/
  dedup : List Path → List Path
    | a :: b :: rest => if a = b then dedup (b :: rest) else a :: dedup (b :: rest)
    | paths => paths

end Path

/-! ## Paths as they are written -/

namespace WrittenPath

/-- A path followed by a relative one. -/
def extend (path relative : Text) : Text :=
  if path.isEmpty || path.getLast? == some '/' then path ++ relative else path ++ '/' :: relative

/-- A path without `./` at its start. -/
def withoutDot (path : Text) : Text :=
  (Text.dropStart? ['.', '/'] path).getD path

/-- The path of an entry as it is seen from a directory around it. The directory is taken off the path
only if the path begins with it, letter by letter; a `./` at the start counts for nothing, and a second one
only in the path of the entry. -/
def within (folder entry : Text) : Text :=
  let folder := withoutDot folder
  let entry := withoutDot (withoutDot entry)
  if folder = ['.'] ∨ '/' ∉ entry then entry
  else
    match Text.dropStart? folder entry with
    | some rest => (Text.dropStart? ['/'] rest).getD rest
    | none => entry

end WrittenPath

/-- Whether a name has an extension, ignoring case. A name that is only the extension has it too. -/
def hasExtension (name extension : Text) : Bool :=
  match Text.cutLast? '.' name with
  | some (_, found) => Text.sameIgnoringCase found extension
  | none => false

/-- Resolves a path written in a manifest, possibly with backslashes, against the manifest's
directory. -/
def resolveManifestPath (base : Path) (written : Text) : Path :=
  let slashed := (Text.trim written).map fun c => if c = '\\' then '/' else c
  (base.followedBy (.ofText slashed)).normalize

end Uncomment
