import Uncomment.Files.Walk
import Uncomment.Log
import Uncomment.Project.Items
import Uncomment.Project.Solution
import Uncomment.Xml.Document

/-!
# Selecting source files

A path selects source files by its extension: a source file selects itself, a project file the files it
compiles, and a solution file those of all projects it names. The files are given in order, each once.
-/

namespace Uncomment

/-- Why no source files could be selected. -/
inductive SelectionError where
  | unsupported (path : Text)
  | unreadable (path : Text) (cause : IoError)
  /-- A project file is no document. -/
  | malformed (path : Text)
  /-- The directory of a project could not be searched to its end. -/
  | unsearchable (path : Text) (cause : IoError)
  deriving DecidableEq, Repr

/-- The wording of the reason. -/
def SelectionError.message : SelectionError → String
  | unsupported path =>
    "Invalid file type `" ++ String.ofList path ++ "`. Supported extensions: sln, csproj, cs."
  | unreadable path cause => "Unable to read `" ++ String.ofList path ++ "`: " ++ cause.message
  | malformed path =>
    "Unable to read the project file `" ++ String.ofList path ++ "`: not a well-formed document"
  | unsearchable path cause =>
    "Unable to list the source files under `" ++ String.ofList path ++ "`: " ++ cause.message

/-- The reason behind a reason. -/
def SelectionError.cause? : SelectionError → Option String
  | unreadable _ cause | unsearchable _ cause => some cause.message
  | unsupported _ | malformed _ => none

/-- What a path can select sources through. -/
inductive SourceKind where
  | solution
  | project
  | source
  deriving DecidableEq, Repr

/-- The kind of a path by its extension, ignoring case. -/
def SourceKind.ofPath? (path : Text) : Option SourceKind :=
  match (Path.extension? (.ofText path)).map fun e => String.ofList (Text.toLowerAscii e) with
  | some "sln" => some solution
  | some "csproj" => some project
  | some "cs" => some source
  | _ => none

namespace FileTree

/-- The names of directories that hold what was built, not what it is built from. -/
def outputFolders : List Text := ["bin".toList, "obj".toList]

/-- Whether what names lead to below the directory of a project is searched. -/
def isSearched (names : Location) : Bool :=
  !names.any outputFolders.contains

/-- The source files below the directory of a project, whatever the case of their extension. It fails if
the path of a directory is too long to open it. -/
def defaultSources (tree : FileTree) (directory : Path) : Except SelectionError (List Path) :=
  match tree.resolve directory.toText, standsForInput directory with
  | .error _, _ | _, true => .ok []
  | .ok folder, false =>
    let isTooLong (names : Location) : Bool :=
      pathLimit < Text.width (names.foldl WrittenPath.extend directory.toText)
    if (tree.foldersBelow folder).any fun names => isSearched names && isTooLong names then
      .error (.unsearchable directory.toText .nameTooLong)
    else
      .ok (((tree.filesBelow folder).filter fun names =>
          hasExtension (names.getLastD []) "cs".toList && isSearched names.dropLast).map fun names =>
        Path.normalize (directory ++ names.map .name))

/-- A file that lists others, as a text. -/
def readManifest (tree : FileTree) (path : Text) : Except SelectionError Text :=
  match tree.readText path with
  | .ok t => .ok t
  | .error cause => .error (.unreadable path cause)

/-- The files of a project, in no order and perhaps more than once. -/
def projectFiles (tree : FileTree) (path : Text) : Except SelectionError (List Path) := do
  let t ← tree.readManifest path
  let some document := Xml.parse? t | .error (.malformed path)
  let directory := Path.directory (.ofText path)
  let below ← if Project.compilesDefaults document then tree.defaultSources directory else .ok []
  return Project.files directory document below

/-- The source files of a project. -/
def projectSources (tree : FileTree) (path : Text) : Except SelectionError (List Path) :=
  (tree.projectFiles path).map Path.sortedSet

/-- The project files of a solution. -/
def solutionProjects (tree : FileTree) (path : Text) : Except SelectionError (List Path) :=
  (tree.readManifest path).map (Solution.projects (Path.directory (.ofText path)))

/-- The source files of a solution: those of all its projects. -/
def solutionSources (tree : FileTree) (path : Text) : Except SelectionError (List Path) := do
  let projects ← tree.solutionProjects path
  let sources ← projects.mapM fun project => tree.projectSources project.toText
  return Path.sortedSet sources.flatten

/-- The source files a path selects. -/
def selectSources (tree : FileTree) (path : Text) : Except SelectionError (List Text) :=
  match SourceKind.ofPath? path with
  | none => .error (.unsupported path)
  | some .source => .ok [path]
  | some .project => (tree.projectSources path).map (·.map Path.toText)
  | some .solution => (tree.solutionSources path).map (·.map Path.toText)

/-! ## The log -/

/-- What is logged about projects, up to the first that fails. -/
def projectsLog (tree : FileTree) : List Text → List LogEntry
  | [] => []
  | path :: rest =>
    match tree.projectFiles path with
    | .ok files => .foundSources files.length path :: tree.projectsLog rest
    | .error _ => []

/-- What is logged when sources are selected. -/
def selectionLog (tree : FileTree) (path : Text) : List LogEntry :=
  match SourceKind.ofPath? path with
  | none | some .source => []
  | some .project => tree.projectsLog [path]
  | some .solution =>
    match tree.solutionProjects path with
    | .ok projects => tree.projectsLog (projects.map Path.toText)
    | .error _ => []

end FileTree

end Uncomment
