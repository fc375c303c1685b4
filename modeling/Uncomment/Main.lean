import Uncomment.Command.Run

/-!
# The command line

Loads files from disk, runs the command on them, and writes back what it changed. Everything the command
decides, it decides on the loaded files.

Loaded are the working directory, the directories of arguments that lie elsewhere, and the ignore files
of the directories around them. Symbolic links are not followed, and of a repository's own directory only
its exclude file and what may be a source are loaded.
-/

namespace Uncomment.CommandLine

/-- The path of a location. -/
def pathOf (location : Location) : String :=
  String.ofList location.path

/-- The location of a path from the root. -/
def locationOf (path : String) : Location :=
  FileTree.namesIn path.toList

/-- Whether a file can be opened for writing. -/
def canWrite (path : String) : IO Bool := do
  try
    let _ ← IO.FS.Handle.mk path .append
    return true
  catch _ => return false

/-- Loads a file. -/
def loadFile (location : Location) (tree : FileTree) : IO FileTree := do
  let path := pathOf location
  let file : StoredFile ←
    try
      let content ← IO.FS.readBinFile path
      pure { content := content.toList, writable := ← canWrite path }
    catch _ => pure { content := [], readable := false, writable := false }
  return { tree with files := (location, file) :: tree.files }

/-- Loads the file at a location if there is one, whatever links lead there. -/
def loadIfFile (location : Location) (tree : FileTree) : IO FileTree := do
  try
    let path ← IO.FS.realPath (pathOf location)
    if (← path.metadata).type == .file then loadFile location tree else return tree
  catch _ => return tree

/-- Where a path leads from the working directory. -/
def locationFrom (home : Location) (path : Text) : Location :=
  let start : Path := .root :: home.map .name
  (start.followedBy (.ofText path)).normalize.filterMap fun
    | .name text => some text
    | _ => none

/-- Loads the exclude file that a file in place of a repository's own directory leads to. -/
def loadShared (tree : FileTree) (content : Bytes) : IO FileTree := do
  let some workTree := Repository.workTree? content | return tree
  let sharedFile := Repository.sharedFile workTree
  let tree ← loadIfFile (locationFrom tree.home sharedFile) tree
  let .ok shared := tree.read sharedFile | return tree
  let some exclude := Repository.sharedExclude? workTree shared | return tree
  loadIfFile (locationFrom tree.home exclude) tree

/-- Loads what tells whether a directory is the root of a repository, and what is excluded there. -/
def loadRepository (folder : Location) (tree : FileTree) : IO FileTree := do
  let tree ← Repository.marks.foldlM (fun tree name => do
    let location := folder ++ [name]
    try
      match (← (← IO.FS.realPath (pathOf location)).metadata).type with
      | .dir => return { tree with folders := location :: tree.folders }
      | _ => loadFile location tree
    catch _ => return tree) tree
  let entry := folder ++ [Repository.entry]
  match tree.content? entry with
  | some content => loadShared tree content
  | none => loadIfFile (entry ++ FileTree.namesIn Repository.excludeFile) tree

/-- Loads the ignore files of the directories around another one. -/
def loadAround (folder : Location) (tree : FileTree) : IO FileTree :=
  (List.range folder.length).foldlM (fun tree depth => do
    let around := folder.take depth
    let tree ← (IgnoreKind.all.filterMap IgnoreKind.name?).foldlM (fun tree name =>
      loadIfFile (around ++ [name]) tree) tree
    loadRepository around tree) tree

/-- Whether a file in a repository's own directory can matter: it may be a source, or list some. -/
def mayMatter (name : Text) : Bool :=
  (SourceKind.ofPath? name).isSome || (IgnoreKind.all.filterMap IgnoreKind.name?).contains name

/-- Loads everything below a directory. -/
partial def loadFolder (folder : Location) (inRepository : Bool) (tree : FileTree) :
    IO FileTree := do
  let tree ← loadRepository folder { tree with folders := folder :: tree.folders }
  try
    let entries ← (← IO.FS.realPath (pathOf folder)).readDir
    entries.foldlM (fun tree entry => do
      let name := entry.fileName.toList
      let location := folder ++ [name]
      match (← entry.path.symlinkMetadata).type with
      | .file =>
        if (tree.file? location).isSome || (inRepository && !mayMatter name) then return tree
        else loadFile location tree
      | .dir => loadFolder location (inRepository || Repository.marks.contains name) tree
      | _ => return tree) tree
  catch _ => return tree

/-- Loads what an argument refers to, unless it is loaded already. -/
def loadArgument (tree : FileTree) (argument : Text) : IO FileTree := do
  try
    let path ← IO.FS.realPath (String.ofList argument)
    let location := locationOf path.toString
    if tree.home.isPrefixOf location then return tree
    let folder := if ← path.isDir then location else location.dropLast
    loadFolder folder false (← loadAround folder tree)
  catch _ => return tree

/-- Loads the files a run of the command may need. -/
def loadFiles (options : Options) : IO FileTree := do
  let home := locationOf (← IO.currentDir).toString
  let tree ← loadFolder home false (← loadAround home { home })
  (options.config.toList ++ options.paths.filter (· != ['-'])).foldlM loadArgument tree

/-- Writes the files whose content has changed. -/
def writeChanges (before after : FileTree) : IO Unit :=
  after.files.forM fun (location, file) =>
    if before.content? location == some file.content then pure ()
    else IO.FS.writeBinFile (pathOf location) ⟨file.content.toArray⟩

/-- Reads a stream to its end. -/
partial def readAll (stream : IO.FS.Stream) (before : ByteArray) : IO ByteArray := do
  let chunk ← stream.read 65536
  if chunk.isEmpty then return before else readAll stream (before ++ chunk)

/-- Runs the command on the files on disk. -/
def runOnDisk (options : Options) : IO UInt32 := do
  let start ← IO.monoMsNow
  let tree ← loadFiles options
  let input ←
    if options.paths.contains ['-'] then readAll (← IO.getStdin) .empty else pure .empty
  let report := run options tree input.toList
  writeChanges tree report.tree
  let output ← IO.getStdout
  output.write ⟨report.output.toArray⟩
  output.flush
  let colored := wantsColors (← IO.getEnv "CLICOLOR_FORCE") (← IO.getEnv "NO_COLOR")
    (← IO.getEnv "CLICOLOR") (← output.isTty)
  let seconds := inSeconds ((← IO.monoMsNow) - start)
  report.notices.forM fun notice => IO.eprint (notice.render colored seconds)
  return if report.success then 0 else 1

end Uncomment.CommandLine

/-- Runs the command with its arguments. -/
def main (arguments : List String) : IO UInt32 := do
  match Uncomment.Options.read (arguments.map String.toList) with
  | .run options => Uncomment.CommandLine.runOnDisk options
  | .version => do
    IO.print Uncomment.versionText
    return 0
  | .help => do
    IO.print Uncomment.helpText
    return 0
  | .misuse reason => do
    IO.eprintln ("error: " ++ reason.message)
    return 2
