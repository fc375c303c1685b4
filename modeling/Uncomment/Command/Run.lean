import Uncomment.Command.Notice
import Uncomment.Command.Options

/-!
# Running the command

The command loads its settings and finds out what each path stands for: the input, a directory to search,
or source files. If any of this fails, nothing is stripped. Then it strips one file after the other; a file
that fails does not keep it from the rest.

In check mode nothing is written, and the command fails if anything would change.
-/

namespace Uncomment

/-- What happened to an input. -/
inductive Status where
  | unchanged
  | changed
  | failed
  deriving DecidableEq, Repr

/-- What stripping an input does besides writing it back. -/
structure Effect where
  status : Status
  output : Bytes := []
  notices : List Notice := []
  deriving DecidableEq, Repr

/-- What a path stands for. -/
inductive Job where
  | input
  | folder (path : Text)
  | files (paths : List Text)
  deriving DecidableEq, Repr

namespace Options

/-- The settings to use: flags go before what is configured. -/
def settings (options : Options) (tree : FileTree) : Except RunError Settings :=
  let adjust (settings : Settings) :=
    (settings.withKeepHeader (if options.has .stripHeader then some false else none)).withStripDocs
      (if options.has .keepDocs then some false else none)
  match options.config with
  | some path =>
    match Settings.load tree path with
    | .ok loaded => .ok (adjust loaded)
    | .error cause => .error (.settings (some path) cause)
  | none =>
    match Settings.loadFrom tree ['.'] with
    | .ok loaded => .ok (adjust (loaded.getD {}))
    | .error cause => .error (.settings none cause)

/-- The paths to strip: the working directory if none is given. -/
def targets (options : Options) : List Text :=
  if options.paths.isEmpty then [['.']] else options.paths

end Options

/-- What a path stands for. -/
def Job.ofPath (tree : FileTree) (path : Text) : Except RunError Job :=
  if path = ['-'] then .ok .input
  else if tree.isDirectory path then .ok (.folder path)
  else
    match tree.selectSources path with
    | .ok paths => .ok (.files paths)
    | .error cause => .error (.selection path cause)

/-- The notice about an input that could not be stripped. -/
def failureNotice (options : Options) (name : String) : StripError → Notice
  | .rejected entries => .rejected name (if options.has .printErrors then some entries else none)
  | error => .failed name error

/-! ## Files -/

/-- What is reported about a stripped file. -/
def fileEffect (options : Options) (path : Text) (result : Except StripError Outcome) : Effect :=
  let progress := if options.has .verbose then [Notice.stripping path] else []
  match result with
  | .ok (.identical _) => { status := .unchanged, notices := progress }
  | .ok (.changed before after) =>
    { status := .changed
      output := if options.has .check then Utf8.encode (shownDifference path before after) else []
      notices := progress }
  | .error error =>
    { status := .failed
      notices := progress ++ [failureNotice options (String.ofList path) error] }

/-- Whether files are written. -/
def Options.writeBack (options : Options) : WriteBack :=
  if options.has .check then .never else .whenChanged

/-- Strips a file: the files afterwards, and what is reported. -/
def runFile (options : Options) (settings : Settings) (tree : FileTree) (path : Text) :
    FileTree × Effect :=
  let (tree, result) := tree.strip options.writeBack settings path
  (tree, fileEffect options path result)

/-- Strips files one after the other. -/
def runFiles (options : Options) (settings : Settings) (tree : FileTree) :
    List Text → FileTree × List Effect
  | [] => (tree, [])
  | path :: rest =>
    let (tree, effect) := runFile options settings tree path
    let (tree, effects) := runFiles options settings tree rest
    (tree, effect :: effects)

/-- The files of a job, if it has files. -/
def Job.paths (options : Options) (tree : FileTree) : Job → List Text
  | .input => []
  | .folder path => tree.search path (if options.has .recursive then none else some 1)
  | .files paths => paths

/-! ## The input -/

/-- What is reported about the stripped input. In check mode the difference is put out, otherwise the
result. -/
def inputEffect (options : Options) (settings : Settings) (input : Bytes) : Effect :=
  match stripBytes "<stdin>" settings input with
  | .error error =>
    { status := .failed, notices := [failureNotice options "standard input" error] }
  | .ok result =>
    let stripped := if options.has .check then [] else result.toBytes
    match result.outcome with
    | .identical _ => { status := .unchanged, output := stripped }
    | .changed before after =>
      { status := .changed
        output :=
          if options.has .check then Utf8.encode (Patch.render false before after ++ ['\n'])
          else stripped }

/-! ## Everything -/

/-- Does jobs one after the other. The input can be read once; after that it is empty. -/
def runJobs (options : Options) (settings : Settings) (tree : FileTree) (input : Bytes) :
    List Job → FileTree × List Effect
  | [] => (tree, [])
  | .input :: rest =>
    let effect := inputEffect options settings input
    let (tree, effects) := runJobs options settings tree [] rest
    (tree, effect :: effects)
  | job :: rest =>
    let (tree, effects) := runFiles options settings tree (job.paths options tree)
    let (tree, more) := runJobs options settings tree input rest
    (tree, effects ++ more)

/-- What the command does before it strips anything: it finds the settings and the jobs. -/
def prepare (options : Options) (tree : FileTree) : Except RunError (Settings × List Job) := do
  let settings ← options.settings tree
  let jobs ← options.targets.mapM (Job.ofPath tree)
  return (settings, jobs)

/-- Whether a run succeeded: nothing failed, and in check mode nothing would change. -/
def succeeds (check : Bool) (effects : List Effect) : Bool :=
  !effects.any (·.status == .failed) && !(check && effects.any (·.status == .changed))

/-- What a run of the command gives. -/
structure RunReport where
  tree : FileTree
  output : Bytes
  notices : List Notice
  success : Bool
  deriving DecidableEq, Repr

/-- Runs the command on the files below the working directory and its input. -/
def run (options : Options) (tree : FileTree) (input : Bytes) : RunReport :=
  let around (notices : List Notice) : List Notice :=
    if options.has .verbose then
      [Notice.started (options.has .check) (options.has .recursive)] ++ notices ++ [.finished]
    else notices
  match prepare options tree with
  | .error error => { tree, output := [], notices := around [.stopped error], success := false }
  | .ok (settings, jobs) =>
    let (tree, effects) := runJobs options settings tree input jobs
    { tree, output := effects.flatMap Effect.output
      notices := around (effects.flatMap Effect.notices)
      success := succeeds (options.has .check) effects }

/-- The name and version of the command. -/
def versionText : String := "cstrip 0.4.1\n"

/-- How the command is used. -/
def helpText : String :=
  "Removes the comments of C# source files, leaving everything else untouched.\n" ++
  "\n" ++
  "Usage: cstrip [OPTIONS] [PATHS]...\n" ++
  "\n" ++
  "Paths are C# files, project files (.csproj), solution files (.sln) and directories; - is the\n" ++
  "standard input.\n" ++
  "\n" ++
  "Options:\n" ++
  "  -c, --check                 Only show the differences stripping would make\n" ++
  "  -r, --recursive             Strip directories with everything below them\n" ++
  "  -v, --verbose               Print verbose output\n" ++
  "  -p, --print-parsing-errors  Print parsing errors\n" ++
  "      --strip-file-header     Strip the comments before the first token too\n" ++
  "      --keep-doc-comments     Keep documentation comments\n" ++
  "      --config <CONFIG>       The configuration file to use\n" ++
  "  -h, --help                  Print help\n" ++
  "  -V, --version               Print version\n"

end Uncomment
