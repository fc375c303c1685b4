import Uncomment.Patch.Render
import Uncomment.Project.Sources
import Uncomment.Settings.Load
import Uncomment.Strip.StoredFile

/-!
# What the command says

The command reports progress and mistakes as notices, each on lines of its own. Mistakes are shown in red
where colours are wanted. What it was asked for goes elsewhere, to its output: the differences found, and
what became of its input.
-/

namespace Uncomment

/-- Why the command stopped before it stripped anything. -/
inductive RunError where
  /-- The settings could not be loaded, from the named file or from the usual one. -/
  | settings (path : Option Text) (cause : SettingsError)
  /-- The sources of a path could not be selected. -/
  | selection (path : Text) (cause : SelectionError)
  deriving DecidableEq, Repr

/-- The wording of a reason and of those behind it. -/
def RunError.message : RunError → String
  | settings path cause =>
    let context :=
      match path with
      | some path => "Failed to load the configuration " ++ String.ofList path ++ "."
      | none => "Failed to load " ++ String.ofList Settings.fileName ++ "."
    String.intercalate ": " ([context, cause.message] ++ cause.cause?.toList)
  | selection _ (.unsupported path) => (SelectionError.unsupported path).message
  | selection path cause =>
    let context := "Failed to select the source files of " ++ String.ofList path ++ "."
    String.intercalate ": " ([context, cause.message] ++ cause.cause?.toList)

/-- Something the command reports. -/
inductive Notice where
  | started (check recursive : Bool)
  | stripping (path : Text)
  /-- A text is not accepted; the entries are given if they are to be shown. -/
  | rejected (name : String) (entries : Option (List ReportEntry))
  | failed (name : String) (error : StripError)
  | stopped (error : RunError)
  | finished
  deriving DecidableEq, Repr

/-- The code that starts red text. -/
def redStart : Text := "\x1b[31m".toList

/-- The text with red begun again after each end of a style. -/
def redAgain : Text → Text
  | '\x1b' :: '[' :: '0' :: 'm' :: rest => Patch.styleEnd ++ redStart ++ redAgain rest
  | c :: rest => c :: redAgain rest
  | [] => []

/-- A text in red, if colours are wanted. -/
def inRed (colored : Bool) (s : String) : String :=
  if colored then String.ofList (redStart ++ redAgain s.toList ++ Patch.styleEnd) else s

/-- How a text that is not accepted is explained. -/
def rejectionDetails : Option (List ReportEntry) → String
  | some entries => reportLines entries
  | none => "Run with '--print-parsing-errors' to see error details."

/-- The wording of a notice. The time the command took is given in seconds. -/
def Notice.render (colored : Bool) (seconds : String) : Notice → String
  | started check recursive =>
    s!"Start stripping. Check: {check}, Recursive: {recursive}.\n"
  | stripping path => "Stripping file: " ++ String.ofList path ++ ".\n"
  | rejected name entries =>
    inRed colored ("A parsing error occurred in " ++ name ++ ". The content was not stripped.") ++
      "\n" ++ inRed colored (rejectionDetails entries) ++ "\n"
  | failed name error =>
    inRed colored ("Failed to strip " ++ name ++ ": " ++ error.message) ++ "\n"
  | stopped error => inRed colored ("Error: " ++ error.message) ++ "\n"
  | finished => "Finished stripping. Time taken: " ++ seconds ++ " seconds.\n"

/-- A number of milliseconds in seconds, with two places. -/
def inSeconds (milliseconds : Nat) : String :=
  let hundredths := (milliseconds + 5) / 10
  let places := toString (hundredths % 100)
  toString (hundredths / 100) ++ "." ++ (if hundredths % 100 < 10 then "0" ++ places else places)

/-- Whether colours are wanted. They can be forced by the environment; otherwise they are for
terminals, and can be turned off. -/
def wantsColors (forced disabled allowed : Option String) (isTerminal : Bool) : Bool :=
  if forced.any (· != "0") then true
  else disabled.isNone && allowed.all (· != "0") && isTerminal

/-- What the command shows about a file that would change. -/
def shownDifference (path before after : Text) : Text :=
  "Diff found in file ".toList ++ path ++ ":\n ".toList ++ Patch.render true before after ++ ['\n']

end Uncomment
