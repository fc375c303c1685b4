import Uncomment.Files.Tree
import Uncomment.Log
import Uncomment.Settings.Format

/-!
# Loading settings

Settings come from a configuration file that is named, or from the one in a directory if it has one.
-/

namespace Uncomment

/-- Why settings could not be loaded. -/
inductive SettingsError where
  | unreadable (cause : IoError)
  | malformed
  deriving DecidableEq, Repr

/-- The wording of the reason. -/
def SettingsError.message : SettingsError → String
  | unreadable cause => "Failed to read the configuration file: " ++ cause.message
  | malformed => "Invalid configuration file: expected settings, one per line"

/-- The reason behind a reason. -/
def SettingsError.cause? : SettingsError → Option String
  | unreadable cause => some cause.message
  | malformed => none

namespace Settings

/-- The name of a configuration file. -/
def fileName : Text := "cstrip.toml".toList

/-- The configuration file of a directory. -/
def pathIn (directory : Text) : Text :=
  directory ++ '/' :: fileName

/-- Reads a configuration file. -/
def load (tree : FileTree) (path : Text) : Except SettingsError Settings :=
  match tree.readText path with
  | .error cause => .error (.unreadable cause)
  | .ok t =>
    match parse? t with
    | some settings => .ok settings
    | none => .error .malformed

/-- Reads the configuration file of a directory, if it has one. -/
def loadFrom (tree : FileTree) (directory : Text) : Except SettingsError (Option Settings) :=
  if tree.isFile (pathIn directory) then (load tree (pathIn directory)).map some else .ok none

/-- What is logged when the configuration file of a directory is looked for. -/
def loadFromLog (tree : FileTree) (directory : Text) : List LogEntry :=
  if tree.isFile (pathIn directory) then [.readingConfiguration (pathIn directory)] else []

end Settings

end Uncomment
