import Uncomment.Files.Path

/-!
# The projects a solution names

A solution names a project in a line such as

    Project("{type}") = "name", "path", "{identifier}"

The line is cut at the first equals sign and then at commas, without regard to quotes.
-/

namespace Uncomment.Solution

/-- The ending of the names of project files. -/
def projectExtension : Text := "csproj".toList

/-- The text inside a pair of quotes. -/
def unquoted? (t : Text) : Option Text := do
  Text.dropEnd? ['"'] (← Text.dropStart? ['"'] t)

/-- The path in the line of a project. -/
def projectPath? (line : Text) : Option Text := do
  let (declaration, values) ← Text.cutOnce? '=' (Text.trimStart line)
  if !"Project(".toList.isPrefixOf (Text.trimEnd declaration) then none
  let value ← (Text.splitAt ',' values)[1]?
  unquoted? (Text.trim value)

/-- The project files a solution names, in the order of its lines. -/
def projects (directory : Path) (t : Text) : List Path :=
  (((Text.lines t).filterMap projectPath?).filter (hasExtension · projectExtension)).map
    (resolveManifestPath directory)

end Uncomment.Solution
