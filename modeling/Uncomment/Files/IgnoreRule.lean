import Uncomment.Files.GlobText
import Uncomment.Text.CharClass

/-!
# The rules of an ignore file

An ignore file lists globs, one per line; what they describe is passed over when a directory is
searched, unless a later line keeps it. A line that is no glob says nothing, but a glob that is nested too
deeply makes the whole file useless.
-/

namespace Uncomment

/-- What a rule says about the paths it describes. -/
inductive Verdict where
  | ignored
  | kept
  deriving DecidableEq, Repr

/-- A line of an ignore file. -/
structure IgnoreRule where
  glob : Glob
  verdict : Verdict
  /-- The rule is about directories only. -/
  foldersOnly : Bool
  deriving Repr

namespace IgnoreRule

/-- Blanks at the end of a line mean nothing, unless the last is escaped. -/
def trimLine (line : Text) : Text :=
  if ['\\', ' '].isSuffixOf line then line else Text.trimEnd line

/-- What a line says about its paths, whether it begins at the directory of the file, and the rest. A
backslash takes a mark at the start literally. -/
def marks (line : Text) : Verdict × Bool × Text :=
  match line with
  | '\\' :: '!' :: _ | '\\' :: '#' :: _ => (.ignored, false, line.drop 1)
  | _ =>
    let (verdict, line) :=
      match line with
      | '!' :: rest => (Verdict.kept, rest)
      | _ => (Verdict.ignored, line)
    match line with
    | '/' :: rest => (verdict, true, rest)
    | _ => (verdict, false, line)

/-- Whether a line is about directories only, and the line without the slash that says so. -/
def folderMark (line : Text) : Bool × Text :=
  match Text.dropEnd? ['/'] line with
  | none => (false, line)
  | some line => (true, (Text.dropEnd? ['\\'] line).getD line)

/-- The glob of a line. A line without a slash describes paths in any directory, and one that ends with
two stars only what is below a directory. -/
def globText (anchored : Bool) (line : Text) : Text :=
  let anywhere := "**/".toList
  let t :=
    if !anchored && !line.contains '/' && line != ['*', '*'] then anywhere ++ line else line
  if "/**".toList.isSuffixOf t then t ++ "/*".toList else t

/-- The rule of a line. There is none for comments, empty lines and what is not a glob. -/
def ofLine? (line : Text) : Option IgnoreRule :=
  if line.head? = some '#' then none
  else
    let line := trimLine line
    if line.isEmpty then none
    else
      let (verdict, anchored, line) := marks line
      let (foldersOnly, line) := folderMark line
      (Glob.ofText? (globText anchored line)).map fun glob => { glob, verdict, foldersOnly }

/-- Whether a rule is about a path. -/
def applies (rule : IgnoreRule) (isFolder : Bool) (path : Bytes) : Bool :=
  (isFolder || !rule.foldersOnly) && rule.glob.describes path

end IgnoreRule

/-- The rules of an ignore file. A byte order mark at its start is skipped. -/
def ignoreRules (content : Bytes) : List IgnoreRule :=
  let lines :=
    match Utf8.lines content with
    | first :: rest => first.dropWhile (· == '\uFEFF') :: rest
    | [] => []
  let rules := lines.filterMap IgnoreRule.ofLine?
  if rules.any (·.glob.isTooDeep) then [] else rules

/-- What rules say about a path: the last one that applies decides. -/
def verdict? (rules : List IgnoreRule) (isFolder : Bool) (path : Bytes) : Option Verdict :=
  (rules.reverse.find? fun rule => rule.applies isFolder path).map IgnoreRule.verdict

end Uncomment
