import Uncomment.Text.CharClass

/-!
# Directives

A directive is a line whose first character after white space is `#`. As far as conditional
compilation is concerned there are six of them; all others (`#region`, `#pragma`, …) are alike.
-/

namespace Uncomment

/-- A directive with its argument, where it has one. -/
inductive Directive where
  | ifBranch (condition : Text)
  | elifBranch (condition : Text)
  | elseBranch
  | endif
  | define (symbol : Text)
  | undef (symbol : Text)
  | other
  deriving DecidableEq, Repr

namespace Directive

/-- The directive with a name and an argument. -/
def ofName (name argument : Text) : Directive :=
  if name = "if".toList then ifBranch argument
  else if name = "elif".toList then elifBranch argument
  else if name = "else".toList then elseBranch
  else if name = "endif".toList then endif
  else if name = "define".toList then define argument
  else if name = "undef".toList then undef argument
  else other

/-- Reads a directive line: white space, `#`, white space, a name of ASCII letters, and the argument
up to a comment, without the white space around it. A line without `#` is some other directive. -/
def parse (line : Text) : Directive :=
  let body := ((Text.dropStart? ['#'] line.trimStart).getD []).trimStart
  let name := body.takeWhile Char.isAlpha
  let argument := (Text.upTo ['/', '/'] (body.dropWhile Char.isAlpha)).trim
  ofName name argument

/-- Whether the directive starts or ends a conditional branch. -/
def isConditional : Directive → Bool
  | ifBranch _ | elifBranch _ | elseBranch | endif => true
  | define _ | undef _ | other => false

/-- The name of the directive, empty for the others. -/
def name : Directive → String
  | ifBranch _ => "if"
  | elifBranch _ => "elif"
  | elseBranch => "else"
  | endif => "endif"
  | define _ => "define"
  | undef _ => "undef"
  | other => ""

/-- The argument of the directive, for those that have one. -/
def argument? : Directive → Option Text
  | ifBranch argument | elifBranch argument | define argument | undef argument => some argument
  | elseBranch | endif | other => none

end Directive

/-- Whether the first line of the text is a conditional directive. -/
def startsWithConditional (t : Text) : Bool :=
  let line := t.currentLine
  line.trimStart.head? == some '#' && (Directive.parse line).isConditional

end Uncomment
