import Uncomment.Directive.Compilation
import Uncomment.Text.Position
import Uncomment.Text.Quotation

/-!
# Faults and diagnostics

What can be wrong with a source file. A **fault** is a cause with the wording of its message; a
**diagnostic** is a fault at a span of the text.
-/

namespace Uncomment

/-- The three pairs of delimiters. -/
inductive Bracket where
  | round
  | square
  | curly
  deriving DecidableEq, Repr

namespace Bracket

/-- The token that opens the pair. -/
def opening : Bracket → Text
  | round => ['(']
  | square => ['[']
  | curly => ['\x7b']

/-- The token that closes the pair. -/
def closing : Bracket → Text
  | round => [')']
  | square => [']']
  | curly => ['\x7d']

/-- The pair a token opens. -/
def ofOpening? (t : Text) : Option Bracket :=
  [round, square, curly].find? fun b => b.opening == t

/-- The pair a token closes. -/
def ofClosing? (t : Text) : Option Bracket :=
  [round, square, curly].find? fun b => b.closing == t

end Bracket

/-- What can be wrong with a piece of a source file. -/
inductive Fault where
  /-- The character starts no token. -/
  | badCharacter (character : Char)
  | unterminatedComment
  | unterminatedString
  | unterminatedCharacter
  /-- A closing delimiter without an open one. -/
  | unmatchedClosing (found : Bracket)
  /-- An opening delimiter that is never closed. -/
  | unclosed (opened : Bracket)
  /-- A closing delimiter of another pair than the innermost open one. -/
  | mismatched (opened found : Bracket)
  | unexpectedDirective (directive : Directive)
  | invalidDirective
  /-- The file ends inside an `#if`. -/
  | unterminatedConditional
  deriving DecidableEq, Repr

namespace Fault

/-- The wording of a fault. -/
def message : Fault → String
  | badCharacter character =>
    "Unexpected character '" ++ String.ofList (Quotation.plainChar character) ++ "'."
  | unterminatedComment => "Unterminated block comment."
  | unterminatedString => "Unterminated string literal."
  | unterminatedCharacter => "Unterminated character literal."
  | unmatchedClosing found =>
    "Unexpected closing delimiter '" ++ String.ofList found.closing ++ "'."
  | unclosed opened => "Unclosed delimiter '" ++ String.ofList opened.opening ++ "'."
  | mismatched opened found =>
    "Mismatched closing delimiter: expected '" ++ String.ofList opened.closing ++ "', found '" ++
      String.ofList found.closing ++ "'."
  | unexpectedDirective directive => "Unexpected '#" ++ directive.name ++ "' directive."
  | invalidDirective => "Invalid preprocessor expression."
  | unterminatedConditional => "'#endif' directive expected."

/-- The fault of a directive. -/
def ofDirectiveError : DirectiveError → Fault
  | .unexpected directive => unexpectedDirective directive
  | .invalidExpression => invalidDirective

end Fault

/-- A fault and the stretch of text it is about. -/
structure Diagnostic where
  span : Span
  fault : Fault
  deriving DecidableEq, Repr

end Uncomment
