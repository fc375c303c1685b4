import Uncomment.Diagnostic.Fault
import Uncomment.Source.File

/-!
# Balanced delimiters

The one part of the grammar that is checked beyond tokens: brackets have to be balanced. The check
keeps the open ones on a stack, the innermost first. A closing bracket takes the innermost open one
off the stack even if it is of another pair, so one mistake is reported once.
-/

namespace Uncomment

/-- An opening bracket that waits to be closed. -/
structure OpenBracket where
  bracket : Bracket
  span : Span
  deriving DecidableEq, Repr

/-- The diagnostics of tokens with their spans, given the open brackets. Those still open at the end
are reported last, the outermost first. -/
def delimiterDiagnosticsFrom (stack : List OpenBracket) : List (Terminal × Span) → List Diagnostic
  | [] => stack.reverse.map fun o => ⟨o.span, .unclosed o.bracket⟩
  | (t, span) :: rest =>
    if t.kind = .punctuation then
      match Bracket.ofOpening? t.text, Bracket.ofClosing? t.text with
      | some bracket, _ => delimiterDiagnosticsFrom (⟨bracket, span⟩ :: stack) rest
      | none, none => delimiterDiagnosticsFrom stack rest
      | none, some found =>
        match stack with
        | [] => ⟨span, .unmatchedClosing found⟩ :: delimiterDiagnosticsFrom [] rest
        | innermost :: outer =>
          if innermost.bracket = found then delimiterDiagnosticsFrom outer rest
          else
            ⟨span, .mismatched innermost.bracket found⟩ :: delimiterDiagnosticsFrom outer rest
    else delimiterDiagnosticsFrom stack rest

/-- What is wrong with the brackets of a file. -/
def SourceFile.delimiterDiagnostics (file : SourceFile) : List Diagnostic :=
  delimiterDiagnosticsFrom [] (tokenSpans 0 file.terminals)

end Uncomment
