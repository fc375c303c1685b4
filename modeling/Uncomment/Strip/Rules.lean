import Uncomment.Strip.TriviumClass

/-!
# The two rules

Comments are removed from a span of trivia by two rules, one after the other. Each looks at a trivium
and the class of what comes next.

* The **line rule** removes a comment that runs to the end of its line, with the blanks right before it.
* The **block rule** removes a comment with an end of its own. At the end of a line, or of the file, the
  blanks right before it go too. Before something else on the same line the blanks stay, and a comment
  that spans lines leaves one line break, so what follows stays on a line of its own.

In a leading span the line break after a removed comment goes with it, so a line that held nothing but
the comment disappears.
-/

namespace Uncomment

/-- Removes line comments. `skip` tells that the next trivium is a line break that goes too. -/
def lineRule (context : SpanContext) (skip : Bool) : Trivia → Trivia
  | [] => []
  | t :: rest =>
    if skip then lineRule context false rest
    else
      match t.classify context.stripDocs, context.nextClass rest with
      | .inlineWhitespace, some .lineComment => lineRule context false rest
      | .lineComment, some .lineBreak => lineRule context context.collapse rest
      | .lineComment, some .endOfInput => lineRule context false rest
      | _, _ => t :: lineRule context false rest

/-- The line break that stands in for a removed comment that spans lines. -/
def replacementBreak (comment : Text) : Option Trivium :=
  match comment.contains '\r', comment.contains '\n' with
  | true, true => some ⟨.newline, ['\r', '\n']⟩
  | true, false => some ⟨.newline, ['\r']⟩
  | false, true => some ⟨.newline, ['\n']⟩
  | false, false => none

/-- Removes block comments. `skip` is as for the line rule; `pending` are the blanks that wait for the
comment after them to be decided. -/
def blockRule (context : SpanContext) (skip : Bool) (pending : Trivia) : Trivia → Trivia
  | [] => []
  | t :: rest =>
    if skip then blockRule context false pending rest
    else
      match t.classify context.stripDocs, context.nextClass rest with
      | .inlineWhitespace, some .blockComment => blockRule context false (pending ++ [t]) rest
      | .blockComment, some .lineBreak => blockRule context context.collapse [] rest
      | .blockComment, some .endOfInput => blockRule context false [] rest
      | .blockComment, _ =>
        (replacementBreak t.text).toList ++ pending ++ blockRule context false [] rest
      | _, _ => t :: blockRule context false pending rest

/-- A span without its line comments. -/
def removeLineComments (context : SpanContext) (trivia : Trivia) : Trivia :=
  lineRule context false trivia

/-- A span without its block comments. -/
def removeBlockComments (context : SpanContext) (trivia : Trivia) : Trivia :=
  blockRule context false [] trivia

/-- A span without its comments: the line rule, then the block rule. -/
def stripSpan (context : SpanContext) (trivia : Trivia) : Trivia :=
  removeBlockComments context (removeLineComments context trivia)

end Uncomment
